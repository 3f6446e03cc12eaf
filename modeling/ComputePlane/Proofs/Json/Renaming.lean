import ComputePlane.Proofs.Json.Carrying

/-!
# One name changed in a text

A path leads to a string in a tree, through fields of records and items of arrays. The rules below
say what becomes of a value that is read when another string is put there: fields on the way there
are followed, all others are read as before.
-/

namespace ComputePlane.Json

variable {α β : Type}

/-! ## Changes -/

/-- The item at a position is replaced by a related one. -/
inductive ItemChanged (T : Json → Json → Prop) : Nat → List Json → List Json → Prop
  | here {v w : Json} {vs : List Json} (value : T v w) : ItemChanged T 0 (v :: vs) (w :: vs)
  | there {i : Nat} {v : Json} {vs ws : List Json} (tail : ItemChanged T i vs ws) :
      ItemChanged T (i + 1) (v :: vs) (v :: ws)

/-- The value of the first member of a name is replaced by a related one. -/
inductive MemberChanged (T : Json → Json → Prop) (name : String) : Members → Members → Prop
  | here {v w : Json} {ms : Members} (value : T v w) :
      MemberChanged T name ((some name, v) :: ms) ((some name, w) :: ms)
  | there {m : Option String × Json} {ms ns : Members} (other : m.1 ≠ some name)
      (tail : MemberChanged T name ms ns) : MemberChanged T name (m :: ms) (m :: ns)

/-- The value of a record's field is replaced by a related one, in an object by the name of the
field, in an array by its position. -/
inductive FieldChanged (T : Json → Json → Prop) (name : String) (i : Nat) : Json → Json → Prop
  | object {ms ns : Members} (members : MemberChanged T name ms ns) :
      FieldChanged T name i (.object ms) (.object ns)
  | array {vs ws : List Json} (items : ItemChanged T i vs ws) :
      FieldChanged T name i (.array vs) (.array ws)

/-- A step into a tree: to a field, which has a name in an object and a position in an array, or to
an item of a list. -/
inductive Step where
  | field (name : String) (position : Nat)
  | item (position : Nat)
  deriving DecidableEq, Repr

/-- The string at the end of a path is replaced by `name`. -/
def Renamed (name : String) : List Step → Json → Json → Prop
  | [], v, w => (∃ s, v = .text s) ∧ w = .text name
  | .field k i :: path, v, w => FieldChanged (Renamed name path) k i v w
  | .item i :: path, v, w =>
    ∃ vs ws, v = .array vs ∧ w = .array ws ∧ ItemChanged (Renamed name path) i vs ws

/-- The values of the fields, one of them replaced by a related one. -/
def LookChanged (T : Json → Json → Prop) (name : String) (look look' : String → Option Json) :
    Prop :=
  (∀ k, k ≠ name → look' k = look k) ∧ ∃ v w, look name = some v ∧ look' name = some w ∧ T v w

theorem Renamed.ne_null {name : String} {path : List Step} {v w : Json}
    (h : Renamed name path v w) : v ≠ .null ∧ w ≠ .null := by
  rcases path with _ | ⟨⟨k, i⟩ | i, path⟩
  · obtain ⟨⟨s, rfl⟩, rfl⟩ := h
    exact ⟨nofun, nofun⟩
  · have h : FieldChanged (Renamed name path) k i v w := h
    cases h <;> exact ⟨nofun, nofun⟩
  · obtain ⟨vs, ws, rfl, rfl, -⟩ := h
    exact ⟨nofun, nofun⟩

/-- What is read now is what `f` makes of what was read before, if it makes anything of it. -/
def Outcome.gives (f : α → Option α) : Outcome α := fun a o => o = f a

open Outcome

/-! ## Decoders -/

namespace Decoder

variable {d : Decoder α} {R : Outcome α} {name : String} {path : List Step}

theorem carries_andMap (f : String → α) :
    (Decoder.name.andMap f).Carries (Renamed name []) (gives fun _ => some (f name)) := by
  rintro _ _ a ⟨⟨s, rfl⟩, rfl⟩ -
  rfl

theorem carries_andThen (f : String → Option α) :
    (Decoder.name.andThen f).Carries (Renamed name []) (gives fun _ => f name) := by
  rintro _ _ a ⟨⟨s, rfl⟩, rfl⟩ -
  change (Decoder.name.andThen f (.text name)).toOption = f name
  cases h : f name <;> simp [andThen, Decoder.name, Json.text, h, bind, Except.bind, pure,
    Except.pure, throw, throwThe, MonadExceptOf.throw, Except.toOption]

theorem Carries.orNull_renamed (h : d.Carries (Renamed name path) R) :
    d.orNull.Carries (Renamed name path) (present R) :=
  h.orNull Renamed.ne_null

theorem Carries.items {T : Json → Json → Prop} (h : d.Carries T R) {i : Nat} {vs ws : List Json}
    {as : List α} (hT : ItemChanged T i vs ws) (hvs : d.items vs = .ok as) :
    Outcome.item i R as (d.items ws).toOption := by
  induction hT generalizing as with
  | here value =>
    obtain ⟨b, bs, hb, hbs, rfl⟩ := items_cons_eq_ok.mp hvs
    refine ⟨b, _, rfl, h value hb, ?_⟩
    rw [toOption_items_cons, hbs]
    cases (d _).toOption <;> rfl
  | there tail ih =>
    obtain ⟨b, bs, hb, hbs, rfl⟩ := items_cons_eq_ok.mp hvs
    obtain ⟨c, oc, hc, hoc, hws⟩ := ih hbs
    refine ⟨c, oc, hc, hoc, ?_⟩
    rw [toOption_items_cons, hb, hws]
    cases oc <;> rfl

theorem Carries.list (h : d.Carries (Renamed name path) R) (i : Nat) :
    d.list.Carries (Renamed name (.item i :: path)) (Outcome.item i R) := by
  rintro _ _ as ⟨vs, ws, rfl, rfl, hT⟩ hvs
  exact h.items hT hvs

end Decoder

/-! ## Members -/

section
variable {T : Json → Json → Prop} {name : String} {ms ns : Members}

theorem MemberChanged.map_fst (h : MemberChanged T name ms ns) :
    ns.map (·.1) = ms.map (·.1) := by
  induction h with
  | here value => rfl
  | there other tail ih => simp [ih]

theorem MemberChanged.of_mem (h : MemberChanged T name ms ns) {k : String} {w : Json}
    (hmem : (some k, w) ∈ ns) (hk : k ≠ name) : (some k, w) ∈ ms := by
  induction h with
  | here value =>
    rcases List.mem_cons.mp hmem with heq | hmem
    · cases heq
      exact absurd rfl hk
    · exact List.mem_cons_of_mem _ hmem
  | there other tail ih =>
    rcases List.mem_cons.mp hmem with rfl | hmem
    · exact List.mem_cons_self
    · exact List.mem_cons_of_mem _ (ih hmem)

end

/-! ## Fields -/

namespace Shape

variable {T : Json → Json → Prop} {name other : String} {d : Decoder α} {absent cut : Option α}

theorem byPosition_cons_eq_ok {v : Json} {vs rest : List Json} {a : α}
    (h : (field name d absent cut).byPosition (v :: vs) = .ok (a, rest)) :
    d v = .ok a ∧ rest = vs := by
  change (d v).map (·, vs) = .ok (a, rest) at h
  cases hd : d v with
  | error e =>
    rw [hd] at h
    cases h
  | ok b =>
    rw [hd] at h
    cases h
    exact ⟨rfl, rfl⟩

theorem toOption_byPosition_cons (v : Json) (vs : List Json) :
    ((field name d absent cut).byPosition (v :: vs)).toOption = (d v).toOption.map (·, vs) := by
  change ((d v).map (·, vs)).toOption = _
  cases d v <;> rfl

/-- The field that is changed. -/
theorem carries_changed {R : Outcome α} (h : d.Carries T R) :
    (field name d absent cut).Carries (LookChanged T name) (ItemChanged T 0) Eq R where
  names := by
    rintro look look' a ⟨-, v, w, hv, hw, hT⟩ ha
    simp only [field, hv] at ha
    simp only [field, hw]
    exact h hT ha
  items := by
    rintro _ _ a rest (⟨value⟩ | -) ha
    obtain ⟨hd, rfl⟩ := byPosition_cons_eq_ok ha
    exact ⟨_, _, toOption_byPosition_cons _ _, h value hd, rfl⟩

/-- A field before the one that is changed. -/
theorem carries_before (hne : other ≠ name) (i : Nat) :
    (field other d absent cut).Carries (LookChanged T name) (ItemChanged T (i + 1))
      (ItemChanged T i) same where
  names := by
    rintro look look' a ⟨hlook, -⟩ ha
    simp only [field, hlook other hne] at ha ⊢
    rw [ha]
    rfl
  items := by
    rintro _ _ a rest (- | ⟨tail⟩) ha
    obtain ⟨hd, rfl⟩ := byPosition_cons_eq_ok ha
    refine ⟨_, _, toOption_byPosition_cons _ _, ?_, tail⟩
    rw [hd]
    rfl

/-- A field behind the one that is changed. -/
theorem carries_behind (hne : other ≠ name) :
    (field other d absent cut).Carries (LookChanged T name) Eq Eq same := by
  refine carries_field d.carries_eq fun {look look'} h => ?_
  rw [h.1 other hne]
  cases look other with
  | none => exact .none
  | some v => exact .some rfl

/-! ## Records -/

section
variable {ms ns : Members}

theorem lookChanged_look (h : MemberChanged T name ms ns) :
    LookChanged T name (look ms) (look ns) := by
  induction h with
  | here value =>
    refine ⟨fun k hk => ?_, _, _, by simp [look], by simp [look], value⟩
    have hbeq : (k == name) = false := by simpa using hk
    simp [look, List.lookup_cons, hbeq]
  | @there m ms ns other tail ih =>
    obtain ⟨hlook, v, w, hv, hw, hT⟩ := ih
    obtain ⟨l, u⟩ := m
    have hbeq : (some name == l) = false := by
      simpa using fun h : some name = l => other h.symm
    refine ⟨fun k hk => ?_, v, w, ?_, ?_, hT⟩
    · have := hlook k hk
      unfold look at this ⊢
      rw [List.lookup_cons, List.lookup_cons, this]
    · unfold look at hv ⊢
      rw [List.lookup_cons, hbeq, hv]
    · unfold look at hw ⊢
      rw [List.lookup_cons, hbeq, hw]

theorem admits_changed (h : MemberChanged T name ms ns) {names : List String}
    (hname : name ∈ names) (hms : Admits names ms) : Admits names ns := by
  refine ⟨fun m hm => ?_, ?_, fun k v hm hk => ?_⟩
  · have hfst : m.1 ∈ ms.map (·.1) := h.map_fst ▸ List.mem_map_of_mem hm
    obtain ⟨m', hm', heq⟩ := List.mem_map.mp hfst
    exact heq ▸ hms.named m' hm'
  · rw [given_eq, h.map_fst, ← given_eq]
    exact hms.once
  · exact hms.sound k v (h.of_mem hm fun hkn => hk (hkn ▸ hname)) hk

end

/-- A record with one field changed. -/
theorem Carries.record {s : Shape α} [s.Checked] {i : Nat} {R : Outcome α}
    (h : s.Carries (LookChanged T name) (ItemChanged T i) Eq R) (hname : name ∈ s.names) :
    (Decoder.record s).Carries (FieldChanged T name i) R := by
  intro v w a hT ha
  cases hT with
  | object members =>
    obtain ⟨hadmits, hbyName⟩ := record_object_eq_ok_iff.mp ha
    rw [toOption_record_object (admits_changed members hname hadmits)]
    exact h.names (lookChanged_look members) hbyName
  | @array vs ws items =>
    obtain ⟨rest, hvs, hrest⟩ := record_array_eq_ok ha
    obtain ⟨o, rest', hws, hR, rfl⟩ := h.items items hvs
    rwa [toOption_record_array hrest hws]

end Shape

end ComputePlane.Json
