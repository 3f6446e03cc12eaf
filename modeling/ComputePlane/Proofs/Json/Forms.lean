import Mathlib.Data.List.Perm.Basic
import ComputePlane.Proofs.Json.Carrying

/-!
# Rearranged texts

A form says where records stand in a tree, and with which fields. A tree is rearranged by putting
the members of its records in another order and adding members that are no fields, at any depth.
Decoders that follow a form read the same from the rearranged tree (`Decoder.Follows.decode`).
-/

namespace ComputePlane.Json

variable {α β : Type}

/-! ## Forms -/

/-- Where the records are in a tree. -/
inductive Form where
  | leaf
  | list (item : Form)
  | record (fields : List (String × Form))

abbrev fieldNames (fields : List (String × Form)) : List String := fields.map (·.1)

/-- A member that is no field, with a value that is JSON. -/
def IsForeign (fields : List (String × Form)) (m : Option String × Json) : Prop :=
  ∃ k, m.1 = some k ∧ k ∉ fieldNames fields ∧ m.2.sound = true

mutual

/-- The second tree is the first one with the members of records in another order and foreign ones
among them. -/
inductive Rearranged : Form → Json → Json → Prop
  | same (f : Form) (v : Json) : Rearranged f v v
  | array {f : Form} {vs ws : List Json} (items : RearrangedItems f vs ws) :
      Rearranged (.list f) (.array vs) (.array ws)
  | object {fields : List (String × Form)} {ms ms' foreign ns : Members}
      (members : RearrangedMembers fields ms ms') (hforeign : ∀ m ∈ foreign, IsForeign fields m)
      (order : ns.Perm (ms' ++ foreign)) : Rearranged (.record fields) (.object ms) (.object ns)

/-- The same for the items of an array. -/
inductive RearrangedItems : Form → List Json → List Json → Prop
  | nil {f : Form} : RearrangedItems f [] []
  | cons {f : Form} {v w : Json} {vs ws : List Json} (head : Rearranged f v w)
      (tail : RearrangedItems f vs ws) : RearrangedItems f (v :: vs) (w :: ws)

/-- The same for the values of fields, the members being in the same order. -/
inductive RearrangedMembers : List (String × Form) → Members → Members → Prop
  | nil {fields : List (String × Form)} : RearrangedMembers fields [] []
  | field {fields : List (String × Form)} {k : String} {f : Form} {v w : Json} {ms ns : Members}
      (known : fields.lookup k = some f) (value : Rearranged f v w)
      (tail : RearrangedMembers fields ms ns) :
      RearrangedMembers fields ((some k, v) :: ms) ((some k, w) :: ns)
  | other {fields : List (String × Form)} {m : Option String × Json} {ms ns : Members}
      (tail : RearrangedMembers fields ms ns) : RearrangedMembers fields (m :: ms) (m :: ns)

end

/-- Values of fields before and after a rearrangement. -/
def RearrangedFields (fields : List (String × Form)) (look look' : String → Option Json) : Prop :=
  ∀ k f, fields.lookup k = some f → Option.Rel (Rearranged f) (look k) (look' k)

/-- A decoder reads the same from every rearranged tree. -/
def Decoder.Follows (d : Decoder α) (f : Form) : Prop := d.Carries (Rearranged f) .same

/-- A record is made of the same values from every rearranged object. -/
def Shape.Follows (s : Shape α) (fields : List (String × Form)) : Prop :=
  s.Carries (RearrangedFields fields) Eq Eq .same

/-! ## Members -/

section
variable {fields : List (String × Form)} {ms ns : Members}

theorem RearrangedMembers.map_fst (h : RearrangedMembers fields ms ns) :
    ns.map (·.1) = ms.map (·.1) := by
  induction ms generalizing ns with
  | nil =>
    cases h
    rfl
  | cons m ms ih => cases h <;> simp [ih ‹_›]

theorem mem_fieldNames {k : String} {f : Form} (h : fields.lookup k = some f) :
    k ∈ fieldNames fields := by
  obtain ⟨l₁, l₂, rfl, -⟩ := List.lookup_eq_some_iff.mp h
  simp

theorem RearrangedMembers.of_mem_of_not_mem (h : RearrangedMembers fields ms ns) {k : String}
    {w : Json} (hmem : (some k, w) ∈ ns) (hk : k ∉ fieldNames fields) : (some k, w) ∈ ms := by
  induction ms generalizing ns with
  | nil =>
    cases h
    exact hmem
  | cons m ms ih =>
    cases h with
    | field known value tail =>
      rcases List.mem_cons.mp hmem with heq | hmem
      · cases heq
        exact absurd (mem_fieldNames known) hk
      · exact List.mem_cons_of_mem _ (ih tail hmem)
    | other tail =>
      rcases List.mem_cons.mp hmem with rfl | hmem
      · exact List.mem_cons_self
      · exact List.mem_cons_of_mem _ (ih tail hmem)

theorem RearrangedMembers.exists_mem (h : RearrangedMembers fields ms ns) {k : String} {f : Form}
    {v : Json} (hmem : (some k, v) ∈ ms) (hk : fields.lookup k = some f) :
    ∃ w, (some k, w) ∈ ns ∧ Rearranged f v w := by
  induction ms generalizing ns with
  | nil => cases hmem
  | cons m ms ih =>
    cases h with
    | field known value tail =>
      rcases List.mem_cons.mp hmem with heq | hmem
      · cases heq
        cases known.symm.trans hk
        exact ⟨_, List.mem_cons_self, value⟩
      · obtain ⟨w, hw, hvw⟩ := ih tail hmem
        exact ⟨w, List.mem_cons_of_mem _ hw, hvw⟩
    | other tail =>
      rcases List.mem_cons.mp hmem with rfl | hmem
      · exact ⟨v, List.mem_cons_self, .same f v⟩
      · obtain ⟨w, hw, hvw⟩ := ih tail hmem
        exact ⟨w, List.mem_cons_of_mem _ hw, hvw⟩

end

/-! ## Objects -/

section
variable {fields : List (String × Form)} {ms ms' foreign ns : Members}

theorem given_foreign (h : ∀ m ∈ foreign, IsForeign fields m) :
    Shape.given (fieldNames fields) foreign = [] := by
  refine List.filterMap_eq_nil_iff.mpr fun m hm => ?_
  obtain ⟨k, hk, hknown, -⟩ := h m hm
  simp only [hk, Option.filter_eq_none_iff, Option.some.injEq]
  rintro _ rfl
  simpa using hknown

theorem given_perm (h : RearrangedMembers fields ms ms')
    (hforeign : ∀ m ∈ foreign, IsForeign fields m) (order : ns.Perm (ms' ++ foreign)) :
    (Shape.given (fieldNames fields) ns).Perm (Shape.given (fieldNames fields) ms) := by
  have hsame : Shape.given (fieldNames fields) ms' = Shape.given (fieldNames fields) ms := by
    rw [Shape.given_eq, h.map_fst, ← Shape.given_eq]
  have hperm := order.filterMap fun m => m.1.filter (· ∈ fieldNames fields)
  rw [List.filterMap_append] at hperm
  rwa [← hsame, ← List.append_nil (Shape.given _ ms'), ← given_foreign hforeign]

/-- A rearranged object can be the same record. -/
theorem admits_rearranged (h : RearrangedMembers fields ms ms')
    (hforeign : ∀ m ∈ foreign, IsForeign fields m) (order : ns.Perm (ms' ++ foreign))
    (hms : Shape.Admits (fieldNames fields) ms) : Shape.Admits (fieldNames fields) ns := by
  refine ⟨fun m hm => ?_, ?_, fun k v hm hk => ?_⟩
  · rcases List.mem_append.mp (order.mem_iff.mp hm) with hm | hm
    · have hfst : m.1 ∈ ms.map (·.1) := h.map_fst ▸ List.mem_map_of_mem hm
      obtain ⟨m', hm', heq⟩ := List.mem_map.mp hfst
      exact heq ▸ hms.named m' hm'
    · obtain ⟨k, hk, -⟩ := hforeign m hm
      rw [hk]
      rfl
  · exact (given_perm h hforeign order).nodup_iff.mpr hms.once
  · rcases List.mem_append.mp (order.mem_iff.mp hm) with hm | hm
    · exact hms.sound k v (h.of_mem_of_not_mem hm hk) hk
    · obtain ⟨l, hl, -, hsound⟩ := hforeign _ hm
      exact hsound

/-- A rearranged object has the same fields, with rearranged values. -/
theorem rearrangedFields_look (h : RearrangedMembers fields ms ms')
    (hforeign : ∀ m ∈ foreign, IsForeign fields m) (order : ns.Perm (ms' ++ foreign))
    (hms : Shape.Admits (fieldNames fields) ms) :
    RearrangedFields fields (Shape.look ms) (Shape.look ns) := by
  intro k f hk
  have hknown := mem_fieldNames hk
  have hns := admits_rearranged h hforeign order hms
  cases hv : Shape.look ms k with
  | some v =>
    obtain ⟨w, hw, hvw⟩ := h.exists_mem ((hms.look_eq_some hknown).mp hv) hk
    rw [(hns.look_eq_some hknown).mpr (order.mem_iff.mpr (List.mem_append_left _ hw))]
    exact .some hvw
  | none =>
    cases hw : Shape.look ns k with
    | none => exact .none
    | some w =>
      -- the member would come from the first object, or not be a field
      have hmem := order.mem_iff.mp ((hns.look_eq_some hknown).mp hw)
      rcases List.mem_append.mp hmem with hmem | hmem
      · have hfst : some k ∈ ms.map (·.1) := h.map_fst ▸ List.mem_map_of_mem (f := (·.1)) hmem
        obtain ⟨⟨_, v⟩, hv', rfl⟩ := List.mem_map.mp hfst
        cases hv.symm.trans ((hms.look_eq_some hknown).mpr hv')
      · obtain ⟨l, hl, hforeign, -⟩ := hforeign _ hmem
        cases hl
        exact absurd hknown hforeign

end

/-! ## Decoders that follow a form -/

section
variable {d : Decoder α} {f : Form}

theorem Decoder.follows_leaf (d : Decoder α) : d.Follows .leaf := by
  intro v w a hT h
  cases hT
  exact d.carries_eq rfl h

theorem Decoder.Follows.orNull (h : d.Follows f) : d.orNull.Follows f := by
  refine Carries.orNull_same h fun hT => ?_
  cases hT with
  | same => exact .inr rfl
  | array => exact .inl ⟨nofun, nofun⟩
  | object => exact .inl ⟨nofun, nofun⟩

theorem Decoder.Follows.items (h : d.Follows f) {vs ws : List Json} {as : List α}
    (hT : RearrangedItems f vs ws) (hvs : d.items vs = .ok as) : d.items ws = .ok as := by
  induction vs generalizing ws as with
  | nil =>
    cases hT
    exact hvs
  | cons v vs ih =>
    cases hT with
    | cons head tail =>
      obtain ⟨b, bs, hb, hbs, rfl⟩ := items_cons_eq_ok.mp hvs
      exact items_cons_eq_ok.mpr ⟨b, bs, eq_ok_of_toOption (h head hb), ih tail hbs, rfl⟩

theorem Decoder.Follows.list (h : d.Follows f) : d.list.Follows (.list f) := by
  intro v w as hT hv
  cases hT with
  | same => exact d.list.carries_eq rfl hv
  | array items => exact congrArg Except.toOption (h.items items hv)

/-- A record follows its fields. -/
theorem Shape.Follows.record {s : Shape α} [s.Checked] {fields : List (String × Form)}
    (hs : s.Follows fields) (hnames : s.names = fieldNames fields) :
    (Decoder.record s).Follows (.record fields) := by
  intro v w a hT hv
  cases hT with
  | same => exact (Decoder.record s).carries_eq rfl hv
  | object members hforeign order =>
    obtain ⟨hadmits, hname⟩ := Shape.record_object_eq_ok_iff.mp hv
    rw [hnames] at hadmits
    have hname' := hs.names (rearrangedFields_look members hforeign order hadmits) hname
    exact congrArg Except.toOption (Shape.record_object_eq_ok_iff.mpr
      ⟨hnames ▸ admits_rearranged members hforeign order hadmits, eq_ok_of_toOption hname'⟩)

/-- A text whose tree is rearranged holds the same value. -/
theorem Decoder.Follows.decode (h : d.Follows f) {s s' : String} {a : α} (hs : decode d s = .ok a)
    (hT : Rearranged f (parse s).root (parse s').root) (hcomplete : (parse s').complete = true) :
    decode d s' = .ok a := by
  exact eq_ok_of_toOption (Carries.decode h hs hT hcomplete)

end

/-! ## Fields of records -/

namespace Shape

variable {fields : List (String × Form)}

theorem Follows.seq {f : Shape (α → β)} {s : Shape α} (hf : f.Follows fields)
    (hs : s.Follows fields) : (f <*> s).Follows fields :=
  Carries.seq_same hf hs

theorem Follows.map (g : α → β) {s : Shape α} (hs : s.Follows fields) : (g <$> s).Follows fields :=
  Carries.map_same g hs

theorem follows_field {name : String} {d : Decoder α} {f : Form} {absent cut : Option α}
    (hd : d.Follows f) (hk : fields.lookup name = some f) :
    (field name d absent cut).Follows fields :=
  carries_field hd fun h => h name f hk

theorem follows_optional {name : String} {d : Decoder α} {f : Form} (hd : d.Follows f)
    (hk : fields.lookup name = some f) : (optional name d).Follows fields :=
  follows_field hd.orNull hk

/-- A value without records. -/
theorem follows_plain {name : String} {d : Decoder α} {absent cut : Option α}
    (hk : fields.lookup name = some .leaf) : (field name d absent cut).Follows fields :=
  follows_field d.follows_leaf hk

end Shape

end ComputePlane.Json
