import ComputePlane.Proofs.Json.Records

/-!
# Reading changed trees

A tree is read, and then a changed one. `Decoder.Carries` and `Shape.Carries` say how the outcome of
the second reading relates to what the first one gave; the rules below follow the way decoders and
records are put together. A record's fields are followed both by name and by position: by position,
each field takes its item and hands the changed rest on to the next one.
-/

namespace ComputePlane.Json

variable {α β : Type}

/-! ## Outcomes -/

/-- How the outcome of reading a changed tree relates to what was read before. -/
abbrev Outcome (α : Type) := α → Option α → Prop

namespace Outcome

/-- The same is read. -/
def same : Outcome α := fun a o => o = some a

/-- Related arguments give related values. -/
def arrow (R : Outcome α) (S : Outcome β) : Outcome (α → β) := fun g o =>
  ∀ a oa, R a oa → S (g a) (o.bind fun g' => oa.map g')

/-- There was a value, and what is read now is related to it. -/
def present (R : Outcome α) : Outcome (Option α) := fun a o =>
  ∃ b ob, a = some b ∧ R b ob ∧ o = ob.map some

/-- There was an item at the position, and what is read now in its place is related to it. -/
def item (i : Nat) (R : Outcome α) : Outcome (List α) := fun as o =>
  ∃ b ob, as[i]? = some b ∧ R b ob ∧ o = ob.map fun b' => as.set i b'

theorem arrow_same (g : α → β) : arrow same same g (some g) := by
  rintro a _ rfl
  rfl

theorem same_arrow {g : α → β} {o : Option (α → β)} (h : same g o) : arrow same same g o := by
  obtain rfl := h
  exact arrow_same g

end Outcome

open Outcome

theorem eq_ok_of_toOption {x : Except Fault α} {a : α} (h : x.toOption = some a) : x = .ok a := by
  cases x with
  | error e => cases h
  | ok b =>
    cases h
    rfl

/-! ## Decoders -/

namespace Decoder

/-- If a tree is read and then one that is related to it by `T`, the outcomes are related by `R`. -/
def Carries (d : Decoder α) (T : Json → Json → Prop) (R : Outcome α) : Prop :=
  ∀ ⦃v w : Json⦄ ⦃a : α⦄, T v w → d v = .ok a → R a (d w).toOption

variable {d : Decoder α} {T : Json → Json → Prop} {R : Outcome α}

theorem carries_eq (d : Decoder α) : d.Carries Eq same := by
  rintro v _ a rfl h
  rw [h]
  rfl

theorem toOption_orNull {v : Json} (h : v ≠ .null) :
    (d.orNull v).toOption = (d v).toOption.map some := by
  unfold orNull
  split
  · exact absurd rfl h
  · cases d v <;> rfl

theorem orNull_eq_ok {v : Json} {o : Option α} (hv : v ≠ .null) (h : d.orNull v = .ok o) :
    ∃ a, o = some a ∧ d v = .ok a := by
  unfold orNull at h
  split at h
  · exact absurd rfl hv
  · cases hd : d v with
    | error e =>
      rw [hd] at h
      cases h
    | ok a =>
      rw [hd] at h
      cases h
      exact ⟨a, rfl, rfl⟩

/-- What is related to a value that is not `null` may be `null` for the record around it. -/
theorem Carries.orNull (h : d.Carries T R) (hnull : ∀ {v w}, T v w → v ≠ .null ∧ w ≠ .null) :
    d.orNull.Carries T (present R) := by
  intro v w o hT ho
  obtain ⟨hv, hw⟩ := hnull hT
  obtain ⟨a, rfl, ha⟩ := orNull_eq_ok hv ho
  exact ⟨a, _, rfl, h hT ha, toOption_orNull hw⟩

/-- The same holds if `null` is only related to itself. -/
theorem Carries.orNull_same (h : d.Carries T same)
    (hnull : ∀ {v w}, T v w → (v ≠ .null ∧ w ≠ .null) ∨ v = w) : d.orNull.Carries T same := by
  intro v w o hT ho
  rcases hnull hT with ⟨hv, hw⟩ | rfl
  · obtain ⟨a, rfl, ha⟩ := orNull_eq_ok hv ho
    rw [same, toOption_orNull hw, h hT ha]
    rfl
  · exact carries_eq _ rfl ho

theorem items_cons_eq_ok {v : Json} {vs : List Json} {as : List α} :
    items d (v :: vs) = .ok as ↔ ∃ b bs, d v = .ok b ∧ items d vs = .ok bs ∧ as = b :: bs := by
  rw [items]
  cases d v with
  | error e => simp [bind, Except.bind]
  | ok b => cases items d vs <;> simp [bind, Except.bind, pure, Except.pure, eq_comm]

theorem toOption_items_cons (v : Json) (vs : List Json) :
    (items d (v :: vs)).toOption =
      (d v).toOption.bind fun b => (items d vs).toOption.map fun bs => b :: bs := by
  rw [items]
  cases d v with
  | error e => rfl
  | ok b => cases items d vs <;> rfl

end Decoder

/-! ## Records -/

namespace Shape

/-- If a record's fields are read and then related ones, the outcomes are related by `R`. By name
the values are related by `L`. By position the items are related by `P`, and the items left over by
`Q`. -/
structure Carries (s : Shape α) (L : (String → Option Json) → (String → Option Json) → Prop)
    (P Q : List Json → List Json → Prop) (R : Outcome α) : Prop where
  names : ∀ {look look' : String → Option Json} {a : α}, L look look' → s.byName look = .ok a →
    R a (s.byName look').toOption
  items : ∀ {vs ws : List Json} {a : α} {rest : List Json}, P vs ws →
    s.byPosition vs = .ok (a, rest) →
    ∃ o rest', (s.byPosition ws).toOption = o.map (·, rest') ∧ R a o ∧ Q rest rest'

variable {L : (String → Option Json) → (String → Option Json) → Prop}
  {P Q Q' : List Json → List Json → Prop} {R : Outcome α} {S : Outcome β}

theorem toOption_byName_seq (f : Shape (α → β)) (s : Shape α) (look : String → Option Json) :
    ((f <*> s).byName look).toOption =
      (f.byName look).toOption.bind fun g => (s.byName look).toOption.map g := by
  change ((both f s).byName look).toOption = _
  unfold both
  dsimp only
  cases f.byName look with
  | error e => rfl
  | ok g => cases s.byName look <;> rfl

theorem exists_of_byPosition_seq {f : Shape (α → β)} {s : Shape α} {vs rest : List Json} {b : β}
    (h : (f <*> s).byPosition vs = .ok (b, rest)) : ∃ g a vs', f.byPosition vs = .ok (g, vs') ∧
      s.byPosition vs' = .ok (a, rest) ∧ g a = b := by
  change (both f s).byPosition vs = .ok (b, rest) at h
  unfold both at h
  dsimp only at h
  rcases hf : f.byPosition vs with e | ⟨g, vs'⟩
  · simp [hf, bind, Except.bind] at h
  · rcases hs : s.byPosition vs' with e | ⟨a, rest'⟩
    · simp [hf, hs, bind, Except.bind] at h
    · simp only [hf, hs, bind, Except.bind, pure, Except.pure, Except.ok.injEq,
        Prod.mk.injEq] at h
      obtain ⟨rfl, rfl⟩ := h
      exact ⟨g, a, vs', rfl, hs, rfl⟩

theorem toOption_byPosition_seq (f : Shape (α → β)) (s : Shape α) (vs : List Json) :
    ((f <*> s).byPosition vs).toOption =
      (f.byPosition vs).toOption.bind fun g =>
        (s.byPosition g.2).toOption.map fun a => (g.1 a.1, a.2) := by
  change ((both f s).byPosition vs).toOption = _
  unfold both
  dsimp only
  rcases f.byPosition vs with e | ⟨g, vs'⟩
  · rfl
  · rcases hs : s.byPosition vs' with e | ⟨a, rest⟩ <;>
      simp [bind, Except.bind, pure, Except.pure, hs, Except.toOption]

theorem carries_pure {a : α} (h : R a (some a)) : (pure a : Shape α).Carries L P P R where
  names _ ha := by
    cases ha
    exact h
  items hP ha := by
    cases ha
    exact ⟨some a, _, rfl, h, hP⟩

theorem Carries.seq {f : Shape (α → β)} {s : Shape α} (hf : f.Carries L P Q (arrow R S))
    (hs : s.Carries L Q Q' R) : (f <*> s).Carries L P Q' S where
  names hL h := by
    obtain ⟨g, a, hg, ha, rfl⟩ := byName_seq_eq_ok.mp h
    rw [toOption_byName_seq]
    exact hf.names hL hg a _ (hs.names hL ha)
  items hP h := by
    obtain ⟨g, a, vs', hg, ha, rfl⟩ := exists_of_byPosition_seq h
    obtain ⟨og, ws', hws, hog, hQ⟩ := hf.items hP hg
    obtain ⟨oa, rest', hrest, hoa, hQ'⟩ := hs.items hQ ha
    refine ⟨og.bind fun g' => oa.map g', rest', ?_, hog a oa hoa, hQ'⟩
    rw [toOption_byPosition_seq, hws]
    cases og with
    | none => rfl
    | some g' =>
      rw [Option.map_some, Option.bind_some, hrest]
      cases oa <;> rfl

theorem Carries.map {g : α → β} {s : Shape α} (hg : arrow R S g (some g))
    (hs : s.Carries L P Q R) : (g <$> s).Carries L P Q S :=
  (carries_pure (L := L) (P := P) hg).seq hs

theorem Carries.seq_same {f : Shape (α → β)} {s : Shape α} (hf : f.Carries L P Q same)
    (hs : s.Carries L Q Q' same) : (f <*> s).Carries L P Q' same :=
  Carries.seq ⟨fun hL h => same_arrow (hf.names hL h), fun hP h =>
    let ⟨o, rest', hrest, ho, hQ⟩ := hf.items hP h
    ⟨o, rest', hrest, same_arrow ho, hQ⟩⟩ hs

theorem Carries.map_same (g : α → β) {s : Shape α} (hs : s.Carries L P Q same) :
    (g <$> s).Carries L P Q same :=
  Carries.map (arrow_same g) hs

/-- A field whose value is related as its decoder allows. -/
theorem carries_field {name : String} {d : Decoder α} {absent cut : Option α}
    {T : Json → Json → Prop} (hd : d.Carries T same)
    (hL : ∀ {look look'}, L look look' → Option.Rel T (look name) (look' name)) :
    (field name d absent cut).Carries L Eq Eq same where
  names {look look' a} h ha := by
    have hrel := hL h
    unfold field at ha ⊢
    dsimp only at ha ⊢
    generalize look name = v at hrel ha
    generalize look' name = w at hrel
    cases hrel with
    | some hT => exact hd hT ha
    | none =>
      rw [ha]
      rfl
  items := by
    rintro vs _ a rest rfl ha
    exact ⟨some a, rest, by rw [ha]; rfl, rfl, rfl⟩

end Shape

/-! ## Texts -/

theorem decode_eq_ok_iff {d : Decoder α} {s : String} {a : α} :
    decode d s = .ok a ↔ d (parse s).root = .ok a ∧ (parse s).complete = true := by
  unfold decode
  cases d (parse s).root with
  | error e => simp [bind, Except.bind]
  | ok b => cases h : (parse s).complete <;> simp [bind, Except.bind, pure, Except.pure, throw,
      throwThe, MonadExceptOf.throw]

theorem toOption_decode (d : Decoder α) {s : String} (h : (parse s).complete = true) :
    (decode d s).toOption = (d (parse s).root).toOption := by
  unfold decode
  cases d (parse s).root with
  | error e => rfl
  | ok b =>
    simp only [bind, Except.bind, h, if_true]
    rfl

/-- What a decoder carries from tree to tree it carries from text to text. -/
theorem Decoder.Carries.decode {d : Decoder α} {T : Json → Json → Prop} {R : Outcome α}
    (h : d.Carries T R) {s s' : String} {a : α} (hs : decode d s = .ok a)
    (hT : T (parse s).root (parse s').root) (hcomplete : (parse s').complete = true) :
    R a (decode d s').toOption := by
  rw [toOption_decode d hcomplete]
  exact h hT (decode_eq_ok_iff.mp hs).1

end ComputePlane.Json
