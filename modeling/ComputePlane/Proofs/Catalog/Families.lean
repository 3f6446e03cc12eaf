import ComputePlane.Catalog
import ComputePlane.Proofs.Text.Searching

/-!
# Families in the texts of snapshots

A family is found in a text if it is the first one, in the order of `OsFamily.named`, whose name
stands there (`within?_lower_eq_some_iff`). A snapshot's name and description are searched as one
text, so a name may also be read across the seam. The family that is told stands in one of the two
fields exactly if no such name is read first (`family_within_field_iff`).
-/

namespace ComputePlane

open Text

namespace OsFamily

variable {s : String} {e f : OsFamily}

/-- `e` is looked for before `f`. -/
def Precedes (e f : OsFamily) : Prop :=
  e ∈ named.takeWhile (· != f)

instance : DecidableRel Precedes :=
  fun e f => inferInstanceAs (Decidable (e ∈ named.takeWhile (· != f)))

theorem Precedes.mem_named (h : Precedes e f) : e ∈ named :=
  (List.takeWhile_prefix _).subset h

/-- An item is found exactly if it passes and none before it does. -/
theorem find?_eq_some_iff_takeWhile {p : OsFamily → Bool} {l : List OsFamily} :
    l.find? p = some f ↔ f ∈ l ∧ p f = true ∧ ∀ e ∈ l.takeWhile (· != f), p e = false := by
  induction l with
  | nil => simp
  | cons x l ih =>
    by_cases hx : x = f
    · subst hx
      rw [List.takeWhile_cons_of_neg (by simp)]
      cases hp : p x with
      | true => simp [hp]
      | false => simp [hp, ih]
    · rw [List.takeWhile_cons_of_pos (by simpa using hx), List.forall_mem_cons,
        List.mem_cons]
      cases hp : p x with
      | true => simp [hp, hx]
      | false => simp [hp, ih, Ne.symm hx]

/-! ## Names -/

theorem lower_name (f : OsFamily) : lower f.name = f.name := by
  rw [← String.toList_inj, toList_lower]
  cases f <;> decide

/-- A search in small letters finds the first family whose name stands in the text. -/
theorem within?_lower (s : String) :
    within? (lower s) = named.find? fun f => decide (Mentions s f.name) := by
  refine congrArg named.find? (funext fun f => ?_)
  rw [Bool.eq_iff_iff, ← lower_name, contains_lower_iff, lower_name, decide_eq_true_iff]

/-- The family that is found in a text stands there, and none that is looked for before. -/
theorem within?_lower_eq_some_iff :
    within? (lower s) = some f ↔
      f ∈ named ∧ Mentions s f.name ∧ ∀ e, Precedes e f → ¬Mentions s e.name := by
  rw [within?_lower, find?_eq_some_iff_takeWhile]
  simp only [decide_eq_true_iff, decide_eq_false_iff_not]
  rfl

theorem within?_lower_eq_none_iff :
    within? (lower s) = none ↔ ∀ f ∈ named, ¬Mentions s f.name := by
  rw [within?_lower, List.find?_eq_none]
  simp only [decide_eq_true_iff]

/-- A family whose name holds that of another one is looked for before it. -/
theorem precedes_of_mentions (hne : e ≠ f) (h : Mentions e.name f.name) : Precedes e f := by
  revert hne h
  cases e <;> cases f <;> decide

end OsFamily

namespace Snapshot

variable {s : Snapshot} {f : OsFamily}

/-! ## Fields -/

/-- The name of a family stands within the name of a snapshot or within its description. -/
def Names (s : Snapshot) (f : OsFamily) : Prop :=
  Mentions (s.properties.name.getD "") f.name ∨ Mentions (s.properties.description.getD "") f.name

instance : Decidable (s.Names f) :=
  inferInstanceAs (Decidable (_ ∨ _))

/-- The name of a family begins in the name of a snapshot and ends in its description. -/
def NamesAcross (s : Snapshot) (f : OsFamily) : Prop :=
  Straddles (s.properties.name.getD "") (s.properties.description.getD "") f.name

/-- A family that stands across the fields alone, and that is looked for before all others that
stand anywhere. -/
structure ReadAcross (s : Snapshot) (f : OsFamily) : Prop where
  mem_named : f ∈ OsFamily.named
  across : s.NamesAcross f
  not_names : ¬s.Names f
  first : ∀ e, OsFamily.Precedes e f → ¬s.Names e ∧ ¬s.NamesAcross e

/-- The text that is searched. -/
def searched (s : Snapshot) : String :=
  s.properties.name.getD "" ++ s.properties.description.getD ""

theorem osFamily_describe (s : Snapshot) :
    s.describe.osFamily =
      (OsFamily.within? (lower s.searched)).getD (.ofLicence s.properties.licence) :=
  rfl

/-- The family that is told is the first that stands in the text that is searched, or else that of
the licence. -/
theorem osFamily_eq_find? (s : Snapshot) :
    s.describe.osFamily =
      (OsFamily.named.find? fun f => decide (Mentions s.searched f.name)).getD
        (.ofLicence s.properties.licence) := by
  rw [osFamily_describe, OsFamily.within?_lower]

theorem mentions_searched_iff : Mentions s.searched f.name ↔ s.Names f ∨ s.NamesAcross f := by
  rw [searched, mentions_append_iff, Names, NamesAcross, or_assoc]

theorem within?_searched_of_ne (h : s.describe.osFamily ≠ .ofLicence s.properties.licence) :
    OsFamily.within? (lower s.searched) = some s.describe.osFamily := by
  rw [osFamily_describe] at h ⊢
  cases hwithin : OsFamily.within? (lower s.searched) with
  | none =>
    rw [hwithin] at h
    exact absurd rfl h
  | some f => rfl

/-- What is read across the fields is told. -/
theorem ReadAcross.osFamily_eq (h : s.ReadAcross f) : s.describe.osFamily = f := by
  have hwithin : OsFamily.within? (lower s.searched) = some f := by
    refine OsFamily.within?_lower_eq_some_iff.mpr
      ⟨h.mem_named, mentions_searched_iff.mpr (.inr h.across), fun e he hmentions => ?_⟩
    obtain ⟨hnames, hacross⟩ := h.first e he
    exact (mentions_searched_iff.mp hmentions).elim hnames hacross
  rw [osFamily_describe, hwithin, Option.getD_some]

/-- What is told and stands in neither field is read across them. -/
theorem readAcross_of_not_names (h : s.describe.osFamily ≠ .ofLicence s.properties.licence)
    (hnames : ¬s.Names s.describe.osFamily) : s.ReadAcross s.describe.osFamily := by
  obtain ⟨hmem, hmentions, hfirst⟩ :=
    OsFamily.within?_lower_eq_some_iff.mp (within?_searched_of_ne h)
  refine ⟨hmem, (mentions_searched_iff.mp hmentions).resolve_left hnames, hnames, fun e he => ?_⟩
  rw [← not_or, ← mentions_searched_iff]
  exact hfirst e he

/-- A family is not told where one stands whose name holds its name. -/
theorem not_names_of_mentions {e : OsFamily} (hne : e ≠ s.describe.osFamily)
    (h : Mentions e.name s.describe.osFamily.name) : ¬s.Names e := by
  have hprecedes := OsFamily.precedes_of_mentions hne h
  intro hnames
  have hmentions : Mentions s.searched e.name := mentions_searched_iff.mpr (.inl hnames)
  cases hwithin : OsFamily.within? (lower s.searched) with
  | none => exact OsFamily.within?_lower_eq_none_iff.mp hwithin e hprecedes.mem_named hmentions
  | some f =>
    have hf : s.describe.osFamily = f := by rw [osFamily_describe, hwithin, Option.getD_some]
    rw [hf] at hprecedes
    exact (OsFamily.within?_lower_eq_some_iff.mp hwithin).2.2 e hprecedes hmentions

/-! ## Families that are told -/

/-- A family that is told of a snapshot, other than that of its licence, stands within one of the
two fields exactly if no other than that of the licence is read across them. What is read across
them is told. In no case is a family told where one stands whose name holds its name. -/
theorem family_within_field_iff (s : Snapshot) :
    ((s.describe.osFamily ≠ .ofLicence s.properties.licence → s.Names s.describe.osFamily) ↔
      ∀ f, s.ReadAcross f → f = .ofLicence s.properties.licence) ∧
    (∀ f, s.ReadAcross f → s.describe.osFamily = f) ∧
    ∀ e, e ≠ s.describe.osFamily → Mentions e.name s.describe.osFamily.name → ¬s.Names e := by
  refine ⟨⟨fun hnames f hf => ?_, fun hacross hne => ?_⟩, fun f hf => hf.osFamily_eq,
    fun e => not_names_of_mentions⟩
  · by_contra hne
    have heq := hf.osFamily_eq
    exact hf.not_names (heq ▸ hnames (heq.symm ▸ hne))
  · by_contra hnames
    exact hne (hacross _ (readAcross_of_not_names hne hnames))

/-- Of the first snapshot openSUSE is told, which stands across the fields, though SUSE stands in
the description. Of the second SUSE is told, so openSUSE stands in neither field. -/
theorem family_within_field_iff_suse :
    let s : Snapshot := ⟨"s", none, { name := some "My Open", description := some "SUSE 15" }⟩
    let t : Snapshot := ⟨"t", none, { name := some "SUSE 15", description := some "now open" }⟩
    s.ReadAcross .opensuse ∧ s.describe.osFamily = .opensuse ∧ s.Names .suse ∧
      t.describe.osFamily = .suse ∧ Mentions OsFamily.opensuse.name t.describe.osFamily.name ∧
      ¬t.Names .opensuse := by
  intro s t
  have hs : s.ReadAcross .opensuse := by
    have hacross : Straddles "My Open" "SUSE 15" "opensuse" :=
      ⟨"Open", "SUSE", by decide, by decide, by decide, by decide, sameFolded_iff.mpr (by decide)⟩
    refine ⟨by decide, hacross, by decide +kernel, fun e he => ?_⟩
    rw [← not_or, ← mentions_searched_iff]
    revert he
    cases e <;> decide +kernel
  have ht : t.describe.osFamily = .suse := by
    rw [osFamily_eq_find?]
    decide +kernel
  have hmentions : Mentions OsFamily.opensuse.name t.describe.osFamily.name := by
    rw [ht]
    decide
  obtain ⟨-, htold, -⟩ := family_within_field_iff s
  obtain ⟨-, -, hlonger⟩ := family_within_field_iff t
  exact ⟨hs, htold .opensuse hs, by decide +kernel, ht, hmentions,
    hlonger .opensuse (by rw [ht]; decide) hmentions⟩

/-- A family that is told stands in neither field of a snapshot: its name begins at the end of one
and goes on in the other. -/
theorem exists_family_across :
    ¬∀ s : Snapshot, s.describe.osFamily ≠ .ofLicence s.properties.licence →
      s.Names s.describe.osFamily ∧
        ∀ e, e ≠ s.describe.osFamily → Mentions e.name s.describe.osFamily.name → ¬s.Names e := by
  intro hall
  let s : Snapshot :=
    ⟨"snap-1", none,
      { name := some "build-su", description := some "second try", licence := some .linux }⟩
  have hfamily : s.describe.osFamily = .suse := by
    rw [osFamily_eq_find?]
    decide +kernel
  obtain ⟨hnames, -⟩ := hall s (by rw [hfamily]; decide)
  rw [hfamily] at hnames
  exact absurd hnames (by decide +kernel)

end Snapshot

end ComputePlane
