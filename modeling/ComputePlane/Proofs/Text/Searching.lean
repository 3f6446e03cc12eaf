import Mathlib.Data.List.Basic
import ComputePlane.Text.Basic

/-!
# Searching

A search in small letters finds a word exactly if it stands somewhere in the text in letters of any
case (`contains_lower_iff`). What stands in two texts that are joined stands in one of them or
begins in the first and ends in the second (`mentions_append_iff`).
-/

namespace ComputePlane.Text

variable {s t word : String}

theorem occursIn_iff {needle cs : List Char} : occursIn needle cs = true ↔ needle <:+: cs := by
  induction cs with
  | nil => rw [occursIn, List.isEmpty_iff, List.infix_nil]
  | cons c cs ih =>
    rw [occursIn, Bool.or_eq_true, List.isPrefixOf_iff_prefix, ih, List.infix_cons_iff]

theorem contains_iff : contains s word = true ↔ word.toList <:+: s.toList :=
  occursIn_iff

/-! ## Letters of any case -/

theorem toList_lower (s : String) : (lower s).toList = s.toList.map Char.toLower :=
  String.toList_map

theorem sameFolded_iff :
    sameFolded s t = true ↔ s.toList.map Char.toLower = t.toList.map Char.toLower := by
  rw [sameFolded, beq_iff_eq, ← String.toList_inj, toList_lower, toList_lower]

/-- A word stands somewhere in a text, in letters of any case. -/
def Mentions (s word : String) : Prop :=
  ∃ part : String, part.toList <:+: s.toList ∧ sameFolded part word = true

/-- A word begins in one text and ends in the next, in letters of any case. -/
def Straddles (s t word : String) : Prop :=
  ∃ l r : String, l ≠ "" ∧ r ≠ "" ∧ l.toList <:+ s.toList ∧ r.toList <+: t.toList ∧
    sameFolded (l ++ r) word = true

theorem mentions_iff :
    Mentions s word ↔ word.toList.map Char.toLower <:+: s.toList.map Char.toLower := by
  rw [List.infix_map_iff]
  constructor
  · rintro ⟨part, hpart, hword⟩
    exact ⟨part.toList, hpart, (sameFolded_iff.mp hword).symm⟩
  · rintro ⟨part, hpart, hword⟩
    refine ⟨String.ofList part, by rwa [String.toList_ofList], sameFolded_iff.mpr ?_⟩
    rw [String.toList_ofList, hword]

instance : Decidable (Mentions s word) :=
  decidable_of_iff _ (occursIn_iff.trans mentions_iff.symm)

theorem contains_lower_iff : contains (lower s) (lower word) = true ↔ Mentions s word := by
  rw [contains_iff, toList_lower, toList_lower, mentions_iff]

/-! ## Texts that are joined -/

theorem Mentions.append_left (h : Mentions s word) (t : String) : Mentions (s ++ t) word := by
  obtain ⟨part, hpart, hword⟩ := h
  refine ⟨part, ?_, hword⟩
  rw [String.toList_append]
  exact hpart.trans (List.prefix_append ..).isInfix

theorem Mentions.append_right (h : Mentions t word) (s : String) : Mentions (s ++ t) word := by
  obtain ⟨part, hpart, hword⟩ := h
  refine ⟨part, ?_, hword⟩
  rw [String.toList_append]
  exact hpart.trans (List.suffix_append ..).isInfix

/-- A word that two joined texts hold stands in one of them or across the seam. -/
theorem mentions_append_iff :
    Mentions (s ++ t) word ↔ Mentions s word ∨ Mentions t word ∨ Straddles s t word := by
  constructor
  · rintro ⟨part, hpart, hword⟩
    rw [String.toList_append, List.infix_append_iff] at hpart
    rcases hpart with hs | ht | ⟨l, r, hlr, hl, hr⟩
    · exact .inl ⟨part, hs, hword⟩
    · exact .inr (.inl ⟨part, ht, hword⟩)
    · by_cases hl' : l = []
      · subst hl'
        exact .inr (.inl ⟨part, hlr ▸ hr.isInfix, hword⟩)
      by_cases hr' : r = []
      · subst hr'
        exact .inl ⟨part, by rw [hlr, List.append_nil]; exact hl.isInfix, hword⟩
      refine .inr (.inr ⟨String.ofList l, String.ofList r, ?_, ?_, ?_, ?_, ?_⟩)
      · simpa using hl'
      · simpa using hr'
      · rwa [String.toList_ofList]
      · rwa [String.toList_ofList]
      · rwa [← String.ofList_append, ← hlr, String.ofList_toList]
  · rintro (hs | ht | ⟨l, r, -, -, hl, hr, hword⟩)
    · exact hs.append_left t
    · exact ht.append_right s
    · refine ⟨l ++ r, ?_, hword⟩
      rw [String.toList_append, String.toList_append, List.infix_append_iff]
      exact .inr (.inr ⟨_, _, rfl, hl, hr⟩)

end ComputePlane.Text
