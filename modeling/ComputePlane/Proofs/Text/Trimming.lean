import Mathlib.Data.List.Basic
import ComputePlane.Text.Basic

/-!
# Trimming

Blank characters at the two ends of a text make no difference to what is left of it (`trim_padded`),
and a text without blank characters is left as it is (`trim_of_not_blank`).
-/

namespace ComputePlane.Text

variable {a b : List Char}

/-! ## Characters -/

theorem trimLeft_append_of_blank (ha : ∀ c ∈ a, isBlank c = true) (b : List Char) :
    trimLeft (a ++ b) = trimLeft b :=
  List.dropWhile_append_of_pos ha

theorem trimRight_append_of_blank (hb : ∀ c ∈ b, isBlank c = true) (a : List Char) :
    trimRight (a ++ b) = trimRight a := by
  have hb' : ∀ c ∈ b.reverse, isBlank c = true := fun c hc => hb c (List.mem_reverse.mp hc)
  rw [trimRight, List.reverse_append, trimLeft_append_of_blank hb', trimRight]

/-- What is trimmed on the left goes on as before. -/
theorem trimLeft_append (a b : List Char) :
    trimLeft (a ++ b) = if trimLeft a = [] then trimLeft b else trimLeft a ++ b := by
  rw [trimLeft, List.dropWhile_append]
  simp only [List.isEmpty_iff]
  rfl

theorem trimChars_padded (ha : ∀ c ∈ a, isBlank c = true) (hb : ∀ c ∈ b, isBlank c = true)
    (cs : List Char) : trimChars (a ++ cs ++ b) = trimChars cs := by
  rw [List.append_assoc, trimChars, trimLeft_append_of_blank ha, trimLeft_append]
  split_ifs with h
  · have hnone : trimLeft b = [] := by
      rw [← List.append_nil b, trimLeft_append_of_blank hb]
      rfl
    rw [hnone, trimChars, h]
  · rw [trimRight_append_of_blank hb, trimChars]

theorem trimLeft_of_not_blank (ha : ∀ c ∈ a, isBlank c = false) : trimLeft a = a := by
  cases a with
  | nil => rfl
  | cons c a =>
    rw [trimLeft, List.dropWhile_cons_of_neg]
    simp [ha c List.mem_cons_self]

/-! ## Texts -/

/-- A text with blank characters added at its ends. -/
def IsPadded (s t : String) : Prop :=
  ∃ l r : List Char, (∀ c ∈ l, isBlank c = true) ∧ (∀ c ∈ r, isBlank c = true) ∧
    t.toList = l ++ s.toList ++ r

theorem trim_padded {s t : String} (h : IsPadded s t) : trim t = trim s := by
  obtain ⟨l, r, hl, hr, ht⟩ := h
  rw [trim, ht, trimChars_padded hl hr, trim]

theorem trim_of_not_blank {s : String} (h : ∀ c ∈ s.toList, isBlank c = false) : trim s = s := by
  have hreverse : ∀ c ∈ s.toList.reverse, isBlank c = false :=
    fun c hc => h c (List.mem_reverse.mp hc)
  rw [trim, trimChars, trimLeft_of_not_blank h, trimRight, trimLeft_of_not_blank hreverse,
    List.reverse_reverse, String.ofList_toList]

end ComputePlane.Text
