import Mathlib.Data.List.Basic
import ComputePlane.Text.Basic

/-!
# Cutting and its inverse

Pieces are cut where a separator stands and nowhere else (`pieces_append_cons`,
`pieces_of_not_mem`), so a text that was put together from pieces without separators comes apart
into the same ones.
-/

namespace ComputePlane.Text

variable {sep : Char} {a b l r : List Char}

/-! ## Pieces -/

theorem pieces_ne_nil (sep : Char) (a : List Char) : pieces sep a ≠ [] := by
  cases a with
  | nil => simp [pieces]
  | cons c a =>
    unfold pieces
    split
    · simp
    · split <;> simp

@[simp] theorem pieces_nil (sep : Char) : pieces sep [] = [[]] := rfl

@[simp] theorem pieces_cons_self (sep : Char) (a : List Char) :
    pieces sep (sep :: a) = [] :: pieces sep a := by
  rw [pieces, if_pos rfl]

theorem pieces_cons_of_ne {c : Char} (hc : c ≠ sep) (a : List Char) :
    ∃ p ps, pieces sep a = p :: ps ∧ pieces sep (c :: a) = (c :: p) :: ps := by
  cases h : pieces sep a with
  | nil => exact absurd h (pieces_ne_nil sep a)
  | cons p ps => exact ⟨p, ps, rfl, by rw [pieces, if_neg hc, h]⟩

/-- A separator divides the pieces into those before it and those after it. -/
theorem pieces_append_cons (sep : Char) (a b : List Char) :
    pieces sep (a ++ sep :: b) = pieces sep a ++ pieces sep b := by
  induction a with
  | nil => simp
  | cons c a ih =>
    by_cases hc : c = sep
    · rw [hc, List.cons_append, pieces_cons_self, pieces_cons_self, ih, List.cons_append]
    · obtain ⟨p, ps, hp, hcp⟩ := pieces_cons_of_ne hc a
      obtain ⟨p', ps', hp', hcp'⟩ := pieces_cons_of_ne hc (a ++ sep :: b)
      rw [ih, hp, List.cons_append] at hp'
      obtain ⟨rfl, rfl⟩ := List.cons.inj hp'
      rw [List.cons_append, hcp', hcp, List.cons_append]

theorem pieces_of_not_mem (h : sep ∉ a) : pieces sep a = [a] := by
  induction a with
  | nil => rfl
  | cons c a ih =>
    rw [List.mem_cons, not_or] at h
    rw [pieces, if_neg (Ne.symm h.1), ih h.2]

theorem length_pieces (sep : Char) (a : List Char) :
    (pieces sep a).length = a.count sep + 1 := by
  induction a with
  | nil => rfl
  | cons c a ih =>
    by_cases hc : c = sep
    · rw [hc, pieces_cons_self, List.length_cons, ih, List.count_cons_self]
    · obtain ⟨p, ps, hp, hcp⟩ := pieces_cons_of_ne hc a
      rw [hcp, List.count_cons_of_ne hc, ← ih, hp, List.length_cons, List.length_cons]

/-- The characters other than the separator are those of the pieces. -/
theorem forall_mem_pieces {P : Char → Prop} (hsep : P sep) :
    (∀ p ∈ pieces sep a, ∀ c ∈ p, P c) ↔ ∀ c ∈ a, P c := by
  induction a with
  | nil => simp
  | cons c a ih =>
    by_cases hc : c = sep
    · rw [hc, pieces_cons_self, List.forall_mem_cons, List.forall_mem_cons, ih]
      simp [hsep]
    · obtain ⟨p, ps, hp, hcp⟩ := pieces_cons_of_ne hc a
      rw [hp, List.forall_mem_cons] at ih
      rw [hcp, List.forall_mem_cons, List.forall_mem_cons, List.forall_mem_cons, ← ih, and_assoc]

theorem not_mem_of_mem_pieces {p : List Char} (hp : p ∈ pieces sep a) : sep ∉ p := by
  induction a generalizing p with
  | nil =>
    rw [pieces_nil, List.mem_singleton] at hp
    exact hp ▸ List.not_mem_nil
  | cons c a ih =>
    by_cases hc : c = sep
    · rw [hc, pieces_cons_self, List.mem_cons] at hp
      exact hp.elim (· ▸ List.not_mem_nil) ih
    · obtain ⟨q, qs, hq, hcq⟩ := pieces_cons_of_ne hc a
      rw [hq] at ih
      rw [hcq, List.mem_cons] at hp
      rcases hp with rfl | hp
      · rw [List.mem_cons, not_or]
        exact ⟨Ne.symm hc, ih List.mem_cons_self⟩
      · exact ih (List.mem_cons_of_mem q hp)

theorem not_mem_of_mem_split {s t : String} (h : t ∈ split sep s) : sep ∉ t.toList := by
  obtain ⟨p, hp, rfl⟩ := List.mem_map.mp h
  rw [String.toList_ofList]
  exact not_mem_of_mem_pieces hp

theorem split_ne_nil (sep : Char) (s : String) : split sep s ≠ [] :=
  fun h => pieces_ne_nil sep s.toList (List.map_eq_nil_iff.mp h)

theorem split_append (sep : Char) (s t : String) :
    split sep (s ++ String.singleton sep ++ t) = split sep s ++ split sep t := by
  simp [split, pieces_append_cons]

/-- A text that is put together from parts without separators comes apart into them. -/
theorem split_intercalate {parts : List String} (hne : parts ≠ [])
    (h : ∀ s ∈ parts, sep ∉ s.toList) :
    split sep ((String.singleton sep).intercalate parts) = parts := by
  have hone : ∀ {s : String}, sep ∉ s.toList → split sep s = [s] := by
    intro s hs
    rw [split, pieces_of_not_mem hs]
    simp
  induction parts with
  | nil => exact absurd rfl hne
  | cons s parts ih =>
    obtain ⟨hs, hparts⟩ := List.forall_mem_cons.mp h
    cases parts with
    | nil => rw [String.intercalate_singleton, hone hs]
    | cons t parts =>
      rw [String.intercalate_cons_cons, split_append, hone hs, ih (by simp) hparts,
        List.singleton_append]

/-! ## The first separator -/

theorem cutChars_eq_some_iff :
    cutChars sep a = some (l, r) ↔ a = l ++ sep :: r ∧ sep ∉ l := by
  induction a generalizing l with
  | nil => simp [cutChars]
  | cons c a ih =>
    unfold cutChars
    by_cases hc : c = sep
    · subst hc
      rw [if_pos rfl, Option.some.injEq, Prod.mk.injEq]
      constructor
      · rintro ⟨rfl, rfl⟩
        exact ⟨rfl, List.not_mem_nil⟩
      · rintro ⟨heq, hl⟩
        cases l with
        | nil => exact ⟨rfl, (List.cons.inj heq).2⟩
        | cons x l =>
          obtain ⟨rfl, -⟩ := List.cons.inj heq
          exact absurd List.mem_cons_self hl
    · rw [if_neg hc, Option.map_eq_some_iff]
      constructor
      · rintro ⟨⟨l', r'⟩, h, heq⟩
        cases heq
        obtain ⟨rfl, hl⟩ := ih.mp h
        exact ⟨rfl, by simp [Ne.symm hc, hl]⟩
      · rintro ⟨heq, hl⟩
        cases l with
        | nil => exact absurd (List.cons.inj heq).1 hc
        | cons x l =>
          obtain ⟨rfl, rfl⟩ := List.cons.inj heq
          exact ⟨(l, r), ih.mpr ⟨rfl, fun h => hl (List.mem_cons_of_mem _ h)⟩, rfl⟩

theorem cutChars_eq_none_iff : cutChars sep a = none ↔ sep ∉ a := by
  induction a with
  | nil => simp [cutChars]
  | cons c a ih =>
    unfold cutChars
    by_cases hc : c = sep
    · simp [hc]
    · rw [if_neg hc, Option.map_eq_none_iff, ih, List.mem_cons, not_or]
      exact (and_iff_right (Ne.symm hc)).symm

/-- What is cut off before a separator is the same whatever follows. -/
theorem cutChars_append (h : cutChars sep a = some (l, r)) (b : List Char) :
    cutChars sep (a ++ b) = some (l, r ++ b) := by
  obtain ⟨rfl, hl⟩ := cutChars_eq_some_iff.mp h
  exact cutChars_eq_some_iff.mpr ⟨by simp, hl⟩

theorem cut_eq_some_iff {s t u : String} :
    cut sep s = some (t, u) ↔ s.toList = t.toList ++ sep :: u.toList ∧ sep ∉ t.toList := by
  rw [← cutChars_eq_some_iff, cut, Option.map_eq_some_iff]
  constructor
  · rintro ⟨⟨l, r⟩, h, heq⟩
    obtain ⟨rfl, rfl⟩ := Prod.mk.inj heq
    simpa using h
  · intro h
    exact ⟨_, h, by simp⟩

end ComputePlane.Text
