import Mathlib.Tactic.Ring
import ComputePlane.Number.Digits

/-!
# Digits and the numbers they write

The decimal digits of a number are those of its quotient by ten and its last one (`digits_eq`). They
write the number again (`ofDigits_digits`), and they are read up to the first character that is no
digit (`takeDigits_append`). So a number is read from its text (`unsigned?_decimal`).
-/

namespace ComputePlane.Number

/-! ## Characters -/

@[simp] theorem digit?_digitChar {d : Nat} (h : d < 10) : digit? (digitChar d) = some d := by
  have hall : ∀ d < 10, digit? (digitChar d) = some d := by decide
  exact hall d h

theorem digit?_natDigitChar {d : Nat} (h : d < 10) : digit? (Nat.digitChar d) = some d := by
  have hall : ∀ d < 10, digit? (Nat.digitChar d) = some d := by decide
  exact hall d h

theorem takeDigits_of_not_digit {cs : List Char} (h : ∀ c ∈ cs.head?, digit? c = none) :
    takeDigits cs = ([], cs) := by
  cases cs with
  | nil => rfl
  | cons c cs =>
    have hc : digit? c = none := h c rfl
    simp only [takeDigits, hc]

/-- Digits are read up to the first character that is none. -/
theorem takeDigits_append {ds : List Nat} {rest : List Char} (hds : ∀ d ∈ ds, d < 10)
    (hrest : ∀ c ∈ rest.head?, digit? c = none) :
    takeDigits (ds.map digitChar ++ rest) = (ds, rest) := by
  induction ds with
  | nil => exact takeDigits_of_not_digit hrest
  | cons d ds ih =>
    have hd : digit? (digitChar d) = some d := digit?_digitChar (hds d List.mem_cons_self)
    simp only [List.map_cons, List.cons_append, takeDigits, hd,
      ih fun e he => hds e (List.mem_cons_of_mem d he)]

/-! ## Lists of digits -/

theorem ofDigits_concat (base : Nat) (ds : List Nat) (d : Nat) :
    ofDigits base (ds ++ [d]) = base * ofDigits base ds + d := by
  simp [ofDigits]

theorem ofDigits_append_zeros (base : Nat) (ds : List Nat) (k : Nat) :
    ofDigits base (ds ++ List.replicate k 0) = ofDigits base ds * base ^ k := by
  induction k with
  | zero => simp
  | succ k ih =>
    rw [List.replicate_succ', ← List.append_assoc, ofDigits_concat, ih]
    ring

/-- The digits of a number: those of its tenth part, and the last one. -/
theorem digits_eq (n : Nat) :
    digits n = if n < 10 then [n] else digits (n / 10) ++ [n % 10] := by
  unfold digits
  rw [Nat.toDigits_eq_if (by decide)]
  split
  · next h => simp [digit?_natDigitChar h]
  · next h => simp [digit?_natDigitChar (Nat.mod_lt n (by decide : 0 < 10))]

theorem digits_of_lt {n : Nat} (h : n < 10) : digits n = [n] := by
  rw [digits_eq, if_pos h]

theorem digits_of_le {n : Nat} (h : 10 ≤ n) : digits n = digits (n / 10) ++ [n % 10] := by
  rw [digits_eq, if_neg (Nat.not_lt.mpr h)]

/-- What holds of the numbers of one digit, and of a number if it holds of its tenth part, holds of
all numbers. -/
theorem digits_induction {P : Nat → Prop} (one : ∀ n < 10, P n)
    (more : ∀ n, 10 ≤ n → P (n / 10) → P n) (n : Nat) : P n := by
  induction n using Nat.strongRecOn with
  | ind n ih =>
    by_cases h : n < 10
    · exact one n h
    · exact more n (Nat.le_of_not_lt h) (ih (n / 10) (by omega))

theorem digits_lt (n : Nat) : ∀ d ∈ digits n, d < 10 := by
  induction n using digits_induction with
  | one n h =>
    rw [digits_of_lt h]
    simpa using h
  | more n h ih =>
    rw [digits_of_le h]
    intro d hd
    rcases List.mem_append.mp hd with hd | hd
    · exact ih d hd
    · obtain rfl := List.mem_singleton.mp hd
      omega

@[simp] theorem ofDigits_digits (n : Nat) : ofDigits 10 (digits n) = n := by
  induction n using digits_induction with
  | one n h =>
    rw [digits_of_lt h]
    simp [ofDigits]
  | more n h ih =>
    rw [digits_of_le h, ofDigits_concat, ih]
    omega

/-- The first digit of a number is zero only if the number is. -/
theorem exists_digits_cons (n : Nat) : ∃ d ds, digits n = d :: ds ∧ (d = 0 → n = 0) := by
  induction n using digits_induction with
  | one n h => exact ⟨n, [], digits_of_lt h, id⟩
  | more n h ih =>
    obtain ⟨d, ds, hds, hd⟩ := ih
    refine ⟨d, ds ++ [n % 10], by rw [digits_of_le h, hds, List.cons_append], fun h0 => ?_⟩
    have := hd h0
    omega

/-- A number has as many digits as powers of ten are at most the number. -/
theorem length_digits_le_iff {n k : Nat} (hk : 0 < k) : (digits n).length ≤ k ↔ n < 10 ^ k := by
  induction n using digits_induction generalizing k with
  | one n h =>
    rw [digits_of_lt h]
    have : 10 ^ 1 ≤ 10 ^ k := Nat.pow_le_pow_right (by decide) hk
    simp only [List.length_singleton]
    omega
  | more n h ih =>
    rw [digits_of_le h, List.length_append, List.length_singleton]
    obtain ⟨j, rfl⟩ : ∃ j, k = j + 1 := ⟨k - 1, by omega⟩
    rw [Nat.pow_succ]
    rcases Nat.eq_zero_or_pos j with rfl | hj
    · obtain ⟨d, ds, hds, -⟩ := exists_digits_cons (n / 10)
      rw [hds]
      simp
      omega
    · rw [Nat.add_le_add_iff_right, ih hj]
      omega

/-- A number with zeros behind it has no more digits than the power of ten above it. -/
theorem length_digits_add_le {m k j : Nat} (hm : 0 < m) (h : m * 10 ^ k < 10 ^ j) :
    (digits m).length + k ≤ j := by
  have hkj : k < j := (Nat.pow_lt_pow_iff_right (by decide)).mp
    ((Nat.le_mul_of_pos_left _ hm).trans_lt h)
  obtain ⟨i, rfl⟩ : ∃ i, j = k + i + 1 := ⟨j - k - 1, by omega⟩
  have hlt : m < 10 ^ (i + 1) := by
    refine Nat.lt_of_mul_lt_mul_right (a := 10 ^ k) (h.trans_eq ?_)
    rw [← Nat.pow_add]
    congr 1
    omega
  have := (length_digits_le_iff i.succ_pos).mpr hlt
  omega

/-! ## Decimal texts -/

theorem natDigitChar_eq {d : Nat} (h : d < 10) : Nat.digitChar d = digitChar d := by
  have hall : ∀ d < 10, Nat.digitChar d = digitChar d := by decide
  exact hall d h

/-- The text of a number consists of the characters of its digits. -/
theorem toList_decimal (n : Nat) : (decimal n).toList = (digits n).map digitChar := by
  rw [decimal, String.toList_ofList]
  induction n using digits_induction with
  | one n h =>
    rw [digits_of_lt h, Nat.toDigits_eq_if (by decide), if_pos h, natDigitChar_eq h]
    rfl
  | more n h ih =>
    rw [digits_of_le h, Nat.toDigits_eq_if (by decide), if_neg (Nat.not_lt.mpr h), ih,
      natDigitChar_eq (Nat.mod_lt n (by decide)), List.map_append]
    rfl

/-- A number below the bound is read as it is written. -/
theorem unsigned?_decimal {n bound : Nat} (h : n < bound) :
    unsigned? bound (decimal n) = some n := by
  obtain ⟨d, ds, hds, -⟩ := exists_digits_cons n
  have hlt : ∀ e ∈ d :: ds, e < 10 := hds ▸ digits_lt n
  have hread : ofDigitChars? (digitChar d :: ds.map digitChar) = some n := by
    have htake : takeDigits (digitChar d :: ds.map digitChar) = (d :: ds, []) := by
      have happend := takeDigits_append hlt (by simp : ∀ c ∈ ([] : List Char).head?, _)
      rwa [List.append_nil, List.map_cons] at happend
    rw [ofDigitChars?, htake]
    exact congrArg some (hds ▸ ofDigits_digits n)
  have hplus : digitChar d ≠ '+' := by
    intro heq
    have hdigit := digit?_digitChar (hlt d List.mem_cons_self)
    rw [heq] at hdigit
    cases hdigit
  have hchars : (decimal n).toList = digitChar d :: ds.map digitChar := by
    rw [toList_decimal, hds, List.map_cons]
  unfold unsigned?
  rw [hchars]
  split
  · next heq => exact absurd (List.cons.inj heq).1 hplus
  · rw [hread]
    exact if_pos (decide_eq_true h)

end ComputePlane.Number
