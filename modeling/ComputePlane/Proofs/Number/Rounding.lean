import Mathlib.Algebra.Order.Field.Power
import Mathlib.Data.Rat.Cast.Order
import Mathlib.Tactic.FieldSimp
import Mathlib.Tactic.Linarith
import Mathlib.Tactic.Positivity
import Mathlib.Tactic.Ring
import ComputePlane.Number.Binary

/-!
# Rounding to a binary format

What a fraction is rounded to depends on its value alone. Around each number `coeff * 2 ^ exp` of a
format lie the values that are rounded to it (`Format.round_of_near`): up to half a gap away, and
below a power of two, where the gap is smaller, up to a quarter of it.
-/

namespace ComputePlane.Number

/-! ## Powers of two -/

theorem twoTo_pos (n : Nat) : 0 < twoTo n := Nat.pow_pos (by decide)

@[simp] theorem cast_twoTo (n : Nat) : (twoTo n : ℚ) = 2 ^ n := Nat.cast_pow 2 n

theorem two_zpow_pos (e : Int) : (0 : ℚ) < 2 ^ e := by positivity

theorem two_zpow_toNat {e : Int} (h : 0 ≤ e) : (2 : ℚ) ^ e.toNat = 2 ^ e := by
  rw [← zpow_natCast, Int.toNat_of_nonneg h]

/-! ## Fractions -/

theorem scaleDown_pos {num den : Nat} (hden : 0 < den) (e : Int) : 0 < (scaleDown num den e).2 := by
  unfold scaleDown
  split
  · exact Nat.mul_pos hden (twoTo_pos _)
  · exact hden

/-- A scaled fraction has the value divided by the power of two. -/
theorem scaleDown_value (num den : Nat) (e : Int) :
    ((scaleDown num den e).1 : ℚ) / (scaleDown num den e).2 = num / den / 2 ^ e := by
  unfold scaleDown
  split
  · next h => rw [Nat.cast_mul, cast_twoTo, two_zpow_toNat h, div_div]
  · next h =>
    rw [Nat.cast_mul, cast_twoTo, two_zpow_toNat (by omega), zpow_neg]
    field_simp

theorem Binary.fraction_pos (c : Nat) (e : Int) : 0 < (fraction c e).2 := by
  unfold fraction
  split
  · exact Nat.one_pos
  · exact twoTo_pos _

theorem Binary.fraction_value (c : Nat) (e : Int) :
    ((fraction c e).1 : ℚ) / (fraction c e).2 = c * 2 ^ e := by
  unfold fraction
  split
  · next h => rw [Nat.cast_mul, cast_twoTo, two_zpow_toNat h, Nat.cast_one, div_one]
  · next h => rw [cast_twoTo, two_zpow_toNat (by omega), zpow_neg, div_inv_eq_mul]

/-! ## The nearest integer -/

/-- An integer is the nearest one up to half a unit away, the ends included if it is even. -/
theorem divNearestEven_eq {n d c : Nat} (hd : 0 < d) (hlow : 2 * (c * d) ≤ 2 * n + d)
    (hhigh : 2 * n ≤ 2 * (c * d) + d)
    (hodd : c % 2 = 1 → 2 * (c * d) < 2 * n + d ∧ 2 * n < 2 * (c * d) + d) :
    divNearestEven n d = c := by
  have hn : d * (n / d) + n % d = n := Nat.div_add_mod n d
  have hr : n % d < d := Nat.mod_lt n hd
  have hq : n / d * d = d * (n / d) := Nat.mul_comm _ _
  have hle : n / d ≤ c := by
    by_contra h
    have : (c + 1) * d ≤ n / d * d := Nat.mul_le_mul_right d (by omega)
    rw [Nat.add_mul] at this
    omega
  have hge : c ≤ n / d + 1 := by
    by_contra h
    have : (n / d + 2) * d ≤ c * d := Nat.mul_le_mul_right d (by omega)
    rw [Nat.add_mul] at this
    omega
  unfold divNearestEven
  dsimp only
  obtain rfl | rfl : c = n / d ∨ c = n / d + 1 := by omega
  · split
    · omega
    · split <;> omega
  · simp only [Nat.add_mul] at hlow hhigh hodd
    split
    · rfl
    · split <;> omega

/-- The same for the value of the fraction. -/
theorem divNearestEven_of_value {n d c : Nat} {y : ℚ} (hd : 0 < d) (hy : (n : ℚ) / d = y)
    (hlow : (c : ℚ) - 1 / 2 ≤ y) (hhigh : y ≤ c + 1 / 2)
    (hodd : c % 2 = 1 → (c : ℚ) - 1 / 2 < y ∧ y < c + 1 / 2) : divNearestEven n d = c := by
  have hd' : (0 : ℚ) < d := by exact_mod_cast hd
  obtain rfl := hy
  rw [le_div_iff₀ hd'] at hlow
  rw [div_le_iff₀ hd'] at hhigh
  rw [lt_div_iff₀ hd', div_lt_iff₀ hd'] at hodd
  refine divNearestEven_eq hd ?_ ?_ fun h => ⟨?_, ?_⟩
  · have : (2 : ℚ) * (c * d) ≤ 2 * n + d := by linarith
    exact_mod_cast this
  · have : (2 : ℚ) * n ≤ 2 * (c * d) + d := by linarith
    exact_mod_cast this
  · have : (2 : ℚ) * (c * d) < 2 * n + d := by linarith [(hodd h).1]
    exact_mod_cast this
  · have : (2 : ℚ) * n < 2 * (c * d) + d := by linarith [(hodd h).2]
    exact_mod_cast this

/-! ## The exponent -/

theorem two_zpow_bitLength_le {n : Nat} (h : 0 < n) : (2 : ℚ) ^ ((bitLength n : Int) - 1) ≤ n := by
  have hne : n ≠ 0 := Nat.ne_of_gt h
  rw [bitLength, if_neg hne, Nat.cast_add, Nat.cast_one, add_sub_cancel_right, zpow_natCast]
  exact_mod_cast Nat.log2_self_le hne

theorem lt_two_zpow_bitLength {n : Nat} (h : 0 < n) : (n : ℚ) < 2 ^ (bitLength n : Int) := by
  rw [bitLength, if_neg (Nat.ne_of_gt h), zpow_natCast]
  exact_mod_cast Nat.lt_log2_self

/-- The exponent of a value is the one that leaves a coefficient of the full precision, unless the
format has no exponent so small. -/
theorem Format.exponentFor_eq {f : Format} {num den : Nat} {e : Int} (hnum : 0 < num)
    (hden : 0 < den) (hlow : (2 : ℚ) ^ (f.precision - 1 + e) ≤ num / den)
    (hhigh : (num : ℚ) / den < 2 ^ (f.precision + e)) :
    f.exponentFor num den = max e f.minExp := by
  have hden' : (0 : ℚ) < den := by exact_mod_cast hden
  have hmin : (2 : ℚ) ^ ((bitLength num : Int) - 1 - bitLength den) ≤ num / den := by
    rw [zpow_sub₀ two_ne_zero]
    exact div_le_div₀ (by positivity) (two_zpow_bitLength_le hnum) hden'
      (lt_two_zpow_bitLength hden).le
  have hmax : (num : ℚ) / den < 2 ^ ((bitLength num : Int) - (bitLength den - 1)) := by
    rw [zpow_sub₀ two_ne_zero]
    exact div_lt_div₀ (lt_two_zpow_bitLength hnum) (two_zpow_bitLength_le hden) (by positivity)
      (by positivity)
  have h₁ := (zpow_lt_zpow_iff_right₀ one_lt_two).mp (hlow.trans_lt hmax)
  have h₂ := (zpow_lt_zpow_iff_right₀ one_lt_two).mp (hmin.trans_lt hhigh)
  unfold exponentFor
  generalize hl : (bitLength num : Int) - bitLength den - f.precision = low
  have hcut : (scaleDown num den low).1 / (scaleDown num den low).2 < twoTo f.precision ↔
      (num : ℚ) / den < 2 ^ (f.precision + low) := by
    have hd : 0 < (scaleDown num den low).2 := scaleDown_pos hden low
    have hd' : (0 : ℚ) < (scaleDown num den low).2 := by exact_mod_cast hd
    rw [Nat.div_lt_iff_lt_mul hd, ← Nat.cast_lt (α := ℚ), Nat.cast_mul, ← div_lt_iff₀ hd',
      scaleDown_value, div_lt_iff₀ (two_zpow_pos low), cast_twoTo, ← zpow_natCast,
      ← zpow_add₀ two_ne_zero]
  obtain rfl | rfl : e = low ∨ e = low + 1 := by omega
  · simp only [hcut, hhigh, if_true]
  · have : ¬(num : ℚ) / den < 2 ^ (f.precision + low) := by
      refine not_lt.mpr (hlow.trans' (le_of_eq ?_))
      congr 1
      ring
    simp only [hcut, this, if_false]

/-! ## Rounding -/

/-- The part of a gap below a number that is still rounded to it. -/
def Format.below (f : Format) (c : Nat) (e : Int) : ℚ :=
  if c = twoTo (f.precision - 1) ∧ f.minExp < e then 1 / 4 else 1 / 2

/-- The value `x` is rounded to `c * 2 ^ e`. -/
structure Format.Near (f : Format) (c : Nat) (e : Int) (x : ℚ) : Prop where
  low : (c - f.below c e) * 2 ^ e ≤ x
  high : x ≤ (c + 1 / 2) * 2 ^ e
  odd : c % 2 = 1 → (c - f.below c e) * 2 ^ e < x ∧ x < (c + 1 / 2) * 2 ^ e

/-- The coefficient and the exponent of a number of full precision. -/
structure Format.IsNormal (f : Format) (c : Nat) (e : Int) : Prop where
  precise : 0 < f.precision
  le_coeff : twoTo (f.precision - 1) ≤ c
  coeff_lt : c < twoTo f.precision
  le_exp : f.minExp ≤ e
  exp_le : e ≤ f.maxExp

theorem Format.below_le_half (f : Format) (c : Nat) (e : Int) : f.below c e ≤ 1 / 2 := by
  unfold below
  split <;> norm_num

theorem Format.below_pos (f : Format) (c : Nat) (e : Int) : 0 < f.below c e := by
  unfold below
  split <;> norm_num

theorem Format.Near.self (f : Format) (c : Nat) (e : Int) : f.Near c e (c * 2 ^ e) := by
  have hpow := two_zpow_pos e
  have hbelow := f.below_pos c e
  have hlow : (c - f.below c e) * 2 ^ e < c * 2 ^ e :=
    (mul_lt_mul_iff_left₀ hpow).mpr (by linarith)
  have hhigh : (c : ℚ) * 2 ^ e < (c + 1 / 2) * 2 ^ e :=
    (mul_lt_mul_iff_left₀ hpow).mpr (by linarith)
  exact ⟨hlow.le, hhigh.le, fun _ => ⟨hlow, hhigh⟩⟩

theorem cast_twoTo_pred {p : Nat} (h : 0 < p) : (twoTo (p - 1) : ℚ) = 2 ^ ((p : Int) - 1) := by
  rw [cast_twoTo, ← zpow_natCast, Nat.cast_sub h, Nat.cast_one]

theorem Format.IsNormal.one_le {f : Format} {c : Nat} {e : Int} (h : f.IsNormal c e) :
    (1 : ℚ) ≤ c := by
  have : 1 ≤ c := (twoTo_pos _).trans_le h.le_coeff
  exact_mod_cast this

section
variable {f : Format} {c num den : Nat} {e : Int}

theorem Format.Near.pos (hx : f.Near c e ((num : ℚ) / den)) (hf : f.IsNormal c e) : 0 < num := by
  have hone := hf.one_le
  have hbelow := f.below_le_half c e
  have hpos : (0 : ℚ) < num / den :=
    hx.low.trans_lt' (mul_pos (by linarith) (two_zpow_pos e))
  refine Nat.pos_of_ne_zero fun h => ?_
  rw [h, Nat.cast_zero, zero_div] at hpos
  exact lt_irrefl _ hpos

/-- Rounded at its own exponent, a value near a number gives the coefficient of the number. -/
theorem Format.Near.nearest (hx : f.Near c e ((num : ℚ) / den)) (hden : 0 < den) :
    divNearestEven (scaleDown num den e).1 (scaleDown num den e).2 = c := by
  have hbelow := f.below_le_half c e
  have hlow : (c - f.below c e) ≤ (num : ℚ) / den / 2 ^ e :=
    (le_div_iff₀ (two_zpow_pos e)).mpr hx.low
  have hhigh : (num : ℚ) / den / 2 ^ e ≤ c + 1 / 2 := (div_le_iff₀ (two_zpow_pos e)).mpr hx.high
  refine divNearestEven_of_value (scaleDown_pos hden e) (scaleDown_value num den e) (by linarith)
    hhigh fun h => ⟨?_, (div_lt_iff₀ (two_zpow_pos e)).mpr (hx.odd h).2⟩
  have := (lt_div_iff₀ (two_zpow_pos e)).mpr (hx.odd h).1
  linarith

theorem Format.Near.round_at_own_exponent (hx : f.Near c e ((num : ℚ) / den))
    (hf : f.IsNormal c e) (hden : 0 < den) (hexp : f.exponentFor num den = e) (negative : Bool) :
    f.round negative num den = .finite negative c e := by
  have hmaxExp : ¬f.maxExp < e := not_lt.mpr hf.exp_le
  unfold round
  simp only [hexp, hx.nearest hden, (hx.pos hf).ne', hf.coeff_lt.ne, hmaxExp, if_false]

theorem Format.Near.lt_top (hx : f.Near c e ((num : ℚ) / den)) (hf : f.IsNormal c e) :
    (num : ℚ) / den < 2 ^ (f.precision + e) := by
  have hcoeff : (c : ℚ) + 1 ≤ 2 ^ (f.precision : Int) := by
    rw [zpow_natCast]
    exact_mod_cast hf.coeff_lt
  rw [zpow_add₀ two_ne_zero]
  exact hx.high.trans_lt ((mul_lt_mul_iff_left₀ (two_zpow_pos e)).mpr (by linarith))

/-- Only below a power of two is a value near a number of a larger exponent. -/
theorem Format.Near.eq_power (hx : f.Near c e ((num : ℚ) / den)) (hf : f.IsNormal c e)
    (hunder : (num : ℚ) / den < twoTo (f.precision - 1) * 2 ^ e) : c = twoTo (f.precision - 1) := by
  have hbelow := f.below_le_half c e
  have := (mul_lt_mul_iff_left₀ (two_zpow_pos e)).mp (hx.low.trans_lt hunder)
  have hlt : (c : ℚ) < twoTo (f.precision - 1) + 1 := by linarith
  have hlt : c < twoTo (f.precision - 1) + 1 := by exact_mod_cast hlt
  have := hf.le_coeff
  omega

theorem Format.Near.exponentFor_under (hx : f.Near c e ((num : ℚ) / den)) (hf : f.IsNormal c e)
    (hden : 0 < den) (hunder : (num : ℚ) / den < twoTo (f.precision - 1) * 2 ^ e) :
    f.exponentFor num den = max (e - 1) f.minExp := by
  have hpower := hx.eq_power hf hunder
  have hbelow := f.below_le_half c e
  have hone := hf.one_le
  have hpow := two_zpow_pos e
  refine exponentFor_eq (hx.pos hf) hden ?_ ?_
  · rw [zpow_add₀ two_ne_zero, ← cast_twoTo_pred hf.precise, ← hpower, zpow_sub_one₀ two_ne_zero]
    nlinarith [hx.low]
  · refine hunder.trans_eq ?_
    rw [cast_twoTo_pred hf.precise, ← zpow_add₀ two_ne_zero]
    congr 1
    ring

/-- Below a power of two the coefficient is rounded up to the first one of the next exponent. -/
theorem Format.Near.round_under (hx : f.Near c e ((num : ℚ) / den)) (hf : f.IsNormal c e)
    (hden : 0 < den) (hunder : (num : ℚ) / den < twoTo (f.precision - 1) * 2 ^ e)
    (hmin : f.minExp < e) (negative : Bool) :
    f.round negative num den = .finite negative c e := by
  have hpower := hx.eq_power hf hunder
  have hexp : f.exponentFor num den = e - 1 :=
    (hx.exponentFor_under hf hden hunder).trans (by omega)
  have hhalf : (2 : ℚ) ^ (e - 1) = 2 ^ e / 2 := zpow_sub_one₀ two_ne_zero e
  have hnearest : divNearestEven (scaleDown num den (e - 1)).1 (scaleDown num den (e - 1)).2 =
      2 * c := by
    have hbelow : f.below c e = 1 / 4 := if_pos ⟨hpower, hmin⟩
    refine divNearestEven_of_value (scaleDown_pos hden _) (scaleDown_value num den _) ?_ ?_
      fun h => absurd h (by omega)
    · rw [le_div_iff₀ (two_zpow_pos _), hhalf, Nat.cast_mul, Nat.cast_two]
      linarith [hbelow ▸ hx.low]
    · rw [← hpower] at hunder
      rw [div_le_iff₀ (two_zpow_pos _), hhalf, Nat.cast_mul, Nat.cast_two]
      linarith [two_zpow_pos e]
  have hdouble : 2 * c = twoTo f.precision := by
    rw [hpower]
    exact (Nat.mul_comm 2 _).trans (Nat.two_pow_pred_mul_two hf.precise)
  have hc : 2 * c / 2 = c := by omega
  have hmaxExp : ¬f.maxExp < e := not_lt.mpr hf.exp_le
  unfold round
  simp only [hexp, hnearest, (hx.pos hf).ne', ← hdouble, hc, sub_add_cancel, hmaxExp, if_true,
    if_false]

/-- What is near a number of full precision is rounded to it. -/
theorem Format.round_of_near (hx : f.Near c e ((num : ℚ) / den)) (hf : f.IsNormal c e)
    (hden : 0 < den) (negative : Bool) : f.round negative num den = .finite negative c e := by
  by_cases hunder : (num : ℚ) / den < twoTo (f.precision - 1) * 2 ^ e
  · by_cases hmin : f.minExp < e
    · exact hx.round_under hf hden hunder hmin negative
    · have := hf.le_exp
      exact hx.round_at_own_exponent hf hden
        ((hx.exponentFor_under hf hden hunder).trans (by omega)) negative
  · rw [cast_twoTo_pred hf.precise, ← zpow_add₀ two_ne_zero] at hunder
    refine hx.round_at_own_exponent hf hden ?_ negative
    rw [exponentFor_eq (hx.pos hf) hden (not_lt.mp hunder) (hx.lt_top hf), max_eq_left hf.le_exp]

theorem Format.round_self (hf : f.IsNormal c e) (hden : 0 < den)
    (h : (num : ℚ) / den = c * 2 ^ e) (negative : Bool) :
    f.round negative num den = .finite negative c e :=
  round_of_near (h ▸ .self f c e) hf hden negative

end

/-! ## Natural numbers -/

theorem le_divNearestEven {n d a : Nat} (hd : 0 < d) (h : a * d ≤ n) : a ≤ divNearestEven n d := by
  have : a ≤ n / d := (Nat.le_div_iff_mul_le hd).mpr h
  unfold divNearestEven
  dsimp only
  split
  · omega
  · split <;> omega

theorem divNearestEven_le {n d b : Nat} (hd : 0 < d) (h : n < b * d) : divNearestEven n d ≤ b := by
  have : n / d < b := (Nat.div_lt_iff_lt_mul hd).mpr h
  unfold divNearestEven
  dsimp only
  split
  · omega
  · split <;> omega

/-- A natural number below the precision is a number of the format. -/
theorem Format.exists_normal {f : Format} {n : Nat} (hn : 0 < n) (h : n < twoTo f.precision)
    (hmin : f.minExp ≤ 1 - f.precision) (hmax : 0 ≤ f.maxExp) :
    ∃ c e, f.IsNormal c e ∧ (c : ℚ) * 2 ^ e = n := by
  obtain ⟨k, hk⟩ : ∃ k, k = Nat.log2 n := ⟨_, rfl⟩
  have hlow : 2 ^ k ≤ n := hk ▸ Nat.log2_self_le hn.ne'
  have hhigh : n < 2 ^ (k + 1) := hk ▸ Nat.lt_log2_self
  have hkp : k < f.precision := (Nat.pow_lt_pow_iff_right one_lt_two).mp (hlow.trans_lt h)
  obtain ⟨j, hj⟩ : ∃ j, f.precision = k + 1 + j := ⟨f.precision - (k + 1), by omega⟩
  refine ⟨n * twoTo j, -j, ⟨by omega, ?_, ?_, by omega, by omega⟩, ?_⟩
  · rw [hj, Nat.add_right_comm, Nat.add_sub_cancel]
    exact (Nat.pow_add 2 k j).trans_le (Nat.mul_le_mul_right _ hlow)
  · rw [hj]
    exact ((Nat.mul_lt_mul_right (twoTo_pos j)).mpr hhigh).trans_eq (Nat.pow_add 2 (k + 1) j).symm
  · rw [zpow_neg, zpow_natCast, Nat.cast_mul, cast_twoTo]
    field_simp

/-- A natural number below the precision is rounded to itself. -/
theorem Format.ofNat_of_lt {f : Format} {n : Nat} (hn : 0 < n) (h : n < twoTo f.precision)
    (hmin : f.minExp ≤ 1 - f.precision) (hmax : 0 ≤ f.maxExp) :
    ∃ c e, f.ofNat n = .finite false c e ∧ f.IsNormal c e ∧ (c : ℚ) * 2 ^ e = n := by
  obtain ⟨c, e, hnormal, hvalue⟩ := f.exists_normal hn h hmin hmax
  exact ⟨c, e, round_self hnormal one_pos (by simpa using hvalue.symm) false, hnormal, hvalue⟩

section
variable {f : Format} {n j : Nat}

theorem Format.exponentFor_ofNat (hp : 0 < f.precision) (hlow : twoTo (f.precision - 1 + j) ≤ n)
    (hhigh : n < twoTo (f.precision + j)) (hmin : f.minExp ≤ j) : f.exponentFor n 1 = j := by
  refine (exponentFor_eq (e := j) ((twoTo_pos _).trans_le hlow) one_pos ?_ ?_).trans
    (max_eq_left hmin)
  · have : ((f.precision : Int) - 1 + j) = ((f.precision - 1 + j : Nat) : Int) := by omega
    rw [this, zpow_natCast, ← cast_twoTo, Nat.cast_one, div_one]
    exact_mod_cast hlow
  · have : ((f.precision : Int) + j) = ((f.precision + j : Nat) : Int) := by omega
    rw [this, zpow_natCast, ← cast_twoTo, Nat.cast_one, div_one]
    exact_mod_cast hhigh

/-- A natural number beyond the precision is rounded to another one. -/
theorem Format.ofNat_of_le (hp : 0 < f.precision) (hlow : twoTo (f.precision - 1 + j) ≤ n)
    (hhigh : n < twoTo (f.precision + j)) (hmin : f.minExp ≤ j) (hmax : (j : Int) + 1 ≤ f.maxExp) :
    ∃ c e v, f.ofNat n = .finite false c e ∧ f.IsNormal c e ∧ (c : ℚ) * 2 ^ e = (v : Nat) ∧
      v ≤ twoTo (f.precision + j) := by
  obtain ⟨c, hc⟩ : ∃ c, c = divNearestEven n (twoTo j) := ⟨_, rfl⟩
  have hc₁ : twoTo (f.precision - 1) ≤ c :=
    hc ▸ le_divNearestEven (twoTo_pos j) ((Nat.pow_add 2 _ j).symm.trans_le hlow)
  have hc₂ : c ≤ twoTo f.precision :=
    hc ▸ divNearestEven_le (twoTo_pos j) (hhigh.trans_eq (Nat.pow_add 2 _ j))
  have hv : c * twoTo j ≤ twoTo (f.precision + j) :=
    (Nat.mul_le_mul_right _ hc₂).trans_eq (Nat.pow_add 2 _ j).symm
  have hn : n ≠ 0 := ((twoTo_pos _).trans_le hlow).ne'
  have hscale : scaleDown n 1 j = (n, twoTo j) := by simp [scaleDown]
  have hexp := exponentFor_ofNat hp hlow hhigh hmin
  have hdouble : twoTo f.precision = 2 * twoTo (f.precision - 1) :=
    (Nat.two_pow_pred_mul_two hp).symm.trans (Nat.mul_comm _ 2)
  by_cases htop : c = twoTo f.precision
  · have hhalf : c / 2 = twoTo (f.precision - 1) := by omega
    have hexp' : ¬f.maxExp < (j : Int) + 1 := by omega
    refine ⟨twoTo (f.precision - 1), j + 1, c * twoTo j, ?_, ⟨hp, le_rfl, ?_, by omega, hmax⟩, ?_,
      hv⟩
    · unfold ofNat round
      simp only [hn, hexp, hscale, ← hc, htop, ← hhalf, hexp', if_true, if_false]
    · have := twoTo_pos (f.precision - 1)
      omega
    · rw [htop, hdouble, zpow_add_one₀ two_ne_zero, zpow_natCast]
      push_cast [cast_twoTo]
      ring
  · have hexp' : ¬f.maxExp < (j : Int) := by omega
    refine ⟨c, j, c * twoTo j, ?_, ⟨hp, hc₁, lt_of_le_of_ne hc₂ htop, hmin, by omega⟩, ?_, hv⟩
    · unfold ofNat round
      simp only [hn, hexp, hscale, ← hc, htop, hexp', if_false]
    · rw [zpow_natCast, Nat.cast_mul, cast_twoTo]

end

/-- A positive number of 32 bits is rounded to a natural number of the 32-bit format. -/
theorem singleOfNat_eq {n : Nat} (hn : 0 < n) (hlt : n < twoTo 32) :
    ∃ c e v, singleOfNat n = .finite false c e ∧ Format.single.IsNormal c e ∧
      (c : ℚ) * 2 ^ e = (v : Nat) ∧ v ≤ twoTo 32 := by
  by_cases h : n < twoTo 24
  · obtain ⟨c, e, hround, hnormal, hvalue⟩ :=
      Format.ofNat_of_lt (f := .single) hn h (by decide) (by decide)
    exact ⟨c, e, n, hround, hnormal, hvalue, hlt.le⟩
  · obtain ⟨k, hk⟩ : ∃ k, k = Nat.log2 n := ⟨_, rfl⟩
    have hlow : twoTo k ≤ n := hk ▸ Nat.log2_self_le hn.ne'
    have hhigh : n < twoTo (k + 1) := hk ▸ Nat.lt_log2_self
    have hk₁ : 24 < k + 1 := (Nat.pow_lt_pow_iff_right one_lt_two).mp ((not_lt.mp h).trans_lt hhigh)
    have hk₂ : k < 32 := (Nat.pow_lt_pow_iff_right one_lt_two).mp (hlow.trans_lt hlt)
    obtain ⟨j, rfl⟩ : ∃ j, k = 23 + j := ⟨k - 23, by omega⟩
    have hj : 24 + j ≤ 32 := by omega
    obtain ⟨c, e, v, hround, hnormal, hvalue, hv⟩ := Format.ofNat_of_le (f := .single) (by decide)
      hlow (hhigh.trans_eq (congrArg twoTo (by omega : 23 + j + 1 = 24 + j)))
      (le_trans (b := (0 : Int)) (by decide) (by omega))
      (le_trans (b := (9 : Int)) (by omega) (by decide))
    exact ⟨c, e, v, hround, hnormal, hvalue, hv.trans (Nat.pow_le_pow_right two_pos hj)⟩

end ComputePlane.Number
