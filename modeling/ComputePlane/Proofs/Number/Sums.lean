import ComputePlane.Proofs.Number.Rounding

/-!
# Exact sums

A format has all natural numbers up to `2 ^ precision`, so a sum of such numbers that stays within
this bound is exact: no partial sum is rounded to another number (`Format.sum_ofNat`). Read back, it
is the sum of the natural numbers (`Format.toBoundedNat_ofNat`).
-/

namespace ComputePlane.Number

variable {f : Format} {c n m : Nat} {e : Int}

/-- A format without subnormal integers that reaches at least two gaps of its largest integers. -/
structure Format.HasIntegers (f : Format) : Prop where
  precise : 0 < f.precision
  minExp : f.minExp ≤ 1 - f.precision
  maxExp : 1 ≤ f.maxExp

theorem Format.hasIntegers_single : Format.single.HasIntegers := by
  constructor <;> decide

/-! ## Integers of a format -/

/-- A number of a format that is an integer. -/
structure Format.Represents (f : Format) (c : Nat) (e : Int) (n : Nat) : Prop where
  value : (c : ℚ) * 2 ^ e = n
  normal : 0 < n → f.IsNormal c e

/-- A natural number up to the precision is rounded to itself. -/
theorem Format.exists_represents (hf : f.HasIntegers) (h : n ≤ twoTo f.precision) :
    ∃ c e, f.ofNat n = .finite false c e ∧ f.Represents c e n := by
  rcases Nat.eq_zero_or_pos n with rfl | hn
  · exact ⟨0, f.minExp, rfl, by simp, fun h => absurd h (Nat.lt_irrefl 0)⟩
  obtain ⟨c, e, hnormal, hvalue⟩ : ∃ c e, f.IsNormal c e ∧ (c : ℚ) * 2 ^ e = n := by
    rcases h.lt_or_eq with hlt | rfl
    · exact f.exists_normal hn hlt hf.minExp (by have := hf.maxExp; omega)
    · -- the bound itself has the smallest coefficient at the next exponent
      have hprecise := hf.precise
      have hmin := hf.minExp
      have hdouble : twoTo (f.precision - 1) * 2 = twoTo f.precision :=
        Nat.two_pow_pred_mul_two hprecise
      have hpos := twoTo_pos (f.precision - 1)
      exact ⟨twoTo (f.precision - 1), 1, ⟨hprecise, le_rfl, by omega, by omega, hf.maxExp⟩,
        by rw [zpow_one]; exact_mod_cast hdouble⟩
  exact ⟨c, e, round_self hnormal one_pos (by simpa using hvalue.symm) false, hvalue,
    fun _ => hnormal⟩

/-- A fraction that is an integer of the format is rounded to it. -/
theorem Format.round_eq_ofNat {num den : Nat} (hf : f.HasIntegers) (h : n ≤ twoTo f.precision)
    (hn : 0 < n) (hden : 0 < den) (hvalue : (num : ℚ) / den = n) :
    f.round false num den = f.ofNat n := by
  obtain ⟨c, e, hround, hrep⟩ := f.exists_represents hf h
  rw [hround]
  exact round_self (hrep.normal hn) hden (hvalue.trans hrep.value.symm) false

/-! ## Sums -/

theorem two_zpow_sub_toNat {a b : Int} (h : b ≤ a) : (2 : ℚ) ^ (a - b).toNat * 2 ^ b = 2 ^ a := by
  rw [two_zpow_toNat (by omega), ← zpow_add₀ two_ne_zero]
  congr 1
  omega

/-- The coefficient of a sum before it is rounded: both terms are counted in the smaller gap. -/
def sumCoeff (c₁ c₂ : Nat) (e₁ e₂ : Int) : Nat :=
  c₁ * twoTo (e₁ - min e₁ e₂).toNat + c₂ * twoTo (e₂ - min e₁ e₂).toNat

theorem sumCoeff_value (c₁ c₂ : Nat) (e₁ e₂ : Int) :
    (sumCoeff c₁ c₂ e₁ e₂ : ℚ) * 2 ^ min e₁ e₂ = c₁ * 2 ^ e₁ + c₂ * 2 ^ e₂ := by
  rw [sumCoeff, Nat.cast_add, Nat.cast_mul, Nat.cast_mul, cast_twoTo, cast_twoTo, add_mul,
    mul_assoc, mul_assoc, two_zpow_sub_toNat (min_le_left ..), two_zpow_sub_toNat (min_le_right ..)]

theorem Binary.add_nonnegative (f : Format) (c₁ c₂ : Nat) (e₁ e₂ : Int) :
    add f (.finite false c₁ e₁) (.finite false c₂ e₂) =
      if sumCoeff c₁ c₂ e₁ e₂ = 0 then .finite false 0 f.minExp
      else f.round false (fraction (sumCoeff c₁ c₂ e₁ e₂) (min e₁ e₂)).1
        (fraction (sumCoeff c₁ c₂ e₁ e₂) (min e₁ e₂)).2 := by
  have hsum : ((c₁ * twoTo (e₁ - min e₁ e₂).toNat : Nat) : Int) +
      ((c₂ * twoTo (e₂ - min e₁ e₂).toNat : Nat) : Int) = (sumCoeff c₁ c₂ e₁ e₂ : Nat) :=
    (Nat.cast_add ..).symm
  simp only [add, Bool.false_eq_true, if_false, hsum, Int.natAbs_natCast, Nat.cast_eq_zero,
    Bool.and_self, show ¬((sumCoeff c₁ c₂ e₁ e₂ : Nat) : Int) < 0 by omega, decide_false]

/-- A sum up to the precision is not rounded to another number. -/
theorem Format.add_ofNat (hf : f.HasIntegers) (h : m + n ≤ twoTo f.precision) :
    (f.ofNat m).add f (f.ofNat n) = f.ofNat (m + n) := by
  obtain ⟨c₁, e₁, hm, hc₁⟩ := f.exists_represents (n := m) hf (by omega)
  obtain ⟨c₂, e₂, hn, hc₂⟩ := f.exists_represents (n := n) hf (by omega)
  have hvalue : (sumCoeff c₁ c₂ e₁ e₂ : ℚ) * 2 ^ min e₁ e₂ = (m + n : Nat) := by
    rw [sumCoeff_value, hc₁.value, hc₂.value, Nat.cast_add]
  have hzero : sumCoeff c₁ c₂ e₁ e₂ = 0 ↔ m + n = 0 := by
    have hpow := (two_zpow_pos (min e₁ e₂)).ne'
    rw [← Nat.cast_eq_zero (R := ℚ), ← Nat.cast_eq_zero (R := ℚ) (n := m + n), ← hvalue,
      mul_eq_zero, or_iff_left hpow]
  rw [hm, hn, Binary.add_nonnegative]
  split
  · next hsum => rw [hzero.mp hsum]; rfl
  · next hsum =>
    exact round_eq_ofNat hf h (Nat.pos_of_ne_zero fun hnone => hsum (hzero.mpr hnone))
      (Binary.fraction_pos ..) ((Binary.fraction_value ..).trans hvalue)

/-- A sum from left to right of natural numbers up to the precision is exact. -/
theorem Format.foldl_add_ofNat (hf : f.HasIntegers) {ns : List Nat}
    (h : m + total ns ≤ twoTo f.precision) :
    (ns.map f.ofNat).foldl (Binary.add f) (f.ofNat m) = f.ofNat (m + total ns) := by
  induction ns generalizing m with
  | nil => rfl
  | cons n ns ih =>
    have htotal : total (n :: ns) = n + total ns := rfl
    rw [htotal, ← Nat.add_assoc] at h ⊢
    rw [List.map_cons, List.foldl_cons, add_ofNat hf (by omega), ih h]

theorem Format.sum_ofNat (hf : f.HasIntegers) {ns : List Nat} (h : total ns ≤ twoTo f.precision) :
    Binary.sum f (ns.map f.ofNat) = f.ofNat (total ns) := by
  have hsum := foldl_add_ofNat (m := 0) hf (by rwa [Nat.zero_add])
  rw [Nat.zero_add] at hsum
  exact hsum

/-- A natural number up to the precision is read back as it is. -/
theorem Format.toBoundedNat_ofNat {bound : Nat} (hf : f.HasIntegers) (h : n ≤ twoTo f.precision)
    (hbound : n ≤ bound) : (f.ofNat n).toBoundedNat bound = n := by
  obtain ⟨c, e, hround, hrep⟩ := f.exists_represents hf h
  have hden := Binary.fraction_pos c e
  have hden' : ((Binary.fraction c e).2 : ℚ) ≠ 0 := by exact_mod_cast hden.ne'
  have hnum : (Binary.fraction c e).1 = n * (Binary.fraction c e).2 := by
    have hvalue := (Binary.fraction_value c e).trans hrep.value
    rw [div_eq_iff hden'] at hvalue
    exact_mod_cast hvalue
  have hhalf : (2 * (n * (Binary.fraction c e).2) + (Binary.fraction c e).2) /
      (2 * (Binary.fraction c e).2) = n := by
    rw [show 2 * (n * (Binary.fraction c e).2) = 2 * (Binary.fraction c e).2 * n by ring,
      Nat.mul_add_div (by omega), Nat.div_eq_of_lt (by omega), Nat.add_zero]
  rw [hround]
  simp only [Binary.toBoundedNat, hnum, hhalf]
  exact Nat.min_eq_right hbound

end ComputePlane.Number
