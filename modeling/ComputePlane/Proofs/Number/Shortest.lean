import Mathlib.Algebra.Order.Field.Power
import Mathlib.Data.List.TakeWhile
import Mathlib.Tactic.FieldSimp
import Mathlib.Tactic.Linarith
import Mathlib.Tactic.Ring
import ComputePlane.Number.Shortest
import ComputePlane.Proofs.Number.Digits
import ComputePlane.Proofs.Number.Rounding

/-!
# The shortest decimal of a natural number

What `Nearby.holds` accepts is rounded to the number (`Format.near_of_holds`). A natural number of
at most seventeen digits is on the grid of the units, so its shortest decimal is found there or on a
coarser grid, and is a natural number again (`Format.exists_shortest`).
-/

namespace ComputePlane.Number

/-! ## Values of the fractions -/

theorem tenTo_pos (n : Nat) : 0 < tenTo n := Nat.pow_pos (by decide)

@[simp] theorem cast_tenTo (n : Nat) : (tenTo n : ℚ) = 10 ^ n := Nat.cast_pow 10 n

theorem ten_zpow_toNat {q : Int} (h : 0 ≤ q) : (10 : ℚ) ^ q.toNat = 10 ^ q := by
  rw [← zpow_natCast, Int.toNat_of_nonneg h]

theorem Nearby.powerOfTen_pos (q : Int) : 0 < (powerOfTen q).2 := by
  unfold powerOfTen
  split
  · exact one_pos
  · exact tenTo_pos _

theorem Nearby.powerOfTen_value (q : Int) :
    ((powerOfTen q).1 : ℚ) / (powerOfTen q).2 = 10 ^ q := by
  unfold powerOfTen
  split
  · next h => rw [cast_tenTo, ten_zpow_toNat h, Nat.cast_one, div_one]
  · next h => rw [cast_tenTo, ten_zpow_toNat (by omega), zpow_neg, Nat.cast_one, one_div, inv_inv]

section
variable {f : Format} {c : Nat} {e : Int}

/-- The unit of a number's surroundings: a quarter of its gap. -/
theorem Format.exists_nearby (f : Format) (c : Nat) (e : Int) :
    ∃ scale den below : Nat, 0 < scale ∧ 0 < den ∧ 0 < below ∧ below ≤ 2 ∧
      (scale : ℚ) / den = 2 ^ e / 4 ∧ (below : ℚ) / 4 = f.below c e ∧
      f.nearby c e =
        ⟨(4 * c - below) * scale, 4 * c * scale, (4 * c + 2) * scale, den, c % 2 = 0⟩ := by
  have hquarter : (2 : ℚ) ^ (e - 2) = 2 ^ e / 4 := by
    rw [zpow_sub₀ two_ne_zero]
    norm_num
  obtain ⟨below, hbelow, hpos, hle, hvalue⟩ : ∃ below : Nat,
      below = (if c = twoTo (f.precision - 1) ∧ f.minExp < e then 1 else 2) ∧ 0 < below ∧
      below ≤ 2 ∧ (below : ℚ) / 4 = f.below c e := by
    refine ⟨_, rfl, ?_, ?_, ?_⟩
    · split <;> decide
    · split <;> decide
    · unfold Format.below
      split <;> norm_num
  by_cases h : 0 ≤ e - 2
  · refine ⟨twoTo (e - 2).toNat, 1, below, twoTo_pos _, one_pos, hpos, hle, ?_, hvalue, ?_⟩
    · rw [cast_twoTo, two_zpow_toNat h, hquarter, Nat.cast_one, div_one]
    · unfold nearby
      rw [if_pos h, hbelow]
  · refine ⟨1, twoTo (2 - e).toNat, below, one_pos, twoTo_pos _, hpos, hle, ?_, hvalue, ?_⟩
    · rw [cast_twoTo, two_zpow_toNat (by omega), ← hquarter, Nat.cast_one, one_div, ← zpow_neg,
        neg_sub]
    · unfold nearby
      rw [if_neg h, hbelow]

theorem Format.below_end {scale den below : Nat} (hc : 0 < c) (hle : below ≤ 2)
    (hunit : (scale : ℚ) / den = 2 ^ e / 4) (hbelow : (below : ℚ) / 4 = f.below c e) :
    (((4 * c - below) * scale : Nat) : ℚ) / den = (c - f.below c e) * 2 ^ e := by
  rw [Nat.cast_mul, mul_div_assoc, hunit, Nat.cast_sub (by omega), ← hbelow]
  push_cast
  ring

theorem Format.above_end {scale den : Nat} (hunit : (scale : ℚ) / den = 2 ^ e / 4) :
    (((4 * c + 2) * scale : Nat) : ℚ) / den = (c + 1 / 2) * 2 ^ e := by
  rw [Nat.cast_mul, mul_div_assoc, hunit]
  push_cast
  ring

/-- What a number's surroundings hold is rounded to the number. -/
theorem Format.near_of_holds (hc : 0 < c) {m : Nat} {q : Int}
    (h : (f.nearby c e).holds m q = true) : f.Near c e (m * 10 ^ q) := by
  obtain ⟨scale, den, below, hscale, hden, -, hle, hunit, hbelow, hnearby⟩ := f.exists_nearby c e
  have hlow := below_end hc hle hunit hbelow
  have hhigh := above_end (c := c) hunit
  have hden' : (0 : ℚ) < den := by exact_mod_cast hden
  have ht : (0 : ℚ) < (Nearby.powerOfTen q).2 := by exact_mod_cast Nearby.powerOfTen_pos q
  unfold Nearby.holds at h
  rw [hnearby] at h
  rw [← Nearby.powerOfTen_value q, ← mul_div_assoc]
  simp only [Bool.and_eq_true, Bool.or_eq_true, decide_eq_true_eq, beq_iff_eq] at h
  generalize (4 * c - below) * scale = low at h hlow
  generalize (4 * c + 2) * scale = high at h hhigh
  refine ⟨?_, ?_, fun hodd => ?_⟩
  · rw [← hlow, div_le_div_iff₀ hden' ht]
    exact_mod_cast h.1.elim le_of_lt fun h => h.2.le
  · rw [← hhigh, div_le_div_iff₀ ht hden']
    exact_mod_cast h.2.elim le_of_lt fun h => h.2.ge
  · rw [← hlow, ← hhigh, div_lt_div_iff₀ hden' ht, div_lt_div_iff₀ ht hden']
    have heven : ¬c % 2 = 0 := by omega
    simp only [heven, false_and, or_false] at h
    exact_mod_cast h

/-- A natural number's own surroundings hold it. -/
theorem Format.holds_self (hc : 0 < c) {v : Nat} (hv : (c : ℚ) * 2 ^ e = v) :
    (f.nearby c e).holds v 0 = true ∧ (f.nearby c e).value = v * (f.nearby c e).den ∧
      0 < (f.nearby c e).den := by
  obtain ⟨scale, den, below, hscale, hden, hpos, hle, hunit, hbelow, hnearby⟩ :=
    f.exists_nearby c e
  have hden' : (0 : ℚ) < den := by exact_mod_cast hden
  have hvalue : 4 * c * scale = v * den := by
    rw [div_eq_iff hden'.ne'] at hunit
    have : (4 * c * scale : ℚ) = v * den := by
      rw [hunit, ← hv]
      ring
    exact_mod_cast this
  have hlow : (4 * c - below) * scale < v * den :=
    hvalue ▸ (Nat.mul_lt_mul_right hscale).mpr (by omega)
  have hhigh : v * den < (4 * c + 2) * scale :=
    hvalue ▸ (Nat.mul_lt_mul_right hscale).mpr (by omega)
  refine ⟨?_, ?_, ?_⟩
  · unfold Nearby.holds Nearby.powerOfTen
    rw [hnearby]
    have hone : tenTo 0 = 1 := rfl
    simp [hone, hlow, hhigh]
  · rw [hnearby]
    exact hvalue
  · rw [hnearby]
    exact hden

end

/-! ## Grids -/

namespace Nearby

theorem holds_of_onGrid {i : Nearby} {q : Int} {m : Nat} (h : i.onGrid q = some m) :
    i.holds m q = true := by
  unfold onGrid at h
  dsimp only at h
  split at h
  · split at h <;> cases h <;> assumption
  · cases h
    assumption
  · cases h
    assumption
  · cases h

/-- A natural number is on the grid of the units. -/
theorem exists_onGrid_zero {i : Nearby} {v : Nat} (hv : i.holds v 0 = true)
    (hvalue : i.value = v * i.den) (hden : 0 < i.den) : ∃ m, i.onGrid 0 = some m := by
  have hone : tenTo 0 = 1 := rfl
  have hquot : i.value * 1 / (i.den * 1) = v := by
    rw [hvalue, Nat.mul_one, Nat.mul_one, Nat.mul_div_cancel _ hden]
  unfold onGrid powerOfTen
  simp only [le_refl, if_true, Int.toNat_zero, hone, hquot, hv]
  split
  · split <;> exact ⟨_, rfl⟩
  · exact ⟨_, rfl⟩
  · next h _ => cases h
  · next h _ => cases h

/-- The first point is found no later than on a grid that has one. -/
theorem exists_firstPoint {i : Nearby} {lead : Int} {count k j a : Nat} (hkj : k ≤ j)
    (hj : j < k + count) (h : i.onGrid (lead - j) = some a) :
    ∃ m q, i.firstPoint lead count k = some (m, q) ∧ i.onGrid q = some m ∧ lead - j ≤ q := by
  induction count generalizing k with
  | zero => omega
  | succ count ih =>
    unfold firstPoint
    dsimp only
    split
    · next m hm => exact ⟨m, lead - k, rfl, hm, by omega⟩
    · next hnone =>
      have hne : k ≠ j := by
        rintro rfl
        cases h.symm.trans hnone
      exact ih (by omega) (by omega)

end Nearby

/-! ## The shortest decimal -/

theorem exists_replicate_of_dropZeros (ds : List Nat) :
    ∃ k, ds = (ds.reverse.dropWhile (· == 0)).reverse ++ List.replicate k 0 := by
  refine ⟨(ds.reverse.takeWhile (· == 0)).length, ?_⟩
  have hzeros : ds.reverse.takeWhile (· == 0) =
      List.replicate (ds.reverse.takeWhile (· == 0)).length 0 :=
    List.eq_replicate_of_mem fun d hd => by simpa using List.mem_takeWhile_imp hd
  have hsplit := congrArg List.reverse
    (List.takeWhile_append_dropWhile (p := (· == 0)) (l := ds.reverse))
  rw [List.reverse_append, List.reverse_reverse, hzeros, List.reverse_replicate] at hsplit
  exact hsplit.symm

/-- The shortest decimal of a natural number of at most seventeen digits is a natural number that is
rounded to the same number. -/
theorem Format.exists_shortest {f : Format} {c v : Nat} {e : Int} (hc : 0 < c)
    (hv : (c : ℚ) * 2 ^ e = v) (hdigits : (digits v).length ≤ mostDigits) :
    ∃ m k : Nat, f.Near c e ((m * tenTo k : Nat) : ℚ) ∧
      f.shortest c e =
        ⟨((digits m).reverse.dropWhile (· == 0)).reverse, k + (digits m).length - 1⟩ := by
  obtain ⟨hself, hvalue, hden⟩ := f.holds_self hc hv
  obtain ⟨a, ha⟩ := Nearby.exists_onGrid_zero hself hvalue hden
  have hvpos : 0 < v := by
    have : (0 : ℚ) < v := hv ▸ mul_pos (by exact_mod_cast hc) (two_zpow_pos e)
    exact_mod_cast this
  have hlead : (f.nearby c e).leadExponent = ((digits v).length : Int) - 1 := by
    unfold Nearby.leadExponent
    rw [hvalue, if_pos (Nat.le_mul_of_pos_left _ hvpos), Nat.mul_div_cancel _ hden]
  obtain ⟨d, ds, hds, -⟩ := exists_digits_cons v
  have hlength : (digits v).length = ds.length + 1 := congrArg List.length hds
  have hgrid : (f.nearby c e).onGrid ((f.nearby c e).leadExponent - ds.length) = some a := by
    rw [hlead, hlength]
    simpa using ha
  have hcount : ds.length < 0 + mostDigits := by omega
  obtain ⟨m, q, hfirst, hpoint, hq⟩ := Nearby.exists_firstPoint (Nat.zero_le _) hcount hgrid
  obtain ⟨k, rfl⟩ : ∃ k : Nat, q = k := ⟨q.toNat, by omega⟩
  refine ⟨m, k, ?_, ?_⟩
  · have hnear := near_of_holds hc (Nearby.holds_of_onGrid hpoint)
    rwa [zpow_natCast, ← cast_tenTo, ← Nat.cast_mul] at hnear
  · unfold shortest
    simp only [hc.ne', if_false, hfirst]

end ComputePlane.Number
