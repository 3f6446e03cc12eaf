import Mathlib.Algebra.Order.Field.Power
import Mathlib.Tactic.FieldSimp
import Mathlib.Tactic.Linarith
import Mathlib.Tactic.Ring
import ComputePlane.Json.Decoder
import ComputePlane.Resource.Request
import ComputePlane.Proofs.Json.Written
import ComputePlane.Proofs.Number.Shortest

/-!
# Written numbers read back

A natural number is written in digits and read as it is (`natural_ofNat`). The 32-bit number nearest
to a natural number is written as a shorter natural number with a point behind it. That is read in
two roundings, of which the first one is exact, so the second one gives the number again
(`single_ofSingle`).
-/

namespace ComputePlane.Json

open ComputePlane.Number

/-! ## Natural numbers -/

namespace Numeral

theorem isUsual_ofNat (n : Nat) : (Numeral.ofNat n).IsUsual where
  whole_ne_nil := by
    obtain ⟨d, ds, hds, -⟩ := exists_digits_cons n
    exact fun h => List.cons_ne_nil d ds (hds.symm.trans h)
  lead d ds h := by
    obtain ⟨d', ds', hds, hzero⟩ := exists_digits_cons n
    have h : digits n = 0 :: d :: ds := h
    obtain ⟨rfl, rfl⟩ := List.cons.inj (hds.symm.trans h)
    obtain rfl := hzero rfl
    cases h
  whole_lt := digits_lt n
  fraction_lt _ h := absurd h List.not_mem_nil

theorem integer?_ofNat {n : Nat} (h : n < twoTo 64) :
    (Numeral.ofNat n).integer? = some (n : Int) := by
  simp [integer?, Numeral.ofNat, Numeral.natural, h]

end Numeral

theorem natural_ofNat {n bound : Nat} (h : n < bound) (hbound : bound ≤ twoTo 64) :
    Decoder.natural bound (ofNat n) = .ok n := by
  unfold Decoder.natural ofNat
  simp [Numeral.integer?_ofNat (h.trans_le hbound), h]

/-! ## Floating-point numbers -/

namespace Numeral

theorem le_foldl_digits (ds : List Nat) (n : Nat) :
    n ≤ ds.foldl (fun n d => 10 * n + d) n := by
  induction ds generalizing n with
  | nil => exact le_rfl
  | cons d ds ih => exact le_trans (by omega) (ih (10 * n + d))

/-- Digits whose number fits 64 bits are all kept. -/
theorem absorb_eq {ds : List Nat} {n : Nat}
    (h : ds.foldl (fun n d => 10 * n + d) n < twoTo 64) :
    absorb n ds = (ds.foldl (fun n d => 10 * n + d) n, []) := by
  induction ds generalizing n with
  | nil => rfl
  | cons d ds ih =>
    unfold absorb
    rw [if_pos ((le_foldl_digits ds _).trans_lt h), ih h]
    rfl

theorem ofNat_double {n : Nat} (hn : 0 < n) (h : n < twoTo 53) :
    ∃ c e, Format.double.ofNat n = .finite false c e ∧ Format.double.IsNormal c e ∧
      (c : ℚ) * 2 ^ e = n :=
  Format.ofNat_of_lt hn h (by decide) (by decide)

/-- A quotient of natural numbers that is one has no rounding. -/
theorem quotient_ofNat {n d : Nat} (hn : 0 < n) (hd : 0 < d) (h : n * d < twoTo 53) :
    quotient (Format.double.ofNat (n * d)) (Format.double.ofNat d) = Format.double.ofNat n := by
  obtain ⟨c₁, e₁, h₁, -, hv₁⟩ := ofNat_double (Nat.mul_pos hn hd) h
  obtain ⟨c₂, e₂, h₂, -, hv₂⟩ := ofNat_double hd ((Nat.le_mul_of_pos_left d hn).trans_lt h)
  obtain ⟨c, e, h₀, hnormal, hv⟩ := ofNat_double hn ((Nat.le_mul_of_pos_right n hd).trans_lt h)
  have hd' : (0 : ℚ) < d := by exact_mod_cast hd
  have hnum : 0 < (Binary.fraction c₂ e₂).1 := by
    refine Nat.pos_of_ne_zero fun h => ?_
    have hzero := Binary.fraction_value c₂ e₂
    rw [h, Nat.cast_zero, zero_div, hv₂] at hzero
    exact hd'.ne hzero
  have hround : quotient (.finite false c₁ e₁) (.finite false c₂ e₂) =
      Format.double.round false ((Binary.fraction c₁ e₁).1 * (Binary.fraction c₂ e₂).2)
        ((Binary.fraction c₁ e₁).2 * (Binary.fraction c₂ e₂).1) := rfl
  rw [h₁, h₂, h₀, hround]
  refine Format.round_self hnormal (Nat.mul_pos (Binary.fraction_pos c₁ e₁) hnum) ?_ false
  rw [Nat.cast_mul, Nat.cast_mul, ← div_div_div_eq, Binary.fraction_value, Binary.fraction_value,
    hv₁, hv₂, hv, Nat.cast_mul, mul_div_cancel_right₀ _ hd'.ne']

/-- A natural number with a point and a zero behind it, of few enough digits. -/
theorem value?_point {ds : List Nat} (hpos : 0 < ofDigits 10 ds)
    (h : ofDigits 10 ds * 10 < twoTo 53) :
    (Numeral.mk false ds [0] none).value? =
      some (.real (Format.double.ofNat (ofDigits 10 ds))) := by
  obtain ⟨n, hn⟩ : ∃ n, n = ofDigits 10 ds := ⟨_, rfl⟩
  rw [← hn] at hpos h ⊢
  have hfit : n * 10 < twoTo 64 := h.trans_le (by decide)
  have hwhole : absorb 0 ds = (n, []) :=
    hn ▸ absorb_eq ((le_of_eq hn.symm).trans_lt (by omega))
  have hfraction : absorb n [0] = (n * 10, []) := by
    have hten : [0].foldl (fun n d => 10 * n + d) n < twoTo 64 := by
      simpa using (Nat.mul_comm 10 n).trans_lt hfit
    simpa [Nat.mul_comm] using absorb_eq hten
  have hmagnitude : (Numeral.mk false ds [0] none).magnitude? =
      some (quotient (Format.double.ofNat (n * 10)) (powerOfTen 1)) := by
    unfold magnitude?
    simp only [hwhole, hfraction]
    rfl
  have hquotient : quotient (Format.double.ofNat (n * 10)) (powerOfTen 1) = Format.double.ofNat n :=
    quotient_ofNat hpos (by decide) h
  obtain ⟨c, e, hround, -, -⟩ := ofNat_double hpos (by omega)
  have hinteger : (Numeral.mk false ds [0] none).integer? = none := by simp [integer?]
  unfold value?
  rw [hinteger, hmagnitude, hquotient, hround]
  rfl

/-- Zeros that shortening takes off the digits are written where positions need them. -/
theorem ofScientific_natural {ds : List Nat} {k : Nat} (hne : ds ≠ []) (hlen : ds.length + k ≤ 13) :
    ofScientific false ⟨(ds.reverse.dropWhile (· == 0)).reverse, k + ds.length - 1⟩ =
      ⟨false, ds ++ List.replicate k 0, [0], none⟩ := by
  obtain ⟨z, hz⟩ := exists_replicate_of_dropZeros ds
  generalize (ds.reverse.dropWhile (· == 0)).reverse = kept at hz
  have hlength : ds.length = kept.length + z := by
    rw [hz, List.length_append, List.length_replicate]
  have hpos : 0 < ds.length := List.length_pos_of_ne_nil hne
  have hplaces : ((k : Int) + ds.length - 1).toNat + 1 = k + ds.length := by omega
  have hrange : positional.1 ≤ (k : Int) + ds.length - 1 ∧
      (k : Int) + ds.length - 1 ≤ positional.2 := by
    unfold positional
    dsimp only
    omega
  have hzeros : k + ds.length - kept.length = z + k := by omega
  unfold ofScientific
  rw [if_pos hrange, if_neg (by dsimp only; omega)]
  simp only [hplaces, hzeros]
  rw [if_pos (by omega), hz, List.append_assoc, List.replicate_append_replicate]

end Numeral

/-- A 32-bit number that is written as a natural number near it is read again. -/
theorem Numeral.convert_single {c n : Nat} {e : Int} (hnormal : Format.single.IsNormal c e)
    (hnear : Format.single.Near c e n) (hn : 0 < n) (h : n < twoTo 53) :
    (Format.double.ofNat n).convert .single = .finite false c e := by
  obtain ⟨c', e', hround, -, hvalue⟩ := ofNat_double hn h
  have hconvert : (Binary.finite false c' e').convert .single =
      Format.single.round false (Binary.fraction c' e').1 (Binary.fraction c' e').2 := rfl
  rw [hround, hconvert]
  refine Format.round_of_near ?_ hnormal (Binary.fraction_pos c' e') false
  rwa [Binary.fraction_value, hvalue]

/-- The text of the 32-bit number nearest to a positive natural number, and what it is read as. -/
theorem Numeral.exists_ofSingle? {n : Nat} (hn : 0 < n) (h : n < twoTo 32) :
    ∃ (x : Numeral) (y : Binary), ofSingle? (singleOfNat n) = some x ∧ x.IsUsual ∧
      x.value? = some (.real y) ∧ y.convert .single = singleOfNat n := by
  obtain ⟨c, e, v, hsingle, hnormal, hvalue, hv⟩ := singleOfNat_eq hn h
  have hc : 0 < c := (twoTo_pos _).trans_le hnormal.le_coeff
  have hdigits : (digits v).length ≤ mostDigits :=
    (length_digits_le_iff (by decide)).mpr (hv.trans_lt (by decide))
  obtain ⟨m, k, hnear, hshort⟩ := Format.exists_shortest (f := .single) hc hvalue hdigits
  have hone : ((m * tenTo k : Nat) : ℚ) / (1 : Nat) = (m * tenTo k : Nat) := by simp
  have hpos : 0 < m * tenTo k := Format.Near.pos (hone.symm ▸ hnear) hnormal
  have hle : m * tenTo k ≤ 2 * v := by
    have : ((m * tenTo k : Nat) : ℚ) ≤ 2 * v := by
      rw [← hvalue]
      nlinarith [hnear.high, hnormal.one_le, two_zpow_pos e]
    exact_mod_cast this
  have hlt : m * tenTo k < tenTo 13 := (hle.trans (Nat.mul_le_mul_left 2 hv)).trans_lt (by decide)
  obtain ⟨d, ds, hds, hzero⟩ := exists_digits_cons m
  have hm : 0 < m := Nat.pos_of_mul_pos_right hpos
  have hwhole : ofDigits 10 (digits m ++ List.replicate k 0) = m * tenTo k := by
    rw [ofDigits_append_zeros, ofDigits_digits]
    rfl
  have hlt' : m * tenTo k * 10 < twoTo 53 :=
    (Nat.mul_le_mul_right 10 hlt.le).trans_lt (by decide)
  have hread := value?_point (hwhole ▸ hpos) (hwhole ▸ hlt')
  rw [hwhole] at hread
  refine ⟨⟨false, digits m ++ List.replicate k 0, [0], none⟩, _, ?_, ⟨?_, ?_, ?_, ?_⟩, hread, ?_⟩
  · rw [hsingle, ofSingle?, hshort,
      ofScientific_natural (hds ▸ List.cons_ne_nil d ds) (length_digits_add_le hm hlt)]
  · simp [hds]
  · intro d' ds' heq
    simp only [hds, List.cons_append, List.cons.injEq] at heq
    exact hm.ne' (hzero heq.1)
  · intro d' hd'
    rcases List.mem_append.mp hd' with hd' | hd'
    · exact digits_lt m d' hd'
    · exact (List.eq_of_mem_replicate hd').trans_lt (by decide)
  · simp
  · rw [hsingle]
    exact convert_single hnormal hnear hpos (by omega)

/-- The 32-bit number nearest to a natural number is read as it was written. -/
theorem single_ofSingle {n : Nat} (h : n < twoTo 32) :
    (ofSingle (singleOfNat n)).IsWritten ∧
      Decoder.single (ofSingle (singleOfNat n)) = .ok (singleOfNat n) := by
  rcases Nat.eq_zero_or_pos n with rfl | hn
  · have hzero : ofSingle (singleOfNat 0) = .number ⟨false, [0], [0], none⟩ := rfl
    rw [hzero]
    exact ⟨⟨by decide, by simp, by decide, by decide⟩, by decide +kernel⟩
  · obtain ⟨x, y, hx, husual, hvalue, hy⟩ := Numeral.exists_ofSingle? hn h
    unfold ofSingle
    rw [hx]
    refine ⟨husual, ?_⟩
    unfold Decoder.single
    simp only [hvalue]
    exact congrArg Except.ok hy

end ComputePlane.Json
