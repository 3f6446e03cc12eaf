import Mathlib.Data.List.Basic
import ComputePlane.Text.Charset

/-!
# Encoded texts read back

The first byte of a character says how many bytes follow and in which range the next one is; these
are the ones that were written (`scan_encodeChar`). So the bytes of a text are read as that text,
strictly as well as with replacements (`strict?_encode`, `decode_encode`).
-/

namespace ComputePlane.Text

namespace Utf8

/-! ## Single characters -/

theorem lead?_two : ∀ q < 32, 2 ≤ q → lead? (0xc0 + q) = some ⟨1, 0x80, 0xbf, q⟩ := by decide

/-- After the first of three bytes, longer forms than needed and surrogates are excluded. -/
theorem lead?_three : ∀ q < 16, lead? (0xe0 + q) =
    some ⟨2, if q = 0 then 0xa0 else 0x80, if q = 13 then 0x9f else 0xbf, q⟩ := by decide

/-- After the first of four bytes, longer forms than needed and numbers that are too large are
excluded. -/
theorem lead?_four : ∀ q < 5, lead? (0xf0 + q) =
    some ⟨3, if q = 0 then 0x90 else 0x80, if q = 4 then 0x8f else 0xbf, q⟩ := by decide

theorem goOn_tail {low high n : Nat} (h : low ≤ tail n ∧ tail n ≤ high) (bits more : Nat)
    (bs : List Nat) :
    goOn low high bits (more + 1) (tail n :: bs) =
      goOn 0x80 0xbf (64 * bits + n % 64) more bs := by
  have hbits : tail n % 64 = n % 64 := by unfold tail; omega
  rw [goOn, if_pos h, hbits]

theorem tail_between (n : Nat) : 0x80 ≤ tail n ∧ tail n ≤ 0xbf := by
  unfold tail
  omega

theorem scan_cons {b : Nat} {l : Lead} {bs rest : List Nat} {c : Char} (hlead : lead? b = some l)
    (hgo : goOn l.low l.high l.bits l.more bs = (some c.toNat, rest)) :
    scan (b :: bs) = some c :: scan rest := by
  rw [scan]
  simp only [hlead, hgo, Option.map_some, Char.ofNat_toNat]

/-- The bytes of a character are read as that character. -/
theorem scan_encodeChar (c : Char) (bs : List Nat) :
    scan (encodeChar c ++ bs) = some c :: scan bs := by
  obtain ⟨n, hn⟩ : ∃ n, c.toNat = n := ⟨_, rfl⟩
  have hvalid : n < 0xd800 ∨ 0xdfff < n ∧ n < 0x110000 := hn ▸ c.valid
  simp only [encodeChar, hn]
  split_ifs with h1 h2 h3
  · exact scan_cons (l := ⟨0, 0x80, 0xbf, n⟩) (by rw [lead?, if_pos h1]) (hn ▸ rfl)
  · refine scan_cons (lead?_two (n / 64) (by omega) (by omega)) ?_
    change goOn 0x80 0xbf (n / 64) 1 (tail n :: bs) = _
    rw [hn, goOn_tail (tail_between n), goOn]
    congr 2
    omega
  · have hrange : (if n / 64 / 64 = 0 then 0xa0 else 0x80) ≤ tail (n / 64) ∧
        tail (n / 64) ≤ if n / 64 / 64 = 13 then 0x9f else 0xbf := by
      unfold tail
      split_ifs <;> omega
    refine scan_cons (lead?_three (n / 64 / 64) (by omega)) ?_
    change goOn _ _ (n / 64 / 64) 2 (tail (n / 64) :: tail n :: bs) = _
    rw [hn, goOn_tail hrange, goOn_tail (tail_between n), goOn]
    congr 2
    omega
  · have hrange : (if n / 64 / 64 / 64 = 0 then 0x90 else 0x80) ≤ tail (n / 64 / 64) ∧
        tail (n / 64 / 64) ≤ if n / 64 / 64 / 64 = 4 then 0x8f else 0xbf := by
      unfold tail
      split_ifs <;> omega
    refine scan_cons (lead?_four (n / 64 / 64 / 64) (by omega)) ?_
    change goOn _ _ (n / 64 / 64 / 64) 3 (tail (n / 64 / 64) :: tail (n / 64) :: tail n :: bs) = _
    rw [hn, goOn_tail hrange, goOn_tail (tail_between _), goOn_tail (tail_between n), goOn]
    congr 2
    omega

/-! ## Texts -/

theorem scan_encode (cs : List Char) : scan (encode cs) = cs.map some := by
  induction cs with
  | nil => rw [encode, List.flatMap_nil, scan, List.map_nil]
  | cons c cs ih =>
    rw [encode, List.flatMap_cons, scan_encodeChar, List.map_cons]
    exact congrArg _ ih

theorem strict?_encode (s : String) : strict? (encode s.toList) = some s := by
  have hall : (s.toList.map some).mapM id = some s.toList := by
    rw [List.mapM_map]
    exact List.mapM_pure.trans (congrArg some (List.map_id' _))
  rw [strict?, scan_encode, hall, Option.map_some, String.ofList_toList]

theorem lossy_encode (s : String) : lossy (encode s.toList) = s := by
  have hsome : (fun o : Option Char => o.getD replacement) ∘ some = id := rfl
  rw [lossy, scan_encode, List.map_map, hsome, List.map_id, String.ofList_toList]

/-- The bytes of a text start with those of no other character than its first one. -/
theorem head?_of_encode_eq {c : Char} {rest : List Nat} {cs : List Char}
    (h : encode cs = encodeChar c ++ rest) : cs.head? = some c := by
  have hscan := scan_encode cs
  rw [h, scan_encodeChar] at hscan
  cases cs with
  | nil => cases hscan
  | cons d cs => exact (List.cons.inj hscan).1.symm

end Utf8

namespace Charset

/-- The bytes of a text start like a byte order mark only if it is that of UTF-8. -/
theorem find?_marks_encode {s : String} (h : s.toList.head? ≠ some '\ufeff') :
    marks.find? (·.1.isPrefixOf (Utf8.encode s.toList)) = none := by
  have hscan := Utf8.scan_encode s.toList
  have hfirst (b : Nat) (bs : List Nat) (hb : Utf8.lead? b = none) :
      b :: bs ≠ Utf8.encode s.toList := by
    rintro hbytes
    rw [← hbytes, Utf8.scan, hb] at hscan
    cases hs : s.toList with
    | nil => rw [hs] at hscan; cases hscan
    | cons c cs => rw [hs] at hscan; cases hscan
  refine List.find?_eq_none.mpr fun m hm hmark => ?_
  obtain ⟨rest, hrest⟩ := List.isPrefixOf_iff_prefix.mp hmark
  simp only [marks, List.mem_cons, List.not_mem_nil, or_false] at hm
  rcases hm with rfl | rfl | rfl
  · exact h (Utf8.head?_of_encode_eq (c := '\ufeff') hrest.symm)
  · exact hfirst 0xff _ (by decide) hrest
  · exact hfirst 0xfe _ (by decide) hrest

/-- The bytes of a text without a byte order mark are read as that text. -/
theorem decode_encode {s : String} (h : s.toList.head? ≠ some '\ufeff') :
    utf8.decode (Utf8.encode s.toList) = s := by
  rw [decode, find?_marks_encode h]
  exact Utf8.lossy_encode s

end Charset

end ComputePlane.Text
