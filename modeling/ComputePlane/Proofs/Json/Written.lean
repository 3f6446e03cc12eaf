import ComputePlane.Json.Decoder
import ComputePlane.Json.Printer
import ComputePlane.Proofs.Number.Digits

/-!
# Written texts read back

A tree that can be written has numbers in their usual form, strings and names with their characters,
and no faults. Reading its text gives it again, and nothing is left over (`parse_render`).
-/

namespace ComputePlane.Json

open ComputePlane.Number
open ComputePlane.Text.Utf16 (isLead isTrail)

/-! ## Trees that can be written -/

/-- A number in its usual form: it has a digit before the point, and a leading zero stands alone. -/
structure Numeral.IsUsual (x : Numeral) : Prop where
  whole_ne_nil : x.whole ≠ []
  lead : ∀ d ds, x.whole ≠ 0 :: d :: ds
  whole_lt : ∀ d ∈ x.whole, d < 10
  fraction_lt : ∀ d ∈ x.fraction, d < 10

mutual

/-- A tree that a text can hold as it is. -/
def IsWritten : Json → Prop
  | .number x => x.IsUsual
  | .string s => s.isSome = true
  | .array vs => AreItems vs
  | .object ms => AreMembers ms
  | .fault => False
  | _ => True

/-- Items that a text can hold as they are. -/
def AreItems : List Json → Prop
  | [] => True
  | v :: vs => v.IsWritten ∧ AreItems vs

/-- Members that a text can hold as they are. -/
def AreMembers : List (Option String × Json) → Prop
  | [] => True
  | (k, v) :: ms => k.isSome = true ∧ v.IsWritten ∧ AreMembers ms

end

/-- What follows a value in a text: nothing, or what stands between or behind values. -/
def Closes (rest : List Char) : Prop :=
  ∀ c ∈ rest.head?, c = ',' ∨ c = ']' ∨ c = '\x7d'

theorem closes_nil : Closes [] := fun _ h => nomatch h

theorem closes_comma (rest : List Char) : Closes (',' :: rest) := by simp [Closes]

theorem closes_bracket (rest : List Char) : Closes (']' :: rest) := by simp [Closes]

theorem closes_brace (rest : List Char) : Closes ('\x7d' :: rest) := by simp [Closes]

theorem isWritten_record {ms : List (String × Json)} :
    (record ms).IsWritten ↔ ∀ m ∈ ms, m.2.IsWritten := by
  change AreMembers (ms.map fun m => (some m.1, m.2)) ↔ _
  induction ms with
  | nil => simp [AreMembers]
  | cons m ms ih => simp [AreMembers, ih]

mutual

/-- What can be written holds no fault. -/
theorem IsWritten.sound : (v : Json) → v.IsWritten → v.sound = true
  | .null, _ => rfl
  | .bool _, _ => rfl
  | .number _, _ => rfl
  | .string _, _ => rfl
  | .array vs, h => AreItems.sound vs h
  | .object ms, h => AreMembers.sound ms h
  | .fault, h => h.elim

theorem AreItems.sound : (vs : List Json) → AreItems vs → soundItems vs = true
  | [], _ => rfl
  | v :: vs, h => by
    rw [soundItems, IsWritten.sound v h.1, AreItems.sound vs h.2]
    rfl

theorem AreMembers.sound : (ms : List (Option String × Json)) → AreMembers ms →
    soundMembers ms = true
  | [], _ => rfl
  | (_, v) :: ms, h => by
    rw [soundMembers, IsWritten.sound v h.2.1, AreMembers.sound ms h.2.2]
    rfl

end

/-! ## Numbers -/

/-- A character that ends a run of digits. -/
def EndsDigits (rest : List Char) : Prop := ∀ c ∈ rest.head?, digit? c = none

theorem Closes.endsDigits {rest : List Char} (h : Closes rest) : EndsDigits rest := by
  intro c hc
  rcases h c hc with rfl | rfl | rfl <;> rfl

theorem takeDigits_digitChars {ds : List Nat} {rest : List Char} (hds : ∀ d ∈ ds, d < 10)
    (hrest : EndsDigits rest) : takeDigits (digitChars ds ++ rest) = (ds, rest) :=
  takeDigits_append hds hrest

theorem digitChar_ne {d : Nat} (h : d < 10) {c : Char} (hc : digit? c = none) :
    digitChar d ≠ c := by
  rintro rfl
  rw [digit?_digitChar h] at hc
  cases hc

theorem minusSign_digitChars {ds : List Nat} (hne : ds ≠ []) (hds : ∀ d ∈ ds, d < 10)
    (rest : List Char) :
    minusSign (digitChars ds ++ rest) = (false, digitChars ds ++ rest) := by
  obtain ⟨d, ds, rfl⟩ := List.exists_cons_of_ne_nil hne
  have hd : digitChar d ≠ '-' := digitChar_ne (hds d List.mem_cons_self) rfl
  unfold minusSign digitChars
  split
  · next h => exact absurd (List.cons.inj h).1 hd
  · rfl

theorem wholePart?_digitChars {ds : List Nat} {rest : List Char} (hne : ds ≠ [])
    (hlead : ∀ d es, ds ≠ 0 :: d :: es) (hds : ∀ d ∈ ds, d < 10) (hrest : EndsDigits rest) :
    wholePart? (digitChars ds ++ rest) = some (ds, rest) := by
  unfold wholePart?
  rw [takeDigits_digitChars hds hrest]
  split
  · next h => exact absurd (Prod.mk.inj h).1 hne
  · next d es _ h => exact absurd (Prod.mk.inj h).1 (hlead d es)
  · next h =>
    obtain ⟨rfl, rfl⟩ := Prod.mk.inj h
    rfl

/-- The fraction of a number as it is written. -/
def fractionChars (ds : List Nat) : List Char :=
  if ds = [] then [] else '.' :: digitChars ds

theorem fractionPart?_fractionChars {ds : List Nat} {rest : List Char} (hds : ∀ d ∈ ds, d < 10)
    (hrest : EndsDigits rest) (hpoint : ∀ c ∈ rest.head?, c ≠ '.') :
    fractionPart? (fractionChars ds ++ rest) = some (ds, rest) := by
  cases ds with
  | nil =>
    unfold fractionPart? fractionChars
    rw [if_pos rfl, List.nil_append]
    split
    · exact absurd rfl (hpoint '.' rfl)
    · rfl
  | cons d ds =>
    simp only [fractionPart?, fractionChars, reduceCtorEq, if_false, List.cons_append,
      takeDigits_digitChars hds hrest]

theorem exponentDigits?_digitChars (e : Int) {rest : List Char} (hrest : EndsDigits rest) :
    exponentDigits? ((if e < 0 then '-' else '+') :: digitChars (digits e.natAbs) ++ rest) =
      some (some e, rest) := by
  have htake : takeDigits (digitChars (digits e.natAbs) ++ rest) = (digits e.natAbs, rest) :=
    takeDigits_digitChars (digits_lt _) hrest
  have hsign : anySign ((if e < 0 then '-' else '+') :: digitChars (digits e.natAbs) ++ rest) =
      (decide (e < 0), digitChars (digits e.natAbs) ++ rest) := by
    by_cases he : e < 0 <;> simp [he, anySign, minusSign]
  obtain ⟨d, ds, hds, -⟩ := exists_digits_cons e.natAbs
  have hvalue : ofDigits 10 (d :: ds) = e.natAbs := by rw [← hds, ofDigits_digits]
  unfold exponentDigits?
  rw [hsign, htake, hds]
  simp only [hvalue, decide_eq_true_eq]
  congr 3
  omega

theorem exponentPart?_exponentChars (e : Option Int) {rest : List Char} (hrest : Closes rest) :
    exponentPart? ((e.map exponentChars).getD [] ++ rest) = some (e, rest) := by
  cases e with
  | none =>
    unfold exponentPart?
    simp only [Option.map_none, Option.getD_none, List.nil_append]
    split
    · exact absurd (hrest 'e' rfl) (by decide)
    · exact absurd (hrest 'E' rfl) (by decide)
    · rfl
  | some e => exact exponentDigits?_digitChars e hrest.endsDigits

theorem head?_exponentChars {e : Option Int} {rest : List Char} {c : Char}
    (h : c ∈ ((e.map exponentChars).getD [] ++ rest).head?) : c = 'e' ∨ c ∈ rest.head? := by
  cases e with
  | none => exact .inr h
  | some e => exact .inl (Option.mem_some.mp h).symm

theorem head?_fractionChars {ds : List Nat} {rest : List Char} {c : Char}
    (h : c ∈ (fractionChars ds ++ rest).head?) : c = '.' ∨ c ∈ rest.head? := by
  unfold fractionChars at h
  split at h
  · exact .inr h
  · exact .inl (Option.mem_some.mp h).symm

theorem Numeral.chars_eq (x : Numeral) (rest : List Char) :
    x.chars ++ rest = (if x.negative then ['-'] else []) ++ (digitChars x.whole ++
      (fractionChars x.fraction ++ ((x.exponent.map exponentChars).getD [] ++ rest))) := by
  simp only [Numeral.chars, fractionChars, List.append_assoc]

theorem scanNumber_chars {x : Numeral} (hx : x.IsUsual) {rest : List Char} (hrest : Closes rest) :
    scanNumber (x.chars ++ rest) = some (x, rest) := by
  obtain ⟨tail, htail⟩ : ∃ tail, tail = (x.exponent.map exponentChars).getD [] ++ rest := ⟨_, rfl⟩
  have hexponent : exponentPart? tail = some (x.exponent, rest) :=
    htail ▸ exponentPart?_exponentChars x.exponent hrest
  have htail_head : ∀ c ∈ tail.head?, c = 'e' ∨ c ∈ rest.head? :=
    htail ▸ fun c hc => head?_exponentChars hc
  have htail_ends : EndsDigits tail := fun c hc =>
    (htail_head c hc).elim (fun h => h ▸ rfl) (hrest.endsDigits c)
  have hfraction : fractionPart? (fractionChars x.fraction ++ tail) = some (x.fraction, tail) := by
    refine fractionPart?_fractionChars hx.fraction_lt htail_ends fun c hc => ?_
    rcases htail_head c hc with rfl | hc
    · decide
    · rcases hrest c hc with rfl | rfl | rfl <;> decide
  have hwhole : wholePart? (digitChars x.whole ++ (fractionChars x.fraction ++ tail)) =
      some (x.whole, fractionChars x.fraction ++ tail) :=
    wholePart?_digitChars hx.whole_ne_nil hx.lead hx.whole_lt fun c hc =>
      (head?_fractionChars hc).elim (fun h => h ▸ rfl) (htail_ends c)
  have hsign : minusSign (x.chars ++ rest) =
      (x.negative, digitChars x.whole ++ (fractionChars x.fraction ++ tail)) := by
    rw [Numeral.chars_eq, ← htail]
    cases x.negative with
    | false => exact minusSign_digitChars hx.whole_ne_nil hx.whole_lt _
    | true => rfl
  simp only [scanNumber, hsign, hwhole, hfraction, hexponent]

/-! ## Strings -/

theorem unitPiece_controlChars {n : Nat} (h : n < 0x20) (rest : List Char) :
    unitPiece ('0' :: '0' :: Nat.digitChar (n / 16) :: Nat.digitChar (n % 16) :: rest) =
      .item (some (Char.ofNat n)) rest := by
  have hunit : ∀ n < 0x20,
      hexUnit? ['0', '0', Nat.digitChar (n / 16), Nat.digitChar (n % 16)] = some n := by decide
  have htake : hexUnit? ('0' :: '0' :: Nat.digitChar (n / 16) :: Nat.digitChar (n % 16) :: rest) =
      hexUnit? ['0', '0', Nat.digitChar (n / 16), Nat.digitChar (n % 16)] := rfl
  have hlead : isLead n = false := by
    have : ¬0xd800 ≤ n := by omega
    simp [isLead, this]
  have htrail : isTrail n = false := by
    have : ¬0xdc00 ≤ n := by omega
    simp [isTrail, this]
  simp [unitPiece, htake, hunit n h, hlead, htrail]

/-- A character of a string is read as it was written. -/
theorem piece_stringChar (c : Char) (rest : List Char) :
    piece (stringChar c ++ rest) = .item (some c) rest := by
  unfold stringChar
  split
  · rfl
  · rfl
  · rfl
  · rfl
  · rfl
  · rfl
  · rfl
  · next hquote hslash _ _ _ _ _ =>
    split
    · next hcontrol =>
      rw [← Char.ofNat_toNat c]
      simpa [controlChars, piece] using unitPiece_controlChars hcontrol rest
    · next hplain =>
      rw [List.singleton_append]
      unfold piece
      split
      · next h => cases h
      · next h => exact absurd (List.cons.inj h).1 hquote
      · next h => exact absurd (List.cons.inj h).1 hslash
      · next h => exact absurd (List.cons.inj h).1 hslash
      · next h => exact absurd (List.cons.inj h).1 hslash
      · next h =>
        obtain ⟨rfl, rfl⟩ := List.cons.inj h
        rw [if_neg hplain]

theorem scanString_chars (cs rest : List Char) :
    scanString (cs.flatMap stringChar ++ '"' :: rest) = some (some cs, rest) := by
  induction cs with
  | nil =>
    rw [scanString]
    rfl
  | cons c cs ih =>
    have hpiece := piece_stringChar c (cs.flatMap stringChar ++ '"' :: rest)
    rw [List.flatMap_cons, List.append_assoc, scanString]
    split
    · next h => cases hpiece.symm.trans h
    · next h => cases hpiece.symm.trans h
    · next h =>
      cases hpiece.symm.trans h
      rw [ih]
      rfl

/-! ## What reading gives -/

/-- Reading gives a result and leaves the rest. -/
def Reads {α : Type} {cs : List Char} (r : α × Rest cs) (v : α) (rest : List Char) : Prop :=
  r.1 = v ∧ r.2.map Subtype.val = some rest

section reads
variable {α : Type} {cs ds rest : List Char} {v : α}

theorem reads_mk (h : rest.length < cs.length) :
    Reads ((v, some ⟨rest, h⟩) : α × Rest cs) v rest := ⟨rfl, rfl⟩

theorem Reads.eq {r : α × Rest cs} (h : Reads r v rest) : ∃ hl, r = (v, some ⟨rest, hl⟩) := by
  obtain ⟨a, left⟩ := r
  obtain ⟨rfl, hleft⟩ := h
  obtain ⟨⟨left, hl⟩, rfl, rfl⟩ := Option.map_eq_some_iff.mp hleft
  exact ⟨hl, rfl⟩

/-- A result that is wrapped up, seen from further in front. -/
theorem Reads.wrap {β : Type} {r : α × Rest cs} (h : Reads r v rest) (f : α → β)
    (hl : cs.length ≤ ds.length) : Reads (f r.1, r.2.widen hl) (f v) rest := by
  obtain ⟨_, rfl⟩ := h.eq
  exact reads_mk _

end reads

theorem skipSpace_of_not_space {c : Char} (h : isSpace c = false) (cs : List Char) :
    skipSpace (c :: cs) = c :: cs := by
  simp [skipSpace, h]

/-! ## Values -/

section rules
variable {cs rest : List Char}

theorem readString_reads {s : Option (List Char)} (h : scanString cs = some (s, rest)) :
    ∃ hl, readString cs = (s.map String.ofList, true, some ⟨rest, hl⟩) := by
  refine ⟨scanString_shorter cs h, ?_⟩
  unfold readString
  split
  · next h' =>
    cases h.symm.trans h'
    rfl
  · next h' => cases h.symm.trans h'

theorem readValue_string {s : Option (List Char)} (h : scanString cs = some (s, rest)) :
    Reads (readValue ('"' :: cs)) (.string (s.map String.ofList)) rest := by
  obtain ⟨hl, hread⟩ := readString_reads h
  rw [readValue]
  split
  · next h => cases h
  · next h =>
    cases h
    simp only [if_true, hread]
    exact reads_mk _

theorem readValue_array_nil : Reads (readValue ('[' :: ']' :: rest)) (.array []) rest := by
  rw [readValue]
  split
  · next h => cases h
  · next h =>
    cases h
    simp only [Char.reduceEq, if_true, if_false]
    split
    · next h =>
      cases h
      exact reads_mk _
    · next h => exact absurd rfl (h rest)

theorem readValue_array {vs : List Json} (h' : Reads (readItems cs) vs rest)
    (hne : ∀ cs', skipSpace cs ≠ ']' :: cs') : Reads (readValue ('[' :: cs)) (.array vs) rest := by
  rw [readValue]
  split
  · next h => cases h
  · next h =>
    cases h
    simp only [Char.reduceEq, if_true, if_false]
    exact h'.wrap _ _

theorem readValue_object_nil : Reads (readValue ('\x7b' :: '\x7d' :: rest)) (.object []) rest := by
  rw [readValue]
  split
  · next h => cases h
  · next h =>
    cases h
    simp only [Char.reduceEq, if_true, if_false]
    split
    · next h =>
      cases h
      exact reads_mk _
    · next h => exact absurd rfl (h rest)

theorem readValue_object {ms : List (Option String × Json)} (h' : Reads (readMembers cs) ms rest)
    (hne : ∀ cs', skipSpace cs ≠ '\x7d' :: cs') :
    Reads (readValue ('\x7b' :: cs)) (.object ms) rest := by
  rw [readValue]
  split
  · next h => cases h
  · next h =>
    cases h
    simp only [Char.reduceEq, if_true, if_false]
    exact h'.wrap _ _

/-- A character a number starts with. -/
def StartsNumber (c : Char) : Prop := c = '-' ∨ ∃ d < 10, c = digitChar d

theorem StartsNumber.ne {c d : Char} (h : StartsNumber c) (hd : digit? d = none) (hm : '-' ≠ d) :
    c ≠ d := by
  rcases h with rfl | ⟨n, hn, rfl⟩
  · exact hm
  · exact digitChar_ne hn hd

theorem StartsNumber.not_space {c : Char} (h : StartsNumber c) : isSpace c = false := by
  simp [isSpace, h.ne (d := ' ') rfl, h.ne (d := '\n') rfl, h.ne (d := '\t') rfl,
    h.ne (d := '\r') rfl]

theorem readNumber_reads {x : Numeral} (h : scanNumber cs = some (x, rest)) :
    Reads (readNumber cs) (.number x) rest := by
  unfold readNumber
  split
  · next h' =>
    cases h.symm.trans h'
    exact reads_mk _
  · next h' => cases h.symm.trans h'

theorem readValue_number {c : Char} {x : Numeral} (hc : StartsNumber c)
    (h : scanNumber (c :: cs) = some (x, rest)) : Reads (readValue (c :: cs)) (.number x) rest := by
  have hs := skipSpace_of_not_space hc.not_space cs
  rw [readValue]
  split
  · next h => cases hs.symm.trans h
  · next h =>
    cases hs.symm.trans h
    simp only [hc.ne (d := '"') rfl (by decide), hc.ne (d := '[') rfl (by decide),
      hc.ne (d := '\x7b') rfl (by decide), hc.ne (d := 'n') rfl (by decide),
      hc.ne (d := 't') rfl (by decide), hc.ne (d := 'f') rfl (by decide), if_false]
    exact (readNumber_reads ‹_›).wrap id _

theorem readWord_reads (c : Char) (word : List Char) (v : Json) (rest : List Char) :
    Reads (readWord c word v (c :: (word ++ rest))) v rest := by
  have hafter : afterWord c word (c :: (word ++ rest)) = some rest := by
    simp [afterWord]
  unfold readWord
  split
  · next h =>
    cases hafter.symm.trans h
    exact reads_mk _
  · next h => cases hafter.symm.trans h

theorem readValue_null : Reads (readValue ('n' :: 'u' :: 'l' :: 'l' :: rest)) .null rest := by
  rw [readValue]
  split
  · next h => cases h
  · next h =>
    cases h
    simp only [Char.reduceEq, if_true, if_false]
    exact (readWord_reads 'n' ['u', 'l', 'l'] .null rest).wrap id _

theorem readValue_true :
    Reads (readValue ('t' :: 'r' :: 'u' :: 'e' :: rest)) (.bool true) rest := by
  rw [readValue]
  split
  · next h => cases h
  · next h =>
    cases h
    simp only [Char.reduceEq, if_true, if_false]
    exact (readWord_reads 't' ['r', 'u', 'e'] (.bool true) rest).wrap id _

theorem readValue_false :
    Reads (readValue ('f' :: 'a' :: 'l' :: 's' :: 'e' :: rest)) (.bool false) rest := by
  rw [readValue]
  split
  · next h => cases h
  · next h =>
    cases h
    simp only [Char.reduceEq, if_true, if_false]
    exact (readWord_reads 'f' ['a', 'l', 's', 'e'] (.bool false) rest).wrap id _

theorem readItems_one {v : Json} (h : Reads (readValue cs) v (']' :: rest)) :
    Reads (readItems cs) [v] rest := by
  obtain ⟨hl, hread⟩ := h.eq
  rw [readItems, hread]
  simp only
  split
  · next h =>
    cases h
    exact reads_mk _
  · next h => cases h
  · next h _ => exact absurd rfl (h rest)

theorem readItems_more {v : Json} {vs : List Json} {cs' : List Char}
    (h : Reads (readValue cs) v (',' :: cs')) (hs : Reads (readItems cs') vs rest) :
    Reads (readItems cs) (v :: vs) rest := by
  obtain ⟨hl, hread⟩ := h.eq
  rw [readItems, hread]
  simp only
  split
  · next h => cases h
  · next h =>
    cases h
    exact hs.wrap _ _
  · next h => exact absurd rfl (h cs')

theorem readMembers_one {k : Option (List Char)} {v : Json} {cs' : List Char}
    (hk : scanString cs = some (k, ':' :: cs')) (h : Reads (readValue cs') v ('\x7d' :: rest)) :
    Reads (readMembers ('"' :: cs)) [(k.map String.ofList, v)] rest := by
  obtain ⟨_, hkey⟩ := readString_reads hk
  obtain ⟨_, hread⟩ := h.eq
  rw [readMembers]
  split
  · next h =>
    cases h
    rw [hkey]
    simp only
    split
    · next h =>
      cases h
      rw [hread]
      simp only
      split
      · next h =>
        cases h
        exact reads_mk _
      · next h => cases h
      · next h _ => exact absurd rfl (h rest)
    · next h => exact absurd rfl (h cs')
  · next h => exact absurd rfl (h cs)

theorem readMembers_more {k : Option (List Char)} {v : Json} {ms : List (Option String × Json)}
    {cs' cs'' : List Char} (hk : scanString cs = some (k, ':' :: cs'))
    (h : Reads (readValue cs') v (',' :: cs'')) (hs : Reads (readMembers cs'') ms rest) :
    Reads (readMembers ('"' :: cs)) ((k.map String.ofList, v) :: ms) rest := by
  obtain ⟨_, hkey⟩ := readString_reads hk
  obtain ⟨_, hread⟩ := h.eq
  rw [readMembers]
  split
  · next h =>
    cases h
    rw [hkey]
    simp only
    split
    · next h =>
      cases h
      rw [hread]
      simp only
      split
      · next h => cases h
      · next h =>
        cases h
        exact hs.wrap _ _
      · next h => exact absurd rfl (h cs'')
    · next h => exact absurd rfl (h cs')
  · next h => exact absurd rfl (h cs)

end rules

/-! ## Trees -/

theorem exists_chars_number {x : Numeral} (hx : x.IsUsual) :
    ∃ c cs, x.chars = c :: cs ∧ StartsNumber c := by
  obtain ⟨d, ds, hds⟩ := List.exists_cons_of_ne_nil hx.whole_ne_nil
  have hd : d < 10 := hx.whole_lt d (hds ▸ List.mem_cons_self)
  rw [← List.append_nil x.chars, Numeral.chars_eq, hds]
  cases x.negative with
  | false => exact ⟨_, _, rfl, .inr ⟨d, hd, rfl⟩⟩
  | true => exact ⟨_, _, rfl, .inl rfl⟩

/-- The text of a tree does not start with a blank or with the end of an array. -/
theorem exists_chars_cons {v : Json} (hv : v.IsWritten) :
    ∃ c cs, v.chars = c :: cs ∧ isSpace c = false ∧ c ≠ ']' := by
  cases v with
  | null => exact ⟨_, _, rfl, rfl, by decide⟩
  | bool b => cases b <;> exact ⟨_, _, rfl, rfl, by decide⟩
  | number x =>
    obtain ⟨c, cs, hchars, hc⟩ := exists_chars_number hv
    exact ⟨c, cs, hchars, hc.not_space, hc.ne rfl (by decide)⟩
  | string s => exact ⟨_, _, rfl, rfl, by decide⟩
  | array vs => cases vs <;> exact ⟨_, _, rfl, rfl, by decide⟩
  | object ms => rcases ms with _ | ⟨⟨k, v⟩, ms⟩ <;> exact ⟨_, _, rfl, rfl, by decide⟩
  | fault => exact hv.elim

theorem scanString_stringChars (s : String) (rest : List Char) :
    ∃ cs, stringChars s ++ rest = '"' :: cs ∧ scanString cs = some (some s.toList, rest) := by
  refine ⟨s.toList.flatMap stringChar ++ '"' :: rest, ?_, scanString_chars s.toList rest⟩
  simp [stringChars]

mutual

/-- The text of a tree is read as the tree, up to what follows. -/
theorem reads_chars : (v : Json) → v.IsWritten → ∀ {rest}, Closes rest →
    Reads (readValue (v.chars ++ rest)) v rest
  | .null, _, _, _ => readValue_null
  | .bool true, _, _, _ => readValue_true
  | .bool false, _, _, _ => readValue_false
  | .number x, hx, rest, hrest => by
    obtain ⟨c, cs, hchars, hc⟩ := exists_chars_number hx
    have hscan := scanNumber_chars hx hrest
    rw [chars]
    rw [hchars, List.cons_append] at hscan ⊢
    exact readValue_number hc hscan
  | .string none, h, _, _ => nomatch h
  | .string (some s), _, rest, _ => by
    obtain ⟨cs, hchars, hscan⟩ := scanString_stringChars s rest
    rw [chars, Option.getD_some, hchars]
    simpa using readValue_string hscan
  | .array [], _, _, _ => readValue_array_nil
  | .array (v :: vs), h, rest, _ => by
    have hitems := reads_items vs h.2 (reads_chars v h.1) rest
    obtain ⟨c, cs, hchars, hspace, hc⟩ := exists_chars_cons h.1
    have hne : ∀ cs', skipSpace (v.chars ++ (laterItems vs ++ ']' :: rest)) ≠ ']' :: cs' := by
      intro cs'
      rw [hchars, List.cons_append, skipSpace_of_not_space hspace]
      exact fun h => hc (List.cons.inj h).1
    have htext : (array (v :: vs)).chars ++ rest =
        '[' :: (v.chars ++ (laterItems vs ++ ']' :: rest)) := by simp [chars]
    rw [htext]
    exact readValue_array hitems hne
  | .object [], _, _, _ => readValue_object_nil
  | .object ((none, _) :: _), h, _, _ => nomatch h.1
  | .object ((some k, v) :: ms), h, rest, _ => by
    have hmembers := reads_members ms h.2.2 k (reads_chars v h.2.1) rest
    have hne : ∀ cs', skipSpace (stringChars k ++ ':' :: (v.chars ++
        (laterMembers ms ++ '\x7d' :: rest))) ≠ '\x7d' :: cs' := by
      intro cs'
      obtain ⟨cs, hchars, -⟩ := scanString_stringChars k (':' :: (v.chars ++
        (laterMembers ms ++ '\x7d' :: rest)))
      rw [hchars, skipSpace_of_not_space rfl]
      exact fun h => absurd (List.cons.inj h).1 (by decide)
    have htext : (object ((some k, v) :: ms)).chars ++ rest = '\x7b' :: (stringChars k ++
        ':' :: (v.chars ++ (laterMembers ms ++ '\x7d' :: rest))) := by simp [chars]
    rw [htext]
    exact readValue_object hmembers hne
  | .fault, h, _, _ => nomatch h

/-- Behind a first item that is read, the others are. -/
theorem reads_items : (vs : List Json) → AreItems vs → ∀ {cs : List Char} {v : Json},
    (∀ {rest}, Closes rest → Reads (readValue (cs ++ rest)) v rest) → ∀ rest,
    Reads (readItems (cs ++ (laterItems vs ++ ']' :: rest))) (v :: vs) rest
  | [], _, _, _, hv, rest => readItems_one (hv (closes_bracket rest))
  | w :: ws, h, cs, v, hv, rest => by
    have hws := reads_items ws h.2 (reads_chars w h.1) rest
    have htext : laterItems (w :: ws) ++ ']' :: rest =
        ',' :: (w.chars ++ (laterItems ws ++ ']' :: rest)) := by simp [laterItems]
    rw [htext]
    exact readItems_more (hv (closes_comma _)) hws

/-- Behind a first member whose value is read, the others are. -/
theorem reads_members : (ms : List (Option String × Json)) → AreMembers ms →
    ∀ (k : String) {cs : List Char} {v : Json},
    (∀ {rest}, Closes rest → Reads (readValue (cs ++ rest)) v rest) → ∀ rest,
    Reads (readMembers (stringChars k ++ ':' :: (cs ++ (laterMembers ms ++ '\x7d' :: rest))))
      ((some k, v) :: ms) rest
  | [], _, k, cs, v, hv, rest => by
    obtain ⟨ks, hchars, hscan⟩ := scanString_stringChars k (':' :: (cs ++ '\x7d' :: rest))
    have hone := readMembers_one hscan (hv (closes_brace rest))
    rw [Option.map_some, String.ofList_toList] at hone
    rw [laterMembers, List.nil_append, hchars]
    exact hone
  | (none, _) :: _, h, _, _, _, _, _ => nomatch h.1
  | (some l, w) :: ms, h, k, cs, v, hv, rest => by
    have hms := reads_members ms h.2.2 l (reads_chars w h.2.1) rest
    have htext : laterMembers ((some l, w) :: ms) ++ '\x7d' :: rest =
        ',' :: (stringChars l ++ ':' :: (w.chars ++ (laterMembers ms ++ '\x7d' :: rest))) := by
      simp [laterMembers]
    rw [htext]
    obtain ⟨ks, hchars, hscan⟩ := scanString_stringChars k (':' :: (cs ++
      ',' :: (stringChars l ++ ':' :: (w.chars ++ (laterMembers ms ++ '\x7d' :: rest)))))
    have hmore := readMembers_more hscan (hv (closes_comma _)) hms
    rw [Option.map_some, String.ofList_toList] at hmore
    rw [hchars]
    exact hmore

end

/-- The text of a tree that can be written is read as the tree, and it is all of the text. -/
theorem parse_render {v : Json} (hv : v.IsWritten) : parse v.render = ⟨v, true⟩ := by
  have hreads : Reads (readValue v.render.toList) v [] := by
    have := reads_chars v hv closes_nil
    rwa [List.append_nil, ← String.toList_ofList (l := v.chars)] at this
  obtain ⟨_, hread⟩ := hreads.eq
  unfold parse
  rw [hread]
  rfl

/-- The text of a tree holds what the tree does. -/
theorem decode_render {α : Type} {d : Decoder α} {v : Json} {a : α} (hv : v.IsWritten)
    (h : d v = .ok a) : decode d v.render = .ok a := by
  simp [decode, parse_render hv, h, bind, Except.bind, pure, Except.pure]

end ComputePlane.Json
