import Mathlib.Data.List.Basic
import ComputePlane.Gateway.Uri
import ComputePlane.Rest.Url

/-!
# Percent signs

What characters stand for does not change when those that cannot stand in a path are escaped
(`percentDecoded_escaped`). It grows shorter whenever characters are left out that start with no
hexadecimal digit (`Shorter.filter`, `Shorter.of_append`): no escape makes up for them.
-/

namespace ComputePlane.Gateway

open Number Text

variable {a b c : Char} {s t r : List Char}

/-! ## Reading -/

/-- Two hexadecimal digits are in front. -/
def TwoDigits : List Char → Prop
  | a :: b :: _ => (hexDigit? a).isSome ∧ (hexDigit? b).isSome
  | _ => False

theorem percentDecoded_escape {x y : Nat} (ha : hexDigit? a = some x) (hb : hexDigit? b = some y)
    (s : List Char) : percentDecoded ('%' :: a :: b :: s) = (16 * x + y) :: percentDecoded s := by
  simp only [percentDecoded, ha, hb]

/-- A character that starts no escape stands for itself. -/
theorem percentDecoded_cons (h : c = '%' → ¬TwoDigits s) :
    percentDecoded (c :: s) = Utf8.encodeChar c ++ percentDecoded s := by
  by_cases hc : c = '%'
  · subst hc
    match s, h rfl with
    | [], _ => rfl
    | [a], _ => rfl
    | a :: b :: s, hdigits =>
      cases ha : hexDigit? a with
      | none => simp only [percentDecoded, ha]
      | some x =>
        cases hb : hexDigit? b with
        | none => simp only [percentDecoded, ha, hb]
        | some y => exact absurd ⟨by simp [ha], by simp [hb]⟩ hdigits
  · rw [percentDecoded]
    rintro a b s' rfl -
    exact hc rfl

theorem percentDecoded_cons_of_ne (hc : c ≠ '%') (s : List Char) :
    percentDecoded (c :: s) = Utf8.encodeChar c ++ percentDecoded s :=
  percentDecoded_cons fun h => absurd h hc

theorem percentDecoded_cons_cases (c : Char) (s : List Char) :
    (∃ a b x y t, c = '%' ∧ s = a :: b :: t ∧ hexDigit? a = some x ∧ hexDigit? b = some y) ∨
      percentDecoded (c :: s) = Utf8.encodeChar c ++ percentDecoded s := by
  by_cases h : c = '%' ∧ TwoDigits s
  · obtain ⟨hc, hdigits⟩ := h
    match s, hdigits with
    | a :: b :: t, hdigits =>
      obtain ⟨x, ha⟩ := Option.isSome_iff_exists.mp hdigits.1
      obtain ⟨y, hb⟩ := Option.isSome_iff_exists.mp hdigits.2
      exact .inl ⟨a, b, x, y, t, hc, rfl, ha, hb⟩
  · exact .inr (percentDecoded_cons fun hc hdigits => h ⟨hc, hdigits⟩)

theorem ne_percent_of_hexDigit? {x : Nat} (h : hexDigit? c = some x) : c ≠ '%' := by
  rintro rfl
  cases h

/-- Characters are read one escape or one character at a time. -/
@[elab_as_elim]
theorem escape_induction {motive : List Char → Prop} (s : List Char) (nil : motive [])
    (escape : ∀ a b x y s, hexDigit? a = some x → hexDigit? b = some y → motive s →
      motive ('%' :: a :: b :: s))
    (cons : ∀ c s, (c = '%' → ¬TwoDigits s) → motive s → motive (c :: s)) : motive s := by
  induction s using percentDecoded.induct with
  | case1 => exact nil
  | case2 a b s x y hb ha ih => exact escape a b x y s ha hb ih
  | case3 a b s h ih =>
    refine cons _ _ (fun _ hdigits => ?_) ih
    obtain ⟨x, hx⟩ := Option.isSome_iff_exists.mp hdigits.1
    obtain ⟨y, hy⟩ := Option.isSome_iff_exists.mp hdigits.2
    exact h x y hx hy
  | case4 c s h ih =>
    refine cons c s (fun hc hdigits => ?_) ih
    match s, hdigits with
    | a :: b :: s, _ => exact h a b s hc rfl

/-- An escape does not reach past a character that is no hexadecimal digit. -/
theorem percentDecoded_append_cons (s : List Char) (hc : hexDigit? c = none) (t : List Char) :
    percentDecoded (s ++ c :: t) = percentDecoded s ++ percentDecoded (c :: t) := by
  induction s using escape_induction with
  | nil => rfl
  | escape a b x y s ha hb ih =>
    rw [List.cons_append, List.cons_append, List.cons_append, percentDecoded_escape ha hb, ih,
      percentDecoded_escape ha hb, List.cons_append]
  | cons d s hd ih =>
    rw [List.cons_append, percentDecoded_cons, ih, percentDecoded_cons hd, List.append_assoc]
    intro hpercent hdigits
    match s with
    | [] =>
      cases t with
      | nil => exact hdigits
      | cons b t => simp [TwoDigits, hc] at hdigits
    | [a] => simp [TwoDigits, hc] at hdigits
    | a :: b :: s => exact hd hpercent hdigits

/-! ## Writing -/

theorem length_encodeChar_pos (c : Char) : 0 < (Utf8.encodeChar c).length := by
  unfold Utf8.encodeChar
  dsimp only
  split_ifs <;> simp

theorem lt_of_mem_encodeChar {n : Nat} (h : n ∈ Utf8.encodeChar c) : n < 256 := by
  have hc : c.toNat < 0x110000 := by
    rcases c.valid with hc | ⟨-, hc⟩
    · exact Nat.lt_trans hc (by decide)
    · exact hc
  unfold Utf8.encodeChar Utf8.tail at h
  dsimp only at h
  split_ifs at h <;> simp only [List.mem_cons, List.not_mem_nil, or_false] at h <;> omega

theorem hexDigit?_digitChar : ∀ n < 16, hexDigit? (Nat.digitChar n).toUpper = some n := by
  decide

/-- A byte that is written with a percent sign is read as it was. -/
theorem percentDecoded_escapedByte {n : Nat} (hn : n < 256) (s : List Char) :
    percentDecoded (Rest.escapedByte n ++ s) = n :: percentDecoded s := by
  have hhigh := hexDigit?_digitChar (n / 16) (by omega)
  have hlow := hexDigit?_digitChar (n % 16) (by omega)
  rw [Rest.escapedByte, List.cons_append, List.cons_append, List.cons_append, List.nil_append,
    percentDecoded_escape hhigh hlow, Nat.div_add_mod]

theorem percentDecoded_escapedBytes {bytes : List Nat} (h : ∀ n ∈ bytes, n < 256) (s : List Char) :
    percentDecoded (bytes.flatMap Rest.escapedByte ++ s) = bytes ++ percentDecoded s := by
  induction bytes with
  | nil => rfl
  | cons n bytes ih =>
    rw [List.flatMap_cons, List.append_assoc, percentDecoded_escapedByte (h n List.mem_cons_self),
      ih fun k hk => h k (List.mem_cons_of_mem _ hk), List.cons_append]

/-- The characters that stand for one in a path. -/
def pathForm (c : Char) : List Char :=
  if Rest.isPathChar c then [c] else (Utf8.encodeChar c).flatMap Rest.escapedByte

theorem toList_escaped_isPathChar (s : List Char) :
    (Rest.escaped Rest.isPathChar s).toList = s.flatMap pathForm := by
  rw [Rest.escaped, String.toList_ofList]
  rfl

theorem isPathChar_of_hexDigit? {x : Nat} (h : hexDigit? c = some x) :
    Rest.isPathChar c = true := by
  have hne : ∀ d, hexDigit? d = none → c ≠ d := by
    rintro d hd rfl
    rw [h] at hd
    cases hd
  have hrange : 0x20 < c.toNat ∧ c.toNat < 0x7f := by
    unfold hexDigit? at h
    simp only [Char.le_def, UInt32.le_iff_toNat_le] at h
    split_ifs at h with h₁ h₂ h₃
    · exact ⟨Nat.lt_of_lt_of_le (by decide) h₁.1, Nat.lt_of_le_of_lt h₁.2 (by decide)⟩
    · exact ⟨Nat.lt_of_lt_of_le (by decide) h₂.1, Nat.lt_of_le_of_lt h₂.2 (by decide)⟩
    · exact ⟨Nat.lt_of_lt_of_le (by decide) h₃.1, Nat.lt_of_le_of_lt h₃.2 (by decide)⟩
  have hmarks : ∀ d ∈ "\"#<>?`\x7b\x7d".toList, hexDigit? d = none := by
    simp [hexDigit?]
  simp only [Rest.isPathChar, Rest.isPlainBut, hrange, decide_true, Bool.true_and,
    Bool.not_eq_eq_eq_not, Bool.not_true, List.contains_eq_mem, decide_eq_false_iff_not]
  exact fun hmem => hne c (hmarks c hmem) rfl

theorem pathForm_of_hexDigit? {x : Nat} (h : hexDigit? c = some x) : pathForm c = [c] :=
  if_pos (isPathChar_of_hexDigit? h)

/-- A character is left alone, or what stands for it starts with a percent sign. -/
theorem pathForm_cases (c : Char) : pathForm c = [c] ∨ ∃ form, pathForm c = '%' :: form := by
  unfold pathForm
  split_ifs with hplain
  · exact .inl rfl
  · cases h : Utf8.encodeChar c with
    | nil => exact absurd (length_encodeChar_pos c) (by simp [h])
    | cons n bytes => exact .inr ⟨_, rfl⟩

/-- No escape comes into being where characters are escaped. -/
theorem twoDigits_of_pathForm (h : TwoDigits (s.flatMap pathForm)) : TwoDigits s := by
  have hpercent : ∀ {form}, ¬TwoDigits ('%' :: form) := by
    intro form hdigits
    cases form with
    | nil => exact hdigits
    | cons b form => exact absurd hdigits.1 (by decide)
  cases s with
  | nil => exact h
  | cons a s =>
    rcases pathForm_cases a with ha | ⟨form, ha⟩
    · cases s with
      | nil => simp [ha, TwoDigits] at h
      | cons b s =>
        rcases pathForm_cases b with hb | ⟨form, hb⟩
        · simpa [ha, hb, TwoDigits] using h
        · have hdigit : (hexDigit? '%').isSome := by
            simpa [ha, hb] using (show TwoDigits (a :: '%' :: _) by simpa [ha, hb] using h).2
          exact absurd hdigit (by decide)
    · rw [List.flatMap_cons, ha] at h
      exact absurd h hpercent

/-- Escaped characters stand for what they stood for before. -/
theorem percentDecoded_escaped (s : String) :
    percentDecoded (Rest.escaped Rest.isPathChar s.toList).toList = percentDecoded s.toList := by
  rw [toList_escaped_isPathChar]
  induction s.toList using escape_induction with
  | nil => rfl
  | escape a b x y s ha hb ih =>
    rw [List.flatMap_cons, List.flatMap_cons, List.flatMap_cons, pathForm_of_hexDigit? ha,
      pathForm_of_hexDigit? hb, percentDecoded_escape ha hb, ← ih]
    exact percentDecoded_escape ha hb _
  | cons c s hc ih =>
    rw [List.flatMap_cons, percentDecoded_cons hc, ← ih]
    by_cases hplain : Rest.isPathChar c
    · rw [pathForm, if_pos hplain]
      exact percentDecoded_cons fun hpercent hdigits => hc hpercent (twoDigits_of_pathForm hdigits)
    · rw [pathForm, if_neg hplain]
      exact percentDecoded_escapedBytes (fun n hn => lt_of_mem_encodeChar hn) _

/-! ## Leaving out -/

/-- Characters stand for less than others, unless they are the same. -/
def Shorter (s t : List Char) : Prop :=
  s = t ∨ (percentDecoded s).length < (percentDecoded t).length

theorem Shorter.refl (s : List Char) : Shorter s s :=
  .inl rfl

theorem Shorter.trans (h : Shorter s t) (h' : Shorter t r) : Shorter s r := by
  rcases h with rfl | h
  · exact h'
  · rcases h' with rfl | h'
    · exact .inr h
    · exact .inr (Nat.lt_trans h h')

theorem Shorter.length_le (h : Shorter s t) :
    (percentDecoded s).length ≤ (percentDecoded t).length := by
  rcases h with rfl | h
  · exact Nat.le_refl _
  · exact Nat.le_of_lt h

theorem Shorter.eq_of_length_le (h : Shorter s t)
    (hle : (percentDecoded t).length ≤ (percentDecoded s).length) : s = t :=
  h.resolve_right (Nat.not_lt.mpr hle)

/-- A character adds to what the others stand for what it stands for itself, or less. -/
theorem length_percentDecoded_cons_le (c : Char) (s : List Char) :
    (percentDecoded (c :: s)).length ≤
      (Utf8.encodeChar c).length + (percentDecoded s).length := by
  rcases percentDecoded_cons_cases c s with ⟨a, b, x, y, t, rfl, rfl, ha, hb⟩ | h
  · rw [percentDecoded_escape ha hb, percentDecoded_cons_of_ne (ne_percent_of_hexDigit? ha),
      percentDecoded_cons_of_ne (ne_percent_of_hexDigit? hb)]
    simp only [List.length_cons, List.length_append]
    have := length_encodeChar_pos a
    omega
  · exact Nat.le_of_eq (by rw [h, List.length_append])

theorem length_percentDecoded_pos (c : Char) (s : List Char) :
    0 < (percentDecoded (c :: s)).length := by
  rcases percentDecoded_cons_cases c s with ⟨a, b, x, y, t, rfl, rfl, ha, hb⟩ | h
  · rw [percentDecoded_escape ha hb]
    exact Nat.succ_pos _
  · rw [h, List.length_append]
    exact Nat.add_pos_left (length_encodeChar_pos c) _

/-- What is left when characters are dropped that are no hexadecimal digits and no percent signs. -/
theorem Shorter.filter {p : Char → Bool} (hpercent : p '%' = true)
    (hdigit : ∀ c x, hexDigit? c = some x → p c = true) (s : List Char) :
    Shorter (s.filter p) s := by
  induction s using escape_induction with
  | nil => exact .refl []
  | escape a b x y s ha hb ih =>
    rw [List.filter_cons_of_pos hpercent, List.filter_cons_of_pos (hdigit a x ha),
      List.filter_cons_of_pos (hdigit b y hb)]
    rcases ih with ih | ih
    · exact .inl (by rw [ih])
    · refine .inr ?_
      rw [percentDecoded_escape ha hb, percentDecoded_escape ha hb]
      exact Nat.succ_lt_succ ih
  | cons c s hc ih =>
    rw [List.filter_cons]
    have hlen : (percentDecoded (c :: s)).length =
        (Utf8.encodeChar c).length + (percentDecoded s).length := by
      rw [percentDecoded_cons hc, List.length_append]
    split_ifs with hkeep
    · rcases ih with ih | ih
      · exact .inl (by rw [ih])
      · have := length_percentDecoded_cons_le c (s.filter p)
        exact .inr (by omega)
    · have := ih.length_le
      have := length_encodeChar_pos c
      exact .inr (by omega)

/-- What is left when the end is dropped from a character on that is no hexadecimal digit. -/
theorem Shorter.of_append (h : ∀ c t', t = c :: t' → hexDigit? c = none) :
    Shorter s (s ++ t) := by
  cases t with
  | nil => exact .inl (List.append_nil s).symm
  | cons c t =>
    refine .inr ?_
    rw [percentDecoded_append_cons s (h c t rfl), List.length_append]
    exact Nat.lt_add_of_pos_right (length_percentDecoded_pos c t)

end ComputePlane.Gateway
