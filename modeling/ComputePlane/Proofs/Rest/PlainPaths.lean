import Mathlib.Algebra.Ring.Nat
import Mathlib.Data.List.Induction
import Mathlib.Data.List.TakeWhile
import ComputePlane.Proofs.Rest.Escapes
import ComputePlane.Proofs.Rest.Paths

/-!
# Paths that are requested as they are written

The text of a path leads to its own segments just when nothing in it is dropped, ends it or is
resolved (`Base.below_of_plain`, `Base.plain_of_decoded`), even if percent signs and what they stand
for count as the same. Nothing that is dropped can be made up for: the number of bytes that the
segments stand for is at most what the text stands for, and grows smaller with it (`weight`).
-/

namespace ComputePlane.Rest

open Text

variable {cs s : List Char}

/-! ## Weights -/

/-- The number of bytes that characters stand for. -/
def decodedLength (cs : List Char) : Nat := (Gateway.percentDecoded cs).length

theorem decodedLength_escape {a b : Char} {x y : Nat} (ha : Number.hexDigit? a = some x)
    (hb : Number.hexDigit? b = some y) (s : List Char) :
    decodedLength ('%' :: a :: b :: s) = decodedLength s + 1 := by
  rw [decodedLength, Gateway.percentDecoded_escape ha hb]
  rfl

theorem decodedLength_cons {c : Char} (h : c = '%' → ¬Gateway.TwoDigits s) :
    decodedLength (c :: s) = (Utf8.encodeChar c).length + decodedLength s := by
  rw [decodedLength, Gateway.percentDecoded_cons h, List.length_append]
  rfl

theorem decodedLength_append_cons {c : Char} (hc : Number.hexDigit? c = none) (s t : List Char) :
    decodedLength (s ++ c :: t) = decodedLength s + decodedLength (c :: t) := by
  rw [decodedLength, Gateway.percentDecoded_append_cons s hc, List.length_append]
  rfl

/-- The number of bytes that segments stand for, with a separator for each. -/
def weight (ps : List (List Char)) : Nat :=
  (ps.map fun p => decodedLength p + 1).sum

@[simp] theorem weight_nil : weight [] = 0 := rfl

@[simp] theorem weight_cons (p : List Char) (ps : List (List Char)) :
    weight (p :: ps) = decodedLength p + 1 + weight ps := rfl

@[simp] theorem weight_append (ps qs : List (List Char)) :
    weight (ps ++ qs) = weight ps + weight qs := by
  simp [weight]

theorem weight_dropLast_le (ps : List (List Char)) : weight ps.dropLast ≤ weight ps := by
  cases ps using List.reverseRecOn with
  | nil => exact Nat.le_refl _
  | append_singleton ps p => simp

/-- The weight of the pieces between slashes is that of the whole. -/
theorem weight_pieces (cs : List Char) : weight (pieces '/' cs) = decodedLength cs + 1 := by
  induction hn : cs.length using Nat.strongRecOn generalizing cs with
  | ind n ih =>
    cases hcut : cutChars '/' cs with
    | none => rw [pieces_of_not_mem (cutChars_eq_none_iff.mp hcut)]; rfl
    | some p =>
      obtain ⟨rfl, hl⟩ := cutChars_eq_some_iff.mp hcut
      have hlen : p.2.length < n := by
        rw [← hn, List.length_append, List.length_cons]
        omega
      have hslash : decodedLength ('/' :: p.2) = 1 + decodedLength p.2 :=
        decodedLength_cons fun h => absurd h (by decide)
      rw [pieces_append_cons, weight_append, ih _ hlen _ rfl, pieces_of_not_mem hl,
        decodedLength_append_cons rfl, hslash, weight_cons, weight_nil]
      omega

/-! ## Resolving -/

/-- Characters that name a segment: they are not dots that say where to go. -/
def IsName (s : List Char) : Prop := dots? s ≠ some 1 ∧ dots? s ≠ some 2

instance : DecidablePred IsName := fun _ => inferInstanceAs (Decidable (_ ∧ _))

/-- Names are added as they are. -/
theorem resolve_of_names (done : List String) {ps : List (List Char)} (h : ∀ p ∈ ps, IsName p) :
    resolve done ps = done ++ ps.map (escaped isPathChar) := by
  fun_induction resolve done ps with
  | case1 => simp
  | case2 done s hs => exact absurd hs (h s (by simp)).1
  | case3 done s hs => exact absurd hs (h s (by simp)).2
  | case4 done s h₁ h₂ => rfl
  | case5 done s rest hrest hs ih => exact absurd hs (h s (by simp)).1
  | case6 done s rest hrest hs ih => exact absurd hs (h s (by simp)).2
  | case7 done s rest hrest h₁ h₂ ih =>
    rw [ih fun p hp => h p (List.mem_cons_of_mem _ hp), List.map_cons, List.append_assoc,
      List.singleton_append]

theorem decodedLength_pos_of_dots {n : Nat} (h : dots? s = some (n + 1)) : 0 < decodedLength s := by
  cases s with
  | nil => cases h
  | cons c s => exact Gateway.length_percentDecoded_pos c s

theorem decodedLength_escaped (s : List Char) :
    decodedLength (escaped isPathChar s).toList = decodedLength s := by
  have h := Gateway.percentDecoded_escaped (String.ofList s)
  rw [String.toList_ofList] at h
  rw [decodedLength, h]
  rfl

theorem weight_escaped (ps : List (List Char)) :
    weight ((ps.map (escaped isPathChar)).map String.toList) = weight ps := by
  induction ps with
  | nil => rfl
  | cons p ps ih =>
    rw [List.map_cons, List.map_cons, weight_cons, weight_cons, ih, decodedLength_escaped]

/-- What is resolved weighs less than what was given, unless all were names. -/
theorem resolve_cases (done : List String) (ps : List (List Char)) :
    (∀ p ∈ ps, IsName p) ∨
      weight ((resolve done ps).map String.toList) <
        weight (done.map String.toList) + weight ps := by
  have hdrop : ∀ done : List String,
      weight (done.dropLast.map String.toList) ≤ weight (done.map String.toList) := by
    intro done
    rw [List.map_dropLast]
    exact weight_dropLast_le _
  have hempty : weight ([""].map String.toList) = 1 := rfl
  -- where dots come before `rest`, both outcomes for `rest` are good enough
  have hle : ∀ {done : List String} {rest : List (List Char)},
      ((∀ p ∈ rest, IsName p) ∨ weight ((resolve done rest).map String.toList) <
        weight (done.map String.toList) + weight rest) →
      weight ((resolve done rest).map String.toList) ≤
        weight (done.map String.toList) + weight rest := by
    rintro done rest (hnames | hlt)
    · exact Nat.le_of_eq
        (by rw [resolve_of_names done hnames, List.map_append, weight_append, weight_escaped])
    · exact Nat.le_of_lt hlt
  fun_induction resolve done ps with
  | case1 => simp
  | case2 done s hs =>
    have := decodedLength_pos_of_dots hs
    rw [List.map_append, weight_append, hempty, weight_cons, weight_nil]
    exact .inr (by omega)
  | case3 done s hs =>
    have := decodedLength_pos_of_dots hs
    have := hdrop done
    rw [List.map_append, weight_append, hempty, weight_cons, weight_nil]
    exact .inr (by omega)
  | case4 done s h₁ h₂ => exact .inl (by simpa using ⟨h₁, h₂⟩)
  | case5 done s rest hrest hs ih =>
    have := hle ih
    rw [weight_cons]
    exact .inr (by omega)
  | case6 done s rest hrest hs ih =>
    have := hle ih
    have := hdrop done
    rw [weight_cons]
    exact .inr (by omega)
  | case7 done s rest hrest h₁ h₂ ih =>
    rw [List.map_append, weight_append, List.map_cons, List.map_nil, weight_cons, weight_nil,
      decodedLength_escaped] at ih
    rw [weight_cons]
    rcases ih with ih | ih
    · exact .inl (List.forall_mem_cons.mpr ⟨⟨h₁, h₂⟩, ih⟩)
    · exact .inr (by omega)

/-! ## Paths that are requested as they are written -/

/-- A character that is not dropped and neither ends nor changes a path. -/
def IsPlainChar (c : Char) : Prop :=
  Url.isBreak c = false ∧ c ≠ '?' ∧ c ≠ '#' ∧ c ≠ '\\'

instance : DecidablePred IsPlainChar := fun _ => inferInstanceAs (Decidable (_ ∧ _))

/-- Nothing of a path is dropped, ends it or is resolved. -/
structure IsPlainPath (cs : List Char) : Prop where
  ending : ∀ c ∈ cs.getLast?, Url.isControl c = false
  plain : ∀ c ∈ cs, IsPlainChar c
  names : ∀ p ∈ pieces '/' cs, IsName p

def decodedSegments (segments : List String) : List (List Nat) :=
  segments.map fun s => Gateway.percentDecoded s.toList

theorem withoutEnd_sublist (cs : List Char) : (withoutEnd cs).Sublist cs := by
  rw [← List.reverse_sublist, withoutEnd, List.reverse_reverse]
  exact (List.dropWhile_suffix _).sublist

theorem kept_sublist (cs : List Char) : (kept cs).Sublist cs :=
  List.filter_sublist.trans (withoutEnd_sublist cs)

theorem withoutEnd_eq_self_iff :
    withoutEnd cs = cs ↔ ∀ c ∈ cs.getLast?, Url.isControl c = false := by
  rw [withoutEnd, List.reverse_eq_iff, List.getLast?_eq_head?_reverse]
  cases cs.reverse with
  | nil => simp
  | cons c l =>
    cases hc : Url.isControl c with
    | false => simp [hc]
    | true =>
      rw [List.dropWhile_cons_of_pos hc, List.head?_cons]
      refine iff_of_false (fun h => ?_) fun h => by simpa [hc] using h c rfl
      have hle := (List.dropWhile_suffix (p := Url.isControl) (l := l)).length_le
      rw [h, List.length_cons] at hle
      omega

theorem kept_eq_self_iff : kept cs = cs ↔
    (∀ c ∈ cs.getLast?, Url.isControl c = false) ∧ ∀ c ∈ cs, Url.isBreak c = false := by
  rw [← withoutEnd_eq_self_iff]
  constructor
  · intro h
    have hend : withoutEnd cs = cs := by
      refine (withoutEnd_sublist cs).eq_of_length_le ?_
      conv_lhs => rw [← h]
      exact List.length_filter_le _ _
    rw [kept, hend, List.filter_eq_self] at h
    exact ⟨hend, fun c hc => by simpa using h c hc⟩
  · rintro ⟨hend, hbreaks⟩
    rw [kept, hend, List.filter_eq_self]
    exact fun c hc => by simp [hbreaks c hc]

/-- The characters of a path that lead to its segments. -/
def pathPart (cs : List Char) : List Char :=
  ((kept cs).takeWhile (· ≠ '#')).takeWhile (· ≠ '?')

theorem Base.segments_below (b : Base) (path : String) :
    (b.below path).segments = resolve b.segments (pieces '/' (slashed (pathPart path.toList))) :=
  rfl

theorem takeWhile_ne_eq_self_iff {d : Char} : cs.takeWhile (· ≠ d) = cs ↔ d ∉ cs := by
  rw [List.takeWhile_eq_self_iff]
  constructor
  · exact fun h hd => by simpa using h d hd
  · intro h c hc
    simpa using fun heq : c = d => h (heq ▸ hc)

theorem pathPart_eq_self_iff : pathPart cs = cs ↔ kept cs = cs ∧ '#' ∉ cs ∧ '?' ∉ cs := by
  constructor
  · intro h
    have hquery : (pathPart cs).Sublist ((kept cs).takeWhile (· ≠ '#')) :=
      (List.takeWhile_prefix _).sublist
    have hfragment : ((kept cs).takeWhile (· ≠ '#')).Sublist (kept cs) :=
      (List.takeWhile_prefix _).sublist
    rw [h] at hquery
    have hkept : kept cs = cs :=
      (kept_sublist cs).eq_of_length_le (hquery.trans hfragment).length_le
    rw [hkept] at hquery
    have hhash : cs.takeWhile (· ≠ '#') = cs :=
      (List.takeWhile_prefix _).sublist.eq_of_length_le hquery.length_le
    rw [pathPart, hkept, hhash] at h
    exact ⟨hkept, takeWhile_ne_eq_self_iff.mp hhash, takeWhile_ne_eq_self_iff.mp h⟩
  · rintro ⟨hkept, hhash, hquery⟩
    rw [pathPart, hkept, takeWhile_ne_eq_self_iff.mpr hhash, takeWhile_ne_eq_self_iff.mpr hquery]

theorem slashed_of_not_mem (h : '\\' ∉ cs) : slashed cs = cs := by
  rw [slashed, List.map_congr_left (g := id), List.map_id]
  intro c hc
  exact if_neg fun heq : c = '\\' => h (heq ▸ hc)

theorem hexDigit?_of_isControl {c : Char} (h : Url.isControl c = true) :
    Number.hexDigit? c = none := by
  cases hx : Number.hexDigit? c with
  | none => rfl
  | some x =>
    have hplain := Gateway.isPathChar_of_hexDigit? hx
    simp only [isPathChar, isPlainBut, Bool.and_eq_true, decide_eq_true_eq] at hplain
    simp only [Url.isControl, decide_eq_true_eq] at h
    omega

theorem isControl_of_isBreak {c : Char} (h : Url.isBreak c = true) : Url.isControl c = true := by
  simp only [Url.isBreak, Bool.or_eq_true, decide_eq_true_eq] at h
  rcases h with (rfl | rfl) | rfl <;> decide

/-- What is dropped at the end starts with no hexadecimal digit. -/
theorem shorter_withoutEnd (cs : List Char) : Gateway.Shorter (withoutEnd cs) cs := by
  have hsplit : withoutEnd cs ++ (cs.reverse.takeWhile Url.isControl).reverse = cs := by
    rw [withoutEnd, ← List.reverse_append, List.takeWhile_append_dropWhile, List.reverse_reverse]
  conv_rhs => rw [← hsplit]
  refine Gateway.Shorter.of_append fun c t heq => ?_
  have hmem : c ∈ cs.reverse.takeWhile Url.isControl := by
    rw [← List.mem_reverse, heq]
    exact List.mem_cons_self
  exact hexDigit?_of_isControl (List.mem_takeWhile_imp hmem)

theorem shorter_kept (cs : List Char) : Gateway.Shorter (kept cs) cs := by
  refine (Gateway.Shorter.filter (by decide) (fun c x hx => ?_) _).trans (shorter_withoutEnd cs)
  cases hbreak : Url.isBreak c with
  | false => rfl
  | true =>
    rw [hexDigit?_of_isControl (isControl_of_isBreak hbreak)] at hx
    cases hx

theorem shorter_takeWhile {d : Char} (hd : Number.hexDigit? d = none) (cs : List Char) :
    Gateway.Shorter (cs.takeWhile (· ≠ d)) cs := by
  conv_rhs => rw [← List.takeWhile_append_dropWhile (p := (decide <| · ≠ d)) (l := cs)]
  refine Gateway.Shorter.of_append fun c t heq => ?_
  have hnot := List.head?_dropWhile_not (decide <| · ≠ d) cs
  rw [heq] at hnot
  have hc : c = d := by simpa using hnot
  rw [hc, hd]

theorem twoDigits_of_slashed (h : Gateway.TwoDigits (slashed cs)) : Gateway.TwoDigits cs := by
  have hkeep : ∀ {c : Char}, (Number.hexDigit? (if c = '\\' then '/' else c)).isSome →
      (Number.hexDigit? c).isSome := by
    intro c hc
    split_ifs at hc
    · exact absurd hc (by decide)
    · exact hc
  match cs, h with
  | a :: b :: cs, h => exact ⟨hkeep h.1, hkeep h.2⟩

/-- A backslash stands for as much as a slash. -/
theorem decodedLength_slashed (cs : List Char) : decodedLength (slashed cs) = decodedLength cs := by
  have hdigit : ∀ {c x}, Number.hexDigit? c = some x → (if c = '\\' then '/' else c) = c := by
    rintro c x hx
    refine if_neg ?_
    rintro rfl
    cases hx
  induction cs using Gateway.escape_induction with
  | nil => rfl
  | escape a b x y cs ha hb ih =>
    have hslashed : slashed ('%' :: a :: b :: cs) = '%' :: a :: b :: slashed cs := by
      simp only [slashed, List.map_cons, hdigit ha, hdigit hb]
      rfl
    rw [hslashed, decodedLength_escape ha hb, decodedLength_escape ha hb, ih]
  | cons c cs hc ih =>
    by_cases hback : c = '\\'
    · subst hback
      have hslashed : slashed ('\\' :: cs) = '/' :: slashed cs := rfl
      rw [hslashed, decodedLength_cons fun h => absurd h (by decide), decodedLength_cons hc, ih]
      rfl
    · have hslashed : slashed (c :: cs) = c :: slashed cs := by
        rw [slashed, List.map_cons, if_neg hback]
        rfl
      have hstart : c = '%' → ¬Gateway.TwoDigits (slashed cs) :=
        fun hpercent hdigits => hc hpercent (twoDigits_of_slashed hdigits)
      rw [hslashed, decodedLength_cons hstart, decodedLength_cons hc, ih]

theorem count_slashed (cs : List Char) :
    (slashed cs).count '/' = cs.count '/' + cs.count '\\' := by
  induction cs with
  | nil => rfl
  | cons c cs ih =>
    have hslashed : slashed (c :: cs) = (if c = '\\' then '/' else c) :: slashed cs := rfl
    rw [hslashed, List.count_cons, List.count_cons, List.count_cons, ih]
    by_cases hback : c = '\\'
    · subst hback
      simp [Nat.add_assoc]
    · simp [hback, Nat.add_right_comm]

theorem weight_congr {l l' : List String} (h : decodedSegments l = decodedSegments l') :
    weight (l.map String.toList) = weight (l'.map String.toList) := by
  have hweight : ∀ l : List String,
      weight (l.map String.toList) =
        ((decodedSegments l).map fun bytes => bytes.length + 1).sum := by
    intro l
    simp [weight, decodedSegments, decodedLength, Function.comp_def]
  rw [hweight, hweight, h]

theorem shorter_pathPart (cs : List Char) : Gateway.Shorter (pathPart cs) cs :=
  ((shorter_takeWhile (by decide) _).trans (shorter_takeWhile (by decide) _)).trans
    (shorter_kept cs)

/-! ## When they are -/

/-- A plain path leads to its own segments and nothing else. -/
theorem Base.below_of_plain (b : Base) {path : String} (h : IsPlainPath path.toList) :
    b.below path =
      ⟨b.origin, b.segments ++ (split '/' path).map (escaped isPathChar ·.toList), none⟩ := by
  have hkept := kept_eq_self_iff.mpr ⟨h.ending, fun c hc => (h.plain c hc).1⟩
  have hhash := takeWhile_ne_eq_self_iff.mpr fun hmem => (h.plain '#' hmem).2.2.1 rfl
  have hquery := takeWhile_ne_eq_self_iff.mpr fun hmem => (h.plain '?' hmem).2.1 rfl
  have hslashed := slashed_of_not_mem fun hmem => (h.plain '\\' hmem).2.2.2 rfl
  unfold Base.below Base.read
  dsimp only
  rw [hkept, hhash, hquery, hslashed, resolve_of_names _ h.names, List.drop_length]
  simp [split, Function.comp_def]

/-- A path that leads to its own segments is plain, even if percent signs and what they stand for
count as the same. -/
theorem Base.plain_of_decoded (b : Base) {path : String}
    (h : decodedSegments (b.below path).segments =
      decodedSegments (b.segments ++ split '/' path)) : IsPlainPath path.toList := by
  rw [b.segments_below] at h
  have hsplit : (split '/' path).map String.toList = pieces '/' path.toList := by
    simp [split, Function.comp_def]
  have hweight := weight_congr h
  rw [List.map_append, weight_append, hsplit, weight_pieces] at hweight
  -- what was left out cannot be made up for, so nothing was
  have hshort := shorter_pathPart path.toList
  have hle : decodedLength (pathPart path.toList) ≤ decodedLength path.toList := hshort.length_le
  have hnames : ∀ p ∈ pieces '/' (slashed (pathPart path.toList)), IsName p :=
    (resolve_cases b.segments _).resolve_right
      (by rw [weight_pieces, decodedLength_slashed]; omega)
  rw [resolve_of_names _ hnames] at h hweight
  rw [List.map_append, weight_append, weight_escaped, weight_pieces, decodedLength_slashed]
    at hweight
  have hsame : pathPart path.toList = path.toList :=
    hshort.eq_of_length_le (show decodedLength _ ≤ decodedLength _ by omega)
  rw [hsame] at h hnames
  obtain ⟨hkept, hhash, hquery⟩ := pathPart_eq_self_iff.mp hsame
  obtain ⟨hending, hbreaks⟩ := kept_eq_self_iff.mp hkept
  -- a backslash would lead to one segment more
  have hback : '\\' ∉ path.toList := by
    have hlength := congrArg List.length h
    simp only [decodedSegments, List.length_map, List.length_append, split, length_pieces,
      count_slashed] at hlength
    rw [← List.count_eq_zero]
    omega
  rw [slashed_of_not_mem hback] at hnames
  refine ⟨hending, fun c hc => ⟨hbreaks c hc, ?_, ?_, ?_⟩, hnames⟩
  · exact fun heq => hquery (heq ▸ hc)
  · exact fun heq => hhash (heq ▸ hc)
  · exact fun heq => hback (heq ▸ hc)

end ComputePlane.Rest
