import Mathlib.Data.List.Perm.Basic
import ComputePlane.Password

/-!
# Which passwords come out

A turn adds one character of a pool (`exists_turn`), so the filling ends after nine turns
(`fill_eq_turns`), and what has been drawn holds a character of each pool. A shuffle changes the
order alone (`shuffle_perm`) and can give every order (`exists_shuffle`). So the passwords that come
out are exactly the well-formed ones (`passwords_wellFormed`).
-/

namespace ComputePlane

/-! ## Streams -/

namespace Draws

/-- The stream with a number in front. -/
def cons (n : Nat) (draws : Draws) : Draws
  | 0 => n
  | i + 1 => draws i

theorem after_zero (draws : Draws) : draws.after 0 = draws :=
  funext fun i => congrArg draws (Nat.zero_add i)

theorem after_after (draws : Draws) (m n : Nat) : (draws.after m).after n = draws.after (m + n) :=
  funext fun i => congrArg draws (Nat.add_assoc m n i).symm

theorem after_succ_cons (n m : Nat) (draws : Draws) :
    (cons n draws).after (m + 1) = draws.after m :=
  funext fun i => congrArg (cons n draws) (show m + 1 + i = m + i + 1 by omega)

end Draws

namespace Password

variable {α : Type} {draws : Draws} {chars cs : List Char} {xs ys : List α} {s : String}

theorem exists_draw {x : α} (h : x ∈ xs) : ∃ draw, choose? xs draw = some x := by
  obtain ⟨i, hi, rfl⟩ := List.getElem_of_mem h
  exact ⟨i, by rw [choose?, Nat.mod_eq_of_lt hi, List.getElem?_eq_getElem hi]⟩

/-! ## Seeds -/

theorem seeds_eq {a b c : Char} (ha : choose? smallLetters (draws 0) = some a)
    (hb : choose? capitals (draws 1) = some b) (hc : choose? numerals (draws 2) = some c) :
    seeds draws = [a, b, c] := by
  simp [seeds, pools, ha, hb, hc]

theorem exists_seeds (draws : Draws) :
    ∃ a ∈ smallLetters, ∃ b ∈ capitals, ∃ c ∈ numerals, seeds draws = [a, b, c] := by
  obtain ⟨a, ha, hchoose⟩ := exists_choose? (ne_nil_of_mem_pools smallLetters (by decide)) (draws 0)
  obtain ⟨b, hb, hchoose'⟩ := exists_choose? (ne_nil_of_mem_pools capitals (by decide)) (draws 1)
  obtain ⟨c, hc, hchoose''⟩ := exists_choose? (ne_nil_of_mem_pools numerals (by decide)) (draws 2)
  exact ⟨a, ha, b, hb, c, hc, seeds_eq hchoose hchoose' hchoose''⟩

/-! ## Turns -/

/-- The characters after `n` turns. -/
def turns : Nat → Draws → List Char → List Char
  | 0, _, chars => chars
  | n + 1, draws, chars => turns n (draws.after 2) (turn draws chars)

/-- The filling ends with the turn that makes the characters enough. -/
theorem fill_eq_turns (draws : Draws) (chars : List Char) :
    fill draws chars = turns (length - chars.length) draws chars := by
  induction hn : length - chars.length generalizing draws chars with
  | zero => rw [fill, if_neg (by omega), turns]
  | succ n ih => rw [fill, if_pos (by omega), ih _ _ (by rw [length_turn]; omega), turns]

/-- Each turn adds a character of a pool. -/
theorem exists_turns (n : Nat) (draws : Draws) (chars : List Char) :
    ∃ cs, turns n draws chars = chars ++ cs ∧ cs.length = n ∧
      ∀ c ∈ cs, ∃ pool ∈ pools, c ∈ pool := by
  induction n generalizing draws chars with
  | zero => exact ⟨[], (List.append_nil _).symm, rfl, fun _ h => absurd h List.not_mem_nil⟩
  | succ n ih =>
    obtain ⟨pool, hpool, c, hc, hturn⟩ := exists_turn draws chars
    obtain ⟨cs, hturns, hlength, hcs⟩ := ih (draws.after 2) (chars ++ [c])
    refine ⟨c :: cs, ?_, congrArg (· + 1) hlength,
      List.forall_mem_cons.mpr ⟨⟨pool, hpool, hc⟩, hcs⟩⟩
    rw [turns, hturn, hturns, List.append_assoc, List.singleton_append]

/-- Turns can add any characters of the pools, whatever is drawn after them. -/
theorem exists_draws_of_turns (after : Draws) (chars : List Char)
    (h : ∀ c ∈ cs, ∃ pool ∈ pools, c ∈ pool) :
    ∃ draws : Draws, turns cs.length draws chars = chars ++ cs ∧
      draws.after (2 * cs.length) = after := by
  induction cs generalizing chars with
  | nil => exact ⟨after, (List.append_nil _).symm, after.after_zero⟩
  | cons c cs ih =>
    obtain ⟨⟨pool, hpool, hc⟩, hcs⟩ := List.forall_mem_cons.mp h
    obtain ⟨i, hi⟩ := exists_draw hpool
    obtain ⟨j, hj⟩ := exists_draw hc
    obtain ⟨draws, hturns, hafter⟩ := ih (chars ++ [c]) hcs
    refine ⟨.cons i (.cons j draws), ?_, ?_⟩
    · have hturn : turn (.cons i (.cons j draws)) chars = chars ++ [c] := by
        change chars ++ ((choose? pools i).bind (choose? · j)).toList = _
        rw [hi, Option.bind_some, hj, Option.toList_some]
      rw [List.length_cons, turns, hturn, Draws.after_succ_cons, Draws.after_succ_cons,
        Draws.after_zero, hturns, List.append_assoc, List.singleton_append]
    · rw [List.length_cons, Nat.mul_succ, Draws.after_succ_cons, Draws.after_succ_cons, hafter]

/-! ## Shuffles -/

theorem shuffle_perm (draws : Draws) (xs : List α) : (shuffle draws xs).Perm xs := by
  induction draws, xs using shuffle.induct with
  | case1 draws => rw [shuffle]
  | case2 draws x xs i hi ih =>
    rw [shuffle]
    exact (ih.cons _).trans (List.getElem_cons_eraseIdx_perm hi)

/-- Every order can be chosen. -/
theorem exists_shuffle (h : ys.Perm xs) : ∃ draws, shuffle draws xs = ys := by
  induction ys generalizing xs with
  | nil =>
    obtain rfl := h.nil_eq
    exact ⟨fun _ => 0, by rw [shuffle]⟩
  | cons y ys ih =>
    obtain ⟨i, hi, rfl⟩ := List.getElem_of_mem (h.subset List.mem_cons_self)
    obtain ⟨draws, hdraws⟩ :=
      ih (h.trans (List.getElem_cons_eraseIdx_perm hi).symm).cons_inv
    cases xs with
    | nil => cases hi
    | cons x xs =>
      refine ⟨.cons i draws, ?_⟩
      have hmod : (Draws.cons i draws) 0 % (xs.length + 1) = i := Nat.mod_eq_of_lt hi
      rw [shuffle]
      simp only [hmod, Draws.after_succ_cons, Draws.after_zero, hdraws]

/-! ## Well-formed texts -/

theorem wellFormed_iff :
    wellFormed s = true ↔ s.length = length ∧ (∀ c ∈ s.toList, ∃ pool ∈ pools, c ∈ pool) ∧
      ∀ pool ∈ pools, ∃ c ∈ s.toList, c ∈ pool := by
  simp only [wellFormed, Bool.and_eq_true, beq_iff_eq, List.all_eq_true, List.any_eq_true,
    List.contains_iff_mem, and_assoc]

/-- What is drawn makes a well-formed text in any order. -/
theorem wellFormed_of_perm (h : s.toList.Perm (drawn draws)) : wellFormed s = true := by
  obtain ⟨a, ha, b, hb, c, hc, hseeds⟩ := exists_seeds draws
  obtain ⟨cs, hturns, hlength, hcs⟩ :=
    exists_turns (length - [a, b, c].length) (draws.after 3) [a, b, c]
  rw [drawn, hseeds, fill_eq_turns, hturns] at h
  have hpools : ∀ pool ∈ pools, ∃ d ∈ [a, b, c], d ∈ pool := by simp [pools, ha, hb, hc]
  have hseed : ∀ d ∈ [a, b, c], ∃ pool ∈ pools, d ∈ pool := by simp [pools, ha, hb, hc]
  refine wellFormed_iff.mpr ⟨?_, fun d hd => ?_, fun pool hpool => ?_⟩
  · rw [← String.length_toList, h.length_eq, List.length_append, hlength]
    rfl
  · exact (List.mem_append.mp (h.subset hd)).elim (hseed d) (hcs d)
  · obtain ⟨d, hd, hmem⟩ := hpools pool hpool
    exact ⟨d, h.symm.subset (List.mem_append_left _ hd), hmem⟩

theorem nodup_pools : (smallLetters ++ (capitals ++ numerals)).Nodup := by decide +kernel

/-- A well-formed text has one character of each pool and nine others. -/
theorem exists_perm_of_wellFormed (h : wellFormed s = true) :
    ∃ a ∈ smallLetters, ∃ b ∈ capitals, ∃ c ∈ numerals, ∃ cs : List Char,
      s.toList.Perm ([a, b, c] ++ cs) ∧ cs.length = length - 3 ∧
        ∀ d ∈ cs, ∃ pool ∈ pools, d ∈ pool := by
  obtain ⟨hlength, hchars, hpools⟩ := wellFormed_iff.mp h
  obtain ⟨a, ha, hsmall⟩ := hpools smallLetters (by decide)
  obtain ⟨b, hb, hcapital⟩ := hpools capitals (by decide)
  obtain ⟨c, hc, hnumeral⟩ := hpools numerals (by decide)
  -- the pools have nothing in common, so these are three different characters
  obtain ⟨-, hothers, hsmalls⟩ := List.nodup_append.mp nodup_pools
  obtain ⟨-, -, hcapitals⟩ := List.nodup_append.mp hothers
  have hab : a ≠ b := hsmalls a hsmall b (List.mem_append_left _ hcapital)
  have hac : a ≠ c := hsmalls a hsmall c (List.mem_append_right _ hnumeral)
  have hbc : b ≠ c := hcapitals b hcapital c hnumeral
  have hb' : b ∈ s.toList.erase a := (List.mem_erase_of_ne hab.symm).mpr hb
  have hc' : c ∈ (s.toList.erase a).erase b :=
    (List.mem_erase_of_ne hbc.symm).mpr ((List.mem_erase_of_ne hac.symm).mpr hc)
  have hperm : s.toList.Perm (a :: b :: c :: ((s.toList.erase a).erase b).erase c) :=
    (List.perm_cons_erase ha).trans
      (((List.perm_cons_erase hb').trans ((List.perm_cons_erase hc').cons b)).cons a)
  refine ⟨a, hsmall, b, hcapital, c, hnumeral, _, hperm, ?_, fun d hd => hchars d ?_⟩
  · have hcount := hperm.length_eq
    rw [String.length_toList, hlength] at hcount
    simp only [List.length_cons] at hcount
    omega
  · exact List.mem_of_mem_erase (List.mem_of_mem_erase (List.mem_of_mem_erase hd))

/-- Every well-formed text comes out of some stream. -/
theorem exists_generate (h : wellFormed s = true) : ∃ draws, generate draws = s := by
  obtain ⟨a, ha, b, hb, c, hc, cs, hperm, hlength, hcs⟩ := exists_perm_of_wellFormed h
  -- the numbers are found from the last to the first: shuffle, turns, seeds
  obtain ⟨last, hshuffle⟩ := exists_shuffle hperm
  obtain ⟨middle, hturns, hafter⟩ := exists_draws_of_turns last [a, b, c] hcs
  obtain ⟨i, hi⟩ := exists_draw ha
  obtain ⟨j, hj⟩ := exists_draw hb
  obtain ⟨k, hk⟩ := exists_draw hc
  let draws : Draws := .cons i (.cons j (.cons k middle))
  have hmiddle : draws.after 3 = middle := by
    rw [Draws.after_succ_cons, Draws.after_succ_cons, Draws.after_succ_cons, Draws.after_zero]
  have hlast : draws.after 21 = last := by
    rw [← hafter, hlength, ← hmiddle, Draws.after_after]
    rfl
  have hdrawn : drawn draws = [a, b, c] ++ cs := by
    rw [drawn, seeds_eq hi hj hk, hmiddle, fill_eq_turns, ← hturns, hlength]
    rfl
  exact ⟨draws, by rw [generate, hlast, hdrawn, hshuffle, String.ofList_toList]⟩

/-! ## Passwords -/

/-- Whatever is drawn, the filling ends after nine turns, and in whatever order the drawn characters
are put, they are a well-formed password: twelve characters of the pools, one of each pool among
them. All these passwords can come out, and no other texts. -/
theorem passwords_wellFormed :
    (∀ draws, drawn draws = turns 9 (draws.after 3) (seeds draws)) ∧
    (∀ draws (s : String), s.toList.Perm (drawn draws) → wellFormed s = true) ∧
    ∀ s, (∃ draws, generate draws = s) ↔ wellFormed s = true := by
  refine ⟨fun draws => ?_, fun draws s h => wellFormed_of_perm h, fun s => ⟨?_, exists_generate⟩⟩
  · obtain ⟨a, _, b, _, c, _, hseeds⟩ := exists_seeds draws
    rw [drawn, fill_eq_turns, hseeds]
    rfl
  · rintro ⟨draws, rfl⟩
    have hperm : (generate draws).toList.Perm (drawn draws) := by
      rw [generate, String.toList_ofList]
      exact shuffle_perm _ _
    exact wellFormed_of_perm hperm

/-- What is drawn starts with one character of each pool, and a shuffle may put it the other way
round. -/
theorem passwords_wellFormed_reversed :
    let draws : Draws := fun i => 5 * i
    let s := "6Uf8Na2Gv4Fa"
    s.toList.Perm (drawn draws) ∧ wellFormed s = true := by
  intro draws s
  obtain ⟨hturns, hwellFormed, -⟩ := passwords_wellFormed
  have hperm : s.toList.Perm (drawn draws) := by
    rw [hturns]
    decide
  exact ⟨hperm, hwellFormed draws s hperm⟩

end Password

end ComputePlane
