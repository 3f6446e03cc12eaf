import Mathlib.Data.List.Chain
import Mathlib.Logic.Function.Iterate
import ComputePlane.Poll

/-!
# The questions of a wait

A wait asks one question after another. Each comes a pause after an answer that was not yes
(`Wait.next_question`), the pauses grow as the wait is lengthened, and only the last question can
end the wait (`Wait.exists_last`). So a wait comes to an end no later than its deadline is noticed,
with a yes exactly if it has had one by then (`waits_until_deadline`).

Nothing overflows if nothing does when every question is answered no at once
(`Wait.run_ne_overflow`): no other answers let more pauses come before the deadline.
-/

namespace ComputePlane

/-! ## Milliseconds -/

theorem ceilMs_le_iff {d t : Nat} : ceilMs d ≤ t ↔ d ≤ t * millisecond := by
  unfold ceilMs millisecond
  split <;> omega

theorem ceilMs_add (t d : Nat) : ceilMs (t * millisecond + d) = t + ceilMs d := by
  unfold ceilMs millisecond
  split <;> split <;> omega

@[simp] theorem PollRun.outcome_startedAt (t : Nat) (r : PollRun) :
    (r.startedAt t).outcome = r.outcome := rfl

@[simp] theorem PollRun.ended_startedAt (t : Nat) (r : PollRun) :
    (r.startedAt t).ended = r.ended := rfl

@[simp] theorem PollRun.starts_startedAt (t : Nat) (r : PollRun) :
    (r.startedAt t).starts = t :: r.starts := rfl

namespace Wait

variable {w w' : Wait} {probes : Nat → Probe} {n now wake i t u : Nat}

/-! ## Pauses -/

theorem wake_eq (w : Wait) (now : Nat) :
    w.wake now = now + ceilMs (min w.period (w.deadline - now * millisecond)) :=
  ceilMs_add ..

theorem lt_wake (h : now * millisecond < w.deadline) : now < w.wake now := by
  have hpos := w.period_pos
  exact lt_ceilMs (by omega)

theorem wake_le_cutoff (h : now * millisecond < w.deadline) : w.wake now ≤ w.cutoff :=
  ceilMs_mono (by omega)

theorem wake_mono (hle : now ≤ t) (h : t * millisecond < w.deadline) : w.wake now ≤ w.wake t := by
  have hms : now * millisecond ≤ t * millisecond := Nat.mul_le_mul_right _ hle
  exact ceilMs_mono (by omega)

theorem le_cutoff (h : now * millisecond < w.deadline) : now ≤ w.cutoff :=
  (lt_wake h).le.trans (wake_le_cutoff h)

theorem next_eq_timedOut : w.next now = .timedOut ↔ w.deadline ≤ now * millisecond := by
  unfold next
  split
  · simp [*]
  · split <;> simp [*]

/-- A wait goes on only before its deadline. -/
theorem next_eq_again :
    w.next now = .again wake w' ↔ now * millisecond < w.deadline ∧
      w.period * 3 < durationLimit ∧ wake = w.wake now ∧ w' = w.lengthen := by
  unfold next
  split
  · next h => simp [h]
  · next h =>
    have hlt : now * millisecond < w.deadline := by omega
    split
    · next hperiod => simp [hlt, hperiod, eq_comm]
    · next hperiod => simp [hperiod]

theorem next_eq_overflow :
    w.next now = .overflow wake ↔ now * millisecond < w.deadline ∧
      durationLimit ≤ w.period * 3 ∧ wake = w.wake now := by
  unfold next
  split
  · next h => simp [h]
  · next h =>
    have hlt : now * millisecond < w.deadline := by omega
    split
    · next hperiod => simp [hperiod]
    · next hperiod => simp [hlt, Nat.le_of_not_lt hperiod, eq_comm]

/-! ## Longer pauses -/

@[simp] theorem deadline_lengthen (w : Wait) : w.lengthen.deadline = w.deadline := rfl

@[simp] theorem maxPeriod_lengthen (w : Wait) : w.lengthen.maxPeriod = w.maxPeriod := rfl

/-- No pause is longer than the longest. -/
def IsCapped (w : Wait) : Prop := w.period ≤ w.maxPeriod

theorem IsCapped.lengthen (w : Wait) : w.lengthen.IsCapped := Nat.min_le_right ..

theorem IsCapped.le_lengthen (h : w.IsCapped) : w.period ≤ w.lengthen.period :=
  le_min (by omega) h

/-- The wait after some of its pauses. -/
def after (w : Wait) (i : Nat) : Wait := lengthen^[i] w

theorem after_succ (w : Wait) (i : Nat) : w.after (i + 1) = (w.after i).lengthen :=
  Function.iterate_succ_apply' ..

@[simp] theorem deadline_after (w : Wait) (i : Nat) : (w.after i).deadline = w.deadline := by
  induction i with
  | zero => rfl
  | succ i ih => rw [after_succ, deadline_lengthen, ih]

@[simp] theorem maxPeriod_after (w : Wait) (i : Nat) : (w.after i).maxPeriod = w.maxPeriod := by
  induction i with
  | zero => rfl
  | succ i ih => rw [after_succ, maxPeriod_lengthen, ih]

theorem IsCapped.after (h : w.IsCapped) (i : Nat) : (w.after i).IsCapped := by
  cases i with
  | zero => exact h
  | succ i =>
    rw [after_succ]
    exact .lengthen _

theorem wake_after_le_cutoff (h : now * millisecond < w.deadline) :
    (w.after i).wake now ≤ w.cutoff := by
  rw [← deadline_after w i] at h
  have hle := wake_le_cutoff h
  rwa [cutoff, deadline_after] at hle

/-! ## Questions one after another -/

/-- An answer that was not yes, from which the wait goes on. -/
theorem run_again (hin : now + (probes n).duration ≤ w.cutoff) (hno : (probes n).answer = false)
    (hnext : w.next (now + (probes n).duration) = .again wake w') :
    w.run probes n now = (w'.run probes (n + 1) wake).startedAt now := by
  rw [run, if_neg (by omega), if_neg (by simp [hno])]
  split <;> simp_all

theorem run_overflow (hin : now + (probes n).duration ≤ w.cutoff)
    (hno : (probes n).answer = false)
    (hnext : w.next (now + (probes n).duration) = .overflow wake) :
    w.run probes n now = ⟨.overflow, wake, [now]⟩ := by
  rw [run, if_neg (by omega), if_neg (by simp [hno])]
  split <;> simp_all

theorem run_timedOut (hin : now + (probes n).duration ≤ w.cutoff)
    (hno : (probes n).answer = false)
    (hnext : w.next (now + (probes n).duration) = .timedOut) :
    w.run probes n now = ⟨.timedOut, now + (probes n).duration, [now]⟩ := by
  rw [run, if_neg (by omega), if_neg (by simp [hno])]
  split <;> simp_all

/-- Every question is answered no at once. -/
def never : Nat → Probe := fun _ => ⟨0, false⟩

theorem run_never_again (hnow : now ≤ w.cutoff) (hnext : w.next now = .again wake w') :
    w.run never n now = (w'.run never (n + 1) wake).startedAt now :=
  run_again hnow rfl hnext

theorem run_never_overflow (hnow : now ≤ w.cutoff) (hnext : w.next now = .overflow wake) :
    w.run never n now = ⟨.overflow, wake, [now]⟩ :=
  run_overflow hnow rfl hnext

theorem run_never_timedOut (hnow : now ≤ w.cutoff) (hnext : w.next now = .timedOut) :
    w.run never n now = ⟨.timedOut, now, [now]⟩ :=
  run_timedOut hnow rfl hnext

theorem head?_starts (w : Wait) (probes : Nat → Probe) (n now : Nat) :
    (w.run probes n now).starts[0]? = some now := by
  fun_cases run w probes n now <;> rfl

/-- A question that follows another one comes a pause after the answer to that one, which was no
and came before the deadline. -/
theorem next_question (ht : (w.run probes n now).starts[i]? = some t)
    (hu : (w.run probes n now).starts[i + 1]? = some u) :
    (probes (n + i)).answer = false ∧
      (t + (probes (n + i)).duration) * millisecond < w.deadline ∧
      u = (w.after i).wake (t + (probes (n + i)).duration) := by
  fun_induction run w probes n now generalizing i with
  | case1 | case2 | case3 | case4 => simp at hu
  | case5 w n now hin hno wake w' hnext ih =>
    obtain ⟨hbefore, -, rfl, rfl⟩ := next_eq_again.mp hnext
    rw [PollRun.starts_startedAt, List.getElem?_cons_succ] at hu
    rw [PollRun.starts_startedAt] at ht
    cases i with
    | zero =>
      rw [List.getElem?_cons_zero, Option.some.injEq] at ht
      rw [head?_starts, Option.some.injEq] at hu
      rw [Nat.add_zero, ← ht]
      exact ⟨by simpa using hno, hbefore, hu.symm⟩
    | succ i =>
      rw [List.getElem?_cons_succ] at ht
      have hstep := ih ht hu
      rw [Nat.add_assoc, Nat.add_comm 1 i] at hstep
      exact hstep

/-- How a wait ends with its last question, asked at the millisecond `t`. -/
inductive Last (cutoff : Nat) (q : Probe) (t : Nat) : PollEnd → Nat → Prop where
  | dropped (h : cutoff < t + q.duration) : Last cutoff q t .timedOut cutoff
  | yes (h : t + q.duration ≤ cutoff) (hanswer : q.answer = true) :
      Last cutoff q t .reached (t + q.duration)
  | no (h : t + q.duration = cutoff) (hanswer : q.answer = false) :
      Last cutoff q t .timedOut cutoff
  | overflow (wake : Nat) : Last cutoff q t .overflow wake

theorem Last.of_reached {cutoff ended : Nat} {q : Probe} (h : Last cutoff q t .reached ended) :
    q.answer = true ∧ t + q.duration ≤ cutoff ∧ ended = t + q.duration := by
  cases h with
  | yes hin hyes => exact ⟨hyes, hin, rfl⟩

theorem Last.of_timedOut {cutoff ended : Nat} {q : Probe} (h : Last cutoff q t .timedOut ended) :
    ended = cutoff ∧ (q.answer = true → cutoff < t + q.duration) := by
  cases h with
  | dropped hlate => exact ⟨rfl, fun _ => hlate⟩
  | no hend hno => exact ⟨rfl, fun hyes => by simp [hno] at hyes⟩

/-- A wait ends with its last question. -/
theorem exists_last (w : Wait) (probes : Nat → Probe) (n now : Nat) :
    ∃ k t, (w.run probes n now).starts.length = k + 1 ∧
      (w.run probes n now).starts[k]? = some t ∧
      Last w.cutoff (probes (n + k)) t (w.run probes n now).outcome
        (w.run probes n now).ended := by
  fun_induction run w probes n now with
  | case1 w n now hlate => exact ⟨0, now, rfl, rfl, .dropped hlate⟩
  | case2 w n now hin hyes => exact ⟨0, now, rfl, rfl, .yes (Nat.le_of_not_lt hin) hyes⟩
  | case3 w n now hin hno hnext =>
    -- the deadline has passed, but what is answered after its millisecond would have been dropped
    have hpast : w.cutoff ≤ now + (probes n).duration :=
      ceilMs_le_iff.mpr (next_eq_timedOut.mp hnext)
    have hend : now + (probes n).duration = w.cutoff := by omega
    refine ⟨0, now, rfl, rfl, ?_⟩
    dsimp only
    rw [hend]
    exact .no hend (by simpa using hno)
  | case4 w n now hin hno wake hnext => exact ⟨0, now, rfl, rfl, .overflow wake⟩
  | case5 w n now hin hno wake w' hnext ih =>
    obtain ⟨k, t, hlength, ht, hlast⟩ := ih
    rw [next_again_cutoff hnext, Nat.add_assoc, Nat.add_comm 1 k] at hlast
    rw [PollRun.starts_startedAt, PollRun.outcome_startedAt, PollRun.ended_startedAt]
    exact ⟨k + 1, t, by rw [List.length_cons, hlength], by rw [List.getElem?_cons_succ, ht], hlast⟩

theorem le_start (ht : (w.run probes n now).starts[i]? = some t) : now + i ≤ t := by
  induction i generalizing t with
  | zero =>
    rw [head?_starts, Option.some.injEq] at ht
    omega
  | succ i ih =>
    obtain ⟨hi, -⟩ := List.getElem?_eq_some_iff.mp ht
    obtain ⟨s, hs⟩ : ∃ s, (w.run probes n now).starts[i]? = some s :=
      ⟨_, List.getElem?_eq_getElem (by omega)⟩
    obtain ⟨-, hbefore, rfl⟩ := next_question hs ht
    have hlt := lt_wake (w := w.after i) (by rwa [deadline_after])
    have hle := ih hs
    omega

theorem start_le (hnow : now ≤ w.cutoff) (ht : (w.run probes n now).starts[i]? = some t) :
    t ≤ w.cutoff := by
  cases i with
  | zero =>
    rw [head?_starts, Option.some.injEq] at ht
    omega
  | succ i =>
    obtain ⟨hi, -⟩ := List.getElem?_eq_some_iff.mp ht
    obtain ⟨-, hbefore, rfl⟩ := next_question (List.getElem?_eq_getElem (by omega)) ht
    exact wake_after_le_cutoff hbefore

theorem increasing_starts (w : Wait) (probes : Nat → Probe) (n now : Nat) :
    (w.run probes n now).starts.Pairwise (· < ·) := by
  refine List.isChain_iff_pairwise.mp (List.isChain_iff_getElem.mpr fun i hi => ?_)
  obtain ⟨-, hbefore, hwake⟩ :=
    next_question (List.getElem?_eq_getElem (by omega)) (List.getElem?_eq_getElem hi)
  have hlt := lt_wake (w := w.after i) (by rwa [deadline_after])
  omega

/-- A question that is asked when the deadline is noticed is the last. -/
theorem length_of_cutoff (ht : (w.run probes n now).starts[i]? = some w.cutoff) :
    (w.run probes n now).starts.length = i + 1 := by
  obtain ⟨hi, -⟩ := List.getElem?_eq_some_iff.mp ht
  by_contra hlength
  have hnext : i + 1 < (w.run probes n now).starts.length := by omega
  obtain ⟨-, hbefore, -⟩ := next_question ht (List.getElem?_eq_getElem hnext)
  have hpast : w.cutoff < w.cutoff :=
    (Nat.le_add_right ..).trans_lt ((lt_wake hbefore).trans_le (wake_le_cutoff hbefore))
  exact absurd hpast (lt_irrefl _)

theorem length_starts_le (hnow : now ≤ w.cutoff) :
    (w.run probes n now).starts.length ≤ w.cutoff - now + 1 := by
  obtain ⟨k, t, hlength, ht, -⟩ := w.exists_last probes n now
  have hle := le_start ht
  have hlimit := start_le hnow ht
  omega

/-! ## Between the questions -/

theorem pause_pos (ht : (w.run probes n now).starts[i]? = some t)
    (hu : (w.run probes n now).starts[i + 1]? = some u) : t + (probes (n + i)).duration < u := by
  obtain ⟨-, hbefore, rfl⟩ := next_question ht hu
  exact lt_wake (by rwa [deadline_after])

/-- A pause lasts as long as the wait has come to, unless the deadline comes before. -/
theorem pause_eq (ht : (w.run probes n now).starts[i]? = some t)
    (hu : (w.run probes n now).starts[i + 1]? = some u) :
    u - (t + (probes (n + i)).duration) = ceilMs (min (w.after i).period
      (w.deadline - (t + (probes (n + i)).duration) * millisecond)) := by
  obtain ⟨-, -, rfl⟩ := next_question ht hu
  rw [wake_eq, deadline_after, Nat.add_sub_cancel_left]

theorem pause_le (hcap : w.IsCapped) (ht : (w.run probes n now).starts[i]? = some t)
    (hu : (w.run probes n now).starts[i + 1]? = some u) :
    u - (t + (probes (n + i)).duration) ≤ ceilMs w.maxPeriod := by
  rw [pause_eq ht hu, ← maxPeriod_after w i]
  exact ceilMs_mono ((Nat.min_le_left ..).trans (hcap.after i))

/-- A pause that the deadline does not cut is no shorter than the one before it. -/
theorem pause_mono {v : Nat} (hcap : w.IsCapped)
    (ht : (w.run probes n now).starts[i]? = some t)
    (hu : (w.run probes n now).starts[i + 1]? = some u)
    (hv : (w.run probes n now).starts[i + 2]? = some v) :
    u - (t + (probes (n + i)).duration) ≤ v - (u + (probes (n + (i + 1))).duration) ∨
      v = w.cutoff := by
  have hgrows : (w.after i).period ≤ (w.after (i + 1)).period := by
    rw [after_succ]
    exact (hcap.after i).le_lengthen
  rcases le_total (w.after (i + 1)).period
    (w.deadline - (u + (probes (n + (i + 1))).duration) * millisecond) with hfull | hcut
  · rw [pause_eq ht hu, pause_eq hu hv, min_eq_left hfull]
    exact .inl (ceilMs_mono ((Nat.min_le_left ..).trans hgrows))
  · obtain ⟨-, hbefore, rfl⟩ := next_question hu hv
    rw [wake, deadline_after, min_eq_right hcut]
    exact .inr (congrArg ceilMs (by omega))

/-! ## The end -/

/-- A wait that does not overflow ends with a yes exactly if it has one in time. -/
theorem reached_iff (hfits : (w.run probes n now).outcome ≠ .overflow) :
    (w.run probes n now).outcome = .reached ↔ ∃ i t, (w.run probes n now).starts[i]? = some t ∧
      (probes (n + i)).answer = true ∧ t + (probes (n + i)).duration ≤ w.cutoff := by
  obtain ⟨k, t, hlength, ht, hlast⟩ := w.exists_last probes n now
  constructor
  · intro hreached
    obtain ⟨hyes, hin, -⟩ := (hreached ▸ hlast).of_reached
    exact ⟨k, t, ht, hyes, hin⟩
  · rintro ⟨i, u, hu, hyes, hin⟩
    obtain ⟨hi, -⟩ := List.getElem?_eq_some_iff.mp hu
    -- before the last question all answers are no
    obtain rfl : i = k := by
      by_contra hne
      obtain ⟨hno, -⟩ := next_question hu (List.getElem?_eq_getElem (by omega))
      rw [hno] at hyes
      cases hyes
    obtain rfl : u = t := Option.some.inj (hu.symm.trans ht)
    cases houtcome : (w.run probes n now).outcome with
    | reached => rfl
    | timedOut =>
      have hlate := (houtcome ▸ hlast).of_timedOut.2 hyes
      omega
    | overflow => exact absurd houtcome hfits

/-! ## Overflows -/

section Overflows

variable {m now₀ : Nat}

/-- If nothing overflows when every question is answered no at once, nothing does after a later
answer. -/
theorem next_ne_overflow (h : (w.run never m now₀).outcome ≠ .overflow) (hle : now₀ ≤ now) :
    w.next now ≠ .overflow wake := by
  intro hnext
  obtain ⟨hbefore, hperiod, -⟩ := next_eq_overflow.mp hnext
  have hms : now₀ * millisecond ≤ now * millisecond := Nat.mul_le_mul_right _ hle
  have hbefore₀ : now₀ * millisecond < w.deadline := by omega
  rw [run_never_overflow (le_cutoff hbefore₀)
    (next_eq_overflow.mpr ⟨hbefore₀, hperiod, rfl⟩)] at h
  exact h rfl

/-- Nor does anything after the pause that follows. -/
theorem ne_overflow_of_again (h : (w.run never m now₀).outcome ≠ .overflow) (hle : now₀ ≤ now)
    (hnext : w.next now = .again wake w') :
    ∃ now₁ ≤ wake, (w'.run never (m + 1) now₁).outcome ≠ .overflow := by
  obtain ⟨hbefore, hperiod, rfl, rfl⟩ := next_eq_again.mp hnext
  have hms : now₀ * millisecond ≤ now * millisecond := Nat.mul_le_mul_right _ hle
  have hbefore₀ : now₀ * millisecond < w.deadline := by omega
  rw [run_never_again (le_cutoff hbefore₀)
    (next_eq_again.mpr ⟨hbefore₀, hperiod, rfl, rfl⟩), PollRun.outcome_startedAt] at h
  exact ⟨_, wake_mono hle hbefore, h⟩

/-- With other answers a wait does not overflow either, for its pauses come later. -/
theorem run_ne_overflow (h : (w.run never m now₀).outcome ≠ .overflow)
    (hle : now₀ ≤ now) : (w.run probes n now).outcome ≠ .overflow := by
  fun_induction run w probes n now generalizing m now₀ with
  | case1 | case2 | case3 => simp
  | case4 w n now hin hno wake hnext =>
    exact absurd hnext (next_ne_overflow h (hle.trans (Nat.le_add_right ..)))
  | case5 w n now hin hno wake w' hnext ih =>
    obtain ⟨now₁, hle₁, h₁⟩ := ne_overflow_of_again h (hle.trans (Nat.le_add_right ..)) hnext
    rw [PollRun.outcome_startedAt]
    exact ih h₁ hle₁

end Overflows

/-! ## Answers at once -/

/-- When a wait asks whose questions are all answered no at once. -/
def schedule (w : Wait) (start : Nat) : List Nat := (w.run never 0 start).starts

theorem mem_schedule (hnow : now ≤ w.cutoff) (ht : t ∈ w.schedule now) :
    now ≤ t ∧ t ≤ w.cutoff := by
  obtain ⟨i, hi⟩ := List.mem_iff_getElem?.mp ht
  exact ⟨(Nat.le_add_right now i).trans (le_start hi), start_le hnow hi⟩

theorem run_never_ne_reached (w : Wait) (n now : Nat) : (w.run never n now).outcome ≠ .reached := by
  fun_induction run w never n now with
  | case1 | case3 | case4 => exact PollEnd.noConfusion
  | case2 w n now hin hyes => cases hyes
  | case5 w n now hin hno wake w' hnext ih => exact ih

/-- If all answers come at once, the same questions are asked whatever the answers are, up to the
first yes. Without a yes the wait ends like one without any. -/
theorem run_of_instant {m : Nat} (hinstant : ∀ k, (probes k).duration = 0)
    (hnow : now ≤ w.cutoff) :
    (w.run probes n now).starts <+: (w.run never m now).starts ∧
      ((∃ k < (w.run never m now).starts.length, (probes (n + k)).answer = true) ∧
          (w.run probes n now).outcome = .reached ∨
        (¬∃ k < (w.run never m now).starts.length, (probes (n + k)).answer = true) ∧
          (w.run probes n now).outcome = (w.run never m now).outcome) := by
  have hnone : ∀ {n}, ¬(probes n).answer = true →
      ¬∃ k < 1, (probes (n + k)).answer = true := by
    rintro n hno ⟨k, hk, hyes⟩
    obtain rfl : k = 0 := by omega
    exact hno hyes
  fun_induction run w probes n now generalizing m with
  | case1 w n now hlate =>
    rw [hinstant] at hlate
    omega
  | case2 w n now hin hyes =>
    obtain ⟨rest, hrest⟩ : ∃ rest, (w.run never m now).starts = now :: rest := by
      have hhead := w.head?_starts never m now
      cases hstarts : (w.run never m now).starts with
      | nil => simp [hstarts] at hhead
      | cons t rest =>
        rw [hstarts] at hhead
        exact ⟨rest, by simpa using hhead⟩
    rw [hrest]
    exact ⟨⟨rest, rfl⟩, .inl ⟨⟨0, Nat.succ_pos _, hyes⟩, rfl⟩⟩
  | case3 w n now hin hno hnext =>
    rw [hinstant, Nat.add_zero] at hnext
    rw [run_never_timedOut hnow hnext]
    exact ⟨List.prefix_rfl, .inr ⟨hnone hno, rfl⟩⟩
  | case4 w n now hin hno wake hnext =>
    rw [hinstant, Nat.add_zero] at hnext
    rw [run_never_overflow hnow hnext]
    exact ⟨List.prefix_rfl, .inr ⟨hnone hno, rfl⟩⟩
  | case5 w n now hin hno wake w' hnext ih =>
    have hlimit : wake ≤ w'.cutoff := next_again_cutoff hnext ▸ next_again_le hnext
    rw [hinstant, Nat.add_zero] at hnext
    obtain ⟨hstarts, hends⟩ := ih (m := m + 1) hlimit
    have hlater : (∃ k < (w'.run never (m + 1) wake).starts.length + 1,
        (probes (n + k)).answer = true) ↔
        ∃ k < (w'.run never (m + 1) wake).starts.length, (probes (n + 1 + k)).answer = true := by
      constructor
      · rintro ⟨k, hk, hyes⟩
        cases k with
        | zero => exact absurd hyes hno
        | succ k => exact ⟨k, Nat.lt_of_succ_lt_succ hk, by rwa [Nat.add_right_comm, Nat.add_assoc]⟩
      · rintro ⟨k, hk, hyes⟩
        exact ⟨k + 1, Nat.succ_lt_succ hk, by rwa [← Nat.add_assoc, Nat.add_right_comm]⟩
    simp only [run_never_again hnow hnext, PollRun.starts_startedAt, PollRun.outcome_startedAt,
      List.length_cons, hlater]
    exact ⟨(List.prefix_cons_inj now).mpr hstarts, hends⟩

end Wait

/-! ## Policies -/

namespace PollPolicy

variable {p : PollPolicy} {start : Nat} {probes : Nat → Probe}

/-- The run of a policy whose first question is asked at the millisecond `start`. -/
def runAt (p : PollPolicy) (start : Nat) (probes : Nat → Probe) : PollRun :=
  (Wait.begin? p start).elim ⟨.overflow, start, []⟩ (·.run probes 0 start)

theorem run_eq_runAt (p : PollPolicy) (probes : Nat → Probe) : p.run probes = p.runAt 0 probes := by
  rw [run, runAt]
  generalize Wait.run = run
  cases Wait.begin? p 0 <;> rfl

/-- No clock and no duration overflows, not even if every question is answered no at once. -/
def Fits (p : PollPolicy) (start : Nat) : Prop := (p.runAt start Wait.never).outcome ≠ .overflow

instance : Decidable (p.Fits start) := inferInstanceAs (Decidable (_ ≠ _))

/-- When a wait asks whose questions are all answered no at once. -/
def schedule (p : PollPolicy) (start : Nat) : List Nat :=
  (Wait.begin p start).schedule start

/-- The millisecond at which the deadline is noticed. -/
def limit (p : PollPolicy) (start : Nat) : Nat := start + ceilMs p.timeout

theorem cutoff_begin (p : PollPolicy) (start : Nat) :
    (Wait.begin p start).cutoff = p.limit start :=
  ceilMs_add ..

theorem isCapped_begin (p : PollPolicy) (start : Nat) : (Wait.begin p start).IsCapped :=
  Nat.min_le_right ..

theorem runAt_of_some {w : Wait} (h : Wait.begin? p start = some w) (probes : Nat → Probe) :
    p.runAt start probes = w.run probes 0 start := by
  rw [runAt, h, Option.elim_some]

/-- A policy that fits has a deadline that a clock can show. -/
theorem Fits.lt_clockLimit (h : p.Fits start) : start * millisecond + p.timeout < clockLimit := by
  by_contra hclock
  have hnone := Wait.begin?_of_not_lt hclock
  rw [Fits, runAt, hnone, Option.elim_none] at h
  exact absurd rfl h

theorem Fits.runAt_eq (h : p.Fits start) (probes : Nat → Probe) :
    p.runAt start probes = (Wait.begin p start).run probes 0 start :=
  runAt_of_some (Wait.begin?_of_lt h.lt_clockLimit) probes

theorem le_cutoff_begin (p : PollPolicy) (start : Nat) : start ≤ (Wait.begin p start).cutoff := by
  rw [cutoff_begin]
  exact Nat.le_add_right ..

/-- A policy fits exactly if nothing overflows, whatever the answers are. -/
theorem fits_iff : p.Fits start ↔ ∀ probes, (p.runAt start probes).outcome ≠ .overflow := by
  refine ⟨fun h probes => ?_, fun h => h Wait.never⟩
  have hnever := h
  rw [Fits, h.runAt_eq] at hnever
  rw [h.runAt_eq]
  exact Wait.run_ne_overflow hnever (Nat.le_refl _)

/-- If all answers come at once, questions are asked at the times of the schedule, up to the first
yes. A wait has success if there is one and a clock can show its deadline; if not, it ends before
its deadline only if its policy does not fit. -/
theorem runAt_of_instant (hinstant : ∀ k, (probes k).duration = 0) :
    (p.runAt start probes).starts <+: p.schedule start ∧
      ((p.runAt start probes).outcome = .reached ↔
        start * millisecond + p.timeout < clockLimit ∧
          ∃ k < (p.schedule start).length, (probes k).answer = true) ∧
      ((p.runAt start probes).outcome = .overflow ↔
        (p.runAt start probes).outcome ≠ .reached ∧ ¬p.Fits start) := by
  by_cases hclock : start * millisecond + p.timeout < clockLimit
  · have hbegin := Wait.begin?_of_lt hclock
    obtain ⟨hstarts, hends⟩ := Wait.run_of_instant (n := 0) (m := 0) hinstant
      (p.le_cutoff_begin start)
    have hnever := (Wait.begin p start).run_never_ne_reached 0 start
    simp only [Nat.zero_add] at hends
    rw [Fits, not_not, runAt_of_some hbegin, runAt_of_some hbegin, schedule, Wait.schedule]
    refine ⟨hstarts, ?_⟩
    rcases hends with ⟨hyes, hend⟩ | ⟨hno, hend⟩ <;> rw [hend]
    · exact ⟨iff_of_true rfl ⟨hclock, hyes⟩, by simp⟩
    · exact ⟨iff_of_false hnever fun h => hno h.2, (and_iff_right hnever).symm⟩
  · have hover : ∀ probes, p.runAt start probes = ⟨.overflow, start, []⟩ := fun probes => by
      have hnone := Wait.begin?_of_not_lt hclock
      rw [runAt, hnone, Option.elim_none]
    rw [Fits, not_not, hover, hover]
    exact ⟨List.nil_prefix, by simp [hclock], by simp⟩

/-- Questions are asked from the start until the deadline is noticed. -/
theorem mem_schedule {t : Nat} (h : t ∈ p.schedule start) : start ≤ t ∧ t ≤ p.limit start :=
  p.cutoff_begin start ▸ Wait.mem_schedule (p.le_cutoff_begin start) h

/-! ## Until the deadline -/

/-- What the run of a policy comes to whose first question is asked at the millisecond `start`. -/
structure WaitsUntilDeadline (p : PollPolicy) (start : Nat) (probes : Nat → Probe) (r : PollRun) :
    Prop where
  /-- It comes to an end. -/
  ends : r.outcome = .reached ∨ r.outcome = .timedOut
  /-- It ends with a yes exactly if a question that it asks is answered so in time. -/
  reached_iff : r.outcome = .reached ↔ ∃ i t, r.starts[i]? = some t ∧
    (probes i).answer = true ∧ t + (probes i).duration ≤ p.limit start
  /-- A yes ends it at once. -/
  ended_reached : r.outcome = .reached → ∃ i t, r.starts.length = i + 1 ∧
    r.starts[i]? = some t ∧ r.ended = t + (probes i).duration
  /-- Without a yes it ends when the deadline is noticed, neither earlier nor later. -/
  ended_timedOut : r.outcome = .timedOut → r.ended = p.limit start
  /-- No two questions are asked in one millisecond. -/
  increasing : r.starts.Pairwise (· < ·)
  /-- Questions are asked from the start until the deadline is noticed. -/
  mem_range : ∀ t ∈ r.starts, start ≤ t ∧ t ≤ p.limit start
  length_le : r.starts.length ≤ ceilMs p.timeout + 1
  /-- Between an answer and the next question there is a pause, never longer than the longest. -/
  pause_le : ∀ i t u, r.starts[i]? = some t → r.starts[i + 1]? = some u →
    t + (probes i).duration < u ∧
      u - (t + (probes i).duration) ≤ ceilMs (max p.maxPeriod millisecond)
  /-- A pause is shorter than the one before it only if it is the last and cut at the deadline. -/
  pause_mono : ∀ i t u v, r.starts[i]? = some t → r.starts[i + 1]? = some u →
    r.starts[i + 2]? = some v →
    u - (t + (probes i).duration) ≤ v - (u + (probes (i + 1)).duration) ∨
      v = p.limit start ∧ r.starts.length = i + 3

/-- A wait comes to an end: at once with the first yes that it has in time, or else in the
millisecond in which its deadline is noticed. -/
theorem waits_until_deadline (hfits : p.Fits start) (probes : Nat → Probe) :
    p.WaitsUntilDeadline start probes (p.runAt start probes) := by
  have hcap := p.isCapped_begin start
  have hcutoff := p.cutoff_begin start
  have hstart := p.le_cutoff_begin start
  have hmax : (Wait.begin p start).maxPeriod = max p.maxPeriod millisecond := rfl
  have hruns := fits_iff.mp hfits probes
  rw [hfits.runAt_eq] at hruns ⊢
  generalize Wait.begin p start = w at *
  have hindex : ∀ i, probes (0 + i) = probes i := fun i => congrArg probes (Nat.zero_add i)
  obtain ⟨k, t, hlength, ht, hlast⟩ := w.exists_last probes 0 start
  rw [hindex, hcutoff] at hlast
  refine ⟨?ends, ?reached, ?yes, ?timedOut, w.increasing_starts probes 0 start, ?range, ?length,
    ?pause, ?mono⟩
  case ends =>
    cases houtcome : (w.run probes 0 start).outcome with
    | reached => exact .inl rfl
    | timedOut => exact .inr rfl
    | overflow => exact absurd houtcome hruns
  case reached => simpa only [hindex, hcutoff] using Wait.reached_iff hruns
  case yes =>
    intro hreached
    obtain ⟨-, -, hended⟩ := (hreached ▸ hlast).of_reached
    exact ⟨k, t, hlength, ht, hended⟩
  case timedOut =>
    intro htimedOut
    exact (htimedOut ▸ hlast).of_timedOut.1
  case range =>
    intro t ht
    obtain ⟨i, hi⟩ := List.mem_iff_getElem?.mp ht
    exact ⟨(Nat.le_add_right ..).trans (Wait.le_start hi), hcutoff ▸ Wait.start_le hstart hi⟩
  case length =>
    have hle : (w.run probes 0 start).starts.length ≤ w.cutoff - start + 1 :=
      Wait.length_starts_le hstart
    rwa [hcutoff, limit, Nat.add_sub_cancel_left] at hle
  case pause =>
    intro i t u ht hu
    have hpos := Wait.pause_pos ht hu
    have hle := Wait.pause_le hcap ht hu
    rw [hindex] at hpos hle
    exact ⟨hpos, hmax ▸ hle⟩
  case mono =>
    intro i t u v ht hu hv
    have hmono := Wait.pause_mono hcap ht hu hv
    rw [hindex, hindex] at hmono
    refine hmono.imp_right fun hv' => ⟨hv'.trans hcutoff, ?_⟩
    rw [hv'] at hv
    exact Wait.length_of_cutoff hv

/-- A wait of seven and a half milliseconds has its yes in the millisecond in which the deadline is
noticed. Its pauses last two and three milliseconds, and the last one is cut to two. -/
theorem waits_until_deadline_cut :
    let p : PollPolicy := ⟨7500000, 2000000, 3500000⟩
    let probes : Nat → Probe := fun i => if i = 3 then ⟨0, true⟩ else ⟨i % 2, false⟩
    p.Fits 0 ∧ p.WaitsUntilDeadline 0 probes (p.runAt 0 probes) ∧
      p.run probes = ⟨.reached, 8, [0, 2, 6, 8]⟩ := by
  intro p probes
  have hfits : p.Fits 0 := by decide +kernel
  exact ⟨hfits, waits_until_deadline hfits probes, by decide +kernel⟩

end PollPolicy

end ComputePlane
