import Mathlib.Tactic.NormNum
import ComputePlane.Proofs.Poll.Questions
import ComputePlane.Settings

/-!
# Waits that overflow

A wait overflows if its deadline is beyond the clock, or if a pause before the deadline is too long
to be tripled, which is done to lengthen it by half (`Wait.run_never_overflow_iff`). The pauses grow
no faster than time passes (`Wait.period_after_le`), so the first few of them decide: if a clock can
show its deadline, a policy in whole seconds overflows exactly if one of its first four pauses is
`Wait.TooLong` (`PollPolicy.exists_overflow_iff`). Settings are accepted that overflow
(`Settings.polling_overflows_iff`).
-/

namespace ComputePlane

open Number

theorem durationLimit_eq : durationLimit = 18446744073709551616000000000 := rfl

namespace Wait

variable {w : Wait} {n now i a : Nat}

/-! ## The pauses before an overflow -/

/-- When a wait asks its `i`-th question if those before it are answered no at once. -/
def asked (w : Wait) (now : Nat) : Nat → Nat
  | 0 => now
  | i + 1 => (w.after i).wake (asked w now i)

theorem after_lengthen (w : Wait) (i : Nat) : w.lengthen.after i = w.after (i + 1) :=
  (Function.iterate_succ_apply ..).symm

theorem asked_lengthen (w : Wait) (now i : Nat) :
    w.lengthen.asked (w.wake now) i = w.asked now (i + 1) := by
  induction i with
  | zero => rfl
  | succ i ih => rw [asked, ih, after_lengthen, ← asked]

theorem le_asked (w : Wait) (now i : Nat) : now ≤ w.asked now i := by
  induction i with
  | zero => exact Nat.le_refl now
  | succ i ih =>
    rw [asked, wake_eq]
    omega

/-- Before its deadline a wait comes to a pause that is too long to be tripled. -/
def Overflows (w : Wait) (now : Nat) : Prop :=
  ∃ i, w.asked now i * millisecond < w.deadline ∧ durationLimit ≤ (w.after i).period * 3

/-- The next pause is too long, or one after it. -/
theorem overflows_iff :
    w.Overflows now ↔ now * millisecond < w.deadline ∧
      (durationLimit ≤ w.period * 3 ∨ w.lengthen.Overflows (w.wake now)) := by
  constructor
  · rintro ⟨i, hbefore, hlong⟩
    have hle : now * millisecond ≤ w.asked now i * millisecond :=
      Nat.mul_le_mul_right _ (w.le_asked now i)
    refine ⟨by omega, ?_⟩
    cases i with
    | zero => exact .inl hlong
    | succ i =>
      rw [← asked_lengthen] at hbefore
      rw [← after_lengthen] at hlong
      exact .inr ⟨i, hbefore, hlong⟩
  · rintro ⟨hbefore, hlong | ⟨i, hbefore', hlong⟩⟩
    · exact ⟨0, hbefore, hlong⟩
    · rw [asked_lengthen, deadline_lengthen] at hbefore'
      rw [after_lengthen] at hlong
      exact ⟨i + 1, hbefore', hlong⟩

/-- After its deadline a wait comes to no more pauses. -/
theorem not_overflows_of_past (h : w.deadline ≤ now * millisecond) : ¬w.Overflows now :=
  fun hover => Nat.not_lt_of_le h (overflows_iff.mp hover).1

/-- A wait none of whose questions is answered yes overflows exactly if it comes to a pause that is
too long. -/
theorem run_never_overflow_iff :
    (w.run never n now).outcome = .overflow ↔ w.Overflows now := by
  fun_induction run w never n now with
  | case1 w n now hlate =>
    have hlate : w.cutoff < now := hlate
    have hpast : w.deadline ≤ now * millisecond := Nat.le_of_not_lt fun hbefore =>
      Nat.not_le_of_lt hlate (le_cutoff hbefore)
    exact iff_of_false (by rintro ⟨⟩) (not_overflows_of_past hpast)
  | case2 w n now hin hyes => cases hyes
  | case3 w n now hin hno hnext =>
    exact iff_of_false (by rintro ⟨⟩) (not_overflows_of_past (next_eq_timedOut.mp hnext))
  | case4 w n now hin hno wake hnext =>
    obtain ⟨hbefore, hlong, -⟩ := next_eq_overflow.mp hnext
    exact iff_of_true rfl (overflows_iff.mpr ⟨hbefore, .inl hlong⟩)
  | case5 w n now hin hno wake w' hnext ih =>
    obtain ⟨hbefore, hfits, rfl, rfl⟩ := next_eq_again.mp hnext
    have hbefore : now * millisecond < w.deadline := hbefore
    rw [PollRun.outcome_startedAt, ih, overflows_iff (w := w)]
    simp only [hbefore, Nat.not_le_of_lt hfits, true_and, false_or]
    rfl

/-! ## Growth -/

/-- A pause that ends before the deadline has its full length. -/
theorem period_le_wake (h : w.wake now * millisecond < w.deadline) :
    now * millisecond + w.period ≤ w.wake now * millisecond := by
  have hend := ceilMs_le_iff.mp (Nat.le_refl (w.wake now))
  omega

theorem period_lengthen_le (w : Wait) : 2 * w.lengthen.period ≤ 3 * w.period := by
  have hle : w.lengthen.period ≤ w.period * 3 / 2 := Nat.min_le_left ..
  omega

/-- The pauses grow by at most half of the time that has passed. -/
theorem period_after_le (h : w.asked now i * millisecond < w.deadline) :
    2 * (w.after i).period + now * millisecond ≤ 2 * w.period + w.asked now i * millisecond := by
  induction i with
  | zero => exact Nat.le_refl _
  | succ i ih =>
    rw [asked] at h ⊢
    have hpause := period_le_wake (w := w.after i) (by rwa [deadline_after])
    have hgrown := period_lengthen_le (w.after i)
    rw [← after_succ] at hgrown
    have hbefore := ih (by omega)
    omega

/-- Short pauses do not get too long in the time that is left. -/
theorem not_overflows_of_short
    (h : 6 * w.period + 3 * (w.deadline - now * millisecond) ≤ 2 * durationLimit) :
    ¬w.Overflows now := by
  rintro ⟨i, hbefore, hlong⟩
  have hgrown := period_after_le hbefore
  omega

theorem not_overflows_of_capped (hcap : w.IsCapped) (h : w.maxPeriod * 3 < durationLimit) :
    ¬w.Overflows now := by
  rintro ⟨i, -, hlong⟩
  have hle := hcap.after i
  rw [IsCapped, maxPeriod_after] at hle
  omega

/-- The next pause is of `a` milliseconds, unless the longest pause is shorter; that one would be
too long. -/
structure Pauses (w : Wait) (a : Nat) : Prop where
  cap : durationLimit ≤ w.maxPeriod * 3
  period : w.period = min (a * millisecond) w.maxPeriod

namespace Pauses

theorem too_long_iff (h : w.Pauses a) :
    durationLimit ≤ w.period * 3 ↔ durationLimit ≤ a * millisecond * 3 := by
  have hcap := h.cap
  rw [h.period]
  omega

theorem overflows_iff (h : w.Pauses a) :
    w.Overflows now ↔ now * millisecond < w.deadline ∧
      (durationLimit ≤ a * millisecond * 3 ∨ w.lengthen.Overflows (now + a)) := by
  rw [Wait.overflows_iff, h.too_long_iff]
  refine and_congr_right fun hbefore => or_congr_right' fun hfits => ?_
  have hcap := h.cap
  have hperiod : w.period = a * millisecond := by
    rw [h.period]
    omega
  rcases Nat.lt_or_ge ((now + a) * millisecond) w.deadline with hin | hlate
  · have hfull : w.wake now = now + a := by
      rw [wake_eq, hperiod, Nat.min_eq_left (by rw [Nat.add_mul] at hin; omega)]
      exact congrArg (now + ·) (by simp [ceilMs, millisecond])
    rw [hfull]
  · -- the pause ends at the deadline
    have hcut : w.deadline ≤ w.wake now * millisecond := Nat.le_of_not_lt fun hin => by
      have hle := period_le_wake hin
      rw [hperiod, ← Nat.add_mul] at hle
      omega
    exact iff_of_false (not_overflows_of_past hcut) (not_overflows_of_past hlate)

theorem lengthen (h : w.Pauses (2 * a)) (hfits : ¬durationLimit ≤ 2 * a * millisecond * 3) :
    w.lengthen.Pauses (3 * a) := by
  have hcap := h.cap
  have hperiod : w.period = 2 * a * millisecond := by
    rw [h.period]
    omega
  refine ⟨hcap, ?_⟩
  show min (w.period * 3 / 2) w.maxPeriod = min (3 * a * millisecond) w.maxPeriod
  rw [hperiod]
  congr 1
  unfold millisecond
  omega

/-- The next pause ends after the deadline, or so late that none after it gets too long. -/
theorem not_overflows_lengthen (h : w.Pauses a) (now : Nat)
    (hshort : w.deadline ≤ (now + a) * millisecond ∨
      9 * (a * millisecond) + 3 * (w.deadline - (now + a) * millisecond) ≤ 2 * durationLimit) :
    ¬w.lengthen.Overflows (now + a) := by
  rcases hshort with hlate | hshort
  · exact not_overflows_of_past hlate
  · have hgrown := period_lengthen_le w
    have hle : w.period ≤ a * millisecond := by
      rw [h.period]
      exact Nat.min_le_left ..
    refine not_overflows_of_short ?_
    rw [deadline_lengthen]
    omega

end Pauses

/-- One of the pauses `period * (3 / 2) ^ i` is too long to be tripled, and the ones before it,
which take `2 * ((3 / 2) ^ i - 1) * period` together, end before the `timeout`. All are in
seconds. -/
def TooLong (timeout period : Nat) : Prop :=
  ∃ i < 4, twoTo (64 + i) ≤ 3 ^ (i + 1) * period ∧
    2 * (3 ^ i - 2 ^ i) * period < 2 ^ i * timeout

instance {timeout period : Nat} : Decidable (TooLong timeout period) :=
  inferInstanceAs (Decidable (∃ i < 4, _))

theorem tooLong_iff {timeout period : Nat} :
    TooLong timeout period ↔
      18446744073709551616 ≤ 3 * period ∧ 0 < timeout ∨
      36893488147419103232 ≤ 9 * period ∧ period < timeout ∨
      73786976294838206464 ≤ 27 * period ∧ 5 * period < 2 * timeout ∨
      147573952589676412928 ≤ 81 * period ∧ 19 * period < 4 * timeout := by
  simp only [TooLong, Nat.exists_lt_succ_right, Nat.not_lt_zero, false_and, exists_const, false_or]
  norm_num [twoTo]
  omega

/-- If the first pause lasts whole seconds, one of the first four is too long or none. -/
theorem overflows_iff_of_seconds {period timeout : Nat} (h : w.Pauses (2 * (500 * period)))
    (hdeadline : w.deadline = now * millisecond + timeout * second)
    (htimeout : timeout < twoTo 63) : w.Overflows now ↔ TooLong timeout period := by
  have hlimit := durationLimit_eq
  have htimeout : timeout < 9223372036854775808 := htimeout
  rw [second, millisecond] at hdeadline
  rw [tooLong_iff, h.overflows_iff]
  by_cases h₀ : durationLimit ≤ 2 * (500 * period) * millisecond * 3
  · simp only [h₀, true_or, and_true]
    rw [millisecond] at h₀ ⊢
    omega
  have hsecond := h.lengthen h₀
  rw [show 3 * (500 * period) = 2 * (750 * period) by omega] at hsecond
  simp only [h₀, false_or]
  rw [hsecond.overflows_iff, deadline_lengthen]
  by_cases h₁ : durationLimit ≤ 2 * (750 * period) * millisecond * 3
  · simp only [h₁, true_or, and_true]
    rw [millisecond] at h₀ h₁ ⊢
    omega
  have hthird := hsecond.lengthen h₁
  rw [show 3 * (750 * period) = 2 * (1125 * period) by omega] at hthird
  simp only [h₁, false_or]
  rw [hthird.overflows_iff, deadline_lengthen, deadline_lengthen]
  by_cases h₂ : durationLimit ≤ 2 * (1125 * period) * millisecond * 3
  · simp only [h₂, true_or, and_true]
    rw [millisecond] at h₀ h₁ h₂ ⊢
    omega
  have hfourth := hthird.lengthen h₂
  simp only [h₂, false_or]
  rw [hfourth.overflows_iff, deadline_lengthen, deadline_lengthen, deadline_lengthen]
  by_cases h₃ : durationLimit ≤ 3 * (1125 * period) * millisecond * 3
  · simp only [h₃, true_or, and_true]
    rw [millisecond] at h₀ h₁ h₂ h₃ ⊢
    omega
  -- a fifth pause that is too long starts after every deadline
  have hrest := hfourth.not_overflows_lengthen
    (now + 2 * (500 * period) + 2 * (750 * period) + 2 * (1125 * period)) (by
      simp only [deadline_lengthen]
      rw [millisecond] at h₃ ⊢
      rcases Nat.le_total (8 * timeout) (65 * period) with hlate | hin <;> omega)
  simp only [h₃, hrest, or_false, and_false, false_iff]
  rw [millisecond] at h₀ h₁ h₂ h₃
  omega

theorem too_long_ofSeconds_iff {maxPeriod : Nat} :
    durationLimit ≤ max (maxPeriod * second) millisecond * 3 ↔ twoTo 64 ≤ 3 * maxPeriod := by
  rw [durationLimit, second, millisecond]
  omega

theorem Pauses.ofSeconds {period : Nat} (hpos : 0 < period)
    (hcap : durationLimit ≤ w.maxPeriod * 3)
    (hperiod : w.period = min (max (period * second) millisecond) w.maxPeriod) :
    w.Pauses (2 * (500 * period)) := by
  refine ⟨hcap, hperiod.trans (congrArg (min · _) ?_)⟩
  rw [second, millisecond]
  omega

/-- A first pause of no seconds is of a millisecond, and none gets too long. -/
theorem not_overflows_of_zero {timeout : Nat}
    (hdeadline : w.deadline = now * millisecond + timeout * second)
    (hperiod : w.period ≤ millisecond) (htimeout : timeout < twoTo 63) : ¬w.Overflows now := by
  refine not_overflows_of_short ?_
  rw [hdeadline, Nat.add_sub_cancel_left, durationLimit_eq, second]
  rw [millisecond] at hperiod
  have htimeout : timeout < 9223372036854775808 := htimeout
  clear hdeadline
  omega

/-- The wait of a policy in whole seconds overflows only if its longest pause can be too long. -/
theorem overflows_iff_tooLong {timeout period maxPeriod : Nat}
    (hdeadline : w.deadline = now * millisecond + timeout * second)
    (hperiod : w.period = min (max (period * second) millisecond) w.maxPeriod)
    (hmax : w.maxPeriod = max (maxPeriod * second) millisecond) (htimeout : timeout < twoTo 63) :
    w.Overflows now ↔ twoTo 64 ≤ 3 * maxPeriod ∧ TooLong timeout period := by
  have hlong : durationLimit ≤ w.maxPeriod * 3 ↔ twoTo 64 ≤ 3 * maxPeriod := by
    rw [hmax, too_long_ofSeconds_iff]
  rw [← hlong]
  by_cases hcap : durationLimit ≤ w.maxPeriod * 3
  · rw [and_iff_right hcap]
    rcases Nat.eq_zero_or_pos period with rfl | hpos
    · have hle : w.period ≤ millisecond := by
        rw [hperiod, Nat.zero_mul, Nat.zero_max]
        exact Nat.min_le_left ..
      refine iff_of_false (not_overflows_of_zero hdeadline hle htimeout) ?_
      rw [tooLong_iff]
      simp
    · exact overflows_iff_of_seconds (.ofSeconds hpos hcap hperiod) hdeadline htimeout
  · have hcapped : w.IsCapped := by
      rw [IsCapped, hperiod]
      exact Nat.min_le_right ..
    exact iff_of_false (not_overflows_of_capped hcapped (Nat.lt_of_not_le hcap)) fun h => hcap h.1

end Wait

/-! ## Policies -/

namespace PollPolicy

variable {timeout period maxPeriod start : Nat}

theorem never_overflow_iff (p : PollPolicy) :
    (p.runAt start Wait.never).outcome = .overflow ↔
      clockLimit ≤ start * millisecond + p.timeout ∨ (Wait.begin p start).Overflows start := by
  rcases Nat.lt_or_ge (start * millisecond + p.timeout) clockLimit with hclock | hclock
  · rw [runAt_of_some (Wait.begin?_of_lt hclock), Wait.run_never_overflow_iff,
      or_iff_right (Nat.not_le_of_lt hclock)]
  · rw [runAt, Wait.begin?_of_not_lt (Nat.not_lt_of_le hclock)]
    exact iff_of_true rfl (.inl hclock)

theorem exists_overflow_iff_never (p : PollPolicy) :
    (∃ probes, (p.runAt start probes).outcome = .overflow) ↔
      (p.runAt start Wait.never).outcome = .overflow := by
  rw [← not_iff_not, not_exists]
  exact fits_iff.symm

/-- A policy in whole seconds overflows for some answers exactly if its deadline is beyond the clock
or one of its first four pauses is too long to be tripled. -/
theorem exists_overflow_iff :
    (∃ probes, ((ofSeconds timeout period maxPeriod).runAt start probes).outcome = .overflow) ↔
      clockLimit ≤ start * millisecond + timeout * second ∨
        twoTo 64 ≤ 3 * maxPeriod ∧ Wait.TooLong timeout period := by
  rw [exists_overflow_iff_never, never_overflow_iff]
  refine or_congr_right' fun hclock => Wait.overflows_iff_tooLong rfl rfl rfl ?_
  replace hclock : ¬clockLimit ≤ start * millisecond + timeout * second := hclock
  rw [clockLimit, second] at hclock
  omega

end PollPolicy

/-! ## Settings -/

/-- Steps that succeed one after another each succeed. -/
theorem exists_of_bind_eq_ok {ε α β : Type} {x : Except ε α} {f : α → Except ε β} {b : β}
    (h : x >>= f = .ok b) : ∃ a, x = .ok a ∧ f a = .ok b := by
  cases x with
  | error => cases h
  | ok a => exact ⟨a, rfl, h⟩

/-- A policy that is accepted, and the numbers that it is made of. -/
theorem Lookup.of_poll {look : Lookup} {p : PollPolicy} (h : look.poll = .ok p) :
    ∃ timeout period maxPeriod,
      look.number word64? "PROFITBRICKS_POLL_TIMEOUT_SECS" 900 = .ok timeout ∧
      look.number word64? "PROFITBRICKS_POLL_PERIOD_SECS" 2 = .ok period ∧
      look.number word64? "PROFITBRICKS_POLL_MAX_PERIOD_SECS" 5 = .ok maxPeriod ∧
      period ≤ maxPeriod ∧ p = .ofSeconds timeout period maxPeriod := by
  obtain ⟨timeout, htimeout, h⟩ := exists_of_bind_eq_ok h
  obtain ⟨period, hperiod, h⟩ := exists_of_bind_eq_ok h
  obtain ⟨maxPeriod, hmax, h⟩ := exists_of_bind_eq_ok h
  split at h
  · cases h
  · next hle =>
    cases h
    exact ⟨timeout, period, maxPeriod, htimeout, hperiod, hmax, Nat.le_of_not_lt hle, rfl⟩

theorem Settings.poll_of_ofLookup {look : Lookup} {settings : Settings}
    (h : ofLookup look = .ok settings) : look.poll = .ok settings.adapter.poll := by
  obtain ⟨poll, hpoll, h⟩ := exists_of_bind_eq_ok h
  obtain ⟨volumeType, -, h⟩ := exists_of_bind_eq_ok h
  obtain ⟨userThreads, -, h⟩ := exists_of_bind_eq_ok h
  obtain ⟨username, -, h⟩ := exists_of_bind_eq_ok h
  obtain ⟨password, -, h⟩ := exists_of_bind_eq_ok h
  obtain ⟨lan, -, h⟩ := exists_of_bind_eq_ok h
  obtain ⟨pre, -, h⟩ := exists_of_bind_eq_ok h
  obtain ⟨post, -, h⟩ := exists_of_bind_eq_ok h
  cases h
  exact hpoll

/-- Settings that are accepted overflow, at some time and for some answers, exactly if the deadline
is beyond the clock or one of the first four pauses is too long to be tripled. -/
theorem Settings.polling_overflows_iff {look : Lookup} {settings : Settings}
    (h : ofLookup look = .ok settings) :
    ∃ timeout period maxPeriod,
      look.number word64? "PROFITBRICKS_POLL_TIMEOUT_SECS" 900 = .ok timeout ∧
      look.number word64? "PROFITBRICKS_POLL_PERIOD_SECS" 2 = .ok period ∧
      look.number word64? "PROFITBRICKS_POLL_MAX_PERIOD_SECS" 5 = .ok maxPeriod ∧
      period ≤ maxPeriod ∧
      ∀ start, (∃ probes, (settings.adapter.poll.runAt start probes).outcome = .overflow) ↔
        clockLimit ≤ start * millisecond + timeout * second ∨
          twoTo 64 ≤ 3 * maxPeriod ∧ Wait.TooLong timeout period := by
  obtain ⟨timeout, period, maxPeriod, htimeout, hperiod, hmax, hle, hp⟩ :=
    Lookup.of_poll (poll_of_ofLookup h)
  refine ⟨timeout, period, maxPeriod, htimeout, hperiod, hmax, hle, fun start => ?_⟩
  rw [hp]
  exact PollPolicy.exists_overflow_iff

/-- The settings of a list, by name. -/
def Lookup.ofList (entries : List (String × String)) : Lookup := fun key => entries.lookup key

/-- With pauses of 2 ^ 63 seconds a wait of one second overflows once its only pause has passed. -/
theorem Settings.polling_overflows_paused :
    let look := Lookup.ofList [("PROFITBRICKS_USERNAME", "alice"),
      ("PROFITBRICKS_PASSWORD", "s3cret"), ("PROFITBRICKS_POLL_TIMEOUT_SECS", "1"),
      ("PROFITBRICKS_POLL_PERIOD_SECS", "9223372036854775808"),
      ("PROFITBRICKS_POLL_MAX_PERIOD_SECS", "9223372036854775808")]
    ∃ settings, ofLookup look = .ok settings ∧
      settings.adapter.poll = .ofSeconds 1 9223372036854775808 9223372036854775808 ∧
      ∃ probes, (settings.adapter.poll.runAt 0 probes).outcome = .overflow := by
  intro look
  have haccepted : ofLookup look = .ok ⟨"alice", "s3cret", defaultEndpoint,
      ⟨.ofSeconds 1 9223372036854775808 9223372036854775808, 1, 5 * second, 30 * second, 10,
        .hdd⟩⟩ := by
    decide +kernel
  refine ⟨_, haccepted, rfl, ?_⟩
  obtain ⟨timeout, period, maxPeriod, htimeout, hperiod, hmax, -, hiff⟩ :=
    polling_overflows_iff haccepted
  have hnumbers : look.number word64? "PROFITBRICKS_POLL_TIMEOUT_SECS" 900 = .ok 1 ∧
      look.number word64? "PROFITBRICKS_POLL_PERIOD_SECS" 2 = .ok 9223372036854775808 ∧
      look.number word64? "PROFITBRICKS_POLL_MAX_PERIOD_SECS" 5 = .ok 9223372036854775808 := by
    decide +kernel
  obtain rfl : 1 = timeout := Except.ok.inj (hnumbers.1.symm.trans htimeout)
  obtain rfl : 9223372036854775808 = period := Except.ok.inj (hnumbers.2.1.symm.trans hperiod)
  obtain rfl : 9223372036854775808 = maxPeriod := Except.ok.inj (hnumbers.2.2.symm.trans hmax)
  exact (hiff 0).mpr (.inr (by decide +kernel))

/-- A timeout of the most seconds is accepted and reaches beyond every clock. -/
theorem Settings.exists_polling_overflow :
    ¬∀ look settings, ofLookup look = .ok settings →
      ∀ start probes, (settings.adapter.poll.runAt start probes).outcome ≠ .overflow := by
  intro h
  have haccepted : ofLookup (.ofList [("PROFITBRICKS_USERNAME", "alice"),
      ("PROFITBRICKS_PASSWORD", "s3cret"),
      ("PROFITBRICKS_POLL_TIMEOUT_SECS", "18446744073709551615")]) =
      .ok ⟨"alice", "s3cret", defaultEndpoint,
        ⟨.ofSeconds 18446744073709551615 2 5, 1, 5 * second, 30 * second, 10, .hdd⟩⟩ := by
    decide +kernel
  have hover : clockLimit ≤ 0 * millisecond + 18446744073709551615 * second := by decide +kernel
  obtain ⟨probes, hprobes⟩ := PollPolicy.exists_overflow_iff.mpr (.inl hover)
  exact h _ _ haccepted 0 probes hprobes

end ComputePlane
