import ComputePlane.Number.Power

/-!
# Waiting by asking again

A wait asks a question until the answer is yes or the deadline has come. The pauses between the
questions start at `period`, grow by half each time and end at `maxPeriod`; none goes beyond the
deadline. Durations are counted in nanoseconds, but a clock moves in whole milliseconds: what ends
at `x` milliseconds is noticed at the first whole millisecond that is not before `x`.

`Wait.next_again_lt` and `Wait.next_again_le` say that a pause takes time and ends no later than the
deadline is noticed, which bounds the number of questions.
-/

namespace ComputePlane

/-! ## Time -/

def millisecond : Nat := 1000000

def second : Nat := 1000000000

/-- The first whole millisecond that is not before a number of nanoseconds. -/
def ceilMs (nanos : Nat) : Nat :=
  if nanos % millisecond = 0 then nanos / millisecond else nanos / millisecond + 1

theorem lt_ceilMs {t d : Nat} (h : t * millisecond < d) : t < ceilMs d := by
  unfold ceilMs millisecond at *
  split <;> omega

theorem ceilMs_mono {a b : Nat} (h : a ≤ b) : ceilMs a ≤ ceilMs b := by
  unfold ceilMs millisecond
  split <;> split <;> omega

/-- Durations are shorter than this many nanoseconds: their seconds have 64 bits. -/
def durationLimit : Nat := Number.twoTo 64 * second

/-- Clocks show times before this many nanoseconds: their seconds have 63 bits. -/
def clockLimit : Nat := Number.twoTo 63 * second

/-! ## Policies -/

/-- When to give up, and how long the pauses are. -/
structure PollPolicy where
  timeout : Nat
  period : Nat
  maxPeriod : Nat
  deriving DecidableEq, Repr

def PollPolicy.ofSeconds (timeout period maxPeriod : Nat) : PollPolicy :=
  ⟨timeout * second, period * second, maxPeriod * second⟩

/-- A wait that has started: its deadline, the next pause and the longest one. -/
structure Wait where
  deadline : Nat
  period : Nat
  maxPeriod : Nat
  period_pos : 0 < period
  maxPeriod_pos : 0 < maxPeriod

/-- What follows an answer that was not yes. -/
inductive Wait.Next where
  | timedOut
  | again (wake : Nat) (wait : Wait)
  /-- The pause after the next one is no duration any more. -/
  | overflow (wake : Nat)

namespace Wait

/-- The wait that a policy starts at the millisecond `now`, without regard to the range of
clocks. -/
def begin (p : PollPolicy) (now : Nat) : Wait where
  deadline := now * millisecond + p.timeout
  period := min (max p.period millisecond) (max p.maxPeriod millisecond)
  maxPeriod := max p.maxPeriod millisecond
  period_pos := by unfold millisecond; omega
  maxPeriod_pos := by unfold millisecond; omega

/-- The wait that a policy starts, if a clock can show its deadline. -/
def begin? (p : PollPolicy) (now : Nat) : Option Wait :=
  -- the factor comes first: a product unfolds along its second number
  if millisecond * now + p.timeout < clockLimit then some (begin p now) else none

theorem begin?_eq (p : PollPolicy) (now : Nat) :
    begin? p now =
      if now * millisecond + p.timeout < clockLimit then some (begin p now) else none := by
  rw [begin?, Nat.mul_comm]

theorem begin?_of_lt {p : PollPolicy} {now : Nat} (h : now * millisecond + p.timeout < clockLimit) :
    begin? p now = some (begin p now) := by
  rw [begin?_eq, if_pos h]

theorem begin?_of_not_lt {p : PollPolicy} {now : Nat}
    (h : ¬now * millisecond + p.timeout < clockLimit) : begin? p now = none := by
  rw [begin?_eq, if_neg h]

/-- The millisecond at which the deadline is noticed. A question still open then is dropped, but one
that is answered in that very millisecond counts. -/
def cutoff (w : Wait) : Nat :=
  ceilMs w.deadline

/-- The end of the pause that starts at the millisecond `now`. -/
def wake (w : Wait) (now : Nat) : Nat :=
  ceilMs (now * millisecond + min w.period (w.deadline - now * millisecond))

/-- The wait with its pause made longer by half. -/
def lengthen (w : Wait) : Wait where
  deadline := w.deadline
  period := min (w.period * 3 / 2) w.maxPeriod
  maxPeriod := w.maxPeriod
  period_pos := by
    have h₁ := w.period_pos
    have h₂ := w.maxPeriod_pos
    omega
  maxPeriod_pos := w.maxPeriod_pos

/-- What follows an answer at the millisecond `now` that was not yes. -/
def next (w : Wait) (now : Nat) : Next :=
  if w.deadline ≤ now * millisecond then .timedOut
  else if w.period * 3 < durationLimit then .again (w.wake now) w.lengthen
  else .overflow (w.wake now)

theorem lengthen_cutoff (w : Wait) : w.lengthen.cutoff = w.cutoff := rfl

/-- A pause takes time. -/
theorem next_again_lt {w w' : Wait} {now wake : Nat} (h : w.next now = .again wake w') :
    now < wake := by
  unfold next at h
  split at h
  · cases h
  · split at h
    · cases h
      have := w.period_pos
      exact lt_ceilMs (by omega)
    · cases h

/-- A pause ends no later than the deadline is noticed. -/
theorem next_again_le {w w' : Wait} {now wake : Nat} (h : w.next now = .again wake w') :
    wake ≤ w.cutoff := by
  unfold next at h
  split at h
  · cases h
  · split at h
    · cases h
      exact ceilMs_mono (by omega)
    · cases h

theorem next_again_cutoff {w w' : Wait} {now wake : Nat} (h : w.next now = .again wake w') :
    w'.cutoff = w.cutoff := by
  unfold next at h
  split at h
  · cases h
  · split at h <;> cases h
    exact lengthen_cutoff w

/-- The time left to the deadline shrinks. -/
theorem next_again_left {w w' : Wait} {now asked wake : Nat} (h : w.next now = .again wake w')
    (hasked : asked ≤ now) : w'.cutoff - wake < w.cutoff - asked := by
  have h₁ := next_again_lt h
  have h₂ := next_again_le h
  rw [next_again_cutoff h]
  omega

end Wait

/-! ## Runs -/

/-- A question: how many milliseconds it takes to answer, and the answer. -/
structure Probe where
  duration : Nat
  answer : Bool
  deriving DecidableEq, Repr

inductive PollEnd where
  | reached
  | timedOut
  | overflow
  deriving DecidableEq, Repr

/-- A finished wait: how it ended, when, and when each question was asked. -/
structure PollRun where
  outcome : PollEnd
  ended : Nat
  starts : List Nat
  deriving DecidableEq, Repr

/-- The run with a question asked before. -/
def PollRun.startedAt (t : Nat) (r : PollRun) : PollRun :=
  { r with starts := t :: r.starts }

/-- The run of a wait from its `n`-th question on, asked at the millisecond `now`. The program also
counts its questions, with 32 bits, for its trace alone: that counter is left out. -/
def Wait.run (w : Wait) (probes : Nat → Probe) (n now : Nat) : PollRun :=
  if w.cutoff < now + (probes n).duration then ⟨.timedOut, w.cutoff, [now]⟩
  else if (probes n).answer then ⟨.reached, now + (probes n).duration, [now]⟩
  else
    match h : w.next (now + (probes n).duration) with
    | .timedOut => ⟨.timedOut, now + (probes n).duration, [now]⟩
    | .overflow wake => ⟨.overflow, wake, [now]⟩
    | .again wake w' => (w'.run probes (n + 1) wake).startedAt now
termination_by w.cutoff - now
decreasing_by exact Wait.next_again_left h (Nat.le_add_right ..)

/-- The run of a policy whose first question is asked at the start of the clock. -/
def PollPolicy.run (p : PollPolicy) (probes : Nat → Probe) : PollRun :=
  match Wait.begin? p 0 with
  | some w => w.run probes 0 0
  | none => ⟨.overflow, 0, []⟩

end ComputePlane
