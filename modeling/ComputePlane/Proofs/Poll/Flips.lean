import ComputePlane.Proofs.Poll.Questions

/-!
# What comes about during a wait

The answers to the questions of a wait come at once, and they turn from no to yes at some moment
(`PollPolicy.YesFrom`). The last pause of a wait ends in the millisecond in which its deadline is
noticed, and one more question is asked then; so no change up to that millisecond is missed, and
each is noticed by the end of the pause that it falls into (`PollPolicy.flip_noticed`).
-/

namespace ComputePlane

theorem lt_ceilMs_iff {d t : Nat} : t < ceilMs d ↔ t * millisecond < d :=
  lt_iff_lt_of_le_iff_le ceilMs_le_iff

namespace Wait

variable {w : Wait} {probes : Nat → Probe} {n now t moment : Nat}

/-- A question that a wait gives up after, although it was answered in time, was asked so late that
there is no later one. -/
theorem Last.eq_cutoff {cutoff ended : Nat} {q : Probe} (h : Last cutoff q t .timedOut ended)
    (hin : t + q.duration ≤ cutoff) : t + q.duration = cutoff ∧ q.answer = false := by
  cases h with
  | dropped hlate => omega
  | no hend hno => exact ⟨hend, hno⟩

/-- A wait whose answers come at once asks as its schedule says. -/
theorem scheduled_of_instant {i : Nat} (hprobes : ∀ i, (probes i).duration = 0)
    (hnow : now ≤ w.cutoff) (ht : (w.run probes n now).starts[i]? = some t) :
    (w.schedule now)[i]? = some t := by
  obtain ⟨⟨rest, hrest⟩, -⟩ := run_of_instant (n := n) (m := 0) hprobes hnow
  obtain ⟨hi, -⟩ := List.getElem?_eq_some_iff.mp ht
  rw [schedule, ← hrest, List.getElem?_append_left hi, ht]

/-- The questions of a run are answered at once, with a yes exactly from the millisecond `moment`
on. -/
def YesFrom (w : Wait) (probes : Nat → Probe) (n now moment : Nat) : Prop :=
  ∀ i t, (w.run probes n now).starts[i]? = some t → probes (n + i) = ⟨0, decide (moment ≤ t)⟩

namespace YesFrom

/-- A wait that ends without a yes has asked when its deadline was noticed. -/
theorem cutoff_lt (h : w.YesFrom probes n now moment) (hnow : now ≤ w.cutoff)
    (hend : (w.run probes n now).outcome = .timedOut) : w.cutoff < moment := by
  obtain ⟨k, t, -, ht, hlast⟩ := w.exists_last probes n now
  rw [hend, h k t ht] at hlast
  obtain ⟨rfl, hno⟩ := hlast.eq_cutoff (start_le hnow ht)
  exact Nat.lt_of_not_le (of_decide_eq_false hno)

/-- A wait that ends with a yes has come to the moment. -/
theorem ended_of_reached (h : w.YesFrom probes n now moment)
    (hend : (w.run probes n now).outcome = .reached) :
    moment ≤ (w.run probes n now).ended ∧ (w.run probes n now).ended ≤ w.cutoff := by
  obtain ⟨k, t, -, ht, hlast⟩ := w.exists_last probes n now
  rw [hend, h k t ht] at hlast
  obtain ⟨hyes, hin, hended⟩ := hlast.of_reached
  rw [hended]
  exact ⟨of_decide_eq_true hyes, hin⟩

/-- A wait whose first question is answered no has asked last within one pause before its yes. -/
theorem ended_le (h : w.YesFrom probes n now moment) (hcap : w.IsCapped)
    (hend : (w.run probes n now).outcome = .reached) :
    (w.run probes n now).ended = now ∨
      ∃ s < moment, (w.run probes n now).ended ≤ s + ceilMs w.maxPeriod := by
  obtain ⟨k, t, hlength, ht, hlast⟩ := w.exists_last probes n now
  rw [hend, h k t ht] at hlast
  obtain ⟨-, -, hended⟩ := hlast.of_reached
  rw [hended]
  cases k with
  | zero =>
    rw [head?_starts, Option.some.injEq] at ht
    exact .inl ht.symm
  | succ k =>
    obtain ⟨s, hs⟩ : ∃ s, (w.run probes n now).starts[k]? = some s :=
      ⟨_, List.getElem?_eq_getElem (by omega)⟩
    obtain ⟨hno, -⟩ := next_question hs ht
    have hpause := pause_le hcap hs ht
    rw [h k s hs] at hno hpause
    have hbefore : s < moment := Nat.lt_of_not_le (of_decide_eq_false hno)
    dsimp only at hpause ⊢
    exact .inr ⟨s, hbefore, by omega⟩

end YesFrom

end Wait

namespace PollPolicy

variable {p : PollPolicy} {start flip : Nat} {probes : Nat → Probe}

/-- The questions of a run are answered at once, with a yes exactly from `flip` nanoseconds after
its start on. -/
def YesFrom (p : PollPolicy) (start flip : Nat) (probes : Nat → Probe) : Prop :=
  ∀ i t, (p.runAt start probes).starts[i]? = some t →
    probes i = ⟨0, decide (start * millisecond + flip ≤ t * millisecond)⟩

/-- A run has no questions, or it is the run of the wait that the policy starts. -/
theorem runAt_cases (p : PollPolicy) (start : Nat) (probes : Nat → Probe) :
    p.runAt start probes = ⟨.overflow, start, []⟩ ∨
      p.runAt start probes = (Wait.begin p start).run probes 0 start := by
  rcases Nat.lt_or_ge (start * millisecond + p.timeout) clockLimit with hclock | hclock
  · exact .inr (runAt_of_some (Wait.begin?_of_lt hclock) probes)
  · rw [runAt, Wait.begin?_of_not_lt (Nat.not_lt_of_le hclock), Option.elim_none]
    exact .inl rfl

/-- The questions of a run can be answered at once, by any rule that goes by the time alone. -/
theorem exists_instant (p : PollPolicy) (start : Nat) (yes : Nat → Bool) :
    ∃ probes, ∀ i t, (p.runAt start probes).starts[i]? = some t → probes i = ⟨0, yes t⟩ := by
  refine ⟨fun i => ⟨0, (p.schedule start)[i]?.any yes⟩, fun i t ht => ?_⟩
  rcases p.runAt_cases start fun i => ⟨0, (p.schedule start)[i]?.any yes⟩ with hrun | hrun
  · rw [hrun] at ht
    cases ht
  · rw [hrun] at ht
    have hscheduled : (p.schedule start)[i]? = some t :=
      Wait.scheduled_of_instant (fun _ => rfl) (p.le_cutoff_begin start) ht
    simp only [hscheduled, Option.any_some]

theorem exists_yesFrom (p : PollPolicy) (start flip : Nat) :
    ∃ probes, p.YesFrom start flip probes :=
  p.exists_instant start fun t => start * millisecond + flip ≤ t * millisecond

theorem YesFrom.wait (h : p.YesFrom start flip probes)
    (hruns : (p.runAt start probes).outcome ≠ .overflow) :
    p.runAt start probes = (Wait.begin p start).run probes 0 start ∧
      (Wait.begin p start).YesFrom probes 0 start (start + ceilMs flip) := by
  obtain hrun | hrun := p.runAt_cases start probes
  · exact absurd (congrArg PollRun.outcome hrun) hruns
  · refine ⟨hrun, fun i t ht => ?_⟩
    simp only [Nat.zero_add, h i t (hrun ▸ ht), ← ceilMs_add, ceilMs_le_iff]

/-- In a run in which nothing overflows, as in every run of a policy that fits, a change of the
answers is noticed exactly if it comes no later than the millisecond in which the deadline is
noticed. It is noticed within one pause, and never before it has come. -/
theorem flip_noticed (hruns : (p.runAt start probes).outcome ≠ .overflow)
    (hprobes : p.YesFrom start flip probes) :
    ((p.runAt start probes).outcome = .reached ↔ flip ≤ ceilMs p.timeout * millisecond) ∧
      ((p.runAt start probes).outcome = .reached →
        start * millisecond + flip ≤ (p.runAt start probes).ended * millisecond ∧
          (p.runAt start probes).ended * millisecond <
            start * millisecond + flip + ceilMs (max p.maxPeriod millisecond) * millisecond) := by
  obtain ⟨hrun, hwait⟩ := hprobes.wait hruns
  have hcap := p.isCapped_begin start
  have hcutoff := p.cutoff_begin start
  have hnow := p.le_cutoff_begin start
  have hmax : (Wait.begin p start).maxPeriod = max p.maxPeriod millisecond := rfl
  rw [hrun] at hruns ⊢
  generalize Wait.begin p start = w at *
  rw [limit] at hcutoff
  refine ⟨⟨fun hreached => ?_, fun hle => ?_⟩, fun hreached => ?_⟩
  · obtain ⟨hle, hin⟩ := hwait.ended_of_reached hreached
    exact ceilMs_le_iff.mp (by omega)
  · cases houtcome : (w.run probes 0 start).outcome with
    | reached => rfl
    | timedOut =>
      have hlate := hwait.cutoff_lt hnow houtcome
      have hin := ceilMs_le_iff.mpr hle
      omega
    | overflow => exact absurd houtcome hruns
  · obtain ⟨hle, -⟩ := hwait.ended_of_reached hreached
    rw [← ceilMs_add, ceilMs_le_iff] at hle
    refine ⟨hle, ?_⟩
    rw [← hmax]
    rcases hwait.ended_le hcap hreached with hended | ⟨s, hs, hended⟩
    · -- there was no pause
      have hpos : 0 < ceilMs w.maxPeriod * millisecond :=
        Nat.mul_pos (lt_ceilMs_iff.mpr (by simpa using w.maxPeriod_pos)) (by decide)
      rw [hended]
      omega
    · rw [← ceilMs_add, lt_ceilMs_iff] at hs
      calc (w.run probes 0 start).ended * millisecond
          ≤ (s + ceilMs w.maxPeriod) * millisecond := Nat.mul_le_mul_right _ hended
        _ = s * millisecond + ceilMs w.maxPeriod * millisecond := Nat.add_mul ..
        _ < start * millisecond + flip + ceilMs w.maxPeriod * millisecond :=
          Nat.add_lt_add_right hs _

/-- The answers turn after the deadline of seven and a half milliseconds, but in the millisecond in
which it is noticed. The last pause is cut so that it ends there. -/
theorem flip_noticed_cut :
    let p : PollPolicy := ⟨7500000, 2000000, 3500000⟩
    let probes : Nat → Probe := fun i => ⟨0, i = 3⟩
    let r := p.runAt 1 probes
    r = ⟨.reached, 9, [1, 3, 6, 9]⟩ ∧ r.outcome ≠ .overflow ∧ p.YesFrom 1 7600000 probes ∧
      7600000 ≤ ceilMs p.timeout * millisecond ∧
      1 * millisecond + 7600000 ≤ r.ended * millisecond ∧
      r.ended * millisecond <
        1 * millisecond + 7600000 + ceilMs (max p.maxPeriod millisecond) * millisecond := by
  intro p probes r
  have hr : r = ⟨.reached, 9, [1, 3, 6, 9]⟩ := by decide +kernel
  have hruns : r.outcome ≠ .overflow := by rw [hr]; decide
  have hprobes : p.YesFrom 1 7600000 probes := by
    intro i t ht
    rw [show (p.runAt 1 probes).starts = [1, 3, 6, 9] from congrArg PollRun.starts hr] at ht
    obtain ⟨hi, rfl⟩ := List.getElem?_eq_some_iff.mp ht
    clear ht
    revert i
    decide
  obtain ⟨hreached, hsoon⟩ := flip_noticed hruns hprobes
  have hyes : r.outcome = .reached := congrArg PollRun.outcome hr
  exact ⟨hr, hruns, hprobes, hreached.mp hyes, hsoon hyes⟩

end PollPolicy

end ComputePlane
