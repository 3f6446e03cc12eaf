import ComputePlane.Lifecycle.Create
import ComputePlane.Proofs.Provisioning.Closing
import ComputePlane.Proofs.World.Breaking
import ComputePlane.Proofs.World.Holdings

/-!
# Worlds with closed queues

Closed queues refuse every job at once, so an operation that makes its changes as jobs changes
nothing (`onlyRead_run_of_closed`). What a refusal does to the steps of an operation depends on the
step: one that may fail goes on as if nothing had happened, one that may not gives up.

A watch for what can only come about by a change ends without success (`watch_of_never`).
-/

namespace ComputePlane.World

open Program

variable {α β : Type} {w : World}

/-! ## Failures -/

/-- An operation ends with the failure of its first part. -/
theorem run_bind_of_error {w' : World} {x : Operation α} {e : Error}
    (h : w.run x.run = (.error e, w')) (f : α → Operation β) :
    w.run (x >>= f).run = (.error e, w') := by
  rw [ExceptT.run_bind, run_bind, h]
  rfl

/-- An operation goes on with what its first part gives. -/
theorem run_bind_of_ok {w' : World} {x : Operation α} {a : α} (h : w.run x.run = (.ok a, w'))
    (f : α → Operation β) : w.run (x >>= f).run = w'.run (f a).run := by
  rw [ExceptT.run_bind, run_bind, h]

/-- What handles a failure goes on from where it came up. -/
theorem run_tryCatch_of_error {w' : World} {x : Operation α} {e : Error}
    (h : w.run x.run = (.error e, w')) (f : Error → Operation α) :
    w.run (tryCatch x f).run = w'.run (f e).run := by
  refine (run_bind w x.run _).trans ?_
  rw [h]
  rfl

/-! ## Refused jobs -/

theorem submit_of_closed (h : w.queue.closed = true) (dc : String) (c : Call) :
    w.submit dc c = (.error .managerClosed, w) := by
  unfold submit
  rw [JobQueue.enqueue_of_closed h]

theorem run_submit_of_closed (h : w.queue.closed = true) (dc : String) (c : Call) :
    w.run (Program.submit dc c).run = (.error .managerClosed, w) :=
  submit_of_closed h dc c

theorem run_bestEffort_of_closed (h : w.queue.closed = true) (dc : String) (c : Call) :
    w.run (Lifecycle.bestEffort dc c) = ((), w) := by
  show ((), (w.submit dc c).2) = _
  rw [submit_of_closed h]

theorem run_bestEffortAll_of_closed (h : w.queue.closed = true) (dc : String) (cs : List Call) :
    w.run (Lifecycle.bestEffortAll dc cs) = ((), w) := by
  induction cs with
  | nil => rfl
  | cons c cs ih =>
    rw [Lifecycle.bestEffortAll, run_bind, run_bestEffort_of_closed h]
    exact ih

/-- A step that may not fail gives up, and the deletes that should undo the steps before it are
refused as well. -/
theorem run_critical_of_closed (h : w.queue.closed = true) (stage : Stage) (dc : String)
    (made : Lifecycle.Made) (c : Call) :
    w.run (Lifecycle.critical stage dc made c).run = (.error (.fatal stage .managerClosed), w) := by
  refine (run_tryCatch_of_error (run_submit_of_closed h dc c) _).trans ?_
  refine (run_lift_bind ..).trans ?_
  rw [run_bestEffortAll_of_closed h]
  rfl

/-- While the queues are closed, an orderly request only reads. -/
theorem onlyRead_perform_of_closed (h : w.queue.closed = true) {r : Request}
    (horderly : isOrderly r = true) :
    Backend.OnlyRead w.backend (w.perform r).2.backend ∧ (w.perform r).2.queue = w.queue := by
  by_cases hread : isRead r = true
  · exact onlyRead_perform hread w
  · cases r with
    | submit dc c =>
      show Backend.OnlyRead w.backend (w.submit dc c).2.backend ∧ (w.submit dc c).2.queue = _
      rw [submit_of_closed h]
      exact ⟨.refl _, rfl⟩
    | call c => exact absurd horderly (by simpa [isRead, isOrderly] using hread)
    | close => cases horderly
    | pause | await | gather | fetch => exact absurd rfl hread

/-- So does an orderly operation. -/
theorem onlyRead_run_of_closed (h : w.queue.closed = true) {x : Program α}
    (hx : x.AsksOnly (isOrderly · = true)) :
    Backend.OnlyRead w.backend (w.run x).2.backend ∧ (w.run x).2.queue = w.queue := by
  induction x generalizing w with
  | done a => exact ⟨.refl _, rfl⟩
  | request r next ih =>
    obtain ⟨hread, hqueue⟩ := onlyRead_perform_of_closed h hx.1
    obtain ⟨hrest, hqueue'⟩ := ih (w := (w.perform r).2) (w.perform r).1 (hqueue ▸ h) (hx.2 _)
    exact ⟨hread.trans hrest, hqueue'.trans hqueue⟩

/-- So does one that is broken off. -/
theorem onlyRead_run?_of_closed (h : w.queue.closed = true) {x : Program α}
    (hx : x.AsksOnly (isOrderly · = true)) :
    Backend.OnlyRead w.backend (w.run? x).2.backend ∧ (w.run? x).2.queue = w.queue := by
  refine run?_of_invariant
    (I := fun w' => Backend.OnlyRead w.backend w'.backend ∧ w'.queue = w.queue)
    (fun w' r hr hw' => ?_) hx ⟨.refl _, rfl⟩
  obtain ⟨hread, hqueue⟩ := onlyRead_perform_of_closed (hw'.2 ▸ h) hr
  exact ⟨hw'.1.trans hread, hqueue.trans hw'.2⟩

/-! ## Jobs of two programs -/

theorem jobs_bind (w : World) (x : Program α) (f : α → Program β) :
    w.jobs (x >>= f) = w.jobs x ++ (w.run x).2.jobs (f (w.run x).1) := by
  induction x generalizing w with
  | done a => rfl
  | request r next ih =>
    show jobOf r (w.perform r).1 ++ (w.perform r).2.jobs (next (w.perform r).1 >>= f) = _
    rw [ih, ← List.append_assoc]
    rfl

theorem jobs_of_reads {x : Program α} (hx : x.AsksOnly (isRead · = true)) : w.jobs x = [] := by
  induction x generalizing w with
  | done a => rfl
  | request r next ih =>
    have hr := hx.1
    cases r with
    | submit => cases hr
    | _ => exact ih _ (hx.2 _)

/-! ## Watches for what never comes about -/

/-- A watch that goes on over an unchanged cloud without rules. -/
def Undisturbed (c : MemoryCloud) (b : Backend) (a : Asking) : Prop :=
  b.rules = [] ∧ b.cloud.content = c ∧
    match a with
    | .asking _ p => p.rule = none
    | _ => True

/-- The cloud answers no as long as it has the content `c`. -/
def Never (c : MemoryCloud) (q : Question) : Prop :=
  ∀ d : MemoryCloud, d.content = c → q.holds (d.call q.call).1 = false

variable {c : MemoryCloud} {q : Question}

theorem settle_of_never (hread : q.call.isChange = false) (hnever : Never c q) (now : Nat)
    {b : Backend} {wait : Wait} {p : Pending} (h : Undisturbed c b (.asking wait p)) :
    (Asking.settle q now b wait p).1.elim (· ≠ .reached)
      (Undisturbed c (Asking.settle q now b wait p).2) := by
  obtain ⟨hrules, hcontent, hp⟩ := h
  unfold Asking.settle
  split
  · have hno : q.holds (b.settle q.call p).1 = false := by
      rw [Backend.settle_of_rule_none b q.call hp]
      exact hnever b.cloud hcontent
    have hsettled := Backend.onlyRead_settle b p hread
    have hrules' := hsettled.rules.trans hrules
    have hcontent' := hsettled.content.trans hcontent
    simp only [Asking.answered, hno, Bool.false_eq_true, if_false]
    split
    · exact PollEnd.noConfusion
    · exact ⟨hrules', hcontent', trivial⟩
    · exact ⟨hrules', hcontent', trivial⟩
  · split
    · exact PollEnd.noConfusion
    · exact ⟨hrules, hcontent, hp⟩

theorem poll_of_never (hread : q.call.isChange = false) (hnever : Never c q) (now : Nat)
    {b : Backend} {a : Asking} (h : Undisturbed c b a) :
    (a.poll q now b).1.elim (· ≠ .reached) (Undisturbed c (a.poll q now b).2) := by
  cases a with
  | asking wait p => exact settle_of_never hread hnever now h
  | pausing wait wake =>
    by_cases hwake : now < wake
    · simp only [Asking.poll, if_pos hwake]
      exact h
    · obtain ⟨hrules, hcontent, -⟩ := h
      simp only [Asking.poll, if_neg hwake]
      exact settle_of_never hread hnever now
        ⟨hrules, hcontent, Backend.rule_arrive hrules now q.call⟩
  | breaking wake =>
    simp only [Asking.poll]
    split
    · exact h
    · exact PollEnd.noConfusion

/-- A watch ends without success if the cloud has to be changed for it. -/
theorem watch_of_never (hrules : w.backend.rules = []) {watch : Watch}
    (hnever : Never w.content watch.question) (policy : PollPolicy) :
    (w.watch watch policy).1 ≠ .reached := by
  have hstart : Undisturbed w.content w.backend (Asking.start policy w.now) := by
    rw [Asking.start_eq]
    split_ifs <;> exact ⟨hrules, rfl, trivial⟩
  exact drive_of_invariant (I := Undisturbed w.content) (Q := (· ≠ PollEnd.reached))
    PollEnd.noConfusion (fun now _ _ h => poll_of_never watch.question_isRead hnever now h) _ w
    hstart

end ComputePlane.World
