import ComputePlane.World
import ComputePlane.Proofs.Cloud.Reading
import ComputePlane.Proofs.Program.Play
import ComputePlane.Proofs.Provisioning.Queue

/-!
# What an operation does to its world

A run of an operation against a cloud without rules is one of those it could have against a cloud
that may fail (`plays`). While the job queues are open, an operation that makes its changes as jobs
makes no others (`run_orderly`).
-/

namespace ComputePlane

open Program Backend MemoryCloud

namespace World

variable {α σ β : Type} {w : World}

/-- What the cloud of a world holds. -/
def content (w : World) : MemoryCloud :=
  w.backend.cloud.content

/-- The job that a request has submitted, with its result. -/
def jobOf : (r : Request) → r.Response → List Outcome
  | .submit _ call, result => [⟨call, result⟩]
  | _, _ => []

/-- The jobs that a program submits, in order. -/
def jobs (w : World) : Program α → List Outcome
  | .done _ => []
  | .request r next => jobOf r (w.perform r).1 ++ (w.perform r).2.jobs (next (w.perform r).1)

/-! ## Waiting -/

/-- What goes on by reading alone changes nothing. -/
theorem onlyRead_drive {poll : Nat → Backend → σ → (β ⊕ σ) × Backend} {wake : σ → Nat} {late : β}
    {I : σ → Prop}
    (hpoll : ∀ now b s, I s → OnlyRead b (poll now b s).2 ∧ ∀ s', (poll now b s).1 = .inr s' → I s')
    (count : Nat) (w : World) {s : σ} (hs : I s) :
    OnlyRead w.backend (drive poll wake late count w s).2.backend ∧
      (drive poll wake late count w s).2.queue = w.queue := by
  induction count generalizing w s with
  | zero => exact ⟨.refl _, rfl⟩
  | succ count ih =>
    obtain ⟨hread, hinv⟩ := hpoll w.now w.backend s hs
    unfold drive
    split
    · next result b heq =>
      rw [heq] at hread
      exact ⟨hread, rfl⟩
    · next s' b heq =>
      rw [heq] at hread hinv
      obtain ⟨hrest, hqueue⟩ := ih { w with now := max w.now (wake s'), backend := b } (hinv s' rfl)
      exact ⟨hread.trans hrest, hqueue⟩

theorem onlyRead_watch (w : World) (watch : Watch) (policy : PollPolicy) :
    OnlyRead w.backend (w.watch watch policy).2.backend ∧
      (w.watch watch policy).2.queue = w.queue :=
  onlyRead_drive (I := fun _ => True)
    (fun now b a _ => ⟨Asking.onlyRead_poll watch.question_isRead now b a, fun _ _ => trivial⟩)
    _ w trivial

theorem onlyRead_perform {r : Request} (hr : isRead r = true) (w : World) :
    OnlyRead w.backend (w.perform r).2.backend ∧ (w.perform r).2.queue = w.queue := by
  cases r with
  | call c =>
    have hc : c.isChange = false := by simpa [isRead] using hr
    exact ⟨(onlyRead_arrive w.backend w.now hc).trans (onlyRead_settle _ _ hc), rfl⟩
  | pause d =>
    have hclock : ∀ t, OnlyRead w.backend { w with now := t }.backend ∧
        { w with now := t }.queue = w.queue := fun t => ⟨.refl _, rfl⟩
    exact hclock _
  | await watch policy =>
    rw [perform_await_snd]
    exact onlyRead_watch w watch policy
  | gather t width keys =>
    simp only [perform]
    exact onlyRead_drive (I := fun g => ∀ s ∈ g.slots, s.Reads)
      Gathering.onlyRead_poll _ w (by simp [Gathering.start])
  | fetch =>
    simp only [perform]
    exact onlyRead_drive (I := fun _ => True)
      (fun now b f _ => ⟨Fetching.onlyRead_poll now b f, fun _ _ => trivial⟩) _ w trivial
  | submit | close => cases hr

theorem onlyRead_run {x : Program α} (hx : x.AsksOnly (isRead · = true)) (w : World) :
    OnlyRead w.backend (w.run x).2.backend ∧ (w.run x).2.queue = w.queue := by
  induction x generalizing w with
  | done a => exact ⟨.refl _, rfl⟩
  | request r next ih =>
    obtain ⟨hread, hqueue⟩ := onlyRead_perform hx.1 w
    obtain ⟨hrest, hqueue'⟩ := ih (w.perform r).1 (hx.2 _) (w.perform r).2
    exact ⟨hread.trans hrest, hqueue'.trans hqueue⟩

/-! ## Calls and jobs -/

theorem answers_call (hw : w.backend.rules = []) (c : Call) :
    w.content.Answers c (w.call c).1 (w.call c).2.content :=
  (w.backend.arrive w.now c).2.answers_settle c (rule_arrive hw w.now c)

theorem rules_call (w : World) (c : Call) : (w.call c).2.backend.rules = w.backend.rules :=
  rules_settle ..

/-- A job is refused or aborted without effect, or its call is made. -/
theorem submit_cases (w : World) (dc : String) (c : Call) :
    (∃ e, e.isFatal = false ∧ (w.submit dc c).1 = .error e ∧
      (w.submit dc c).2.backend = w.backend) ∨
    ∃ q, (w.submit dc c).1 = ({ w with queue := q }.call c).1 ∧
      (w.submit dc c).2.backend = ({ w with queue := q }.call c).2.backend := by
  unfold submit
  cases henq : w.queue.enqueue dc 0 with
  | error e =>
    obtain ⟨rfl, -⟩ := JobQueue.enqueue_error henq
    exact .inl ⟨_, rfl, rfl, rfl⟩
  | ok queued =>
    cases hstart : queued.start? dc with
    | none => exact .inl ⟨.jobAborted dc, rfl, by simp only [hstart], by simp only [hstart]⟩
    | some p => exact .inr ⟨p.2, by simp only [hstart], by simp only [hstart]⟩

theorem answers_submit (hw : w.backend.rules = []) (dc : String) (c : Call) :
    w.content.Answers c (w.submit dc c).1 (w.submit dc c).2.content := by
  rcases w.submit_cases dc c with ⟨e, he, hres, hback⟩ | ⟨q, hres, hback⟩
  · simp only [content, hres, hback]
    exact .failed he
  · simp only [content, hres, hback]
    exact World.answers_call (w := { w with queue := q }) hw c

theorem rules_submit (w : World) (dc : String) (c : Call) :
    (w.submit dc c).2.backend.rules = w.backend.rules := by
  rcases w.submit_cases dc c with ⟨e, -, -, hback⟩ | ⟨q, -, hback⟩
  · rw [hback]
  · rw [hback, rules_call]

/-- What waits changes neither the cloud nor its rules. -/
theorem perform_of_isWait {r : Request} (hr : isWait r = true) (w : World) :
    (w.perform r).2.content = w.content ∧ (w.perform r).2.backend.rules = w.backend.rules := by
  by_cases hread : isRead r = true
  · obtain ⟨h, -⟩ := onlyRead_perform hread w
    exact ⟨h.content, h.rules⟩
  · cases r with
    | close => exact ⟨rfl, rfl⟩
    | call | submit => cases hr
    | pause | await | gather | fetch => exact absurd rfl hread

theorem rules_perform (w : World) (r : Request) :
    (w.perform r).2.backend.rules = w.backend.rules := by
  by_cases hwait : isWait r = true
  · exact (perform_of_isWait hwait w).2
  · cases r with
    | call c => exact rules_call w c
    | submit dc c => exact rules_submit w dc c
    | pause | await | gather | fetch | close => exact absurd rfl hwait

@[simp] theorem rules_run (w : World) (x : Program α) :
    (w.run x).2.backend.rules = w.backend.rules := by
  induction x generalizing w with
  | done a => rfl
  | request r next ih => exact (ih _ _).trans (rules_perform w r)

/-! ## Reachable clouds -/

theorem reachable_call (h : w.backend.cloud.Reachable) (c : Call) :
    (w.call c).2.backend.cloud.Reachable :=
  reachable_settle (b := (w.backend.arrive w.now c).2) h c _

theorem reachable_submit (h : w.backend.cloud.Reachable) (dc : String) (c : Call) :
    (w.submit dc c).2.backend.cloud.Reachable := by
  rcases w.submit_cases dc c with ⟨e, -, -, hback⟩ | ⟨q, -, hback⟩
  · rwa [hback]
  · rw [hback]
    exact reachable_call (w := { w with queue := q }) h c

theorem reachable_perform (h : w.backend.cloud.Reachable) (r : Request) :
    (w.perform r).2.backend.cloud.Reachable := by
  by_cases hread : isRead r = true
  · exact (onlyRead_perform hread w).1.reachable h
  · cases r with
    | call c => exact reachable_call h c
    | submit dc c => exact reachable_submit h dc c
    | close => exact h
    | pause | await | gather | fetch => exact absurd rfl hread

theorem reachable_run (h : w.backend.cloud.Reachable) (x : Program α) :
    (w.run x).2.backend.cloud.Reachable := by
  induction x generalizing w with
  | done a => exact h
  | request r next ih => exact ih _ (reachable_perform h r)

/-! ## Whole runs -/

theorem run_bind (w : World) (x : Program α) (f : α → Program β) :
    w.run (x >>= f) = (w.run x).2.run (f (w.run x).1) := by
  induction x generalizing w with
  | done a => rfl
  | request r next ih => exact ih _ _

/-- What cannot fail is run before what follows it. -/
theorem run_lift_bind (w : World) (x : Program α) (f : α → Operation β) :
    w.run ((liftM x : Operation α) >>= f).run = (w.run x).2.run (f (w.run x).1).run := by
  have hbind : ((liftM x : Operation α) >>= f).run = x >>= fun a => (f a).run :=
    (ExceptT.run_bind ..).trans (Program.bind_assoc x _ _)
  rw [hbind, run_bind]

/-- A run of an operation against a cloud without rules is one that it can have against a cloud that
may fail. -/
theorem plays {w : World} (hw : w.backend.rules = []) (x : Program α) :
    Plays w.content x (w.jobs x) (w.run x).1 (w.run x).2.content := by
  induction x generalizing w with
  | done a => exact .done
  | request r next ih =>
    have hnext := ih (w.perform r).1 ((rules_perform w r).trans hw)
    by_cases hwait : isWait r = true
    · rw [(perform_of_isWait hwait w).1] at hnext
      have hjobs : w.jobs (.request r next) =
          (w.perform r).2.jobs (next (w.perform r).1) := by
        cases r with
        | submit => cases hwait
        | _ => rfl
      rw [hjobs]
      exact .wait hwait hnext
    · cases r with
      | call c => exact .call (answers_call hw c) hnext
      | submit dc c => exact .submit (answers_submit hw dc c) hnext
      | pause | await | gather | fetch | close => exact absurd rfl hwait

/-! ## The changes that are made -/

theorem changes_call (w : World) (c : Call) :
    (w.call c).2.backend.changes = w.backend.changes ++ [c].filter Call.isChange :=
  (changes_settle ..).trans (changes_arrive w.backend w.now c)

/-- While the queues are open and have nothing else to do, a job makes its call. -/
theorem submit_open (hq : w.queue.IsIdle) (hopen : w.queue.closed = false) (dc : String)
    (c : Call) :
    (w.submit dc c).2.backend.changes = w.backend.changes ++ [c].filter Call.isChange ∧
      (w.submit dc c).2.queue.IsIdle ∧ (w.submit dc c).2.queue.closed = false := by
  obtain ⟨q₁, q₂, henq, hstart, hidle, hclosed⟩ := hq.exists_start hopen dc 0
  have hback : (w.submit dc c).2.backend = ({ w with queue := q₂ }.call c).2.backend := by
    unfold submit
    simp only [henq, hstart]
  have hqueue : (w.submit dc c).2.queue = q₂.finish dc := by
    unfold submit
    simp only [henq, hstart]
    rfl
  rw [hback, hqueue, changes_call]
  exact ⟨rfl, hidle, hclosed⟩

/-- An orderly operation makes the changes that it submits as jobs and no others, and leaves the
queues open and idle. -/
theorem run_orderly {w : World} (hq : w.queue.IsIdle) (hopen : w.queue.closed = false)
    {x : Program α} (hx : x.AsksOnly (isOrderly · = true)) :
    (w.run x).2.backend.changes = w.backend.changes ++ (w.jobs x).map (·.call) ∧
      (w.run x).2.queue.IsIdle ∧ (w.run x).2.queue.closed = false := by
  induction x generalizing w with
  | done a => exact ⟨(List.append_nil _).symm, hq, hopen⟩
  | request r next ih =>
    by_cases hread : isRead r = true
    · obtain ⟨h, hqueue⟩ := onlyRead_perform hread w
      rw [← hqueue] at hq hopen
      have hnext := ih (w.perform r).1 hq hopen (hx.2 _)
      rw [h.changes] at hnext
      have hjobs : w.jobs (.request r next) =
          (w.perform r).2.jobs (next (w.perform r).1) := by
        cases r with
        | submit => cases hread
        | _ => rfl
      rw [hjobs]
      exact hnext
    · have horderly := hx.1
      cases r with
      | submit dc c =>
        have hchange : c.isChange = true := by simp_all [isOrderly]
        obtain ⟨hchanges, hidle, hstill⟩ := submit_open hq hopen dc c
        obtain ⟨hrest, hq', hopen'⟩ := ih (w.submit dc c).1 hidle hstill (hx.2 _)
        refine ⟨?_, hq', hopen'⟩
        calc (w.run (.request (.submit dc c) next)).2.backend.changes
            = w.backend.changes ++ [c].filter Call.isChange ++
                ((w.submit dc c).2.jobs (next (w.submit dc c).1)).map (·.call) := by
              rw [← hchanges]
              exact hrest
          _ = w.backend.changes ++ (w.jobs (.request (.submit dc c) next)).map (·.call) := by
              rw [List.filter_cons_of_pos hchange, List.append_assoc]
              rfl
      | call c => exact absurd horderly (by simpa [isRead, isOrderly] using hread)
      | close => cases horderly
      | pause | await | gather | fetch => exact absurd rfl hread

end World

end ComputePlane
