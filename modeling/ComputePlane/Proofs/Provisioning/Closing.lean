import ComputePlane.Proofs.Provisioning.Crashes

/-!
# What closing draws a line under

The queues never open again. Whatever was accepted before the closing is done and answered when the
closing returns, and nothing else is: what comes later is refused and never starts
(`closing_draws_line`).

Three facts carry this through every history. Once closed, the queues stay closed
(`Run.closed_of_close`), so that each later event meets closed queues (`Run.step_of_mem_closed`).
The closing waits for the workers of all datacenters that ever had one (`Run.joinsAll`), and a
worker ends with nothing left to do, so that the closing returns to drained queues
(`Run.isDrained_of_closeReturns`). And a job starts once: what has started before the closing
returns does not start again.

A closing that is not the first one returns at once. It finds the queues drained if the first one
has returned (`Run.isDrained_of_returned`), and may find jobs otherwise
(`exists_closeAgain_early`).
-/

namespace ComputePlane

namespace Manager

variable {β : Type} {es fs gs : List (Event β)} {m m' : Manager β} {e : Event β}

/-! ## Closed queues -/

theorem Step.closed_of (hs : Step m e m') (h : m.queue.closed = true) :
    m'.queue.closed = true := by
  cases hs with
  | accept hq => rwa [JobQueue.closed_enqueue hq]
  | start hq => rwa [JobQueue.closed_start hq]
  | close => rfl
  | _ => exact h

theorem Run.closed_of_close (h : Run (fs ++ .close :: gs) m) : m.queue.closed = true := by
  induction gs using List.reverseRecOn generalizing m with
  | nil =>
    obtain ⟨m₁, -, hs⟩ := h.of_snoc
    cases hs with
    | close => rfl
  | append_singleton gs e ih =>
    rw [← List.cons_append, ← List.append_assoc] at h
    obtain ⟨m₁, h₁, hs⟩ := h.of_snoc
    exact hs.closed_of (ih h₁)

/-- Each event after the closing meets closed queues. -/
theorem Run.step_of_mem_closed (h : Run (fs ++ .close :: gs) m) (he : e ∈ gs) :
    ∃ m₁ m₂, m₁.queue.closed = true ∧ Step m₁ e m₂ := by
  obtain ⟨gs₁, gs₂, rfl⟩ := List.append_of_mem he
  rw [← List.cons_append, ← List.append_assoc] at h
  obtain ⟨m₁, m₂, h₁, hs⟩ := h.step_of_append
  exact ⟨m₁, m₂, h₁.closed_of_close, hs⟩

theorem Step.not_accept_of_closed (hs : Step m e m') (h : m.queue.closed = true) (dc : String)
    (n : Nat) : e ≠ .accept dc n := by
  rintro rfl
  cases hs with
  | accept hq =>
    rw [JobQueue.enqueue_of_closed h] at hq
    cases hq

/-- All that closed queues answer to a job is that they are closed. -/
theorem Step.refuse_of_closed (h : m.queue.closed = true) (dc : String) :
    Step m (.refuse dc .managerClosed) m :=
  .refuse (JobQueue.enqueue_of_closed h dc m.accepted)

theorem Step.reason_of_closed {dc : String} {r : Error} (hs : Step m (.refuse dc r) m')
    (h : m.queue.closed = true) : r = .managerClosed := by
  cases hs with
  | refuse hq =>
    rw [JobQueue.enqueue_of_closed h] at hq
    exact (Except.error.inj hq).symm

/-- Only jobs accepted before the closing ever start. -/
theorem Run.accepted_before_close (h : Run (fs ++ .close :: gs) m) {dc : String} {n : Nat}
    (hn : .start dc n ∈ fs ++ .close :: gs) : .accept dc n ∈ fs := by
  have hacc := h.accepted_of_start (mem_startedJobs.mpr hn)
  rw [List.mem_append, List.mem_cons] at hacc
  rcases hacc with hacc | heq | hacc
  · exact hacc
  · cases heq
  · obtain ⟨m₁, m₂, hclosed, hs⟩ := h.step_of_mem_closed hacc
    exact absurd rfl (hs.not_accept_of_closed hclosed dc n)

/-! ## The return of the closing -/

/-- The first closing waits for closed queues and the workers of all their datacenters. -/
def JoinsAll (m : Manager β) : Prop :=
  ∀ dcs, m.closing = some dcs → m.queue.closed = true ∧ dcs = m.queue.datacenters

theorem Step.datacenters_of_closed (hs : Step m e m') (h : m.queue.closed = true) :
    m'.queue.datacenters = m.queue.datacenters := by
  cases hs with
  | accept hq =>
    rw [JobQueue.enqueue_of_closed h] at hq
    cases hq
  | start hq => exact JobQueue.datacenters_start hq
  | finish | breakOff | crash => exact JobQueue.datacenters_update ..
  | _ => rfl

theorem Step.joinsAll (hs : Step m e m') (h : m.JoinsAll) : m'.JoinsAll := by
  have hkept : m'.closing = m.closing → m'.JoinsAll := by
    intro hsame dcs hdcs
    obtain ⟨hclosed, rfl⟩ := h dcs (hsame ▸ hdcs)
    exact ⟨hs.closed_of hclosed, (hs.datacenters_of_closed hclosed).symm⟩
  cases hs with
  | close hopen =>
    intro dcs hdcs
    cases hdcs
    exact ⟨rfl, JobQueue.handles_of_open hopen⟩
  | closeReturns => exact fun dcs hdcs => nomatch hdcs
  | _ => exact hkept rfl

theorem Run.joinsAll (h : Run es m) : m.JoinsAll := by
  induction h with
  | nil => exact fun dcs hdcs => nomatch hdcs
  | snoc h hs ih => exact hs.joinsAll ih

/-- When each worker that the closing waits for has ended, nothing waits or runs. -/
theorem Run.isDrained_of_haveEnded (h : Run es m) {dcs : List String} (hdcs : m.closing = some dcs)
    (hended : m.queue.haveEnded dcs = true) : m.queue.isDrained = true := by
  obtain ⟨-, rfl⟩ := h.joinsAll dcs hdcs
  exact JobQueue.isDrained_of_haveEnded (fun dc => h.idle_of_isCrashed) hended

/-- The closing returns when nothing waits or runs. -/
theorem Run.isDrained_of_closeReturns (h : Run (es ++ .closeReturns :: gs) m) :
    ∃ m₁, Run es m₁ ∧ m₁.queue.isDrained = true := by
  obtain ⟨m₁, m₂, h₁, hs⟩ := h.step_of_append
  cases hs with
  | closeReturns hclosing hended => exact ⟨m₁, h₁, h₁.isDrained_of_haveEnded hclosing hended⟩

/-- A job that ended while no worker went down gave its caller something. -/
theorem exists_gave (hc : ∀ e ∈ es, e.isCrash = false) {dc : String} {n : Nat}
    (hn : n ∈ endedJobs es dc) : ∃ r, Gave es dc n r := by
  obtain ⟨e, he, hends⟩ := mem_endedJobs.mp hn
  cases e with
  | finish d k r =>
    obtain ⟨rfl, rfl⟩ : d = dc ∧ k = n := by simpa [Event.ends?] using hends
    exact ⟨r, .inl he⟩
  | breakOff d k =>
    obtain ⟨rfl, rfl⟩ : d = dc ∧ k = n := by simpa [Event.ends?] using hends
    exact ⟨_, .inr ⟨he, rfl⟩⟩
  | crash d k => cases hc _ he
  | _ => cases hends

/-- When the closing returns, each job accepted so far has started and ended once. -/
theorem Run.count_of_closeReturns (h : Run (es ++ .closeReturns :: gs) m)
    (hc : ∀ e ∈ es, e.isCrash = false) {dc : String} {n : Nat} (hn : .accept dc n ∈ es) :
    (startedJobs es dc).count n = 1 ∧ (endedJobs es dc).count n = 1 := by
  obtain ⟨m₁, h₁, hd⟩ := h.isDrained_of_closeReturns
  exact h₁.count_of_isDrained hc hd hn

theorem Run.not_start_again (h : Run (es ++ gs) m) {dc : String} {n : Nat}
    (hn : n ∈ startedJobs es dc) : .start dc n ∉ gs := by
  intro hagain
  have hnodup := h.nodup_startedJobs dc
  rw [startedJobs, List.filterMap_append, List.nodup_append] at hnodup
  exact hnodup.2.2 n hn n (mem_startedJobs.mpr hagain) rfl

/-! ## The line -/

/-- Closing draws a line through any history in which no worker goes down, whatever callers do and
whenever they do it.
* From the closing on, the queues are closed and no datacenter has a live one.
* Every job submitted from then on is refused because the queues are closed, and only jobs accepted
  before it ever start.
* When the closing returns, every job accepted before it has started once and ended once. What it
  gave is there for its caller, who has got it or can have it unless it has left, and gets nothing
  else.
* After the closing has returned, no job starts. -/
theorem closing_draws_line {fs gs : List (Event β)} {m : Manager β}
    (h : Run (fs ++ .close :: gs) m) (hc : ∀ e ∈ fs ++ .close :: gs, e.isCrash = false) :
    (m.queue.closed = true ∧ m.queue.queueCount = 0) ∧
    (∀ dc, Step m (.refuse dc .managerClosed) m ∧ ∀ n m', ¬Step m (.accept dc n) m') ∧
    (∀ dc n, .accept dc n ∉ gs) ∧
    (∀ dc r, .refuse dc r ∈ gs → r = .managerClosed) ∧
    (∀ dc n, .start dc n ∈ fs ++ .close :: gs → .accept dc n ∈ fs) ∧
    ∀ gs₁ gs₂, gs = gs₁ ++ .closeReturns :: gs₂ →
      (∀ dc n, .accept dc n ∈ fs →
        (startedJobs (fs ++ .close :: gs₁) dc).count n = 1 ∧
        (endedJobs (fs ++ .close :: gs₁) dc).count n = 1 ∧
        ∃ r, Gave (fs ++ .close :: gs₁) dc n r ∧
          (∀ r', .answer n r' ∈ fs ++ .close :: gs → r' = r) ∧
          ∀ m₁, Run (fs ++ .close :: gs₁) m₁ → (n, r) ∈ m₁.results ∧
            (.leave n ∉ fs ++ .close :: gs₁ →
              .answer n r ∈ fs ++ .close :: gs₁ ∨ ∃ m₂, Step m₁ (.answer n r) m₂)) ∧
      ∀ dc n, .start dc n ∉ gs₂ := by
  have hclosed := h.closed_of_close
  refine ⟨⟨hclosed, JobQueue.queueCount_of_closed hclosed⟩, ?now, ?accept, ?refuse,
    fun dc n hn => h.accepted_before_close hn, ?returned⟩
  case now =>
    intro dc
    exact ⟨Step.refuse_of_closed hclosed dc, fun n m' hs =>
      hs.not_accept_of_closed hclosed dc n rfl⟩
  case accept =>
    intro dc n hn
    obtain ⟨m₁, m₂, hclosed₁, hs⟩ := h.step_of_mem_closed hn
    exact hs.not_accept_of_closed hclosed₁ dc n rfl
  case refuse =>
    intro dc r hr
    obtain ⟨m₁, m₂, hclosed₁, hs⟩ := h.step_of_mem_closed hr
    exact hs.reason_of_closed hclosed₁
  case returned =>
    rintro gs₁ gs₂ rfl
    have hsplit : fs ++ .close :: (gs₁ ++ .closeReturns :: gs₂) =
        fs ++ .close :: gs₁ ++ .closeReturns :: gs₂ := by simp
    have hc₁ : ∀ e ∈ fs ++ .close :: gs₁, e.isCrash = false := fun e he =>
      hc e (hsplit ▸ List.mem_append_left _ he)
    have hrun := hsplit ▸ h
    refine ⟨fun dc n hn => ?_, fun dc n hn => ?_⟩
    · have hacc : .accept dc n ∈ fs ++ .close :: gs₁ := List.mem_append_left _ hn
      obtain ⟨hstarted, hended⟩ := hrun.count_of_closeReturns hc₁ hacc
      obtain ⟨r, hgave⟩ := exists_gave hc₁ (List.count_pos_iff.mp (hended ▸ Nat.one_pos))
      refine ⟨hstarted, hended, r, hgave, fun r' hr' => ?_, fun m₁ h₁ => ?_⟩
      · have hgave' := h.gave_of_answer hc (List.mem_append_left _ hn) hr'
        refine (h.gave_unique hgave' (hgave.mono ?_)).2
        rw [hsplit]
        exact List.subset_append_left _ _
      · exact ⟨(h₁.mem_results_iff hc₁).mpr ⟨dc, hgave⟩, h₁.answered_or_ready hc₁ hgave⟩
    · -- it would have started before the closing returned, and once more after it
      have hmem : .start dc n ∈ fs ++ .close :: (gs₁ ++ .closeReturns :: gs₂) := by simp [hn]
      have hacc := List.mem_append_left (.close :: gs₁) (h.accepted_before_close hmem)
      have hstarted := (hrun.count_of_closeReturns hc₁ hacc).1
      exact hrun.not_start_again (List.count_pos_iff.mp (hstarted ▸ Nat.one_pos))
        (List.mem_cons_of_mem _ hn)

/-- The queues are closed while one job runs and one waits whose caller has left. Both are done when
the closing returns, and a third one was refused. -/
theorem closing_draws_line_two :
    let fs : List (Event Nat) := [.accept "a" 0, .start "a" 0, .accept "a" 1, .leave 1]
    let gs : List (Event Nat) := [.refuse "b" .managerClosed, .finish "a" 0 (.ok 7), .start "a" 1,
      .answer 0 (.ok 7), .breakOff "a" 1]
    let es := fs ++ .close :: (gs ++ [.closeReturns])
    ∃ m, Run es m ∧ (∀ e ∈ es, e.isCrash = false) ∧ m.queue.queueCount = 0 ∧
      (endedJobs (fs ++ .close :: gs) "a").count 1 = 1 := by
  intro fs gs es
  have hrun : Run es _ :=
    .snoc (.snoc (.snoc (.snoc (.snoc (.snoc (.snoc (.snoc (.snoc (.snoc (.snoc .nil
      (.accept rfl)) (.start rfl)) (.accept rfl)) (.leave (by decide) (by decide))) (.close rfl))
      (.refuse rfl)) (.finish rfl)) (.start rfl)) (.answer rfl (by decide))) (.breakOff rfl))
      (.closeReturns rfl rfl)
  have hc : ∀ e ∈ es, e.isCrash = false := by simp [es, fs, gs, Event.isCrash]
  obtain ⟨⟨-, hcount⟩, -, -, -, -, hreturned⟩ := closing_draws_line hrun hc
  exact ⟨_, hrun, hc, hcount, ((hreturned gs [] rfl).1 "a" 1 (by simp [fs])).2.1⟩

/-! ## Closing again -/

/-- Drained queues that are closed stay drained: nothing is accepted and nothing is left to run. -/
theorem Step.isDrained_of_closed (hs : Step m e m') (hclosed : m.queue.closed = true)
    (hd : m.queue.isDrained = true) : m'.queue.isDrained = true := by
  have hidle : ∀ dc, m.queue.running? dc = none := JobQueue.isDrained_running? hd
  cases hs with
  | accept hq =>
    rw [JobQueue.enqueue_of_closed hclosed] at hq
    cases hq
  | @start dc n q hq =>
    have hpending := JobQueue.pending_start hq dc
    rw [JobQueue.isDrained_pending hd] at hpending
    simp at hpending
  | finish hr | breakOff hr | crash hr =>
    rw [hidle] at hr
    cases hr
  | _ => exact hd

/-- Once the first closing has returned, every later one finds drained queues. -/
theorem Run.isDrained_of_returned (h : Run (es ++ .closeReturns :: gs) m) :
    m.queue.closed = true ∧ m.queue.isDrained = true := by
  induction gs using List.reverseRecOn generalizing m with
  | nil =>
    obtain ⟨m₁, h₁, hs⟩ := h.of_snoc
    cases hs with
    | closeReturns hclosing hended =>
      exact ⟨(h₁.joinsAll _ hclosing).1, h₁.isDrained_of_haveEnded hclosing hended⟩
  | append_singleton gs e ih =>
    rw [← List.cons_append, ← List.append_assoc] at h
    obtain ⟨m₁, h₁, hs⟩ := h.of_snoc
    obtain ⟨hclosed, hd⟩ := ih h₁
    exact ⟨hs.closed_of hclosed, hs.isDrained_of_closed hclosed hd⟩

/-- A closing that is not the first one waits for nothing: it can return while an accepted job runs
and another one waits, and no worker has gone down. -/
theorem exists_closeAgain_early :
    ∃ (es : List (Event Nat)) (m : Manager Nat), Run (es ++ [.closeAgain]) m ∧
      (∀ e ∈ es, e.isCrash = false) ∧ m.queue.running? "a" = some 0 ∧
        m.queue.pending "a" = [1] := by
  refine ⟨[.accept "a" 0, .start "a" 0, .accept "a" 1, .close], _,
    .snoc (.snoc (.snoc (.snoc (.snoc .nil (.accept rfl)) (.start rfl)) (.accept rfl)) (.close rfl))
      (.closeAgain rfl), ?_, rfl, rfl⟩
  simp [Event.isCrash]

end Manager

end ComputePlane
