import ComputePlane.Proofs.Provisioning.Callers

/-!
# No job is lost

While no worker goes down, each accepted job is at every moment in exactly one place: it waits, it
runs or it has ended (`Run.count_place`). Its caller gets what it returned, or learns that it broke
off, and no job depends on whether callers stay (`jobs_conserved`).
-/

namespace ComputePlane.Manager

variable {β : Type} {es : List (Event β)} {m m' : Manager β} {e : Event β}

/-! ## Workers that stay up -/

theorem Step.isCrashed_eq (hs : Step m e m') (hc : e.isCrash = false) (dc : String) :
    m'.queue.isCrashed dc = m.queue.isCrashed dc := by
  cases hs with
  | accept h => exact JobQueue.isCrashed_enqueue h dc
  | start h => exact JobQueue.isCrashed_start h dc
  | crash h => cases hc
  | _ => simp

theorem Run.isCrashed_eq_false (h : Run es m) (hc : ∀ e ∈ es, e.isCrash = false) (dc : String) :
    m.queue.isCrashed dc = false := by
  induction h with
  | nil => rfl
  | @snoc es m e m' h hs ih =>
    rw [hs.isCrashed_eq (hc e (by simp))]
    exact ih fun e he => hc e (by simp [he])

theorem Run.close_mem (h : Run es m) (hclosed : m.queue.closed = true) : .close ∈ es := by
  induction h with
  | nil => cases hclosed
  | @snoc es m e m' h hs ih =>
    cases hs with
    | close => simp
    | accept hq =>
      rw [JobQueue.closed_enqueue hq] at hclosed
      simp [ih hclosed]
    | start hq =>
      rw [JobQueue.closed_start hq] at hclosed
      simp [ih hclosed]
    | _ => simp [ih hclosed]

/-- While no worker goes down, only the closing is a reason to refuse a job. -/
theorem Run.close_before_refuse {fs gs : List (Event β)} {dc : String} {r : Error}
    (h : Run (fs ++ .refuse dc r :: gs) m)
    (hc : ∀ e ∈ fs ++ .refuse dc r :: gs, e.isCrash = false) :
    r = .managerClosed ∧ .close ∈ fs := by
  obtain ⟨m₁, m₂, h₁, hs⟩ := h.step_of_append
  cases hs with
  | refuse hq =>
    obtain ⟨rfl, hclosed | hdown⟩ := JobQueue.enqueue_error hq
    · exact ⟨rfl, h₁.close_mem hclosed⟩
    · have hup := h₁.isCrashed_eq_false (fun e he => hc e (by simp [he])) dc
      rw [hup] at hdown
      cases hdown

/-! ## Where a job is -/

/-- While no worker goes down, an accepted job waits, runs or has ended, each of its datacenter and
no two of them at once. -/
theorem Run.count_place (h : Run es m) (hc : ∀ e ∈ es, e.isCrash = false) {dc : String} {n : Nat}
    (hn : .accept dc n ∈ es) (dc' : String) :
    (m.queue.pending dc').count n + (m.queue.running? dc').toList.count n +
      (endedJobs es dc').count n = if dc' = dc then 1 else 0 := by
  obtain ⟨lost, heq, hlost⟩ := h.acceptedJobs_eq dc'
  rw [hlost (h.isCrashed_eq_false hc dc'), List.append_nil, h.startedJobs_eq dc'] at heq
  have hmem : n ∈ acceptedJobs es dc' ↔ dc' = dc := by
    rw [mem_acceptedJobs]
    exact ⟨fun hn' => h.datacenter_unique hn' hn, fun hd => hd ▸ hn⟩
  have hcount : (acceptedJobs es dc').count n = if dc' = dc then 1 else 0 := by
    simp only [(h.nodup_acceptedJobs dc').count, hmem]
  rw [← hcount, heq, List.count_append, List.count_append]
  omega

/-- A job starts when it begins to run and not before. -/
theorem Run.count_startedJobs (h : Run es m) (dc : String) (n : Nat) :
    (startedJobs es dc).count n =
      (m.queue.running? dc).toList.count n + (endedJobs es dc).count n := by
  rw [h.startedJobs_eq dc, List.count_append, Nat.add_comm]

/-- When nothing waits or runs any more, each accepted job has started and ended once. -/
theorem Run.count_of_isDrained (h : Run es m) (hc : ∀ e ∈ es, e.isCrash = false)
    (hd : m.queue.isDrained = true) {dc : String} {n : Nat} (hn : .accept dc n ∈ es) :
    (startedJobs es dc).count n = 1 ∧ (endedJobs es dc).count n = 1 := by
  have hplace := h.count_place hc hn dc
  rw [JobQueue.isDrained_pending hd, JobQueue.isDrained_running? hd, if_pos rfl] at hplace
  have hended : (endedJobs es dc).count n = 1 := by simpa using hplace
  exact ⟨by rw [h.count_startedJobs, JobQueue.isDrained_running? hd, hended]; rfl, hended⟩

/-! ## What callers get -/

theorem Step.results_subset (hs : Step m e m') : m.results ⊆ m'.results := by
  cases hs with
  | finish | breakOff | crash => exact List.subset_append_left _ _
  | _ => exact List.Subset.refl _

theorem Run.mem_results_of_answer (h : Run es m) {n : Nat} {r : Except Error β}
    (hr : .answer n r ∈ es) : (n, r) ∈ m.results := by
  induction h with
  | nil => cases hr
  | snoc h hs ih =>
    rcases List.mem_append.mp hr with hr | hr
    · exact hs.results_subset (ih hr)
    · obtain rfl := List.mem_singleton.mp hr
      cases hs with
      | answer hlookup =>
        obtain ⟨l₁, l₂, hl, -⟩ := List.lookup_eq_some_iff.mp hlookup
        simp [hl]

/-- The one result of a number is the one that is found. -/
theorem lookup_eq_some_of_unique {α : Type} {xs : List (Nat × α)} {n : Nat} {x : α}
    (hmem : (n, x) ∈ xs) (hone : ∀ y, (n, y) ∈ xs → y = x) : xs.lookup n = some x := by
  cases hlookup : xs.lookup n with
  | none =>
    have hne := List.lookup_eq_none_iff.mp hlookup _ hmem
    simp at hne
  | some y =>
    obtain ⟨l₁, l₂, hl, -⟩ := List.lookup_eq_some_iff.mp hlookup
    rw [hone y (by simp [hl])]

/-- A caller whose one result has come has got it, or has left, or can have it now. -/
theorem Run.answered_or_ready_of_mem (h : Run es m) {n : Nat} {r : Except Error β}
    (hmem : (n, r) ∈ m.results) (hone : ∀ r', (n, r') ∈ m.results → r' = r)
    (hstay : .leave n ∉ es) : .answer n r ∈ es ∨ ∃ m', Step m (.answer n r) m' := by
  by_cases hgone : n ∈ m.gone
  · obtain ⟨e, he, hcall⟩ := h.mem_gone_iff.mp hgone
    rcases caller?_eq_some.mp hcall with rfl | ⟨r', rfl⟩
    · exact absurd he hstay
    · obtain rfl := hone r' (h.mem_results_of_answer he)
      exact .inl he
  · exact .inr ⟨_, .answer (lookup_eq_some_of_unique hmem hone) hgone⟩

/-- While no worker goes down, a caller gets the result of its own job. -/
theorem Run.gave_of_answer (h : Run es m) (hc : ∀ e ∈ es, e.isCrash = false) {dc : String} {n : Nat}
    {r : Except Error β} (hn : .accept dc n ∈ es) (hr : .answer n r ∈ es) : Gave es dc n r := by
  obtain ⟨d, hgave⟩ := (h.mem_results_iff hc).mp (h.mem_results_of_answer hr)
  have hacc := h.accepted_of_start (h.started_of_end hgave.mem_endedJobs)
  obtain rfl := h.datacenter_unique hacc hn
  exact hgave

/-- While no worker goes down, the caller of a job that has ended has got its result, or has left,
or can have its result now. -/
theorem Run.answered_or_ready (h : Run es m) (hc : ∀ e ∈ es, e.isCrash = false) {dc : String}
    {n : Nat} {r : Except Error β} (hgave : Gave es dc n r) (hstay : .leave n ∉ es) :
    .answer n r ∈ es ∨ ∃ m', Step m (.answer n r) m' := by
  refine h.answered_or_ready_of_mem ((h.mem_results_iff hc).mpr ⟨dc, hgave⟩) ?_ hstay
  intro r' hmem
  obtain ⟨d, hgave'⟩ := (h.mem_results_iff hc).mp hmem
  exact (h.gave_unique hgave hgave').2.symm

/-! ## Conservation -/

/-- While no worker goes down, no job is lost, done twice or answered to another caller.
* A job is refused only after the closing.
* An accepted job waits, runs or has ended, and is in one of these places once; it starts at most
  once.
* When nothing waits or runs, each accepted job has started and ended once.
* A caller gets what its own job returned, or that it was aborted just when it broke off.
* A caller that has not left has its result, or can have it, once its job has ended.
* Had those who left stayed, or had another caller left, all else would be the same. -/
theorem jobs_conserved {es : List (Event β)} {m : Manager β} (h : Run es m)
    (hc : ∀ e ∈ es, e.isCrash = false) :
    (∀ fs gs dc r, es = fs ++ .refuse dc r :: gs → r = .managerClosed ∧ .close ∈ fs) ∧
    (∀ dc n, .accept dc n ∈ es → ∀ dc',
      (m.queue.pending dc').count n + (m.queue.running? dc').toList.count n +
          (endedJobs es dc').count n = (if dc' = dc then 1 else 0) ∧
        (startedJobs es dc').count n ≤ if dc' = dc then 1 else 0) ∧
    (m.queue.isDrained = true → ∀ dc n, .accept dc n ∈ es →
      (startedJobs es dc).count n = 1 ∧ (endedJobs es dc).count n = 1) ∧
    (∀ dc n r, .accept dc n ∈ es → .answer n r ∈ es →
      .finish dc n r ∈ es ∧ .breakOff dc n ∉ es ∨
        .breakOff dc n ∈ es ∧ r = .error (.jobAborted dc) ∧ ∀ r', .finish dc n r' ∉ es) ∧
    (∀ dc n r, .finish dc n r ∈ es ∨ .breakOff dc n ∈ es ∧ r = .error (.jobAborted dc) →
      .leave n ∉ es → .answer n r ∈ es ∨ ∃ m', Step m (.answer n r) m') ∧
    (∃ a, Run (es.filter fun e => !e.isLeave) a ∧ Alike m a) ∧
    ∀ fs gs dc n, es = fs ++ gs → .accept dc n ∈ fs → (∀ e ∈ fs, e.caller? ≠ some n) →
      ∃ a, Run (fs ++ .leave n :: gs.filter fun e => e.caller? ≠ some n) a ∧ Alike m a := by
  refine ⟨?refused, ?place, fun hd dc n hn => h.count_of_isDrained hc hd hn, ?answer,
    fun dc n r hgave hstay => h.answered_or_ready hc hgave hstay, h.exists_without_leave, ?leave⟩
  case refused =>
    rintro fs gs dc r rfl
    exact h.close_before_refuse hc
  case place =>
    intro dc n hn dc'
    have hplace := h.count_place hc hn dc'
    refine ⟨hplace, ?_⟩
    rw [← hplace, h.count_startedJobs]
    omega
  case answer =>
    intro dc n r hn hr
    rcases h.gave_of_answer hc hn hr with hend | ⟨hend, rfl⟩
    · refine .inl ⟨hend, fun hb => ?_⟩
      cases h.end_unique hend hb (if_pos rfl) (if_pos rfl)
    · refine .inr ⟨hend, rfl, fun r' hf => ?_⟩
      cases h.end_unique hend hf (if_pos rfl) (if_pos rfl)
  case leave =>
    rintro fs gs dc n rfl hacc hwait
    exact h.exists_with_leave hacc hwait

/-- A caller leaves, the queues are closed, a job breaks off, and the next one still gives its
caller what it returned. -/
theorem jobs_conserved_close :
    let es : List (Event Nat) := [.accept "a" 0, .accept "a" 1, .start "a" 0, .leave 0, .close,
      .refuse "a" .managerClosed, .breakOff "a" 0, .start "a" 1, .finish "a" 1 (.ok 7),
      .answer 1 (.ok 7), .closeReturns]
    ∃ m, Run es m ∧ (∀ e ∈ es, e.isCrash = false) ∧ m.queue.isDrained = true ∧
      (startedJobs es "a").count 0 = 1 ∧ (endedJobs es "a").count 0 = 1 := by
  intro es
  have hrun : Run es _ :=
    .snoc (.snoc (.snoc (.snoc (.snoc (.snoc (.snoc (.snoc (.snoc (.snoc (.snoc .nil
      (.accept rfl)) (.accept rfl)) (.start rfl)) (.leave (by decide) (by decide))) (.close rfl))
      (.refuse rfl)) (.breakOff rfl)) (.start rfl)) (.finish rfl)) (.answer rfl (by decide)))
      (.closeReturns rfl rfl)
  have hc : ∀ e ∈ es, e.isCrash = false := by simp [es, Event.isCrash]
  exact ⟨_, hrun, hc, rfl, (jobs_conserved hrun hc).2.2.1 rfl "a" 0 (by simp [es])⟩

end ComputePlane.Manager
