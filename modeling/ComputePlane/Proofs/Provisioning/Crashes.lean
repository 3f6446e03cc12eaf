import ComputePlane.Proofs.Provisioning.Conservation

/-!
# Workers that go down

A job that breaks off while it runs harms only itself. One that breaks off before it has started to
run takes its worker along: the jobs that wait behind it are lost, and the datacenter takes no
further job, although the queues are open. `harm_of_crash` says that this is all the harm there is,
`exists_crash_harm` that it is done.

While a worker is down nothing waits or runs for its datacenter (`Run.idle_of_isCrashed`), so that
what is lost is known from the history alone.
-/

namespace ComputePlane.Manager

variable {β : Type} {es : List (Event β)} {m m' : Manager β} {e : Event β}

/-! ## Workers that are down -/

theorem Step.isCrashed_iff (hs : Step m e m') (dc : String) :
    m'.queue.isCrashed dc = true ↔ m.queue.isCrashed dc = true ∨ ∃ n, e = .crash dc n := by
  cases he : e.isCrash with
  | false =>
    have hne : ¬∃ n, e = .crash dc n := by
      rintro ⟨n, rfl⟩
      cases he
    rw [hs.isCrashed_eq he, or_iff_left hne]
  | true =>
    cases hs with
    | @crash d n h =>
      rw [JobQueue.isCrashed_crash h]
      by_cases hd : d = dc
      · simp [hd]
      · simp [hd]
    | _ => cases he

/-- A worker is down if one of its jobs has taken it down. -/
theorem Run.isCrashed_iff (h : Run es m) {dc : String} :
    m.queue.isCrashed dc = true ↔ ∃ j, .crash dc j ∈ es := by
  induction h with
  | nil => simp
  | @snoc es m e m' h hs ih =>
    rw [hs.isCrashed_iff, ih]
    simp only [List.mem_append, List.mem_singleton]
    grind

/-- Nothing waits or runs while the worker is down. -/
theorem Run.idle_of_isCrashed (h : Run es m) {dc : String} (hd : m.queue.isCrashed dc = true) :
    m.queue.pending dc = [] ∧ m.queue.running? dc = none := by
  induction h with
  | nil => exact ⟨rfl, rfl⟩
  | @snoc es m e m' h hs ih =>
    by_cases hc : ∃ n, e = .crash dc n
    · obtain ⟨n, rfl⟩ := hc
      cases hs with
      | crash hr => simp [JobQueue.pending_crash, JobQueue.running?_crash]
    · have hdown := ((hs.isCrashed_iff dc).mp hd).resolve_right hc
      obtain ⟨hp, hr⟩ := ih hdown
      have hacc : e.accepts? dc = none := by
        cases he : e.accepts? dc with
        | none => rfl
        | some n => exact absurd hdown (Bool.eq_false_iff.mp (hs.up_of_accepts he))
      have hpending := hs.pending_eq fun n hn => hc ⟨n, hn⟩
      rw [hp, hacc, Option.toList_none, List.append_nil, List.nil_eq, List.append_eq_nil_iff]
        at hpending
      have hrunning := hs.running?_eq dc
      rw [hr, hpending.1, Option.toList_none, List.append_nil, List.nil_eq,
        List.append_eq_nil_iff] at hrunning
      exact ⟨hpending.2, Option.toList_eq_nil_iff.mp hrunning.2⟩

/-- While the queues are open, a datacenter refuses jobs if its worker has gone down. -/
theorem Run.refuses_iff (h : Run es m) (hopen : .close ∉ es) {dc : String} :
    (∃ r m', Step m (.refuse dc r) m') ↔ ∃ j, .crash dc j ∈ es := by
  rw [← h.isCrashed_iff]
  constructor
  · rintro ⟨r, m', hs⟩
    cases hs with
    | refuse hq =>
      exact (JobQueue.enqueue_error hq).2.resolve_left fun hclosed => hopen (h.close_mem hclosed)
  · intro hd
    cases hq : m.queue.enqueue dc m.accepted with
    | ok q => exact absurd hd (JobQueue.enqueue_eq_ok_iff.mp ⟨q, hq⟩).2
    | error r => exact ⟨r, m, .refuse hq⟩

/-! ## Jobs that are lost -/

/-- A job was lost: it never started, and its worker has gone down. -/
def Lost (es : List (Event β)) (dc : String) (n : Nat) : Prop :=
  .accept dc n ∈ es ∧ .start dc n ∉ es ∧ ∃ j, .crash dc j ∈ es

/-- While the worker is up, the jobs that wait are those that were accepted and have not started. -/
theorem Run.mem_pending_iff (h : Run es m) {dc : String} (hup : m.queue.isCrashed dc = false)
    {n : Nat} : n ∈ m.queue.pending dc ↔ .accept dc n ∈ es ∧ .start dc n ∉ es := by
  obtain ⟨lost, heq, hlost⟩ := h.acceptedJobs_eq dc
  have hn := h.nodup_acceptedJobs dc
  rw [heq, hlost hup, List.append_nil, List.nodup_append] at hn
  rw [← mem_acceptedJobs, ← mem_startedJobs, heq, hlost hup, List.append_nil, List.mem_append]
  constructor
  · exact fun hp => ⟨.inr hp, fun hs => hn.2.2 n hs n hp rfl⟩
  · exact fun ⟨hacc, hs⟩ => hacc.resolve_left hs

theorem Step.lost_iff (h : Run es m) (hs : Step m e m') (he : e.isCrash = false) {dc : String}
    {n : Nat} : Lost (es ++ [e]) dc n ↔ Lost es dc n := by
  have hcrash : (∃ j, .crash dc j ∈ es ++ [e]) ↔ ∃ j, .crash dc j ∈ es := by
    rw [← h.isCrashed_iff, ← (h.snoc hs).isCrashed_iff, hs.isCrashed_eq he]
  unfold Lost
  rw [hcrash, List.mem_append, List.mem_append, List.mem_singleton, List.mem_singleton, not_or]
  constructor
  · rintro ⟨hacc | rfl, ⟨hstart, -⟩, hdown⟩
    · exact ⟨hacc, hstart, hdown⟩
    · have hup : m.queue.isCrashed dc = false := hs.up_of_accepts (if_pos rfl)
      rw [h.isCrashed_iff.mpr hdown] at hup
      cases hup
  · rintro ⟨hacc, hstart, hdown⟩
    refine ⟨.inl hacc, ⟨hstart, ?_⟩, hdown⟩
    rintro rfl
    cases hs with
    | start hq =>
      have hpending := JobQueue.pending_start hq dc
      rw [(h.idle_of_isCrashed (h.isCrashed_iff.mpr hdown)).1] at hpending
      simp at hpending

/-- A worker that goes down loses the jobs that wait. -/
theorem Step.lost_crash (h : Run es m) {d : String} {k : Nat} (hs : Step m (.crash d k) m')
    {dc : String} {n : Nat} :
    Lost (es ++ [.crash d k]) dc n ↔ Lost es dc n ∨ d = dc ∧ n ∈ m.queue.pending dc := by
  have hup : m.queue.isCrashed d = false := by
    cases hs with
    | crash hr =>
      refine Bool.eq_false_iff.mpr fun hdown => ?_
      rw [(h.idle_of_isCrashed hdown).2] at hr
      cases hr
  have hcrash : (∃ j, .crash dc j ∈ es ++ [.crash d k]) ↔ (∃ j, .crash dc j ∈ es) ∨ d = dc := by
    rw [← h.isCrashed_iff, ← (h.snoc hs).isCrashed_iff, hs.isCrashed_iff]
    simp
  unfold Lost
  rw [hcrash]
  simp only [List.mem_append, List.mem_singleton, reduceCtorEq, or_false]
  constructor
  · rintro ⟨hacc, hstart, hdown | rfl⟩
    · exact .inl ⟨hacc, hstart, hdown⟩
    · exact .inr ⟨rfl, (h.mem_pending_iff hup).mpr ⟨hacc, hstart⟩⟩
  · rintro (⟨hacc, hstart, hdown⟩ | ⟨rfl, hp⟩)
    · exact ⟨hacc, hstart, .inl hdown⟩
    · obtain ⟨hacc, hstart⟩ := (h.mem_pending_iff hup).mp hp
      exact ⟨hacc, hstart, .inr rfl⟩

/-- An accepted job that was not lost waits, runs or has ended, and is in one of these places once;
one that was lost is in none. -/
theorem Run.count_place_eq (h : Run es m) {dc : String} {n : Nat} (hn : .accept dc n ∈ es) :
    (¬Lost es dc n → (m.queue.pending dc).count n + (m.queue.running? dc).toList.count n +
        (endedJobs es dc).count n = 1) ∧
      (Lost es dc n → n ∉ m.queue.pending dc ∧ m.queue.running? dc ≠ some n ∧
        n ∉ endedJobs es dc) := by
  have hstarted := h.startedJobs_eq dc
  cases hup : m.queue.isCrashed dc with
  | false =>
    have hlost : ¬Lost es dc n := fun hl => by
      rw [h.isCrashed_iff.mpr hl.2.2] at hup
      cases hup
    refine ⟨fun _ => ?_, fun hl => absurd hl hlost⟩
    obtain ⟨lost, heq, hnone⟩ := h.acceptedJobs_eq dc
    rw [hnone hup, List.append_nil, hstarted] at heq
    have hcount := (h.nodup_acceptedJobs dc).count (a := n)
    rw [if_pos (mem_acceptedJobs.mpr hn), heq, List.count_append, List.count_append] at hcount
    omega
  | true =>
    obtain ⟨hp, hr⟩ := h.idle_of_isCrashed hup
    rw [hr, Option.toList_none, List.append_nil] at hstarted
    have hlost : Lost es dc n ↔ n ∉ endedJobs es dc := by
      rw [← hstarted, mem_startedJobs]
      exact ⟨fun hl => hl.2.1, fun hs => ⟨hn, hs, h.isCrashed_iff.mp hup⟩⟩
    refine ⟨fun hl => ?_, fun hl => ⟨by simp [hp], by simp [hr], hlost.mp hl⟩⟩
    have hended : n ∈ endedJobs es dc := Classical.not_not.mp fun hne => hl (hlost.mpr hne)
    have hnodup := h.nodup_startedJobs dc
    rw [hstarted] at hnodup
    rw [hp, hr, hnodup.count, if_pos hended]
    rfl

/-! ## What callers get -/

/-- What comes for the caller of a job: what the job gave it, or that it was aborted when its worker
went down. -/
def Comes (es : List (Event β)) (dc : String) (n : Nat) (r : Except Error β) : Prop :=
  Gave es dc n r ∨ (.crash dc n ∈ es ∨ Lost es dc n) ∧ r = .error (.jobAborted dc)

theorem Gave.snoc_iff {dc : String} {n : Nat} {r : Except Error β} :
    Gave (es ++ [e]) dc n r ↔
      Gave es dc n r ∨ e = .finish dc n r ∨ e = .breakOff dc n ∧ r = .error (.jobAborted dc) := by
  unfold Gave
  simp only [List.mem_append, List.mem_singleton]
  grind

/-- The results that have come are those of the jobs that gave one or went down with their
worker. -/
theorem Run.mem_results_iff_comes (h : Run es m) {n : Nat} {r : Except Error β} :
    (n, r) ∈ m.results ↔ ∃ dc, Comes es dc n r := by
  induction h with
  | nil => simp [Comes, Gave, Lost]
  | @snoc es m e m' h hs ih =>
    cases he : e.isCrash with
    | false =>
      have hno : ∀ dc, .crash dc n ∈ es ++ [e] ↔ .crash dc n ∈ es := by
        intro dc
        rw [List.mem_append, List.mem_singleton, or_iff_left]
        rintro rfl
        cases he
      rw [hs.results_eq he, List.mem_append, ih, Option.mem_toList, yields?_eq_some]
      simp only [Comes, Gave.snoc_iff, Step.lost_iff h hs he, hno]
      grind
    | true =>
      cases hs with
      | @crash d k hr =>
        have hlost : ∀ dc, Lost (es ++ [.crash d k]) dc n ↔
            Lost es dc n ∨ d = dc ∧ n ∈ m.queue.pending dc :=
          fun dc => Step.lost_crash h (.crash hr)
        simp only [List.mem_append, ih, Comes, Gave.snoc_iff, hlost, aborted, List.mem_map,
          List.mem_cons, reduceCtorEq, Event.crash.injEq]
        grind
      | _ => cases he

/-- Something comes for the caller of a job that has ended or was lost. -/
theorem exists_comes {dc : String} {n : Nat} (hend : n ∈ endedJobs es dc ∨ Lost es dc n) :
    ∃ r, Comes es dc n r := by
  rcases hend with hend | hlost
  · obtain ⟨e, he, hends⟩ := mem_endedJobs.mp hend
    cases e with
    | finish d k r =>
      obtain ⟨rfl, rfl⟩ : d = dc ∧ k = n := by simpa [Event.ends?] using hends
      exact ⟨r, .inl (.inl he)⟩
    | breakOff d k =>
      obtain ⟨rfl, rfl⟩ : d = dc ∧ k = n := by simpa [Event.ends?] using hends
      exact ⟨_, .inl (.inr ⟨he, rfl⟩)⟩
    | crash d k =>
      obtain ⟨rfl, rfl⟩ : d = dc ∧ k = n := by simpa [Event.ends?] using hends
      exact ⟨_, .inr ⟨.inl he, rfl⟩⟩
    | _ => cases hends
  · exact ⟨_, .inr ⟨.inr hlost, rfl⟩⟩

theorem Run.accepted_of_comes (h : Run es m) {dc : String} {n : Nat} {r : Except Error β}
    (hr : Comes es dc n r) : .accept dc n ∈ es := by
  rcases hr with hgave | ⟨hcrash | hlost, -⟩
  · exact h.accepted_of_start (h.started_of_end hgave.mem_endedJobs)
  · exact h.accepted_of_start (h.started_of_end (mem_endedJobs.mpr ⟨_, hcrash, if_pos rfl⟩))
  · exact hlost.1

/-- A caller has one result to get. -/
theorem Run.comes_unique (h : Run es m) {dc dc' : String} {n : Nat} {r r' : Except Error β}
    (hr : Comes es dc n r) (hr' : Comes es dc' n r') : r = r' := by
  obtain rfl := h.datacenter_unique (h.accepted_of_comes hr) (h.accepted_of_comes hr')
  have hnot : ∀ {s : Except Error β}, Gave es dc n s →
      ¬(.crash dc n ∈ es ∨ Lost es dc n) := by
    rintro s hgave (hcrash | hlost)
    · rcases hgave with he | ⟨he, -⟩
      · cases h.end_unique he hcrash (if_pos rfl) (if_pos rfl)
      · cases h.end_unique he hcrash (if_pos rfl) (if_pos rfl)
    · exact hlost.2.1 (mem_startedJobs.mp (h.started_of_end hgave.mem_endedJobs))
  rcases hr with hgave | ⟨hdown, rfl⟩ <;> rcases hr' with hgave' | ⟨hdown', rfl⟩
  · exact (h.gave_unique hgave hgave').2
  · exact absurd hdown' (hnot hgave)
  · exact absurd hdown (hnot hgave')
  · rfl

theorem Run.comes_of_answer (h : Run es m) {dc : String} {n : Nat} {r : Except Error β}
    (hn : .accept dc n ∈ es) (hr : .answer n r ∈ es) : Comes es dc n r := by
  obtain ⟨d, hcomes⟩ := h.mem_results_iff_comes.mp (h.mem_results_of_answer hr)
  obtain rfl := h.datacenter_unique (h.accepted_of_comes hcomes) hn
  exact hcomes

/-! ## How far the harm goes -/

/-- A job that waits can start once nothing runs for its datacenter. -/
theorem Step.exists_start {dc : String} (hr : m.queue.running? dc = none)
    (hp : m.queue.pending dc ≠ []) : ∃ n m', Step m (.start dc n) m' := by
  cases hpending : m.queue.pending dc with
  | nil => exact absurd hpending hp
  | cons n rest =>
    obtain ⟨q, hq⟩ := JobQueue.exists_start? hr hpending
    exact ⟨n, _, .start hq⟩

/-- While the queues are open, jobs that break off harm others only by taking a worker down.
* A datacenter refuses jobs just when its worker has gone down.
* An accepted job that was not lost waits, runs or has ended, and is in one of these places once;
  one that was lost is in none.
* What waits can start once nothing runs. When nothing waits or runs for a datacenter, each of its
  jobs that was not lost has started and ended once.
* A caller gets what its own job returned; or that the job was aborted, just when it broke off, took
  its worker down or was lost.
* A caller that has not left has its result, or can have it, once its job has ended or was lost. -/
theorem harm_of_crash {es : List (Event β)} {m : Manager β} (h : Run es m) (hopen : .close ∉ es) :
    (∀ fs gs dc r, es = fs ++ .refuse dc r :: gs → r = .managerClosed ∧ ∃ j, .crash dc j ∈ fs) ∧
    (∀ dc, (∃ r m', Step m (.refuse dc r) m') ↔ ∃ j, .crash dc j ∈ es) ∧
    (∀ dc n, .accept dc n ∈ es →
      (¬Lost es dc n → (m.queue.pending dc).count n + (m.queue.running? dc).toList.count n +
          (endedJobs es dc).count n = 1) ∧
        (Lost es dc n → n ∉ m.queue.pending dc ∧ m.queue.running? dc ≠ some n ∧
          n ∉ endedJobs es dc)) ∧
    (∀ dc, m.queue.running? dc = none →
      (m.queue.pending dc ≠ [] → ∃ n m', Step m (.start dc n) m') ∧
        (m.queue.pending dc = [] → ∀ n, .accept dc n ∈ es → ¬Lost es dc n →
          (startedJobs es dc).count n = 1 ∧ (endedJobs es dc).count n = 1)) ∧
    (∀ dc n r, .accept dc n ∈ es → .answer n r ∈ es →
      .finish dc n r ∈ es ∨
        (.breakOff dc n ∈ es ∨ .crash dc n ∈ es ∨ Lost es dc n) ∧ r = .error (.jobAborted dc) ∧
          ∀ r', .finish dc n r' ∉ es) ∧
    ∀ dc n, (n ∈ endedJobs es dc ∨ Lost es dc n) → .leave n ∉ es →
      ∃ r, .answer n r ∈ es ∨ ∃ m', Step m (.answer n r) m' := by
  refine ⟨?refused, fun dc => h.refuses_iff hopen, fun dc n hn => h.count_place_eq hn,
    fun dc hr => ⟨Step.exists_start hr, ?drained⟩, ?answer, ?ready⟩
  case refused =>
    rintro fs gs dc r rfl
    obtain ⟨m₁, m₂, h₁, hs⟩ := h.step_of_append
    have hopen₁ : .close ∉ fs := fun hmem => hopen (List.mem_append_left _ hmem)
    refine ⟨?_, (h₁.refuses_iff hopen₁).mp ⟨r, m₂, hs⟩⟩
    cases hs with
    | refuse hq => exact (JobQueue.enqueue_error hq).1
  case drained =>
    intro hp n hn hlost
    have hplace := (h.count_place_eq hn).1 hlost
    rw [hp, hr] at hplace
    have hended : (endedJobs es dc).count n = 1 := by simpa using hplace
    exact ⟨by rw [h.count_startedJobs, hr, hended]; rfl, hended⟩
  case answer =>
    intro dc n r hn hr
    have hcomes := h.comes_of_answer hn hr
    by_cases hf : ∃ r', .finish dc n r' ∈ es
    · obtain ⟨r', hf⟩ := hf
      obtain rfl := h.comes_unique hcomes (.inl (.inl hf))
      exact .inl hf
    · rcases hcomes with (hf' | ⟨hb, rfl⟩) | ⟨hdown, rfl⟩
      · exact absurd ⟨r, hf'⟩ hf
      · exact .inr ⟨.inl hb, rfl, not_exists.mp hf⟩
      · exact .inr ⟨.inr hdown, rfl, not_exists.mp hf⟩
  case ready =>
    intro dc n hend hstay
    obtain ⟨r, hcomes⟩ := exists_comes hend
    refine ⟨r, h.answered_or_ready_of_mem (h.mem_results_iff_comes.mpr ⟨dc, hcomes⟩) ?_ hstay⟩
    intro r' hmem
    obtain ⟨d, hcomes'⟩ := h.mem_results_iff_comes.mp hmem
    exact h.comes_unique hcomes' hcomes

/-- A job takes its worker down: the job behind it is lost and aborted, the next one is refused, and
that of another datacenter is done. -/
theorem harm_of_crash_lost :
    let es : List (Event Nat) := [.accept "a" 0, .accept "a" 1, .accept "b" 2, .start "a" 0,
      .crash "a" 0, .answer 1 (.error (.jobAborted "a")), .refuse "a" .managerClosed, .start "b" 2,
      .finish "b" 2 (.ok 7)]
    ∃ m, Run es m ∧ .close ∉ es ∧ Lost es "a" 1 ∧ 1 ∉ endedJobs es "a" ∧
      ∃ r, .answer 2 r ∈ es ∨ ∃ m', Step m (.answer 2 r) m' := by
  intro es
  have hrun : Run es _ :=
    .snoc (.snoc (.snoc (.snoc (.snoc (.snoc (.snoc (.snoc (.snoc .nil (.accept rfl)) (.accept rfl))
      (.accept rfl)) (.start rfl)) (.crash rfl)) (.answer rfl (by decide))) (.refuse rfl))
      (.start rfl)) (.finish rfl)
  have hopen : .close ∉ es := by simp [es]
  have hlost : Lost es "a" 1 := ⟨by simp [es], by simp [es], 0, by simp [es]⟩
  obtain ⟨-, -, hplace, -, -, hready⟩ := harm_of_crash hrun hopen
  exact ⟨_, hrun, hopen, hlost, ((hplace "a" 1 hlost.1).2 hlost).2.2,
    hready "b" 2 (.inl (by simp [es, endedJobs, Event.ends?])) (by simp [es])⟩

/-- A job that breaks off harms another one of its datacenter and those that come later: the job
behind it never runs, though its caller is told that it was aborted, and the next one is refused by
queues that are open. -/
theorem exists_crash_harm :
    ∃ (es : List (Event Nat)) (m : Manager Nat), Run es m ∧ .close ∉ es ∧ m.queue.closed = false ∧
      (.accept "a" 1 ∈ es ∧ .start "a" 1 ∉ es ∧ m.queue.pending "a" = [] ∧
        m.queue.running? "a" = none ∧ .answer 1 (.error (.jobAborted "a")) ∈ es) ∧
      .refuse "a" .managerClosed ∈ es := by
  let es : List (Event Nat) := [.accept "a" 0, .accept "a" 1, .start "a" 0, .crash "a" 0,
    .answer 1 (.error (.jobAborted "a")), .refuse "a" .managerClosed]
  have hrun : Run es _ :=
    .snoc (.snoc (.snoc (.snoc (.snoc (.snoc .nil (.accept rfl)) (.accept rfl)) (.start rfl))
      (.crash rfl)) (.answer rfl (by decide))) (.refuse rfl)
  exact ⟨es, _, hrun, by simp [es], rfl, ⟨by simp [es], by simp [es], rfl, rfl, by simp [es]⟩,
    by simp [es]⟩

end ComputePlane.Manager
