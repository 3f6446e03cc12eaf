import Mathlib.Data.List.Pairwise
import ComputePlane.Proofs.Provisioning.Interleaving

/-!
# The order of jobs

The jobs of a datacenter start in the order in which they were accepted, and each of them ends
before the next one starts (`jobs_in_turn`).

Two equations carry this through every run. The jobs accepted for a datacenter are those that have
started, followed by those that wait, followed by those that were lost with its worker
(`Run.acceptedJobs_eq`). The jobs that have started are those that have ended, followed by the one
that runs (`Run.startedJobs_eq`).
-/

namespace ComputePlane.Manager

variable {β : Type}

/-! ## What a history tells of a datacenter -/

/-- The jobs accepted for a datacenter, in order. -/
def acceptedJobs (es : List (Event β)) (dc : String) : List Nat :=
  es.filterMap (Event.accepts? dc)

def startedJobs (es : List (Event β)) (dc : String) : List Nat :=
  es.filterMap (Event.starts? dc)

/-- The jobs of a datacenter that ended, in order. -/
def endedJobs (es : List (Event β)) (dc : String) : List Nat :=
  es.filterMap (Event.ends? dc)

/-- A job of a datacenter has started and not ended. -/
def Executing (es : List (Event β)) (dc : String) (n : Nat) : Prop :=
  .start dc n ∈ es ∧ ∀ e ∈ es, e.ends? dc ≠ some n

theorem acceptedJobs_snoc (es : List (Event β)) (e : Event β) (dc : String) :
    acceptedJobs (es ++ [e]) dc = acceptedJobs es dc ++ (e.accepts? dc).toList := by
  unfold acceptedJobs
  rw [List.filterMap_append]
  cases h : e.accepts? dc <;> simp [h]

theorem startedJobs_snoc (es : List (Event β)) (e : Event β) (dc : String) :
    startedJobs (es ++ [e]) dc = startedJobs es dc ++ (e.starts? dc).toList := by
  unfold startedJobs
  rw [List.filterMap_append]
  cases h : e.starts? dc <;> simp [h]

theorem endedJobs_snoc (es : List (Event β)) (e : Event β) (dc : String) :
    endedJobs (es ++ [e]) dc = endedJobs es dc ++ (e.ends? dc).toList := by
  unfold endedJobs
  rw [List.filterMap_append]
  cases h : e.ends? dc <;> simp [h]

theorem accepts?_eq_some {e : Event β} {dc : String} {n : Nat} :
    e.accepts? dc = some n ↔ e = .accept dc n := by
  cases e <;> simp [Event.accepts?]

theorem starts?_eq_some {e : Event β} {dc : String} {n : Nat} :
    e.starts? dc = some n ↔ e = .start dc n := by
  cases e <;> simp [Event.starts?]

theorem mem_acceptedJobs {es : List (Event β)} {dc : String} {n : Nat} :
    n ∈ acceptedJobs es dc ↔ .accept dc n ∈ es := by
  simp [acceptedJobs, List.mem_filterMap, accepts?_eq_some]

theorem mem_startedJobs {es : List (Event β)} {dc : String} {n : Nat} :
    n ∈ startedJobs es dc ↔ .start dc n ∈ es := by
  simp [startedJobs, List.mem_filterMap, starts?_eq_some]

theorem mem_endedJobs {es : List (Event β)} {dc : String} {n : Nat} :
    n ∈ endedJobs es dc ↔ ∃ e ∈ es, e.ends? dc = some n :=
  List.mem_filterMap

variable {es : List (Event β)} {m m' : Manager β} {e : Event β}

/-! ## One step -/

/-- A start puts a job into the place that an end has left. -/
theorem Step.running?_eq (hs : Step m e m') (dc : String) :
    (m.queue.running? dc).toList ++ (e.starts? dc).toList =
      (e.ends? dc).toList ++ (m'.queue.running? dc).toList := by
  cases hs with
  | accept h => simp [Event.starts?, Event.ends?, JobQueue.running?_enqueue h]
  | @start d n q h =>
    have hnone := JobQueue.running?_of_start h
    by_cases hd : d = dc
    · subst hd
      simp [Event.starts?, Event.ends?, hnone, JobQueue.running?_start h]
    · simp [Event.starts?, Event.ends?, JobQueue.running?_start h, hd]
  | @finish d n r h =>
    by_cases hd : d = dc
    · subst hd
      simp [Event.starts?, Event.ends?, h, JobQueue.running?_finish]
    · simp [Event.starts?, Event.ends?, JobQueue.running?_finish, hd]
  | @breakOff d n h =>
    by_cases hd : d = dc
    · subst hd
      simp [Event.starts?, Event.ends?, h, JobQueue.running?_finish]
    · simp [Event.starts?, Event.ends?, JobQueue.running?_finish, hd]
  | @crash d n h =>
    by_cases hd : d = dc
    · subst hd
      simp [Event.starts?, Event.ends?, h, JobQueue.running?_crash]
    · simp [Event.starts?, Event.ends?, JobQueue.running?_crash, hd]
  | _ => simp [Event.starts?, Event.ends?]

/-- Unless its worker goes down, a queue gains the accepted job at its end and loses the started one
at its front. -/
theorem Step.pending_eq (hs : Step m e m') {dc : String} (hc : ∀ n, e ≠ .crash dc n) :
    m.queue.pending dc ++ (e.accepts? dc).toList =
      (e.starts? dc).toList ++ m'.queue.pending dc := by
  cases hs with
  | @accept d q h =>
    by_cases hd : d = dc <;>
      simp [Event.accepts?, Event.starts?, JobQueue.pending_enqueue h, hd]
  | @start d n q h =>
    by_cases hd : d = dc <;>
      simp [Event.accepts?, Event.starts?, JobQueue.pending_start h dc, hd]
  | @crash d n h =>
    have hd : d ≠ dc := fun hd => hc n (hd ▸ rfl)
    simp [Event.accepts?, Event.starts?, JobQueue.pending_crash, hd]
  | _ => simp [Event.accepts?, Event.starts?]

/-- A job is accepted only while the worker is up. -/
theorem Step.up_of_accepts (hs : Step m e m') {dc : String} {n : Nat}
    (he : e.accepts? dc = some n) : m.queue.isCrashed dc = false := by
  obtain rfl := accepts?_eq_some.mp he
  cases hs with
  | accept hq => exact Bool.eq_false_iff.mpr (JobQueue.enqueue_eq_ok_iff.mp ⟨_, hq⟩).2

/-- A worker that is down stays down. -/
theorem Step.isCrashed_of (hs : Step m e m') {dc : String} (h : m.queue.isCrashed dc = true) :
    m'.queue.isCrashed dc = true := by
  cases hs with
  | accept hq => rwa [JobQueue.isCrashed_enqueue hq]
  | start hq => rwa [JobQueue.isCrashed_start hq]
  | crash hr =>
    rw [JobQueue.isCrashed_crash hr]
    split <;> trivial
  | _ => simpa using h

/-! ## Runs -/

/-- The numbers given out so far are those below `accepted`. -/
theorem Run.lt_accepted (h : Run es m) {dc : String} {n : Nat} (hn : .accept dc n ∈ es) :
    n < m.accepted := by
  induction h with
  | nil => simp at hn
  | snoc h hs ih =>
    rw [List.mem_append, List.mem_singleton] at hn
    rcases hn with hn | rfl
    · have hlt := ih hn
      cases hs <;> first | exact hlt | exact Nat.lt_succ_of_lt hlt
    · cases hs
      exact Nat.lt_succ_self _

/-- No number is given out twice. -/
theorem Run.nodup_acceptedJobs (h : Run es m) (dc : String) : (acceptedJobs es dc).Nodup := by
  induction h with
  | nil => exact List.nodup_nil
  | @snoc es m e m' h hs ih =>
    rw [acceptedJobs_snoc]
    cases he : e.accepts? dc with
    | none => simpa using ih
    | some n =>
      obtain rfl := accepts?_eq_some.mp he
      cases hs
      have hnew : ∀ a ∈ acceptedJobs es dc, a ≠ m.accepted := fun a ha =>
        Nat.ne_of_lt (h.lt_accepted (mem_acceptedJobs.mp ha))
      simpa [List.nodup_append] using ⟨ih, hnew⟩

/-- The jobs that have started are those that have ended and the one that runs. -/
theorem Run.startedJobs_eq (h : Run es m) (dc : String) :
    startedJobs es dc = endedJobs es dc ++ (m.queue.running? dc).toList := by
  induction h with
  | nil => rfl
  | snoc h hs ih =>
    rw [startedJobs_snoc, endedJobs_snoc, ih, List.append_assoc, hs.running?_eq, List.append_assoc]

/-- The jobs accepted are those that have started, those that wait, and those that were lost, of
which there are none while the worker is up. -/
theorem Run.acceptedJobs_eq (h : Run es m) (dc : String) :
    ∃ lost, acceptedJobs es dc = startedJobs es dc ++ m.queue.pending dc ++ lost ∧
      (m.queue.isCrashed dc = false → lost = []) := by
  induction h with
  | nil => exact ⟨[], rfl, fun _ => rfl⟩
  | @snoc es m e m' h hs ih =>
    obtain ⟨lost, heq, hlost⟩ := ih
    rw [acceptedJobs_snoc, startedJobs_snoc, heq]
    by_cases hc : ∃ n, e = .crash dc n
    · obtain ⟨n, rfl⟩ := hc
      cases hs with
      | crash hr =>
        refine ⟨m.queue.pending dc ++ lost, ?_, ?_⟩
        · simp [Event.accepts?, Event.starts?, JobQueue.pending_crash]
        · simp [JobQueue.isCrashed_crash hr]
    · have hp := hs.pending_eq fun n hn => hc ⟨n, hn⟩
      refine ⟨lost, ?_, fun hup => hlost (Bool.eq_false_iff.mpr fun hd => ?_)⟩
      · cases he : e.accepts? dc with
        | none =>
          rw [he, Option.toList_none, List.append_nil] at hp
          rw [Option.toList_none, List.append_nil, hp]
          simp only [List.append_assoc]
        | some n =>
          rw [he] at hp
          rw [hlost (hs.up_of_accepts he), List.append_nil, List.append_nil, List.append_assoc, hp,
            List.append_assoc]
      · rw [hs.isCrashed_of hd] at hup
        cases hup

/-- No job starts twice. -/
theorem Run.nodup_startedJobs (h : Run es m) (dc : String) : (startedJobs es dc).Nodup := by
  obtain ⟨lost, heq, -⟩ := h.acceptedJobs_eq dc
  have hn := h.nodup_acceptedJobs dc
  rw [heq, List.append_assoc] at hn
  exact (List.nodup_append.mp hn).1

/-- The job that is executing is the one that the worker runs. -/
theorem Run.executing_iff (h : Run es m) {dc : String} {n : Nat} :
    Executing es dc n ↔ m.queue.running? dc = some n := by
  have heq := h.startedJobs_eq dc
  have hn := h.nodup_startedJobs dc
  have hx : Executing es dc n ↔ n ∈ startedJobs es dc ∧ n ∉ endedJobs es dc := by
    simp [Executing, mem_startedJobs, mem_endedJobs]
  rw [heq] at hn
  rw [hx, heq, List.mem_append, Option.mem_toList]
  constructor
  · rintro ⟨hmem | hmem, hnot⟩
    · exact absurd hmem hnot
    · exact hmem
  · intro hrun
    exact ⟨.inr hrun, fun hmem =>
      (List.nodup_append.mp hn).2.2 n hmem n (Option.mem_toList.mpr hrun) rfl⟩

/-- A number is given to one job of one datacenter. -/
theorem Run.datacenter_unique (h : Run es m) {dc dc' : String} {n : Nat}
    (hn : .accept dc n ∈ es) (hn' : .accept dc' n ∈ es) : dc = dc' := by
  induction h with
  | nil => cases hn
  | snoc h hs ih =>
    rw [List.mem_append, List.mem_singleton] at hn hn'
    rcases hn with hn | rfl <;> rcases hn' with hn' | heq
    · exact ih hn hn'
    · subst heq
      cases hs
      exact absurd (h.lt_accepted hn) (Nat.lt_irrefl _)
    · cases hs
      exact absurd (h.lt_accepted hn') (Nat.lt_irrefl _)
    · cases heq
      rfl

theorem Run.accepted_of_start (h : Run es m) {dc : String} {n : Nat}
    (hn : n ∈ startedJobs es dc) : .accept dc n ∈ es := by
  obtain ⟨lost, heq, -⟩ := h.acceptedJobs_eq dc
  rw [← mem_acceptedJobs, heq]
  simp [hn]

theorem Run.started_of_end (h : Run es m) {dc : String} {n : Nat}
    (hn : n ∈ endedJobs es dc) : n ∈ startedJobs es dc := by
  rw [h.startedJobs_eq dc]
  simp [hn]

theorem Run.end_unique (h : Run es m) {dc : String} {n : Nat} {e₁ e₂ : Event β} (h₁ : e₁ ∈ es)
    (h₂ : e₂ ∈ es) (hn₁ : e₁.ends? dc = some n) (hn₂ : e₂.ends? dc = some n) : e₁ = e₂ := by
  have hnodup := h.nodup_startedJobs dc
  rw [h.startedJobs_eq dc] at hnodup
  have hpair := List.pairwise_filterMap.mp (List.nodup_append.mp hnodup).1
  by_contra hne
  have hsymm : Std.Symm fun e e' : Event β =>
      ∀ b, e.ends? dc = some b → ∀ b', e'.ends? dc = some b' → b ≠ b' :=
    ⟨fun e e' he b hb b' hb' => (he b' hb' b hb).symm⟩
  exact hpair.forall h₁ h₂ hne n hn₁ n hn₂ rfl

/-! ## Jobs in turn -/

/-- A job that starts finds the jobs started before it ended. -/
theorem Run.ended_before_start {fs gs : List (Event β)} {dc : String} {i j : Nat}
    (h : Run (fs ++ .start dc j :: gs) m) (hi : i ∈ startedJobs fs dc) : i ∈ endedJobs fs dc := by
  obtain ⟨m₁, m₂, h₁, hs⟩ := h.step_of_append
  cases hs with
  | start hq =>
    have heq := h₁.startedJobs_eq dc
    rw [JobQueue.running?_of_start hq, Option.toList_none, List.append_nil] at heq
    rwa [heq] at hi

/-- A job that starts finds the jobs accepted before it started. -/
theorem Run.started_before_start {fs gs : List (Event β)} {dc : String} {i j : Nat}
    (h : Run (fs ++ .start dc j :: gs) m)
    (hij : [i, j].Sublist (acceptedJobs (fs ++ .start dc j :: gs) dc)) :
    i ∈ startedJobs fs dc := by
  obtain ⟨lost, heq, -⟩ := h.acceptedJobs_eq dc
  have hsplit : startedJobs (fs ++ .start dc j :: gs) dc =
      startedJobs fs dc ++ j :: startedJobs gs dc := by
    simp [startedJobs, Event.starts?]
  rw [hsplit, List.append_assoc, List.append_assoc, List.cons_append] at heq
  have hn := h.nodup_acceptedJobs dc
  rw [heq] at hij hn
  obtain ⟨l₁, l₂, hl, h₁, h₂⟩ := List.sublist_append_iff.mp hij
  cases l₁ with
  | cons a l₁ =>
    obtain ⟨rfl, -⟩ := List.cons.inj hl
    exact h₁.subset List.mem_cons_self
  | nil =>
    -- both would stand from the second one on, where it stands only once
    obtain rfl : l₂ = [i, j] := hl.symm
    have htail := (List.nodup_append.mp hn).2.1
    rw [List.nodup_cons] at htail
    exact absurd (List.Sublist.tail h₂ |>.subset List.mem_cons_self) htail.1

/-- The jobs of a datacenter take turns. At any time at most one of them is executing, each starts
at most once, and one that was accepted earlier has ended when one that was accepted later starts,
whatever callers, closings and jobs do. -/
theorem jobs_in_turn {es : List (Event β)} {m : Manager β} (h : Run es m) (dc : String) :
    (∀ i j, Executing es dc i → Executing es dc j → i = j) ∧ (startedJobs es dc).Nodup ∧
      ∀ i j, [.accept dc i, .accept dc j].Sublist es → .start dc j ∈ es →
        ∃ e, e.ends? dc = some i ∧ [e, .start dc j].Sublist es := by
  refine ⟨fun i j hi hj => ?_, h.nodup_startedJobs dc, fun i j hij hj => ?_⟩
  · exact Option.some.inj ((h.executing_iff.mp hi).symm.trans (h.executing_iff.mp hj))
  · have hacc : [i, j].Sublist (acceptedJobs es dc) := by
      simpa [acceptedJobs, Event.accepts?] using hij.filterMap (Event.accepts? dc)
    obtain ⟨fs, gs, rfl⟩ := List.append_of_mem hj
    have hi := h.ended_before_start (h.started_before_start hacc)
    obtain ⟨e, he, hend⟩ := mem_endedJobs.mp hi
    refine ⟨e, hend, ?_⟩
    exact (List.singleton_sublist.mpr he).append (List.singleton_sublist.mpr List.mem_cons_self)

/-- Two jobs of one datacenter: the first breaks off while the caller of the second has gone. -/
theorem jobs_in_turn_breakOff :
    let es : List (Event Unit) := [.accept "a" 0, .accept "a" 1, .start "a" 0, .leave 1,
      .breakOff "a" 0, .start "a" 1]
    (∃ m, Run es m) ∧ Executing es "a" 1 ∧
      ∃ e, e.ends? "a" = some 0 ∧ [e, .start "a" 1].Sublist es := by
  intro es
  have hrun : ∃ m, Run es m := ⟨_, .snoc (.snoc (.snoc (.snoc (.snoc (.snoc .nil
    (.accept rfl)) (.accept rfl)) (.start rfl)) (.leave (by decide) (by decide)))
    (.breakOff rfl)) (.start rfl)⟩
  obtain ⟨m, h⟩ := hrun
  have hexec : Executing es "a" 1 := by simp [Executing, es, Event.ends?]
  refine ⟨⟨m, h⟩, hexec, (jobs_in_turn h "a").2.2 0 1 ?_ hexec.1⟩
  simp [es]

end ComputePlane.Manager
