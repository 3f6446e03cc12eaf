import ComputePlane.Proofs.Provisioning.Interleaving
import ComputePlane.Provisioning.Script

/-!
# Scripts as uses of the job queues

Whatever a script does to the job queues can be done by callers and jobs: at any time there is a run
of the queues that leads to the queues, the accepted jobs and the results of the script
(`exists_run_moves`).
-/

namespace ComputePlane

/-! ## Queues of other jobs -/

def Worker.map {α β : Type} (f : α → β) (w : Worker α) : Worker β :=
  ⟨w.datacenter, w.pending.map f, w.running.map f, w.crashed⟩

namespace JobQueue

variable {α β : Type} {f : α → β} {q q' : JobQueue α} {dc : String} {a : α}

theorem map_datacenter_map (f : α → β) (ws : List (Worker α)) :
    (ws.map (Worker.map f)).map (·.datacenter) = ws.map (·.datacenter) := by
  rw [List.map_map]
  rfl

def map (f : α → β) (q : JobQueue α) : JobQueue β where
  closed := q.closed
  workers := q.workers.map (Worker.map f)
  senders := q.senders
  handles := q.handles
  nodup := (map_datacenter_map f q.workers).symm ▸ q.nodup
  senders_eq := (map_datacenter_map f q.workers).symm ▸ q.senders_eq
  handles_eq := (map_datacenter_map f q.workers).symm ▸ q.handles_eq

theorem worker?_map (f : α → β) (q : JobQueue α) (dc : String) :
    (q.map f).worker? dc = (q.worker? dc).map (Worker.map f) := by
  unfold worker? map
  rw [List.find?_map]
  rfl

theorem map_update (f : α → β) (q : JobQueue α) (dc : String) {g : Worker α → Worker α}
    {k : Worker β → Worker β}
    (h : ∀ w, (g w).map f = k (w.map f)) : (q.update dc g).map f = (q.map f).update dc k := by
  unfold map update updateWorkers
  simp only [List.map_map, mk.injEq, true_and, and_true]
  refine List.map_congr_left fun w _ => ?_
  have hdc : (w.map f).datacenter = w.datacenter := rfl
  dsimp only [Function.comp_apply]
  by_cases hw : w.datacenter = dc
  · rw [if_pos hw, if_pos (hdc.trans hw), ← h]
    rfl
  · rw [if_neg hw, if_neg (hdc ▸ hw)]

theorem map_opened (f : α → β) (h : q.closed = false) (dc : String) :
    (q.opened dc h).map f = (q.map f).opened dc h := by
  unfold opened
  by_cases hdc : dc ∈ q.senders
  · rw [dif_pos hdc, dif_pos (show dc ∈ (q.map f).senders from hdc)]
  · rw [dif_neg hdc, dif_neg (show dc ∉ (q.map f).senders from hdc)]
    simp [map, Worker.map, Worker.fresh]

theorem running?_map (f : α → β) (q : JobQueue α) (dc : String) :
    (q.map f).running? dc = (q.running? dc).map f := by
  unfold running?
  rw [worker?_map]
  cases q.worker? dc <;> rfl

theorem pending_map (f : α → β) (q : JobQueue α) (dc : String) :
    (q.map f).pending dc = (q.pending dc).map f := by
  unfold pending
  rw [worker?_map]
  cases q.worker? dc <;> rfl

theorem isCrashed_map (f : α → β) (q : JobQueue α) (dc : String) :
    (q.map f).isCrashed dc = q.isCrashed dc := by
  unfold isCrashed
  rw [worker?_map]
  cases q.worker? dc <;> rfl

theorem enqueue_map (h : q.enqueue dc a = .ok q') :
    (q.map f).enqueue dc (f a) = .ok (q'.map f) := by
  obtain ⟨hopen, hup, rfl⟩ := enqueue_eq_ok h
  have hpush := map_update f (q.opened dc hopen) dc (g := (·.push a)) (k := (·.push (f a)))
    fun w => by simp [Worker.map, Worker.push]
  have hopen' : ¬(q.map f).closed = true := Bool.eq_false_iff.mp hopen
  unfold enqueue
  rw [dif_neg hopen', hpush, map_opened]
  simp only [isCrashed_opened, isCrashed_map]
  exact if_neg (Bool.eq_false_iff.mp hup)

theorem start?_map (h : q.start? dc = some (a, q')) :
    (q.map f).start? dc = some (f a, q'.map f) := by
  obtain ⟨w, rest, hw, hr, hp, rfl⟩ := start?_eq_some h
  have hupdate := map_update f q dc
    (g := fun _ => { w with pending := rest, running := some a })
    (k := fun _ => ⟨w.datacenter, rest.map f, some (f a), w.crashed⟩) fun _ => rfl
  rw [hupdate]
  unfold start?
  simp [worker?_map, hw, Worker.start?, Worker.map, hr, hp]

theorem map_finish (f : α → β) (q : JobQueue α) (dc : String) :
    (q.finish dc).map f = (q.map f).finish dc :=
  map_update f q dc fun _ => rfl

theorem map_crash (f : α → β) (q : JobQueue α) (dc : String) :
    (q.crash dc).map f = (q.map f).crash dc :=
  map_update f q dc fun _ => rfl

end JobQueue

namespace Provisioning

/-! ## Attainable queues -/

/-- Callers and jobs can bring the job queues to this point, and each job waits or runs for its own
datacenter. -/
structure Attainable (queue : JobQueue Ticket) (tickets : Nat)
    (results : List (Nat × Except Error String)) : Prop where
  placed : ∀ dc t, t ∈ queue.pending dc ∨ queue.running? dc = some t → t.job.datacenter = dc
  reached : ∃ (es : List (Manager.Event String)) (m : Manager String), Manager.Run es m ∧
    m.queue = queue.map Ticket.number ∧ m.accepted = tickets ∧ m.results = results

namespace Attainable

variable {q q' : JobQueue Ticket} {n : Nat} {rs : List (Nat × Except Error String)} {dc : String}
  {t : Ticket}

theorem empty : Attainable .empty 0 [] where
  placed dc t h := by simp at h
  reached := ⟨[], {}, .nil, rfl, rfl, rfl⟩

theorem enqueue (h : Attainable q n rs) (ht : t.number = n)
    (henq : q.enqueue t.job.datacenter t = .ok q') : Attainable q' (n + 1) rs where
  placed dc u hu := by
    rw [JobQueue.pending_enqueue henq, JobQueue.running?_enqueue henq, List.mem_append] at hu
    rcases hu with (hu | hu) | hu
    · exact h.placed dc u (.inl hu)
    · split at hu
      · next hdc =>
        obtain rfl := List.mem_singleton.mp hu
        exact hdc
      · cases hu
    · exact h.placed dc u (.inr hu)
  reached := by
    obtain ⟨es, m, hrun, hqueue, hacc, hres⟩ := h.reached
    have hstep : m.queue.enqueue t.job.datacenter m.accepted = .ok (q'.map Ticket.number) := by
      rw [hqueue, hacc, ← ht]
      exact JobQueue.enqueue_map henq
    exact ⟨_, _, hrun.snoc (.accept hstep), rfl, by rw [hacc], hres⟩

theorem start (h : Attainable q n rs) (hs : q.start? dc = some (t, q')) : Attainable q' n rs where
  placed dc' u hu := by
    have hpending := JobQueue.pending_start hs
    rw [JobQueue.running?_start hs] at hu
    rcases hu with hu | hu
    · exact h.placed dc' u (.inl (by rw [hpending]; exact List.mem_append_right _ hu))
    · split at hu
      · next hdc =>
        cases hu
        exact h.placed dc' t (.inl (by rw [hpending, if_pos hdc]; exact List.mem_cons_self))
      · exact h.placed dc' u (.inr hu)
  reached := by
    obtain ⟨es, m, hrun, hqueue, hacc, hres⟩ := h.reached
    have hstep : m.queue.start? dc = some (t.number, q'.map Ticket.number) := by
      rw [hqueue]
      exact JobQueue.start?_map hs
    exact ⟨_, _, hrun.snoc (.start hstep), rfl, hacc, hres⟩

theorem running?_number (hrunning : q.running? dc = some t) {m : Manager String}
    (hqueue : m.queue = q.map Ticket.number) : m.queue.running? dc = some t.number := by
  rw [hqueue, JobQueue.running?_map, hrunning]
  rfl

theorem placed_finish (h : Attainable q n rs) (dc dc' : String) (u : Ticket)
    (hu : u ∈ (q.finish dc).pending dc' ∨ (q.finish dc).running? dc' = some u) :
    u.job.datacenter = dc' := by
  rw [JobQueue.pending_finish, JobQueue.running?_finish] at hu
  rcases hu with hu | hu
  · exact h.placed dc' u (.inl hu)
  · split at hu
    · cases hu
    · exact h.placed dc' u (.inr hu)

theorem finish (h : Attainable q n rs) (hrunning : q.running? dc = some t)
    (result : Except Error String) :
    Attainable (q.finish dc) n (rs ++ [(t.number, result)]) where
  placed := h.placed_finish dc
  reached := by
    obtain ⟨es, m, hrun, hqueue, hacc, hres⟩ := h.reached
    have hstep := running?_number hrunning hqueue
    exact ⟨_, _, hrun.snoc (.finish hstep), by rw [hqueue, JobQueue.map_finish], hacc, by rw [hres]⟩

theorem breakOff (h : Attainable q n rs) (hrunning : q.running? dc = some t) :
    Attainable (q.finish dc) n (rs ++ [(t.number, .error (.jobAborted dc))]) where
  placed := h.placed_finish dc
  reached := by
    obtain ⟨es, m, hrun, hqueue, hacc, hres⟩ := h.reached
    have hstep := running?_number hrunning hqueue
    exact ⟨_, _, hrun.snoc (.breakOff hstep), by rw [hqueue, JobQueue.map_finish], hacc,
      by rw [hres]; rfl⟩

theorem crash (h : Attainable q n rs) (hrunning : q.running? dc = some t) :
    Attainable (q.crash dc) n
      (rs ++ (t :: q.pending dc).map fun u => (u.number, .error (.jobAborted dc))) where
  placed dc' u hu := by
    rw [JobQueue.pending_crash, JobQueue.running?_crash] at hu
    by_cases hdc : dc = dc'
    · simp [hdc] at hu
    · rw [if_neg hdc, if_neg hdc] at hu
      exact h.placed dc' u hu
  reached := by
    obtain ⟨es, m, hrun, hqueue, hacc, hres⟩ := h.reached
    have hstep := running?_number hrunning hqueue
    refine ⟨_, _, hrun.snoc (.crash hstep), by rw [hqueue, JobQueue.map_crash], hacc, ?_⟩
    simp [hres, hqueue, JobQueue.pending_map, Manager.aborted]

theorem close (h : Attainable q n rs) (hopen : q.closed = false) : Attainable q.close n rs where
  placed := h.placed
  reached := by
    obtain ⟨es, m, hrun, hqueue, hacc, hres⟩ := h.reached
    have hstep : m.queue.closed = false := by rwa [hqueue]
    exact ⟨_, _, hrun.snoc (.close hstep), by rw [hqueue]; rfl, hacc, hres⟩

end Attainable

/-! ## Scripts -/

namespace Run

/-- Callers and jobs can bring the job queues to where a script has them. -/
def IsAttainable (r : Run) : Prop := Attainable r.queue r.tickets r.results

variable {r : Run}

theorem IsAttainable.finishJob (h : r.IsAttainable) {t : Ticket}
    (hrunning : r.queue.running? t.job.datacenter = some t) : (r.finishJob t).IsAttainable := by
  unfold Run.finishJob
  dsimp only
  split
  · exact Attainable.finish h hrunning _
  · exact Attainable.breakOff h hrunning

theorem foldl_answer (result : Except Error String) (ts : List Ticket) (r : Run) :
    ts.foldl (fun r t => r.answer t result) r =
      { r with results := r.results ++ ts.map fun t => (t.number, result) } := by
  induction ts generalizing r with
  | nil => simp
  | cons t ts ih =>
    rw [List.foldl_cons, ih]
    simp [answer]

theorem IsAttainable.crashJob (h : r.IsAttainable) {t : Ticket}
    (hrunning : r.queue.running? t.job.datacenter = some t) : (r.crashJob t).IsAttainable := by
  unfold Run.crashJob
  dsimp only
  rw [foldl_answer]
  exact Attainable.crash h hrunning

theorem IsAttainable.serve (h : r.IsAttainable) (dc : String) (count : Nat) :
    (r.serve dc count).IsAttainable := by
  induction count generalizing r with
  | zero => exact h
  | succ count ih =>
    unfold Run.serve
    split
    · exact h
    · next t q hstart =>
      have h' : ({ r with queue := q }.note t "start").IsAttainable := Attainable.start h hstart
      have hrunning : ({ r with queue := q }.note t "start").queue.running? dc = some t := by
        rw [note, JobQueue.running?_start hstart, if_pos rfl]
      obtain rfl := h'.placed dc t (.inr hrunning)
      dsimp only
      split
      · exact h'.crashJob hrunning
      · exact ih (h'.finishJob hrunning)
      · exact h'

theorem IsAttainable.wakeScript (h : r.IsAttainable) : r.wakeScript.IsAttainable := by
  unfold Run.wakeScript
  split
  · exact h
  · exact h
  · split <;> exact h

theorem IsAttainable.runWorker (h : r.IsAttainable) (dc : String) :
    (r.runWorker dc).IsAttainable := by
  unfold Run.runWorker
  dsimp only
  refine (IsAttainable.serve ?_ dc _).wakeScript
  split
  · next t hrunning =>
    obtain rfl := h.placed dc t (.inr hrunning)
    exact h.finishJob hrunning
  · exact h

theorem IsAttainable.submit (h : r.IsAttainable) {job : Job} {t : Ticket} {r' : Run}
    (hs : r.submit job = .ok (t, r')) : r'.IsAttainable := by
  unfold Run.submit at hs
  cases henq : r.queue.enqueue job.datacenter ⟨r.tickets, job⟩ with
  | error e => simp [henq] at hs
  | ok q =>
    simp only [henq] at hs
    cases hs
    exact Attainable.enqueue (t := ⟨r.tickets, job⟩) h rfl henq

theorem IsAttainable.await (h : r.IsAttainable) (b : Blocked) : (r.await b).IsAttainable := by
  unfold Run.await
  split <;> exact h

theorem IsAttainable.beginStep (h : r.IsAttainable) (s : Step) :
    (r.beginStep s).IsAttainable := by
  unfold Run.beginStep
  split
  · split
    · next hs =>
      have h' := h.submit hs
      exact h'
    · exact h
  · split
    · next hs =>
      have h' := h.submit hs
      exact h'
    · exact h
  · split
    · next hs =>
      have h' := h.submit hs
      exact h'
    · exact h
  · exact h
  · exact h
  · split
    · exact h
    · next hopen =>
      exact IsAttainable.await (r := { r with queue := r.queue.close })
        (Attainable.close h (by simpa using hopen)) _
  · dsimp only
    split
    · exact h.await _
    · exact h.await _

theorem IsAttainable.runSteps (h : r.IsAttainable) (steps : List Step) :
    (r.runSteps steps).IsAttainable := by
  induction steps generalizing r with
  | nil => exact h
  | cons s rest ih =>
    unfold Run.runSteps
    dsimp only
    split
    · exact h.beginStep s
    · exact ih (h.beginStep s)

theorem IsAttainable.runScript (h : r.IsAttainable) : r.runScript.IsAttainable := by
  unfold Run.runScript
  split
  · exact h.runSteps _
  · split
    · exact h
    · exact IsAttainable.runSteps (r := { r.finishStep _ with submitted := _ }) h _

theorem IsAttainable.fire (h : r.IsAttainable) : r.fire.IsAttainable := by
  unfold Run.fire
  split <;> exact h

theorem IsAttainable.move (h : r.IsAttainable) : r.move.IsAttainable := by
  unfold Run.move
  split
  · exact h.fire
  · next rest _ => exact IsAttainable.runScript (r := { r with ready := rest }) h
  · next dc rest _ => exact IsAttainable.runWorker (r := { r with ready := rest }) h dc

/-- At any time in a script, a run of the job queues leads to its queues, the number of jobs it has
had accepted, and their results. -/
theorem exists_run_moves (steps : List Step) (n : Nat) :
    ∃ (es : List (Manager.Event String)) (m : Manager String), Manager.Run es m ∧
      m.queue = ((start steps).moves n).queue.map Ticket.number ∧
      m.accepted = ((start steps).moves n).tickets ∧
      m.results = ((start steps).moves n).results := by
  suffices hmoves : ∀ r : Run, r.IsAttainable → (r.moves n).IsAttainable from
    (hmoves (start steps) Attainable.empty).reached
  induction n with
  | zero => exact fun r h => h
  | succ n ih => exact fun r h => ih r.move h.move

end Run

end Provisioning

end ComputePlane
