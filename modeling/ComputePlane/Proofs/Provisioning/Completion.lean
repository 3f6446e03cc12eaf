import Mathlib.Algebra.Order.Group.Nat
import Mathlib.Data.List.Nodup
import ComputePlane.Proofs.Provisioning.Scripts

/-!
# Scripts come to rest

Each move of a script's run uses up some of its potential (`potential_move`): a step that is begun
pays for the job that it submits, a job that starts for the timer that it sets, and a timer that
fires for whom it wakes. The moves that a run is given are as many as its potential is at first, so
at its end nothing is ready and no timer is set (`atRest_ofSteps`).
-/

namespace ComputePlane

/-! ## Jobs that wait -/

namespace JobQueue

variable {α : Type} {q q' : JobQueue α} {dc : String} {a : α}

/-- The number of jobs that wait. -/
def load (q : JobQueue α) : Nat := (q.workers.flatMap (·.pending)).length

/-- What waits for other datacenters is not touched. -/
theorem load_update {w : Worker α} (hw : q.worker? dc = some w) (f : Worker α → Worker α) :
    (q.update dc f).load + w.pending.length = q.load + (f w).pending.length := by
  obtain ⟨hdc, us, vs, hworkers, -⟩ := List.find?_eq_some_iff_append.mp hw
  have hothers : ∀ v ∈ us ++ vs, v.datacenter ≠ dc := by
    have hnodup := q.nodup
    rw [hworkers, List.map_append, List.map_cons, List.nodup_middle, List.nodup_cons,
      ← List.map_append] at hnodup
    intro v hv heq
    exact hnodup.1 (List.mem_map.mpr ⟨v, hv, heq.trans (of_decide_eq_true hdc).symm⟩)
  have hsame : ∀ xs : List (Worker α), (∀ v ∈ xs, v ∈ us ++ vs) → updateWorkers dc f xs = xs :=
    fun xs hxs =>
      (List.map_congr_left fun v hv => if_neg (hothers v (hxs v hv))).trans (List.map_id xs)
  have hchanged : (q.update dc f).workers =
      us ++ { f w with datacenter := w.datacenter } :: vs := by
    show updateWorkers dc f q.workers = _
    rw [hworkers, updateWorkers, List.map_append, List.map_cons, if_pos (of_decide_eq_true hdc)]
    exact congrArg₂ (· ++ _ :: ·) (hsame us fun v => List.mem_append_left vs)
      (hsame vs fun v => List.mem_append_right us)
  simp only [load, hchanged, hworkers, List.flatMap_append, List.flatMap_cons, List.length_append]
  omega

theorem load_opened (h : q.closed = false) (dc : String) : (q.opened dc h).load = q.load := by
  unfold opened
  split
  · rfl
  · simp [load, Worker.fresh]

theorem load_enqueue (henq : q.enqueue dc a = .ok q') : q'.load = q.load + 1 := by
  obtain ⟨hopen, -, rfl⟩ := enqueue_eq_ok henq
  have hworker := worker?_opened hopen dc dc
  rw [if_pos rfl] at hworker
  have hload := load_update hworker (·.push a)
  have hpush (w : Worker α) : (w.push a).pending.length = w.pending.length + 1 :=
    List.length_append
  rw [load_opened, hpush] at hload
  omega

theorem load_start (hs : q.start? dc = some (a, q')) : q'.load + 1 = q.load := by
  obtain ⟨w, rest, hw, -, hp, rfl⟩ := start?_eq_some hs
  have hload := load_update hw fun _ => { w with pending := rest, running := some a }
  simp only [hp, List.length_cons] at hload
  omega

theorem load_update_le (q : JobQueue α) (dc : String) {f : Worker α → Worker α}
    (hf : ∀ w, (f w).pending.length ≤ w.pending.length) : (q.update dc f).load ≤ q.load := by
  show ((updateWorkers dc f q.workers).flatMap (·.pending)).length ≤ _
  unfold load updateWorkers
  induction q.workers with
  | nil => exact Nat.le_refl _
  | cons w workers ih =>
    have hw : (if w.datacenter = dc then { f w with datacenter := w.datacenter }
        else w).pending.length ≤ w.pending.length := by
      split
      · exact hf w
      · exact Nat.le_refl _
    simp only [List.map_cons, List.flatMap_cons, List.length_append]
    exact Nat.add_le_add hw ih

theorem load_finish_le (q : JobQueue α) (dc : String) : (q.finish dc).load ≤ q.load :=
  load_update_le q dc fun _ => Nat.le_refl _

theorem load_crash_le (q : JobQueue α) (dc : String) : (q.crash dc).load ≤ q.load :=
  load_update_le q dc fun _ => Nat.zero_le _

end JobQueue

namespace Provisioning.Run

variable {r : Run} {dc : String}

/-- Nothing is ready and no timer is set. -/
def AtRest (r : Run) : Prop := r.ready = [] ∧ r.timers = []

theorem moves_succ (r : Run) (n : Nat) : r.moves (n + 1) = (r.moves n).move := by
  induction n generalizing r with
  | zero => rfl
  | succ n ih => exact ih r.move

theorem move_of_atRest (h : r.AtRest) : r.move = r := by
  unfold move fire
  simp [h.1, h.2]

theorem moves_of_atRest (h : r.AtRest) (n : Nat) : r.moves n = r := by
  induction n with
  | zero => rfl
  | succ n ih => rw [moves_succ, ih, move_of_atRest h]

/-! ## The potential -/

/-- What those who are ready, the timers and the waiting jobs are worth. -/
def supply (r : Run) : Nat := 3 * r.ready.length + 4 * r.timers.length + 3 * r.queue.load

/-- A script that waits can be woken. -/
def slumber (r : Run) : Nat := if r.blocked.isSome && !r.ready.contains .script then 2 else 0

/-- What is left for moves to use up. -/
def potential (r : Run) : Nat := 6 * r.steps.length + r.supply + r.slumber

theorem slumber_le (r : Run) : r.slumber ≤ 2 := by
  unfold slumber
  split <;> omega

/-! ## Workers -/

/-- What a worker that goes on leaves alone. No result is taken back. -/
structure Spares (r r' : Run) : Prop where
  now : r'.now = r.now
  steps : r'.steps = r.steps
  ready : r'.ready = r.ready
  blocked : r'.blocked = r.blocked
  tickets : r'.tickets = r.tickets
  closed : r'.queue.closed = r.queue.closed
  results : r.results ⊆ r'.results

variable {r' r'' : Run} {t : Ticket} {q : JobQueue Ticket}

theorem Spares.refl (r : Run) : r.Spares r := ⟨rfl, rfl, rfl, rfl, rfl, rfl, List.Subset.refl _⟩

theorem Spares.trans (h : r.Spares r') (h' : r'.Spares r'') : r.Spares r'' where
  now := h'.now.trans h.now
  steps := h'.steps.trans h.steps
  ready := h'.ready.trans h.ready
  blocked := h'.blocked.trans h.blocked
  tickets := h'.tickets.trans h.tickets
  closed := h'.closed.trans h.closed
  results := List.Subset.trans h.results h'.results

theorem spares_start (hq : r.queue.start? dc = some (t, q)) :
    r.Spares ({ r with queue := q }.note t "start") :=
  ⟨rfl, rfl, rfl, rfl, rfl, JobQueue.closed_start hq, List.Subset.refl _⟩

theorem spares_setTimer (r : Run) (ms : Nat) (a : Actor) : r.Spares (r.setTimer ms a) :=
  ⟨rfl, rfl, rfl, rfl, rfl, rfl, List.Subset.refl _⟩

theorem spares_finishJob (r : Run) (t : Ticket) : r.Spares (r.finishJob t) := by
  unfold finishJob
  dsimp only
  split <;> exact ⟨rfl, rfl, rfl, rfl, rfl, rfl, List.subset_append_left _ _⟩

theorem spares_crashJob (r : Run) (t : Ticket) : r.Spares (r.crashJob t) := by
  unfold crashJob
  dsimp only
  rw [foldl_answer]
  exact ⟨rfl, rfl, rfl, rfl, rfl, rfl, List.subset_append_left _ _⟩

theorem spares_serve (r : Run) (dc : String) (count : Nat) : r.Spares (r.serve dc count) := by
  induction count generalizing r with
  | zero => exact Spares.refl r
  | succ count ih =>
    unfold serve
    split
    · exact Spares.refl r
    · next t q hstart =>
      have hstarted := spares_start hstart
      dsimp only
      split
      · exact hstarted.trans (spares_crashJob _ t)
      · exact (hstarted.trans (spares_finishJob _ t)).trans (ih _)
      · exact hstarted.trans (spares_setTimer _ _ _)

theorem timers_finishJob (r : Run) (t : Ticket) : (r.finishJob t).timers = r.timers := by
  unfold finishJob
  dsimp only
  split <;> rfl

/-- Each timer that a worker sets is for later. -/
theorem mem_timers_serve {count : Nat} {timer : Timer}
    (ht : timer ∈ (r.serve dc count).timers) : timer ∈ r.timers ∨ r.now < timer.time := by
  induction count generalizing r with
  | zero => exact .inl ht
  | succ count ih =>
    unfold serve at ht
    split at ht
    · exact .inl ht
    · next t q hstart =>
      dsimp only at ht
      split at ht
      · unfold crashJob at ht
        dsimp only at ht
        rw [foldl_answer] at ht
        exact .inl ht
      · have hlater := ih ht
        rwa [timers_finishJob, (spares_finishJob _ t).now] at hlater
      · next hlong =>
        rcases List.mem_append.mp ht with ht | ht
        · exact .inl ht
        · obtain rfl := List.mem_singleton.mp ht
          have hlong : t.job.duration ≠ 0 := hlong
          refine .inr ?_
          show r.now < r.now + t.job.duration
          omega

/-- A script that is woken becomes ready. -/
theorem exists_wakeScript_eq (r : Run) : ∃ ready, r.wakeScript = { r with ready := ready } := by
  unfold wakeScript
  split
  · exact ⟨r.ready, rfl⟩
  · exact ⟨r.ready, rfl⟩
  · split
    · exact ⟨_, rfl⟩
    · exact ⟨r.ready, rfl⟩

/-- A worker that goes on may wake the script, and leaves it alone otherwise. -/
theorem exists_runWorker_eq (r : Run) (dc : String) :
    ∃ r' ready, r.runWorker dc = { r' with ready := ready } ∧ r.Spares r' ∧
      ∀ timer ∈ r'.timers, timer ∈ r.timers ∨ r.now < timer.time := by
  unfold runWorker
  dsimp only
  split
  · next t _ =>
    have hspares := spares_finishJob r t
    obtain ⟨ready, heq⟩ := exists_wakeScript_eq
      ((r.finishJob t).serve dc ((r.finishJob t).queue.pending dc).length)
    refine ⟨_, ready, heq, hspares.trans (spares_serve _ dc _), fun timer ht => ?_⟩
    have hlater := mem_timers_serve ht
    rwa [timers_finishJob, hspares.now] at hlater
  · obtain ⟨ready, heq⟩ := exists_wakeScript_eq (r.serve dc (r.queue.pending dc).length)
    exact ⟨_, ready, heq, spares_serve r dc _, fun timer => mem_timers_serve⟩

theorem steps_runWorker (r : Run) (dc : String) : (r.runWorker dc).steps = r.steps := by
  obtain ⟨r', ready, heq, hspares, -⟩ := exists_runWorker_eq r dc
  rw [heq]
  exact hspares.steps

theorem supply_finishJob_le (r : Run) (t : Ticket) : (r.finishJob t).supply ≤ r.supply := by
  have hload := r.queue.load_finish_le t.job.datacenter
  unfold finishJob
  dsimp only
  split <;> exact Nat.add_le_add_left (Nat.mul_le_mul_left 3 hload) _

theorem supply_crashJob_le (r : Run) (t : Ticket) : (r.crashJob t).supply ≤ r.supply := by
  have hload := r.queue.load_crash_le t.job.datacenter
  unfold crashJob
  dsimp only
  rw [foldl_answer]
  exact Nat.add_le_add_left (Nat.mul_le_mul_left 3 hload) _

/-- A worker that goes on sets one timer at most, for a job that waits no more. -/
theorem supply_serve_le (h : r.IsAttainable) (dc : String) (count : Nat) :
    (r.serve dc count).supply ≤ r.supply + 1 := by
  induction count generalizing r with
  | zero => exact Nat.le_succ _
  | succ count ih =>
    unfold serve
    split
    · exact Nat.le_succ _
    · next t q hstart =>
      have h' : ({ r with queue := q }.note t "start").IsAttainable := Attainable.start h hstart
      have hrunning : q.running? dc = some t := by rw [JobQueue.running?_start hstart, if_pos rfl]
      have hload := JobQueue.load_start hstart
      have hstarted : ({ r with queue := q }.note t "start").supply + 3 = r.supply := by
        show 3 * r.ready.length + 4 * r.timers.length + 3 * q.load + 3 = _
        unfold supply
        omega
      obtain rfl := h'.placed dc t (.inr hrunning)
      dsimp only
      split
      · have hsupply := supply_crashJob_le ({ r with queue := q }.note t "start") t
        omega
      · have hsupply := supply_finishJob_le ({ r with queue := q }.note t "start") t
        have hserve := ih (h'.finishJob hrunning)
        omega
      · show 3 * r.ready.length + 4 * (r.timers ++ [_]).length + 3 * q.load ≤ _
        unfold supply
        rw [List.length_append, List.length_singleton]
        omega

/-- To be woken, the script gives up its slumber. -/
theorem potential_wakeScript_le (r : Run) : r.wakeScript.potential ≤ r.potential + 1 := by
  unfold wakeScript
  split
  · omega
  · omega
  · next b hb _ =>
    split
    · next hwake =>
      have hasleep : r.ready.contains .script = false := by
        simpa using (Bool.and_eq_true_iff.mp hwake).2
      have hbefore : r.slumber = 2 := by
        unfold slumber
        rw [hasleep, ‹r.blocked = some b›]
        rfl
      have hafter : ({ r with ready := r.ready ++ [.script] } : Run).slumber = 0 := by
        simp [slumber]
      simp only [potential, hbefore, hafter, supply, List.length_append, List.length_singleton]
      omega
    · omega

theorem potential_runWorker_le (h : r.IsAttainable) (dc : String) :
    (r.runWorker dc).potential ≤ r.potential + 2 := by
  have hserve : ∀ r' : Run, r'.IsAttainable → r.Spares r' → r'.supply ≤ r.supply →
      ((r'.serve dc (r'.queue.pending dc).length).wakeScript).potential ≤ r.potential + 2 := by
    intro r' h' hspares hsupply
    have hspares := hspares.trans (spares_serve r' dc (r'.queue.pending dc).length)
    have hserve := supply_serve_le h' dc (r'.queue.pending dc).length
    refine (potential_wakeScript_le _).trans ?_
    simp only [potential, slumber, hspares.steps, hspares.ready, hspares.blocked]
    omega
  unfold runWorker
  dsimp only
  split
  · next t hrunning =>
    obtain rfl := h.placed dc t (.inr hrunning)
    exact hserve _ (h.finishJob hrunning) (spares_finishJob r t) (supply_finishJob_le r t)
  · exact hserve r h (Spares.refl r) (Nat.le_refl _)

/-! ## The script -/

theorem supply_submit_le {job : Job} {t : Ticket} {r' : Run}
    (hs : r.submit job = .ok (t, r')) : r'.supply ≤ r.supply + 6 := by
  unfold submit at hs
  cases henq : r.queue.enqueue job.datacenter ⟨r.tickets, job⟩ with
  | error e => simp [henq] at hs
  | ok q =>
    have hload := JobQueue.load_enqueue henq
    simp only [henq] at hs
    cases hs
    simp only [supply]
    split
    · simp only [List.length_append, List.length_singleton]
      omega
    · omega

theorem supply_beginStep_le (r : Run) (s : Step) : (r.beginStep s).supply ≤ r.supply + 6 := by
  have hawait : ∀ (r : Run) (b : Blocked), (r.await b).supply = r.supply := by
    intro r b
    unfold await
    split <;> rfl
  cases s with
  | run job | submit job | abandon job =>
    unfold beginStep
    dsimp only
    split
    · next hs =>
      have hsubmit := supply_submit_le hs
      exact hsubmit
    · exact Nat.le_add_right _ _
  | sleep ms =>
    cases ms with
    | zero => exact Nat.le_add_right _ _
    | succ ms =>
      show 3 * r.ready.length + 4 * (r.timers ++ [_]).length + 3 * r.queue.load ≤ _
      unfold supply
      rw [List.length_append, List.length_singleton]
      omega
  | close =>
    unfold beginStep
    dsimp only
    split
    · exact Nat.le_add_right _ _
    · rw [hawait]
      exact Nat.le_add_right _ _
  | join =>
    unfold beginStep
    dsimp only
    split
    · exact (hawait r _).trans_le (Nat.le_add_right _ _)
    · exact (hawait r _).trans_le (Nat.le_add_right _ _)

theorem potential_runSteps_le (r : Run) (steps : List Step) :
    (r.runSteps steps).potential ≤ 6 * steps.length + r.supply + 2 := by
  induction steps generalizing r with
  | nil => exact Nat.add_le_add_left (slumber_le _) _
  | cons s rest ih =>
    have hbegin := supply_beginStep_le r s
    unfold runSteps
    dsimp only
    split
    · refine (Nat.add_le_add_left (slumber_le _) _).trans ?_
      show 6 * rest.length + (r.beginStep s).supply + 2 ≤ 6 * (rest.length + 1) + r.supply + 2
      omega
    · refine (ih (r.beginStep s)).trans ?_
      show 6 * rest.length + (r.beginStep s).supply + 2 ≤ 6 * (rest.length + 1) + r.supply + 2
      omega

theorem potential_runScript_le (r : Run) :
    r.runScript.potential ≤ 6 * r.steps.length + r.supply + 2 := by
  unfold runScript
  split
  · exact potential_runSteps_le r _
  · split
    · exact Nat.add_le_add_left (slumber_le r) _
    · exact potential_runSteps_le { r.finishStep _ with submitted := _ } _

/-! ## Moves -/

/-- A timer that fires wakes one actor. -/
theorem potential_fire_lt (hready : r.ready = []) (htimers : r.timers ≠ []) :
    r.fire.potential < r.potential := by
  unfold fire
  split
  · next hnone =>
    exact absurd (List.map_eq_nil_iff.mp (List.min?_eq_none_iff.mp hnone)) htimers
  · next t hmin =>
    obtain ⟨first, hfirst, htime⟩ := List.mem_map.mp (List.min?_mem hmin)
    have hfired : 0 < (r.timers.filter (·.time = t)).length :=
      List.length_pos_of_mem (List.mem_filter.mpr ⟨hfirst, by simpa using htime⟩)
    have hcount := List.length_eq_length_filter_add (l := r.timers) (·.time = t)
    have hactors := List.length_eq_length_filter_add
      (l := (r.timers.filter (·.time = t)).map (·.actor)) (· = .script)
    have hslumber : ∀ ready : List Actor,
        ({ r with ready := ready } : Run).slumber ≤ r.slumber := by
      intro ready
      simp only [slumber, hready]
      split
      · next h => simp [(Bool.and_eq_true_iff.mp h).1]
      · exact Nat.zero_le _
    have hasleep := hslumber (((r.timers.filter (·.time = t)).map (·.actor)).filter (· = .script) ++
      ((r.timers.filter (·.time = t)).map (·.actor)).filter (· ≠ .script))
    simp only [slumber] at hasleep
    simp only [List.length_map] at hactors
    simp only [potential, supply, slumber, hready, List.length_append, List.length_nil,
      decide_not] at hasleep ⊢
    omega

/-- A move uses up some of the potential. -/
theorem potential_move (h : r.IsAttainable) (hbusy : ¬r.AtRest) :
    r.move.potential < r.potential := by
  unfold move
  split
  · next hready => exact potential_fire_lt hready fun htimers => hbusy ⟨hready, htimers⟩
  · next rest hready =>
    have hscript := potential_runScript_le { r with ready := rest }
    refine Nat.lt_of_le_of_lt hscript ?_
    simp only [potential, supply, hready, List.length_cons]
    omega
  · next dc rest hready =>
    have hworker := potential_runWorker_le (r := { r with ready := rest }) h dc
    refine Nat.lt_of_le_of_lt hworker ?_
    simp only [potential, supply, slumber, hready, List.length_cons]
    simp
    omega

/-- A run comes to rest within as many moves as it has potential. -/
theorem atRest_moves {n : Nat} (h : r.IsAttainable) (hn : r.potential ≤ n) :
    (r.moves n).AtRest := by
  induction n generalizing r with
  | zero =>
    by_contra hbusy
    have hlt := potential_move h hbusy
    omega
  | succ n ih =>
    by_cases hrest : r.AtRest
    · rwa [moves_of_atRest hrest]
    · have hlt := potential_move h hrest
      exact ih h.move (by omega)

/-- The moves that a script's run is given bring it to rest. -/
theorem atRest_ofSteps (steps : List Step) : (ofSteps steps).AtRest := by
  refine atRest_moves Attainable.empty ?_
  show 6 * steps.length + (3 * 1 + 4 * 0 + 3 * 0) + (start steps).slumber ≤ _
  have hslumber := slumber_le (start steps)
  omega

end Provisioning.Run

end ComputePlane
