import Mathlib.Data.List.Nodup
import ComputePlane.Provisioning.Queue

/-!
# What each operation does to the job queues

The queues are seen through three functions of a datacenter: the jobs that wait, the job that runs,
and whether the worker was taken down. Each operation has one equation for each of them, and touches
the one datacenter that it is about.
-/

namespace ComputePlane

namespace JobQueue

variable {α : Type} {q q' : JobQueue α} {dc : String} {a : α}

/-! ## Workers -/

theorem datacenter_of_worker? {w : Worker α} (h : q.worker? dc = some w) : w.datacenter = dc := by
  simpa using List.find?_some h

/-- Each datacenter has one worker. -/
theorem worker?_of_mem {w : Worker α} (h : w ∈ q.workers) : q.worker? w.datacenter = some w := by
  obtain ⟨w', hw'⟩ : ∃ w', q.worker? w.datacenter = some w' :=
    Option.isSome_iff_exists.mp (List.find?_isSome.mpr ⟨w, h, by simp⟩)
  have heq : w' = w := List.inj_on_of_nodup_map q.nodup (List.mem_of_find?_eq_some hw') h
    (datacenter_of_worker? hw')
  exact heq ▸ hw'

theorem mem_datacenters : dc ∈ q.datacenters ↔ ∃ w, q.worker? dc = some w := by
  constructor
  · intro h
    obtain ⟨w, hw, rfl⟩ := List.mem_map.mp h
    exact ⟨w, worker?_of_mem hw⟩
  · rintro ⟨w, hw⟩
    exact List.mem_map.mpr ⟨w, List.mem_of_find?_eq_some hw, datacenter_of_worker? hw⟩

@[simp] theorem datacenters_update (q : JobQueue α) (dc : String) (f : Worker α → Worker α) :
    (q.update dc f).datacenters = q.datacenters :=
  map_datacenter_updateWorkers dc f q.workers

theorem worker?_update (q : JobQueue α) (dc : String) (f : Worker α → Worker α) (dc' : String) :
    (q.update dc f).worker? dc' =
      if dc = dc' then (q.worker? dc).map fun w => { f w with datacenter := w.datacenter }
      else q.worker? dc' := by
  unfold worker? update updateWorkers
  rw [List.find?_map]
  have hp : ((fun w : Worker α => decide (w.datacenter = dc')) ∘ fun w =>
      if w.datacenter = dc then { f w with datacenter := w.datacenter } else w) =
      fun w => decide (w.datacenter = dc') := by
    funext w
    by_cases hw : w.datacenter = dc <;> simp [hw]
  rw [hp]
  by_cases h : dc = dc'
  · subst h
    rw [if_pos rfl]
    cases hw : q.workers.find? fun w => decide (w.datacenter = dc) with
    | none => rfl
    | some w =>
      have hdc : w.datacenter = dc := by simpa using List.find?_some hw
      rw [Option.map_some, Option.map_some, if_pos hdc]
  · rw [if_neg h]
    cases hw : q.workers.find? fun w => decide (w.datacenter = dc') with
    | none => rfl
    | some w =>
      have hdc : w.datacenter = dc' := by simpa using List.find?_some hw
      rw [Option.map_some, if_neg fun he => h (he.symm.trans hdc)]

theorem worker?_opened (h : q.closed = false) (dc dc' : String) :
    (q.opened dc h).worker? dc' =
      if dc = dc' then some ((q.worker? dc).getD (.fresh dc)) else q.worker? dc' := by
  unfold opened
  split
  · next hdc =>
    rw [senders_of_open h] at hdc
    obtain ⟨w, hw⟩ := mem_datacenters.mp hdc
    split
    · next heq => rw [← heq, hw, Option.getD_some]
    · rfl
  · next hdc =>
    rw [senders_of_open h, mem_datacenters, ← Option.isSome_iff_exists,
      Option.not_isSome_iff_eq_none] at hdc
    unfold worker? at *
    rw [List.find?_append]
    split
    · next heq =>
      subst heq
      simp [hdc, Worker.fresh]
    · next hne => simp [hne, Worker.fresh]

theorem isCrashed_opened (h : q.closed = false) (dc dc' : String) :
    (q.opened dc h).isCrashed dc' = q.isCrashed dc' := by
  unfold isCrashed
  rw [worker?_opened]
  split
  · next hdc =>
    subst hdc
    cases q.worker? dc <;> rfl
  · rfl

theorem closed_opened (h : q.closed = false) (dc : String) :
    (q.opened dc h).closed = q.closed := by
  unfold opened
  split <;> rfl

/-- A job is accepted by open queues in which its worker was not taken down. -/
theorem enqueue_eq_ok (h : q.enqueue dc a = .ok q') :
    ∃ hopen, q.isCrashed dc = false ∧ q' = (q.opened dc hopen).update dc (·.push a) := by
  unfold enqueue at h
  split at h
  · cases h
  · next hopen =>
    simp only [isCrashed_opened] at h
    split at h
    · cases h
    · next hup =>
      cases h
      exact ⟨Bool.eq_false_iff.mpr hopen, Bool.eq_false_iff.mpr hup, rfl⟩

/-- An accepted job stands at the end of its datacenter's queue, which is made if there was none. -/
theorem worker?_enqueue (h : q.enqueue dc a = .ok q') (dc' : String) :
    q'.worker? dc' =
      if dc = dc' then some (((q.worker? dc).getD (.fresh dc)).push a) else q.worker? dc' := by
  obtain ⟨hopen, -, rfl⟩ := enqueue_eq_ok h
  rw [worker?_update, worker?_opened, worker?_opened, if_pos rfl]
  split <;> rfl

/-- A datacenter takes a job exactly when the queues are open and its worker was not taken down. -/
theorem enqueue_eq_ok_iff :
    (∃ q', q.enqueue dc a = .ok q') ↔ q.closed = false ∧ ¬q.isCrashed dc := by
  constructor
  · rintro ⟨q', h⟩
    obtain ⟨hopen, hup, -⟩ := enqueue_eq_ok h
    exact ⟨hopen, Bool.eq_false_iff.mp hup⟩
  · rintro ⟨hopen, hup⟩
    unfold enqueue
    rw [dif_neg (Bool.eq_false_iff.mp hopen)]
    simp only [isCrashed_opened]
    rw [if_neg hup]
    exact ⟨_, rfl⟩

/-- The only reason not to take a job. -/
theorem enqueue_error {e : Error} (h : q.enqueue dc a = .error e) :
    e = .managerClosed ∧ (q.closed = true ∨ q.isCrashed dc = true) := by
  unfold enqueue at h
  split at h
  · next hclosed =>
    cases h
    exact ⟨rfl, .inl hclosed⟩
  · simp only [isCrashed_opened] at h
    split at h
    · next hdown =>
      cases h
      exact ⟨rfl, .inr hdown⟩
    · cases h

theorem closed_enqueue (h : q.enqueue dc a = .ok q') : q'.closed = q.closed := by
  obtain ⟨hopen, -, rfl⟩ := enqueue_eq_ok h
  exact closed_opened hopen dc

/-- A job starts when nothing runs for its datacenter and it is the first that waits. -/
theorem start?_eq_some (h : q.start? dc = some (a, q')) :
    ∃ w rest, q.worker? dc = some w ∧ w.running = none ∧ w.pending = a :: rest ∧
      q' = q.update dc fun _ => { w with pending := rest, running := some a } := by
  unfold start? Worker.start? at h
  cases hw : q.worker? dc with
  | none => simp [hw] at h
  | some w =>
    obtain ⟨wdc, pending, running, crashed⟩ := w
    cases running with
    | some b => simp [hw] at h
    | none =>
      cases pending with
      | nil => simp [hw] at h
      | cons b rest =>
        simp only [hw, Option.pure_def, Option.bind_eq_bind, Option.bind_some, Option.some.injEq,
          Prod.mk.injEq] at h
        obtain ⟨rfl, rfl⟩ := h
        exact ⟨_, rest, rfl, rfl, rfl, rfl⟩

theorem exists_start? {rest : List α} (hr : q.running? dc = none) (hp : q.pending dc = a :: rest) :
    ∃ q', q.start? dc = some (a, q') := by
  unfold running? at hr
  unfold pending at hp
  unfold start? Worker.start?
  cases hw : q.worker? dc with
  | none => simp [hw] at hp
  | some w =>
    have hrunning : w.running = none := by simpa [hw] using hr
    have hpending : w.pending = a :: rest := by simpa [hw] using hp
    simp [hrunning, hpending]

theorem worker?_start (h : q.start? dc = some (a, q')) :
    ∃ w rest, q.worker? dc = some w ∧ w.running = none ∧ w.pending = a :: rest ∧
      ∀ dc', q'.worker? dc' =
        if dc = dc' then some { w with pending := rest, running := some a } else q.worker? dc' := by
  obtain ⟨w, rest, hw, hr, hp, rfl⟩ := start?_eq_some h
  refine ⟨w, rest, hw, hr, hp, fun dc' => ?_⟩
  rw [worker?_update, hw]
  rfl

theorem closed_start (h : q.start? dc = some (a, q')) : q'.closed = q.closed := by
  obtain ⟨w, rest, -, -, -, rfl⟩ := start?_eq_some h
  rfl

theorem datacenters_start (h : q.start? dc = some (a, q')) : q'.datacenters = q.datacenters := by
  obtain ⟨w, rest, -, -, -, rfl⟩ := start?_eq_some h
  exact datacenters_update ..

theorem worker?_finish (q : JobQueue α) (dc dc' : String) :
    (q.finish dc).worker? dc' =
      if dc = dc' then (q.worker? dc).map Worker.finish else q.worker? dc' :=
  worker?_update q dc Worker.finish dc'

theorem worker?_crash (q : JobQueue α) (dc dc' : String) :
    (q.crash dc).worker? dc' =
      if dc = dc' then (q.worker? dc).map Worker.crash else q.worker? dc' :=
  worker?_update q dc Worker.crash dc'

@[simp] theorem worker?_close (q : JobQueue α) (dc : String) :
    q.close.worker? dc = q.worker? dc := rfl

@[simp] theorem worker?_empty (dc : String) : (empty : JobQueue α).worker? dc = none := rfl

@[simp] theorem closed_finish (q : JobQueue α) (dc : String) :
    (q.finish dc).closed = q.closed := rfl

@[simp] theorem closed_crash (q : JobQueue α) (dc : String) : (q.crash dc).closed = q.closed := rfl

@[simp] theorem closed_close (q : JobQueue α) : q.close.closed = true := rfl

@[simp] theorem datacenters_close (q : JobQueue α) : q.close.datacenters = q.datacenters := rfl

@[simp] theorem closed_empty : (empty : JobQueue α).closed = false := rfl

/-! ## Jobs that wait -/

theorem pending_enqueue (h : q.enqueue dc a = .ok q') (dc' : String) :
    q'.pending dc' = q.pending dc' ++ if dc = dc' then [a] else [] := by
  unfold pending
  rw [worker?_enqueue h]
  by_cases hdc : dc = dc'
  · subst hdc
    cases q.worker? dc <;> simp [Worker.push, Worker.fresh]
  · simp [hdc]

theorem pending_start (h : q.start? dc = some (a, q')) (dc' : String) :
    q.pending dc' = (if dc = dc' then [a] else []) ++ q'.pending dc' := by
  obtain ⟨w, rest, hw, -, hp, hq⟩ := worker?_start h
  unfold pending
  rw [hq]
  by_cases hdc : dc = dc'
  · subst hdc
    simp [hw, hp]
  · simp [hdc]

@[simp] theorem pending_finish (q : JobQueue α) (dc dc' : String) :
    (q.finish dc).pending dc' = q.pending dc' := by
  unfold pending
  rw [worker?_finish]
  by_cases hdc : dc = dc'
  · subst hdc
    cases q.worker? dc <;> simp [Worker.finish]
  · simp [hdc]

theorem pending_crash (q : JobQueue α) (dc dc' : String) :
    (q.crash dc).pending dc' = if dc = dc' then [] else q.pending dc' := by
  unfold pending
  rw [worker?_crash]
  by_cases hdc : dc = dc'
  · subst hdc
    cases q.worker? dc <;> simp [Worker.crash]
  · simp [hdc]

@[simp] theorem pending_close (q : JobQueue α) (dc : String) :
    q.close.pending dc = q.pending dc := rfl

@[simp] theorem pending_empty (dc : String) : (empty : JobQueue α).pending dc = [] := rfl

/-! ## The job that runs -/

theorem running?_enqueue (h : q.enqueue dc a = .ok q') (dc' : String) :
    q'.running? dc' = q.running? dc' := by
  unfold running?
  rw [worker?_enqueue h]
  by_cases hdc : dc = dc'
  · subst hdc
    cases q.worker? dc <;> simp [Worker.push, Worker.fresh]
  · simp [hdc]

theorem running?_of_start (h : q.start? dc = some (a, q')) : q.running? dc = none := by
  obtain ⟨w, rest, hw, hr, -⟩ := worker?_start h
  simp [running?, hw, hr]

theorem running?_start (h : q.start? dc = some (a, q')) (dc' : String) :
    q'.running? dc' = if dc = dc' then some a else q.running? dc' := by
  obtain ⟨w, rest, -, -, -, hq⟩ := worker?_start h
  unfold running?
  rw [hq]
  by_cases hdc : dc = dc' <;> simp [hdc]

theorem running?_finish (q : JobQueue α) (dc dc' : String) :
    (q.finish dc).running? dc' = if dc = dc' then none else q.running? dc' := by
  unfold running?
  rw [worker?_finish]
  by_cases hdc : dc = dc'
  · subst hdc
    cases q.worker? dc <;> simp [Worker.finish]
  · simp [hdc]

theorem running?_crash (q : JobQueue α) (dc dc' : String) :
    (q.crash dc).running? dc' = if dc = dc' then none else q.running? dc' := by
  unfold running?
  rw [worker?_crash]
  by_cases hdc : dc = dc'
  · subst hdc
    cases q.worker? dc <;> simp [Worker.crash]
  · simp [hdc]

@[simp] theorem running?_close (q : JobQueue α) (dc : String) :
    q.close.running? dc = q.running? dc := rfl

@[simp] theorem running?_empty (dc : String) : (empty : JobQueue α).running? dc = none := rfl

/-! ## Workers taken down -/

theorem isCrashed_enqueue (h : q.enqueue dc a = .ok q') (dc' : String) :
    q'.isCrashed dc' = q.isCrashed dc' := by
  unfold isCrashed
  rw [worker?_enqueue h]
  by_cases hdc : dc = dc'
  · subst hdc
    cases q.worker? dc <;> simp [Worker.push, Worker.fresh]
  · simp [hdc]

theorem isCrashed_start (h : q.start? dc = some (a, q')) (dc' : String) :
    q'.isCrashed dc' = q.isCrashed dc' := by
  obtain ⟨w, rest, hw, -, -, hq⟩ := worker?_start h
  unfold isCrashed
  rw [hq]
  by_cases hdc : dc = dc'
  · subst hdc
    simp [hw]
  · simp [hdc]

@[simp] theorem isCrashed_finish (q : JobQueue α) (dc dc' : String) :
    (q.finish dc).isCrashed dc' = q.isCrashed dc' := by
  unfold isCrashed
  rw [worker?_finish]
  by_cases hdc : dc = dc'
  · subst hdc
    cases q.worker? dc <;> simp [Worker.finish]
  · simp [hdc]

theorem isCrashed_crash (h : q.running? dc = some a) (dc' : String) :
    (q.crash dc).isCrashed dc' = if dc = dc' then true else q.isCrashed dc' := by
  unfold isCrashed
  rw [worker?_crash]
  by_cases hdc : dc = dc'
  · subst hdc
    cases hw : q.worker? dc with
    | none => simp [running?, hw] at h
    | some w => simp [Worker.crash]
  · simp [hdc]

@[simp] theorem isCrashed_close (q : JobQueue α) (dc : String) :
    q.close.isCrashed dc = q.isCrashed dc := rfl

@[simp] theorem isCrashed_empty (dc : String) : (empty : JobQueue α).isCrashed dc = false := rfl

/-! ## Idle queues -/

/-- Nothing waits or runs, and every worker is up. -/
structure IsIdle (q : JobQueue α) : Prop where
  pending : ∀ dc, q.pending dc = []
  running? : ∀ dc, q.running? dc = none
  isCrashed : ∀ dc, q.isCrashed dc = false

theorem isIdle_empty : (empty : JobQueue α).IsIdle := ⟨fun _ => rfl, fun _ => rfl, fun _ => rfl⟩

theorem IsIdle.close (h : q.IsIdle) : q.close.IsIdle := ⟨h.pending, h.running?, h.isCrashed⟩

/-- Open queues with nothing to do take a job, start it at once, and have nothing to do again when
it ends. -/
theorem IsIdle.exists_start (h : q.IsIdle) (hopen : q.closed = false) (dc : String) (a : α) :
    ∃ q₁ q₂, q.enqueue dc a = .ok q₁ ∧ q₁.start? dc = some (a, q₂) ∧ (q₂.finish dc).IsIdle ∧
      (q₂.finish dc).closed = false := by
  obtain ⟨q₁, h₁⟩ : ∃ q₁, q.enqueue dc a = .ok q₁ :=
    enqueue_eq_ok_iff.mpr ⟨hopen, Bool.eq_false_iff.mp (h.isCrashed dc)⟩
  have hpending : q₁.pending dc = [a] := by simp [pending_enqueue h₁, h.pending]
  have hrunning : q₁.running? dc = none := by rw [running?_enqueue h₁, h.running?]
  obtain ⟨q₂, h₂⟩ := exists_start? hrunning hpending
  refine ⟨q₁, q₂, h₁, h₂, ⟨fun dc' => ?pending, fun dc' => ?running, fun dc' => ?crashed⟩, ?closed⟩
  case pending =>
    have hstart := pending_start h₂ dc'
    rw [pending_enqueue h₁, h.pending, List.nil_append] at hstart
    rw [pending_finish]
    exact List.append_cancel_left (hstart.symm.trans (List.append_nil _).symm)
  case running =>
    rw [running?_finish, running?_start h₂, running?_enqueue h₁, h.running?]
    by_cases hdc : dc = dc' <;> simp [hdc]
  case crashed => rw [isCrashed_finish, isCrashed_start h₂, isCrashed_enqueue h₁, h.isCrashed]
  case closed => rw [closed_finish, closed_start h₂, closed_enqueue h₁, hopen]

/-! ## Closed queues -/

/-- Jobs can be sent to no worker of closed queues. -/
theorem senders_of_closed (h : q.closed = true) : q.senders = [] := by
  rw [q.senders_eq, if_pos h]

theorem queueCount_of_closed (h : q.closed = true) : q.queueCount = 0 := by
  rw [queueCount, senders_of_closed h, List.length_nil]

theorem enqueue_of_closed (h : q.closed = true) (dc : String) (a : α) :
    q.enqueue dc a = .error .managerClosed :=
  dif_pos h

/-! ## Drained queues -/

theorem isDrained_pending (h : q.isDrained = true) (dc : String) : q.pending dc = [] := by
  unfold pending
  cases hw : q.worker? dc with
  | none => rfl
  | some w =>
    have hidle := List.all_eq_true.mp h w (List.mem_of_find?_eq_some hw)
    simp only [Worker.isIdle, Bool.and_eq_true, List.isEmpty_iff] at hidle
    simp [hidle.1]

theorem isDrained_running? (h : q.isDrained = true) (dc : String) : q.running? dc = none := by
  unfold running?
  cases hw : q.worker? dc with
  | none => rfl
  | some w =>
    have hidle := List.all_eq_true.mp h w (List.mem_of_find?_eq_some hw)
    simp only [Worker.isIdle, Bool.and_eq_true, Option.isNone_iff_eq_none] at hidle
    simp [hidle.2]

/-- A worker that was not taken down has done all its jobs when it ends. So where nothing is left
for the workers that were, the queues are drained when all workers have ended. -/
theorem isDrained_of_haveEnded
    (hdown : ∀ dc, q.isCrashed dc = true → q.pending dc = [] ∧ q.running? dc = none)
    (h : q.haveEnded q.datacenters = true) : q.isDrained = true := by
  refine List.all_eq_true.mpr fun w hw => ?_
  have hworker := worker?_of_mem hw
  have hended := List.all_eq_true.mp h w.datacenter (List.mem_map_of_mem hw)
  rw [hasEnded, hworker, Option.all_some, Bool.or_eq_true] at hended
  rcases hended with hcrashed | hidle
  · have hrest := hdown w.datacenter (by rw [isCrashed, hworker]; exact hcrashed)
    rw [pending, running?, hworker] at hrest
    have hpending : w.pending = [] := hrest.1
    have hrunning : w.running = none := hrest.2
    rw [Worker.isIdle, hpending, hrunning]
    rfl
  · exact (Bool.and_eq_true_iff.mp hidle).1

end JobQueue

end ComputePlane
