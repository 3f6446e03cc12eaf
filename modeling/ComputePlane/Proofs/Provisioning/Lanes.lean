import ComputePlane.Proofs.Provisioning.Completion
import ComputePlane.Proofs.Provisioning.Timeline

/-!
# The lane of a datacenter

All that a run shows of a datacenter is its `View`: the queue, whether the worker is ready, its
timers, and what its jobs noted. The `Lane` of the datacenter says how the view comes from the jobs
that were accepted for it. Some are done, in turn. Then either the worker is free, and the others
start now, or a job runs whose timer tells when it ends.

A worker that goes on (`HasLane.runWorker`), a job that is accepted (`HasLane.enter`) and the clock
(`HasLane.fire`) keep the lane. What happens for other datacenters does not show in the view.
-/

namespace ComputePlane.Provisioning

/-! ## Views -/

/-- What a run shows of a datacenter: its queue, how often its worker is ready, the times of its
timers, and what its jobs noted. -/
structure View where
  running : Option Ticket
  pending : List Ticket
  crashed : Bool
  calls : Nat
  alarms : List Nat
  events : List Event

namespace Run

variable {r : Run} {dc dc' : String} {t : Ticket} {q : JobQueue Ticket}

def view (r : Run) (dc : String) : View where
  running := r.queue.running? dc
  pending := r.queue.pending dc
  crashed := r.queue.isCrashed dc
  calls := r.ready.count (.worker dc)
  alarms := (r.timers.filter (·.actor = .worker dc)).map (·.time)
  events := r.events.filter (·.datacenter = dc)

/-- A job that runs ends with its outcome. -/
theorem finishJob_eq (r : Run) (t : Ticket) :
    r.finishJob t =
      ({ r.note t "end" with queue := r.queue.finish t.job.datacenter }).answer t
        t.job.outcome := by
  unfold finishJob Job.outcome
  cases t.job.ending <;> rfl

theorem events_note (r : Run) (t : Ticket) (what : String) (dc : String) :
    (r.note t what).events.filter (·.datacenter = dc) = r.events.filter (·.datacenter = dc) ++
      if t.job.datacenter = dc then [⟨r.now, dc, t.job.name ++ " " ++ what⟩] else [] := by
  unfold note
  rw [List.filter_append]
  split
  · next h => simp [h]
  · next h => simp [h]

theorem view_note_of_ne (h : t.job.datacenter ≠ dc) (what : String) :
    (r.note t what).view dc = r.view dc := by
  have hevents := events_note r t what dc
  rw [if_neg h, List.append_nil] at hevents
  unfold view
  rw [hevents]
  rfl

theorem view_finishJob_of_ne (h : t.job.datacenter ≠ dc) : (r.finishJob t).view dc = r.view dc := by
  rw [finishJob_eq]
  show ({ r.note t "end" with queue := r.queue.finish t.job.datacenter } : Run).view dc = _
  have hnote := view_note_of_ne (r := r) h "end"
  unfold view at hnote ⊢
  simp only [JobQueue.running?_finish, JobQueue.pending_finish, JobQueue.isCrashed_finish, if_neg h]
  exact hnote

theorem view_crashJob_of_ne (h : t.job.datacenter ≠ dc)
    (hrunning : r.queue.running? t.job.datacenter = some t) :
    (r.crashJob t).view dc = r.view dc := by
  unfold crashJob
  dsimp only
  rw [foldl_answer]
  unfold view
  simp only [JobQueue.running?_crash, JobQueue.pending_crash, JobQueue.isCrashed_crash hrunning,
    if_neg h]

theorem view_wakeScript (r : Run) (dc : String) : r.wakeScript.view dc = r.view dc := by
  unfold wakeScript
  split
  · rfl
  · rfl
  · split
    · simp [view]
    · rfl

/-- A worker that goes on does not show in the view of another datacenter. -/
theorem view_serve_of_ne (h : r.IsAttainable) (hne : dc' ≠ dc) (count : Nat) :
    (r.serve dc' count).view dc = r.view dc := by
  induction count generalizing r with
  | zero => rfl
  | succ count ih =>
    unfold serve
    split
    · rfl
    · next t q hstart =>
      have h' : ({ r with queue := q }.note t "start").IsAttainable := Attainable.start h hstart
      have hrunning : q.running? dc' = some t := by rw [JobQueue.running?_start hstart, if_pos rfl]
      obtain rfl := h'.placed dc' t (.inr hrunning)
      have hsame : ({ r with queue := q }.note t "start").view dc = r.view dc := by
        have hpending := JobQueue.pending_start hstart dc
        rw [if_neg hne, List.nil_append] at hpending
        rw [view_note_of_ne hne]
        unfold view
        simp only [JobQueue.running?_start hstart, JobQueue.isCrashed_start hstart, hpending,
          if_neg hne]
      dsimp only
      split
      · exact (view_crashJob_of_ne hne hrunning).trans hsame
      · exact (ih (h'.finishJob hrunning)).trans ((view_finishJob_of_ne hne).trans hsame)
      · rw [← hsame]
        have hactor : Actor.worker t.job.datacenter ≠ .worker dc := fun heq => by
          cases heq
          exact hne rfl
        simp [view, setTimer, hactor]

/-- A job that gets to run takes its time. -/
theorem serve_succ (hq : r.queue.start? dc = some (t, q)) (hcalm : t.job.ending.isCalm = true)
    (count : Nat) : r.serve dc (count + 1) =
      if t.job.duration = 0 then
        (({ r with queue := q }.note t "start").finishJob t).serve dc count
      else ({ r with queue := q }.note t "start").setTimer t.job.duration (.worker dc) := by
  have hending : t.job.ending ≠ .breaksAtStart := by
    intro heq
    rw [heq] at hcalm
    cases hcalm
  rw [serve, hq]
  dsimp only
  split
  · next h => exact absurd h hending
  · next hzero _ => rw [if_pos hzero]
  · next hlong => rw [if_neg hlong]

end Run

/-! ## Lanes -/

/-- The ticket of an accepted job. -/
def ticket (p : Submission × Nat) : Ticket := ⟨p.2, p.1.job⟩

/-- The submission of a job that has started. -/
def entered (p : Slot × Nat) : Submission × Nat := (p.1.submission, p.2)

variable {now : Nat} {v : View} {results : List (Nat × Except Error String)}
  {done : List (Slot × Nat)} {p : Slot × Nat} {rest : List (Submission × Nat)}

/-- The jobs that have come to their end have done so in turn, and their results have come. -/
structure Done (now : Nat) (results : List (Nat × Except Error String))
    (done : List (Slot × Nat)) : Prop where
  inTurn : InTurn 0 (done.map (·.1))
  ended : lastFinish 0 (done.map (·.1)) ≤ now
  outcome : ∀ p ∈ done, (p.2, p.1.submission.job.outcome) ∈ results

/-- No job runs after those that are done. The first of the rest is to start now. -/
structure Free (now : Nat) (v : View) (results : List (Nat × Except Error String))
    (done : List (Slot × Nat)) (rest : List (Submission × Nat)) : Prop where
  past : Done now results done
  running : v.running = none
  pending : v.pending = rest.map ticket
  up : v.crashed = false
  alarms : v.alarms = []
  events : v.events = (done.map (·.1)).flatMap Slot.events
  due : ∀ p ∈ rest.head?, max p.1.time (lastFinish 0 (done.map (·.1))) = now
  arrived : ∀ p ∈ rest, p.1.time ≤ now

/-- A job runs after those that are done. -/
structure Busy (now : Nat) (v : View) (results : List (Nat × Except Error String))
    (done : List (Slot × Nat)) (p : Slot × Nat) (rest : List (Submission × Nat)) : Prop where
  past : Done now results done
  running : v.running = some (ticket (entered p))
  pending : v.pending = rest.map ticket
  up : v.crashed = false
  events : v.events = (done.map (·.1)).flatMap Slot.events ++ p.1.events.take 1
  inTurn : InTurn 0 ((done ++ [p]).map (·.1))
  started : p.1.start ≤ now
  arrived : ∀ p ∈ rest, p.1.time ≤ now

/-- How the view of a datacenter comes from the jobs that were accepted for it. -/
inductive Lane (now : Nat) (v : View) (results : List (Nat × Except Error String)) :
    List (Submission × Nat) → Prop where
  | free {done : List (Slot × Nat)} {rest : List (Submission × Nat)}
      (h : Free now v results done rest) (hcalls : v.calls = if rest = [] then 0 else 1) :
      Lane now v results (done.map entered ++ rest)
  | busy {done : List (Slot × Nat)} {p : Slot × Nat} {rest : List (Submission × Nat)}
      (h : Busy now v results done p rest)
      (hcalls : now < p.1.finish ∧ v.alarms = [p.1.finish] ∧ v.calls = 0 ∨
        now = p.1.finish ∧ v.alarms = [] ∧ v.calls = 1) :
      Lane now v results (done.map entered ++ entered p :: rest)

theorem Done.mono {later : Nat} {results' : List (Nat × Except Error String)}
    (h : Done now results done) (hnow : now ≤ later) (hresults : results ⊆ results') :
    Done later results' done :=
  ⟨h.inTurn, h.ended.trans hnow, fun p hp => hresults (h.outcome p hp)⟩

/-- Results of other jobs change nothing. -/
theorem Lane.mono {results' : List (Nat × Except Error String)} {H : List (Submission × Nat)}
    (h : Lane now v results H) (hresults : results ⊆ results') : Lane now v results' H := by
  cases h with
  | free h hcalls =>
    exact .free { h with past := h.past.mono (Nat.le_refl _) hresults } hcalls
  | busy h hcalls =>
    exact .busy { h with past := h.past.mono (Nat.le_refl _) hresults } hcalls

variable {r : Run} {dc : String} {q : JobQueue Ticket} {s : Submission × Nat}
  {H : List (Submission × Nat)}

/-- The jobs accepted for a datacenter have led to what a run shows of it. -/
def Run.HasLane (r : Run) (dc : String) (H : List (Submission × Nat)) : Prop :=
  Lane r.now (r.view dc) r.results H

/-! ## The worker -/

theorem Free.start (h : Free r.now (r.view dc) r.results done (s :: rest))
    (hdc : s.1.job.datacenter = dc) (hq : r.queue.start? dc = some (ticket s, q)) :
    Busy r.now (({ r with queue := q }.note (ticket s) "start").view dc) r.results done
      (⟨s.1, r.now, r.now + s.1.job.duration⟩, s.2) rest where
  past := h.past
  running := by
    show q.running? dc = _
    rw [JobQueue.running?_start hq, if_pos rfl]
    rfl
  pending := by
    have hpending := JobQueue.pending_start hq dc
    rw [if_pos rfl, show r.queue.pending dc = _ from h.pending, List.map_cons] at hpending
    exact (List.cons.inj hpending).2.symm
  up := (JobQueue.isCrashed_start hq dc).trans h.up
  events := by
    show ({ r with queue := q }.note (ticket s) "start").events.filter _ = _
    rw [Run.events_note, if_pos (show (ticket s).job.datacenter = dc from hdc)]
    subst hdc
    exact congrArg (· ++ _) h.events
  inTurn := by
    rw [List.map_append]
    exact inTurn_snoc.mpr ⟨h.past.inTurn, (h.due s rfl).symm, rfl⟩
  started := Nat.le_refl _
  arrived p hp := h.arrived p (List.mem_cons_of_mem _ hp)

theorem Busy.finish (h : Busy r.now (r.view dc) r.results done p rest)
    (hdc : p.1.submission.job.datacenter = dc) (halarms : (r.view dc).alarms = [])
    (hnow : r.now = p.1.finish) :
    Free (r.finishJob (ticket (entered p))).now
      ((r.finishJob (ticket (entered p))).view dc)
      (r.finishJob (ticket (entered p))).results (done ++ [p]) rest := by
  rw [Run.finishJob_eq]
  have hlast : lastFinish 0 ((done ++ [p]).map (·.1)) = r.now := by
    rw [List.map_append, hnow]
    exact lastFinish_snoc ..
  have hpending := h.pending
  refine ⟨⟨h.inTurn, hlast.le, ?outcome⟩, ?running, ?pending, ?up, halarms, ?events, ?due,
    h.arrived⟩
  case outcome =>
    intro p' hp'
    rcases List.mem_append.mp hp' with hp' | hp'
    · exact List.mem_append_left _ (h.past.outcome p' hp')
    · obtain rfl := List.mem_singleton.mp hp'
      exact List.mem_append_right _ (List.mem_singleton.mpr rfl)
  case running =>
    show (r.queue.finish p.1.submission.job.datacenter).running? dc = none
    rw [JobQueue.running?_finish, if_pos hdc]
  case pending =>
    show (r.queue.finish p.1.submission.job.datacenter).pending dc = _
    rw [JobQueue.pending_finish]
    exact h.pending
  case up =>
    show (r.queue.finish p.1.submission.job.datacenter).isCrashed dc = _
    rw [JobQueue.isCrashed_finish]
    exact h.up
  case events =>
    show (r.note (ticket (entered p)) "end").events.filter _ = _
    have hevents : r.events.filter (·.datacenter = dc) = _ := h.events
    rw [Run.events_note, if_pos (show (ticket (entered p)).job.datacenter = dc from hdc), hevents,
      List.map_append, List.flatMap_append, List.append_assoc, hnow]
    subst hdc
    rfl
  case due =>
    intro s hs
    have hs : s ∈ rest := List.mem_of_mem_head? hs
    rw [hlast]
    exact max_eq_right (h.arrived s hs)

/-- A worker that is free runs the jobs that wait until one takes time. -/
theorem Free.serve (h : Free r.now (r.view dc) r.results done rest)
    (hcalls : (r.view dc).calls = 0)
    (hjobs : ∀ s ∈ rest, s.1.job.datacenter = dc ∧ s.1.job.ending.isCalm = true) :
    (r.serve dc rest.length).HasLane dc (done.map entered ++ rest) := by
  induction rest generalizing r done with
  | nil => exact .free h hcalls
  | cons s rest ih =>
    obtain ⟨hdc, hcalm⟩ := hjobs s List.mem_cons_self
    obtain ⟨q, hq⟩ := JobQueue.exists_start? h.running h.pending
    have hbusy := h.start hdc hq
    rw [List.length_cons, Run.serve_succ hq hcalm]
    split
    · next hzero =>
      have hzero : s.1.job.duration = 0 := hzero
      have hfree := Busy.finish (r := { r with queue := q }.note (ticket s) "start") hbusy hdc
        h.alarms (by rw [hzero]; rfl)
      have hcalls' : ((({ r with queue := q }.note (ticket s) "start").finishJob
          (ticket s)).view dc).calls = 0 := by
        rw [Run.finishJob_eq]
        exact hcalls
      have hlane := ih hfree hcalls' fun s' hs' => hjobs s' (List.mem_cons_of_mem _ hs')
      simpa [entered] using hlane
    · next hlong =>
      have hlong : s.1.job.duration ≠ 0 := hlong
      refine @Lane.busy _ _ _ done (⟨s.1, r.now, r.now + s.1.job.duration⟩, s.2) rest
        { hbusy with } (.inl ⟨?_, ?_, hcalls⟩)
      · show r.now < r.now + s.1.job.duration
        omega
      · have halarms : (r.timers.filter (·.actor = .worker dc)).map (·.time) = [] := h.alarms
        show ((r.timers ++ [(⟨r.now + s.1.job.duration, .worker dc⟩ : Timer)]).filter _).map _ = _
        rw [List.filter_append, List.map_append, halarms]
        simp

namespace Run

variable {dc' : String} {t : Ticket} {r' : Run}

theorem HasLane.congr (h : r.HasLane dc H) (hnow : r'.now = r.now)
    (hview : r'.view dc = r.view dc) (hresults : r.results ⊆ r'.results) : r'.HasLane dc H := by
  unfold HasLane
  rw [hnow, hview]
  exact h.mono hresults

theorem HasLane.wakeScript (h : r.HasLane dc H) : r.wakeScript.HasLane dc H := by
  have hview := view_wakeScript r dc
  obtain ⟨ready, heq⟩ := exists_wakeScript_eq r
  rw [heq] at hview ⊢
  exact h.congr rfl hview (List.Subset.refl _)

theorem HasLane.runWorker (h : r.HasLane dc H) {tail : List Actor}
    (hready : r.ready = .worker dc :: tail)
    (hjobs : ∀ s ∈ H, s.1.job.datacenter = dc ∧ s.1.job.ending.isCalm = true) :
    (({ r with ready := tail }).runWorker dc).HasLane dc H := by
  have hcount : (r.view dc).calls = tail.count (.worker dc) + 1 := by
    show r.ready.count _ = _
    rw [hready, List.count_cons_self]
  cases h with
  | @free done rest h hcalls =>
    have hnone : tail.count (.worker dc) = 0 := by
      rw [hcount] at hcalls
      split at hcalls <;> omega
    have hlength : (r.queue.pending dc).length = rest.length :=
      (congrArg List.length h.pending).trans (List.length_map _)
    have hfree : Free r.now ({ r with ready := tail }.view dc) r.results done rest := { h with }
    unfold Run.runWorker
    rw [show r.queue.running? dc = none from h.running]
    dsimp only
    rw [hlength]
    exact (Free.serve (r := { r with ready := tail }) hfree hnone fun s hs =>
      hjobs s (List.mem_append_right _ hs)).wakeScript
  | @busy done p rest h hcalls =>
    obtain ⟨-, -, hnone⟩ | ⟨hnow, halarms, hone⟩ := hcalls
    · omega
    · have hnone : tail.count (.worker dc) = 0 := by omega
      have hdc := (hjobs (entered p) (by simp)).1
      have hbusy : Busy r.now ({ r with ready := tail }.view dc) r.results done p rest :=
        { h with }
      have hfree := Busy.finish (r := { r with ready := tail }) hbusy hdc halarms hnow
      have hlength : ((({ r with ready := tail } : Run).finishJob
          (ticket (entered p))).queue.pending dc).length = rest.length :=
        (congrArg List.length hfree.pending).trans (List.length_map _)
      have hcalls : ((({ r with ready := tail } : Run).finishJob
          (ticket (entered p))).view dc).calls = 0 := by
        rw [finishJob_eq]
        exact hnone
      unfold Run.runWorker
      rw [show r.queue.running? dc = some (ticket (entered p)) from h.running]
      dsimp only
      rw [hlength]
      have hlane := (hfree.serve hcalls fun s hs =>
        hjobs s (List.mem_append_right _ (List.mem_cons_of_mem _ hs))).wakeScript
      simpa using hlane

/-- The worker of another datacenter goes on. -/
theorem HasLane.runWorker_of_ne (h : r.HasLane dc H) {tail : List Actor}
    (hready : r.ready = .worker dc' :: tail) (hr : r.IsAttainable) (hne : dc' ≠ dc) :
    (({ r with ready := tail }).runWorker dc').HasLane dc H := by
  have hactor : Actor.worker dc' ≠ .worker dc := fun heq => by
    cases heq
    exact hne rfl
  have hview : ({ r with ready := tail } : Run).view dc = r.view dc := by
    unfold view
    rw [hready, List.count_cons_of_ne hactor]
  have htail : ({ r with ready := tail } : Run).HasLane dc H :=
    h.congr rfl hview (List.Subset.refl _)
  unfold Run.runWorker
  dsimp only
  refine HasLane.wakeScript ?_
  split
  · next t hrunning =>
    obtain rfl := hr.placed dc' t (.inr hrunning)
    have hr' : (({ r with ready := tail } : Run).finishJob t).IsAttainable :=
      IsAttainable.finishJob (r := { r with ready := tail }) hr hrunning
    have hspares := (spares_finishJob { r with ready := tail } t).trans (spares_serve _
      t.job.datacenter (({ r with ready := tail } : Run).finishJob t |>.queue.pending
        t.job.datacenter).length)
    exact htail.congr hspares.now
      ((view_serve_of_ne hr' hne _).trans (view_finishJob_of_ne hne)) hspares.results
  · have hspares := spares_serve { r with ready := tail } dc' (r.queue.pending dc').length
    exact htail.congr hspares.now (view_serve_of_ne (r := { r with ready := tail }) hr hne _)
      hspares.results

end Run

/-! ## The clock -/

namespace Run

variable {t : Nat}

/-- The timers of a worker that do not end now stay. -/
theorem alarms_filter (timers : List Timer) (t : Nat) (a : Actor) :
    ((timers.filter (·.time ≠ t)).filter (·.actor = a)).map (·.time) =
      ((timers.filter (·.actor = a)).map (·.time)).filter (· ≠ t) := by
  rw [List.filter_comm, List.filter_map]
  rfl

/-- A worker is called once for each of its timers that ends. -/
theorem count_fired (timers : List Timer) (t : Nat) (dc : String) :
    (((timers.filter (·.time = t)).map (·.actor)).filter (· = .script) ++
        ((timers.filter (·.time = t)).map (·.actor)).filter (· ≠ .script)).count (.worker dc) =
      ((timers.filter (·.actor = .worker dc)).map (·.time)).count t := by
  have hnone : (((timers.filter (·.time = t)).map (·.actor)).filter (· = .script)).count
      (.worker dc) = 0 := List.count_eq_zero.mpr (by simp)
  rw [List.count_append, hnone, Nat.zero_add, List.count_filter (by simp)]
  simp only [List.count, List.countP_map, List.countP_filter]
  exact List.countP_congr fun timer _ => by simp [and_comm]

/-- The clock jumps to the next timer. -/
theorem HasLane.fire (h : r.HasLane dc H) (hready : r.ready = [])
    (htimers : ∀ timer ∈ r.timers, r.now < timer.time) : r.fire.HasLane dc H := by
  have hcalls : (r.view dc).calls = 0 := by
    show r.ready.count _ = 0
    rw [hready]
    rfl
  unfold Run.fire
  split
  · exact h
  · next t hmin =>
    obtain ⟨hmem, hleast⟩ := List.min?_eq_some_iff.mp hmin
    have hlater : r.now ≤ t := by
      obtain ⟨timer, htimer, rfl⟩ := List.mem_map.mp hmem
      exact (htimers timer htimer).le
    have hkept := alarms_filter r.timers t (.worker dc)
    have hcalled := count_fired r.timers t dc
    cases h with
    | @free done rest h hidle =>
      have hrest : rest = [] := by
        rw [hcalls] at hidle
        by_contra hne
        rw [if_neg hne] at hidle
        cases hidle
      subst hrest
      have hnone : (r.timers.filter (·.actor = .worker dc)).map (·.time) = [] := h.alarms
      rw [hnone] at hkept hcalled
      exact .free
        { h with
          past := h.past.mono hlater (List.Subset.refl _)
          alarms := hkept
          due := fun s hs => by cases hs
          arrived := fun s hs => by cases hs }
        hcalled
    | @busy done p rest h hbusy =>
      obtain ⟨hnow, halarms, -⟩ | ⟨-, -, hone⟩ := hbusy
      · have halarms : (r.timers.filter (·.actor = .worker dc)).map (·.time) = [p.1.finish] :=
          halarms
        have hle : t ≤ p.1.finish := by
          refine hleast _ ?_
          have hfinish : p.1.finish ∈ (r.timers.filter (·.actor = .worker dc)).map (·.time) := by
            simp [halarms]
          exact (List.filter_sublist.map _).subset hfinish
        rw [halarms] at hkept hcalled
        refine .busy
          { h with
            past := h.past.mono hlater (List.Subset.refl _)
            started := h.started.trans hlater
            arrived := fun s hs => (h.arrived s hs).trans hlater } ?_
        rcases Nat.lt_or_eq_of_le hle with hlt | heq
        · refine .inl ⟨hlt, hkept.trans ?_, hcalled.trans ?_⟩
          · simp [hlt.ne']
          · simp [hlt.ne']
        · refine .inr ⟨heq, hkept.trans ?_, hcalled.trans ?_⟩
          · simp [heq]
          · simp [heq]
      · omega

end Run

/-! ## Submitting -/

/-- A worker is idle if nothing runs and nothing waits. -/
theorem isIdle_iff (q : JobQueue Ticket) (dc : String) :
    ((q.worker? dc).map (·.isIdle)).getD true = true ↔
      q.running? dc = none ∧ q.pending dc = [] := by
  unfold JobQueue.running? JobQueue.pending
  cases q.worker? dc with
  | none => simp
  | some w => simp [Worker.isIdle, and_comm]

namespace Run

variable {job : Job}

/-- The run after a job was put into the queues `q`. -/
def enter (r : Run) (job : Job) (q : JobQueue Ticket) : Run :=
  { r with
    queue := q
    tickets := r.tickets + 1
    ready :=
      if ((r.queue.worker? job.datacenter).map (·.isIdle)).getD true then
        r.ready ++ [.worker job.datacenter]
      else r.ready }

/-- A job is accepted if the queues are open and the worker is up. -/
theorem exists_submit (hopen : r.queue.closed = false)
    (hup : r.queue.isCrashed job.datacenter = false) :
    ∃ q, r.queue.enqueue job.datacenter ⟨r.tickets, job⟩ = .ok q ∧
      r.submit job = .ok (⟨r.tickets, job⟩, r.enter job q) := by
  obtain ⟨q, hq⟩ := JobQueue.enqueue_eq_ok_iff.mpr ⟨hopen, Bool.eq_false_iff.mp hup⟩
  refine ⟨q, hq, ?_⟩
  unfold submit
  simp only [hq]
  rfl

theorem submit_of_closed (hclosed : r.queue.closed = true) (job : Job) :
    r.submit job = .error .managerClosed := by
  have hq : r.queue.enqueue job.datacenter ⟨r.tickets, job⟩ = .error .managerClosed :=
    JobQueue.enqueue_of_closed hclosed ..
  unfold submit
  simp only [hq]
  rfl

/-- A job that is accepted for the datacenter is to run after all others. -/
theorem HasLane.enter (h : r.HasLane job.datacenter H)
    (hq : r.queue.enqueue job.datacenter ⟨r.tickets, job⟩ = .ok q) :
    (r.enter job q).HasLane job.datacenter (H ++ [(⟨r.now, job⟩, r.tickets)]) := by
  have hrunning := JobQueue.running?_enqueue hq job.datacenter
  have hpending := JobQueue.pending_enqueue hq job.datacenter
  have hcrashed := JobQueue.isCrashed_enqueue hq job.datacenter
  have hidle := isIdle_iff r.queue job.datacenter
  rw [if_pos rfl] at hpending
  have hcalls : ((r.enter job q).view job.datacenter).calls =
      (r.view job.datacenter).calls +
        if r.queue.running? job.datacenter = none ∧ r.queue.pending job.datacenter = [] then 1
        else 0 := by
    show ((r.enter job q).ready.count _ = r.ready.count _ + _)
    by_cases h : r.queue.running? job.datacenter = none ∧ r.queue.pending job.datacenter = []
    · rw [Run.enter, if_pos (hidle.mpr h), if_pos h, List.count_append, List.count_singleton_self]
    · rw [Run.enter, if_neg fun heq => h (hidle.mp heq), if_neg h]
      rfl
  cases h with
  | @free done rest h hbefore =>
    have hwaiting : r.queue.pending job.datacenter = rest.map ticket := h.pending
    rw [List.append_assoc]
    refine .free
      { h with
        running := hrunning.trans h.running
        pending := by
          rw [List.map_append, ← hwaiting]
          exact hpending
        up := hcrashed.trans h.up
        due := fun s hs => ?due
        arrived := fun s hs => ?arrived } ?calls
    case due =>
      cases rest with
      | nil =>
        cases hs
        exact max_eq_left h.past.ended
      | cons first rest => exact h.due s hs
    case arrived =>
      rcases List.mem_append.mp hs with hs | hs
      · exact h.arrived s hs
      · obtain rfl := List.mem_singleton.mp hs
        exact Nat.le_refl _
    case calls =>
      rw [hcalls, hbefore, hwaiting, show r.queue.running? job.datacenter = none from h.running]
      cases rest <;> simp
  | @busy done p rest h hbefore =>
    have hruns : r.queue.running? job.datacenter = some (ticket (entered p)) := h.running
    have hwaiting : r.queue.pending job.datacenter = rest.map ticket := h.pending
    rw [hruns, if_neg (by simp), Nat.add_zero] at hcalls
    rw [List.append_assoc, List.cons_append]
    refine .busy
      { h with
        running := hrunning.trans h.running
        pending := by
          rw [List.map_append, ← hwaiting]
          exact hpending
        up := hcrashed.trans h.up
        arrived := fun s hs => ?_ } ?_
    · rcases List.mem_append.mp hs with hs | hs
      · exact h.arrived s hs
      · obtain rfl := List.mem_singleton.mp hs
        exact Nat.le_refl _
    · rw [hcalls]
      exact hbefore

/-- A job that is accepted for another datacenter does not show. -/
theorem HasLane.enter_of_ne (h : r.HasLane dc H) (hdc : job.datacenter ≠ dc)
    (hq : r.queue.enqueue job.datacenter ⟨r.tickets, job⟩ = .ok q) :
    (r.enter job q).HasLane dc H := by
  have hactor : Actor.worker dc ≠ .worker job.datacenter := fun heq => by
    cases heq
    exact hdc rfl
  have hpending := JobQueue.pending_enqueue hq dc
  rw [if_neg hdc, List.append_nil] at hpending
  have hcount : (r.enter job q).ready.count (.worker dc) = r.ready.count (.worker dc) := by
    unfold Run.enter
    dsimp only
    split
    · rw [List.count_append, List.count_singleton, if_neg (by simpa using hactor.symm),
        Nat.add_zero]
    · rfl
  refine h.congr rfl ?_ (List.Subset.refl _)
  unfold view
  rw [hcount]
  simp only [Run.enter, hpending, JobQueue.running?_enqueue hq, JobQueue.isCrashed_enqueue hq]

end Run

end ComputePlane.Provisioning
