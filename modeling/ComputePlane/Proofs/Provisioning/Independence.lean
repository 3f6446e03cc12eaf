import ComputePlane.Proofs.Provisioning.Crashes
import ComputePlane.Proofs.Provisioning.Lanes

/-!
# Datacenters do not influence each other

The steps that a script's run has begun account for the lanes of all datacenters (`Kept`). Each move
keeps to this (`Kept.move`), and so does the whole run (`Kept.moves`). A run that has come to rest
has gone through all jobs of each lane. So the times and the results of the jobs of a datacenter
depend on these jobs and on when they are submitted, and on nothing else
(`datacenters_do_not_interact`).
-/

namespace ComputePlane.Provisioning

variable {r r' : Run} {dc : String} {ts us : List (Nat × Step)} {s : Step} {t : Nat}

/-! ## What has been begun -/

/-- The steps begun so far have led to the lanes of all datacenters. -/
structure Kept (ts : List (Nat × Step)) (r : Run) : Prop where
  attainable : r.IsAttainable
  closed : r.queue.closed = closes ts
  tickets : r.tickets = (accepted ts).length
  calm : ∀ s ∈ accepted ts, s.1.job.ending.isCalm = true
  lanes : ∀ dc, r.HasLane dc (acceptedFor dc ts)
  timers : ∀ timer ∈ r.timers, r.now < timer.time

theorem Run.HasLane.up {H : List (Submission × Nat)} (h : r.HasLane dc H) :
    r.queue.isCrashed dc = false := by
  cases h with
  | free h => exact h.up
  | busy h => exact h.up

theorem Run.now_submit {job : Job} {ticket : Ticket} (h : r.submit job = .ok (ticket, r')) :
    r'.now = r.now := by
  unfold submit at h
  cases hq : r.queue.enqueue job.datacenter ⟨r.tickets, job⟩ with
  | error e => simp [hq] at h
  | ok q =>
    simp only [hq] at h
    cases h
    rfl

/-- The script takes no time. -/
theorem Run.now_beginStep (r : Run) (s : Step) : (r.beginStep s).now = r.now := by
  have hawait : ∀ (r : Run) (b : Blocked), (r.await b).now = r.now := by
    intro r b
    unfold await
    split <;> rfl
  cases s with
  | run job | submit job | abandon job =>
    unfold beginStep
    dsimp only
    split
    · next h =>
      have hnow := now_submit h
      exact hnow
    · rfl
  | sleep ms => cases ms <;> rfl
  | close =>
    unfold beginStep
    dsimp only
    split
    · rfl
    · exact hawait _ _
  | join =>
    unfold beginStep
    dsimp only
    split
    · exact hawait _ _
    · exact hawait _ _

theorem Run.begun_eq {begun : List Step} (h : r.steps = begun ++ r.move.steps) :
    r.begun = begun := by
  rw [Run.begun, h]
  simp

namespace Kept

/-- The rest of a run does not matter. -/
theorem congr (k : Kept ts r) (hnow : r'.now = r.now) (hqueue : r'.queue = r.queue)
    (hready : r'.ready = r.ready) (htimers : r'.timers = r.timers)
    (htickets : r'.tickets = r.tickets) (hresults : r'.results = r.results)
    (hevents : r'.events = r.events) : Kept ts r' := by
  have hview : ∀ dc, r'.view dc = r.view dc := fun dc => by
    unfold Run.view
    rw [hqueue, hready, htimers, hevents]
  refine ⟨?_, hqueue ▸ k.closed, htickets.trans k.tickets, k.calm,
    fun dc => (k.lanes dc).congr hnow (hview dc) (hresults ▸ List.Subset.refl _), ?_⟩
  · show Attainable r'.queue r'.tickets r'.results
    rw [hqueue, htickets, hresults]
    exact k.attainable
  · rw [htimers, hnow]
    exact k.timers

/-- Steps that submit nothing that is accepted do not matter. -/
theorem of_same (k : Kept ts r) (haccepted : accepted us = accepted ts)
    (hcloses : closes us = closes ts) : Kept us r where
  attainable := k.attainable
  closed := k.closed.trans hcloses.symm
  tickets := k.tickets.trans (by rw [haccepted])
  calm := haccepted ▸ k.calm
  lanes dc := by
    rw [acceptedFor, haccepted]
    exact k.lanes dc
  timers := k.timers

theorem start (steps : List Step) : Kept [] (Run.start steps) where
  attainable := Attainable.empty
  closed := rfl
  tickets := rfl
  calm _ hs := nomatch hs
  lanes _ := @Lane.free _ _ _ [] []
    ⟨⟨trivial, Nat.zero_le _, fun _ hp => nomatch hp⟩, rfl, rfl, rfl, rfl, rfl,
      fun _ hs => (nomatch hs), fun _ hs => nomatch hs⟩ rfl
  timers _ ht := nomatch ht

/-! ## The script -/

/-- A step that has nothing to do with the queues. -/
theorem pass (k : Kept ts r) (hjob : s.job? = none) (hclose : s.isClose = false) :
    Kept (ts ++ [(t, s)]) r :=
  k.of_same (accepted_snoc_of_job?_none hjob) (by simp [closes, hclose])

theorem close (k : Kept ts r) (hopen : r.queue.closed = false) :
    Kept (ts ++ [(t, .close)]) { r with queue := r.queue.close } := by
  have haccepted : accepted (ts ++ [(t, .close)]) = accepted ts := accepted_snoc_of_job?_none rfl
  refine ⟨Attainable.close k.attainable hopen, ?_, k.tickets.trans (by rw [haccepted]),
    haccepted ▸ k.calm, fun dc => ?_, k.timers⟩
  · rw [closes_append]
    exact (Bool.or_true _).symm
  · rw [acceptedFor, haccepted]
    exact k.lanes dc

theorem enter (k : Kept ts r) (hopen : r.queue.closed = false) {job : Job}
    (hjob : s.job? = some job) (hcalm : s.isCalm = true) {q : JobQueue Ticket}
    (hq : r.queue.enqueue job.datacenter ⟨r.tickets, job⟩ = .ok q) :
    Kept (ts ++ [(r.now, s)]) (r.enter job q) := by
  have hcloses : closes ts = false := k.closed ▸ hopen
  have hclose : s.isClose = false := Step.isClose_of_job? hjob
  have haccepted := accepted_snoc_job (t := r.now) hcloses hjob
  rw [← k.tickets] at haccepted
  refine ⟨Attainable.enqueue (t := ⟨r.tickets, job⟩) k.attainable rfl hq, ?closed, ?tickets, ?calm,
    fun dc => ?lanes, k.timers⟩
  case closed =>
    rw [closes_append, ← k.closed]
    exact (JobQueue.closed_enqueue hq).trans (by simp [closes, hclose])
  case tickets =>
    rw [haccepted, List.length_append, ← k.tickets]
    rfl
  case calm =>
    rw [haccepted]
    intro p hp
    rcases List.mem_append.mp hp with hp | hp
    · exact k.calm p hp
    · obtain rfl := List.mem_singleton.mp hp
      simpa [Step.isCalm, hjob] using hcalm
  case lanes =>
    rw [acceptedFor, haccepted, List.filter_append]
    by_cases hdc : job.datacenter = dc
    · subst hdc
      rw [List.filter_cons_of_pos (by simp), List.filter_nil]
      exact (k.lanes job.datacenter).enter hq
    · rw [List.filter_cons_of_neg (by simpa using hdc), List.filter_nil, List.append_nil]
      exact (k.lanes dc).enter_of_ne hdc hq

/-- A step that submits a job: the job is accepted, or the queues are closed. -/
theorem submit (k : Kept ts r) {job : Job} (hjob : s.job? = some job) (hcalm : s.isCalm = true) :
    (∃ e, r.submit job = .error e ∧ Kept (ts ++ [(r.now, s)]) r) ∨
      ∃ q, r.submit job = .ok (⟨r.tickets, job⟩, r.enter job q) ∧
        Kept (ts ++ [(r.now, s)]) (r.enter job q) := by
  cases hclosed : r.queue.closed with
  | true =>
    have hcloses : closes ts = true := k.closed ▸ hclosed
    refine .inl ⟨_, Run.submit_of_closed hclosed job, k.of_same (accepted_of_closes hcloses _) ?_⟩
    rw [closes_append, hcloses]
    rfl
  | false =>
    obtain ⟨q, hq, hsubmit⟩ := Run.exists_submit hclosed (k.lanes job.datacenter).up
    exact .inr ⟨q, hsubmit, k.enter hclosed hjob hcalm hq⟩

theorem setTimer (k : Kept ts r) {ms : Nat} (hms : 0 < ms) : Kept ts (r.setTimer ms .script) := by
  refine ⟨k.attainable, k.closed, k.tickets, k.calm, fun dc => ?lanes, ?timers⟩
  case lanes =>
    refine (k.lanes dc).congr rfl ?_ (List.Subset.refl _)
    simp [Run.view, Run.setTimer]
  case timers =>
    intro timer htimer
    rcases List.mem_append.mp htimer with htimer | htimer
    · exact k.timers timer htimer
    · obtain rfl := List.mem_singleton.mp htimer
      show r.now < r.now + ms
      omega

theorem await (k : Kept ts r) (b : Blocked) : Kept ts (r.await b) := by
  unfold Run.await
  split <;> exact k.congr rfl rfl rfl rfl rfl rfl rfl

theorem beginStep (k : Kept ts r) (hcalm : s.isCalm = true) :
    Kept (ts ++ [(r.now, s)]) (r.beginStep s) := by
  cases s with
  | run job | submit job | abandon job =>
    rcases k.submit rfl hcalm with ⟨e, hsubmit, k'⟩ | ⟨q, hsubmit, k'⟩
    all_goals
      simp only [Run.beginStep, hsubmit]
      exact k'.congr rfl rfl rfl rfl rfl rfl rfl
  | sleep ms =>
    have k' := k.pass (t := r.now) (s := .sleep ms) rfl rfl
    cases ms with
    | zero => exact k'.congr rfl rfl rfl rfl rfl rfl rfl
    | succ ms => exact (k'.setTimer (Nat.succ_pos ms)).congr rfl rfl rfl rfl rfl rfl rfl
  | close =>
    unfold Run.beginStep
    dsimp only
    split
    · next hclosed =>
      have hcloses : closes ts = true := k.closed ▸ hclosed
      have k' : Kept (ts ++ [(r.now, .close)]) r :=
        k.of_same (accepted_of_closes hcloses _) (by rw [closes_append, hcloses]; rfl)
      exact k'.congr rfl rfl rfl rfl rfl rfl rfl
    · next hopen => exact (k.close (Bool.eq_false_iff.mpr hopen)).await _
  | join =>
    have k' := (k.pass (t := r.now) (s := .join) rfl rfl).await
      (.join (r.submitted.map (·.number)))
    unfold Run.beginStep
    dsimp only
    split
    · exact k'.congr rfl rfl rfl rfl rfl rfl rfl
    · exact k'

theorem runSteps {steps : List Step} (k : Kept ts r) (hcalm : ∀ s ∈ steps, s.isCalm = true) :
    ∃ begun rest, steps = begun ++ rest ∧ (r.runSteps steps).steps = rest ∧
      Kept (ts ++ begun.map (r.now, ·)) (r.runSteps steps) := by
  induction steps generalizing ts r with
  | nil =>
    refine ⟨[], [], rfl, rfl, ?_⟩
    rw [List.map_nil, List.append_nil]
    exact k.congr rfl rfl rfl rfl rfl rfl rfl
  | cons s steps ih =>
    have k' := k.beginStep (hcalm s List.mem_cons_self)
    unfold Run.runSteps
    dsimp only
    split
    · exact ⟨[s], steps, rfl, rfl, k'.congr rfl rfl rfl rfl rfl rfl rfl⟩
    · obtain ⟨begun, rest, hsteps, hrest, k''⟩ :=
        ih k' fun s' hs' => hcalm s' (List.mem_cons_of_mem _ hs')
      refine ⟨s :: begun, rest, congrArg (s :: ·) hsteps, hrest, ?_⟩
      rwa [Run.now_beginStep, List.append_assoc] at k''

theorem runScript (k : Kept ts r) (hcalm : ∀ s ∈ r.steps, s.isCalm = true) :
    ∃ begun rest, r.steps = begun ++ rest ∧ r.runScript.steps = rest ∧
      Kept (ts ++ begun.map (r.now, ·)) r.runScript := by
  unfold Run.runScript
  split
  · exact k.runSteps hcalm
  · split
    · refine ⟨[], r.steps, rfl, rfl, ?_⟩
      rwa [List.map_nil, List.append_nil]
    · have k' (reply : Reply) (left : List Ticket) :
          Kept ts { r.finishStep reply with submitted := left } :=
        k.congr rfl rfl rfl rfl rfl rfl rfl
      exact (k' _ _).runSteps hcalm

/-! ## Moves -/

theorem runWorker (k : Kept ts r) {tail : List Actor} (hready : r.ready = .worker dc :: tail) :
    Kept ts ({ r with ready := tail }.runWorker dc) := by
  have hattainable : ({ r with ready := tail }.runWorker dc).IsAttainable :=
    Run.IsAttainable.runWorker (r := { r with ready := tail }) k.attainable dc
  have hlanes : ∀ dc',
      ({ r with ready := tail }.runWorker dc).HasLane dc' (acceptedFor dc' ts) := by
    intro dc'
    by_cases hdc : dc = dc'
    · subst hdc
      refine (k.lanes dc).runWorker hready fun s hs => ?_
      obtain ⟨hs, hdc⟩ := List.mem_filter.mp hs
      exact ⟨of_decide_eq_true hdc, k.calm s hs⟩
    · exact (k.lanes dc').runWorker_of_ne hready k.attainable hdc
  obtain ⟨r', ready, heq, hspares, htimers⟩ := Run.exists_runWorker_eq { r with ready := tail } dc
  rw [heq] at hattainable hlanes ⊢
  refine ⟨hattainable, hspares.closed.trans k.closed, hspares.tickets.trans k.tickets, k.calm,
    hlanes, fun timer ht => ?_⟩
  show r'.now < timer.time
  rw [hspares.now]
  exact (htimers timer ht).elim (k.timers timer) id

theorem fire (k : Kept ts r) (hready : r.ready = []) : Kept ts r.fire := by
  have hlanes := fun dc => (k.lanes dc).fire hready k.timers
  unfold Run.fire at hlanes ⊢
  split at hlanes
  · exact k
  · next t hmin =>
    obtain ⟨-, hleast⟩ := List.min?_eq_some_iff.mp hmin
    refine ⟨k.attainable, k.closed, k.tickets, k.calm, hlanes, fun timer ht => ?_⟩
    obtain ⟨ht, hne⟩ := List.mem_filter.mp ht
    have hle : t ≤ timer.time := hleast _ (List.mem_map_of_mem ht)
    have hne : timer.time ≠ t := by simpa using hne
    show t < timer.time
    omega

/-- The script is not among those who are ready any more. -/
theorem takeScript (k : Kept ts r) {tail : List Actor} (hready : r.ready = .script :: tail) :
    Kept ts { r with ready := tail } := by
  refine ⟨k.attainable, k.closed, k.tickets, k.calm, fun dc => ?_, k.timers⟩
  refine (k.lanes dc).congr rfl ?_ (List.Subset.refl _)
  unfold Run.view
  rw [hready, List.count_cons_of_ne (by simp)]

/-- A move leads on as the steps tell that it begins. -/
theorem move (k : Kept ts r) (hcalm : ∀ s ∈ r.steps, s.isCalm = true) :
    Kept (ts ++ r.begun.map (r.now, ·)) r.move ∧ ∀ s ∈ r.move.steps, s.isCalm = true := by
  -- the others begin no step
  have hquiet : ∀ {r'}, r.move = r' → r'.steps = r.steps → Kept ts r' →
      Kept (ts ++ r.begun.map (r.now, ·)) r.move ∧ ∀ s ∈ r.move.steps, s.isCalm = true := by
    rintro r' rfl hsteps k'
    have hnone : r.begun = [] := Run.begun_eq hsteps.symm
    rw [hnone, List.map_nil, List.append_nil, hsteps]
    exact ⟨k', hcalm⟩
  cases hready : r.ready with
  | nil =>
    have hmove : r.move = r.fire := by
      unfold Run.move
      rw [hready]
    refine hquiet hmove ?_ (k.fire hready)
    unfold Run.fire
    split <;> rfl
  | cons a tail =>
    cases a with
    | script =>
      have hmove : r.move = ({ r with ready := tail } : Run).runScript := by
        unfold Run.move
        rw [hready]
      obtain ⟨begun, rest, hsteps, hrest, k'⟩ := (k.takeScript hready).runScript hcalm
      rw [← hmove] at hrest k'
      have hbegun : r.begun = begun := Run.begun_eq (by rw [hrest]; exact hsteps)
      rw [hbegun, hrest]
      have hsteps : r.steps = begun ++ rest := hsteps
      exact ⟨k', fun s hs => hcalm s (hsteps ▸ List.mem_append_right _ hs)⟩
    | worker dc =>
      have hmove : r.move = ({ r with ready := tail } : Run).runWorker dc := by
        unfold Run.move
        rw [hready]
      exact hquiet hmove
        (Run.steps_runWorker { r with ready := tail } dc) (k.runWorker hready)

theorem moves (k : Kept [] r) (hcalm : ∀ s ∈ r.steps, s.isCalm = true) (n : Nat) :
    Kept (r.timeline n) (r.moves n) ∧ ∀ s ∈ (r.moves n).steps, s.isCalm = true := by
  induction n with
  | zero => exact ⟨k, hcalm⟩
  | succ n ih =>
    rw [Run.moves_succ]
    exact ih.1.move ih.2

/-- A run at rest has gone through all jobs of each lane. -/
theorem exists_done (k : Kept ts r) (hrest : r.AtRest) (dc : String) :
    ∃ done : List (Slot × Nat), acceptedFor dc ts = done.map entered ∧
      InTurn 0 (done.map (·.1)) ∧
      r.events.filter (·.datacenter = dc) = (done.map (·.1)).flatMap Slot.events ∧
      ∀ p ∈ done, r.result? p.2 = some p.1.submission.job.outcome := by
  obtain ⟨hready, htimers⟩ := hrest
  have hcalls : (r.view dc).calls = 0 := by
    show r.ready.count _ = 0
    rw [hready]
    rfl
  have halarms : (r.view dc).alarms = [] := by
    show (r.timers.filter _).map _ = []
    rw [htimers]
    rfl
  have hlane := k.lanes dc
  generalize acceptedFor dc ts = H at hlane
  cases hlane with
  | @free done rest h hidle =>
    have hnone : rest = [] := by
      by_contra hne
      rw [hcalls, if_neg hne] at hidle
      cases hidle
    subst hnone
    refine ⟨done, List.append_nil _, h.past.inTurn, h.events, fun p hp => ?_⟩
    have hmem := h.past.outcome p hp
    refine Manager.lookup_eq_some_of_unique hmem fun x hx => ?_
    obtain ⟨es, m, hrun, -, -, hresults⟩ := k.attainable.reached
    rw [← hresults] at hmem hx
    obtain ⟨_, hcomes⟩ := hrun.mem_results_iff_comes.mp hmem
    obtain ⟨_, hcomes'⟩ := hrun.mem_results_iff_comes.mp hx
    exact hrun.comes_unique hcomes' hcomes
  | busy h hbusy =>
    obtain ⟨-, hset, -⟩ | ⟨-, -, hone⟩ := hbusy
    · rw [halarms] at hset
      cases hset
    · omega

end Kept

/-! ## Whole scripts -/

/-- What the jobs of a datacenter note in a script's run, and when. -/
def eventsFor (dc : String) (steps : List Step) : List Event :=
  (Run.ofSteps steps).events.filter (·.datacenter = dc)

/-- The results of the jobs that are accepted for a datacenter in a script's run, in the order of
their submission. -/
def resultsFor (dc : String) (steps : List Step) : List (Option (Except Error String)) :=
  (acceptedFor dc (timeline steps)).map fun p => (Run.ofSteps steps).result? p.2

/-- The jobs of a datacenter are carried out in turn. -/
theorem exists_slots (dc : String) {steps : List Step} (hcalm : ∀ s ∈ steps, s.isCalm = true) :
    ∃ slots : List Slot, InTurn 0 slots ∧
      slots.map (·.submission) = (acceptedFor dc (timeline steps)).map (·.1) ∧
      eventsFor dc steps = slots.flatMap Slot.events ∧
      resultsFor dc steps = slots.map fun s => some s.submission.job.outcome := by
  have k := ((Kept.start steps).moves hcalm (8 * (steps.length + 1))).1
  obtain ⟨done, hdone, hturn, hevents, hresults⟩ := k.exists_done (Run.atRest_ofSteps steps) dc
  refine ⟨done.map Prod.fst, hturn, ?_, ?_, ?_⟩
  · rw [timeline, hdone, List.map_map, List.map_map]
    rfl
  · exact hevents
  · rw [resultsFor, timeline, hdone, List.map_map, List.map_map]
    exact List.map_congr_left hresults

/-- Let two scripts submit the same jobs to a datacenter at the same times, and close the queues not
before that. Then these jobs start and end at the same times with the same results in both, whatever
is submitted to other datacenters. Each starts when it is submitted, or as soon as the one before it
has ended, and takes its time. -/
theorem datacenters_do_not_interact (dc : String) {steps steps' : List Step}
    (hcalm : ∀ s ∈ steps, s.isCalm = true) (hcalm' : ∀ s ∈ steps', s.isCalm = true)
    (hopen : ∀ us t vs, timeline steps = us ++ (t, .close) :: vs → submissionsTo dc vs = [])
    (hopen' : ∀ us t vs, timeline steps' = us ++ (t, .close) :: vs → submissionsTo dc vs = [])
    (hsame : submissionsTo dc (timeline steps) = submissionsTo dc (timeline steps')) :
    eventsFor dc steps = eventsFor dc steps' ∧ resultsFor dc steps = resultsFor dc steps' ∧
      ∃ slots : List Slot, InTurn 0 slots ∧
        slots.map (·.submission) = submissionsTo dc (timeline steps) ∧
        eventsFor dc steps = slots.flatMap Slot.events ∧
        resultsFor dc steps = slots.map fun s => some s.submission.job.outcome := by
  obtain ⟨slots, hturn, hslots, hevents, hresults⟩ := exists_slots dc hcalm
  obtain ⟨slots', hturn', hslots', hevents', hresults'⟩ := exists_slots dc hcalm'
  rw [acceptedFor_eq hopen] at hslots
  rw [acceptedFor_eq hopen', ← hsame] at hslots'
  obtain rfl : slots = slots' := hturn.unique hturn' (hslots.trans hslots'.symm)
  exact ⟨hevents.trans hevents'.symm, hresults.trans hresults'.symm, slots, hturn, hslots, hevents,
    hresults⟩

/-- Two jobs, the second a millisecond after the first. -/
def alone : List Step :=
  [.submit ⟨"a", "x", 2, .returns (.ok "s")⟩, .sleep 1, .submit ⟨"a", "y", 1, .breaksOff⟩, .close]

/-- The same jobs amid those for other datacenters. -/
def together : List Step :=
  [.submit ⟨"b", "v", 5, .returns (.error .managerClosed)⟩,
    .submit ⟨"a", "x", 2, .returns (.ok "s")⟩, .run ⟨"c", "w", 1, .breaksOff⟩,
    .submit ⟨"a", "y", 1, .breaksOff⟩, .close]

theorem datacenters_do_not_interact_alone :
    eventsFor "a" alone = eventsFor "a" together ∧ resultsFor "a" alone = resultsFor "a" together ∧
      eventsFor "a" together =
        [⟨0, "a", "x start"⟩, ⟨2, "a", "x end"⟩, ⟨2, "a", "y start"⟩, ⟨3, "a", "y end"⟩] ∧
      resultsFor "a" together = [some (.ok "s"), some (.error (.jobAborted "a"))] := by
  have halone : timeline alone = [(0, .submit ⟨"a", "x", 2, .returns (.ok "s")⟩), (0, .sleep 1),
      (1, .submit ⟨"a", "y", 1, .breaksOff⟩)] ++ [(1, .close)] := by rfl
  have htogether : timeline together = [
      (0, .submit ⟨"b", "v", 5, .returns (.error .managerClosed)⟩),
      (0, .submit ⟨"a", "x", 2, .returns (.ok "s")⟩), (0, .run ⟨"c", "w", 1, .breaksOff⟩),
      (1, .submit ⟨"a", "y", 1, .breaksOff⟩)] ++ [(1, .close)] := by rfl
  have hopen : ∀ us t vs, timeline alone = us ++ (t, .close) :: vs → submissionsTo "a" vs = [] := by
    intro us t vs hsplit
    exact submissionsTo_of_closes_last (by rfl) (halone.symm.trans hsplit)
  have hopen' : ∀ us t vs, timeline together = us ++ (t, .close) :: vs →
      submissionsTo "a" vs = [] := by
    intro us t vs hsplit
    exact submissionsTo_of_closes_last (by rfl) (htogether.symm.trans hsplit)
  have hsame : submissionsTo "a" (timeline alone) = submissionsTo "a" (timeline together) := by
    rw [halone, htogether]
    rfl
  obtain ⟨hevents, hresults, -⟩ :=
    datacenters_do_not_interact "a" (by decide) (by decide) hopen hopen' hsame
  exact ⟨hevents, hresults, hevents.symm.trans (by rfl), hresults.symm.trans (by rfl)⟩

end ComputePlane.Provisioning
