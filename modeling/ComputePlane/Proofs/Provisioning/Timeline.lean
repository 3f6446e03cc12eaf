import Mathlib.Data.List.TakeWhile
import ComputePlane.Provisioning.Script

/-!
# When jobs are submitted, start and end

A script's run begins the steps of the script at certain times (`timeline`), and so it submits jobs
at certain times (`submissions`). Those that it submits before it closes the queues are numbered in
order (`accepted`).

The jobs of a queue are carried out `InTurn`: each starts when it is submitted, or as soon as the
one before it has ended, and takes its time. The times of their submission leave no choice
(`InTurn.unique`).
-/

namespace ComputePlane.Provisioning

/-! ## Steps -/

/-- The job gets to run. -/
def Ending.isCalm : Ending → Bool
  | breaksAtStart => false
  | _ => true

/-- What comes of a job. -/
def Job.outcome (job : Job) : Except Error String :=
  match job.ending with
  | .returns result => result
  | _ => .error (.jobAborted job.datacenter)

namespace Step

/-- The job that a step submits. -/
def job? : Step → Option Job
  | run job => some job
  | submit job => some job
  | abandon job => some job
  | _ => none

/-- A job that the step submits gets to run. -/
def isCalm (s : Step) : Bool := s.job?.all (·.ending.isCalm)

def isClose : Step → Bool
  | close => true
  | _ => false

theorem isClose_of_job? {s : Step} {job : Job} (h : s.job? = some job) : s.isClose = false := by
  cases s with
  | close => cases h
  | _ => rfl

end Step

namespace Run

/-- The steps that a move begins. -/
def begun (r : Run) : List Step := r.steps.take (r.steps.length - r.move.steps.length)

/-- The steps that a number of moves begin, with the times at which they are begun. -/
def timeline (r : Run) : Nat → List (Nat × Step)
  | 0 => []
  | n + 1 => r.timeline n ++ (r.moves n).begun.map ((r.moves n).now, ·)

end Run

/-- The steps of a script with the times at which they are begun. -/
def timeline (steps : List Step) : List (Nat × Step) :=
  (Run.start steps).timeline (8 * (steps.length + 1))

/-! ## Submissions -/

/-- A job with the time at which it is submitted. -/
structure Submission where
  time : Nat
  job : Job
  deriving Repr

def submissions (ts : List (Nat × Step)) : List Submission :=
  ts.filterMap fun p => p.2.job?.map (⟨p.1, ·⟩)

def submissionsTo (dc : String) (ts : List (Nat × Step)) : List Submission :=
  (submissions ts).filter (·.job.datacenter = dc)

/-- The jobs that are submitted before the queues are closed, with their numbers. -/
def accepted (ts : List (Nat × Step)) : List (Submission × Nat) :=
  (submissions (ts.takeWhile fun p => !p.2.isClose)).zipIdx

/-- Those of them for a datacenter. -/
def acceptedFor (dc : String) (ts : List (Nat × Step)) : List (Submission × Nat) :=
  (accepted ts).filter (·.1.job.datacenter = dc)

/-- The queues are closed by a step. -/
def closes (ts : List (Nat × Step)) : Bool := ts.any (·.2.isClose)

variable {ts : List (Nat × Step)} {t : Nat} {s : Step} {dc : String}

theorem takeWhile_of_not_closes (h : closes ts = false) :
    (ts.takeWhile fun p => !p.2.isClose) = ts := by
  refine List.takeWhile_eq_self_iff.mpr fun p hp => ?_
  simp only [closes, List.any_eq_false] at h
  simpa using h p hp

@[simp] theorem closes_append (ts us : List (Nat × Step)) :
    closes (ts ++ us) = (closes ts || closes us) :=
  List.any_append

theorem accepted_of_closes (h : closes ts = true) (us : List (Nat × Step)) :
    accepted (ts ++ us) = accepted ts := by
  obtain ⟨p, hp, hclose⟩ := List.any_eq_true.mp h
  have hstops : (ts ++ us).takeWhile (fun p => !p.2.isClose) =
      ts.takeWhile fun p => !p.2.isClose := by
    induction ts with
    | nil => cases hp
    | cons q ts ih =>
      by_cases hq : q.2.isClose = true
      · simp [hq]
      · have hmem : p ∈ ts := (List.mem_cons.mp hp).resolve_left fun heq => hq (heq ▸ hclose)
        simpa [hq] using ih (List.any_eq_true.mpr ⟨p, hmem, hclose⟩) hmem
  rw [accepted, hstops, accepted]

theorem accepted_snoc_job (h : closes ts = false) {job : Job} (hs : s.job? = some job) :
    accepted (ts ++ [(t, s)]) = accepted ts ++ [(⟨t, job⟩, (accepted ts).length)] := by
  have hopen : closes (ts ++ [(t, s)]) = false := by
    simpa [closes, Step.isClose_of_job? hs] using h
  simp [accepted, takeWhile_of_not_closes h, takeWhile_of_not_closes hopen, submissions, hs,
    List.zipIdx_append]

theorem accepted_snoc_of_job?_none (hs : s.job? = none) :
    accepted (ts ++ [(t, s)]) = accepted ts := by
  cases h : closes ts with
  | true => exact accepted_of_closes h _
  | false =>
    have hlast : submissions (List.takeWhile (fun p => !p.2.isClose) [(t, s)]) = [] := by
      by_cases hclose : s.isClose = true <;> simp [hclose, submissions, hs]
    have htake := takeWhile_of_not_closes h
    have hsubs : submissions ((ts ++ [(t, s)]).takeWhile fun p => !p.2.isClose) =
        submissions ts := by
      rw [List.takeWhile_append, if_pos (by rw [htake]), submissions, List.filterMap_append]
      simpa [submissions] using hlast
    rw [accepted, hsubs, accepted, htake]

/-- If the queues are not closed before the last job for a datacenter is submitted, all jobs for it
are accepted. -/
theorem acceptedFor_eq
    (h : ∀ us u vs, ts = us ++ (u, .close) :: vs → submissionsTo dc vs = []) :
    (acceptedFor dc ts).map (·.1) = submissionsTo dc ts := by
  have hmap : ∀ us : List (Nat × Step), ((submissions us).zipIdx.filter
      fun p => decide (p.1.job.datacenter = dc)).map (·.1) = submissionsTo dc us := by
    intro us
    have hfst : submissionsTo dc us =
        ((submissions us).zipIdx.map Prod.fst).filter (·.job.datacenter = dc) := by
      rw [List.zipIdx_map_fst, submissionsTo]
    rw [hfst, List.filter_map]
    rfl
  rw [acceptedFor, accepted, hmap]
  have hsplit := List.takeWhile_append_dropWhile (p := fun p : Nat × Step => !p.2.isClose) (l := ts)
  cases hdrop : ts.dropWhile fun p => !p.2.isClose with
  | nil =>
    rw [hdrop, List.append_nil] at hsplit
    rw [hsplit]
  | cons p vs =>
    have hclose : p.2.isClose = true := by
      have hne : ts.dropWhile (fun p => !p.2.isClose) ≠ [] := by simp [hdrop]
      have hhead := List.head_dropWhile_not _ hne
      simpa [hdrop] using hhead
    have hp : p = (p.1, .close) := by
      obtain ⟨u, s⟩ := p
      cases s with
      | close => rfl
      | _ => cases hclose
    rw [hdrop, hp] at hsplit
    have hnone := h _ _ _ hsplit.symm
    rw [← hsplit]
    simp only [submissionsTo, submissions, List.filterMap_append, List.filterMap_cons,
      Step.job?, Option.map_none, List.filter_append] at hnone ⊢
    rw [hsplit, hnone, List.append_nil]

/-- Nothing is submitted after the last step. -/
theorem submissionsTo_of_closes_last {p : Nat × Step} {us vs : List (Nat × Step)}
    (h : closes ts = false) (hsplit : ts ++ [p] = us ++ (t, .close) :: vs) :
    submissionsTo dc vs = [] := by
  obtain rfl | ⟨vs', q, rfl⟩ := vs.eq_nil_or_concat
  · rfl
  · have hts : ts = us ++ (t, .close) :: vs' := by
      rw [List.concat_eq_append, ← List.cons_append, ← List.append_assoc] at hsplit
      exact (List.append_inj' hsplit rfl).1
    rw [hts, closes_append] at h
    simp [closes, Step.isClose] at h

/-! ## Slots -/

/-- When a submitted job starts and ends. -/
structure Slot where
  submission : Submission
  start : Nat
  finish : Nat
  deriving Repr

/-- What a job notes that has come to its end. -/
def Slot.events (s : Slot) : List Event :=
  [⟨s.start, s.submission.job.datacenter, s.submission.job.name ++ " " ++ "start"⟩,
    ⟨s.finish, s.submission.job.datacenter, s.submission.job.name ++ " " ++ "end"⟩]

/-- From a time on, each job starts when it is submitted, or as soon as the one before it has ended,
and takes its time. -/
def InTurn : Nat → List Slot → Prop
  | _, [] => True
  | free, s :: rest =>
    s.start = max s.submission.time free ∧ s.finish = s.start + s.submission.job.duration ∧
      InTurn s.finish rest

def lastFinish (free : Nat) (slots : List Slot) : Nat := slots.foldl (fun _ s => s.finish) free

theorem inTurn_snoc {free : Nat} {slots : List Slot} {s : Slot} :
    InTurn free (slots ++ [s]) ↔ InTurn free slots ∧
      s.start = max s.submission.time (lastFinish free slots) ∧
      s.finish = s.start + s.submission.job.duration := by
  induction slots generalizing free with
  | nil => simp [InTurn, lastFinish]
  | cons first rest ih =>
    show (_ ∧ _ ∧ InTurn first.finish (rest ++ [s])) ↔ (_ ∧ _ ∧ InTurn first.finish rest) ∧ _
    rw [ih]
    simp only [and_assoc]
    rfl

@[simp] theorem lastFinish_snoc (free : Nat) (slots : List Slot) (s : Slot) :
    lastFinish free (slots ++ [s]) = s.finish := by
  simp [lastFinish]

/-- When jobs start and end depends on them and on the times of their submission. -/
theorem InTurn.unique {free : Nat} {slots slots' : List Slot} (h : InTurn free slots)
    (h' : InTurn free slots') (hsame : slots.map (·.submission) = slots'.map (·.submission)) :
    slots = slots' := by
  induction slots generalizing free slots' with
  | nil => exact (List.map_eq_nil_iff.mp hsame.symm).symm
  | cons s rest ih =>
    cases slots' with
    | nil => cases hsame
    | cons s' rest' =>
      obtain ⟨hs, hrest⟩ := List.cons.inj hsame
      obtain ⟨hstart, hfinish, hturn⟩ := h
      obtain ⟨hstart', hfinish', hturn'⟩ := h'
      have heq : s = s' := by
        obtain ⟨submission, start, finish⟩ := s
        obtain ⟨submission', start', finish'⟩ := s'
        dsimp only at hs hstart hstart' hfinish hfinish'
        subst hs hstart hfinish hstart' hfinish'
        rfl
      subst heq
      rw [ih hturn hturn' hrest]

end ComputePlane.Provisioning
