import ComputePlane.Crowd
import ComputePlane.Proofs.Program.Play
import ComputePlane.Proofs.Provisioning.Queue

/-!
# Operations in any order

Any number of operations share job queues and a cloud. What they do is an `Event`; a `Step` is one
event, and a `Run` is any sequence of them. Between any two events of one operation there can be any
events of others: also while a call is on its way, while it is in the middle of what the cloud does,
and between the end of a job and what its operation does next.

A call need not reach the cloud, and it can be answered in any way, whatever the cloud told. A wait
can read anything and end in any way; one that breaks its operation off does not end, and then
nothing more comes from the operation. The job of an operation is known by the operation's number,
for no operation has two at a time.

In each state, the jobs of the queues are those of the operations that wait for them
(`Run.placed`). An operation that closes the queues goes on when nothing waits or runs
(`Run.isDrained_of_closeReturns`).
-/

namespace ComputePlane

open Program

/-! ## States -/

/-- How far a call is: made, or in the middle of what the cloud does, with the failure it is to end
in. -/
inductive Flight where
  | made
  | begun (failure : Option Error)
  deriving Repr

namespace Flight

/-- What the cloud tells at the end of a call that has reached it. -/
def told? (c : Call) (cloud : MemoryCloud) : Flight → Option c.Result
  | made => none
  | begun failure => some (cloud.finish c failure).1

/-- The cloud after the end of a call. -/
def land (c : Call) (cloud : MemoryCloud) : Flight → MemoryCloud
  | made => cloud
  | begun failure => (cloud.finish c failure).2

end Flight

/-- Where an operation is: it can go on, its call is on its way, directly or as the job of a
datacenter, its job waits, or it has closed the queues and waits for workers of theirs to end. -/
inductive Activity (α : Type) where
  | going (program : Program α)
  | calling (via : Option String) (c : Call) (flight : Flight) (next : c.Result → Program α)
  | queued (dc : String) (c : Call) (next : c.Result → Program α)
  | closing (workers : List String) (next : Unit → Program α)

/-- Operations side by side, with the job queues and the cloud that they share. -/
structure Interplay (α : Type) where
  queue : JobQueue Nat
  cloud : MemoryCloud
  activities : List (Activity α)

namespace Interplay

variable {α : Type}

/-- Operations that have yet to begin. -/
def start (queue : JobQueue Nat) (cloud : MemoryCloud) (programs : List (Program α)) :
    Interplay α :=
  ⟨queue, cloud, programs.map .going⟩

/-- The state with an operation at another place. -/
def put (s : Interplay α) (i : Nat) (a : Activity α) : Interplay α :=
  { s with activities := s.activities.set i a }

/-! ## Events -/

/-- What happens. Operations are known by their numbers. -/
inductive Event where
  /-- A call is made, directly or as the job of a datacenter. -/
  | make (i : Nat) (via : Option String) (c : Call)
  /-- A job is accepted. -/
  | accept (i : Nat) (dc : String) (c : Call)
  /-- A job is refused. -/
  | refuse (i : Nat) (dc : String) (c : Call)
  /-- A call reaches the cloud. -/
  | reach (i : Nat) (c : Call)
  /-- A call is answered, perhaps not as the cloud told. -/
  | answer (i : Nat) (c : Call) (told : Option c.Result) (result : c.Result)
  /-- An operation that waits makes a call that reads. -/
  | probe (i : Nat) (c : Call)
  /-- A wait ends. -/
  | wake (i : Nat)
  | close (i : Nat)
  /-- The queues are closed again, which returns at once. -/
  | closeAgain (i : Nat)
  | closeReturns (i : Nat)

/-- A request that waits for something other than the queues. -/
def isPoll : Request → Bool
  | .pause _ => true
  | .await .. => true
  | .gather .. => true
  | .fetch => true
  | _ => false

/-- One event and what it changes. -/
inductive Step : Interplay α → Event → Interplay α → Prop where
  | call {s i c next} (h : s.activities[i]? = some (.going (.request (.call c) next))) :
      Step s (.make i none c) (s.put i (.calling none c .made next))
  | accept {s i dc c next q} (h : s.activities[i]? = some (.going (.request (.submit dc c) next)))
      (hq : s.queue.enqueue dc i = .ok q) :
      Step s (.accept i dc c) { s.put i (.queued dc c next) with queue := q }
  | refuse {s i dc c next e} (h : s.activities[i]? = some (.going (.request (.submit dc c) next)))
      (hq : s.queue.enqueue dc i = .error e) :
      Step s (.refuse i dc c) (s.put i (.going (next (.error e))))
  | start {s i dc c next q} (h : s.activities[i]? = some (.queued dc c next))
      (hq : s.queue.start? dc = some (i, q)) :
      Step s (.make i (some dc) c) { s.put i (.calling (some dc) c .made next) with queue := q }
  | reach {s i via c next} (h : s.activities[i]? = some (.calling via c .made next)) :
      Step s (.reach i c)
        { s.put i (.calling via c (.begun (s.cloud.begin c).1) next) with
          cloud := (s.cloud.begin c).2 }
  | answer {s i via c flight next} (r : c.Result)
      (h : s.activities[i]? = some (.calling via c flight next)) :
      Step s (.answer i c (flight.told? c s.cloud) r)
        { s.put i (.going (next r)) with
          queue := via.elim s.queue s.queue.finish
          cloud := flight.land c s.cloud }
  | probe {s i r next c} (h : s.activities[i]? = some (.going (.request r next)))
      (hr : isPoll r = true) (hc : c.isChange = false) :
      Step s (.probe i c) { s with cloud := (s.cloud.call c).2 }
  | wake {s i r next} (x : r.Response) (h : s.activities[i]? = some (.going (.request r next)))
      (hr : isPoll r = true) : Step s (.wake i) (s.put i (.going (next x)))
  | close {s i next} (h : s.activities[i]? = some (.going (.request .close next)))
      (hq : s.queue.closed = false) :
      Step s (.close i) { s.put i (.closing s.queue.handles next) with queue := s.queue.close }
  | closeAgain {s i next} (h : s.activities[i]? = some (.going (.request .close next)))
      (hq : s.queue.closed = true) : Step s (.closeAgain i) (s.put i (.going (next ())))
  | closeReturns {s i dcs next} (h : s.activities[i]? = some (.closing dcs next))
      (hq : s.queue.haveEnded dcs = true) : Step s (.closeReturns i) (s.put i (.going (next ())))

/-- The events from a state on, and the state they lead to. -/
inductive Run (s : Interplay α) : List Event → Interplay α → Prop where
  | nil : Run s [] s
  | snoc {es s' e s''} (h : Run s es s') (hs : Step s' e s'') : Run s (es ++ [e]) s''

theorem Run.one {s s' : Interplay α} {e : Event} (hs : Step s e s') : Run s [e] s' := .snoc .nil hs

theorem Run.trans {s s' s'' : Interplay α} {es fs : List Event} (h : Run s es s')
    (h' : Run s' fs s'') : Run s (es ++ fs) s'' := by
  induction h' with
  | nil => rwa [List.append_nil]
  | snoc _ hs ih => rw [← List.append_assoc]; exact .snoc ih hs

/-! ## Changing one operation -/

variable {s s' : Interplay α} {i j : Nat} {a b : Activity α} {e : Event}

@[simp] theorem queue_put (s : Interplay α) (i : Nat) (a : Activity α) :
    (s.put i a).queue = s.queue := rfl

@[simp] theorem cloud_put (s : Interplay α) (i : Nat) (a : Activity α) :
    (s.put i a).cloud = s.cloud := rfl

theorem getElem?_put (h : s.activities[i]? = some b) (a : Activity α) (j : Nat) :
    (s.put i a).activities[j]? = if i = j then some a else s.activities[j]? := by
  obtain ⟨hi, -⟩ := List.getElem?_eq_some_iff.mp h
  simp [put, List.getElem?_set, hi]

theorem getElem?_put_self (h : s.activities[i]? = some b) (a : Activity α) :
    (s.put i a).activities[i]? = some a := by
  rw [getElem?_put h, if_pos rfl]

@[simp] theorem put_put (s : Interplay α) (i : Nat) (a b : Activity α) :
    (s.put i a).put i b = s.put i b := by
  simp [put]

theorem put_of_get (h : s.activities[i]? = some a) : s.put i a = s := by
  obtain ⟨hi, hget⟩ := List.getElem?_eq_some_iff.mp h
  rw [put, ← hget, List.set_getElem_self]

/-- A step leaves an operation where it is, unless the step is one of its own. -/
theorem forall_put {P : Nat → Activity α → Prop} (h : s.activities[i]? = some b)
    (hs : ∀ j a, s.activities[j]? = some a → P j a) (hnew : P i a) :
    ∀ j c, (s.put i a).activities[j]? = some c → P j c := by
  intro j c hj
  rw [getElem?_put h] at hj
  split at hj
  · next hij =>
    cases hj
    exact hij ▸ hnew
  · exact hs j c hj

/-! ## Where the jobs are -/

/-- Where the job of an operation is. -/
inductive Place where
  | waiting (dc : String)
  | running (dc : String)
  deriving DecidableEq, Repr

end Interplay

/-- Where the job is that an operation waits for. -/
def Activity.place? {α : Type} : Activity α → Option Interplay.Place
  | queued dc _ _ => some (.waiting dc)
  | calling via _ _ _ => via.map .running
  | _ => none

namespace Interplay

variable {α : Type} {s s' : Interplay α} {i j : Nat} {a b : Activity α} {e : Event}

def place? (s : Interplay α) (i : Nat) : Option Place :=
  s.activities[i]?.bind Activity.place?

theorem place?_put (h : s.activities[i]? = some b)
    (hs : s'.activities = (s.put i a).activities) (j : Nat) :
    s'.place? j = if i = j then a.place? else s.place? j := by
  unfold place?
  rw [hs, getElem?_put h]
  split <;> rfl

theorem place?_of_get (h : s.activities[i]? = some b) : s.place? i = b.place? := by
  rw [place?, h]
  rfl

/-- The jobs of the queues are those of the operations, each once. -/
structure Placed (s : Interplay α) : Prop where
  running : ∀ dc i, s.queue.running? dc = some i ↔ s.place? i = some (.running dc)
  waiting : ∀ dc i, i ∈ s.queue.pending dc ↔ s.place? i = some (.waiting dc)
  nodup : ∀ dc, (s.queue.pending dc).Nodup

/-- Operations that have yet to begin have no jobs. -/
theorem placed_start {queue : JobQueue Nat} (hidle : queue.IsIdle) (cloud : MemoryCloud)
    (programs : List (Program α)) : (start queue cloud programs).Placed := by
  have hplace : ∀ i, (start queue cloud programs).place? i = none := by
    intro i
    unfold place? start
    rw [List.getElem?_map]
    cases programs[i]? <;> rfl
  refine ⟨fun dc i => ?_, fun dc i => ?_, fun dc => ?_⟩
  · rw [hplace, start, hidle.running? dc]
    simp
  · rw [hplace, start, hidle.pending dc]
    simp
  · rw [start, hidle.pending dc]
    exact .nil

/-- No job has come, gone or started. -/
theorem Placed.put (p : s.Placed) (h : s.activities[i]? = some b)
    (hs : s'.activities = (s.put i a).activities) (ha : a.place? = b.place?)
    (hr : s'.queue.running? = s.queue.running?) (hp : s'.queue.pending = s.queue.pending) :
    s'.Placed := by
  have hplace : ∀ j, s'.place? j = s.place? j := by
    intro j
    rw [place?_put h hs, ha, ← place?_of_get h]
    split
    · next hij => rw [hij]
    · rfl
  exact ⟨fun dc j => by rw [hr, hplace, p.running], fun dc j => by rw [hp, hplace, p.waiting],
    fun dc => hp ▸ p.nodup dc⟩

theorem Placed.accept (p : s.Placed) {dc : String} (h : s.activities[i]? = some b)
    (hs : s'.activities = (s.put i a).activities) (hb : b.place? = none)
    (ha : a.place? = some (.waiting dc)) (hq : s.queue.enqueue dc i = .ok s'.queue) :
    s'.Placed := by
  have hnone : s.place? i = none := (place?_of_get h).trans hb
  refine ⟨fun dc' j => ?running, fun dc' j => ?waiting, fun dc' => ?nodup⟩
  case running =>
    rw [JobQueue.running?_enqueue hq, p.running, place?_put h hs, ha]
    by_cases hij : i = j
    · subst hij
      simp [hnone]
    · rw [if_neg hij]
  case waiting =>
    rw [JobQueue.pending_enqueue hq, List.mem_append, p.waiting, place?_put h hs, ha]
    by_cases hij : i = j
    · subst hij
      by_cases hdc : dc = dc' <;> simp [hnone, hdc]
    · have hji : j ≠ i := fun heq => hij heq.symm
      by_cases hdc : dc = dc' <;> simp [hij, hji, hdc]
  case nodup =>
    rw [JobQueue.pending_enqueue hq]
    split
    · next hdc =>
      subst hdc
      refine List.nodup_append.mpr ⟨p.nodup dc, by simp, fun j hj k hk => ?_⟩
      obtain rfl := List.mem_singleton.mp hk
      rintro rfl
      rw [p.waiting, hnone] at hj
      cases hj
    · rw [List.append_nil]
      exact p.nodup dc'

theorem Placed.begins (p : s.Placed) {dc : String} (h : s.activities[i]? = some b)
    (hs : s'.activities = (s.put i a).activities) (ha : a.place? = some (.running dc))
    (hq : s.queue.start? dc = some (i, s'.queue)) : s'.Placed := by
  have hpending := JobQueue.pending_start hq
  have hwaits : s.place? i = some (.waiting dc) := by
    rw [← p.waiting, hpending]
    simp
  refine ⟨fun dc' j => ?running, fun dc' j => ?waiting, fun dc' => ?nodup⟩
  case running =>
    rw [JobQueue.running?_start hq, place?_put h hs, ha]
    by_cases hdc : dc = dc'
    · subst hdc
      have hfree := p.running dc j
      rw [JobQueue.running?_of_start hq] at hfree
      by_cases hij : i = j
      · simp [hij]
      · simpa [hij] using hfree
    · rw [if_neg hdc, p.running]
      by_cases hij : i = j
      · subst hij
        simp [hwaits, hdc]
      · rw [if_neg hij]
  case waiting =>
    have hmem := p.waiting dc' j
    have hnodup := p.nodup dc'
    rw [hpending] at hmem hnodup
    rw [place?_put h hs, ha]
    by_cases hij : i = j
    · subst hij
      by_cases hdc : dc = dc'
      · subst hdc
        have hcons : (i :: s'.queue.pending dc).Nodup := by simpa using hnodup
        simpa using (List.nodup_cons.mp hcons).1
      · simpa [hdc, hwaits] using hmem
    · rw [if_neg hij, ← hmem]
      have hji : j ≠ i := fun heq => hij heq.symm
      by_cases hdc : dc = dc' <;> simp [hdc, hji]
  case nodup =>
    have hnodup := p.nodup dc'
    rw [hpending] at hnodup
    exact (List.nodup_append.mp hnodup).2.1

theorem Placed.ends (p : s.Placed) {dc : String} (h : s.activities[i]? = some b)
    (hs : s'.activities = (s.put i a).activities) (hb : b.place? = some (.running dc))
    (ha : a.place? = none) (hq : s'.queue = s.queue.finish dc) : s'.Placed := by
  have hruns : s.place? i = some (.running dc) := (place?_of_get h).trans hb
  refine ⟨fun dc' j => ?running, fun dc' j => ?waiting, fun dc' => ?nodup⟩
  case running =>
    rw [hq, JobQueue.running?_finish, place?_put h hs, ha]
    by_cases hdc : dc = dc'
    · subst hdc
      have hfree : i ≠ j → s.place? j ≠ some (.running dc) := by
        intro hij hj
        rw [← p.running, (p.running dc i).mpr hruns] at hj
        exact hij (Option.some.inj hj)
      by_cases hij : i = j
      · simp [hij]
      · simp [hij, hfree hij]
    · rw [if_neg hdc, p.running]
      by_cases hij : i = j
      · subst hij
        simp [hruns, hdc]
      · rw [if_neg hij]
  case waiting =>
    rw [hq, JobQueue.pending_finish, p.waiting, place?_put h hs, ha]
    by_cases hij : i = j
    · subst hij
      simp [hruns]
    · rw [if_neg hij]
  case nodup =>
    rw [hq, JobQueue.pending_finish]
    exact p.nodup dc'

theorem Placed.step (p : s.Placed) (hs : Step s e s') : s'.Placed := by
  cases hs with
  | call h => exact p.put h rfl rfl rfl rfl
  | accept h hq => exact p.accept h rfl rfl rfl hq
  | refuse h hq => exact p.put h rfl rfl rfl rfl
  | start h hq => exact p.begins h rfl rfl hq
  | reach h => exact p.put h rfl rfl rfl rfl
  | @answer i via c flight next r h =>
    cases via with
    | none => exact p.put h rfl rfl rfl rfl
    | some dc => exact p.ends h rfl rfl rfl rfl
  | probe h hr hc => exact ⟨p.running, p.waiting, p.nodup⟩
  | wake x h hr => exact p.put h rfl rfl rfl rfl
  | close h hq => exact p.put h rfl rfl rfl rfl
  | closeAgain h hq => exact p.put h rfl rfl rfl rfl
  | closeReturns h hq => exact p.put h rfl rfl rfl rfl

theorem Run.placed {w : Interplay α} {es : List Event} (p : w.Placed) (h : Run w es s) :
    s.Placed := by
  induction h with
  | nil => exact p
  | snoc h hs ih => exact ih.step hs

/-! ## What is asked for -/

/-- The request that a call is made for. -/
def requestOf (via : Option String) (c : Call) : Request :=
  via.elim (.call c) fun dc => .submit dc c

/-- The request that an event is about, and whose it is. -/
def Event.request? : Event → Option (Nat × Request)
  | make i via c => some (i, requestOf via c)
  | accept i dc c => some (i, .submit dc c)
  | refuse i dc c => some (i, .submit dc c)
  | close i => some (i, .close)
  | closeAgain i => some (i, .close)
  | _ => none

end Interplay

namespace Activity

variable {α : Type} {P : Request → Prop}

/-- Every request that an operation has under way, or can make from here on, has a property. -/
def AsksOnly (P : Request → Prop) : Activity α → Prop
  | going program => program.AsksOnly P
  | calling via c _ next => P (Interplay.requestOf via c) ∧ ∀ r, (next r).AsksOnly P
  | queued dc c next => P (.submit dc c) ∧ ∀ r, (next r).AsksOnly P
  | closing _ next => P .close ∧ (next ()).AsksOnly P

end Activity

namespace Interplay

variable {α : Type} {s s' w : Interplay α} {e : Event} {es : List Event} {P : Nat → Request → Prop}

theorem Step.asksOnly (h : ∀ i (a : Activity α), s.activities[i]? = some a → a.AsksOnly (P i))
    (hs : Step s e s') :
    (∀ i (a : Activity α), s'.activities[i]? = some a → a.AsksOnly (P i)) ∧
      ∀ i r, e.request? = some (i, r) → P i r := by
  cases hs with
  | call hi =>
    have ha := h _ _ hi
    exact ⟨forall_put hi h ha, fun _ _ he => by cases he; exact ha.1⟩
  | accept hi hq =>
    have ha := h _ _ hi
    exact ⟨forall_put hi h ha, fun _ _ he => by cases he; exact ha.1⟩
  | refuse hi hq =>
    have ha := h _ _ hi
    exact ⟨forall_put hi h (ha.2 _), fun _ _ he => by cases he; exact ha.1⟩
  | start hi hq =>
    have ha := h _ _ hi
    exact ⟨forall_put hi h ha, fun _ _ he => by cases he; exact ha.1⟩
  | reach hi =>
    have ha := h _ _ hi
    exact ⟨forall_put hi h ha, fun _ _ he => by cases he⟩
  | answer r hi =>
    have ha := h _ _ hi
    exact ⟨forall_put hi h (ha.2 r), fun _ _ he => by cases he⟩
  | probe hi hr hc => exact ⟨h, fun _ _ he => by cases he⟩
  | wake x hi hr =>
    have ha := h _ _ hi
    exact ⟨forall_put hi h (ha.2 x), fun _ _ he => by cases he⟩
  | close hi hq =>
    have ha := h _ _ hi
    exact ⟨forall_put hi h ⟨ha.1, ha.2 ()⟩, fun _ _ he => by cases he; exact ha.1⟩
  | closeAgain hi hq =>
    have ha := h _ _ hi
    exact ⟨forall_put hi h (ha.2 ()), fun _ _ he => by cases he; exact ha.1⟩
  | closeReturns hi hq =>
    have ha := h _ _ hi
    exact ⟨forall_put hi h ha.2, fun _ _ he => by cases he⟩

/-- What an operation can ask for, it asks for in every run, and for nothing else. -/
theorem Run.asksOnly (hw : ∀ i (a : Activity α), w.activities[i]? = some a → a.AsksOnly (P i))
    (h : Run w es s) :
    (∀ i (a : Activity α), s.activities[i]? = some a → a.AsksOnly (P i)) ∧
      ∀ e ∈ es, ∀ i r, e.request? = some (i, r) → P i r := by
  induction h with
  | nil => exact ⟨hw, by simp⟩
  | snoc h hs ih =>
    obtain ⟨hs', he⟩ := hs.asksOnly ih.1
    refine ⟨hs', fun e' he' => ?_⟩
    rcases List.mem_append.mp he' with he' | he'
    · exact ih.2 e' he'
    · obtain rfl := List.mem_singleton.mp he'
      exact he

theorem asksOnly_start {queue : JobQueue Nat} {cloud : MemoryCloud} {programs : List (Program α)}
    (h : ∀ i (x : Program α), programs[i]? = some x → x.AsksOnly (P i)) :
    ∀ i (a : Activity α),
      (start queue cloud programs).activities[i]? = some a → a.AsksOnly (P i) := by
  intro i a ha
  rw [start, List.getElem?_map] at ha
  obtain ⟨x, hx, rfl⟩ := Option.map_eq_some_iff.mp ha
  exact h i x hx

/-! ## Closing -/

/-- No worker was taken down, and whoever closed the queues waits for the workers of all their
datacenters. -/
structure JoinsAll (s : Interplay α) : Prop where
  isCrashed : ∀ dc, s.queue.isCrashed dc = false
  closing : ∀ (i : Nat) (dcs : List String) (next : Unit → Program α),
    s.activities[i]? = some (.closing dcs next) →
    s.queue.closed = true ∧ dcs = s.queue.datacenters

theorem JoinsAll.put {i : Nat} {a b : Activity α} (j : s.JoinsAll) (h : s.activities[i]? = some b)
    (hs : s'.activities = (s.put i a).activities) (ha : ∀ dcs next, a ≠ .closing dcs next)
    (hcrashed : ∀ dc, s'.queue.isCrashed dc = s.queue.isCrashed dc)
    (hclosed : s.queue.closed = true →
      s'.queue.closed = true ∧ s'.queue.datacenters = s.queue.datacenters) : s'.JoinsAll where
  isCrashed dc := (hcrashed dc).trans (j.isCrashed dc)
  closing k dcs next hk := by
    rw [hs, getElem?_put h] at hk
    split at hk
    · exact absurd (Option.some.inj hk) (ha dcs next)
    · obtain ⟨hcl, rfl⟩ := j.closing k dcs next hk
      exact ⟨(hclosed hcl).1, (hclosed hcl).2.symm⟩

theorem JoinsAll.step (j : s.JoinsAll) (hs : Step s e s') : s'.JoinsAll := by
  cases hs with
  | call h => exact j.put h rfl nofun (fun _ => rfl) (⟨·, rfl⟩)
  | @accept i dc c next q h hq =>
    refine j.put h rfl nofun (JobQueue.isCrashed_enqueue hq) fun hclosed => ?_
    rw [JobQueue.enqueue_of_closed hclosed] at hq
    cases hq
  | refuse h hq => exact j.put h rfl nofun (fun _ => rfl) (⟨·, rfl⟩)
  | start h hq =>
    exact j.put h rfl nofun (JobQueue.isCrashed_start hq) fun hclosed =>
      ⟨(JobQueue.closed_start hq).trans hclosed, JobQueue.datacenters_start hq⟩
  | reach h => exact j.put h rfl nofun (fun _ => rfl) (⟨·, rfl⟩)
  | @answer i via c flight next r h =>
    cases via with
    | none => exact j.put h rfl nofun (fun _ => rfl) (⟨·, rfl⟩)
    | some dc =>
      exact j.put h rfl nofun (JobQueue.isCrashed_finish s.queue dc)
        (⟨·, JobQueue.datacenters_update ..⟩)
  | probe h hr hc => exact ⟨j.isCrashed, j.closing⟩
  | wake x h hr => exact j.put h rfl nofun (fun _ => rfl) (⟨·, rfl⟩)
  | @close i next h hq =>
    refine ⟨j.isCrashed, fun k dcs next' hk => ?_⟩
    have hk : (s.put i (.closing s.queue.handles next)).activities[k]? = _ := hk
    rw [getElem?_put h] at hk
    split at hk
    · cases hk
      exact ⟨rfl, JobQueue.handles_of_open hq⟩
    · have hclosed := (j.closing k dcs next' hk).1
      rw [hq] at hclosed
      cases hclosed
  | closeAgain h hq => exact j.put h rfl nofun (fun _ => rfl) (⟨·, rfl⟩)
  | closeReturns h hq => exact j.put h rfl nofun (fun _ => rfl) (⟨·, rfl⟩)

theorem joinsAll_start {queue : JobQueue Nat} (hidle : queue.IsIdle) (cloud : MemoryCloud)
    (programs : List (Program α)) : (start queue cloud programs).JoinsAll where
  isCrashed := hidle.isCrashed
  closing i dcs next h := by
    rw [start, List.getElem?_map] at h
    obtain ⟨x, -, hx⟩ := Option.map_eq_some_iff.mp h
    cases hx

theorem Run.joinsAll (j : w.JoinsAll) (h : Run w es s) : s.JoinsAll := by
  induction h with
  | nil => exact j
  | snoc _ hs ih => exact ih.step hs

/-- Closing returns when nothing waits or runs. -/
theorem Run.isDrained_of_closeReturns (j : w.JoinsAll) (h : Run w es s) {i : Nat}
    (hs : Step s (.closeReturns i) s') : s.queue.isDrained = true := by
  have hj := h.joinsAll j
  cases hs with
  | @closeReturns i dcs next hi hended =>
    obtain ⟨-, rfl⟩ := hj.closing i dcs next hi
    refine JobQueue.isDrained_of_haveEnded (fun dc hdown => ?_) hended
    rw [hj.isCrashed] at hdown
    cases hdown

end Interplay

end ComputePlane
