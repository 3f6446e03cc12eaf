import ComputePlane.Proofs.Cloud.Reading
import ComputePlane.Proofs.Crowd.Interplay

/-!
# Crowds as interplays

What a crowd of operations does, move by move, is one of the orders in which its operations can come
between each other (`Crowd.exists_run_moves`).
-/

namespace ComputePlane

open Program

variable {α : Type}

/-! ## Pictures -/

/-- The task of a crowd shows where an operation is. One that was broken off stays at its wait. -/
inductive Task.Shows : Task α → Activity α → Prop where
  | ready {x} : Shows (.ready x) (.going x)
  | calling {c p next} : Shows (.calling c p next) (.calling none c .made next)
  | queued {dc c next} : Shows (.submitted c .queued next) (.queued dc c next)
  | made {dc c p next} : Shows (.submitted c (.made p) next) (.calling (some dc) c .made next)
  | begun {dc c p failure next} :
      Shows (.submitted c (.begun p failure) next) (.calling (some dc) c (.begun failure) next)
  | pausing {d next} : Shows (.pausing next) (.going (.request (.pause d) next))
  | watching {w policy a next} :
      Shows (.watching w.question a next) (.going (.request (.await w policy) next))
  | broken {w policy next} : Shows .broken (.going (.request (.await w policy) next))
  | gathering {t width keys g next} (h : ∀ s ∈ g.slots, s.Reads) :
      Shows (.gathering t g next) (.going (.request (.gather t width keys) next))
  | fetching {f next} : Shows (.fetching f next) (.going (.request .fetch next))
  | closing {dcs next} : Shows (.closing dcs next) (.closing dcs next)
  | finished {a} : Shows (.finished a) (.going (.done a))

namespace Crowd

open Interplay (Run Step Placed)

variable {c c' c'' : Crowd α} {s s' : Interplay α} {i : Nat} {t : Task α} {a b : Activity α}

/-- A crowd shows where its operations are, and has the queues and the cloud that they share. -/
structure Depicts (c : Crowd α) (s : Interplay α) : Prop where
  queue : c.world.queue = s.queue
  cloud : c.world.backend.cloud = s.cloud
  tasks : ∀ i : Nat, Option.Rel Task.Shows c.tasks[i]? s.activities[i]?

theorem Depicts.put (h : c.Depicts s) (hi : s.activities[i]? = some b) (ht : t.Shows a)
    (hc : c'.tasks = c.tasks.set i t) (hs : s'.activities = (s.put i a).activities)
    (hq : c'.world.queue = s'.queue) (hb : c'.world.backend.cloud = s'.cloud) : c'.Depicts s' := by
  refine ⟨hq, hb, fun j => ?_⟩
  have hlt : i < c.tasks.length := by
    refine Nat.lt_of_not_le fun hge => ?_
    have hrel := h.tasks i
    rw [hi, List.getElem?_eq_none hge] at hrel
    cases hrel
  rw [hc, hs, Interplay.getElem?_put hi, List.getElem?_set]
  by_cases hij : i = j
  · subst hij
    rw [if_pos rfl, if_pos rfl, if_pos hlt]
    exact .some ht
  · rw [if_neg hij, if_neg hij]
    exact h.tasks j

/-- The same operation is shown in another way. -/
theorem Depicts.retake (h : c.Depicts s) (hi : s.activities[i]? = some a) (ht : t.Shows a)
    (hc : c'.tasks = c.tasks.set i t) (hw : c'.world.queue = c.world.queue)
    (hb : c'.world.backend.cloud = c.world.backend.cloud) : c'.Depicts s := by
  refine h.put hi ht hc ?_ (hw.trans h.queue) (hb.trans h.cloud)
  rw [Interplay.put_of_get hi]

/-- What a task shows. -/
theorem Depicts.exists_activity (h : c.Depicts s) (hi : c.tasks[i]? = some t) :
    ∃ a, s.activities[i]? = some a ∧ t.Shows a := by
  have hrel := h.tasks i
  rw [hi] at hrel
  generalize s.activities[i]? = x at hrel
  cases hrel with
  | some ht => exact ⟨_, rfl, ht⟩

/-- What shows where an operation is. -/
theorem Depicts.exists_task (h : c.Depicts s) (hi : s.activities[i]? = some a) :
    ∃ t, c.tasks[i]? = some t ∧ t.Shows a := by
  have hrel := h.tasks i
  rw [hi] at hrel
  generalize c.tasks[i]? = x at hrel
  cases hrel with
  | some ht => exact ⟨_, rfl, ht⟩

/-! ## Moves that are runs -/

/-- Nobody closes the queues, and each job of theirs is that of an operation. -/
structure Settled (s : Interplay α) : Prop where
  placed : s.Placed
  open? : ∀ (i : Nat) (a : Activity α), s.activities[i]? = some a → a.AsksOnly (· ≠ .close)

/-- Whatever the one crowd shows can go on to what the other one shows. -/
def Leads (c c' : Crowd α) : Prop :=
  ∀ s, c.Depicts s → Settled s → ∃ es s', Run s es s' ∧ c'.Depicts s'

theorem Settled.run {es : List Interplay.Event} (h : Settled s) (hr : Run s es s') : Settled s' :=
  ⟨hr.placed h.placed, (hr.asksOnly (P := fun _ r => r ≠ .close) h.open?).1⟩

theorem Leads.refl (c : Crowd α) : c.Leads c := fun s h _ => ⟨[], s, .nil, h⟩

theorem Leads.trans (h : c.Leads c') (h' : c'.Leads c'') : c.Leads c'' := by
  intro s hs hset
  obtain ⟨es, s', hr, hs'⟩ := h s hs hset
  obtain ⟨fs, s'', hr', hs''⟩ := h' s' hs' (hset.run hr)
  exact ⟨es ++ fs, s'', hr.trans hr', hs''⟩

/-- Only the tasks, the queues and the cloud of a crowd show anything. -/
theorem Leads.of_same (ht : c'.tasks = c.tasks) (hq : c'.world.queue = c.world.queue)
    (hb : c'.world.backend.cloud = c.world.backend.cloud) : c.Leads c' :=
  fun s h _ => ⟨[], s, .nil, ⟨hq.trans h.queue, hb.trans h.cloud, ht ▸ h.tasks⟩⟩

/-! ## Calls -/

/-- A call that is settled is answered, after it has reached the cloud unless a rule is in the
way. -/
theorem exists_run_settle {via : Option String} {call : Call} {next : call.Result → Program α}
    (hi : s.activities[i]? = some (.calling via call .made next)) {b : Backend} {p : Pending}
    (hb : b.cloud = s.cloud) :
    ∃ es s', Run s es s' ∧ s'.queue = via.elim s.queue s.queue.finish ∧
      s'.cloud = (b.settle call p).2.cloud ∧
      s'.activities = (s.put i (.going (next (b.settle call p).1))).activities := by
  unfold Backend.settle
  split
  · let begun : Activity α := .calling via call (.begun (s.cloud.begin call).1) next
    let s₁ : Interplay α := { s.put i begun with cloud := (s.cloud.begin call).2 }
    have hi₁ : s₁.activities[i]? = some begun := Interplay.getElem?_put_self hi begun
    have hreach : Run s [.reach i call] s₁ := .one (.reach hi)
    let told := (Backend.override? call p.rule).getD (b.pass call).1
    refine ⟨_, _, hreach.snoc (.answer told hi₁), rfl, ?_, ?_⟩
    · rw [Backend.pass, hb]
      rfl
    · show ((s.put i begun).put i (.going (next told))).activities = _
      rw [Interplay.put_put]
  · exact ⟨_, _, .one (.answer _ hi), rfl, hb.symm, rfl⟩

/-- What an operation that waits does is reading. -/
theorem exists_run_reads {r : Request} {next : r.Response → Program α}
    (hi : s.activities[i]? = some (.going (.request r next))) (hr : Interplay.isPoll r = true)
    {d : MemoryCloud} (hd : s.cloud.ReadSteps d) : ∃ es, Run s es { s with cloud := d } := by
  induction hd with
  | refl => exact ⟨[], .nil⟩
  | call _ hc ih =>
    obtain ⟨es, h⟩ := ih
    exact ⟨_, h.snoc (.probe hi hr hc)⟩

/-! ## Operations -/

@[simp] theorem tasks_put (c : Crowd α) (i : Nat) (t : Task α) :
    (c.put i t).tasks = c.tasks.set i t := rfl

/-- An operation that can go on does so, until it has to wait, by events of its own. -/
def GoesOn (i : Nat) (x : Program α) : Prop :=
  ∀ c s, (c.put i (.ready x)).Depicts s → Settled s → s.activities[i]? = some (.going x) →
    ∃ es s', Run s es s' ∧ (advance i x c).Depicts s'

theorem GoesOn.after {x : Program α} (hx : GoesOn i x) (hd : (c.put i t).Depicts s)
    (hset : Settled s) (hi : s.activities[i]? = some b) {es : List Interplay.Event}
    (hrun : Run s es s') (hs : s'.activities = (s.put i (.going x)).activities)
    (hc : c'.tasks = c.tasks) (hq : c'.world.queue = s'.queue)
    (hb : c'.world.backend.cloud = s'.cloud) :
    ∃ es s', Run s es s' ∧ (advance i x c').Depicts s' := by
  have hd' : (c'.put i (.ready x)).Depicts s' :=
    hd.put hi .ready (by simp [hc]) hs hq hb
  have hi' : s'.activities[i]? = some (.going x) := by
    rw [hs]
    exact Interplay.getElem?_put_self hi _
  obtain ⟨fs, s'', hrun', hd''⟩ := hx c' s' hd' (hset.run hrun) hi'
  exact ⟨es ++ fs, s'', hrun.trans hrun', hd''⟩

/-- A wait that ends. -/
theorem GoesOn.ofPoll {r : Request} {next : r.Response → Program α} {y : r.Response}
    (hx : GoesOn i (next y)) (hd : (c.put i t).Depicts s) (hset : Settled s)
    (hi : s.activities[i]? = some (.going (.request r next))) (hr : Interplay.isPoll r = true)
    {b : Backend} (hread : c.world.backend.OnlyRead b) :
    ∃ es s', Run s es s' ∧ (advance i (next y) (c.withBackend b)).Depicts s' := by
  obtain ⟨es, hprobes⟩ := exists_run_reads hi hr (hd.cloud ▸ hread.reads)
  exact hx.after hd hset hi (hprobes.snoc (.wake y hi hr)) rfl rfl hd.queue rfl

/-- A wait that does not end. -/
theorem exists_run_still {r : Request} {next : r.Response → Program α} {u : Task α}
    (hd : (c.put i t).Depicts s) (hi : s.activities[i]? = some (.going (.request r next)))
    (hr : Interplay.isPoll r = true) {b : Backend} (hread : c.world.backend.OnlyRead b)
    (hu : u.Shows (.going (.request r next))) :
    ∃ es s', Run s es s' ∧ ((c.withBackend b).put i u).Depicts s' := by
  obtain ⟨es, hprobes⟩ := exists_run_reads hi hr (hd.cloud ▸ hread.reads)
  refine ⟨es, _, hprobes, ?_⟩
  have hself : { s with cloud := b.cloud }.activities =
      (s.put i (.going (.request r next))).activities := by
    rw [Interplay.put_of_get hi]
  exact hd.put hi hu (by simp [withBackend]) hself hd.queue rfl

/-- A wait that goes on. -/
theorem exists_run_wait {r : Request} {next : r.Response → Program α} {u : Task α}
    (hd : (c.put i t).Depicts s) (hi : s.activities[i]? = some (.going (.request r next)))
    (hr : Interplay.isPoll r = true) {b : Backend} (hread : c.world.backend.OnlyRead b)
    (hu : u.Shows (.going (.request r next))) (time : Nat) :
    ∃ es s', Run s es s' ∧ (((c.withBackend b).put i u).setTimer time (.task i)).Depicts s' := by
  obtain ⟨es, s', hrun, hd'⟩ := exists_run_still hd hi hr hread hu
  exact ⟨es, s', hrun, hd'.queue, hd'.cloud, hd'.tasks⟩

theorem goesOn (i : Nat) (x : Program α) : GoesOn i x := by
  induction x with
  | done a =>
    intro c s hd hset hi
    exact ⟨[], s, .nil, hd.retake hi .finished (by simp [advance]) rfl rfl⟩
  | request r next ih =>
    intro c s hd hset hi
    cases r with
    | call call =>
      have hmade := Run.one (.call hi)
      simp only [advance]
      split
      · obtain ⟨es, s', hsettle, hq, hb, hs⟩ := exists_run_settle
          (Interplay.getElem?_put_self hi (.calling none call .made next))
          (b := (c.world.backend.arrive c.world.now call).2)
          (p := (c.world.backend.arrive c.world.now call).1) hd.cloud
        rw [Interplay.put_put] at hs
        exact (ih _).after hd hset hi (hmade.trans hsettle) hs rfl (hd.queue.trans hq.symm) hb.symm
      · exact ⟨_, _, hmade, hd.put (t := .calling call _ next) hi .calling
          (by simp [setTimer, withBackend]; rfl) rfl hd.queue hd.cloud⟩
    | submit dc call =>
      simp only [advance]
      cases hq : c.world.queue.enqueue dc i with
      | error e =>
        have hrefuse := Run.one (.refuse hi (hd.queue ▸ hq))
        exact (ih _).after hd hset hi hrefuse rfl rfl hd.queue hd.cloud
      | ok q =>
        have haccept := Run.one (.accept hi (hd.queue ▸ hq))
        refine ⟨_, _, haccept, ?_⟩
        dsimp only
        split <;> exact hd.put (t := .submitted call .queued next) hi .queued
          (by simp [withQueue, wake]) rfl rfl hd.cloud
    | pause d =>
      simp only [advance]
      split
      · exact (ih ()).ofPoll hd hset hi rfl (.refl _)
      · exact exists_run_wait hd hi rfl (.refl _) .pausing _
    | await w policy =>
      have hread := Asking.onlyRead_poll w.question_isRead c.world.now c.world.backend
        (Asking.start policy c.world.now)
      rcases hpoll : Asking.poll w.question c.world.now c.world.backend
        (Asking.start policy c.world.now) with ⟨outcome | a, b⟩ <;> rw [hpoll] at hread <;>
        simp only [advance, hpoll]
      · split
        · exact exists_run_still hd hi rfl hread .broken
        · exact (ih _).ofPoll hd hset hi rfl hread
      · exact exists_run_wait hd hi rfl hread .watching a.wake
    | gather u width keys =>
      obtain ⟨hread, hslots⟩ := Gathering.onlyRead_poll c.world.now c.world.backend
        (Gathering.start u width keys) (by simp [Gathering.start])
      rcases hpoll : Gathering.poll c.world.now c.world.backend
        (Gathering.start u width keys) with ⟨r | g, b⟩ <;> rw [hpoll] at hread hslots <;>
        simp only [advance, hpoll]
      · exact (ih r).ofPoll hd hset hi rfl hread
      · exact exists_run_wait hd hi rfl hread (.gathering (hslots g rfl)) g.wake
    | fetch =>
      have hread := Fetching.onlyRead_poll c.world.now c.world.backend .start
      rcases hpoll : Fetching.poll c.world.now c.world.backend .start with ⟨r | f, b⟩ <;>
        rw [hpoll] at hread <;> simp only [advance, hpoll]
      · exact (ih r).ofPoll hd hset hi rfl hread
      · exact exists_run_wait hd hi rfl hread .fetching f.wake
    | close => exact absurd rfl (hset.open? i _ hi).1

theorem put_of_get (h : c.tasks[i]? = some t) : c.put i t = c := by
  obtain ⟨hlt, hget⟩ := List.getElem?_eq_some_iff.mp h
  rw [put, ← hget, List.set_getElem_self]

theorem leads_runTask (c : Crowd α) (i : Nat) : c.Leads (c.runTask i) := by
  intro s hc hset
  rcases ht : c.tasks[i]? with _ | t
  · simp only [runTask, ht]
    exact ⟨[], s, .nil, hc⟩
  obtain ⟨a, hi, hshows⟩ := hc.exists_activity ht
  have hd : (c.put i t).Depicts s := by rwa [put_of_get ht]
  cases hshows with
  | ready =>
    simp only [runTask, ht]
    exact goesOn i _ c s hd hset hi
  | @calling call p next =>
    obtain ⟨es, s', hsettle, hq, hb, hs⟩ := exists_run_settle hi (p := p) hc.cloud
    simp only [runTask, ht]
    exact (goesOn i _).after hd hset hi hsettle hs rfl (hc.queue.trans hq.symm) hb.symm
  | pausing =>
    simp only [runTask, ht]
    exact (goesOn i _).ofPoll hd hset hi rfl (.refl _)
  | @watching w policy a next =>
    have hread := Asking.onlyRead_poll w.question_isRead c.world.now c.world.backend a
    rcases hpoll : Asking.poll w.question c.world.now c.world.backend a with ⟨outcome | a', b⟩ <;>
      rw [hpoll] at hread <;> simp only [runTask, ht, hpoll]
    · split
      · exact exists_run_still hd hi rfl hread .broken
      · exact (goesOn i _).ofPoll hd hset hi rfl hread
    · exact exists_run_wait hd hi rfl hread .watching a'.wake
  | @gathering u width keys g next hslots =>
    obtain ⟨hread, hslots'⟩ := Gathering.onlyRead_poll c.world.now c.world.backend g hslots
    rcases hpoll : Gathering.poll c.world.now c.world.backend g with ⟨r | g', b⟩ <;>
      rw [hpoll] at hread hslots' <;> simp only [runTask, ht, hpoll]
    · exact (goesOn i _).ofPoll hd hset hi rfl hread
    · exact exists_run_wait hd hi rfl hread (.gathering (hslots' g' rfl)) g'.wake
  | @fetching f next =>
    have hread := Fetching.onlyRead_poll c.world.now c.world.backend f
    rcases hpoll : Fetching.poll c.world.now c.world.backend f with ⟨r | f', b⟩ <;>
      rw [hpoll] at hread <;> simp only [runTask, ht, hpoll]
    · exact (goesOn i _).ofPoll hd hset hi rfl hread
    · exact exists_run_wait hd hi rfl hread .fetching f'.wake
  | closing => exact absurd rfl (hset.open? i _ hi).1
  | queued | made | begun | broken | finished =>
    simp only [runTask, ht]
    exact ⟨[], s, .nil, hc⟩

/-! ## Workers -/

theorem same_wakeCloser (c : Crowd α) :
    c.wakeCloser.tasks = c.tasks ∧ c.wakeCloser.world = c.world := by
  have hwake : ∀ (ms : List Mover) (c : Crowd α),
      (ms.foldl wake c).tasks = c.tasks ∧ (ms.foldl wake c).world = c.world := by
    intro ms
    induction ms with
    | nil => exact fun c => ⟨rfl, rfl⟩
    | cons m ms ih => exact fun c => ih (c.wake m)
  exact hwake _ c

theorem Depicts.finishJob (hd : c.Depicts s) (hi : s.activities[i]? = some a) {dc : String}
    {call : Call} {r : call.Result} {next : call.Result → Program α} {b : Backend}
    (hq : s'.queue = s.queue.finish dc) (hb : b.cloud = s'.cloud)
    (hs : s'.activities = (s.put i (.going (next r))).activities) :
    ((c.withBackend b).finishJob dc i call r next).Depicts s' := by
  unfold Crowd.finishJob
  obtain ⟨htasks, hworld⟩ := same_wakeCloser
    ((((c.withBackend b).withQueue ((c.withBackend b).world.queue.finish dc)).put i
      (.ready (next r))).wake (.task i))
  refine hd.put hi .ready (by rw [htasks]; rfl) hs ?_ ?_
  · rw [hworld, hq, ← hd.queue]
    rfl
  · rw [hworld, ← hb]
    rfl

/-- The running job of a datacenter goes on. -/
theorem leads_runJob {dc : String} (hq : c.world.queue.running? dc = some i) :
    c.Leads (c.runJob dc i).1 := by
  intro s hc hset
  have hplace : s.place? i = some (.running dc) := by
    rw [← hset.placed.running, ← hc.queue, hq]
  obtain ⟨a, hi, ha⟩ := Option.bind_eq_some_iff.mp hplace
  obtain ⟨t, ht, hshows⟩ := hc.exists_task hi
  cases hshows with
  | ready | calling | queued | pausing | watching | broken => cases ha
  | gathering | fetching | closing | finished => cases ha
  | @made dc' call p next =>
    cases ha
    obtain ⟨es, s', hsettle, hqueue, hcloud, hs⟩ := exists_run_settle hi (p := p) hc.cloud
    by_cases hreach : Backend.reaches call p.rule = true
    · simp only [runJob, ht, hreach, not_true_eq_false, if_false]
      split
      · refine ⟨_, _, .one (.reach hi), ?_⟩
        refine hc.put (t := .submitted call (.begun p (s.cloud.begin call).1) next) hi .begun ?_ rfl
          hc.queue ?_
        · rw [← hc.cloud]
          rfl
        · rw [← hc.cloud]
          rfl
      · rw [Backend.settle, if_pos hreach] at hcloud hs
        exact ⟨es, s', hsettle, hc.finishJob hi hqueue hcloud.symm hs⟩
    · simp only [runJob, ht, hreach]
      exact ⟨es, s', hsettle, hc.finishJob hi hqueue hcloud.symm hs⟩
  | @begun dc' call p failure next =>
    cases ha
    simp only [runJob, ht]
    refine ⟨_, _, .one (.answer _ hi), hc.finishJob hi rfl ?_ rfl⟩
    rw [hc.cloud]
    rfl

/-- The first job that waits for a free worker starts. -/
theorem leads_startJob {dc : String} {q : JobQueue Nat}
    (hq : c.world.queue.start? dc = some (i, q)) :
    c.Leads ((c.withQueue q).startJob i).1 := by
  intro s hc hset
  rw [hc.queue] at hq
  have hplace : s.place? i = some (.waiting dc) := by
    rw [← hset.placed.waiting, JobQueue.pending_start hq]
    simp
  obtain ⟨a, hi, ha⟩ := Option.bind_eq_some_iff.mp hplace
  obtain ⟨t, ht, hshows⟩ := hc.exists_task hi
  cases hshows with
  | ready | calling | made | begun | pausing | watching | broken => cases ha
  | gathering | fetching | closing | finished => cases ha
  | @queued dc' call next =>
    cases ha
    have ht' : (c.withQueue q).tasks[i]? = some (.submitted call .queued next) := ht
    simp only [startJob, ht']
    exact ⟨_, _, .one (.start hi hq), hc.put hi .made rfl rfl rfl hc.cloud⟩

/-- Where a worker goes on after what it does, if that is done. -/
theorem Leads.goOn {f : Crowd α → Crowd α} (hf : ∀ c', Leads c' (f c')) {x : Crowd α × Bool} :
    c.Leads x.1 → c.Leads (match x with
      | (c', true) => f c'
      | (c', false) => c') := by
  intro h
  obtain ⟨c', done⟩ := x
  cases done with
  | false => exact h
  | true => exact h.trans (hf c')

theorem queue_startJob (c : Crowd α) (q : JobQueue Nat) (i : Nat) :
    ((c.withQueue q).startJob i).1.world.queue = q := by
  unfold startJob
  split <;> rfl

/-- A worker starts jobs until one has to wait. -/
theorem leads_serve (dc : String) (count : Nat) (c : Crowd α) : c.Leads (serve dc count c) := by
  induction count generalizing c with
  | zero => exact .refl c
  | succ count ih =>
    unfold serve
    cases hq : c.world.queue.start? dc with
    | none => exact .refl c
    | some iq =>
      obtain ⟨i, q⟩ := iq
      have hstart := leads_startJob hq
      have hruns : ((c.withQueue q).startJob i).1.world.queue.running? dc = some i := by
        rw [queue_startJob]
        exact (JobQueue.running?_start hq dc).trans (if_pos rfl)
      dsimp only
      split
      · exact hstart.trans (.of_same rfl rfl rfl)
      · exact .goOn ih (hstart.trans (leads_runJob hruns))

theorem leads_runWorker (c : Crowd α) (dc : String) : c.Leads (c.runWorker dc) := by
  unfold runWorker
  dsimp only
  split
  · exact leads_serve dc _ c
  · next i hq => exact .goOn (leads_serve dc _) (leads_runJob hq)

/-! ## Moves -/

theorem leads_fire (c : Crowd α) : c.Leads c.fire := by
  unfold fire
  split
  · exact .refl c
  · exact .of_same rfl rfl rfl

theorem leads_move (c : Crowd α) : c.Leads c.move := by
  unfold move
  split
  · exact leads_fire c
  · next i rest _ =>
    have hready : c.Leads { c with ready := rest } := .of_same rfl rfl rfl
    exact hready.trans (leads_runTask _ i)
  · next dc rest _ =>
    have hready : c.Leads { c with ready := rest } := .of_same rfl rfl rfl
    exact hready.trans (leads_runWorker _ dc)

theorem leads_moves (count : Nat) (c : Crowd α) : c.Leads (c.moves count) := by
  induction count generalizing c with
  | zero => exact .refl c
  | succ count ih =>
    unfold moves
    split
    · exact .refl c
    · exact (leads_move c).trans (ih c.move)

theorem depicts_start (w : World) (programs : List (Program α)) :
    (Crowd.start w programs).Depicts (Interplay.start w.queue w.backend.cloud programs) := by
  refine ⟨rfl, rfl, fun i => ?_⟩
  simp only [Crowd.start, Interplay.start, List.getElem?_map]
  cases programs[i]? with
  | none => exact .none
  | some x => exact .some .ready

/-- What a crowd has come to after any number of moves is what its operations can come to by a run,
if none of them closes the queues. -/
theorem exists_run_moves {w : World} (hidle : w.queue.IsIdle) {programs : List (Program α)}
    (hopen : ∀ x ∈ programs, x.AsksOnly (· ≠ .close)) (count : Nat) :
    ∃ es s, Run (Interplay.start w.queue w.backend.cloud programs) es s ∧
      ((Crowd.start w programs).moves count).Depicts s := by
  refine leads_moves count _ _ (depicts_start w programs)
    ⟨Interplay.placed_start hidle w.backend.cloud programs, ?_⟩
  exact Interplay.asksOnly_start (P := fun _ r => r ≠ .close) fun i x hx =>
    hopen x (List.mem_of_getElem? hx)

end Crowd

end ComputePlane
