import ComputePlane.Proofs.Cloud.Holdings
import ComputePlane.Proofs.World.Simulation

/-!
# What a run leaves of what is held

Nothing is in the way of the calls of a world that is `Steady`, and its cloud has what a dependable
cloud had before and what is held since. A program that names only what it holds leaves such a world
(`Steady.run`). In such a world a watch for a server that is not there ends at once
(`Steady.watch_gone`).
-/

namespace ComputePlane

namespace World

open Program

variable {α : Type} {w : World} {c : MemoryCloud} {h : Holding}

/-- The cloud has what `c` had and what is held. There are no rules in front of it, and the queues
are open and idle. -/
structure Steady (c : MemoryCloud) (h : Holding) (w : World) : Prop where
  rules : w.backend.rules = []
  idle : w.queue.IsIdle
  isOpen : w.queue.closed = false
  setup : w.backend.cloud.setup = c.setup
  consistent : h.Consistent
  holds : c.Holds h w.backend.cloud

/-- Nothing has been held yet. -/
theorem steady_empty (hrules : w.backend.rules = []) (hidle : w.queue.IsIdle)
    (hopen : w.queue.closed = false) : Steady w.backend.cloud {} w :=
  ⟨hrules, hidle, hopen, rfl, fun _ hs => (nomatch hs), .refl _⟩

/-! ## Calls and jobs -/

/-- Without rules, a call is answered by the cloud. -/
theorem call_of_rules_nil (hrules : w.backend.rules = []) (call : Call) :
    (w.call call).1 = (w.backend.cloud.call call).1 ∧
      (w.call call).2.backend.cloud = (w.backend.cloud.call call).2 := by
  have hrule := Backend.rule_arrive hrules w.now call
  have hsettle := Backend.settle_of_rule_none (w.backend.arrive w.now call).2 call hrule
  simp only [World.call, hsettle]
  exact ⟨rfl, rfl⟩

/-- A call does to the cloud what it does to what is held. -/
theorem Steady.call (hc : c.Dependable) (s : Steady c h w) {call : Call} (hcall : h.Permits call) :
    h.Possible call (w.call call).1 ∧
      Steady c (h.after call (w.call call).1) (w.call call).2 := by
  obtain ⟨hresult, hcloud⟩ := call_of_rules_nil s.rules call
  have H : c.Holds (h ++ {}) (w.backend.cloud.begin call).2 := by
    rw [Holding.append_empty, ← MemoryCloud.Holds.content_iff, MemoryCloud.begin_content,
      MemoryCloud.Holds.content_iff]
    exact s.holds
  obtain ⟨hpossible, H'⟩ := H.finish hc s.consistent (fun _ hs => nomatch hs) hcall
    fun e he => hc.spares_begin s.setup he
  rw [Holding.append_empty] at H'
  rw [hresult]
  refine ⟨hpossible, (rules_call w call).trans s.rules, s.idle, s.isOpen, ?_,
    s.consistent.after hcall _, ?_⟩
  · rw [hcloud, MemoryCloud.call, MemoryCloud.setup_finish, MemoryCloud.setup_begin]
    exact s.setup
  · rw [hcloud]
    exact H'

/-- So does a job. -/
theorem Steady.submit (hc : c.Dependable) (s : Steady c h w) (dc : String) {call : Call}
    (hcall : h.Permits call) :
    h.Possible call (w.submit dc call).1 ∧
      Steady c (h.after call (w.submit dc call).1) (w.submit dc call).2 := by
  obtain ⟨q₁, q₂, henq, hstart, hidle, hclosed⟩ := s.idle.exists_start s.isOpen dc 0
  have hresult : (w.submit dc call).1 = ({ w with queue := q₂ }.call call).1 := by
    unfold World.submit
    simp only [henq, hstart]
  have hback : (w.submit dc call).2.backend = (w.call call).2.backend := by
    unfold World.submit
    simp only [henq, hstart]
    rfl
  have hqueue : (w.submit dc call).2.queue = q₂.finish dc := by
    unfold World.submit
    simp only [henq, hstart]
    rfl
  obtain ⟨hpossible, s'⟩ := s.call hc hcall
  rw [hresult]
  exact ⟨hpossible, hback ▸ s'.rules, hqueue ▸ hidle, hqueue ▸ hclosed, hback ▸ s'.setup,
    s'.consistent, hback ▸ s'.holds⟩

/-- What only reads leaves everything as it is. -/
theorem Steady.perform (s : Steady c h w) {r : Request} (hr : isRead r = true) :
    Steady c h (w.perform r).2 := by
  obtain ⟨hread, hqueue⟩ := onlyRead_perform hr w
  refine ⟨hread.rules.trans s.rules, hqueue ▸ s.idle, hqueue ▸ s.isOpen, ?_, s.consistent, ?_⟩
  · rw [← MemoryCloud.setup_content, hread.content]
    exact s.setup
  · rw [← MemoryCloud.Holds.content_iff, hread.content, MemoryCloud.Holds.content_iff]
    exact s.holds

/-- A program that names only what it holds ends as it promises, and leaves a steady world. -/
theorem Steady.run (hc : c.Dependable) {Q : Holding → α → Prop} {x : Program α}
    (s : Steady c h w) (hx : x.Keeps Q h) : ∃ k, Q k (w.run x).1 ∧ Steady c k (w.run x).2 := by
  induction x generalizing w h with
  | done a => exact ⟨h, hx, s⟩
  | request r next ih =>
    cases r with
    | call call =>
      obtain ⟨hpossible, s'⟩ := s.call hc hx.1
      exact ih _ s' (hx.2 _ hpossible)
    | submit dc call =>
      obtain ⟨hpossible, s'⟩ := s.submit hc dc hx.1
      exact ih _ s' (hx.2 _ hpossible)
    | pause d =>
      have s' : Steady c h (w.perform (.pause d)).2 := s.perform rfl
      exact ih () s' hx
    | await watch policy =>
      have s' : Steady c h (w.perform (.await watch policy)).2 := s.perform rfl
      exact ih _ s' (hx _)
    | gather t width keys =>
      have s' : Steady c h (w.perform (.gather t width keys)).2 := s.perform rfl
      exact ih _ s' (hx _)
    | fetch =>
      have s' : Steady c h (w.perform .fetch).2 := s.perform rfl
      exact ih _ s' (hx _)
    | close => exact hx.elim

/-! ## Watching -/

/-- A question that is due is answered at once if no rules are in front of the cloud. -/
theorem poll_pausing (hrules : w.backend.rules = []) (q : Question) (wait : Wait) :
    Asking.poll q w.now w.backend (.pausing wait w.now) =
      (Asking.answered w.now wait (q.holds (w.backend.cloud.call q.call).1),
        (w.call q.call).2.backend) := by
  have hrule := Backend.rule_arrive hrules w.now q.call
  have hdue := Backend.due_arrive hrules w.now q.call
  unfold World.call
  simp only [Asking.poll, Nat.lt_irrefl, if_false, Asking.settle, hdue, Nat.le_refl, if_true,
    Backend.settle_of_rule_none _ q.call hrule]
  rfl

/-- A watch for what has come about already ends at once, if a clock can show its deadline. -/
theorem watch_of_holds (hrules : w.backend.rules = []) {watch : Watch}
    (hholds : watch.question.holds (w.backend.cloud.call watch.question.call).1 = true)
    (policy : PollPolicy) :
    (w.watch watch policy).1 =
      if w.now * millisecond + policy.timeout < clockLimit then .reached else .overflow := by
  have hpoll : (Asking.poll watch.question w.now w.backend (Asking.start policy w.now)).1 =
      .inl (if w.now * millisecond + policy.timeout < clockLimit then .reached else .overflow) := by
    rw [Asking.start_eq]
    split_ifs
    · rw [poll_pausing hrules]
      exact if_pos hholds
    · simp only [Asking.poll, Nat.lt_irrefl, if_false]
  simp only [World.watch, Asking.patience]
  unfold drive
  split
  · next result b heq =>
    rw [show Asking.poll watch.question w.now w.backend _ = _ from heq] at hpoll
    exact Sum.inl.inj hpoll
  · next a b heq =>
    rw [show Asking.poll watch.question w.now w.backend _ = _ from heq] at hpoll
    cases hpoll

/-- The look-up of a server that is not there finds none. -/
theorem Steady.call_getServer (hc : c.Dependable) (s : Steady c h w) {id : NodeId}
    (hid : ¬w.backend.cloud.HasAsset (.server id)) :
    (w.backend.cloud.call (.getServer id)).1 = .ok none := by
  have hbegin : (w.backend.cloud.begin (.getServer id)).1 = none := by
    cases hfailure : (w.backend.cloud.begin (.getServer id)).1 with
    | none => rfl
    | some e => cases hc.spares_begin s.setup hfailure
  have hstored : w.backend.cloud.stored? id = none := by
    refine List.find?_eq_none.mpr fun r hr => ?_
    simpa using fun heq => hid ⟨r, hr, heq⟩
  rw [(MemoryCloud.call_of_begin_none hbegin).1]
  show Except.ok (w.backend.cloud.server? id) = _
  rw [MemoryCloud.server?, hstored]
  rfl

theorem Steady.watch_gone (hc : c.Dependable) (s : Steady c h w) {id : NodeId}
    (hid : ¬w.backend.cloud.HasAsset (.server id)) (policy : PollPolicy) :
    (w.watch (.gone id) policy).1 =
      if w.now * millisecond + policy.timeout < clockLimit then .reached else .overflow := by
  refine watch_of_holds s.rules ?_ policy
  show (Watch.gone id).question.holds (w.backend.cloud.call (.getServer id)).1 = true
  rw [s.call_getServer hc hid]
  rfl

end World

end ComputePlane
