import Mathlib.Data.List.Nodup
import ComputePlane.Proofs.Cloud.Traffic
import ComputePlane.Proofs.Crowd.Simulation
import ComputePlane.Proofs.Lifecycle.Operations

/-!
# One change of a datacenter at a time

However operations on nodes come between each other, and whatever their calls are answered, each of
their changes is made by the running job of the datacenter that the change is about. There is only
one such job at a time, so no two changes of one datacenter are under way together
(`changes_one_at_a_time`).
-/

namespace ComputePlane

open Program

/-! ## The datacenter of a change -/

/-- Every change is made as a job of the datacenter `home`, and names this one if it names any. -/
def isKeyed (home : Option String) : Request → Bool
  | .call c => !c.isChange
  | .submit dc c => home = some dc && c.changes?.all (· = dc)
  | _ => true

theorem Call.isChange_of_changes? {c : Call} {dc : String} (h : c.changes? = some dc) :
    c.isChange = true := by
  cases c <;> first | rfl | cases h

namespace NodeOperation

/-- The datacenter that a change is about: the one that it names, or else that of the node. -/
def concern? (o : NodeOperation) (c : Call) : Option String := c.changes? <|> o.datacenter?

theorem program_isKeyed (o : NodeOperation) :
    o.program.AsksOnly (isKeyed o.datacenter? · = true) := by
  refine o.program_asksOnly (fun r hr => ?_) fun dc c hdc _ hc => ?_
  · cases r <;> first | exact hr | rfl | cases hr
  · simp [isKeyed, hdc, hc]

end NodeOperation

/-- The datacenter for which the cloud is in the middle of a change. -/
def Activity.changing? {α : Type} : Activity α → Option String
  | calling _ c (.begun _) _ => c.changes?
  | _ => none

/-- The change that is under way. -/
def Activity.change? {α : Type} : Activity α → Option Call
  | calling _ c _ _ => if c.isChange then some c else none
  | _ => none

namespace Activity

variable {α : Type} {a : Activity α} {home : Option String} {c : Call} {dc : String}

/-- A change is under way in the running job of its operation's datacenter. -/
theorem place?_of_change (h : a.AsksOnly (isKeyed home · = true)) (hc : a.change? = some c) :
    ∃ dc, home = some dc ∧ a.place? = some (.running dc) ∧ c.changes?.all (· = dc) = true := by
  cases a with
  | going | queued | closing => cases hc
  | calling via c' flight next =>
    have hkeyed : isKeyed home (Interplay.requestOf via c') = true := h.1
    simp only [change?] at hc
    split at hc
    · next hchange =>
      cases hc
      cases via with
      | none => simp [Interplay.requestOf, isKeyed, hchange] at hkeyed
      | some dc =>
        simp only [Interplay.requestOf, Option.elim_some, isKeyed, Bool.and_eq_true,
          decide_eq_true_eq] at hkeyed
        exact ⟨dc, hkeyed.1, rfl, hkeyed.2⟩
    · cases hc

theorem exists_change_of_changing (h : a.changing? = some dc) :
    ∃ c, a.change? = some c ∧ c.changes? = some dc := by
  cases a with
  | going | queued | closing => cases h
  | calling via c flight next =>
    cases flight with
    | made => cases h
    | begun failure => exact ⟨c, if_pos (Call.isChange_of_changes? h), h⟩

theorem place?_of_changing (h : a.AsksOnly (isKeyed home · = true)) (hc : a.changing? = some dc) :
    a.place? = some (.running dc) := by
  obtain ⟨c, hchange, hdc⟩ := exists_change_of_changing hc
  obtain ⟨dc', -, hplace, hall⟩ := place?_of_change h hchange
  obtain rfl : dc = dc' := by simpa [hdc] using hall
  exact hplace

end Activity

namespace Interplay

variable {α : Type} {s s' w : Interplay α} {e : Event} {es : List Event}
  {home : Nat → Option String} {i j : Nat} {a b : Activity α} {dc : String}

/-! ## At the cloud -/

/-- No datacenter has two changes going on, and each of those that has one has it for an operation
that waits for it. -/
structure Exclusive (s : Interplay α) : Prop where
  nodup : s.cloud.inFlight.Nodup
  owner : ∀ dc ∈ s.cloud.inFlight, ∃ (i : Nat) (a : Activity α),
    s.activities[i]? = some a ∧ a.changing? = some dc

/-- No change has begun or ended. -/
theorem Exclusive.put (x : s.Exclusive) (h : s.activities[i]? = some b)
    (hs : s'.activities = (s.put i a).activities) (ha : a.changing? = b.changing?)
    (ht : s'.cloud.traffic = s.cloud.traffic) :
    s'.Exclusive ∧ s'.cloud.overlaps = s.cloud.overlaps := by
  obtain ⟨hflight, hoverlaps⟩ := Prod.mk.inj ht
  refine ⟨⟨hflight ▸ x.nodup, fun dc hdc => ?_⟩, hoverlaps⟩
  rw [hflight] at hdc
  obtain ⟨j, k, hj, hk⟩ := x.owner dc hdc
  rw [hs]
  by_cases hij : i = j
  · subst hij
    obtain rfl : b = k := Option.some.inj (h.symm.trans hj)
    exact ⟨i, a, by rw [getElem?_put h, if_pos rfl], ha.trans hk⟩
  · exact ⟨j, k, by rw [getElem?_put h, if_neg hij, hj], hk⟩

/-- The job of a datacenter that runs is the only one for which the cloud can be changing it. -/
theorem Exclusive.changing_of_running (x : s.Exclusive) (p : s.Placed)
    (k : ∀ i (a : Activity α), s.activities[i]? = some a → a.AsksOnly (isKeyed (home i) · = true))
    (h : s.activities[i]? = some b) (hb : b.place? = some (.running dc))
    (hdc : dc ∈ s.cloud.inFlight) : b.changing? = some dc := by
  obtain ⟨j, a, hj, ha⟩ := x.owner dc hdc
  have hruns : s.queue.running? dc = some j :=
    (p.running dc j).mpr ((place?_of_get hj).trans (Activity.place?_of_changing (k j a hj) ha))
  have hruns' : s.queue.running? dc = some i :=
    (p.running dc i).mpr ((place?_of_get h).trans hb)
  obtain rfl : i = j := Option.some.inj (hruns'.symm.trans hruns)
  obtain rfl : b = a := Option.some.inj (h.symm.trans hj)
  exact ha

theorem Exclusive.begins (x : s.Exclusive) {c : Call} (hc : c.changes? = some dc)
    (h : s.activities[i]? = some b) (hs : s'.activities = (s.put i a).activities)
    (hb : b.changing? = none) (ha : a.changing? = some dc) (hfree : dc ∉ s.cloud.inFlight)
    (hcloud : s'.cloud = (s.cloud.begin c).2) :
    s'.Exclusive ∧ s'.cloud.overlaps = s.cloud.overlaps := by
  have ht := s.cloud.traffic_begin hc
  rw [← hcloud, if_neg (by simpa using hfree)] at ht
  obtain ⟨hflight, hoverlaps⟩ := Prod.mk.inj ht
  refine ⟨⟨?nodup, fun dc' hdc' => ?owner⟩, hoverlaps⟩
  case nodup =>
    rw [hflight]
    exact List.nodup_cons.mpr ⟨hfree, x.nodup⟩
  case owner =>
    rw [hflight] at hdc'
    rw [hs]
    rcases List.mem_cons.mp hdc' with rfl | hdc'
    · exact ⟨i, a, by rw [getElem?_put h, if_pos rfl], ha⟩
    · obtain ⟨j, k, hj, hk⟩ := x.owner dc' hdc'
      have hij : i ≠ j := by
        rintro rfl
        obtain rfl : b = k := Option.some.inj (h.symm.trans hj)
        rw [hb] at hk
        cases hk
      exact ⟨j, k, by rw [getElem?_put h, if_neg hij, hj], hk⟩

theorem Exclusive.ends (x : s.Exclusive) {c : Call} (hc : c.changes? = some dc)
    (h : s.activities[i]? = some b) (hs : s'.activities = (s.put i a).activities)
    (hb : b.changing? = some dc) {failure : Option Error}
    (hcloud : s'.cloud = (s.cloud.finish c failure).2) :
    s'.Exclusive ∧ s'.cloud.overlaps = s.cloud.overlaps := by
  have ht := s.cloud.traffic_finish hc failure
  rw [← hcloud] at ht
  obtain ⟨hflight, hoverlaps⟩ := Prod.mk.inj ht
  refine ⟨⟨hflight ▸ x.nodup.erase dc, fun dc' hdc' => ?_⟩, hoverlaps⟩
  rw [hflight, x.nodup.mem_erase_iff] at hdc'
  obtain ⟨j, k, hj, hk⟩ := x.owner dc' hdc'.2
  have hij : i ≠ j := by
    rintro rfl
    obtain rfl : b = k := Option.some.inj (h.symm.trans hj)
    exact hdc'.1 (Option.some.inj (hk.symm.trans hb))
  rw [hs]
  exact ⟨j, k, by rw [getElem?_put h, if_neg hij, hj], hk⟩

theorem Exclusive.step (x : s.Exclusive) (p : s.Placed)
    (k : ∀ i (a : Activity α), s.activities[i]? = some a → a.AsksOnly (isKeyed (home i) · = true))
    (hs : Step s e s') : s'.Exclusive ∧ s'.cloud.overlaps = s.cloud.overlaps := by
  cases hs with
  | call h => exact x.put h rfl rfl rfl
  | accept h hq => exact x.put h rfl rfl rfl
  | refuse h hq => exact x.put h rfl rfl rfl
  | start h hq => exact x.put h rfl rfl rfl
  | @reach i via c next h =>
    cases hc : c.changes? with
    | none => exact x.put h rfl hc (s.cloud.traffic_begin_of_none hc)
    | some dc =>
      obtain ⟨dc', -, hplace, hall⟩ := Activity.place?_of_change (k i _ h)
        (if_pos (Call.isChange_of_changes? hc))
      obtain rfl : dc = dc' := by simpa [hc] using hall
      -- otherwise it would be this call that has begun
      have hfree : dc ∉ s.cloud.inFlight := fun hmem => by
        cases x.changing_of_running p k h hplace hmem
      exact x.begins hc h rfl rfl hc hfree rfl
  | @answer i via c flight next r h =>
    cases flight with
    | made => exact x.put h rfl rfl rfl
    | begun failure =>
      cases hc : c.changes? with
      | none => exact x.put h rfl hc.symm (s.cloud.traffic_finish_of_none hc failure)
      | some dc => exact x.ends hc h rfl hc rfl
  | @probe i r next c h hr hc =>
    have hnone := MemoryCloud.changes?_of_read hc
    obtain ⟨hflight, hoverlaps⟩ := Prod.mk.inj (s.cloud.traffic_call hnone)
    exact ⟨⟨hflight ▸ x.nodup, fun dc hdc => x.owner dc (hflight ▸ hdc)⟩, hoverlaps⟩
  | wake y h hr => exact x.put h rfl rfl rfl
  | close h hq => exact x.put h rfl rfl rfl
  | closeAgain h hq => exact x.put h rfl rfl rfl
  | closeReturns h hq => exact x.put h rfl rfl rfl

theorem exclusive_start {queue : JobQueue Nat} {cloud : MemoryCloud}
    {programs : List (Program α)} (h : cloud.inFlight = []) :
    (start queue cloud programs).Exclusive :=
  ⟨h ▸ .nil, fun dc hdc => by rw [start, h] at hdc; cases hdc⟩

theorem Run.exclusive (x : w.Exclusive) (p : w.Placed)
    (k : ∀ i (a : Activity α), w.activities[i]? = some a → a.AsksOnly (isKeyed (home i) · = true))
    (h : Run w es s) : s.Exclusive ∧ s.cloud.overlaps = w.cloud.overlaps := by
  induction h with
  | nil => exact ⟨x, rfl⟩
  | snoc h hs ih =>
    obtain ⟨x', hoverlaps⟩ := ih.1.step (h.placed p) (h.asksOnly (P := fun i r =>
      isKeyed (home i) r = true) k).1 hs
    exact ⟨x', hoverlaps.trans ih.2⟩

/-! ## Under way -/

/-- The datacenter of the `i`-th operation's node. -/
def homeOf (operations : List NodeOperation) (i : Nat) : Option String :=
  operations[i]?.bind NodeOperation.datacenter?

/-- Operations on nodes ask for changes as jobs of their nodes' datacenters. -/
theorem isKeyed_start (operations : List NodeOperation) (queue : JobQueue Nat)
    (cloud : MemoryCloud) :
    ∀ i (a : Activity NodeOperation.Result),
      (start queue cloud (operations.map (·.program))).activities[i]? = some a →
      a.AsksOnly (isKeyed (homeOf operations i) · = true) := by
  refine asksOnly_start (P := fun i r => isKeyed (homeOf operations i) r = true) fun i x hx => ?_
  rw [List.getElem?_map] at hx
  obtain ⟨o, ho, rfl⟩ := Option.map_eq_some_iff.mp hx
  rw [homeOf, ho]
  exact o.program_isKeyed

/-- An operation has a change of the datacenter under way. -/
def Changes (operations : List NodeOperation) (s : Interplay NodeOperation.Result) (dc : String)
    (i : Nat) : Prop :=
  ∃ o a c, operations[i]? = some o ∧ s.activities[i]? = some a ∧ a.change? = some c ∧
    o.concern? c = some dc

theorem concern?_eq {o : NodeOperation} {c : Call} (ho : o.datacenter? = some dc)
    (hc : c.changes?.all (· = dc) = true) : o.concern? c = some dc := by
  unfold NodeOperation.concern?
  cases hdc : c.changes? with
  | none => exact ho
  | some dc' =>
    rw [hdc] at hc
    obtain rfl : dc' = dc := by simpa using hc
    rfl

/-- Changes are made one at a time. However operations on nodes come between each other, each change
that is made is a job of its node's datacenter, which is the one that the change names if it names
any. No two operations have changes of one datacenter under way together. The cloud never has more
than one change of a datacenter going on, and counts no overlap. -/
theorem changes_one_at_a_time {operations : List NodeOperation} {queue : JobQueue Nat}
    {cloud : MemoryCloud} {s : Interplay NodeOperation.Result} (hidle : queue.IsIdle)
    (hflight : cloud.inFlight = [])
    (h : Run (start queue cloud (operations.map (·.program))) es s) :
    (∀ i via c, .make i via c ∈ es → c.isChange = true →
      ∃ o dc, operations[i]? = some o ∧ o.datacenter? = some dc ∧ via = some dc ∧
        o.concern? c = some dc) ∧
      (∀ dc i j, Changes operations s dc i → Changes operations s dc j → i = j) ∧
      (∀ dc, s.cloud.inFlight.count dc ≤ 1) ∧ s.cloud.overlaps = cloud.overlaps := by
  have p := placed_start hidle cloud (operations.map (·.program))
  have k := isKeyed_start operations queue cloud
  obtain ⟨x, hoverlaps⟩ := h.exclusive (exclusive_start hflight) p k
  obtain ⟨k', hasked⟩ :=
    h.asksOnly (P := fun i r => isKeyed (homeOf operations i) r = true) k
  refine ⟨fun i via c hmake hc => ?made, fun dc i j hi hj => ?alone,
    List.nodup_iff_count_le_one.mp x.nodup, hoverlaps⟩
  case made =>
    have hkeyed := hasked _ hmake i _ rfl
    cases via with
    | none => simp [requestOf, isKeyed, hc] at hkeyed
    | some dc =>
      simp only [requestOf, Option.elim_some, isKeyed, Bool.and_eq_true,
        decide_eq_true_eq] at hkeyed
      obtain ⟨o, ho, hdc⟩ := Option.bind_eq_some_iff.mp hkeyed.1
      exact ⟨o, dc, ho, hdc, rfl, concern?_eq hdc hkeyed.2⟩
  case alone =>
    -- a change under way is the running job of the datacenter
    have hruns : ∀ i, Changes operations s dc i → s.queue.running? dc = some i := by
      rintro i ⟨o, a, c, ho, ha, hc, hdc⟩
      obtain ⟨dc', hhome, hplace, hall⟩ := Activity.place?_of_change (k' i a ha) hc
      rw [homeOf, ho] at hhome
      obtain rfl : dc' = dc := Option.some.inj ((concern?_eq hhome hall).symm.trans hdc)
      exact ((h.placed p).running dc' i).mpr ((place?_of_get ha).trans hplace)
    exact Option.some.inj ((hruns i hi).symm.trans (hruns j hj))

theorem program_ne_close (operations : List NodeOperation) :
    ∀ x ∈ operations.map (·.program), x.AsksOnly (· ≠ .close) := by
  intro x hx
  obtain ⟨o, -, rfl⟩ := List.mem_map.mp hx
  refine o.program_asksOnly (fun r hr => ?_) fun dc c _ _ _ => Request.noConfusion
  rintro rfl
  cases hr

/-- A node is being restarted, and the job that is to stop another one of its datacenter waits. -/
theorem changes_one_at_a_time_reboot_suspend :
    let server (id : String) : StoredServer :=
      ⟨⟨"dc-1", id⟩, "n", 1, 1024, .available, .running, [], []⟩
    let cloud : MemoryCloud := { issued := 2, servers := [server "srv-1", server "srv-2"] }
    let operations : List NodeOperation := [.reboot {} "dc-1/srv-1", .suspend {} "dc-1/srv-2"]
    ∃ es s, Run (start .empty cloud (operations.map (·.program))) es s ∧
      s.cloud.inFlight = ["dc-1"] ∧ s.queue.pending "dc-1" = [1] ∧ s.cloud.overlaps = 0 ∧
      ∀ dc i j, Changes operations s dc i → Changes operations s dc j → i = j := by
  intro server cloud operations
  let w : World := { backend := { cloud := cloud } }
  obtain ⟨es, s, hrun, hd⟩ :=
    Crowd.exists_run_moves (w := w) JobQueue.isIdle_empty (program_ne_close operations) 3
  obtain ⟨-, halone, -, hoverlaps⟩ := changes_one_at_a_time JobQueue.isIdle_empty rfl hrun
  refine ⟨es, s, hrun, ?_, ?_, hoverlaps, halone⟩
  · rw [← hd.cloud]
    decide +kernel
  · rw [← hd.queue]
    decide +kernel

/-- The same of crowds: whatever number of moves they have made, no two changes of a datacenter have
come together. -/
theorem overlaps_moves {w : World} (hidle : w.queue.IsIdle)
    (hflight : w.backend.cloud.inFlight = []) (operations : List NodeOperation) (count : Nat) :
    ((Crowd.start w (operations.map (·.program))).moves count).world.backend.cloud.overlaps =
      w.backend.cloud.overlaps := by
  obtain ⟨es, s, hrun, hd⟩ := Crowd.exists_run_moves hidle (program_ne_close operations) count
  have p := placed_start hidle w.backend.cloud (operations.map (·.program))
  rw [hd.cloud]
  exact (hrun.exclusive (exclusive_start hflight) p
    (isKeyed_start operations w.queue w.backend.cloud)).2

end Interplay

end ComputePlane
