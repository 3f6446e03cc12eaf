import ComputePlane.Proofs.Crowd.Ownership
import ComputePlane.Proofs.Lifecycle.Building

/-!
# A creation and a shutdown

A creation goes on while others close the queues. Nothing fails in the cloud, so the creation gives
nothing up as long as the queues are open. Once they are closed, its rollback is refused like every
other change. Each event keeps to this (`Building.step`), and so does each run (`Run.building`):
whenever the queues are closed, all that the creation has made is still there
(`shutdown_undoes_nothing`).
-/

namespace ComputePlane

open Program

/-! ## Operations that give nothing up -/

namespace Program

variable {α : Type}

/-- A program that names only what it holds, and deletes nothing as long as its sure changes
succeed. -/
def Grows (h : Holding) (x : Program α) : Prop :=
  x.Keeps (fun _ _ => True) h ∧ x.Builds fun _ => True

theorem Grows.submit {h : Holding} {dc : String} {c : Call} {next : c.Result → Program α}
    (hx : (request (.submit dc c) next).Grows h) :
    h.Permits c ∧ c.isDelete = false ∧
      ∀ r, h.Possible c r → c.Sure r → (next r).Grows (h.after c r) :=
  ⟨hx.1.1, hx.2.1, fun r hr hsure => ⟨hx.1.2 r hr, hx.2.2 r hsure⟩⟩

theorem Grows.call {h : Holding} {c : Call} {next : c.Result → Program α}
    (hx : (request (.call c) next).Grows h) (r : c.Result) (hr : h.Possible c r) :
    (next r).Grows (h.after c r) :=
  ⟨hx.1.2 r hr, hx.2 r⟩

theorem Grows.poll {h : Holding} {r : Request} {next : r.Response → Program α}
    (hx : (request r next).Grows h) (hr : Interplay.isPoll r = true) (x : r.Response) :
    (next x).Grows h := by
  refine ⟨Interplay.keeps_of_isPoll hx.1 hr x, ?_⟩
  cases r with
  | pause d => exact hx.2
  | await w p => exact hx.2 x
  | gather t width keys => exact hx.2 x
  | fetch => exact hx.2 x
  | call | submit | close => cases hr

end Program

/-- The call is not to fail. -/
def Flight.IsSmooth : Flight → Prop
  | made => True
  | begun failure => failure = none

namespace Activity

variable {α : Type} {p q : Prop} {h : Holding} {a : Activity α}

/-- An operation that holds `h` gives nothing up as long as the queues are open. Once they are
closed, only the call counts that is on its way or waits. -/
def Grows (isOpen : Prop) (h : Holding) : Activity α → Prop
  | going program => isOpen → program.Grows h
  | calling _ c flight next =>
    flight.IsSmooth ∧ h.Permits c ∧ c.isDelete = false ∧
      (isOpen → ∀ r, h.Possible c r → c.Sure r → (next r).Grows (h.after c r))
  | queued _ c next =>
    h.Permits c ∧ c.isDelete = false ∧
      (isOpen → ∀ r, h.Possible c r → c.Sure r → (next r).Grows (h.after c r))
  | closing .. => False

theorem Grows.mono (ha : a.Grows p h) (hpq : q → p) : a.Grows q h := by
  cases a with
  | going program => exact fun hq => ha (hpq hq)
  | calling via c flight next =>
    obtain ⟨hflight, hpermits, hdelete, hnext⟩ := ha
    exact ⟨hflight, hpermits, hdelete, fun hq => hnext (hpq hq)⟩
  | queued dc c next =>
    obtain ⟨hpermits, hdelete, hnext⟩ := ha
    exact ⟨hpermits, hdelete, fun hq => hnext (hpq hq)⟩
  | closing dcs next => exact ha

/-- A change is on its way or waits. -/
def Changes : Activity α → Prop
  | calling _ c _ _ => c.isChange = true
  | queued _ c _ => c.isChange = true
  | _ => False

end Activity

namespace MemoryCloud

variable {c d : MemoryCloud} {call : Call} {h : Holding}

/-- A call that deletes nothing and is not to fail. -/
theorem Holds.finish_none (hc : c.IdsIssued) (H : Holds c h d) (hh : h.Consistent)
    (hcall : h.Permits call) (hdelete : call.isDelete = false) :
    h.Possible call (d.finish call none).1 ∧ call.Sure (d.finish call none).1 ∧
      Holds c (h.after call (d.finish call none).1) (d.finish call none).2 := by
  obtain ⟨hresult, hcontent⟩ := d.finish_none call
  have H' : Holds c (h ++ {}) d.content := by
    rw [Holding.append_empty]
    exact content_iff.mpr H
  obtain ⟨hpossible, H''⟩ := H'.apply_of_not_delete hc hh hcall hdelete
  rw [Holding.append_empty] at H''
  rw [← content_iff, hresult, hcontent]
  exact ⟨hpossible, H'.sure_apply hcall, H''⟩

end MemoryCloud

namespace Interplay

variable {α : Type} {s s' w : Interplay α} {e : Event} {es : List Event} {a a' : Activity α}

/-! ## Those who close the queues -/

/-- An operation that closes the queues and ends with `r`. -/
def closer (r : α) : Program α := do
  Program.close
  return r

theorem closer_asksOnly (r : α) : (closer r).AsksOnly (· = .close) := ⟨rfl, fun _ => trivial⟩

/-- Whose an event is. -/
def Event.actor : Event → Nat
  | make i _ _ => i
  | accept i _ _ => i
  | refuse i _ _ => i
  | reach i _ => i
  | answer i _ _ _ => i
  | probe i _ => i
  | wake i => i
  | close i => i
  | closeAgain i => i
  | closeReturns i => i

/-- The first operation makes each change as a job of the datacenter it changes. All others do
nothing but close the queues. -/
def IsPlanned : Nat → Request → Prop
  | 0, r => isOrderly r = true
  | _ + 1, r => r = .close

/-- What those do who close the queues: nothing else is changed. -/
theorem Step.of_closer (hs : Step s e s')
    (hcloser : ∀ b, s.activities[e.actor]? = some b → b.AsksOnly (· = .close)) :
    s'.cloud = s.cloud ∧ (∀ dc, s'.queue.isCrashed dc = s.queue.isCrashed dc) ∧
      (s'.queue.closed = false → s.queue.closed = false) ∧
      (∀ j, j ≠ e.actor → s'.activities[j]? = s.activities[j]?) ∧ e.made? = none := by
  have hother {i : Nat} {b b' : Activity α} (h : s.activities[i]? = some b) (j : Nat) (hj : j ≠ i) :
      (s.put i b').activities[j]? = s.activities[j]? := by
    rw [getElem?_put h, if_neg (Ne.symm hj)]
  cases hs with
  | call h => cases (hcloser _ h).1
  | accept h hq => cases (hcloser _ h).1
  | refuse h hq => cases (hcloser _ h).1
  | start h hq => cases (hcloser _ h).1
  | @reach i via c next h => cases via <;> cases (hcloser _ h).1
  | @answer i via c flight next r h => cases via <;> cases (hcloser _ h).1
  | probe h hr hc =>
    obtain rfl := (hcloser _ h).1
    cases hr
  | wake x h hr =>
    obtain rfl := (hcloser _ h).1
    cases hr
  | close h hq => exact ⟨rfl, fun dc => s.queue.isCrashed_close dc, fun _ => hq, hother h, rfl⟩
  | closeAgain h hq => exact ⟨rfl, fun _ => rfl, id, hother h, rfl⟩
  | closeReturns h hq => exact ⟨rfl, fun _ => rfl, id, hother h, rfl⟩

/-! ## The invariant -/

/-- The cloud has what `c` had and all that the first operation has made. -/
structure Building (c : MemoryCloud) (es : List Event) (h : Holding) (a : Activity α)
    (s : Interplay α) : Prop where
  here : s.activities[0]? = some a
  grows : a.Grows (s.queue.closed = false) h
  consistent : h.Consistent
  holds : c.Holds h s.cloud
  setup : s.cloud.setup = c.setup
  isCrashed : ∀ dc, s.queue.isCrashed dc = false
  made : ∀ x, MadeBy es 0 x ↔ x ∈ h.assets
  accepted : (∃ dc call, .accept 0 dc call ∈ es) ↔ h.assets ≠ [] ∨ a.Changes

variable {c : MemoryCloud} {h : Holding}

/-- Nothing is made and no job is accepted. -/
theorem Building.quiet (b : Building c es h a s) (here : s'.activities[0]? = some a')
    (hgrows : a'.Grows (s'.queue.closed = false) h) (hchanges : a'.Changes ↔ a.Changes)
    (hcloud : s'.cloud.content = s.cloud.content)
    (hcrashed : ∀ dc, s'.queue.isCrashed dc = s.queue.isCrashed dc) (hmade : e.made? = none)
    (haccept : ∀ dc call, e ≠ .accept 0 dc call) : Building c (es ++ [e]) h a' s' := by
  refine ⟨here, hgrows, b.consistent, ?holds, ?setup,
    fun dc => (hcrashed dc).trans (b.isCrashed dc), fun x => ?made, ?accepted⟩
  case holds =>
    rw [← MemoryCloud.Holds.content_iff, hcloud, MemoryCloud.Holds.content_iff]
    exact b.holds
  case setup =>
    rw [← MemoryCloud.setup_content, hcloud]
    exact b.setup
  case made => simp [madeBy_snoc, hmade, b.made]
  case accepted =>
    rw [hchanges, ← b.accepted]
    simp [fun dc call => (haccept dc call).symm]

theorem Building.accept (b : Building c es h a s) {dc : String} {call : Call}
    {next : call.Result → Program α} (here : s'.activities[0]? = some (.queued dc call next))
    (hgrows : (Activity.queued dc call next).Grows (s'.queue.closed = false) h)
    (hchange : call.isChange = true) (hcloud : s'.cloud = s.cloud)
    (hcrashed : ∀ dc, s'.queue.isCrashed dc = s.queue.isCrashed dc) :
    Building c (es ++ [.accept 0 dc call]) h (.queued dc call next) s' where
  here := here
  grows := hgrows
  consistent := b.consistent
  holds := hcloud ▸ b.holds
  setup := hcloud ▸ b.setup
  isCrashed dc := (hcrashed dc).trans (b.isCrashed dc)
  made x := by simp [madeBy_snoc, Event.made?, b.made]
  accepted := ⟨fun _ => .inr hchange, fun _ => ⟨dc, call, by simp⟩⟩

theorem Building.answer (hc : c.IdsIssued) {via : Option String} {call : Call}
    {next : call.Result → Program α}
    (b : Building c es h (.calling via call (.begun none) next) s) {r : call.Result}
    (hr : (s.cloud.finish call none).1 = r) (told : Option call.Result) :
    Building c (es ++ [.answer 0 call told r]) (h.after call r) (.going (next r))
      { s.put 0 (.going (next r)) with
        queue := via.elim s.queue s.queue.finish
        cloud := (s.cloud.finish call none).2 } := by
  obtain ⟨-, hpermits, hdelete, hnext⟩ := b.grows
  obtain ⟨hpossible, hsure, H⟩ := b.holds.finish_none hc b.consistent hpermits hdelete
  rw [hr] at hpossible hsure H
  have hafter : ∀ x, x ∈ (h.after call r).assets ↔ x ∈ h.assets ∨ call.made? r = some x :=
    fun x => Holding.mem_assets_after_iff hdelete
  refine ⟨getElem?_put_self b.here _, ?grows, b.consistent.after hpermits r, H,
    (MemoryCloud.setup_finish ..).trans b.setup, ?isCrashed, fun x => ?made, ?accepted⟩
  case grows =>
    intro hopen
    refine hnext ?_ r hpossible hsure
    cases via with
    | none => exact hopen
    | some dc => simpa using hopen
  case isCrashed =>
    intro dc
    cases via <;> simp [b.isCrashed]
  case made =>
    rw [madeBy_snoc, b.made, hafter]
    simp [Event.made?]
  case accepted =>
    have hbefore : (∃ dc call', Event.accept 0 dc call' ∈ es ++ [.answer 0 call told r]) ↔
        h.assets ≠ [] ∨ call.isChange = true := by
      rw [← show _ ↔ h.assets ≠ [] ∨ call.isChange = true from b.accepted]
      simp
    rw [hbefore]
    constructor
    · intro hheld
      refine .inl fun hnone => ?_
      have hempty : h.assets = [] := List.eq_nil_iff_forall_not_mem.mpr fun x hx =>
        List.not_mem_nil (hnone ▸ (hafter x).mpr (.inl hx))
      -- a change of nothing that is held has made something
      have huses : call.uses = [] := List.eq_nil_iff_forall_not_mem.mpr fun x hx =>
        List.not_mem_nil (hempty ▸ hpermits x hx)
      obtain ⟨x, hx⟩ := Call.exists_made (hheld.resolve_left (· hempty)) huses hsure
      exact List.not_mem_nil (hnone ▸ (hafter x).mpr (.inr hx))
    · intro hheld
      obtain ⟨x, hx⟩ := List.exists_mem_of_ne_nil _ (hheld.resolve_right id)
      rcases (hafter x).mp hx with hx | hx
      · exact .inl (List.ne_nil_of_mem hx)
      · exact .inr (Call.isChange_of_made hx)

theorem Building.step_first (hc : c.IdsIssued) (hfailures : c.failures = [])
    (b : Building c es h a s) (horderly : a.AsksOnly (isOrderly · = true)) (hs : Step s e s')
    (he : e.IsFaithful) (hactor : e.actor = 0) : ∃ h' a', Building c (es ++ [e]) h' a' s' := by
  cases hs with
  | @call i call next hi =>
    obtain rfl : i = 0 := hactor
    cases b.here.symm.trans hi
    have hread : call.isChange = false := by simpa [isOrderly] using horderly.1
    have hpermits : h.Permits call := fun x hx => by
      rw [Call.uses_of_read hread] at hx
      cases hx
    refine ⟨h, _, b.quiet (getElem?_put_self hi _) ?_ ?_ rfl (fun _ => rfl) rfl
      fun _ _ => Event.noConfusion⟩
    · exact ⟨trivial, hpermits, Call.isDelete_of_read hread,
        fun hopen r hr _ => (b.grows hopen).call r hr⟩
    · simp [Activity.Changes, hread]
  | @accept i dc call next q hi hq =>
    obtain rfl : i = 0 := hactor
    cases b.here.symm.trans hi
    obtain ⟨hpermits, hdelete, hnext⟩ := (b.grows (JobQueue.enqueue_eq_ok_iff.mp ⟨q, hq⟩).1).submit
    have hchange : call.isChange = true := by
      have := horderly.1
      simp_all [isOrderly]
    exact ⟨h, _, b.accept (getElem?_put_self hi _) ⟨hpermits, hdelete, fun _ => hnext⟩ hchange rfl
      (JobQueue.isCrashed_enqueue hq)⟩
  | @refuse i dc call next e hi hq =>
    obtain rfl : i = 0 := hactor
    cases b.here.symm.trans hi
    have hclosed : s.queue.closed = true := by
      refine (JobQueue.enqueue_error hq).2.resolve_right fun hcrashed => ?_
      rw [b.isCrashed] at hcrashed
      cases hcrashed
    refine ⟨h, _, b.quiet (getElem?_put_self hi _) ?_ Iff.rfl rfl (fun _ => rfl) rfl
      fun _ _ => Event.noConfusion⟩
    intro hopen
    cases hclosed.symm.trans hopen
  | @start i dc call next q hi hq =>
    obtain rfl : i = 0 := hactor
    cases b.here.symm.trans hi
    refine ⟨h, _, b.quiet (getElem?_put_self hi _) ?_ Iff.rfl rfl (JobQueue.isCrashed_start hq) rfl
      fun _ _ => Event.noConfusion⟩
    obtain ⟨hpermits, hdelete, hnext⟩ := b.grows
    exact ⟨trivial, hpermits, hdelete, fun hopen => hnext (JobQueue.closed_start hq ▸ hopen)⟩
  | @reach i via call next hi =>
    obtain rfl : i = 0 := hactor
    cases b.here.symm.trans hi
    obtain ⟨-, hrest⟩ := b.grows
    have hsmooth : (s.cloud.begin call).1 = none :=
      MemoryCloud.begin_of_failures_nil ((congrArg Prod.snd b.setup).trans hfailures) _
    exact ⟨h, _, b.quiet (getElem?_put_self hi _) ⟨hsmooth, hrest⟩ Iff.rfl
      (s.cloud.begin_content call) (fun _ => rfl) rfl fun _ _ => Event.noConfusion⟩
  | @answer i via call flight next r hi =>
    obtain rfl : i = 0 := hactor
    cases b.here.symm.trans hi
    cases flight with
    | made => cases he
    | begun failure =>
      obtain rfl : failure = none := b.grows.1
      exact ⟨_, _, b.answer hc (Option.some.inj he) _⟩
  | @probe i r next call hi hr hread =>
    obtain rfl : i = 0 := hactor
    cases b.here.symm.trans hi
    exact ⟨h, _, b.quiet hi b.grows Iff.rfl ((s.cloud.answers_call call).eq_of_read hread)
      (fun _ => rfl) rfl fun _ _ => Event.noConfusion⟩
  | @wake i r next x hi hr =>
    obtain rfl : i = 0 := hactor
    cases b.here.symm.trans hi
    exact ⟨h, _, b.quiet (getElem?_put_self hi _) (fun hopen => (b.grows hopen).poll hr x) Iff.rfl
      rfl (fun _ => rfl) rfl fun _ _ => Event.noConfusion⟩
  | @close i next hi hq =>
    obtain rfl : i = 0 := hactor
    cases b.here.symm.trans hi
    cases horderly.1
  | @closeAgain i next hi hq =>
    obtain rfl : i = 0 := hactor
    cases b.here.symm.trans hi
    cases horderly.1
  | @closeReturns i dcs next hi hq =>
    obtain rfl : i = 0 := hactor
    cases b.here.symm.trans hi
    exact b.grows.elim

theorem Building.step (hc : c.IdsIssued) (hfailures : c.failures = []) (b : Building c es h a s)
    (hplan : ∀ i (b : Activity α), s.activities[i]? = some b → b.AsksOnly (IsPlanned i))
    (hs : Step s e s') (he : e.IsFaithful) : ∃ h' a', Building c (es ++ [e]) h' a' s' := by
  cases hactor : e.actor with
  | zero => exact b.step_first hc hfailures (hplan 0 a b.here) hs he hactor
  | succ i =>
    obtain ⟨hcloud, hcrashed, hclosed, hothers, hmade⟩ := hs.of_closer (by
      rw [hactor]
      exact hplan (i + 1))
    refine ⟨h, a, b.quiet ((hothers 0 (by omega)).trans b.here) (b.grows.mono hclosed) Iff.rfl
      (by rw [hcloud]) hcrashed hmade fun dc call heq => ?_⟩
    rw [heq] at hactor
    cases hactor

theorem Run.building (hc : c.IdsIssued) (hfailures : c.failures = [])
    (hplan : ∀ i (b : Activity α), w.activities[i]? = some b → b.AsksOnly (IsPlanned i))
    (b : Building c [] h a w) (hrun : Run w es s) (hfaithful : ∀ e ∈ es, e.IsFaithful) :
    ∃ h' a', Building c es h' a' s := by
  induction hrun with
  | nil => exact ⟨h, a, b⟩
  | snoc hrun hs ih =>
    obtain ⟨h', a', b'⟩ := ih fun e he => hfaithful e (List.mem_append_left _ he)
    exact b'.step hc hfailures (hrun.asksOnly hplan).1 hs (hfaithful _ (by simp))

/-- An operation that has yet to begin holds nothing. -/
theorem building_start {queue : JobQueue Nat} (hidle : queue.IsIdle) {x : Program α}
    (hx : x.Grows {}) (others : List (Program α)) :
    Building c [] {} (.going x) (start queue c (x :: others)) where
  here := rfl
  grows _ := hx
  consistent _ hs := nomatch hs
  holds := .refl c
  setup := rfl
  isCrashed := hidle.isCrashed
  made y := by cases y <;> simp [MadeBy]
  accepted := by simp [Holding.assets, Activity.Changes]

end Interplay

/-! ## Creations -/

namespace Lifecycle

variable (x : Creation)

/-- A creation gives nothing up, unless one of its sure changes fails. -/
theorem Creation.program_grows : x.program.Grows {} := by
  refine ⟨create_keeps_of _ _ _ _ (fun _ => trivial) fun k made _ => ?_, create_builds ..⟩
  exact (Keeps.of_reads (lookUp_asksOnly made)).mono fun _ _ _ => trivial

end Lifecycle

namespace Interplay

open Lifecycle (Created Creation Template)

variable {s : Interplay (Except Error Created)} {es : List Event} {cloud : MemoryCloud}
  {queue : JobQueue Nat} {x : Creation} {closers : List (Program (Except Error Created))}

/-- A creation among others that do nothing but close the queues. -/
theorem Run.building_of_creation (hcloud : cloud.Reachable) (hfailures : cloud.failures = [])
    (hidle : queue.IsIdle) (hclosers : ∀ y ∈ closers, y.AsksOnly (· = .close))
    (h : Run (start queue cloud (x.program :: closers)) es s)
    (hfaithful : ∀ e ∈ es, e.IsFaithful) : ∃ held a, Building cloud es held a s := by
  have hplan : ∀ i (y : Program (Except Error Created)),
      (x.program :: closers)[i]? = some y → y.AsksOnly (IsPlanned i) := by
    intro i y hy
    cases i with
    | zero =>
      cases hy
      exact Lifecycle.create_orderly ..
    | succ i => exact hclosers y (List.mem_of_getElem? hy)
  exact h.building hcloud.idsIssued hfailures (asksOnly_start hplan)
    (building_start hidle x.program_grows closers) hfaithful

/-- Nothing that a creation has made is ever deleted while others close the queues, in a cloud in
which nothing fails. So when it fails, nothing is left of it exactly if not even its first job was
accepted. -/
theorem shutdown_undoes_nothing (hcloud : cloud.Reachable) (hfailures : cloud.failures = [])
    (hidle : queue.IsIdle) (hclosers : ∀ y ∈ closers, y.AsksOnly (· = .close))
    (h : Run (start queue cloud (x.program :: closers)) es s)
    (hfaithful : ∀ e ∈ es, e.IsFaithful) :
    (∀ a, s.cloud.HasAsset a ↔ cloud.HasAsset a ∨ MadeBy es 0 a) ∧
      (∀ a, MadeBy es 0 a → ¬cloud.HasAsset a) ∧
      ∀ e, s.result? 0 = some (.error e) →
        ((∀ a, MadeBy es 0 a → ¬s.cloud.HasAsset a) ↔ ∀ dc c, .accept 0 dc c ∉ es) := by
  obtain ⟨held, a, b⟩ := h.building_of_creation hcloud hfailures hidle hclosers hfaithful
  have hthere : ∀ y, s.cloud.HasAsset y ↔ cloud.HasAsset y ∨ MadeBy es 0 y := by
    intro y
    rw [b.holds.hasAsset_iff, b.made]
  refine ⟨hthere, fun y hy => b.holds.not_hasAsset hcloud.idsIssued ((b.made y).mp hy), ?_⟩
  intro e he
  -- what is done has no change on its way, so it has made something if a job was accepted
  have hdone : a = .going (.done (.error e)) :=
    Option.some.inj (b.here.symm.trans (result?_eq_some.mp he))
  have haccepted : (∃ dc call, .accept 0 dc call ∈ es) ↔ held.assets ≠ [] := by
    rw [b.accepted, hdone]
    simp [Activity.Changes]
  constructor
  · intro hgone dc call hmem
    obtain ⟨y, hy⟩ := List.exists_mem_of_ne_nil _ (haccepted.mp ⟨dc, call, hmem⟩)
    have hmade := (b.made y).mpr hy
    exact hgone y hmade ((hthere y).mpr (.inr hmade))
  · intro hnone y hmade _
    obtain ⟨dc, call, hmem⟩ := haccepted.mpr (List.ne_nil_of_mem ((b.made y).mp hmade))
    exact hnone dc call hmem

/-- The queues are closed when a creation has its block of addresses. It fails at its next step, and
the volume, the server and the block are left. -/
theorem shutdown_undoes_nothing_half_made :
    let cloud := (({} : MemoryCloud).addDatacenter "de/fra").2
    let template : Template :=
      { datacenter := "dc-1", image := "img-1", password := some "secret"
        hardware := ⟨1, 1024, [10]⟩ }
    let x : Creation := ⟨{}, "web", template, fun _ => 0⟩
    ∃ es s, Run (start .empty cloud [x.program, closer (.error .managerClosed)]) es s ∧
      (∀ e ∈ es, e.IsFaithful) ∧ (s.result? 0).map Except.isOk = some false ∧
      ∀ a ∈ [.volume ⟨"dc-1", "vol-2"⟩, .server ⟨"dc-1", "srv-3"⟩, .ipBlock "ipb-4"],
        MadeBy es 0 a ∧ s.cloud.HasAsset a := by
  intro cloud template x
  let s := (start .empty cloud [x.program, closer (.error .managerClosed)]).turns
    (List.replicate 16 0 ++ [1] ++ List.replicate 6 0)
  obtain ⟨es, hrun, hfaithful⟩ : ∃ es, Run _ es s ∧ ∀ e ∈ es, e.IsFaithful := exists_run_turns _ _
  have hcloud : cloud.Reachable := .seed .empty (.datacenter "de/fra")
  obtain ⟨hthere, -, -⟩ := shutdown_undoes_nothing hcloud rfl JobQueue.isIdle_empty
    (List.forall_mem_singleton.mpr (closer_asksOnly _)) hrun hfaithful
  have hnew : ∀ a, s.cloud.HasAsset a → ¬cloud.HasAsset a → MadeBy es 0 a ∧ s.cloud.HasAsset a :=
    fun a hafter hbefore => ⟨((hthere a).mp hafter).resolve_left hbefore, hafter⟩
  refine ⟨es, s, hrun, hfaithful, by decide +kernel, fun a ha => ?_⟩
  simp only [List.mem_cons, List.not_mem_nil, or_false] at ha
  rcases ha with rfl | rfl | rfl
  · exact hnew _ (by decide +kernel) (by decide +kernel)
  · exact hnew _ (by decide +kernel) (by decide +kernel)
  · exact hnew _ (by decide +kernel) (by decide +kernel)

/-- A creation that fails because the queues are closed does not always leave nothing. -/
theorem exists_left_by_shutdown :
    ¬∀ (cloud : MemoryCloud) (x : Creation) (es : List Event)
      (s : Interplay (Except Error Created)) (e : Error) (a : Asset), cloud.Reachable →
      cloud.failures = [] → cloud.ignoreServerDeletes = false →
      Run (start .empty cloud [x.program, closer (.error .managerClosed)]) es s →
      (∀ e ∈ es, e.IsFaithful) → s.result? 0 = some (.error e) → MadeBy es 0 a →
      ¬s.cloud.HasAsset a := by
  intro hall
  let cloud := (({} : MemoryCloud).addDatacenter "de/fra").2
  let template : Template :=
    { datacenter := "dc-1", image := "img-1", password := some "secret"
      hardware := ⟨1, 1024, [10]⟩ }
  let x : Creation := ⟨{}, "web", template, fun _ => 0⟩
  let s := (start .empty cloud [x.program, closer (.error .managerClosed)]).turns
    (List.replicate 8 0 ++ [1] ++ List.replicate 4 0)
  obtain ⟨es, hrun, hfaithful⟩ : ∃ es, Run _ es s ∧ ∀ e ∈ es, e.IsFaithful := exists_run_turns _ _
  have hcloud : cloud.Reachable := .seed .empty (.datacenter "de/fra")
  obtain ⟨held, a, b⟩ := hrun.building_of_creation hcloud rfl JobQueue.isIdle_empty
    (List.forall_mem_singleton.mpr (closer_asksOnly _)) hfaithful
  have hresult : ∃ e, s.result? 0 = some (.error e) := by
    have hfails : (s.result? 0).map Except.isOk = some false := by decide +kernel
    obtain ⟨r, hr, hfails⟩ := Option.map_eq_some_iff.mp hfails
    cases r with
    | ok created => cases hfails
    | error e => exact ⟨e, hr⟩
  obtain ⟨e, he⟩ := hresult
  have hleft : ¬cloud.HasAsset (.volume ⟨"dc-1", "vol-2"⟩) ∧
      s.cloud.HasAsset (.volume ⟨"dc-1", "vol-2"⟩) := by decide +kernel
  have hmade : MadeBy es 0 (.volume ⟨"dc-1", "vol-2"⟩) :=
    (b.made _).mpr ((b.holds.hasAsset_iff.mp hleft.2).resolve_left hleft.1)
  exact hall cloud x es s e _ hcloud rfl rfl hrun hfaithful he hmade hleft.2

end Interplay

end ComputePlane
