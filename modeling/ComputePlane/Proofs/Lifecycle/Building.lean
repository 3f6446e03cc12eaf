import ComputePlane.Lifecycle.Create
import ComputePlane.Proofs.Lifecycle.Polling
import ComputePlane.Proofs.Program.Holdings

/-!
# Creations that only build

Some changes of what is held cannot fail in a cloud without failures of its own: making volumes,
servers, addresses and network interfaces, attaching volumes, and power changes. As long as these
succeed, a creation deletes nothing (`create_builds`), for it deletes only what it gives up, and it
gives up only after a failure.
-/

namespace ComputePlane

namespace Program

variable {α β : Type}

/-- A program that deletes nothing as long as its sure changes succeed, and ends with `Q` then. It
does not close the queues. -/
def Builds (Q : α → Prop) : Program α → Prop
  | .done a => Q a
  | .request (.call _) next => ∀ r, Builds Q (next r)
  | .request (.submit _ c) next => c.isDelete = false ∧ ∀ r, c.Sure r → Builds Q (next r)
  | .request .close _ => False
  | .request (.pause _) next => Builds Q (next ())
  | .request (.await ..) next => ∀ x, Builds Q (next x)
  | .request (.gather ..) next => ∀ x, Builds Q (next x)
  | .request .fetch next => ∀ x, Builds Q (next x)

namespace Builds

variable {Q : α → Prop} {R : β → Prop}

theorem pure {a : α} (ha : Q a) : Builds Q (Pure.pure a) := ha

theorem bind {x : Program α} {f : α → Program β} (hx : Builds Q x)
    (hf : ∀ a, Q a → Builds R (f a)) : Builds R (x >>= f) := by
  induction x with
  | done a => exact hf a hx
  | request r next ih =>
    cases r with
    | call c => exact fun r => ih r (hx r)
    | submit dc c => exact ⟨hx.1, fun r hr => ih r (hx.2 r hr)⟩
    | pause d => exact ih () hx
    | await w p => exact fun x => ih x (hx x)
    | gather t w keys => exact fun x => ih x (hx x)
    | fetch => exact fun x => ih x (hx x)
    | close => exact hx

/-- An operation goes on only after a success. -/
theorem run_bind {x : Operation α} {f : α → Operation β}
    (hx : Builds (fun _ => True) x.run) (hf : ∀ a, Builds (fun _ => True) (f a).run) :
    Builds (fun _ => True) (x >>= f).run := by
  rw [ExceptT.run_bind]
  refine hx.bind fun r _ => ?_
  cases r with
  | ok a => exact hf a
  | error e => exact .pure trivial

theorem run_lift {x : Program α} (hx : Builds (fun _ => True) x) :
    Builds (fun _ => True) (liftM x : Operation α).run :=
  hx.bind fun _ _ => .pure trivial

theorem of_reads {x : Program α} (hx : x.AsksOnly (isRead · = true)) :
    Builds (fun _ => True) x := by
  induction x with
  | done a => trivial
  | request r next ih =>
    cases r with
    | call c => exact fun r => ih r (hx.2 r)
    | submit dc c => cases hx.1
    | close => cases hx.1
    | pause d => exact ih () (hx.2 ())
    | await w p => exact fun x => ih x (hx.2 x)
    | gather t w keys => exact fun x => ih x (hx.2 x)
    | fetch => exact fun x => ih x (hx.2 x)

end Builds

end Program

namespace Lifecycle

open Program

variable {stage : Stage} {resource : Option String} {dc : String} {made : Made} {c : Call}

theorem critical_builds (hc : c.isSure = true) (hdelete : c.isDelete = false) :
    Builds (fun _ => True) (critical stage dc made c).run := by
  refine ⟨hdelete, fun r hr => ?_⟩
  cases r with
  | ok a => trivial
  | error e => cases hr hc

/-- A change that may fail is passed over, or it has been made. -/
theorem attempt_builds (hdelete : c.isDelete = false) :
    Builds (fun r => c.isSure = true → r.isOk = true) (attempt stage resource dc c) := by
  refine ⟨hdelete, fun r hr => ?_⟩
  cases r with
  | ok a => exact fun _ => rfl
  | error e =>
    intro hc
    cases hr hc

theorem createVolumes_builds (request : Nat → Nat → VolumeRequest) (i : Nat) (sizes : List Nat) :
    Builds (fun _ => True) (createVolumes dc request i sizes) := by
  induction sizes generalizing i with
  | nil => exact .pure trivial
  | cons size sizes ih =>
    refine .bind (attempt_builds rfl) fun made _ => .bind (ih _) fun rest _ => ?_
    cases made <;> exact .pure trivial

theorem createRules_builds (nic : NicRef) (name : String) (ranges : List (Nat × Nat)) :
    Builds (fun _ => True) (createRules nic name ranges) := by
  induction ranges with
  | nil => exact .pure trivial
  | cons range ranges ih =>
    refine .bind (attempt_builds rfl) fun made _ => .bind ih fun skipped _ => ?_
    cases made <;> exact .pure trivial

/-- No volume is given up that can be attached. -/
theorem attachVolumes_builds (server : NodeId) (volumes : List String) :
    Builds (fun _ => True) (attachVolumes server volumes) := by
  induction volumes with
  | nil => exact .pure trivial
  | cons volume volumes ih =>
    refine .bind (attempt_builds rfl) fun made hmade => ?_
    cases made with
    | ok a => exact ih
    | error k => cases hmade rfl

theorem restart_builds (server : NodeId) : Builds (fun _ => True) (restart server) := by
  refine .bind (attempt_builds rfl) fun made _ => ?_
  cases made <;> exact .pure trivial

theorem await_builds (w : Watch) (p : PollPolicy) :
    Builds (fun _ => True) (Program.await p w) :=
  fun _ => trivial

theorem settle_builds (s : AdapterSettings) (server : NodeId) (extra : List String) :
    Builds (fun _ => True) (settle s server extra) :=
  .bind (attachVolumes_builds server extra) fun _ _ =>
    .bind (await_builds _ _) fun _ _ =>
    .bind (await_builds _ _) fun _ _ =>
    .bind (Q := fun _ => True) trivial fun _ _ =>
    .bind (restart_builds server) fun _ _ =>
    .bind (await_builds _ _) fun _ _ =>
    .bind (Q := fun _ => True) trivial fun _ _ => .pure trivial

variable (s : AdapterSettings) (name : String) (t : Template)

theorem createNetwork_builds (region : String) (server : NodeId) (volumes : List String) :
    Builds (fun _ => True) (createNetwork s t name region server volumes).run :=
  .run_bind (critical_builds rfl rfl) fun _ =>
    .run_bind (critical_builds rfl rfl) fun _ =>
    .run_bind (.run_lift (await_builds _ _)) fun _ => .run_lift (createRules_builds _ _ _)

theorem prepareIn_builds (draws : Draws) (bootSize : Nat) (sizes : List Nat) (region : String) :
    Builds (fun _ => True) (prepareIn s name t draws bootSize sizes region).run :=
  .run_bind (critical_builds rfl rfl) fun _ =>
    .run_bind (.run_lift (createVolumes_builds _ _ _)) fun _ =>
    .run_bind (.run_lift (await_builds _ _)) fun _ =>
    .run_bind (critical_builds rfl rfl) fun _ =>
    .run_bind (.run_lift (await_builds _ _)) fun _ =>
    .run_bind (.run_lift (await_builds _ _)) fun _ =>
    .run_bind (createNetwork_builds s name t _ _ _) fun _ =>
    .run_bind (.run_lift (settle_builds s _ _)) fun _ => .pure trivial

/-- As long as its sure changes succeed, a creation deletes nothing. -/
theorem create_builds (draws : Draws) :
    Builds (fun _ => True) (create s name t draws).run := by
  unfold create
  cases t.hardware.volumesGb with
  | nil => exact .pure trivial
  | cons bootSize sizes =>
    refine .run_bind (.of_reads (regionOf_asksOnly (fun _ => id) t)) fun region => ?_
    rw [createIn_eq]
    exact .run_bind (prepareIn_builds s name t draws bootSize sizes region) fun made =>
      .of_reads (lookUp_asksOnly made)

end Lifecycle

end ComputePlane
