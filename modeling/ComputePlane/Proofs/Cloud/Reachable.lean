import ComputePlane.Proofs.Cloud.Ids

/-!
# Clouds that can come about

A cloud is set up by a few operations, and then calls begin and come to their ends in any order.
Whatever happens, its resources have ids that were issued (`Reachable.idsIssued`).
-/

namespace ComputePlane.MemoryCloud

/-- One step of setting a cloud up. -/
inductive Seeds (c : MemoryCloud) : MemoryCloud → Prop where
  | datacenter (region : String) : Seeds c (c.addDatacenter region).2
  | volume (dc : String) (size : Number.Single) (state : State) :
      Seeds c (c.addVolume dc size state).2
  | server (dc name : String) (vmState : VmState) (volumes : List String) :
      Seeds c (c.addServer dc name vmState volumes).2
  | image (name : String) (type : ImageType) : Seeds c (c.addImage name type).2
  | snapshot (name : String) (state : State) : Seeds c (c.addSnapshot name state).2
  | volumeState (dc id : String) (state : State) :
      Seeds c (c.updateVolume dc id fun v => { v with state := state })
  | serverState (id : NodeId) (state : State) :
      Seeds c (c.updateServer id fun s => { s with state := state })
  | vmState (id : NodeId) (vmState : VmState) :
      Seeds c (c.updateServer id fun s => { s with vmState := vmState })
  | failure (name : String) (n : Nat) : Seeds c { c with failures := c.failures ++ [(name, n)] }
  | ignoreServerDeletes : Seeds c { c with ignoreServerDeletes := true }
  | busyAfterAttach : Seeds c { c with busyAfterAttach := true }

/-- The clouds that setting up and calls lead to. -/
inductive Reachable : MemoryCloud → Prop where
  | empty : Reachable {}
  | seed {c d} (h : Reachable c) (hs : Seeds c d) : Reachable d
  | begin {c} (h : Reachable c) (call : Call) : Reachable (c.begin call).2
  | finish {c} (h : Reachable c) (call : Call) (failure : Option Error) :
      Reachable (c.finish call failure).2

variable {c d : MemoryCloud}

theorem Reachable.call (h : Reachable c) (call : Call) : Reachable (c.call call).2 :=
  (h.begin call).finish call (c.begin call).1

theorem IdsIssued.seed (h : c.IdsIssued) (hs : Seeds c d) : d.IdsIssued := by
  have hold : ∀ {id kind}, c.HasIssued kind id →
      MemoryCloud.HasIssued { c with issued := c.issued + 1 } kind id :=
    fun hid => hid.mono (Nat.le_succ _)
  cases hs with
  | datacenter | image | snapshot =>
    exact ⟨fun v hv => hold (h.volume v hv), fun s hs => hold (h.server s hs),
      fun b hb => hold (h.ipBlock b hb)⟩
  | volume dc size state =>
    refine ⟨fun v hv => ?_, fun s hs => hold (h.server s hs), fun b hb => hold (h.ipBlock b hb)⟩
    rcases List.mem_append.mp hv with hv | hv
    · exact hold (h.volume v hv)
    · obtain rfl := List.mem_singleton.mp hv
      exact ⟨c.issued + 1, Nat.le_refl _, rfl⟩
  | server dc name vmState volumes =>
    refine ⟨fun v hv => hold (h.volume v hv), fun id hid => ?_, fun b hb => hold (h.ipBlock b hb)⟩
    obtain ⟨s, hs, rfl⟩ := List.mem_map.mp hid
    rcases List.mem_append.mp hs with hs | hs
    · exact hold (h.server s.id (List.mem_map_of_mem hs))
    · obtain rfl := List.mem_singleton.mp hs
      exact ⟨c.issued + 1, Nat.le_refl _, rfl⟩
  | volumeState dc id state =>
    refine ⟨fun v hv => ?_, h.server, h.ipBlock⟩
    obtain ⟨w, hw, rfl⟩ := List.mem_map.mp hv
    have hid :
        (if w.datacenter = dc ∧ w.id = id then { w with state := state } else w).id = w.id := by
      split <;> rfl
    rw [hid]
    exact h.volume w hw
  | serverState id state =>
    refine ⟨h.volume, fun id' hid => ?_, h.ipBlock⟩
    rw [serverIds_updateServer c id (f := fun s => { s with state := state }) fun _ => rfl] at hid
    exact h.server id' hid
  | vmState id vmState =>
    refine ⟨h.volume, fun id' hid => ?_, h.ipBlock⟩
    rw [serverIds_updateServer c id (f := fun s => { s with vmState := vmState })
      fun _ => rfl] at hid
    exact h.server id' hid
  | failure | ignoreServerDeletes | busyAfterAttach => exact ⟨h.volume, h.server, h.ipBlock⟩

theorem idsIssued_content : c.content.IdsIssued ↔ c.IdsIssued :=
  ⟨fun h => ⟨h.volume, h.server, h.ipBlock⟩, fun h => ⟨h.volume, h.server, h.ipBlock⟩⟩

/-- The resources of a cloud have ids that were issued. -/
theorem Reachable.idsIssued (h : Reachable c) : c.IdsIssued := by
  induction h with
  | empty => exact ⟨fun v hv => (nomatch hv), fun s hs => (nomatch hs), fun b hb => (nomatch hb)⟩
  | seed h hs ih => exact ih.seed hs
  | @begin c h call ih =>
    rw [← idsIssued_content, begin_content, idsIssued_content]
    exact ih
  | @finish c h call failure ih =>
    have hfinish := congrArg Prod.snd (c.finish_content call failure)
    dsimp only at hfinish
    rw [← idsIssued_content, hfinish]
    cases failure with
    | some e => exact idsIssued_content.mpr ih
    | none => exact (idsIssued_content.mpr ih).apply call

end ComputePlane.MemoryCloud
