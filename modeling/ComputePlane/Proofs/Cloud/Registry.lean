import ComputePlane.Node
import ComputePlane.Proofs.Cloud.NewServer
import ComputePlane.Proofs.Cloud.Setup

/-!
# What a cloud can list

In a cloud that can have come about, datacenters and servers are told apart by their ids
(`Reachable.registered`). So going through the datacenters in order, and in each of them through its
servers in order, meets each server of a registered datacenter once (`roster_perm`), and looking
it up by its id finds it again (`Registered.server?_eq`).
-/

namespace ComputePlane.MemoryCloud

open Number

variable {c d : MemoryCloud} {s : StoredServer}

/-! ## Ids -/

/-- Datacenters and servers are told apart by their ids. -/
structure Registered (c : MemoryCloud) : Prop where
  datacenters : (c.datacenters.map (·.1)).Nodup
  issued : ∀ dc ∈ c.datacenters, c.HasIssued "dc" dc.1
  servers : (c.servers.map (·.id)).Nodup

theorem registered_content : c.content.Registered ↔ c.Registered :=
  ⟨fun h => ⟨h.datacenters, h.issued, h.servers⟩, fun h => ⟨h.datacenters, h.issued, h.servers⟩⟩

theorem Registered.seed (h : c.Registered) (hids : c.IdsIssued) (hs : Seeds c d) :
    d.Registered := by
  have hold : ∀ dc ∈ c.datacenters, HasIssued { c with issued := c.issued + 1 } "dc" dc.1 :=
    fun dc hdc => (h.issued dc hdc).mono (Nat.le_succ _)
  cases hs with
  | datacenter region =>
    refine ⟨nodup_map_append_singleton h.datacenters fun dc hdc => (h.issued dc hdc).ne_issue,
      fun dc hdc => ?_, h.servers⟩
    rcases List.mem_append.mp hdc with hdc | hdc
    · exact hold dc hdc
    · obtain rfl := List.mem_singleton.mp hdc
      exact ⟨c.issued + 1, Nat.le_refl _, rfl⟩
  | server dc name vmState volumes =>
    refine ⟨h.datacenters, hold, nodup_map_append_singleton h.servers fun s hs heq => ?_⟩
    exact (hids.server s.id (List.mem_map_of_mem hs)).ne_issue (congrArg NodeId.server heq)
  | volume | image | snapshot => exact ⟨h.datacenters, hold, h.servers⟩
  | serverState id state =>
    refine ⟨h.datacenters, h.issued, ?_⟩
    rw [serverIds_updateServer c id (f := fun s => { s with state := state }) fun _ => rfl]
    exact h.servers
  | vmState id vmState =>
    refine ⟨h.datacenters, h.issued, ?_⟩
    rw [serverIds_updateServer c id (f := fun s => { s with vmState := vmState }) fun _ => rfl]
    exact h.servers
  | volumeState | failure | ignoreServerDeletes | busyAfterAttach =>
    exact ⟨h.datacenters, h.issued, h.servers⟩

theorem Registered.apply (h : c.Registered) (hids : c.IdsIssued) (call : Call) :
    (c.apply call).2.Registered := by
  have hdatacenters : (c.apply call).2.datacenters = c.datacenters :=
    congrArg Prod.fst (c.setup_apply call)
  refine ⟨hdatacenters ▸ h.datacenters, fun dc hdc => ?_, ?_⟩
  · exact (h.issued dc (hdatacenters ▸ hdc)).mono (c.issued_le_apply call)
  · exact nodup_serverIds_apply (fun id hid => (hids.server id hid).ne_issue) h.servers call

theorem Reachable.registered (h : Reachable c) : c.Registered := by
  induction h with
  | empty => exact ⟨.nil, fun dc hdc => (nomatch hdc), .nil⟩
  | seed h hs ih => exact ih.seed h.idsIssued hs
  | @begin c h call ih =>
    rw [← registered_content, begin_content, registered_content]
    exact ih
  | @finish c h call failure ih =>
    rw [← registered_content]
    cases failure with
    | some e =>
      rw [(c.finish_some call e).2]
      exact registered_content.mpr ih
    | none =>
      rw [(c.finish_none call).2]
      exact (registered_content.mpr ih).apply (idsIssued_content.mpr h.idsIssued) call

/-! ## Listing -/

/-- The servers of the registered datacenters, in the order in which they are listed. -/
def roster (c : MemoryCloud) : List StoredServer :=
  (sortedBy (·.1) c.datacenters).flatMap fun dc =>
    sortedBy (·.id.server) (c.servers.filter (·.id.datacenter = dc.1))

@[simp] theorem mem_sortedBy {α : Type} {key : α → String} {xs : List α} {x : α} :
    x ∈ sortedBy key xs ↔ x ∈ xs :=
  List.mem_mergeSort

theorem sortedBy_perm {α : Type} (key : α → String) (xs : List α) : (sortedBy key xs).Perm xs :=
  List.mergeSort_perm ..

theorem mem_roster :
    s ∈ c.roster ↔ s ∈ c.servers ∧ s.id.datacenter ∈ c.datacenters.map (·.1) := by
  simp only [roster, List.mem_flatMap, mem_sortedBy, List.mem_filter, decide_eq_true_eq,
    List.mem_map]
  constructor
  · rintro ⟨dc, hdc, hs, hid⟩
    exact ⟨hs, dc, hdc, hid.symm⟩
  · rintro ⟨hs, dc, hdc, hid⟩
    exact ⟨dc, hdc, hs, hid.symm⟩

theorem Registered.nodup_roster (h : c.Registered) : c.roster.Nodup := by
  refine List.nodup_flatMap.mpr ⟨fun dc _ => ?_, ?_⟩
  · exact (sortedBy_perm ..).nodup_iff.mpr ((h.servers.of_map _).filter _)
  · have hdatacenters : (sortedBy (·.1) c.datacenters).Pairwise (·.1 ≠ ·.1) :=
      List.pairwise_map.mp (((sortedBy_perm ..).map _).nodup_iff.mpr h.datacenters)
    refine hdatacenters.imp fun {dc dc'} hne s hs hs' => hne ?_
    rw [mem_sortedBy, List.mem_filter, decide_eq_true_eq] at hs hs'
    exact hs.2.symm.trans hs'.2

/-- A listing goes through all servers of the registered datacenters, and through each of them
once. -/
theorem Registered.roster_perm (h : c.Registered) :
    c.roster.Perm (c.servers.filter (·.id.datacenter ∈ c.datacenters.map (·.1))) :=
  (List.perm_ext_iff_of_nodup h.nodup_roster ((h.servers.of_map _).filter _)).mpr fun s => by
    rw [mem_roster, List.mem_filter, decide_eq_true_eq]

theorem Registered.nodup_roster_ids (h : c.Registered) : (c.roster.map (·.id)).Nodup :=
  (h.roster_perm.map _).nodup_iff.mpr (h.servers.sublist (List.filter_sublist.map _))

/-- A server is looked up by its id. -/
theorem Registered.server?_eq (h : c.Registered) (hs : s ∈ c.servers) :
    c.server? s.id = some (c.tellServer s) := by
  have hstored : c.stored? s.id = some s :=
    find?_of_unique hs (by simp) fun r hr hid =>
      List.inj_on_of_nodup_map h.servers hr hs (by simpa using hid)
  rw [server?, hstored, Option.map_some]

/-- A stored server as a node. -/
def tellNode (c : MemoryCloud) (s : StoredServer) : Node := ⟨c.tellServer s, s.id.datacenter⟩

@[simp] theorem id_tellNode (c : MemoryCloud) (s : StoredServer) : (c.tellNode s).id = s.id := rfl

end ComputePlane.MemoryCloud
