import Mathlib.Data.List.Nodup
import ComputePlane.Lifecycle.Create
import ComputePlane.Proofs.Cloud.Grown
import ComputePlane.Proofs.Lifecycle.Polling
import ComputePlane.Proofs.Program.Holdings
import ComputePlane.Proofs.Text.NodeTexts

/-!
# What creations hold

A creation names only resources that it has made itself, and in the end it holds a whole node or
nothing (`create_keeps`). What is deleted on the way is given up.
-/

namespace ComputePlane

open Program

/-- A node as it is held: a server, the volumes that it lists and a block of addresses. -/
def Holding.node (id : NodeId) (volumes : List String) (block : String) : Holding :=
  ⟨volumes.map (⟨id.datacenter, ·⟩), [(id, volumes)], [block]⟩

namespace Lifecycle

variable {h : Holding} {dc : String} {server : NodeId}

/-! ## Giving up -/

theorem bestEffort_keeps {c : Call} {Q : Holding → Unit → Prop} (hc : h.Permits c)
    (hQ : ∀ r, h.Possible c r → Q (h.after c r) ()) : Keeps Q h (bestEffort dc c) :=
  ⟨hc, hQ⟩

theorem bestEffortAll_append (dc : String) (cs ds : List Call) :
    bestEffortAll dc (cs ++ ds) = bestEffortAll dc cs >>= fun _ => bestEffortAll dc ds := by
  induction cs with
  | nil => rfl
  | cons c cs ih =>
    simp only [List.cons_append, bestEffortAll, ih]
    rfl

theorem filter_ids {v : String} {xs ys : List String} (h : (xs ++ v :: ys).Nodup) :
    (xs ++ v :: ys).filter (· ≠ v) = xs ++ ys := by
  have hnone : ∀ y ∈ ([] : List String), y ≠ v := fun y hy => nomatch hy
  exact MemoryCloud.filter_append_ne (f := fun y : String => y) hnone (by simpa using h)

/-- A volume is taken out of volumes with distinct ids. -/
theorem filter_refs {dc v : String} (xs : List String) {ys : List String}
    (h : (xs ++ v :: ys).Nodup) :
    ((xs ++ v :: ys).map fun id => (⟨dc, id⟩ : VolumeRef)).filter (· ≠ ⟨dc, v⟩) =
      (xs ++ ys).map fun id => ⟨dc, id⟩ := by
  rw [List.filter_map, ← filter_ids h]
  congr 1
  refine List.filter_congr fun x _ => ?_
  simp

/-- The volumes are given up one after the other. -/
theorem deleteVolumes_keeps {ids : List String}
    (hvolumes : h.volumes = ids.map (⟨dc, ·⟩)) (hnodup : ids.Nodup) :
    Keeps (fun k _ => k.volumes = [] ∧ k.servers.map (·.1) = h.servers.map (·.1) ∧
      k.ipBlocks = h.ipBlocks) h
      (bestEffortAll dc (ids.map fun id => .deleteVolume ⟨dc, id⟩)) := by
  induction ids generalizing h with
  | nil => exact .pure ⟨hvolumes, rfl, rfl⟩
  | cons id ids ih =>
    have hheld : h.Permits (.deleteVolume ⟨dc, id⟩) := by
      simp [Holding.Permits, Call.uses, hvolumes]
    refine .bind (bestEffort_keeps (Q := fun k _ => k = h.after (.deleteVolume ⟨dc, id⟩) (.ok ()))
      hheld fun r hr => ?_) ?_
    · obtain rfl : r = .ok () := hr
      rfl
    · rintro _ _ rfl
      have hrest : (h.after (.deleteVolume ⟨dc, id⟩) (.ok ())).volumes = ids.map (⟨dc, ·⟩) := by
        simp only [Holding.after, hvolumes]
        exact filter_refs [] hnodup
      refine (ih hrest hnodup.of_cons).mono fun k _ hk => ⟨hk.1, ?_, hk.2.2⟩
      rw [hk.2.1]
      simp [Holding.after]

/-- A single server is given up. -/
theorem deleteServer_keeps (hservers : h.servers.map (·.1) = [server]) :
    Keeps (fun k _ => k = { h with servers := [] }) h (bestEffort dc (.deleteServer server)) := by
  refine bestEffort_keeps ?_ fun r hr => ?_
  · simp [Holding.Permits, Call.uses, hservers]
  · obtain rfl : r = .ok () := hr
    have hnone : h.servers.filter (·.1 ≠ server) = [] := by
      refine List.filter_eq_nil_iff.mpr fun s hs => ?_
      have hmem := List.mem_map_of_mem (f := (·.1)) hs
      rw [hservers, List.mem_singleton] at hmem
      simp [hmem]
    exact congrArg (fun servers => { h with servers := servers }) hnone

/-- A single block of addresses is given up. -/
theorem deleteIpBlock_keeps {b : String} (hblocks : h.ipBlocks = [b]) :
    Keeps (fun k _ => k = { h with ipBlocks := [] }) h (bestEffort dc (.deleteIpBlock b)) := by
  refine bestEffort_keeps ?_ fun r hr => ?_
  · simp [Holding.Permits, Call.uses, hblocks]
  · obtain rfl : r = .ok () := hr
    have hnone : h.ipBlocks.filter (· ≠ b) = [] := by simp [hblocks]
    exact congrArg (fun blocks => { h with ipBlocks := blocks }) hnone

/-! ## Rolling back -/

/-- What has been made is what is held. -/
structure Made.Held (dc : String) (made : Made) (h : Holding) : Prop where
  volumes : h.volumes = made.volumes.map (⟨dc, ·⟩)
  servers : h.servers.map (·.1) = made.server.toList.map (⟨dc, ·⟩)
  ipBlocks : h.ipBlocks = made.ipBlock.toList
  nodup : made.volumes.Nodup

/-- A rollback gives up everything. -/
theorem undo_keeps {made : Made} (hmade : made.Held dc h) :
    Keeps (fun k _ => k = {}) h (bestEffortAll dc (made.deletes dc)) := by
  unfold Made.deletes
  rw [List.append_assoc, bestEffortAll_append, bestEffortAll_append]
  refine .bind (Q := fun k _ => k = { h with servers := [] }) ?server ?_
  case server =>
    have hservers := hmade.servers
    cases hs : made.server with
    | none =>
      rw [hs] at hservers
      exact .pure (congrArg (fun servers => { h with servers := servers })
        (List.map_eq_nil_iff.mp hservers))
    | some id =>
      rw [hs] at hservers
      exact .bind (deleteServer_keeps hservers) fun k _ hk => .pure hk
  rintro _ _ rfl
  refine .bind (deleteVolumes_keeps hmade.volumes hmade.nodup) ?_
  rintro k _ ⟨hvolumes, hservers, hblocks⟩
  have hblocks : k.ipBlocks = made.ipBlock.toList := hblocks.trans hmade.ipBlocks
  have hservers : k.servers = [] := by simpa using hservers
  obtain ⟨_, _, _⟩ := k
  subst hvolumes hservers hblocks
  cases made.ipBlock with
  | none => exact .pure rfl
  | some b => exact .bind (deleteIpBlock_keeps rfl) fun k _ hk => .pure hk

/-- A critical change is made, or everything is given up. -/
theorem critical_keeps {stage : Stage} {made : Made} {c : Call}
    {Q : Holding → Except Error c.Answer → Prop} (hc : h.Permits c) (hmade : made.Held dc h)
    (hok : ∀ a, h.Possible c (.ok a) → Q (h.after c (.ok a)) (.ok a))
    (herror : ∀ e, Q {} (.error (.fatal stage e))) :
    Keeps Q h (critical stage dc made c).run := by
  refine ⟨hc, fun r hr => ?_⟩
  cases r with
  | ok a => exact hok a hr
  | error e =>
    rw [h.after_error]
    refine Keeps.lift_bind (undo_keeps hmade) ?_
    rintro _ _ rfl
    exact herror e

/-! ## Steps that may fail -/

theorem attempt_keeps {stage : Stage} {resource : Option String} {c : Call}
    {Q : Holding → Except Skipped c.Answer → Prop} (hc : h.Permits c)
    (hok : ∀ a, h.Possible c (.ok a) → Q (h.after c (.ok a)) (.ok a))
    (herror : ∀ k, Q h (.error k)) : Keeps Q h (attempt stage resource dc c) := by
  refine ⟨hc, fun r hr => ?_⟩
  cases r with
  | ok a => exact hok a hr
  | error e =>
    rw [h.after_error]
    exact herror _

/-- What is held after an attempt that was to lead from `k` to `k'`. -/
def Attempted {α : Type} (k k' h : Holding) : Except Skipped α → Prop
  | .ok _ => h = k'
  | .error _ => h = k

/-- The volumes that can be made are held beside the others. -/
theorem createVolumes_keeps (request : Nat → Nat → VolumeRequest) (i : Nat) (sizes : List Nat)
    (hnodup : h.volumes.Nodup) :
    Keeps (fun k p => k = { h with volumes := h.volumes ++ p.1.map (⟨dc, ·⟩) } ∧
      k.volumes.Nodup) h (createVolumes dc request i sizes) := by
  induction sizes generalizing i h with
  | nil => exact .pure ⟨by simp, hnodup⟩
  | cons size sizes ih =>
    refine .bind (attempt_keeps (Q := fun k made => k.volumes.Nodup ∧ k = { h with
      volumes := h.volumes ++ (made.toOption.map fun v : Volume => ⟨dc, v.id⟩).toList })
      ?_ (fun v hv => ⟨?_, rfl⟩) fun k => ⟨hnodup, by simp [Except.toOption]⟩) ?_
    · exact fun a ha => nomatch ha
    · exact List.nodup_append.mpr ⟨hnodup, by simp, fun a ha b hb heq =>
        hv (List.mem_singleton.mp hb ▸ heq ▸ ha)⟩
    · rintro k made ⟨hk, rfl⟩
      refine .bind (ih (i + 1) hk) ?_
      rintro _ ⟨ids, skipped⟩ ⟨rfl, hids⟩
      cases made with
      | ok v => exact .pure ⟨by simp [Except.toOption], hids⟩
      | error k => exact .pure ⟨by simp [Except.toOption], hids⟩

/-- Rules change nothing that is held. -/
theorem createRules_keeps {nic : NicRef} (name : String) (ranges : List (Nat × Nat))
    (hserver : nic.server ∈ h.servers.map (·.1)) :
    Keeps (fun k _ => k = h) h (createRules nic name ranges) := by
  induction ranges with
  | nil => exact .pure rfl
  | cons range ranges ih =>
    refine .bind (attempt_keeps (Q := fun k _ => k = h) ?_ (fun _ _ => rfl) fun _ => rfl) ?_
    · simpa [Holding.Permits, Call.uses] using hserver
    · rintro _ made rfl
      refine .bind ih ?_
      rintro _ skipped rfl
      cases made <;> exact .pure rfl

/-- Each further volume is attached or given up. -/
theorem attachVolumes_keeps {base volumes blocks : List String}
    (hnodup : (base ++ volumes).Nodup) :
    Keeps (fun k _ => ∃ vs, vs.Nodup ∧
        k = ⟨vs.map (⟨server.datacenter, ·⟩), [(server, vs)], blocks⟩)
      ⟨(base ++ volumes).map (⟨server.datacenter, ·⟩), [(server, base)], blocks⟩
      (attachVolumes server volumes) := by
  induction volumes generalizing base with
  | nil => exact .pure ⟨base, by simpa using hnodup, by simp⟩
  | cons v volumes ih =>
    have hcons : base ++ [v] ++ volumes = base ++ v :: volumes := List.append_cons .. |>.symm
    let k : Holding :=
      ⟨(base ++ v :: volumes).map (⟨server.datacenter, ·⟩), [(server, base)], blocks⟩
    refine .bind (attempt_keeps
      (Q := Attempted k { k with servers := [(server, base ++ [v])] }) ?_ (fun _ _ => ?_)
      fun _ => rfl) ?_
    · simp [Holding.Permits, Call.uses]
    · show k.after (.attachVolume server v) (.ok _) = _
      simp [k, Holding.after, Holding.mapServer]
    · intro k' made hmade
      cases made with
      | ok a =>
        obtain rfl : k' = _ := hmade
        have hattached : (base ++ [v] ++ volumes).Nodup := by rwa [hcons]
        have hrest := ih hattached
        rw [hcons] at hrest
        exact hrest
      | error e =>
        obtain rfl : k' = k := hmade
        refine .bind (bestEffort_keeps (Q := fun k _ => k =
          ⟨(base ++ volumes).map (⟨server.datacenter, ·⟩), [(server, base)], blocks⟩)
          (by simp [k, Holding.Permits, Call.uses]) fun r hr => ?_) ?_
        · obtain rfl : r = .ok () := hr
          have hfree : v ∉ base := fun hmem =>
            (List.nodup_append.mp hnodup).2.2 v hmem v List.mem_cons_self rfl
          have hbase : base.filter (· ≠ v) = base :=
            List.filter_eq_self.mpr fun x hx => by simpa using fun heq : x = v => hfree (heq ▸ hx)
          simp only [k, Holding.after, filter_refs base hnodup, List.map_cons, List.map_nil, hbase]
        · rintro _ _ rfl
          refine .bind (ih ?_) fun _ _ hk => .pure hk
          exact hnodup.sublist ((List.sublist_cons_self v volumes).append_left base)

theorem restart_keeps (hserver : server ∈ h.servers.map (·.1)) :
    Keeps (fun k _ => k = h) h (restart server) := by
  refine .bind (attempt_keeps (Q := fun k _ => k = h) ?_ (fun _ _ => rfl) fun _ => rfl) ?_
  · simpa [Holding.Permits, Call.uses] using hserver
  · rintro _ made rfl
    cases made <;> exact .pure rfl

/-- The end of a creation: the further volumes are attached or given up. -/
theorem settle_keeps (s : AdapterSettings) (server : NodeId) {base extra blocks : List String}
    (hnodup : (base ++ extra).Nodup) :
    Keeps (fun k _ => ∃ vs, vs.Nodup ∧
        k = ⟨vs.map (⟨server.datacenter, ·⟩), [(server, vs)], blocks⟩)
      ⟨(base ++ extra).map (⟨server.datacenter, ·⟩), [(server, base)], blocks⟩
      (settle s server extra) := by
  unfold settle
  refine .bind (attachVolumes_keeps hnodup) ?_
  rintro k notAttached ⟨vs, hvs, rfl⟩
  refine .bind (.await _ _) ?_
  rintro _ _ rfl
  refine .bind (.await _ _) ?_
  rintro _ _ rfl
  refine .bind (.pause _) ?_
  rintro _ _ rfl
  refine .bind (restart_keeps (by simp)) ?_
  rintro _ notRestarted rfl
  refine .bind (.await _ _) ?_
  rintro _ _ rfl
  refine .bind (.pause _) ?_
  rintro _ _ rfl
  exact .pure ⟨vs, hvs, rfl⟩

/-! ## Whole creations -/

section Creation

variable {α β : Type}

/-- An operation that fails holds nothing. -/
def OrNothing (P : Holding → α → Prop) (k : Holding) : Except Error α → Prop
  | .ok a => P k a
  | .error _ => k = {}

theorem OrNothing.bind {x : Operation α} {f : α → Operation β} {P : Holding → α → Prop}
    {R : Holding → β → Prop} (hx : Keeps (OrNothing P) h x.run)
    (hf : ∀ k a, P k a → Keeps (OrNothing R) k (f a).run) :
    Keeps (OrNothing R) h (x >>= f).run :=
  .run_bind hx hf fun _ _ hk => hk

variable (s : AdapterSettings) (name : String) (t : Template)

/-- The network part of a creation adds a block of addresses, or everything is given up. -/
theorem createNetwork_keeps (region id : String) {volumes listed : List String}
    (hnodup : volumes.Nodup) :
    Keeps (OrNothing fun k _ => ∃ b, k =
        ⟨volumes.map (⟨t.datacenter, ·⟩), [(⟨t.datacenter, id⟩, listed)], [b]⟩)
      ⟨volumes.map (⟨t.datacenter, ·⟩), [(⟨t.datacenter, id⟩, listed)], []⟩
      (createNetwork s t name region ⟨t.datacenter, id⟩ volumes).run := by
  unfold createNetwork
  refine OrNothing.bind (P := fun k block => k =
    ⟨volumes.map (⟨t.datacenter, ·⟩), [(⟨t.datacenter, id⟩, listed)], [block.id]⟩)
    (critical_keeps (fun a ha => nomatch ha) ⟨rfl, rfl, rfl, hnodup⟩ (fun _ _ => rfl)
      fun _ => rfl) ?_
  rintro _ block rfl
  refine OrNothing.bind (P := fun k _ => k =
    ⟨volumes.map (⟨t.datacenter, ·⟩), [(⟨t.datacenter, id⟩, listed)], [block.id]⟩)
    (critical_keeps ?_ ⟨rfl, rfl, rfl, hnodup⟩ (fun _ _ => rfl) fun _ => rfl) ?_
  · simp [Holding.Permits, Call.uses]
  rintro _ nic rfl
  refine .lift_bind (.await _ _) ?_
  rintro _ _ rfl
  refine Keeps.bind (createRules_keeps name _ (by simp)) ?_
  rintro _ notOpened rfl
  exact ⟨block.id, rfl⟩

theorem parse_text (server : NodeId) (hdc : server.datacenter ≠ "" ∧ '/' ∉ server.datacenter.toList)
    (hid : server.server ≠ "" ∧ '/' ∉ server.server.toList) :
    NodeId.parse server.text = .ok server :=
  NodeId.parse_eq_ok_iff.mpr (NodeId.ofText?_eq_some_iff.mpr ⟨rfl, hdc.1, hid.1, hdc.2, hid.2⟩)

/-- The look-up of a node that is held finds it, with the volumes it lists. -/
theorem getNode_keeps {text : String} {vs : List String} (hparse : NodeId.parse text = .ok server)
    (hserver : (server, vs) ∈ h.servers) :
    Keeps (OrNothing fun k node => k = h ∧ node.server.volumes.map (·.id) = vs) h
      (getNode text).run := by
  unfold getNode
  rw [hparse]
  refine ⟨fun a ha => (nomatch ha), fun r hr => ?_⟩
  obtain ⟨found, rfl, hlisted⟩ := hr vs hserver
  exact ⟨rfl, hlisted⟩

/-- A node was created, and it is what is held. Its server is told with the volumes it lists. -/
def CreatesNode (dc : String) (k : Holding) (created : Created) : Prop :=
  ∃ id vs b, id.datacenter = dc ∧ NodeId.parse created.id = .ok id ∧ vs.Nodup ∧
    created.node.server.volumes.map (·.id) = vs ∧ k = .node id vs b

/-- What is held is a whole node with a server that a text can name. -/
def HoldsNode (dc : String) (k : Holding) (server : NodeId) : Prop :=
  ∃ vs b, server.datacenter = dc ∧ (server.server ≠ "" ∧ '/' ∉ server.server.toList) ∧ vs.Nodup ∧
    k = .node server vs b

/-- All of a creation but its look-up leaves a whole node, or everything is given up. -/
theorem prepareIn_keeps (draws : Draws) (bootSize : Nat) (sizes : List Nat) (region : String) :
    Keeps (OrNothing fun k made => HoldsNode t.datacenter k made.1) {}
      (prepareIn s name t draws bootSize sizes region).run := by
  unfold prepareIn
  refine OrNothing.bind (P := fun k boot => k = ⟨[⟨t.datacenter, boot.id⟩], [], []⟩)
    (critical_keeps (fun a ha => nomatch ha) ⟨rfl, rfl, rfl, .nil⟩ (fun _ _ => rfl)
      fun _ => rfl) ?_
  rintro _ boot rfl
  refine .lift_bind (createVolumes_keeps _ 2 sizes (by simp)) ?_
  rintro _ ⟨extra, notMade⟩ ⟨rfl, hvolumes⟩
  have hnodup : ([boot.id] ++ extra).Nodup :=
    List.Nodup.of_map (fun id => (⟨t.datacenter, id⟩ : VolumeRef)) hvolumes
  refine .lift_bind (.await _ _) ?_
  rintro _ _ rfl
  refine OrNothing.bind (P := fun k (made : Server) => (made.id ≠ "" ∧ '/' ∉ made.id.toList) ∧ k =
    ⟨(boot.id :: extra).map (⟨t.datacenter, ·⟩), [(⟨t.datacenter, made.id⟩, [boot.id])], []⟩)
    (critical_keeps ?_ ⟨rfl, rfl, rfl, hnodup⟩ (fun _ hmade => ⟨hmade, rfl⟩) fun _ => rfl) ?_
  · simp [Holding.Permits, Call.uses, serverRequest]
  rintro _ made ⟨hmade, rfl⟩
  refine .lift_bind (.await _ _) ?_
  rintro _ _ rfl
  refine .lift_bind (.await _ _) ?_
  rintro _ _ rfl
  refine OrNothing.bind (createNetwork_keeps s name t region made.id hnodup) ?_
  rintro _ notOpened ⟨b, rfl⟩
  refine .lift_bind (settle_keeps s ⟨t.datacenter, made.id⟩ hnodup) ?_
  rintro _ notSettled ⟨vs, hvs, rfl⟩
  exact ⟨vs, b, rfl, hmade, hvs, rfl⟩

/-- A creation that fails before its look-up holds nothing. The look-up finds a whole node. -/
theorem create_keeps_of (draws : Draws) {R : Holding → Except Error Created → Prop}
    (herror : ∀ e, R {} (.error e))
    (hlookUp : ∀ k made, HoldsNode t.datacenter k made.1 →
      Keeps R k (lookUp t draws made).run) :
    Keeps R {} (create s name t draws).run := by
  unfold create
  cases t.hardware.volumesGb with
  | nil => exact .pure (herror _)
  | cons bootSize sizes =>
    refine .run_bind (Q := fun k _ => k = {}) (.of_reads (regionOf_asksOnly (fun _ => id) t)) ?_
      fun k e hk => hk ▸ herror e
    rintro _ region rfl
    rw [createIn_eq]
    exact .run_bind (prepareIn_keeps s name t draws bootSize sizes region) hlookUp
      fun k e hk => (show k = {} from hk) ▸ herror e

/-- A creation in a datacenter whose id a text can name holds a whole node in the end, or it has
failed and holds nothing. All that it attaches, deletes or changes on the way is its own. -/
theorem create_keeps (hdc : t.datacenter ≠ "" ∧ '/' ∉ t.datacenter.toList) (draws : Draws) :
    Keeps (OrNothing (CreatesNode t.datacenter)) {} (create s name t draws).run := by
  refine create_keeps_of s name t draws (fun _ => rfl) ?_
  rintro _ made ⟨vs, b, hmade, hid, hvs, rfl⟩
  have hparse := parse_text made.1 (hmade ▸ hdc) hid
  refine OrNothing.bind (getNode_keeps hparse List.mem_cons_self) ?_
  rintro _ node ⟨rfl, hlisted⟩
  exact ⟨made.1, vs, b, hmade, hparse, hvs, hlisted, rfl⟩

end Creation

end Lifecycle

end ComputePlane
