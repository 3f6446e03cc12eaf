import ComputePlane.Proofs.Lifecycle.Creation
import ComputePlane.Proofs.World.Simulation

/-!
# Creations that fail without being undone

A creation can fail without being undone: before its first change, or when the new node cannot be
looked up at the end. Only in the first case does it leave nothing behind
(`unchanged_iff_failedEarly`).
-/

namespace ComputePlane

open Program

/-! ## Servers and addresses -/

/-- Neither a server nor a block of addresses is made or deleted. -/
def Call.keepsInventory : Call → Bool
  | createServer .. => false
  | deleteServer _ => false
  | createIpBlock _ => false
  | deleteIpBlock _ => false
  | _ => true

namespace MemoryCloud

variable {c d : MemoryCloud}

/-- The ids of the servers, and the blocks of addresses. -/
def inventory (c : MemoryCloud) : List NodeId × List (String × List String) :=
  (c.servers.map (·.id), c.ipBlocks)

theorem inventory_apply (c : MemoryCloud) {call : Call} (h : call.keepsInventory = true) :
    (c.apply call).2.inventory = c.inventory := by
  unfold inventory
  rw [serverIds_apply, ipBlocks_apply]
  cases call <;> first | rfl | cases h

theorem Answers.inventory_eq {call : Call} {r : call.Result} (hk : call.keepsInventory = true)
    (h : Answers c call r d) : d.inventory = c.inventory := by
  cases h with
  | failed => rfl
  | applied happ =>
    have heq := inventory_apply c hk
    rwa [happ] at heq

theorem Answers.inventory_createServer {dc : String} {r : ServerRequest} {v : Server}
    (h : Answers c (.createServer dc r) (.ok v) d) :
    ∃ server, d.inventory = (c.inventory.1 ++ [server], c.inventory.2) := by
  cases h with
  | applied happ =>
    have hservers := serverIds_apply c (.createServer dc r)
    have hblocks := ipBlocks_apply c (.createServer dc r)
    rw [happ] at hservers hblocks
    exact ⟨_, Prod.ext hservers hblocks⟩

theorem Answers.inventory_createIpBlock {r : IpBlockRequest} {v : IpBlock}
    (h : Answers c (.createIpBlock r) (.ok v) d) :
    ∃ block, d.inventory = (c.inventory.1, c.inventory.2 ++ [block]) := by
  cases h with
  | applied happ =>
    have hservers := serverIds_apply c (.createIpBlock r)
    have hblocks := ipBlocks_apply c (.createIpBlock r)
    rw [happ] at hservers hblocks
    exact ⟨_, Prod.ext hservers hblocks⟩

end MemoryCloud

namespace Program

theorem keepsInventory_of_isRead {r : Request} (h : isRead r = true) :
    (call? r).all Call.keepsInventory = true :=
  all_call?_of_isRead (fun c hc => by cases c <;> first | rfl | cases hc) h

theorem Plays.inventory_eq {α : Type} {c d : MemoryCloud} {x : Program α} {js : List Outcome}
    {a : α} (hx : x.AsksOnly fun r => (call? r).all Call.keepsInventory = true)
    (h : Plays c x js a d) : d.inventory = c.inventory :=
  h.obs_eq (fun hk hans => hans.inventory_eq hk) hx

end Program

namespace Lifecycle

variable {s : AdapterSettings} {name : String} {t : Template} {draws : Draws} {bootSize : Nat}
  {sizes : List Nat} {region : String} {server : NodeId} {e : Error} {c d : MemoryCloud}
  {js : List Outcome}

/-! ## Creations that are not undone -/

theorem ServerMade.inventory {password boot : String} {extra : List String}
    {notMade : List Skipped}
    (h : ServerMade s name t password bootSize sizes c js boot extra notMade server d) :
    ∃ id, d.inventory = (c.inventory.1 ++ [id], c.inventory.2) := by
  cases h with
  | mk hvolumes hserver =>
    cases hvolumes with
    | mk hboot hextra =>
      obtain ⟨id, hid⟩ := hserver.inventory_createServer
      rw [Plays.inventory_eq (createVolumes_asksOnly _ (fun _ => rfl) _ _) hextra,
        hboot.inventory_eq rfl] at hid
      exact ⟨id, hid⟩

theorem NetworkRun.inventory {volumes : List String} {notOpened : List Skipped}
    (h : NetworkRun s name t region server volumes c js (.ok notOpened) d) :
    ∃ block, d.inventory = (c.inventory.1, c.inventory.2 ++ [block]) := by
  cases h with
  | made hblock hnic hrules =>
    obtain ⟨block, hinv⟩ := hblock.inventory_createIpBlock
    refine ⟨block, ?_⟩
    rw [Plays.inventory_eq (createRules_asksOnly _ (fun _ => rfl) _) hrules,
      hnic.inventory_eq rfl, hinv]

theorem plays_critical_isFatal {stage : Stage} {dc : String} {made : Made} {call : Call}
    (h : Plays c (critical stage dc made call).run js (.error e) d) : e.isFatal = true := by
  obtain ⟨_, _, _, rfl, -⟩ := plays_critical_error h
  rfl

theorem NetworkRun.isFatal {volumes : List String}
    (h : NetworkRun s name t region server volumes c js (.error e) d) : e.isFatal = true := by
  cases h with
  | noIpBlock h => exact plays_critical_isFatal h
  | noNic hblock h => exact plays_critical_isFatal h

/-- Once its region is known, a creation that fails without being undone leaves its server and its
block of addresses behind. -/
theorem CreationRun.inventory (he : e.isFatal = false)
    (h : CreationRun s name t draws bootSize sizes region c js (.error e) d) :
    ∃ server block, d.inventory = (c.inventory.1 ++ [server], c.inventory.2 ++ [block]) := by
  cases h with
  | noVolume h =>
    rw [plays_critical_isFatal h] at he
    cases he
  | noServer hvolumes h =>
    rw [plays_critical_isFatal h] at he
    cases he
  | noNetwork hserver h =>
    rw [h.isFatal] at he
    cases he
  | noNode hserver hnetwork hsettle h =>
    obtain ⟨server, h₁⟩ := hserver.inventory
    obtain ⟨block, h₂⟩ := hnetwork.inventory
    have h₃ := Plays.inventory_eq (settle_asksOnly (fun _ => keepsInventory_of_isRead) s _
      (fun _ => rfl) (fun _ => rfl) rfl) hsettle
    rw [h₁] at h₂
    exact ⟨server, block, h₃.trans h₂⟩

/-! ## What is left behind -/

/-- Two clouds have the same volumes, servers and blocks of addresses. -/
def SameResources (c d : MemoryCloud) : Prop :=
  d.volumes = c.volumes ∧ d.servers = c.servers ∧ d.ipBlocks = c.ipBlocks

/-- The creation of a node could not begin: there are no volumes to make, or its region was not
found. -/
def FailedEarly (w : World) (t : Template) (e : Error) : Prop :=
  t.hardware.volumesGb = [] ∨ (w.run (regionOf t).run).1 = .error e

variable {w w' : World}

theorem sameResources_of_content (h : w'.content = w.content) :
    SameResources w.backend.cloud w'.backend.cloud :=
  have hobs : ∀ {β : Type} (obs : MemoryCloud → β), obs w'.content = obs w.content :=
    fun obs => congrArg obs h
  ⟨hobs (·.volumes), hobs (·.servers), hobs (·.ipBlocks)⟩

theorem content_run_regionOf (hrules : w.backend.rules = []) (t : Template) :
    (w.run (regionOf t).run).2.content = w.content :=
  ((World.plays hrules (regionOf t).run).of_reads (regionOf_asksOnly (fun _ => id) t)).2

/-- With volumes to make, a creation looks up its region and goes on if there is one. -/
theorem run_create (hsizes : t.hardware.volumesGb = bootSize :: sizes) :
    w.run (create s name t draws).run =
      match (w.run (regionOf t).run).1 with
      | .ok region =>
        (w.run (regionOf t).run).2.run (createIn s name t draws bootSize sizes region).run
      | .error e => (.error e, (w.run (regionOf t).run).2) := by
  unfold create
  rw [hsizes, ExceptT.run_bind, World.run_bind]
  cases (w.run (regionOf t).run).1 <;> rfl

/-- A creation that could not begin leaves everything as it was. -/
theorem sameResources_of_failedEarly (hrules : w.backend.rules = [])
    (h : w.run (create s name t draws).run = (.error e, w')) (hearly : FailedEarly w t e) :
    SameResources w.backend.cloud w'.backend.cloud := by
  cases hsizes : t.hardware.volumesGb with
  | nil =>
    unfold create at h
    rw [hsizes] at h
    cases h
    exact ⟨rfl, rfl, rfl⟩
  | cons bootSize sizes =>
    have hregion : (w.run (regionOf t).run).1 = .error e :=
      hearly.resolve_left (by simp [hsizes])
    simp only [run_create hsizes, hregion] at h
    cases h
    exact sameResources_of_content (content_run_regionOf hrules t)

/-- A creation that could begin and is not undone leaves its server and its block of addresses. -/
theorem left_of_not_failedEarly (hrules : w.backend.rules = []) (he : e.isFatal = false)
    (h : w.run (create s name t draws).run = (.error e, w')) (hlate : ¬FailedEarly w t e) :
    ∃ server block,
      w'.backend.cloud.servers.map (·.id) = w.backend.cloud.servers.map (·.id) ++ [server] ∧
      w'.backend.cloud.ipBlocks = w.backend.cloud.ipBlocks ++ [block] := by
  cases hsizes : t.hardware.volumesGb with
  | nil => exact absurd (.inl hsizes) hlate
  | cons bootSize sizes =>
    cases hregion : (w.run (regionOf t).run).1 with
    | error err =>
      simp only [run_create hsizes, hregion] at h
      cases h
      exact absurd (.inr hregion) hlate
    | ok region =>
      simp only [run_create hsizes, hregion] at h
      have hplays := World.plays (w := (w.run (regionOf t).run).2) (by rw [World.rules_run, hrules])
        (createIn s name t draws bootSize sizes region).run
      rw [h, content_run_regionOf hrules] at hplays
      obtain ⟨server, block, hinv⟩ := (plays_createIn hplays).inventory he
      exact ⟨server, block, Prod.mk.inj hinv⟩

/-- A creation that fails without being undone leaves nothing behind exactly if it could not begin.
Otherwise its server and its block of addresses are still there. -/
theorem unchanged_iff_failedEarly (hrules : w.backend.rules = []) (he : e.isFatal = false)
    (h : w.run (create s name t draws).run = (.error e, w')) :
    (SameResources w.backend.cloud w'.backend.cloud ↔ FailedEarly w t e) ∧
    (¬FailedEarly w t e → ∃ server block,
      w'.backend.cloud.servers.map (·.id) = w.backend.cloud.servers.map (·.id) ++ [server] ∧
      w'.backend.cloud.ipBlocks = w.backend.cloud.ipBlocks ++ [block]) := by
  have hleft := left_of_not_failedEarly hrules he h
  refine ⟨⟨fun hsame => ?_, sameResources_of_failedEarly hrules h⟩, hleft⟩
  by_cases hearly : FailedEarly w t e
  · exact hearly
  · obtain ⟨server, block, -, hblocks⟩ := hleft hearly
    rw [hsame.2.2] at hblocks
    simp at hblocks

/-- The node is there, but the last look at it fails. -/
theorem unchanged_iff_failedEarly_lookup :
    let w : World := { backend := { cloud :=
      { datacenters := [("dc-1", "de/fra")], failures := [("get_server", 4)] } } }
    let t : Template :=
      { datacenter := "dc-1", image := "img-1", password := some "secret"
        hardware := ⟨1, 1024, [10]⟩ }
    let x := (create {} "n" t fun _ => 0).run
    (w.run x).1 = .error (.backend "injected failure: get_server #4") ∧
      ¬SameResources w.backend.cloud (w.run x).2.backend.cloud := by
  intro w t x
  have hfailed : (w.run x).1 = .error (.backend "injected failure: get_server #4") := by
    decide +kernel
  have hrun : w.run x =
      (.error (.backend "injected failure: get_server #4"), (w.run x).2) := by
    rw [← hfailed]
  have hregion : (w.run (regionOf t).run).1 = .ok "de/fra" := by decide +kernel
  have hlate : ¬FailedEarly w t (.backend "injected failure: get_server #4") := by
    simp [FailedEarly, hregion, t]
  obtain ⟨hiff, -⟩ := unchanged_iff_failedEarly (w := w) rfl rfl hrun
  exact ⟨hfailed, fun hsame => hlate (hiff.mp hsame)⟩

/-- Not every creation that fails without being undone leaves nothing behind. -/
theorem exists_leftovers :
    ¬∀ (w w' : World) (s : AdapterSettings) (name : String) (t : Template) (draws : Draws)
      (e : Error), w.backend.rules = [] → e.isFatal = false →
      w.run (create s name t draws).run = (.error e, w') →
      SameResources w.backend.cloud w'.backend.cloud := by
  intro hall
  let w : World := { backend := { cloud :=
    { datacenters := [("dc-1", "de/fra")], failures := [("get_server", 4)] } } }
  let t : Template :=
    { datacenter := "dc-1", image := "img-1", password := some "secret"
      hardware := ⟨1, 1024, [10]⟩ }
  let x := (create {} "n" t fun _ => 0).run
  have hfailed : (w.run x).1 = .error (.backend "injected failure: get_server #4") := by
    decide +kernel
  have hservers : (w.run x).2.backend.cloud.servers.length = 1 := by decide +kernel
  have hrun : w.run x =
      (.error (.backend "injected failure: get_server #4"), (w.run x).2) := by
    rw [← hfailed]
  obtain ⟨-, hsame, -⟩ := hall w _ _ _ t _ _ rfl rfl hrun
  rw [hsame] at hservers
  cases hservers

end Lifecycle

end ComputePlane
