import ComputePlane.Proofs.Cloud.Ids
import ComputePlane.Proofs.Lifecycle.Steps

/-!
# How a creation can go

A creation ends when a change fails that it cannot do without, when the new node cannot be looked up
at the end, or with a node. For each of these `CreationRun` says what went before it.
-/

namespace ComputePlane.Lifecycle

open Program
open MemoryCloud (Answers)

/-! ## The ways it can go -/

section Ways

variable (s : AdapterSettings) (name : String) (t : Template) (password : String) (draws : Draws)
  (bootSize : Nat) (sizes : List Nat) (region : String)

/-- The volumes of a node are made: the one it starts from, and those of the others that do not
fail. -/
inductive VolumesMade (c : MemoryCloud) :
    List Outcome → String → List String → List Skipped → MemoryCloud → Prop
  | mk {boot c₁ js extra notMade d}
    (hboot : Answers c (.createVolume t.datacenter (volumeRequest s t name password 1 bootSize))
      (.ok boot) c₁)
    (hextra : Plays c₁ (createVolumes t.datacenter (volumeRequest s t name password) 2 sizes) js
      (extra, notMade) d) :
    VolumesMade c
      (⟨.createVolume t.datacenter (volumeRequest s t name password 1 bootSize), .ok boot⟩ :: js)
      boot.id extra notMade d

/-- The volumes and the server of a node are made. -/
inductive ServerMade (c : MemoryCloud) :
    List Outcome → String → List String → List Skipped → NodeId → MemoryCloud → Prop
  | mk {js boot extra notMade c₁ v d}
    (hvolumes : VolumesMade s name t password bootSize sizes c js boot extra notMade c₁)
    (hserver : Answers c₁ (.createServer t.datacenter (serverRequest t name boot)) (.ok v) d) :
    ServerMade c (js ++ [⟨.createServer t.datacenter (serverRequest t name boot), .ok v⟩]) boot
      extra notMade ⟨t.datacenter, v.id⟩ d

/-- The network of a node is made, or one of its two critical steps fails. -/
inductive NetworkRun (server : NodeId) (volumes : List String) (c : MemoryCloud) :
    List Outcome → Except Error (List Skipped) → MemoryCloud → Prop
  | noIpBlock {js e d}
    (h : Plays c (critical .allocateIpBlock t.datacenter
      { server := some server.server, volumes := volumes }
      (.createIpBlock (ipBlockRequest name region))).run js (.error e) d) :
    NetworkRun server volumes c js (.error e) d
  | noNic {block c₁ js e d}
    (hblock : Answers c (.createIpBlock (ipBlockRequest name region)) (.ok block) c₁)
    (h : Plays c₁ (critical .provisionNic t.datacenter
      { server := some server.server, volumes := volumes, ipBlock := some block.id }
      (.createNic server (nicRequest s t name block.properties.ips))).run js (.error e) d) :
    NetworkRun server volumes c
      (⟨.createIpBlock (ipBlockRequest name region), .ok block⟩ :: js) (.error e) d
  | made {block c₁ nic c₂ js notOpened d}
    (hblock : Answers c (.createIpBlock (ipBlockRequest name region)) (.ok block) c₁)
    (hnic : Answers c₁ (.createNic server (nicRequest s t name block.properties.ips)) (.ok nic) c₂)
    (hrules : Plays c₂ (createRules ⟨server, nic.id⟩ name (portRanges t.inboundPorts)) js notOpened
      d) :
    NetworkRun server volumes c
      (⟨.createIpBlock (ipBlockRequest name region), .ok block⟩ ::
        ⟨.createNic server (nicRequest s t name block.properties.ips), .ok nic⟩ :: js)
      (.ok notOpened) d

/-- The jobs of a creation in a region, what it gives, and what it leaves. -/
inductive CreationRun (c : MemoryCloud) :
    List Outcome → Except Error Created → MemoryCloud → Prop
  | noVolume {js e d}
    (h : Plays c (critical .provisionBootVolume t.datacenter {}
      (.createVolume t.datacenter (volumeRequest s t name (t.credentials draws).password 1
        bootSize))).run js (.error e) d) :
    CreationRun c js (.error e) d
  | noServer {js₁ boot extra notMade c₁ js₂ e d}
    (hvolumes : VolumesMade s name t (t.credentials draws).password bootSize sizes c js₁ boot extra
      notMade c₁)
    (h : Plays c₁ (critical .provisionServer t.datacenter { volumes := boot :: extra }
      (.createServer t.datacenter (serverRequest t name boot))).run js₂ (.error e) d) :
    CreationRun c (js₁ ++ js₂) (.error e) d
  | noNetwork {js₁ boot extra notMade server c₁ js₂ e d}
    (hserver : ServerMade s name t (t.credentials draws).password bootSize sizes c js₁ boot extra
      notMade server c₁)
    (h : NetworkRun s name t region server (boot :: extra) c₁ js₂ (.error e) d) :
    CreationRun c (js₁ ++ js₂) (.error e) d
  | noNode {js₁ boot extra notMade server c₁ js₂ notOpened c₂ js₃ notSettled e d}
    (hserver : ServerMade s name t (t.credentials draws).password bootSize sizes c js₁ boot extra
      notMade server c₁)
    (hnetwork : NetworkRun s name t region server (boot :: extra) c₁ js₂ (.ok notOpened) c₂)
    (hsettle : Plays c₂ (settle s server extra) js₃ notSettled d)
    (h : Plays d (getNode server.text).run [] (.error e) d) :
    CreationRun c (js₁ ++ js₂ ++ js₃) (.error e) d
  | done {js₁ boot extra notMade server c₁ js₂ notOpened c₂ js₃ notSettled node d}
    (hserver : ServerMade s name t (t.credentials draws).password bootSize sizes c js₁ boot extra
      notMade server c₁)
    (hnetwork : NetworkRun s name t region server (boot :: extra) c₁ js₂ (.ok notOpened) c₂)
    (hsettle : Plays c₂ (settle s server extra) js₃ notSettled d)
    (h : Plays d (getNode server.text).run [] (.ok node) d) :
    CreationRun c (js₁ ++ js₂ ++ js₃)
      (.ok ⟨node, server.text, t.credentials draws, notMade ++ notOpened ++ notSettled⟩) d

end Ways

/-! ## Each run goes one of these ways -/

section Runs

variable {s : AdapterSettings} {name : String} {t : Template} {draws : Draws} {bootSize : Nat}
  {sizes : List Nat} {region : String} {c d : MemoryCloud} {js : List Outcome}

theorem plays_awaitAvailable_bind {α : Type} {r : ResourceRef} {f : Bool → Operation α}
    {x : Except Error α}
    (h : Plays c ((liftM (awaitAvailable s r) : Operation Bool) >>= f).run js x d) :
    ∃ b, Plays c (f b).run js x d := by
  obtain ⟨js₁, b, e, js₂, hwait, h₂, rfl⟩ := h.of_lift_bind
  obtain ⟨rfl, rfl⟩ := hwait.of_reads (awaitAvailable_asksOnly (fun _ => id) s r)
  exact ⟨b, h₂⟩

theorem plays_createNetwork {server : NodeId} {volumes : List String}
    {x : Except Error (List Skipped)}
    (h : Plays c (createNetwork s t name region server volumes).run js x d) :
    NetworkRun s name t region server volumes c js x d := by
  unfold createNetwork at h
  rcases Plays.of_run_bind h with ⟨e, rfl, hblock⟩ | ⟨js₁, block, c₁, js₂, hblock, h₁, rfl⟩
  · exact .noIpBlock hblock
  obtain ⟨rfl, hans₁⟩ := plays_critical_ok hblock
  rcases Plays.of_run_bind h₁ with ⟨e, rfl, hnic⟩ | ⟨js₃, nic, c₂, js₄, hnic, h₂, rfl⟩
  · exact .noNic hans₁ hnic
  obtain ⟨rfl, hans₂⟩ := plays_critical_ok hnic
  obtain ⟨b, h₃⟩ := plays_awaitAvailable_bind h₂
  obtain ⟨js₅, skipped, d₁, js₆, hrules, h₄, rfl⟩ := Plays.of_bind h₃
  obtain ⟨rfl, rfl, rfl⟩ := h₄.of_pure
  rw [List.append_nil]
  exact .made hans₁ hans₂ hrules

theorem plays_createIn {x : Except Error Created}
    (h : Plays c (createIn s name t draws bootSize sizes region).run js x d) :
    CreationRun s name t draws bootSize sizes region c js x d := by
  unfold createIn at h
  rcases Plays.of_run_bind h with ⟨e, rfl, hboot⟩ | ⟨js₁, boot, c₁, js₂, hboot, h₁, rfl⟩
  · exact .noVolume hboot
  obtain ⟨rfl, hans₁⟩ := plays_critical_ok hboot
  obtain ⟨js₃, made, c₂, js₄, hmade, h₂, rfl⟩ := Plays.of_lift_bind h₁
  have hvolumes := VolumesMade.mk hans₁ hmade
  rw [← List.append_assoc]
  obtain ⟨_, h₃⟩ := plays_awaitAvailable_bind h₂
  rcases Plays.of_run_bind h₃ with ⟨e, rfl, hserver⟩ | ⟨js₅, v, c₃, js₆, hserver, h₄, rfl⟩
  · exact .noServer hvolumes hserver
  obtain ⟨rfl, hans₂⟩ := plays_critical_ok hserver
  have hserver := ServerMade.mk hvolumes hans₂
  rw [← List.append_assoc]
  obtain ⟨_, h₅⟩ := plays_awaitAvailable_bind h₄
  obtain ⟨_, h₆⟩ := plays_awaitAvailable_bind h₅
  rcases Plays.of_run_bind h₆ with ⟨e, rfl, hnet⟩ | ⟨js₇, notOpened, c₄, js₈, hnet, h₇, rfl⟩
  · exact .noNetwork hserver (plays_createNetwork hnet)
  have hnetwork := plays_createNetwork hnet
  obtain ⟨js₉, notSettled, c₅, js₁₀, hsettle, h₈, rfl⟩ := Plays.of_lift_bind h₇
  have hlookup := getNode_asksOnly (fun _ => id) (NodeId.text ⟨t.datacenter, v.id⟩)
  rcases Plays.of_run_bind h₈ with ⟨e, rfl, hnode⟩ | ⟨js₁₁, node, c₆, js₁₂, hnode, h₉, rfl⟩
  · obtain ⟨rfl, rfl⟩ := hnode.of_reads hlookup
    rw [List.append_nil, ← List.append_assoc]
    exact .noNode hserver hnetwork hsettle hnode
  · obtain ⟨rfl, rfl⟩ := hnode.of_reads hlookup
    obtain ⟨rfl, rfl, rfl⟩ := h₉.of_pure
    rw [List.append_nil, List.append_nil, ← List.append_assoc]
    exact .done hserver hnetwork hsettle hnode

theorem regionOf_error {e : Error} (h : Plays c (regionOf t).run js (.error e) d) :
    e.isFatal = false := by
  unfold regionOf at h
  cases hregion : t.region with
  | some region =>
    rw [hregion] at h
    obtain ⟨-, herr, -⟩ := Plays.of_pure h
    cases herr
  | none =>
    rw [hregion] at h
    rcases h.of_run_bind with ⟨err, herr, h₁⟩ | ⟨js₁, found, d₁, js₂, h₁, h₂, -⟩
    · cases herr
      exact h₁.of_call.2.isFatal_eq_false
    · cases hfound : found.bind (·.properties.location) with
      | some region =>
        rw [hfound] at h₂
        obtain ⟨-, herr, -⟩ := Plays.of_pure h₂
        cases herr
      | none =>
        rw [hfound] at h₂
        obtain ⟨-, herr, -⟩ := Plays.of_pure h₂
        cases herr
        rfl

/-- A creation fails before its first change, or it has volumes to make and a region to make them
in. -/
theorem plays_create {x : Except Error Created}
    (h : Plays c (create s name t draws).run js x d) :
    (∃ e, x = .error e ∧ e.isFatal = false ∧ js = [] ∧ d = c) ∨
      ∃ bootSize sizes region, t.hardware.volumesGb = bootSize :: sizes ∧
        CreationRun s name t draws bootSize sizes region c js x d := by
  unfold create at h
  cases hsizes : t.hardware.volumesGb with
  | nil =>
    rw [hsizes] at h
    obtain ⟨rfl, rfl, rfl⟩ := Plays.of_pure h
    exact .inl ⟨_, rfl, rfl, rfl, rfl⟩
  | cons bootSize sizes =>
    rw [hsizes] at h
    have hreads := regionOf_asksOnly (fun _ => id) t
    rcases Plays.of_run_bind h with ⟨e, rfl, hregion⟩ | ⟨js₁, region, c₁, js₂, hregion, h₁, rfl⟩
    · obtain ⟨rfl, rfl⟩ := hregion.of_reads hreads
      exact .inl ⟨e, rfl, regionOf_error hregion, rfl, rfl⟩
    · obtain ⟨rfl, rfl⟩ := hregion.of_reads hreads
      exact .inr ⟨bootSize, sizes, region, rfl, plays_createIn h₁⟩

theorem getNode_error {text : String} {e : Error}
    (h : Plays c (getNode text).run js (.error e) d) : e.isFatal = false := by
  unfold getNode at h
  rcases Plays.of_run_bind h with ⟨err, herr, h₁⟩ | ⟨js₁, id, d₁, js₂, -, h, -⟩
  · cases herr
    have hparse : NodeId.parse text = .error e := (Plays.of_pure h₁).2.1.symm
    unfold NodeId.parse at hparse
    split at hparse <;> cases hparse
    rfl
  rcases Plays.of_run_bind h with ⟨err, herr, h₂⟩ | ⟨js₂, server, d₂, js₃, -, h, -⟩
  · cases herr
    exact h₂.of_call.2.isFatal_eq_false
  · cases server <;> obtain ⟨-, herr, -⟩ := Plays.of_pure h <;> cases herr
    rfl

end Runs

end ComputePlane.Lifecycle
