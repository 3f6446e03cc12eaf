import ComputePlane.Proofs.Cloud.NewServer
import ComputePlane.Proofs.Lifecycle.Rollback
import ComputePlane.Proofs.Text.NodeTexts

/-!
# Creations that succeed

Whatever fails on the way, the jobs of a creation that gives a node account for all of it: which
calls were made and in what order, which failures are reported, and what the cloud holds in the end
(`create_accounted`). Each of these is read off the jobs and their results, step by step in the
order in which a creation takes its steps.
-/

namespace ComputePlane

open MemoryCloud (Grown Answers)

/-! ## What a job has done -/

namespace Program.Outcome

def volume? : Outcome → Option StoredVolume
  | ⟨.createVolume dc r, .ok v⟩ => some (MemoryCloud.volumeFor dc v.id r)
  | _ => none

def opened? : Outcome → Option (Nat × Nat)
  | ⟨.createFirewallRule _ r, .ok _⟩ => some (r.portRangeStart, r.portRangeEnd)
  | _ => none

def attached? : Outcome → Option String
  | ⟨.attachVolume _ v, .ok _⟩ => some v
  | _ => none

def deleted? : Outcome → Option String
  | ⟨.deleteVolume v, .ok _⟩ => some v.volume
  | _ => none

/-- What is reported of a job that has failed and was passed over. -/
def skipped? : Outcome → Option Lifecycle.Skipped
  | ⟨.createVolume .., .error e⟩ => some ⟨.provisionVolume, none, e.message⟩
  | ⟨.createFirewallRule n _, .error e⟩ => some ⟨.createFirewallRule, some n.nic, e.message⟩
  | ⟨.attachVolume _ v, .error e⟩ => some ⟨.attachVolume, some v, e.message⟩
  | ⟨.rebootServer s, .error e⟩ => some ⟨.reboot, some s.server, e.message⟩
  | _ => none

end Program.Outcome

namespace Lifecycle

open Program

variable {c d d' : MemoryCloud} {vs : List StoredVolume} {ss : List StoredServer}
  {srv : StoredServer} {bs : List (String × List String)} {js : List Outcome}

/-! ## Steps that may fail -/

/-- Further volumes are made one after another, and those that fail are reported. -/
theorem accounted_createVolumes {dc : String} {request : Nat → Nat → VolumeRequest} {i : Nat}
    {sizes : List Nat} {made : List String × List Skipped} (g : Grown c vs ss bs d)
    (h : Plays d (createVolumes dc request i sizes) js made d') :
    js.map (·.call) = (sizes.zipIdx i).map (fun p => .createVolume dc (request p.2 p.1)) ∧
      made = ((js.filterMap Outcome.volume?).map (·.id), js.filterMap Outcome.skipped?) ∧
      Grown c (vs ++ js.filterMap Outcome.volume?) ss bs d' := by
  induction sizes generalizing i d js vs made with
  | nil =>
    obtain ⟨rfl, rfl, rfl⟩ := h.of_pure
    exact ⟨rfl, rfl, by simpa using g⟩
  | cons size sizes ih =>
    obtain ⟨js₁, r, e, js₂, h₁, h₂, rfl⟩ := Plays.of_bind h
    obtain ⟨js₃, rest, e', js₄, h₃, h₄, rfl⟩ := Plays.of_bind h₂
    rcases plays_attempt h₁ with ⟨v, rfl, rfl, hans⟩ | ⟨err, rfl, rfl, hans⟩
    · obtain ⟨rfl, rfl, rfl⟩ := h₄.of_pure
      obtain ⟨hcalls, rfl, g'⟩ := ih (g.createVolume hans) h₃
      rw [List.append_assoc] at g'
      rw [List.append_nil, List.singleton_append]
      exact ⟨by simp [List.zipIdx_cons, hcalls], rfl, g'⟩
    · obtain ⟨rfl, rfl, rfl⟩ := h₄.of_pure
      obtain ⟨hcalls, rfl, g'⟩ := ih (g.of_error hans) h₃
      rw [List.append_nil, List.singleton_append]
      exact ⟨by simp [List.zipIdx_cons, hcalls], rfl, g'⟩

/-- Ports are opened range by range, and the ranges that fail are reported. -/
theorem accounted_createRules {n : StoredNic} {name : String} {ranges : List (Nat × Nat)}
    {notOpened : List Skipped} (hc : c.IdsIssued) (g : Grown c vs [{ srv with nics := [n] }] bs d)
    (h : Plays d (createRules ⟨srv.id, n.id⟩ name ranges) js notOpened d') :
    js.map (·.call) =
        ranges.map (fun range => .createFirewallRule ⟨srv.id, n.id⟩ (ruleRequest name range)) ∧
      notOpened = js.filterMap Outcome.skipped? ∧
      Grown c vs [{ srv with
        nics := [{ n with rules := n.rules ++ js.filterMap Outcome.opened? }] }] bs d' := by
  induction ranges generalizing n d js notOpened with
  | nil =>
    obtain ⟨rfl, rfl, rfl⟩ := h.of_pure
    exact ⟨rfl, rfl, by simpa using g⟩
  | cons range ranges ih =>
    obtain ⟨js₁, r, e, js₂, h₁, h₂, rfl⟩ := Plays.of_bind h
    obtain ⟨js₃, rest, e', js₄, h₃, h₄, rfl⟩ := Plays.of_bind h₂
    rcases plays_attempt h₁ with ⟨a, rfl, rfl, hans⟩ | ⟨err, rfl, rfl, hans⟩
    · obtain ⟨rfl, rfl, rfl⟩ := h₄.of_pure
      rw [List.append_nil, List.singleton_append]
      rcases g.createFirewallRule hc rfl hans with ⟨-, -, g'⟩ | ⟨_, herr, -⟩
      · obtain ⟨hcalls, rfl, g''⟩ := ih g' h₃
        simp only [List.append_assoc] at g''
        exact ⟨congrArg (List.cons _) hcalls, rfl, g''⟩
      · cases herr
    · obtain ⟨rfl, rfl, rfl⟩ := h₄.of_pure
      obtain ⟨hcalls, rfl, g'⟩ := ih (g.of_error hans) h₃
      rw [List.append_nil, List.singleton_append]
      exact ⟨congrArg (List.cons _) hcalls, rfl, g'⟩

/-- The calls for a volume to be attached: one that is not attached is deleted at once. -/
def attachCalls (server : NodeId) (attached : List String) (volume : String) : List Call :=
  .attachVolume server volume ::
    if volume ∈ attached then [] else [.deleteVolume ⟨server.datacenter, volume⟩]

theorem attachCalls_cons {server : NodeId} {attached volumes : List String} {volume : String}
    (h : volume ∉ volumes) :
    volumes.flatMap (attachCalls server (volume :: attached)) =
      volumes.flatMap (attachCalls server attached) := by
  refine List.flatMap_congr fun v hv => ?_
  have hne : v ≠ volume := fun heq => h (heq ▸ hv)
  simp [attachCalls, hne]

/-- Volumes have been attached one after another. Those that were not are reported, and deleted
unless the delete has failed as well. -/
structure AttachRun (c : MemoryCloud) (vs : List StoredVolume) (srv : StoredServer)
    (bs : List (String × List String)) (volumes : List String) (js : List Outcome)
    (notAttached : List Skipped) (d : MemoryCloud) : Prop where
  calls : js.map (·.call) = volumes.flatMap (attachCalls srv.id (js.filterMap Outcome.attached?))
  skipped : notAttached = js.filterMap Outcome.skipped?
  attached : (js.filterMap Outcome.attached?).Sublist volumes
  deleted : ∀ v ∈ js.filterMap Outcome.deleted?, v ∈ volumes ∧ v ∉ js.filterMap Outcome.attached?
  grown : Grown c (vs.filter (·.id ∉ js.filterMap Outcome.deleted?))
    [MemoryCloud.attached c.busyAfterAttach (js.filterMap Outcome.attached?) srv] bs d

namespace AttachRun

variable {volume : String} {volumes : List String} {notAttached : List Skipped} {err : Error}

theorem nil (g : Grown c vs [srv] bs d) : AttachRun c vs srv bs [] [] [] d where
  calls := rfl
  skipped := rfl
  attached := .slnil
  deleted := by simp
  grown := by simpa [MemoryCloud.attached_nil] using g

/-- A volume is attached. -/
theorem cons_ok {a : Unit} (hvolume : volume ∉ volumes)
    (h : AttachRun c vs (MemoryCloud.attached c.busyAfterAttach [volume] srv) bs volumes js
      notAttached d) :
    AttachRun c vs srv bs (volume :: volumes) (⟨.attachVolume srv.id volume, .ok a⟩ :: js)
      notAttached d := by
  have hattached : (Outcome.mk (.attachVolume srv.id volume) (.ok a) :: js).filterMap
      Outcome.attached? = volume :: js.filterMap Outcome.attached? := rfl
  have hdeleted : (Outcome.mk (.attachVolume srv.id volume) (.ok a) :: js).filterMap
      Outcome.deleted? = js.filterMap Outcome.deleted? := rfl
  constructor
  case calls =>
    have hcall : attachCalls srv.id (volume :: js.filterMap Outcome.attached?) volume =
        [.attachVolume srv.id volume] := by simp [attachCalls]
    rw [hattached, List.flatMap_cons, attachCalls_cons hvolume, hcall]
    exact congrArg (List.cons _) h.calls
  case skipped => exact h.skipped
  case attached => exact h.attached.cons_cons _
  case deleted =>
    rw [hattached, hdeleted]
    intro v hv
    obtain ⟨hmem, hnot⟩ := h.deleted v hv
    have hne : v ≠ volume := fun heq => hvolume (heq ▸ hmem)
    simp [hmem, hnot, hne]
  case grown =>
    rw [hattached, hdeleted, MemoryCloud.attached_cons]
    exact h.grown

/-- A volume is not attached, and deleted if `r` says so. -/
theorem cons_error {r : (Call.deleteVolume ⟨srv.id.datacenter, volume⟩).Result}
    (hvolume : volume ∉ volumes)
    (h : AttachRun c (vs.filter (·.id ∉ [Outcome.mk _ r].filterMap Outcome.deleted?)) srv bs
      volumes js notAttached d) :
    AttachRun c vs srv bs (volume :: volumes)
      (⟨.attachVolume srv.id volume, .error err⟩ ::
        ⟨.deleteVolume ⟨srv.id.datacenter, volume⟩, r⟩ :: js)
      (⟨.attachVolume, some volume, err.message⟩ :: notAttached) d := by
  have hnot : volume ∉ js.filterMap Outcome.attached? := fun hmem =>
    hvolume (h.attached.subset hmem)
  have hgone : ∀ v ∈ [Outcome.mk _ r].filterMap Outcome.deleted?, v = volume := by
    cases r <;> simp [Outcome.deleted?]
  have hdeleted : (Outcome.mk (.attachVolume srv.id volume) (.error err) :: ⟨_, r⟩ :: js).filterMap
      Outcome.deleted? =
        [Outcome.mk _ r].filterMap Outcome.deleted? ++ js.filterMap Outcome.deleted? :=
    List.filterMap_append (l := [Outcome.mk _ r])
  have hattached : (Outcome.mk (.attachVolume srv.id volume) (.error err) :: ⟨_, r⟩ ::
      js).filterMap Outcome.attached? = js.filterMap Outcome.attached? := rfl
  constructor
  case calls =>
    have hcall : attachCalls srv.id (js.filterMap Outcome.attached?) volume =
        [.attachVolume srv.id volume, .deleteVolume ⟨srv.id.datacenter, volume⟩] := by
      simp [attachCalls, hnot]
    rw [hattached, List.flatMap_cons, hcall]
    exact congrArg (List.cons _) (congrArg (List.cons _) h.calls)
  case skipped => exact congrArg (List.cons _) h.skipped
  case attached => exact h.attached.cons _
  case deleted =>
    rw [hattached, hdeleted]
    intro v hv
    rcases List.mem_append.mp hv with hv | hv
    · obtain rfl := hgone v hv
      exact ⟨List.mem_cons_self, hnot⟩
    · obtain ⟨hmem, hnot'⟩ := h.deleted v hv
      exact ⟨List.mem_cons_of_mem _ hmem, hnot'⟩
  case grown =>
    rw [hattached, hdeleted]
    simpa [List.filter_filter, Bool.and_comm] using h.grown

end AttachRun

/-- A volume whose delete does not fail is gone. -/
theorem accounted_delete {w : StoredVolume} {dc : String}
    {r : (Call.deleteVolume ⟨dc, w.id⟩).Result} (hc : c.IdsIssued) (hlist : c.ListsExisting)
    (g : Grown c vs [srv] bs d) (hw : w ∈ vs) (hdc : w.datacenter = dc)
    (hfree : w.id ∉ srv.volumes) (h : Answers d (.deleteVolume ⟨dc, w.id⟩) r d') :
    Grown c (vs.filter (·.id ∉ [Outcome.mk _ r].filterMap Outcome.deleted?)) [srv] bs d' := by
  subst hdc
  rcases g.deleteUnattached hc hlist hw hfree h with ⟨rfl, g'⟩ | ⟨e, rfl, g'⟩
  · simpa [Outcome.deleted?] using g'
  · simpa [Outcome.deleted?] using g'

/-- New volumes of the server's datacenter are attached to it. -/
theorem plays_attachVolumes {volumes : List String} {notAttached : List Skipped}
    (hc : c.IdsIssued) (hlist : c.ListsExisting) (g : Grown c vs [srv] bs d)
    (hnodup : volumes.Nodup)
    (hnew : ∀ v ∈ volumes, v ∉ srv.volumes ∧
      ∃ w ∈ vs, w.id = v ∧ w.datacenter = srv.id.datacenter)
    (h : Plays d (attachVolumes srv.id volumes) js notAttached d') :
    AttachRun c vs srv bs volumes js notAttached d' := by
  induction volumes generalizing srv vs d js notAttached with
  | nil =>
    obtain ⟨rfl, rfl, rfl⟩ := h.of_pure
    exact .nil g
  | cons volume volumes ih =>
    obtain ⟨hvolume, hrest⟩ := List.nodup_cons.mp hnodup
    rw [List.forall_mem_cons] at hnew
    obtain ⟨⟨hfree, w, hw, rfl, hdc⟩, hothers⟩ := hnew
    have hne : ∀ v ∈ volumes, v ≠ w.id := fun v hv heq => hvolume (heq ▸ hv)
    obtain ⟨js₁, r, e, js₂, h₁, h₂, rfl⟩ := Plays.of_bind h
    rcases plays_attempt h₁ with ⟨a, rfl, rfl, hans⟩ | ⟨err, rfl, rfl, hans⟩
    · rcases g.attachVolume hc hans with ⟨-, g'⟩ | ⟨_, herr, -⟩
      · refine .cons_ok hvolume (ih g' hrest (fun v hv => ?_) h₂)
        simpa [MemoryCloud.attached, hne v hv] using hothers v hv
      · cases herr
    · obtain ⟨js₃, u, e', js₄, h₃, h₄, rfl⟩ := Plays.of_bind h₂
      obtain ⟨js₅, rest, e'', js₆, h₅, h₆, rfl⟩ := Plays.of_bind h₄
      obtain ⟨rfl, rfl, rfl⟩ := h₆.of_pure
      obtain ⟨r, rfl, hdelete⟩ := plays_bestEffort h₃
      have g' := accounted_delete hc hlist (g.of_error hans) hw hdc hfree hdelete
      rw [List.append_nil]
      refine .cons_error hvolume (ih g' hrest (fun v hv => ?_) h₅)
      -- the other volumes are still there
      obtain ⟨hnot, u, hu, rfl, hdc'⟩ := hothers v hv
      refine ⟨hnot, u, List.mem_filter.mpr ⟨hu, ?_⟩, rfl, hdc'⟩
      cases r with
      | ok a => simpa [Outcome.deleted?] using hne _ hv
      | error e => simp [Outcome.deleted?]

/-! ## The other steps -/

/-- The end of a creation attaches the further volumes and restarts the server. -/
theorem plays_settle {s : AdapterSettings} {server : NodeId} {extra : List String}
    {notSettled : List Skipped} (h : Plays d (settle s server extra) js notSettled d') :
    ∃ js' notAttached e r, js = js' ++ [⟨.rebootServer server, r⟩] ∧
      Plays d (attachVolumes server extra) js' notAttached e ∧
      Answers e (.rebootServer server) r d' ∧
      notSettled = notAttached ++ [⟨.rebootServer server, r⟩].filterMap Outcome.skipped? := by
  obtain ⟨js₁, notAttached, e₁, js₂, hattach, h₂, rfl⟩ := Plays.of_bind h
  obtain ⟨js₃, _, e₂, js₄, h₃, h₄, rfl⟩ := Plays.of_bind h₂
  obtain ⟨js₅, _, e₃, js₆, h₅, h₆, rfl⟩ := Plays.of_bind h₄
  obtain ⟨js₇, _, e₄, js₈, h₇, h₈, rfl⟩ := Plays.of_bind h₆
  obtain ⟨js₉, notRestarted, e₅, js₁₀, hrestart, h₁₀, rfl⟩ := Plays.of_bind h₈
  obtain ⟨js₁₁, _, e₆, js₁₂, h₁₁, h₁₂, rfl⟩ := Plays.of_bind h₁₀
  obtain ⟨js₁₃, _, e₇, js₁₄, h₁₃, h₁₄, rfl⟩ := Plays.of_bind h₁₂
  obtain ⟨rfl, rfl, rfl⟩ := h₁₄.of_pure
  have hawait := fun r => awaitAvailable_asksOnly (fun _ => id) s r
  obtain ⟨rfl, rfl⟩ := h₃.of_reads (hawait _)
  obtain ⟨rfl, rfl⟩ := h₅.of_reads (hawait _)
  obtain ⟨rfl, rfl⟩ := h₇.of_reads (.ask rfl)
  obtain ⟨rfl, rfl⟩ := h₁₁.of_reads (hawait _)
  obtain ⟨rfl, rfl⟩ := h₁₃.of_reads (.ask rfl)
  obtain ⟨js₁₅, made, e₈, js₁₆, h₁₅, h₁₆, rfl⟩ := Plays.of_bind hrestart
  rcases plays_attempt h₁₅ with ⟨a, rfl, rfl, hans⟩ | ⟨err, rfl, rfl, hans⟩
  · obtain ⟨rfl, rfl, rfl⟩ := h₁₆.of_pure
    exact ⟨js₁, notAttached, _, .ok a, by simp, hattach, hans, rfl⟩
  · obtain ⟨rfl, rfl, rfl⟩ := h₁₆.of_pure
    exact ⟨js₁, notAttached, _, .error err, by simp, hattach, hans, rfl⟩

/-- The node that a text gives is the server that the text names. -/
theorem plays_getNode {server : NodeId} {node : Node}
    (h : Plays d (getNode server.text).run js (.ok node) d') :
    node.datacenter = server.datacenter ∧ d.server? server = some node.server := by
  unfold getNode at h
  rcases Plays.of_run_bind h with ⟨_, herr, -⟩ | ⟨js₁, id, e, js₂, hparse, h₂, -⟩
  · cases herr
  obtain ⟨-, hid, rfl⟩ := Plays.of_pure hparse
  obtain rfl : id = server := NodeId.eq_of_ofText?_text (NodeId.parse_eq_ok_iff.mp hid.symm)
  rcases Plays.of_run_bind h₂ with ⟨_, herr, -⟩ | ⟨js₃, found, e', js₄, hget, h₄, -⟩
  · cases herr
  obtain ⟨-, hans⟩ := hget.of_call
  cases hans with
  | applied happ =>
    obtain ⟨hfound, rfl⟩ := Prod.mk.inj happ
    cases found with
    | none =>
      obtain ⟨-, hok, -⟩ := Plays.of_pure h₄
      cases hok
    | some v =>
      obtain ⟨-, hok, -⟩ := Plays.of_pure h₄
      cases hok
      exact ⟨rfl, Except.ok.inj hfound⟩

/-! ## Creations that give a node -/

section Creations

variable {s : AdapterSettings} {name : String} {t : Template} {password : String} {draws : Draws}
  {bootSize : Nat} {sizes : List Nat} {region boot : String} {extra : List String}
  {notMade : List Skipped} {server : NodeId} {created : Created}

/-- What a creation has made, and where its addresses are. -/
structure Parts where
  region : String
  boot : String
  extra : List String
  server : NodeId
  block : String × List String
  nic : String

/-- The calls of a creation whose further volumes are attached as far as `attached` says. -/
def creationCalls (s : AdapterSettings) (name : String) (t : Template) (password : String)
    (p : Parts) (attached : List String) : List Call :=
  (t.hardware.volumesGb.zipIdx 1).map (fun v =>
      .createVolume t.datacenter (volumeRequest s t name password v.2 v.1)) ++
    [.createServer t.datacenter (serverRequest t name p.boot)] ++
    [.createIpBlock (ipBlockRequest name p.region),
      .createNic p.server (nicRequest s t name p.block.2)] ++
    (portRanges t.inboundPorts).map (fun range =>
      .createFirewallRule ⟨p.server, p.nic⟩ (ruleRequest name range)) ++
    p.extra.flatMap (attachCalls p.server attached) ++
    [.rebootServer p.server]

/-- The server that a creation leaves, with the volumes `attached` and the ports `opened`. -/
def serverLeft (s : AdapterSettings) (name : String) (t : Template) (busy : Bool) (p : Parts)
    (attached : List String) (opened : List (Nat × Nat)) : StoredServer where
  id := p.server
  name := name
  cores := t.hardware.cores
  ram := t.hardware.ramMb
  state := if busy = true ∧ attached ≠ [] then .busy else .available
  vmState := .running
  volumes := p.boot :: attached
  nics := [⟨p.nic, p.block.2, lanOf s t.networks, !(portRanges t.inboundPorts).isEmpty, opened⟩]

/-- The jobs of a creation account for the node that it gives, and for what the cloud `d` has
beside the resources of `c`. -/
structure Accounted (s : AdapterSettings) (name : String) (t : Template) (password : String)
    (c : MemoryCloud) (js : List Outcome) (created : Created) (d : MemoryCloud) (p : Parts) :
    Prop where
  /-- The calls come in this order. A volume is deleted if it was not attached. -/
  calls : js.map (·.call) = creationCalls s name t password p (js.filterMap Outcome.attached?)
  /-- Only calls have failed that a creation can go on without. -/
  critical : ∀ j ∈ js, j.call.criticalStage?.isSome → j.failed = false
  /-- All of its parts are in the datacenter of the template. -/
  datacenter : p.server.datacenter = t.datacenter
  /-- These volumes were made. -/
  made : (js.filterMap Outcome.volume?).map (·.id) = p.boot :: p.extra
  /-- Volumes are attached in the order in which they were made. -/
  attached : (js.filterMap Outcome.attached?).Sublist p.extra
  /-- Each failure is reported, in the order of the calls. -/
  skipped : created.skipped = js.filterMap Outcome.skipped?
  /-- The node is the server as the cloud tells it, in the template's datacenter. -/
  node : created.id = p.server.text ∧ created.node.datacenter = t.datacenter ∧
    d.server? p.server = some created.node.server
  /-- The node lists the volume that it starts from and those attached. -/
  nodeVolumes : created.node.server.volumes.map (·.id) = p.boot :: js.filterMap Outcome.attached?
  /-- The volumes made are there but for those deleted. -/
  volumes : d.volumes = c.volumes ++
    (js.filterMap Outcome.volume?).filter (·.id ∉ js.filterMap Outcome.deleted?)
  servers : d.servers = c.servers ++
    [serverLeft s name t c.busyAfterAttach p (js.filterMap Outcome.attached?)
      (js.filterMap Outcome.opened?)]
  ipBlocks : d.ipBlocks = c.ipBlocks ++ [p.block]

/-- Nothing is read off jobs none of whose calls says anything. -/
theorem filterMap_eq_nil_of_calls {β : Type} {f : Outcome → Option β}
    (h : ∀ call ∈ js.map (·.call), ∀ r, f ⟨call, r⟩ = none) : js.filterMap f = [] := by
  rw [List.filterMap_eq_nil_iff]
  exact fun j hj => h j.call (List.mem_map_of_mem hj) j.result

/-- No call has failed that a creation cannot go on without, if there is no such call. -/
theorem critical_of_calls (h : ∀ call ∈ js.map (·.call), call.criticalStage? = none) :
    ∀ j ∈ js, j.call.criticalStage?.isSome → j.failed = false := by
  intro j hj hstage
  rw [h j.call (List.mem_map_of_mem hj)] at hstage
  cases hstage

theorem VolumesMade.accounted
    (h : VolumesMade s name t password bootSize sizes c js boot extra notMade d) :
    js.map (·.call) = ((bootSize :: sizes).zipIdx 1).map (fun v =>
        .createVolume t.datacenter (volumeRequest s t name password v.2 v.1)) ∧
      (js.filterMap Outcome.volume?).map (·.id) = boot :: extra ∧
      notMade = js.filterMap Outcome.skipped? ∧
      Grown c (js.filterMap Outcome.volume?) [] [] d := by
  cases h with
  | mk hboot hextra =>
    obtain ⟨hcalls, hmade, g⟩ := accounted_createVolumes ((Grown.refl c).createVolume hboot) hextra
    obtain ⟨rfl, rfl⟩ := Prod.mk.inj hmade
    exact ⟨congrArg (List.cons _) hcalls, rfl, rfl, g⟩

theorem ServerMade.accounted
    (h : ServerMade s name t password bootSize sizes c js boot extra notMade server d) :
    js.map (·.call) = ((bootSize :: sizes).zipIdx 1).map (fun v =>
        .createVolume t.datacenter (volumeRequest s t name password v.2 v.1)) ++
        [.createServer t.datacenter (serverRequest t name boot)] ∧
      (js.filterMap Outcome.volume?).map (·.id) = boot :: extra ∧
      notMade = js.filterMap Outcome.skipped? ∧
      server.datacenter = t.datacenter ∧
      Grown c (js.filterMap Outcome.volume?)
        [MemoryCloud.serverFor t.datacenter server.server (serverRequest t name boot)] [] d := by
  cases h with
  | @mk js _ _ _ _ v _ hvolumes hserver =>
    obtain ⟨hcalls, hmade, rfl, g⟩ := hvolumes.accounted
    have hvolume : (js ++ [Outcome.mk (.createServer t.datacenter (serverRequest t name boot))
        (.ok v)]).filterMap Outcome.volume? = js.filterMap Outcome.volume? := by
      rw [List.filterMap_append]
      exact List.append_nil _
    rw [hvolume]
    refine ⟨by simp [hcalls], hmade, ?_, rfl, g.createServer hserver⟩
    rw [List.filterMap_append]
    exact (List.append_nil _).symm

/-- Before its network is made, a creation makes volumes and its server. -/
theorem ServerMade.call_cases {call : Call}
    (h : ServerMade s name t password bootSize sizes c js boot extra notMade server d)
    (hcall : call ∈ js.map (·.call)) :
    (∃ r, call = .createVolume t.datacenter r) ∨ ∃ r, call = .createServer t.datacenter r := by
  rw [h.accounted.1, List.mem_append, List.mem_map, List.mem_singleton] at hcall
  rcases hcall with ⟨v, -, rfl⟩ | rfl
  · exact .inl ⟨_, rfl⟩
  · exact .inr ⟨_, rfl⟩

theorem ServerMade.datacenter
    (h : ServerMade s name t password bootSize sizes c js boot extra notMade server d) :
    ∀ w ∈ js.filterMap Outcome.volume?, w.datacenter = t.datacenter := by
  intro w hw
  obtain ⟨⟨call, r⟩, hj, hmade⟩ := List.mem_filterMap.mp hw
  rcases h.call_cases (List.mem_map_of_mem (f := (·.call)) hj) with ⟨_, rfl⟩ | ⟨_, rfl⟩
  · cases r with
    | ok a =>
      cases hmade
      rfl
    | error e => cases hmade
  · cases hmade

/-- The volumes that were made are those that a creation goes on with. -/
theorem ServerMade.exists_volume
    (h : ServerMade s name t password bootSize sizes c js boot extra notMade server d) :
    ∀ v ∈ boot :: extra,
      ∃ w ∈ js.filterMap Outcome.volume?, w.id = v ∧ w.datacenter = t.datacenter := by
  intro v hv
  obtain ⟨-, hmade, -⟩ := h.accounted
  rw [← hmade] at hv
  obtain ⟨w, hw, rfl⟩ := List.mem_map.mp hv
  exact ⟨w, hw, rfl, h.datacenter w hw⟩

theorem ServerMade.readings
    (h : ServerMade s name t password bootSize sizes c js boot extra notMade server d) :
    js.filterMap Outcome.opened? = [] ∧ js.filterMap Outcome.attached? = [] ∧
      js.filterMap Outcome.deleted? = [] := by
  refine ⟨filterMap_eq_nil_of_calls ?_, filterMap_eq_nil_of_calls ?_,
    filterMap_eq_nil_of_calls ?_⟩ <;> intro call hcall r <;>
    rcases h.call_cases hcall with ⟨_, rfl⟩ | ⟨_, rfl⟩ <;> rfl

theorem NetworkRun.accounted {volumes : List String} {notOpened : List Skipped}
    (hc : c.IdsIssued) (hbare : srv.nics = []) (g : Grown c vs [srv] [] d)
    (h : NetworkRun s name t region srv.id volumes d js (.ok notOpened) d') :
    ∃ block : String × List String, ∃ nic,
      js.map (·.call) = [.createIpBlock (ipBlockRequest name region),
          .createNic srv.id (nicRequest s t name block.2)] ++
        (portRanges t.inboundPorts).map (fun range =>
          .createFirewallRule ⟨srv.id, nic⟩ (ruleRequest name range)) ∧
      notOpened = js.filterMap Outcome.skipped? ∧
      (∀ j ∈ js, j.call.criticalStage?.isSome → j.failed = false) ∧
      Grown c vs [{ srv with nics := [{ MemoryCloud.nicFor nic (nicRequest s t name block.2) with
        rules := js.filterMap Outcome.opened? }] }] [block] d' := by
  cases h with
  | @made block _ nic _ js _ _ hblock hnic hrules =>
    have g' := (g.createIpBlock hblock).createNic hc hnic
    rw [hbare] at g'
    obtain ⟨hcalls, rfl, g''⟩ := accounted_createRules hc g' hrules
    have hrules : ∀ j ∈ js, j.call.criticalStage?.isSome → j.failed = false := by
      refine critical_of_calls fun call hcall => ?_
      rw [hcalls] at hcall
      obtain ⟨range, -, rfl⟩ := List.mem_map.mp hcall
      rfl
    refine ⟨(block.id, block.properties.ips), nic.id, ?_, rfl, ?_, g''⟩
    · exact congrArg (List.cons _) (congrArg (List.cons _) hcalls)
    · rw [List.forall_mem_cons, List.forall_mem_cons]
      exact ⟨fun _ => rfl, fun _ => rfl, hrules⟩

/-- A creation that makes its network neither makes nor attaches nor deletes a volume by that. -/
theorem network_readings {block : IpBlockRequest} {r : NicRequest} {nic : NicRef}
    {rule : Nat × Nat → FirewallRuleRequest} {ranges : List (Nat × Nat)}
    (hcalls : js.map (·.call) = [.createIpBlock block, .createNic server r] ++
      ranges.map (fun range => .createFirewallRule nic (rule range))) :
    js.filterMap Outcome.volume? = [] ∧ js.filterMap Outcome.attached? = [] ∧
      js.filterMap Outcome.deleted? = [] := by
  have hkind : ∀ call ∈ js.map (·.call), (∃ b, call = .createIpBlock b) ∨
      (∃ n r, call = .createNic n r) ∨ ∃ n r, call = .createFirewallRule n r := by
    intro call hcall
    rw [hcalls, List.mem_append, List.mem_pair, List.mem_map] at hcall
    rcases hcall with (rfl | rfl) | ⟨range, -, rfl⟩
    · exact .inl ⟨_, rfl⟩
    · exact .inr (.inl ⟨_, _, rfl⟩)
    · exact .inr (.inr ⟨_, _, rfl⟩)
  refine ⟨filterMap_eq_nil_of_calls ?_, filterMap_eq_nil_of_calls ?_,
    filterMap_eq_nil_of_calls ?_⟩ <;> intro call hcall r <;>
    rcases hkind call hcall with ⟨_, rfl⟩ | ⟨_, _, rfl⟩ | ⟨_, _, rfl⟩ <;> rfl

/-- The end of a creation neither makes a volume nor opens a port. -/
theorem settle_readings {attached : List String}
    (hcalls : js.map (·.call) =
      extra.flatMap (attachCalls server attached) ++ [.rebootServer server]) :
    js.filterMap Outcome.volume? = [] ∧ js.filterMap Outcome.opened? = [] ∧
      ∀ j ∈ js, j.call.criticalStage?.isSome → j.failed = false := by
  have hkind : ∀ call ∈ js.map (·.call), (∃ n v, call = .attachVolume n v) ∨
      (∃ v, call = .deleteVolume v) ∨ ∃ n, call = .rebootServer n := by
    intro call hcall
    rw [hcalls, List.mem_append, List.mem_flatMap, List.mem_singleton] at hcall
    rcases hcall with ⟨v, -, hcall⟩ | rfl
    · rcases List.mem_cons.mp hcall with rfl | hcall
      · exact .inl ⟨_, _, rfl⟩
      · split_ifs at hcall
        · cases hcall
        · exact .inr (.inl ⟨_, List.mem_singleton.mp hcall⟩)
    · exact .inr (.inr ⟨_, rfl⟩)
  refine ⟨filterMap_eq_nil_of_calls ?_, filterMap_eq_nil_of_calls ?_, critical_of_calls ?_⟩ <;>
    intro call hcall <;>
    rcases hkind call hcall with ⟨_, _, rfl⟩ | ⟨_, rfl⟩ | ⟨_, rfl⟩ <;> intros <;> rfl

/-- The further volumes are attached as far as this does not fail, and the server is restarted. -/
theorem accounted_settle {notSettled : List Skipped} (hc : c.IdsIssued) (hlist : c.ListsExisting)
    (hrunning : srv.vmState = .running) (g : Grown c vs [srv] bs d) (hnodup : extra.Nodup)
    (hnew : ∀ v ∈ extra, v ∉ srv.volumes ∧
      ∃ w ∈ vs, w.id = v ∧ w.datacenter = srv.id.datacenter)
    (h : Plays d (settle s srv.id extra) js notSettled d') :
    js.map (·.call) = extra.flatMap (attachCalls srv.id (js.filterMap Outcome.attached?)) ++
        [.rebootServer srv.id] ∧
      notSettled = js.filterMap Outcome.skipped? ∧
      (js.filterMap Outcome.attached?).Sublist extra ∧
      (∀ v ∈ js.filterMap Outcome.deleted?, v ∈ extra ∧ v ∉ js.filterMap Outcome.attached?) ∧
      Grown c (vs.filter (·.id ∉ js.filterMap Outcome.deleted?))
        [MemoryCloud.attached c.busyAfterAttach (js.filterMap Outcome.attached?) srv] bs d' := by
  obtain ⟨js', notAttached, e, r, rfl, hattach, hreboot, rfl⟩ := plays_settle h
  obtain ⟨hcalls, rfl, hsub, hdeleted, g'⟩ :=
    plays_attachVolumes hc hlist g hnodup hnew hattach
  have hattached : (js' ++ [Outcome.mk (.rebootServer srv.id) r]).filterMap Outcome.attached? =
      js'.filterMap Outcome.attached? := by
    rw [List.filterMap_append]
    exact List.append_nil _
  have hgone : (js' ++ [Outcome.mk (.rebootServer srv.id) r]).filterMap Outcome.deleted? =
      js'.filterMap Outcome.deleted? := by
    rw [List.filterMap_append]
    exact List.append_nil _
  rw [hattached, hgone]
  exact ⟨by simp [hcalls], List.filterMap_append.symm, hsub, hdeleted,
    g'.rebootServer hc hrunning hreboot⟩

/-- What a server lists is there, for no volume is deleted that is attached. -/
theorem exists_listed {dc : String} {attached deleted : List String} (hboot : boot ∉ extra)
    (hsub : attached.Sublist extra) (hdeleted : ∀ v ∈ deleted, v ∈ extra ∧ v ∉ attached)
    (hthere : ∀ v ∈ boot :: extra, ∃ w ∈ vs, w.id = v ∧ w.datacenter = dc) :
    ∀ v ∈ boot :: attached,
      ∃ w ∈ vs.filter (·.id ∉ deleted), w.id = v ∧ w.datacenter = dc := by
  intro v hv
  obtain ⟨w, hw, rfl, hdc⟩ := hthere v (List.cons_subset_cons _ hsub.subset hv)
  refine ⟨w, List.mem_filter.mpr ⟨hw, decide_eq_true fun hdel => ?_⟩, rfl, hdc⟩
  obtain ⟨hmem, hnot⟩ := hdeleted _ hdel
  rcases List.mem_cons.mp hv with heq | hv
  · exact hboot (heq ▸ hmem)
  · exact hnot hv

theorem CreationRun.accounted (hc : c.IdsIssued) (hlist : c.ListsExisting)
    (hsizes : t.hardware.volumesGb = bootSize :: sizes)
    (h : CreationRun s name t draws bootSize sizes region c js (.ok created) d) :
    ∃ p, Accounted s name t (t.credentials draws).password c js created d p := by
  cases h with
  | @done js₁ boot extra _ server _ js₂ _ _ js₃ _ node _ hserver hnetwork hsettle hnode =>
  obtain ⟨_, _, hprogress, -⟩ := hserver.progress
  obtain ⟨hcalls₁, hmade, rfl, hdc, g₁⟩ := hserver.accounted
  obtain ⟨dc, id⟩ := server
  obtain rfl : dc = t.datacenter := hdc
  obtain ⟨block, nic, hcalls₂, rfl, hcritical₂, g₂⟩ := hnetwork.accounted hc rfl g₁
  have hnodup : (boot :: extra).Nodup := hmade ▸ g₁.nodupVolumes
  obtain ⟨hboot, hextra⟩ := List.nodup_cons.mp hnodup
  have hthere := hserver.exists_volume
  have hnew : ∀ v ∈ extra, v ∉ [boot] ∧ ∃ w ∈ js₁.filterMap Outcome.volume?,
      w.id = v ∧ w.datacenter = t.datacenter := fun v hv =>
    ⟨fun heq => hboot (List.mem_singleton.mp heq ▸ hv), hthere v (List.mem_cons_of_mem _ hv)⟩
  obtain ⟨hcalls₃, rfl, hsub, hdeleted, g₃⟩ := accounted_settle hc hlist rfl g₂ hextra hnew hsettle
  let p : Parts := ⟨region, boot, extra, ⟨t.datacenter, id⟩, block, nic⟩
  have g : Grown c _ [serverLeft s name t c.busyAfterAttach p (js₃.filterMap Outcome.attached?)
      (js₂.filterMap Outcome.opened?)] [p.block] d := g₃
  obtain ⟨hdc, hnode⟩ := plays_getNode hnode
  obtain ⟨htold, hids⟩ := g.server?_new hc (exists_listed hboot hsub hdeleted hthere)
  have hnode' := Option.some.inj (htold.symm.trans hnode)
  obtain ⟨hopened₁, hattached₁, hdeleted₁⟩ := hserver.readings
  obtain ⟨hmade₂, hattached₂, hdeleted₂⟩ := network_readings hcalls₂
  obtain ⟨hmade₃, hopened₃, hcritical₃⟩ := settle_readings hcalls₃
  have hmade' : (js₁ ++ js₂ ++ js₃).filterMap Outcome.volume? = js₁.filterMap Outcome.volume? := by
    simp [List.filterMap_append, hmade₂, hmade₃]
  have hopened : (js₁ ++ js₂ ++ js₃).filterMap Outcome.opened? = js₂.filterMap Outcome.opened? := by
    simp only [List.filterMap_append, hopened₁, hopened₃, List.nil_append, List.append_nil]
  have hattached : (js₁ ++ js₂ ++ js₃).filterMap Outcome.attached? =
      js₃.filterMap Outcome.attached? := by
    simp only [List.filterMap_append, hattached₁, hattached₂, List.nil_append]
  have hgone : (js₁ ++ js₂ ++ js₃).filterMap Outcome.deleted? =
      js₃.filterMap Outcome.deleted? := by
    simp only [List.filterMap_append, hdeleted₁, hdeleted₂, List.nil_append]
  refine ⟨p, ?_⟩
  constructor
  case calls =>
    rw [hattached, List.map_append, List.map_append, hcalls₁, hcalls₂, hcalls₃, creationCalls,
      hsizes]
    simp only [List.append_assoc]
    rfl
  case critical =>
    intro j hj
    rcases List.mem_append.mp hj with hj | hj
    · rcases List.mem_append.mp hj with hj | hj
      · exact hprogress.critical j hj
      · exact hcritical₂ j hj
    · exact hcritical₃ j hj
  case datacenter => rfl
  case made => rw [hmade', hmade]
  case attached => rwa [hattached]
  case skipped => simp only [List.filterMap_append]
  case node => exact ⟨rfl, hdc, hnode⟩
  case nodeVolumes => rw [hattached, ← hnode', hids]; rfl
  case volumes => rw [hmade', hgone, g.volumes]
  case servers => rw [hattached, hopened, g.servers]
  case ipBlocks => exact g.ipBlocks

/-- A creation that gives a node accounts for all of it. If it goes on alone, then its changes are
the calls of its jobs in their order, and these jobs account for the node, for the failures that it
reports, and for what the cloud holds in the end. -/
theorem create_accounted {w w' : World} (hc : w.backend.cloud.Reachable)
    (hlist : w.backend.cloud.ListsExisting) (hrules : w.backend.rules = [])
    (hidle : w.queue.IsIdle) (hopen : w.queue.closed = false)
    (h : w.run (create s name t draws).run = (.ok created, w')) :
    w'.backend.changes =
        w.backend.changes ++ (w.jobs (create s name t draws).run).map (·.call) ∧
      ∃ p, Accounted s name t (t.credentials draws).password w.backend.cloud
        (w.jobs (create s name t draws).run) created w'.backend.cloud p := by
  have hplays := World.plays hrules (create s name t draws).run
  obtain ⟨hchanges, -⟩ := World.run_orderly hidle hopen (create_orderly s name t draws)
  rw [h] at hplays hchanges
  refine ⟨hchanges, ?_⟩
  rcases plays_create hplays with ⟨e, herr, -⟩ | ⟨bootSize, sizes, region, hsizes, hrun⟩
  · cases herr
  obtain ⟨p, hp⟩ :=
    hrun.accounted (MemoryCloud.idsIssued_content.mpr hc.idsIssued) hlist hsizes
  exact ⟨p, { hp with }⟩

/-- A port is not opened, and of two further volumes one is not attached and cannot be deleted. -/
theorem create_accounted_volume_left :
    let w : World := { backend := { cloud := { failures :=
      [("attach_volume", 1), ("delete_volume", 1), ("create_firewall_rule", 1)] } } }
    let t : Template :=
      { datacenter := "dc-1", region := some "de/fra", image := "img-1", password := some "secret"
        inboundPorts := [22], hardware := ⟨1, 1024, [10, 20, 30]⟩ }
    let x := (create {} "n" t fun _ => 0).run
    let notOpened := "backend error: injected failure: create_firewall_rule #1"
    let notAttached := "backend error: injected failure: attach_volume #1"
    ∃ created, (w.run x).1 = .ok created ∧
      created.skipped =
        [⟨.createFirewallRule, some "nic-6", notOpened⟩,
          ⟨.attachVolume, some "vol-2", notAttached⟩] ∧
      ∃ p, Accounted {} "n" t "secret" w.backend.cloud (w.jobs x) created (w.run x).2.backend.cloud
        p := by
  intro w t x notOpened notAttached
  have hskipped : (w.run x).1.map (·.skipped) = .ok
      [⟨.createFirewallRule, some "nic-6", notOpened⟩,
        ⟨.attachVolume, some "vol-2", notAttached⟩] := by decide +kernel
  have hreach : w.backend.cloud.Reachable :=
    .seed (.seed (.seed .empty (.failure "attach_volume" 1)) (.failure "delete_volume" 1))
      (.failure "create_firewall_rule" 1)
  cases hok : (w.run x).1 with
  | error e =>
    rw [hok] at hskipped
    cases hskipped
  | ok created =>
    rw [hok] at hskipped
    have hrun : w.run x = (.ok created, (w.run x).2) := by rw [← hok]
    obtain ⟨-, haccounted⟩ := create_accounted hreach (by simp [w, MemoryCloud.ListsExisting]) rfl
      JobQueue.isIdle_empty rfl hrun
    exact ⟨created, rfl, Except.ok.inj hskipped, haccounted⟩

end Creations

end Lifecycle

end ComputePlane
