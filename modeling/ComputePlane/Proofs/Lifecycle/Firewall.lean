import ComputePlane.Proofs.Lifecycle.Accounts
import ComputePlane.Proofs.Lifecycle.Ports
import ComputePlane.Proofs.World.Closed

/-!
# The firewall of a new node

A creation asks for one rule for each range that the ports of its template make up, and goes on if
that fails. So the rules of the node that it gives open the ports of the template but for those in
the ranges that were refused, and each refusal is reported (`create_firewalled`). What comes after
the rules leaves every network interface as it is (`SameNics`).
-/

namespace ComputePlane

def Call.isFirewallRule : Call → Bool
  | createFirewallRule .. => true
  | _ => false

/-- A call that leaves all network interfaces as they are. -/
def Call.keepsNics : Call → Bool
  | createServer .. => false
  | deleteServer _ => false
  | createNic .. => false
  | createFirewallRule .. => false
  | _ => true

theorem Call.isFirewallRule_of_keepsNics {call : Call} (h : call.keepsNics = true) :
    call.isFirewallRule = false := by
  cases call <;> first | rfl | cases h

/-- The range of ports that a job should have opened, and why it has not. -/
def Program.Outcome.refused? : Outcome → Option ((Nat × Nat) × Error)
  | ⟨.createFirewallRule _ r, .error e⟩ => some ((r.portRangeStart, r.portRangeEnd), e)
  | _ => none

open Program

/-! ## Calls that keep network interfaces -/

namespace MemoryCloud

variable {c d : MemoryCloud} {call : Call} {r : call.Result}

/-- The same servers are there with the same network interfaces. -/
def SameNics (c d : MemoryCloud) : Prop :=
  ∃ f : StoredServer → StoredServer, (∀ r, (f r).id = r.id ∧ (f r).nics = r.nics) ∧
    d.servers = c.servers.map f

theorem SameNics.of_servers (h : d.servers = c.servers) : SameNics c d :=
  ⟨id, fun _ => ⟨rfl, rfl⟩, by rw [h, List.map_id]⟩

theorem SameNics.nics_eq (h : SameNics c d) (id : NodeId) :
    (d.stored? id).map (·.nics) = (c.stored? id).map (·.nics) := by
  obtain ⟨f, hf, hservers⟩ := h
  rw [stored?_map (fun r => (hf r).1) hservers, Option.map_map]
  exact congrArg (Option.map · _) (funext fun r => (hf r).2)

theorem sameNics_changeServer (c : MemoryCloud) (id : NodeId) {f : StoredServer → StoredServer}
    (hf : ∀ r, (f r).id = r.id ∧ (f r).nics = r.nics) : SameNics c (c.changeServer id f).2 := by
  unfold changeServer
  split
  · refine ⟨fun r => if r.id = id then f r else r, fun r => ?_, rfl⟩
    dsimp only
    split
    · exact hf r
    · exact ⟨rfl, rfl⟩
  · exact .of_servers rfl

theorem Answers.sameNics (h : Answers c call r d) (hkeeps : call.keepsNics = true) :
    SameNics c d := by
  cases h with
  | failed => exact .of_servers rfl
  | applied happ =>
    obtain rfl : (c.apply call).2 = d := congrArg Prod.snd happ
    cases call with
    | deleteVolume v =>
      exact ⟨fun s => { s with volumes := s.volumes.filter (· ≠ v.volume) },
        fun _ => ⟨rfl, rfl⟩, rfl⟩
    | attachVolume | rebootServer | startServer | stopServer =>
      exact sameNics_changeServer c _ fun _ => ⟨rfl, rfl⟩
    | createServer | deleteServer | createNic | createFirewallRule => cases hkeeps
    | _ => exact .of_servers rfl

end MemoryCloud

namespace Lifecycle

open MemoryCloud World

variable {s : AdapterSettings} {name : String} {t : Template} {draws : Draws} {bootSize : Nat}
  {sizes : List Nat} {region : String} {created : Created} {c d : MemoryCloud}
  {js : List Outcome} {nic : NicRef} {server : NodeId} {extra : List String}
  {ranges : List (Nat × Nat)}

/-! ## Ranges that are opened or refused -/

/-- What is reported of a range that was refused. -/
def notOpened (nic : NicRef) (refused : (Nat × Nat) × Error) : Skipped :=
  ⟨.createFirewallRule, some nic.nic, refused.2.message⟩

/-- Each range is opened, or it is refused and that is reported. -/
theorem opened_or_refused (h : js.map (·.call) =
      ranges.map fun range => .createFirewallRule nic (ruleRequest name range)) :
    (js.filterMap Outcome.opened? ++ (js.filterMap Outcome.refused?).map (·.1)).Perm ranges ∧
      js.filterMap Outcome.skipped? = (js.filterMap Outcome.refused?).map (notOpened nic) := by
  induction ranges generalizing js with
  | nil =>
    obtain rfl := List.map_eq_nil_iff.mp h
    exact ⟨.nil, rfl⟩
  | cons range ranges ih =>
    obtain ⟨⟨call, result⟩, js, rfl, hcall, hrest⟩ := List.map_eq_cons_iff.mp h
    obtain ⟨hperm, hskipped⟩ := ih hrest
    cases hcall
    cases result with
    | ok a => exact ⟨hperm.cons range, hskipped⟩
    | error e => exact ⟨List.perm_middle.trans (hperm.cons range), congrArg (List.cons _) hskipped⟩

/-- Nothing about rules is read off a job that is for none. -/
theorem no_rule {j : Outcome} (h : j.call.isFirewallRule = false) :
    j.opened? = none ∧ j.refused? = none ∧
      ∀ k, j.skipped? = some k → k.stage ≠ .createFirewallRule := by
  obtain ⟨call, result⟩ := j
  cases call with
  | createFirewallRule => cases h
  | createVolume | attachVolume | rebootServer =>
    refine ⟨rfl, rfl, fun k hk => ?_⟩
    cases result <;> cases hk
    simp
  | _ =>
    refine ⟨rfl, rfl, fun k hk => ?_⟩
    cases hk

theorem no_rules (h : ∀ j ∈ js, j.call.isFirewallRule = false) :
    js.filterMap Outcome.opened? = [] ∧ js.filterMap Outcome.refused? = [] ∧
      (js.filterMap Outcome.skipped?).filter (·.stage = .createFirewallRule) = [] ∧
      (js.map (·.call)).filter Call.isFirewallRule = [] := by
  refine ⟨List.filterMap_eq_nil_iff.mpr fun j hj => (no_rule (h j hj)).1,
    List.filterMap_eq_nil_iff.mpr fun j hj => (no_rule (h j hj)).2.1,
    List.filter_eq_nil_iff.mpr fun k hk => ?_, List.filter_eq_nil_iff.mpr fun call hcall => ?_⟩
  · obtain ⟨j, hj, hk⟩ := List.mem_filterMap.mp hk
    simpa using (no_rule (h j hj)).2.2 k hk
  · obtain ⟨j, hj, rfl⟩ := List.mem_map.mp hcall
    simp [h j hj]

/-- The jobs that are for rules come between others. -/
theorem rules_between {before rules after : List Outcome}
    (hbefore : ∀ j ∈ before, j.call.isFirewallRule = false)
    (hrules : rules.map (·.call) =
      ranges.map fun range => .createFirewallRule nic (ruleRequest name range))
    (hafter : ∀ j ∈ after, j.call.isFirewallRule = false) (hjs : js = before ++ rules ++ after) :
    (js.map (·.call)).filter Call.isFirewallRule =
        ranges.map (fun range => .createFirewallRule nic (ruleRequest name range)) ∧
      (js.filterMap Outcome.opened? ++ (js.filterMap Outcome.refused?).map (·.1)).Perm ranges ∧
      (js.filterMap Outcome.skipped?).filter (·.stage = .createFirewallRule) =
        (js.filterMap Outcome.refused?).map (notOpened nic) := by
  obtain ⟨hopened₁, hrefused₁, hskipped₁, hcalls₁⟩ := no_rules hbefore
  obtain ⟨hopened₂, hrefused₂, hskipped₂, hcalls₂⟩ := no_rules hafter
  obtain ⟨hperm, hskipped⟩ := opened_or_refused hrules
  simp only [hjs, List.filterMap_append, List.map_append, List.filter_append, hopened₁, hopened₂,
    hrefused₁, hrefused₂, hskipped₁, hskipped₂, hcalls₁, hcalls₂, List.nil_append, List.append_nil,
    hrules, hskipped]
  refine ⟨List.filter_eq_self.mpr fun call hcall => ?_, hperm,
    List.filter_eq_self.mpr fun k hk => ?_⟩
  · obtain ⟨range, -, rfl⟩ := List.mem_map.mp hcall
    rfl
  · obtain ⟨refused, -, rfl⟩ := List.mem_map.mp hk
    rfl

/-- Of the ranges of some ports, a part covers the ports that the rest does not cover. -/
theorem RangesOf.part {ports : List Nat} {part rest : List (Nat × Nat)} (h : RangesOf ports ranges)
    (hperm : (part ++ rest).Perm ranges) (port : Nat) :
    part.countP (Covers · port) ≤ 1 ∧
      (CoveredBy part port ↔ port ∈ ports ∧ ¬CoveredBy rest port) := by
  have honce := h.spaced.countP_le_one port
  have hcount := hperm.countP_eq (Covers · port)
  rw [List.countP_append] at hcount
  rw [← h.covers, coveredBy_iff_countP, coveredBy_iff_countP, coveredBy_iff_countP]
  omega

/-! ## The steps of a creation -/

theorem ServerMade.isFirewallRule_eq_false {password boot : String} {notMade : List Skipped}
    (h : ServerMade s name t password bootSize sizes c js boot extra notMade server d) :
    ∀ j ∈ js, j.call.isFirewallRule = false := by
  intro j hj
  rcases h.call_cases (List.mem_map_of_mem (f := (·.call)) hj) with ⟨r, hr⟩ | ⟨r, hr⟩ <;>
    rw [hr] <;> rfl

/-- The network of a new server is one interface, made before the rules for it. -/
theorem NetworkRun.firewall {srv : StoredServer} {vs : List StoredVolume} {volumes : List String}
    {skipped : List Skipped} (hc : c.IdsIssued) (hbare : srv.nics = []) {e : MemoryCloud}
    (g : Grown c vs [srv] [] d)
    (h : NetworkRun s name t region srv.id volumes d js (.ok skipped) e) :
    ∃ nic before rules, (e.stored? srv.id).map (·.nics) = some [nic] ∧
      nic.firewallActive = !(portRanges t.inboundPorts).isEmpty ∧
      nic.rules = js.filterMap Outcome.opened? ∧ skipped = js.filterMap Outcome.skipped? ∧
      js = before ++ rules ∧ (∀ j ∈ before, j.call.isFirewallRule = false) ∧
      rules.map (·.call) = (portRanges t.inboundPorts).map fun range =>
        .createFirewallRule ⟨srv.id, nic.id⟩ (ruleRequest name range) := by
  obtain ⟨block, nic, hcalls, hskipped, -, g'⟩ := h.accounted hc hbare g
  obtain ⟨before, rules, rfl, hbefore, hrules⟩ := List.map_eq_append_iff.mp hcalls
  refine ⟨{ nicFor nic (nicRequest s t name block.2) with rules := _ }, before, rules,
    congrArg (Option.map _) (g'.stored?_new hc), rfl, rfl, hskipped, rfl, fun j hj => ?_, hrules⟩
  have hcall : j.call ∈ before.map (·.call) := List.mem_map_of_mem hj
  rw [hbefore, List.mem_pair] at hcall
  rcases hcall with hcall | hcall <;> rw [hcall] <;> rfl

theorem settle_keepsNics (s : AdapterSettings) (server : NodeId) (extra : List String) :
    (settle s server extra).AsksOnly fun r => (call? r).all Call.keepsNics = true := by
  have hread : ∀ c : Call, c.isChange = false → c.keepsNics = true := fun c hc => by
    cases c <;> first | rfl | cases hc
  exact settle_asksOnly (fun _ => all_call?_of_isRead hread) s extra (fun _ => rfl)
    (fun _ => rfl) rfl

theorem skipped_of_attachVolumes {volumes : List String} {notAttached : List Skipped}
    (h : Plays c (attachVolumes server volumes) js notAttached d) :
    notAttached = js.filterMap Outcome.skipped? := by
  induction volumes generalizing c js notAttached with
  | nil =>
    obtain ⟨rfl, rfl, rfl⟩ := h.of_pure
    rfl
  | cons volume volumes ih =>
    obtain ⟨js₁, r, e, js₂, h₁, h₂, rfl⟩ := Plays.of_bind h
    rcases plays_attempt h₁ with ⟨a, rfl, rfl, -⟩ | ⟨err, rfl, rfl, -⟩
    · have hrest : notAttached = js₂.filterMap Outcome.skipped? := ih h₂
      exact hrest
    · obtain ⟨js₃, u, e', js₄, h₃, h₄, rfl⟩ := Plays.of_bind h₂
      obtain ⟨js₅, rest, e'', js₆, h₅, h₆, rfl⟩ := Plays.of_bind h₄
      obtain ⟨rfl, rfl, rfl⟩ := h₆.of_pure
      obtain ⟨r, rfl, -⟩ := plays_bestEffort h₃
      rw [ih h₅, List.append_nil]
      rfl

/-- The end of a creation keeps all network interfaces, and reports nothing of rules. -/
theorem firewall_settle {notSettled : List Skipped}
    (h : Plays c (settle s server extra) js notSettled d) (id : NodeId) :
    (d.stored? id).map (·.nics) = (c.stored? id).map (·.nics) ∧
      (∀ j ∈ js, j.call.isFirewallRule = false) ∧ notSettled = js.filterMap Outcome.skipped? := by
  have hasks := settle_keepsNics s server extra
  refine ⟨h.obs_eq (fun hkeeps hans => (hans.sameNics hkeeps).nics_eq id) hasks,
    fun j hj => Call.isFirewallRule_of_keepsNics (h.forall_jobs hasks j hj), ?_⟩
  obtain ⟨js', notAttached, e, r, rfl, hattach, -, rfl⟩ := plays_settle h
  rw [skipped_of_attachVolumes hattach, List.filterMap_append]

/-! ## The firewall -/

theorem portRanges_eq_nil_iff {ports : List Nat} : portRanges ports = [] ↔ ports = [] := by
  have hranges := rangesOf_portRanges ports
  rw [List.eq_nil_iff_forall_not_mem, List.eq_nil_iff_forall_not_mem]
  constructor
  · intro hnone port hport
    obtain ⟨range, hrange, -⟩ := (hranges.covers port).mpr hport
    exact hnone range hrange
  · intro hnone range hrange
    have hle := hranges.spaced.nonempty range hrange
    exact hnone range.1 ((hranges.covers range.1).mp ⟨range, hrange, le_rfl, hle⟩)

/-- The jobs `js` have given the new server of a node a firewall that opens the ports of its
template but for the ranges that were refused. -/
structure Firewalled (name : String) (t : Template) (js : List Outcome) (created : Created)
    (c d : MemoryCloud) (server : NodeId) (nic : StoredNic) : Prop where
  /-- The server is none of those that were there before. -/
  node : created.id = server.text ∧ ∀ r ∈ c.servers, r.id ≠ server
  nics : (d.stored? server).map (·.nics) = some [nic]
  active : nic.firewallActive = true ↔ t.inboundPorts ≠ []
  /-- One rule is asked for each range. -/
  asked : (js.map (·.call)).filter Call.isFirewallRule =
    (portRanges t.inboundPorts).map fun range =>
      .createFirewallRule ⟨server, nic.id⟩ (ruleRequest name range)
  /-- Each range is opened or refused. -/
  ranges : (nic.rules ++ (js.filterMap Outcome.refused?).map (·.1)).Perm (portRanges t.inboundPorts)
  once : ∀ port, nic.rules.countP (Covers · port) ≤ 1
  opened : ∀ port, CoveredBy nic.rules port ↔
    port ∈ t.inboundPorts ∧ ¬CoveredBy ((js.filterMap Outcome.refused?).map (·.1)) port
  reported : created.skipped.filter (·.stage = .createFirewallRule) =
    (js.filterMap Outcome.refused?).map (notOpened ⟨server, nic.id⟩)

theorem CreationRun.firewalled (hc : c.IdsIssued)
    (h : CreationRun s name t draws bootSize sizes region c js (.ok created) d) :
    ∃ server nic, Firewalled name t js created c d server nic := by
  cases h with
  | @done js₁ _ _ _ server _ js₂ _ _ js₃ _ _ _ hserver hnetwork hsettle =>
  have hmade := hserver.isFirewallRule_eq_false
  obtain ⟨-, -, rfl, hdc, g⟩ := hserver.accounted
  obtain ⟨dc, id⟩ := server
  obtain rfl : dc = t.datacenter := hdc
  have hnew : ∀ r ∈ c.servers, r.id ≠ ⟨t.datacenter, id⟩ := g.server_ne hc List.mem_cons_self
  obtain ⟨nic, before, rules, hnics, hactive, hopened, rfl, rfl, hbefore, hrules⟩ :=
    hnetwork.firewall hc rfl g
  obtain ⟨hkept, hafter, rfl⟩ := firewall_settle hsettle ⟨t.datacenter, id⟩
  obtain ⟨hasked, hperm, hreported⟩ :=
    rules_between (List.forall_mem_append.mpr ⟨hmade, hbefore⟩) hrules hafter rfl
  rw [List.append_assoc js₁] at hasked hperm hreported
  have hall : (js₁ ++ (before ++ rules) ++ js₃).filterMap Outcome.opened? = nic.rules := by
    rw [hopened, List.filterMap_append, List.filterMap_append, (no_rules hmade).1,
      (no_rules hafter).1, List.nil_append, List.append_nil]
  rw [hall] at hperm
  have hpart := (rangesOf_portRanges t.inboundPorts).part hperm
  refine ⟨⟨t.datacenter, id⟩, nic, ?_⟩
  constructor
  case node => exact ⟨rfl, hnew⟩
  case nics => exact hkept.trans hnics
  case active => simp [hactive, portRanges_eq_nil_iff]
  case asked => exact hasked
  case ranges => exact hperm
  case once => exact fun port => (hpart port).1
  case opened => exact fun port => (hpart port).2
  case reported =>
    refine Eq.trans ?_ hreported
    simp only [List.filterMap_append]

/-- A creation that gives a node and goes on alone makes the calls of its jobs, and these have given
a new server a firewall that opens the ports that were asked for and no others, but for the ranges
that were refused and are reported. -/
theorem create_firewalled {w w' : World} (hc : w.backend.cloud.Reachable)
    (hrules : w.backend.rules = []) (hidle : w.queue.IsIdle)
    (h : w.run (create s name t draws).run = (.ok created, w')) :
    w'.backend.changes =
        w.backend.changes ++ (w.jobs (create s name t draws).run).map (·.call) ∧
      ∃ server nic, Firewalled name t (w.jobs (create s name t draws).run) created
        w.backend.cloud w'.backend.cloud server nic := by
  have hplays := World.plays hrules (create s name t draws).run
  have horderly := create_orderly s name t draws
  rw [h] at hplays
  rcases plays_create hplays with ⟨e, herr, -⟩ | ⟨bootSize, sizes, region, -, hrun⟩
  · cases herr
  obtain ⟨server, nic, hfirewalled⟩ :=
    hrun.firewalled (MemoryCloud.idsIssued_content.mpr hc.idsIssued)
  -- closed queues would have kept the new server from being made
  have hopen : w.queue.closed = false := by
    by_contra hclosed
    obtain ⟨hread, -⟩ := onlyRead_run_of_closed (by simpa using hclosed) horderly
    rw [h] at hread
    have hnics : (w'.backend.cloud.content.stored? server).map (·.nics) = some [nic] :=
      hfirewalled.nics
    rw [hread.content] at hnics
    obtain ⟨r, hr, -⟩ := Option.map_eq_some_iff.mp hnics
    obtain ⟨hmem, hid⟩ := MemoryCloud.of_stored? hr
    exact hfirewalled.node.2 r hmem hid
  obtain ⟨hchanges, -⟩ := World.run_orderly hidle hopen horderly
  rw [h] at hchanges
  exact ⟨hchanges, server, nic, { hfirewalled with }⟩

/-- Of three ranges the second is refused. -/
theorem create_firewalled_range_left :
    let w : World := { backend := { cloud := { failures := [("create_firewall_rule", 2)] } } }
    let t : Template :=
      { datacenter := "dc-1", region := some "de/fra", image := "img-1", password := some "secret"
        inboundPorts := [443, 22, 80, 81, 22], hardware := ⟨1, 1024, [10]⟩ }
    let x := (create {} "n" t fun _ => 0).run
    let w' := (w.run x).2
    ∃ created server nic, (w.run x).1 = .ok created ∧
      Firewalled "n" t (w.jobs x) created w.backend.cloud w'.backend.cloud server nic ∧
      created.skipped = [⟨.createFirewallRule, some "nic-4",
        "backend error: injected failure: create_firewall_rule #2"⟩] ∧
      w'.backend.cloud.servers.map (·.nics.map (·.rules)) = [[[(22, 22), (443, 443)]]] := by
  intro w t x w'
  have hranges : portRanges t.inboundPorts = [(22, 22), (80, 81), (443, 443)] := by
    rw [portRanges_eq]
    decide
  have heval : (w.run x).1.map (·.skipped) = .ok [⟨.createFirewallRule, some "nic-4",
        "backend error: injected failure: create_firewall_rule #2"⟩] ∧
      w'.backend.cloud.servers.map (·.nics.map (·.rules)) = [[[(22, 22), (443, 443)]]] := by
    simp only [w', x, create, createIn, createNetwork, nicRequest, hranges]
    decide +kernel
  obtain ⟨hskipped, hrules⟩ := heval
  cases hok : (w.run x).1 with
  | error e =>
    rw [hok] at hskipped
    cases hskipped
  | ok created =>
    rw [hok] at hskipped
    have hrun : w.run x = (.ok created, w') := by rw [← hok]
    have hreach : w.backend.cloud.Reachable := .seed .empty (.failure "create_firewall_rule" 2)
    obtain ⟨-, server, nic, hfirewalled⟩ :=
      create_firewalled hreach rfl JobQueue.isIdle_empty hrun
    exact ⟨created, server, nic, rfl, hfirewalled, Except.ok.inj hskipped, hrules⟩

end Lifecycle

end ComputePlane
