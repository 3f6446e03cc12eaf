import ComputePlane.Lifecycle.Create
import ComputePlane.Proofs.Program.Play

/-!
# The steps of a creation

For each step that a creation is made of: which requests it can make, and what a run of it is like.
All of its changes are jobs of the node's datacenter (`create_asksOnly`).
-/

namespace ComputePlane.Lifecycle

open Program

/-! ## What is asked for -/

section Asks

variable {P : Request → Prop}

theorem bestEffort_asksOnly {dc : String} {c : Call} (h : P (.submit dc c)) :
    (bestEffort dc c).AsksOnly P :=
  .bind (.ask h) fun _ => .pure _

theorem bestEffortAll_asksOnly {dc : String} {cs : List Call}
    (h : ∀ c ∈ cs, P (.submit dc c)) : (bestEffortAll dc cs).AsksOnly P := by
  induction cs with
  | nil => exact .pure _
  | cons c cs ih =>
    rw [List.forall_mem_cons] at h
    exact .bind (bestEffort_asksOnly h.1) fun _ => ih h.2

theorem attempt_asksOnly {stage : Stage} {resource : Option String} {dc : String} {c : Call}
    (h : P (.submit dc c)) : (attempt stage resource dc c).AsksOnly P := by
  refine .bind (.ask h) fun r => ?_
  cases r <;> exact .pure _

theorem createVolumes_asksOnly {dc : String} (request : Nat → Nat → VolumeRequest)
    (h : ∀ r, P (.submit dc (.createVolume dc r))) (i : Nat) (sizes : List Nat) :
    (createVolumes dc request i sizes).AsksOnly P := by
  induction sizes generalizing i with
  | nil => exact .pure _
  | cons size sizes ih =>
    refine .bind (attempt_asksOnly (h _)) fun made => .bind (ih _) fun rest => ?_
    cases made <;> exact .pure _

theorem createRules_asksOnly {nic : NicRef} (name : String)
    (h : ∀ r, P (.submit nic.server.datacenter (.createFirewallRule nic r)))
    (ranges : List (Nat × Nat)) : (createRules nic name ranges).AsksOnly P := by
  induction ranges with
  | nil => exact .pure _
  | cons range ranges ih =>
    refine .bind (attempt_asksOnly (h _)) fun made => .bind ih fun rest => ?_
    cases made <;> exact .pure _

theorem attachVolumes_asksOnly {server : NodeId}
    (hattach : ∀ v, P (.submit server.datacenter (.attachVolume server v)))
    (hdelete : ∀ v, P (.submit server.datacenter (.deleteVolume ⟨server.datacenter, v⟩)))
    (volumes : List String) : (attachVolumes server volumes).AsksOnly P := by
  induction volumes with
  | nil => exact .pure _
  | cons volume volumes ih =>
    refine .bind (attempt_asksOnly (hattach _)) fun made => ?_
    cases made with
    | ok a => exact ih
    | error k => exact .bind (bestEffort_asksOnly (hdelete _)) fun _ => .bind ih fun _ => .pure _

theorem restart_asksOnly {server : NodeId}
    (h : P (.submit server.datacenter (.rebootServer server))) : (restart server).AsksOnly P := by
  refine .bind (attempt_asksOnly h) fun made => ?_
  cases made <;> exact .pure _

theorem critical_asksOnly {stage : Stage} {dc : String} {made : Made} {c : Call}
    (h : P (.submit dc c)) (hundo : ∀ u ∈ made.deletes dc, P (.submit dc u)) :
    (critical stage dc made c).run.AsksOnly P := by
  refine .bind (.ask h) fun r => ?_
  cases r with
  | ok a => exact .pure _
  | error e => exact .run_bind (.run_lift (bestEffortAll_asksOnly hundo)) fun _ => .pure _

theorem regionOf_looks (t : Template) : (regionOf t).run.AsksOnly (isLook · = true) := by
  unfold regionOf
  cases t.region with
  | some region => trivial
  | none =>
    refine .run_bind (.ask rfl) fun d => ?_
    cases d.bind (·.properties.location) <;> trivial

theorem getNode_looks (text : String) : (getNode text).run.AsksOnly (isLook · = true) := by
  refine .run_bind ?_ fun id => .run_bind (.ask rfl) fun server => ?_
  · cases NodeId.parse text <;> trivial
  · cases server <;> trivial

variable (hread : ∀ r, isRead r = true → P r)

include hread

theorem awaitAvailable_asksOnly (s : AdapterSettings) (r : ResourceRef) :
    (awaitAvailable s r).AsksOnly P :=
  .ask (hread _ rfl)

theorem regionOf_asksOnly (t : Template) : (regionOf t).run.AsksOnly P :=
  (regionOf_looks t).mono fun _ h => hread _ (isRead_of_isLook h)

theorem getNode_asksOnly (text : String) : (getNode text).run.AsksOnly P :=
  (getNode_looks text).mono fun _ h => hread _ (isRead_of_isLook h)

theorem settle_asksOnly (s : AdapterSettings) {server : NodeId} (extra : List String)
    (hattach : ∀ v, P (.submit server.datacenter (.attachVolume server v)))
    (hdelete : ∀ v, P (.submit server.datacenter (.deleteVolume ⟨server.datacenter, v⟩)))
    (hreboot : P (.submit server.datacenter (.rebootServer server))) :
    (settle s server extra).AsksOnly P :=
  .bind (attachVolumes_asksOnly hattach hdelete extra) fun _ =>
    .bind (awaitAvailable_asksOnly hread s _) fun _ =>
    .bind (awaitAvailable_asksOnly hread s _) fun _ =>
    .bind (.ask (hread _ rfl)) fun _ =>
    .bind (restart_asksOnly hreboot) fun _ =>
    .bind (awaitAvailable_asksOnly hread s _) fun _ =>
    .bind (.ask (hread _ rfl)) fun _ => .pure _

/-! ## Creations -/

section Creation

variable (s : AdapterSettings) (name : String) (t : Template)
  (hsubmit : ∀ c, c.isChange = true → c.changes?.all (· = t.datacenter) = true →
    P (.submit t.datacenter c))

include hsubmit

omit hread in
theorem critical_step_asksOnly {stage : Stage} {made : Made} {c : Call} (hc : c.isChange = true)
    (hdc : c.changes?.all (· = t.datacenter) = true) :
    (critical stage t.datacenter made c).run.AsksOnly P := by
  refine critical_asksOnly (hsubmit c hc hdc) fun u hu => ?_
  simp only [Made.deletes, List.mem_append, List.mem_map] at hu
  rcases hu with (⟨id, -, rfl⟩ | ⟨id, -, rfl⟩) | ⟨id, -, rfl⟩ <;>
    exact hsubmit _ rfl (by simp [Call.changes?])

theorem createNetwork_asksOnly (region id : String) (volumes : List String) :
    (createNetwork s t name region ⟨t.datacenter, id⟩ volumes).run.AsksOnly P := by
  refine .run_bind (critical_step_asksOnly t hsubmit rfl rfl) fun block =>
    .run_bind (critical_step_asksOnly t hsubmit rfl (by simp [Call.changes?])) fun nic =>
    .run_bind (.run_lift (awaitAvailable_asksOnly hread s _)) fun _ =>
    .run_lift (createRules_asksOnly name (fun r => hsubmit _ rfl ?_) _)
  simp [Call.changes?]

theorem createIn_asksOnly (draws : Draws) (bootSize : Nat) (sizes : List Nat) (region : String) :
    (createIn s name t draws bootSize sizes region).run.AsksOnly P := by
  refine .run_bind (critical_step_asksOnly t hsubmit rfl ?_) fun boot =>
    .run_bind (.run_lift (createVolumes_asksOnly _ (fun r => hsubmit _ rfl ?_) _ _)) fun extra =>
    .run_bind (.run_lift (awaitAvailable_asksOnly hread s _)) fun _ =>
    .run_bind (critical_step_asksOnly t hsubmit rfl ?_) fun made =>
    .run_bind (.run_lift (awaitAvailable_asksOnly hread s _)) fun _ =>
    .run_bind (.run_lift (awaitAvailable_asksOnly hread s _)) fun _ =>
    .run_bind (createNetwork_asksOnly hread s name t hsubmit region made.id _) fun _ =>
    .run_bind (.run_lift (settle_asksOnly hread s _ (fun v => hsubmit _ rfl ?_)
      (fun v => hsubmit _ rfl ?_) (hsubmit _ rfl ?_))) fun _ =>
    .run_bind (getNode_asksOnly hread _) fun _ => .pure _
  all_goals simp [Call.changes?]

/-- A creation makes its changes as jobs of the template's datacenter. -/
theorem create_asksOnly (draws : Draws) : (create s name t draws).run.AsksOnly P := by
  unfold create
  cases t.hardware.volumesGb with
  | nil => trivial
  | cons bootSize sizes =>
    exact .run_bind (regionOf_asksOnly hread t) fun region =>
      createIn_asksOnly hread s name t hsubmit draws bootSize sizes region

end Creation

end Asks

/-- What is left of a creation once its server is there. -/
def finish (s : AdapterSettings) (name : String) (t : Template) (draws : Draws) (region : String)
    (server : NodeId) (volumes extra : List String) (notMade : List Skipped) :
    Operation Created := do
  let _ ← awaitAvailable s (.server server)
  let _ ← awaitAvailable s (.datacenter t.datacenter)
  let notOpened ← createNetwork s t name region server volumes
  let notSettled ← settle s server extra
  let node ← getNode server.text
  return ⟨node, server.text, t.credentials draws, notMade ++ notOpened ++ notSettled⟩

theorem createIn_eq_finish (s : AdapterSettings) (name : String) (t : Template) (draws : Draws)
    (bootSize : Nat) (sizes : List Nat) (region : String) :
    createIn s name t draws bootSize sizes region = (do
      let request := volumeRequest s t name (t.credentials draws).password
      let boot ← critical .provisionBootVolume t.datacenter {}
        (.createVolume t.datacenter (request 1 bootSize))
      let (extra, notMade) ← createVolumes t.datacenter request 2 sizes
      let _ ← awaitAvailable s (.volume ⟨t.datacenter, boot.id⟩)
      let made ← critical .provisionServer t.datacenter { volumes := boot.id :: extra }
        (.createServer t.datacenter (serverRequest t name boot.id))
      finish s name t draws region ⟨t.datacenter, made.id⟩ (boot.id :: extra) extra notMade) :=
  rfl

theorem create_orderly (s : AdapterSettings) (name : String) (t : Template) (draws : Draws) :
    (create s name t draws).run.AsksOnly (isOrderly · = true) := by
  refine create_asksOnly (fun r hr => ?_) s name t (fun c hc hdc => ?_) draws
  · cases r <;> first | exact hr | rfl | cases hr
  · simp [isOrderly, hc, hdc]

/-! ## What a run is like -/

section Runs

open MemoryCloud (Answers)

variable {c d : MemoryCloud} {js : List Outcome}

theorem plays_bestEffort {dc : String} {call : Call} {u : Unit}
    (h : Plays c (bestEffort dc call) js u d) : ∃ r, js = [⟨call, r⟩] ∧ Answers c call r d := by
  obtain ⟨js₁, r, e, js₂, h₁, h₂, rfl⟩ := h.of_bind
  obtain ⟨rfl, hans⟩ := h₁.of_submit
  obtain ⟨rfl, -, rfl⟩ := h₂.of_pure
  exact ⟨r, rfl, hans⟩

/-- Each of the changes is made once, in order, whatever became of those before it. -/
theorem plays_bestEffortAll {dc : String} {calls : List Call} {u : Unit}
    (h : Plays c (bestEffortAll dc calls) js u d) :
    js.map (·.call) = calls ∧ Answered c js d := by
  induction calls generalizing c js with
  | nil =>
    obtain ⟨rfl, -, rfl⟩ := h.of_pure
    exact ⟨rfl, .nil⟩
  | cons call calls ih =>
    obtain ⟨js₁, _, e, js₂, h₁, h₂, rfl⟩ := h.of_bind
    obtain ⟨r, rfl, hans⟩ := plays_bestEffort h₁
    obtain ⟨hcalls, hrest⟩ := ih h₂
    exact ⟨congrArg (List.cons call) hcalls, .cons hans hrest⟩

theorem plays_attempt {stage : Stage} {resource : Option String} {dc : String} {call : Call}
    {r : Except Skipped call.Answer} (h : Plays c (attempt stage resource dc call) js r d) :
    (∃ a, r = .ok a ∧ js = [⟨call, .ok a⟩] ∧ Answers c call (.ok a) d) ∨
      ∃ e, r = .error ⟨stage, resource, e.message⟩ ∧ js = [⟨call, .error e⟩] ∧
        Answers c call (.error e) d := by
  obtain ⟨js₁, result, e, js₂, h₁, h₂, rfl⟩ := h.of_bind
  obtain ⟨rfl, hans⟩ := h₁.of_submit
  cases result with
  | ok a =>
    obtain ⟨rfl, rfl, rfl⟩ := h₂.of_pure
    exact .inl ⟨a, rfl, rfl, hans⟩
  | error err =>
    obtain ⟨rfl, rfl, rfl⟩ := h₂.of_pure
    exact .inr ⟨err, rfl, rfl, hans⟩

/-- A critical change that is made is one job. -/
theorem plays_critical_ok {stage : Stage} {dc : String} {made : Made} {call : Call}
    {a : call.Answer} (h : Plays c (critical stage dc made call).run js (.ok a) d) :
    js = [⟨call, .ok a⟩] ∧ Answers c call (.ok a) d := by
  obtain ⟨js₁, result, c', js₂, h₁, h₂, rfl⟩ := Plays.of_bind h
  obtain ⟨rfl, hans⟩ := h₁.of_submit
  cases result with
  | ok a =>
    obtain ⟨rfl, hok, rfl⟩ := h₂.of_pure
    cases hok
    exact ⟨rfl, hans⟩
  | error e =>
    obtain ⟨js₃, _, d', js₄, -, h₃, -⟩ := Plays.of_lift_bind h₂
    obtain ⟨-, hok, -⟩ := Plays.of_pure h₃
    cases hok

/-- A critical change that fails is followed by the deletes of what has been made. -/
theorem plays_critical_error {stage : Stage} {dc : String} {made : Made} {call : Call}
    {err : Error} (h : Plays c (critical stage dc made call).run js (.error err) d) :
    ∃ e undo c', err = .fatal stage e ∧ js = ⟨call, .error e⟩ :: undo ∧
      Answers c call (.error e) c' ∧ undo.map (·.call) = made.deletes dc ∧
      Answered c' undo d := by
  obtain ⟨js₁, result, c', js₂, h₁, h₂, rfl⟩ := Plays.of_bind h
  obtain ⟨rfl, hans⟩ := h₁.of_submit
  cases result with
  | ok a =>
    obtain ⟨-, herr, -⟩ := h₂.of_pure
    cases herr
  | error e =>
    obtain ⟨undo, _, d', js₃, h₃, h₄, rfl⟩ := Plays.of_lift_bind h₂
    obtain ⟨rfl, herr, rfl⟩ := Plays.of_pure h₄
    cases herr
    obtain ⟨hcalls, hundo⟩ := plays_bestEffortAll h₃
    exact ⟨e, undo, c', rfl, by simp, hans, hcalls, hundo⟩

end Runs

end ComputePlane.Lifecycle
