import ComputePlane.Gateway.Service
import ComputePlane.Proofs.Lifecycle.Destruction
import ComputePlane.Proofs.Lifecycle.Operations
import ComputePlane.Proofs.World.Closed

/-!
# Requests after the shutdown

Once the job queues are closed, no request changes anything (`content_run?_respond_of_closed`), and
one that comes to submit a job is answered with a failure. Which failure depends on what was asked
for: a power change hands on that the queues are closed, a creation reports the step that could not
be made, and a destruction that the server is still there. So only the first is told that the
service is not available (`refused_after_shutdown`). A destruction waits first, and so it is the
only one that can have no answer: its watch overflows if its policy does not fit.
-/

namespace ComputePlane

open Program Lifecycle

theorem Program.isOrderly_of_isRead {r : Request} (h : isRead r = true) : isOrderly r = true := by
  cases r <;> first | exact h | rfl | cases h

/-! ## Refused programs -/

/-- In a world with closed queues, a program that comes to submit a job gives what `Q` allows. It is
broken off only if it starts at a time of `B`. -/
def Refused {α : Type} (B : Nat → Prop) (Q : α → Prop) (x : Program α) : Prop :=
  ∀ w : World, w.backend.rules = [] → w.queue.closed = true → w.jobs x ≠ [] →
    (w.run? x).1.elim (B w.now) Q

namespace Refused

variable {α β : Type} {B : Nat → Prop} {Q : α → Prop} {R : β → Prop}

theorem mono {B' : Nat → Prop} {Q' : α → Prop} {x : Program α} (h : Refused B Q x)
    (hB : ∀ now, B now → B' now) (hQ : ∀ a, Q a → Q' a) : Refused B' Q' x := by
  intro w hrules hclosed hjobs
  have hrefused := h w hrules hclosed hjobs
  cases hresult : (w.run? x).1 <;> rw [hresult] at hrefused
  · exact hB _ hrefused
  · exact hQ _ hrefused

theorem of_reads {x : Program α} (hx : x.AsksOnly (isRead · = true)) : Refused B Q x :=
  fun _ _ _ hjobs => absurd (World.jobs_of_reads hx) hjobs

/-- Looking comes before the refusal, and takes a time after which nothing may be broken off. -/
theorem bind_of_looks {x : Program α} {f : α → Program β} (hx : x.AsksOnly (isLook · = true))
    (hf : ∀ a, Refused (fun _ => False) R (f a)) : Refused (fun _ => False) R (x >>= f) := by
  intro w hrules hclosed hjobs
  have hreads := hx.mono fun _ => isRead_of_isLook
  rw [World.jobs_bind, World.jobs_of_reads hreads, List.nil_append] at hjobs
  rw [World.run?_bind_of_unwatched (hx.mono fun _ => World.isWatch_of_isLook)]
  obtain ⟨hread, hqueue⟩ :=
    World.onlyRead_run_of_closed hclosed (hreads.mono fun _ => isOrderly_of_isRead)
  exact hf _ _ (hread.rules.trans hrules) (hqueue ▸ hclosed) hjobs

/-- An operation that fails as soon as its first part has been refused. -/
theorem run_bind_of_error {x : Operation α} {e : Error} {f : α → Operation β}
    (hx : x.run.AsksOnly (World.isWatch · = false))
    (h : ∀ w : World, w.queue.closed = true → (w.run x.run).1 = .error e) :
    Refused B (· = .error e) (x >>= f).run := by
  intro w _ hclosed _
  have hrun : w.run? x.run = (some (.error e), (w.run x.run).2) := by
    rw [World.run?_of_unwatched hx, h w hclosed]
  rw [World.run?_bind_of_error hrun]
  rfl

end Refused

/-! ## Refused operations -/

namespace Lifecycle

variable {s : AdapterSettings} {text name : String} {t : Template} {draws : Draws}

/-- A change of a node that is looked up first. -/
theorem refused_of_getNode {f : Node → Operation Unit} {needless : Node → Prop}
    [DecidablePred needless] {change : Node → Call}
    {rest : (n : Node) → (change n).Answer → Operation Unit}
    (hf : ∀ n, f n = if needless n then pure () else
      Program.submit n.id.datacenter (change n) >>= rest n) :
    Refused (fun _ => False) (· = .error .managerClosed) (getNode text >>= f).run := by
  rw [ExceptT.run_bind]
  refine .bind_of_looks (getNode_looks text) fun node => ?_
  cases node with
  | error e => exact .of_reads (.pure _)
  | ok node =>
    show Refused _ _ (f node).run
    rw [hf]
    split
    · exact .of_reads (.pure _)
    · exact .run_bind_of_error (.ask rfl) fun w hclosed => by
        rw [World.run_submit_of_closed hclosed]

/-- A creation gives up at its first step. -/
theorem create_refused :
    Refused (fun _ => False) (· = .error (.fatal .provisionBootVolume .managerClosed))
      (create s name t draws).run := by
  unfold create
  cases t.hardware.volumesGb with
  | nil => exact .of_reads (.pure _)
  | cons bootSize sizes =>
    rw [ExceptT.run_bind]
    refine .bind_of_looks (regionOf_looks t) fun region => ?_
    cases region with
    | error e => exact .of_reads (.pure _)
    | ok region =>
      show Refused _ _ (createIn s name t draws bootSize sizes region).run
      unfold createIn
      exact .run_bind_of_error (critical_asksOnly rfl fun _ _ => rfl) fun w hclosed => by
        rw [World.run_critical_of_closed hclosed]

/-- A server that is there stays as long as nothing is changed. -/
theorem never_gone {w : World} {id : NodeId} {server : Server}
    (h : w.content.server? id = some server) : World.Never w.content (Watch.gone id).question := by
  intro d hd
  have hans := d.answers_call (.getServer id)
  show (Watch.gone id).question.holds (d.call (.getServer id)).1 = false
  cases hr : (d.call (.getServer id)).1 with
  | error e => rfl
  | ok found =>
    cases found with
    | some s => rfl
    | none =>
      rw [hr, hd] at hans
      rw [hans.eq_server?] at h
      cases h

/-- A destruction finds the server still there, unless its watch overflows. -/
theorem destroy_refused :
    Refused (¬s.poll.Fits ·)
      (· = .error (.invariantViolation ("server " ++ text ++ " still present after delete")))
      (destroy s text).run := by
  cases hid : NodeId.parse text with
  | error e =>
    unfold destroy
    rw [hid]
    exact .of_reads (.pure _)
  | ok id =>
    intro w hrules hclosed hjobs
    have hans := World.answers_call hrules (.getServer id)
    -- without a server there would be no job
    obtain ⟨server, hserver⟩ : ∃ server, (w.call (.getServer id)).1 = .ok (some server) := by
      unfold destroy at hjobs
      rw [hid] at hjobs
      change (w.call (.getServer id)).2.jobs
        (ExceptT.bindCont _ (w.call (.getServer id)).1) ≠ [] at hjobs
      cases hr : (w.call (.getServer id)).1 with
      | error e =>
        rw [hr] at hjobs
        exact absurd rfl hjobs
      | ok found =>
        rw [hr] at hjobs
        cases found with
        | none => exact absurd rfl hjobs
        | some server => exact ⟨server, rfl⟩
    let w₁ := (w.call (.getServer id)).2
    have hclosed₁ : w₁.queue.closed = true := hclosed
    have hrules₁ : w₁.backend.rules = [] := (World.rules_call ..).trans hrules
    have hcontent₁ : w₁.content = w.content := hans.eq_of_read rfl
    have hremoved : (w₁.run (remove id (server.volumes.map (·.id)))).2 = w₁ := by
      rw [remove, World.run_bind, World.run_bestEffortAll_of_closed hclosed₁,
        World.run_bestEffort_of_closed hclosed₁]
    have hnow : w₁.now = w.now := Backend.due_arrive hrules w.now (.getServer id)
    have hgone : (w₁.watch (.gone id) s.poll).1 ≠ .reached := by
      rw [hserver] at hans
      exact World.watch_of_never hrules₁ (never_gone (hcontent₁ ▸ hans.eq_server?)) s.poll
    have hfits (h : s.poll.Fits w.now) : (w₁.watch (.gone id) s.poll).1 ≠ .overflow :=
      World.watch_ne_overflow (hnow ▸ h) _
    rw [run?_destroy hid hserver s, hremoved]
    cases hend : (w₁.watch (.gone id) s.poll).1 with
    | reached => exact absurd hend hgone
    | timedOut => rfl
    | overflow => exact fun h => hfits h hend

end Lifecycle

namespace Gateway

variable {s : AdapterSettings} {key : String} {r : HttpRequest} {draws : Draws} {w : World}

/-! ## What requests ask for -/

/-- Something is to be changed. -/
def Action.isMutating : Action → Bool
  | .createNode => true
  | .destroyNode .. => true
  | .changePower .. => true
  | _ => false

/-- What a request asks for, if it shows the key. -/
def asked? (key : String) (r : HttpRequest) : Option Action :=
  if showsKey key r then
    (Route.ofPath? (Target.ofText r.uri).path).bind (·.action? r.method)
  else none

theorem isMutating_of_action? {route : Route} {action : Action}
    (h : route.action? "GET" = some action) : action.isMutating = false := by
  cases route <;> simp_all [Route.action?] <;> subst h <;> rfl

section Asks

variable {P : Request → Prop}

theorem answer_asksOnly {α : Type} {op : Operation α} (h : op.run.AsksOnly P) (f : α → HttpAnswer) :
    (answer op f).AsksOnly P := by
  refine .bind h fun r => ?_
  cases r <;> exact .pure _

theorem orReject_asksOnly {α : Type} {part : Except Rejection α} {f : α → Program HttpAnswer}
    (h : ∀ a, (f a).AsksOnly P) : (orReject part f).AsksOnly P := by
  cases part with
  | ok a => exact h a
  | error e => exact .pure _

variable (hread : ∀ r, isRead r = true → P r)

include hread

theorem datacenterIds_asksOnly : datacenterIds.run.AsksOnly P :=
  .run_bind (.ask (hread _ rfl)) fun _ => .pure _

theorem gather_asksOnly (t : Topic) (width : Nat) (keys : List String) :
    (gather t width keys).run.AsksOnly P :=
  .ask (hread _ rfl)

theorem listNodes_asksOnly (s : AdapterSettings) : (listNodes s).run.AsksOnly P :=
  .run_bind (datacenterIds_asksOnly hread) fun ids =>
    .run_bind (gather_asksOnly hread .servers s.userThreads ids) fun _ => .pure _

theorem listLocations_asksOnly (s : AdapterSettings) : (listLocations s).run.AsksOnly P :=
  .run_bind (datacenterIds_asksOnly hread) fun ids =>
    .run_bind (gather_asksOnly hread .locations s.userThreads ids) fun _ => .pure _

theorem listImages_asksOnly : listImages.run.AsksOnly P :=
  .run_bind (.ask (hread _ rfl)) fun _ => .pure _

theorem getImage_asksOnly (id : String) : (getImage id).run.AsksOnly P := by
  refine .run_bind (.ask (hread _ rfl)) fun image => ?_
  cases image with
  | some image => exact .pure _
  | none =>
    refine .run_bind (.ask (hread _ rfl)) fun snapshot => ?_
    cases snapshot <;> exact .pure _

/-- An action reads, and submits jobs only if something is to be changed. -/
theorem perform_asksOnly (s : AdapterSettings) (r : HttpRequest) (draws : Draws) (action : Action)
    (hsubmit : action.isMutating = true → ∀ dc c, c.isChange = true →
      c.changes?.all (· = dc) = true → P (.submit dc c)) :
    (perform s r draws action).AsksOnly P := by
  cases action with
  | listLocations => exact answer_asksOnly (listLocations_asksOnly hread s) _
  | listHardware => exact .pure _
  | listImages => exact answer_asksOnly (listImages_asksOnly hread) _
  | getImage id =>
    exact orReject_asksOnly fun id => answer_asksOnly (getImage_asksOnly hread id) _
  | listNodes =>
    unfold perform
    generalize queryIds (Target.ofText r.uri).query = part
    refine orReject_asksOnly fun ids => ?_
    cases ids with
    | none => exact answer_asksOnly (listNodes_asksOnly hread s) _
    | some ids => exact answer_asksOnly (gather_asksOnly hread .nodes s.userThreads ids) _
  | createNode =>
    refine orReject_asksOnly fun o => ?_
    unfold place
    split
    · exact .pure _
    · exact answer_asksOnly (create_asksOnly hread s _ _ (fun c => hsubmit rfl _ c) _) _
  | getNode dc id =>
    exact orReject_asksOnly fun text => answer_asksOnly (getNode_asksOnly hread text) _
  | destroyNode dc id =>
    exact orReject_asksOnly fun text =>
      answer_asksOnly (destroy_asksOnly hread s fun id c _ => hsubmit rfl _ c) _
  | changePower change dc id =>
    refine orReject_asksOnly fun text => answer_asksOnly ?_ _
    cases change with
    | reboot => exact reboot_asksOnly hread s fun id c _ => hsubmit rfl _ c
    | resume => exact resume_asksOnly hread s fun id c _ => hsubmit rfl _ c
    | suspend => exact suspend_asksOnly hread s fun id c _ => hsubmit rfl _ c

end Asks

/-- A request is answered at once unless it asks for something. -/
theorem guarded_cases (s : AdapterSettings) (key : String) (r : HttpRequest) (draws : Draws) :
    (∃ action, asked? key r = some action ∧
      guarded s key r draws = perform s r draws action) ∨
    asked? key r = none ∧ ∃ a, guarded s key r draws = pure a := by
  unfold guarded asked? serve
  cases showsKey key r with
  | false => exact .inr ⟨rfl, _, rfl⟩
  | true =>
    cases Route.ofPath? (Target.ofText r.uri).path with
    | none => exact .inr ⟨rfl, _, rfl⟩
    | some route =>
      simp only [if_true, Option.bind_some]
      cases route.action? r.method with
      | none => exact .inr ⟨rfl, _, rfl⟩
      | some action => exact .inl ⟨action, rfl, rfl⟩

theorem respond_eq_serve (hkey : showsKey key r = true) (hmethod : r.method ≠ "HEAD") :
    respond s key r draws = serve s r draws := by
  rw [respond, if_neg hmethod, guarded, if_pos hkey]

/-- The key is shown in a header of its own. -/
theorem showsKey_of_header (method uri body : String)
    (hplain : ("Bearer " ++ key).toList.all isPlain = true) :
    showsKey key ⟨method, uri, [("authorization", "Bearer " ++ key)], body⟩ = true := by
  have hname : Text.sameFolded "authorization" "authorization" = true := beq_self_eq_true _
  have hheader : header? [("authorization", "Bearer " ++ key)] "authorization" =
      some ("Bearer " ++ key) := by
    rw [header?, List.find?_cons_of_pos (by exact hname), Option.map_some, Option.filter_some,
      if_pos hplain]
  exact decide_eq_true hheader

/-- What the method `HEAD` asks for is only read. -/
theorem isMutating_of_get {action : Action}
    (h : asked? key { r with method := "GET" } = some action) :
    action.isMutating = false := by
  unfold asked? at h
  split at h
  · obtain ⟨route, -, hroute⟩ := Option.bind_eq_some_iff.mp h
    exact isMutating_of_action? hroute
  · cases h

/-! ## Refusals -/

/-- How an action fails whose job is refused. -/
inductive Refusal : Action → Error → Prop where
  | createNode : Refusal .createNode (.fatal .provisionBootVolume .managerClosed)
  | destroyNode {dc id text} (h : nodeText dc id = .ok text) :
      Refusal (.destroyNode dc id)
        (.invariantViolation ("server " ++ text ++ " still present after delete"))
  | changePower {change dc id} : Refusal (.changePower change dc id) .managerClosed

/-- The action waits although its job is refused. -/
def Action.isPatient : Action → Bool
  | .destroyNode .. => true
  | _ => false

/-- The status that an action is answered with whose job is refused. -/
def Action.refusalStatus : Action → HttpStatus
  | .changePower .. => ⟨503⟩
  | _ => ⟨502⟩

theorem Refusal.status {action : Action} {e : Error} (h : Refusal action e) :
    (GatewayFailure.operation e).status = action.refusalStatus := by
  cases h <;> rfl

theorem answer_refused {α : Type} {op : Operation α} {f : α → HttpAnswer} {e : Error}
    {B : Nat → Prop} (h : Refused B (· = .error e) op.run) :
    Refused B (· = HttpAnswer.failure (.operation e)) (answer op f) := by
  intro w hrules hclosed hjobs
  unfold answer at hjobs ⊢
  -- what is made of the result submits nothing, so it was the operation that did
  have hop : w.jobs op.run ≠ [] := fun hnone => hjobs <| by
    rw [World.jobs_bind, hnone]
    cases (w.run op.run).1 <;> rfl
  have hrefused := h w hrules hclosed hop
  rw [World.run?_bind]
  cases hresult : (w.run? op.run).1 with
  | none =>
    rw [hresult] at hrefused
    exact hrefused
  | some result =>
    rw [hresult] at hrefused
    cases hrefused
    rfl

theorem orReject_refused {α : Type} {B : Nat → Prop} {Q : HttpAnswer → Prop}
    {part : Except Rejection α} {f : α → Program HttpAnswer}
    (h : ∀ a, part = .ok a → Refused B Q (f a)) : Refused B Q (orReject part f) := by
  cases part with
  | ok a => exact h a rfl
  | error e => exact .of_reads (.pure _)

theorem PowerChange.operation_refused (change : PowerChange) (text : String) :
    Refused (fun _ => False) (· = .error .managerClosed) (change.operation s text).run := by
  cases change with
  | reboot => exact refused_of_getNode fun _ => rfl
  | resume => exact refused_of_getNode fun _ => rfl
  | suspend => exact refused_of_getNode fun _ => rfl

/-- An action that comes to submit a job is answered with its refusal. -/
theorem perform_refused (s : AdapterSettings) (r : HttpRequest) (draws : Draws) (action : Action) :
    Refused (fun now => action.isPatient = true ∧ ¬s.poll.Fits now)
      (fun a => ∃ e, Refusal action e ∧ a = .failure (.operation e))
      (perform s r draws action) := by
  cases hmutating : action.isMutating with
  | false =>
    exact .of_reads (perform_asksOnly (fun _ => id) s r draws action fun h => by
      rw [hmutating] at h
      cases h)
  | true =>
    cases action with
    | createNode =>
      show Refused _ _ (orReject (order r) (place s · draws))
      generalize order r = part
      refine orReject_refused fun o _ => ?_
      unfold place
      split
      · exact .of_reads (.pure _)
      · exact (answer_refused create_refused).mono (fun _ h => h.elim) fun _ h =>
          ⟨_, .createNode, h⟩
    | destroyNode dc id =>
      show Refused _ _ (orReject (nodeText dc id) _)
      exact orReject_refused fun text htext =>
        (answer_refused destroy_refused).mono (fun _ h => ⟨rfl, h⟩) fun _ h =>
          ⟨_, .destroyNode htext, h⟩
    | changePower change dc id =>
      show Refused _ _ (orReject (nodeText dc id) _)
      exact orReject_refused fun text _ =>
        (answer_refused (change.operation_refused text)).mono (fun _ h => h.elim) fun _ h =>
          ⟨_, .changePower, h⟩
    | listLocations | listHardware | listImages | getImage | listNodes | getNode => cases hmutating

/-! ## The shutdown -/

theorem respond_orderly (s : AdapterSettings) (key : String) (r : HttpRequest) (draws : Draws) :
    (respond s key r draws).AsksOnly (isOrderly · = true) := by
  have hguarded : ∀ r, (guarded s key r draws).AsksOnly (isOrderly · = true) := by
    intro r
    rcases guarded_cases s key r draws with ⟨action, -, heq⟩ | ⟨-, a, heq⟩
    · rw [heq]
      exact perform_asksOnly (fun _ => isOrderly_of_isRead) s r draws action
        fun _ dc c hc hdc => by simp [isOrderly, hc, hdc]
    · rw [heq]
      exact .pure a
  unfold respond
  split
  · exact .bind (hguarded _) fun _ => .pure _
  · exact hguarded r

/-- No request changes anything after the shutdown. -/
theorem content_run?_respond_of_closed (h : w.queue.closed = true) :
    (w.run? (respond s key r draws)).2.content = w.content :=
  (World.onlyRead_run?_of_closed h (respond_orderly s key r draws)).1.content

/-- After the shutdown, nothing that a request asks for is changed. A request that comes to submit a
job has shown the key and is answered with the refusal of the action it asks for. It is without an
answer only if the action waits and the policy does not fit. -/
theorem refused_after_shutdown (hrules : w.backend.rules = []) (hclosed : w.queue.closed = true)
    (hjobs : w.jobs (respond s key r draws) ≠ []) :
    ∃ action, asked? key r = some action ∧
      (∀ a, (w.run? (respond s key r draws)).1 = some a →
        (∃ e, Refusal action e ∧ a = .failure (.operation e)) ∧ a.status = action.refusalStatus) ∧
      ((w.run? (respond s key r draws)).1 = none →
        action.isPatient = true ∧ ¬s.poll.Fits w.now) ∧
      (w.run? (respond s key r draws)).2.content = w.content := by
  have hcontent : (w.run? (respond s key r draws)).2.content = w.content :=
    content_run?_respond_of_closed hclosed
  by_cases hhead : r.method = "HEAD"
  · -- a look-up submits nothing
    have hnone : w.jobs (respond s key r draws) = [] := by
      refine World.jobs_of_reads ?_
      rw [respond, if_pos hhead]
      refine .bind ?_ fun _ => .pure _
      rcases guarded_cases s key { r with method := "GET" } draws with ⟨action, hasked, heq⟩ |
        ⟨-, a, heq⟩
      · rw [heq]
        exact perform_asksOnly (fun _ => id) s _ draws action fun h => by
          rw [isMutating_of_get hasked] at h
          cases h
      · rw [heq]
        exact .pure a
    exact absurd hnone hjobs
  · have hrespond : respond s key r draws = guarded s key r draws := if_neg hhead
    rw [hrespond] at hjobs hcontent ⊢
    rcases guarded_cases s key r draws with ⟨action, hasked, heq⟩ | ⟨-, a, heq⟩
    · rw [heq] at hjobs hcontent ⊢
      have hrefused := perform_refused s r draws action w hrules hclosed hjobs
      refine ⟨action, hasked, fun a ha => ?_, fun hnone => ?_, hcontent⟩
      · rw [ha] at hrefused
        obtain ⟨e, hrefusal, rfl⟩ := hrefused
        exact ⟨⟨e, hrefusal, rfl⟩, hrefusal.status⟩
      · rw [hnone] at hrefused
        exact hrefused
    · rw [heq] at hjobs
      exact absurd rfl hjobs

/-- A running server is restarted after the shutdown: the service is not available. -/
theorem refused_after_shutdown_reboot :
    let w : World :=
      { backend := { cloud := (({} : MemoryCloud).addServer "dc-1" "web-1" .running []).2 }
        queue := JobQueue.empty.close }
    let r : HttpRequest := ⟨"POST", "/nodes/dc-1/srv-1/reboot", [("authorization", "Bearer k")], ""⟩
    w.jobs (respond {} "k" r fun _ => 0) ≠ [] ∧
      (w.run? (respond {} "k" r fun _ => 0)).1.map (·.status) = some ⟨503⟩ ∧
      (w.run? (respond {} "k" r fun _ => 0)).2.content = w.content := by
  intro w r
  have hkey : showsKey "k" r = true := showsKey_of_header _ _ _ (by decide)
  have hasked : asked? "k" r = some (.changePower .reboot "dc-1" "srv-1") := by
    rw [asked?, if_pos hkey]
    decide +kernel
  have hjobs : w.jobs (respond {} "k" r fun _ => 0) ≠ [] := by
    rw [respond_eq_serve hkey (by decide), ← List.isEmpty_eq_false_iff]
    decide +kernel
  obtain ⟨action, hsome, hanswer, hbroken, hcontent⟩ := refused_after_shutdown rfl rfl hjobs
  cases hasked.symm.trans hsome
  refine ⟨hjobs, ?_, hcontent⟩
  cases hrun : (w.run? (respond {} "k" r fun _ => 0)).1 with
  | none => exact absurd (hbroken hrun).1 Bool.false_ne_true
  | some a => exact congrArg some (hanswer a hrun).2

/-- Not every request that comes to submit a job is told that the service is not available. -/
theorem exists_refused_otherwise :
    ¬∀ (w : World) (s : AdapterSettings) (key : String) (r : HttpRequest) (draws : Draws)
      (action : Action), w.backend.rules = [] → w.queue.closed = true →
      asked? key r = some action → action.isMutating = true →
      w.jobs (respond s key r draws) ≠ [] →
      (w.run? (respond s key r draws)).1.map (·.status) = some ⟨503⟩ := by
  intro hall
  let w : World :=
    { backend := { cloud := (({} : MemoryCloud).addServer "dc-1" "web-1" .running []).2 }
      queue := JobQueue.empty.close }
  let s : AdapterSettings := { poll := ⟨0, 0, 0⟩ }
  let r : HttpRequest := ⟨"DELETE", "/nodes/dc-1/srv-1", [("authorization", "Bearer k")], ""⟩
  have hkey : showsKey "k" r = true := showsKey_of_header _ _ _ (by decide)
  have hserve : respond s "k" r (fun _ => 0) = serve s r fun _ => 0 :=
    respond_eq_serve hkey (by decide)
  have hasked : asked? "k" r = some (.destroyNode "dc-1" "srv-1") := by
    rw [asked?, if_pos hkey]
    decide +kernel
  have hjobs : w.jobs (respond s "k" r fun _ => 0) ≠ [] := by
    rw [hserve, ← List.isEmpty_eq_false_iff]
    decide +kernel
  have h503 := hall w s "k" r (fun _ => 0) _ rfl rfl hasked rfl hjobs
  have h502 : (w.run? (serve s r fun _ => 0)).1.map (·.status) = some ⟨502⟩ := by decide +kernel
  rw [hserve, h502] at h503
  cases h503

end Gateway

end ComputePlane
