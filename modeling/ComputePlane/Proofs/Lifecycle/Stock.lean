import Mathlib.Data.List.Nodup
import ComputePlane.Proofs.Lifecycle.Operations
import ComputePlane.Proofs.Program.Stock

/-!
# Volumes in the hands of operations

Every operation on a node keeps to its stock of volumes (`NodeOperation.program_handles`). A
creation attaches each of its volumes once, and deletes only its own; a destruction deletes only
what it has seen on the server. The others leave volumes alone.
-/

namespace ComputePlane

open Program

namespace Lifecycle

variable {k : Stock} {dc : String} {server : NodeId}

/-! ## Steps -/

/-- Deletes of volumes that are known, whatever else is deleted. -/
theorem bestEffortAll_handles {cs : List Call} (hattached : ∀ c ∈ cs, c.attached = [])
    (hdeleted : ∀ c ∈ cs, ∀ v ∈ c.deleted, v ∈ k.known) :
    Handles (fun _ _ => True) k (bestEffortAll dc cs) := by
  induction cs generalizing k with
  | nil => trivial
  | cons c cs ih =>
    rw [List.forall_mem_cons] at hattached hdeleted
    refine ⟨⟨by simp [hattached.1], hdeleted.1⟩, fun r _ => ih hattached.2 fun d hd v hv => ?_⟩
    exact k.known_subset_after c r (hdeleted.2 d hd v hv)

/-- Whatever has been made can be undone, as far as volumes are concerned, if they are known. -/
theorem undo_handles {made : Made} (hmade : ∀ id ∈ made.volumes, ⟨dc, id⟩ ∈ k.known) :
    Handles (fun _ _ => True) k (bestEffortAll dc (made.deletes dc)) := by
  refine bestEffortAll_handles (fun c hc => ?_) fun c hc v hv => ?_ <;>
    simp only [Made.deletes, List.mem_append, List.mem_map] at hc <;>
    rcases hc with (⟨id, hid, rfl⟩ | ⟨id, hid, rfl⟩) | ⟨id, hid, rfl⟩
  · rfl
  · rfl
  · rfl
  · cases hv
  · obtain rfl := List.mem_singleton.mp hv
    exact hmade id hid
  · cases hv

theorem critical_handles {stage : Stage} {made : Made} {c : Call}
    {P : Stock → c.Answer → Prop} (hc : k.Permits c)
    (hmade : ∀ id ∈ made.volumes, ⟨dc, id⟩ ∈ k.known)
    (hok : ∀ a, k.Possible c (.ok a) → P (k.after c (.ok a)) a) :
    Handles (IfOk P) k (critical stage dc made c).run := by
  refine ⟨hc, fun r hr => ?_⟩
  cases r with
  | ok a => exact hok a hr
  | error e =>
    exact (undo_handles fun id hid => k.known_subset_after c _ (hmade id hid)).lift_bind
      fun _ _ _ => .pure trivial

/-- A critical change that concerns no volumes. -/
theorem critical_handles_of_isIdle {stage : Stage} {made : Made} {c : Call}
    (hc : c.isIdle = true) (hmade : ∀ id ∈ made.volumes, ⟨dc, id⟩ ∈ k.known) :
    Handles (IfOk fun l _ => l = k) k (critical stage dc made c).run :=
  critical_handles (Stock.permits_of_isIdle hc) hmade fun _ _ => Stock.after_of_isIdle hc _

theorem attempt_handles {stage : Stage} {resource : Option String} {c : Call}
    {Q : Stock → Except Skipped c.Answer → Prop} (hc : k.Permits c)
    (hok : ∀ a, k.Possible c (.ok a) → Q (k.after c (.ok a)) (.ok a))
    (herror : ∀ e s, Q (k.after c (.error e)) (.error s)) :
    Handles Q k (attempt stage resource dc c) := by
  refine ⟨hc, fun r hr => ?_⟩
  cases r with
  | ok a => exact hok a hr
  | error e => exact herror e _

/-- The volumes that could be made are added to those that are not used, and all are different. -/
theorem createVolumes_handles (request : Nat → Nat → VolumeRequest) (i : Nat) (sizes : List Nat)
    (hnodup : k.fresh.Nodup) :
    Handles (fun l p => l = ⟨k.fresh ++ p.1.map (⟨dc, ·⟩), k.seen⟩ ∧ l.fresh.Nodup) k
      (createVolumes dc request i sizes) := by
  induction sizes generalizing i k with
  | nil => exact .pure ⟨by simp, hnodup⟩
  | cons size sizes ih =>
    refine .bind (attempt_handles (Q := fun l made => l.fresh.Nodup ∧ l =
      ⟨k.fresh ++ (made.toOption.map fun v : Volume => ⟨dc, v.id⟩).toList, k.seen⟩) ?permits
      (fun v hv => ?made) fun e s => ?skipped) ?rest
    case permits => exact Stock.permits_of_unused rfl rfl
    case made =>
      have hfree : (⟨dc, v.id⟩ : VolumeRef) ∉ k.fresh := hv _ (List.mem_singleton.mpr rfl)
      have hadded : (k.fresh ++ [(⟨dc, v.id⟩ : VolumeRef)]).Nodup := List.nodup_append.mpr
        ⟨hnodup, by simp, fun w hw u hu heq => hfree (List.mem_singleton.mp hu ▸ heq ▸ hw)⟩
      rw [Stock.after_createVolume]
      exact ⟨hadded, rfl⟩
    case skipped =>
      rw [Stock.after_createVolume]
      exact ⟨by simpa [Except.toOption] using hnodup, rfl⟩
    case rest =>
      rintro l made ⟨hl, rfl⟩
      refine .bind (ih (i + 1) hl) ?_
      rintro _ ⟨ids, skipped⟩ ⟨rfl, hids⟩
      cases made with
      | ok v => exact .pure ⟨by simp [Except.toOption], hids⟩
      | error s => exact .pure ⟨by simp [Except.toOption], hids⟩

/-- What is not used stays so if a call neither attaches nor deletes it. -/
theorem fresh_after_of_ne {vs : List String} {v : String} {c : Call} {r : c.Result}
    (hfresh : ∀ id ∈ vs, ⟨dc, id⟩ ∈ k.fresh) (hv : v ∉ vs)
    (hattached : ∀ w ∈ c.attached, w = ⟨dc, v⟩) (hdeleted : ∀ w ∈ c.deleted, w = ⟨dc, v⟩) :
    ∀ id ∈ vs, ⟨dc, id⟩ ∈ (k.after c r).fresh := by
  intro id hid
  have hne : (⟨dc, id⟩ : VolumeRef) ≠ ⟨dc, v⟩ := by
    rintro ⟨⟩
    exact hv hid
  exact Stock.mem_fresh_after.mpr (.inl ⟨hfresh id hid, fun h => hne (hattached _ h),
    fun h => hne (hdeleted _ h)⟩)

/-- Each volume is attached or deleted. -/
theorem attachVolumes_handles {vs : List String} (hnodup : vs.Nodup)
    (hfresh : ∀ id ∈ vs, ⟨server.datacenter, id⟩ ∈ k.fresh) :
    Handles (fun _ _ => True) k (attachVolumes server vs) := by
  induction vs generalizing k with
  | nil => trivial
  | cons v vs ih =>
    obtain ⟨hv, hvs⟩ := List.nodup_cons.mp hnodup
    rw [List.forall_mem_cons] at hfresh
    have hrest : ∀ r, ∀ id ∈ vs,
        ⟨server.datacenter, id⟩ ∈ (k.after (.attachVolume server v) r).fresh := fun r =>
      fresh_after_of_ne hfresh.2 hv (by simp [Call.attached]) (by simp [Call.deleted])
    refine ⟨⟨by simpa [Call.attached] using hfresh.1, by simp [Call.deleted]⟩, fun r _ => ?_⟩
    cases r with
    | ok a => exact ih hvs (hrest _)
    | error e =>
      -- the volume has been used, and so it is still known
      have hknown : ⟨server.datacenter, v⟩ ∈ (k.after (.attachVolume server v) (.error e)).known :=
        Stock.mem_known_after.mpr (.inl (List.mem_append_left _ hfresh.1))
      refine ⟨⟨by simp [Call.attached], by simpa [Call.deleted] using hknown⟩, fun r _ => ?_⟩
      refine (ih hvs ?_).bind fun _ _ _ => .pure trivial
      exact fresh_after_of_ne (hrest _) hv (by simp [Call.attached]) (by simp [Call.deleted])

theorem awaitAvailable_handles (s : AdapterSettings) (r : ResourceRef) :
    Handles (fun l _ => l = k) k (awaitAvailable s r) :=
  fun _ => rfl

/-- Each further volume is attached or deleted, and then volumes are left alone. -/
theorem settle_handles (s : AdapterSettings) {extra : List String} (hnodup : extra.Nodup)
    (hfresh : ∀ id ∈ extra, ⟨server.datacenter, id⟩ ∈ k.fresh) :
    Handles (fun _ _ => True) k (settle s server extra) :=
  (attachVolumes_handles hnodup hfresh).bind fun _ _ _ =>
    .bind (awaitAvailable_handles s _) fun _ _ _ =>
    .bind (awaitAvailable_handles s _) fun _ _ _ =>
    .bind (.of_isIdle (.ask rfl)) fun _ _ _ =>
    .bind (.of_isIdle (restart_asksOnly rfl)) fun _ _ _ =>
    .bind (awaitAvailable_handles s _) fun _ _ _ =>
    .bind (.of_isIdle (.ask rfl)) fun _ _ _ => .pure trivial

/-- The look-up of a node shows its volumes. -/
theorem getNode_handles (text : String) :
    Handles (IfOk fun _ _ => True) k (getNode text).run := by
  unfold getNode
  cases NodeId.parse text with
  | error e => trivial
  | ok id =>
    refine ⟨Stock.permits_of_unused rfl rfl, fun r _ => ?_⟩
    rcases r with e | server
    · trivial
    · cases server <;> trivial

/-! ## Creations -/

section Creation

variable (s : AdapterSettings) (name : String) (t : Template)

/-- The network part of a creation leaves volumes alone, unless all of them are deleted. -/
theorem createNetwork_handles (region : String) {volumes : List String}
    (hknown : ∀ id ∈ volumes, ⟨t.datacenter, id⟩ ∈ k.known) :
    Handles (IfOk fun l _ => l = k) k (createNetwork s t name region server volumes).run := by
  refine .run_bind (critical_handles_of_isIdle rfl hknown) ?_
  rintro _ block rfl
  refine .run_bind (critical_handles_of_isIdle rfl hknown) ?_
  rintro _ nic rfl
  refine .lift_bind (awaitAvailable_handles s _) ?_
  rintro _ _ rfl
  exact .run_lift (.of_isIdle (createRules_asksOnly name (fun _ => rfl) _))

theorem createIn_handles (draws : Draws) (bootSize : Nat) (sizes : List Nat) (region : String) :
    Handles (IfOk fun _ _ => True) {} (createIn s name t draws bootSize sizes region).run := by
  unfold createIn
  refine .run_bind (P := fun k (boot : Volume) => k = ⟨[⟨t.datacenter, boot.id⟩], []⟩)
    (critical_handles (Stock.permits_of_unused rfl rfl) (by simp) fun boot _ => ?_) ?_
  · rw [Stock.after_createVolume]
    rfl
  rintro _ boot rfl
  refine .lift_bind (createVolumes_handles _ 2 sizes (by simp)) ?_
  rintro _ ⟨extra, notMade⟩ ⟨rfl, hvolumes⟩
  have hnodup : (boot.id :: extra).Nodup :=
    List.Nodup.of_map (fun id => (⟨t.datacenter, id⟩ : VolumeRef)) hvolumes
  obtain ⟨hboot, hextra⟩ := List.nodup_cons.mp hnodup
  refine .lift_bind (awaitAvailable_handles s _) ?_
  rintro _ _ rfl
  -- the first volume is attached to the server, and the others can still be used
  refine .run_bind (P := fun k _ => (∀ id ∈ extra, ⟨t.datacenter, id⟩ ∈ k.fresh) ∧
    ∀ id ∈ boot.id :: extra, ⟨t.datacenter, id⟩ ∈ k.known) (critical_handles ⟨?_, ?_⟩ ?_ ?_) ?_
  · simp [Call.attached, serverRequest]
  · simp [Call.deleted]
  · simp [Stock.known]
  · refine fun made _ => ⟨fresh_after_of_ne (by simp +contextual) hboot
      (by simp [Call.attached, serverRequest]) (by simp [Call.deleted]), fun id hid => ?_⟩
    exact Stock.known_subset_after _ _ _ (by simpa [Stock.known] using hid)
  rintro k made ⟨hfresh, hknown⟩
  refine .lift_bind (awaitAvailable_handles s _) ?_
  rintro _ _ rfl
  refine .lift_bind (awaitAvailable_handles s _) ?_
  rintro _ _ rfl
  refine .run_bind (createNetwork_handles s name t region hknown) ?_
  rintro _ notOpened rfl
  exact .lift_bind (settle_handles s hextra hfresh) fun _ _ _ =>
    .run_bind (getNode_handles _) fun _ _ _ => .pure trivial

/-- The region of a new node is looked up by one call at most. -/
theorem regionOf_asks : (regionOf t).run.AsksOnly (· = .call (.getDatacenter t.datacenter)) := by
  unfold regionOf
  cases t.region with
  | some region => trivial
  | none =>
    refine .run_bind (.ask rfl) fun d => ?_
    cases d.bind (·.properties.location) <;> trivial

/-- A creation attaches each of its volumes once, and deletes only its own. -/
theorem create_handles (draws : Draws) :
    Handles (IfOk fun _ _ => True) {} (create s name t draws).run := by
  unfold create
  cases t.hardware.volumesGb with
  | nil => trivial
  | cons bootSize sizes =>
    have hidle : (regionOf t).run.AsksOnly (isIdle · = true) :=
      (regionOf_asks t).mono fun r hr => hr ▸ rfl
    refine .run_bind (P := fun k _ => k = {}) ((Handles.of_isIdle hidle).mono ?_) ?_
    · rintro k r rfl
      cases r <;> trivial
    · rintro _ region rfl
      exact createIn_handles s name t draws bootSize sizes region

end Creation

/-! ## Other operations -/

section

variable (s : AdapterSettings) (text : String)

/-- A destruction deletes only what it has seen on the server. -/
theorem destroy_handles : Handles (IfOk fun _ _ => True) k (destroy s text).run := by
  unfold destroy
  cases NodeId.parse text with
  | error e => trivial
  | ok id =>
    refine ⟨Stock.permits_of_unused rfl rfl, fun r _ => ?_⟩
    rcases r with e | _ | server
    · trivial
    · trivial
    refine .lift_bind (bestEffortAll_handles (fun c hc => ?_) fun c hc v hv => ?_) fun l _ _ => ?_
    · obtain ⟨v, -, rfl⟩ := List.mem_map.mp hc
      rfl
    · obtain ⟨w, hw, rfl⟩ := List.mem_map.mp hc
      obtain rfl := List.mem_singleton.mp hv
      -- what the look-up has shown
      refine Stock.mem_known_after.mpr (.inr (.inr (.inr (.inr ?_))))
      exact List.mem_map_of_mem hw
    · refine .lift_bind (.of_isIdle (bestEffort_asksOnly rfl)) fun _ _ _ =>
        .lift_bind (.of_isIdle (.ask rfl)) fun _ gone _ => ?_
      cases gone <;> trivial

/-- A change that concerns no volumes, and a wait, unless there is nothing to change. -/
theorem changeUnless_handles {done : Prop} [Decidable done] {c : Call} (hc : c.isIdle = true)
    (policy : PollPolicy) (w : Watch) :
    Handles (IfOk fun _ _ => True) k (if done then pure () else submit dc c >>= fun _ =>
      (liftM (Program.await policy w) : Operation Bool) >>= fun _ => pure ()).run := by
  split
  · trivial
  refine ⟨Stock.permits_of_isIdle hc, fun r _ => ?_⟩
  cases r with
  | ok a => exact fun _ => trivial
  | error e => trivial

theorem reboot_handles : Handles (IfOk fun _ _ => True) k (reboot s text).run :=
  .run_bind (getNode_handles text) fun _ _ _ => changeUnless_handles rfl _ _

theorem resume_handles : Handles (IfOk fun _ _ => True) k (resume s text).run :=
  .run_bind (getNode_handles text) fun _ _ _ => changeUnless_handles rfl _ _

theorem suspend_handles : Handles (IfOk fun _ _ => True) k (suspend s text).run :=
  .run_bind (getNode_handles text) fun _ _ _ => changeUnless_handles rfl _ _

end

end Lifecycle

/-- Every operation on a node, beginning with no volumes, keeps to its stock. -/
theorem NodeOperation.program_handles (o : NodeOperation) :
    o.program.Handles (fun _ _ => True) {} := by
  have hmap : ∀ {α : Type} {f : α → Option Lifecycle.Created} {x : Operation α},
      Handles (IfOk fun _ _ => True) {} x.run → Handles (fun _ _ => True) {} (f <$> x).run := by
    intro α f x hx
    refine Handles.bind (Q := fun _ _ => True) (hx.mono fun _ _ _ => trivial) fun l r _ => ?_
    cases r <;> trivial
  cases o with
  | create s name t draws => exact hmap (Lifecycle.create_handles s name t draws)
  | destroy s text => exact hmap (Lifecycle.destroy_handles s text)
  | reboot s text => exact hmap (Lifecycle.reboot_handles s text)
  | resume s text => exact hmap (Lifecycle.resume_handles s text)
  | suspend s text => exact hmap (Lifecycle.suspend_handles s text)

end ComputePlane
