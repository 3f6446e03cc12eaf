import Mathlib.Logic.Function.Basic
import ComputePlane.Proofs.Cloud.Attachment
import ComputePlane.Proofs.Crowd.Turns
import ComputePlane.Proofs.Lifecycle.Stock

/-!
# Attachments in a crowd

Operations on nodes share a cloud, and each of them has its own stock of volumes. What one of them
has made and not used is there, no server lists it, and no other one knows it (`Shares`). So it is
attached once, by the one who made it, and nobody else deletes it before. Each call keeps to this
(`Shares.affect`), and with it each event (`Stocked.step`) and each run (`Run.stocked`): the volumes
that servers list stay consistent (`attachments_consistent`).
-/

namespace ComputePlane

open Program

open MemoryCloud (Affects Attached)

/-! ## Stocks side by side -/

/-- The cloud is attached, and the operations have stocks that go with it. -/
structure Shares (own : Nat → Stock) (c : MemoryCloud) : Prop where
  attached : c.Attached
  there : ∀ i, ∀ v ∈ (own i).fresh, c.HasAsset (.volume v)
  unlisted : ∀ i, ∀ v ∈ (own i).fresh, v ∉ c.listed
  apart : ∀ i j v, v ∈ (own i).fresh → v ∈ (own j).known → i = j
  issued : ∀ i, ∀ v ∈ (own i).known, c.WasIssued v.volume

namespace Shares

variable {own : Nat → Stock} {c d : MemoryCloud} {i j : Nat} {call : Call} {r : call.Result}
  {v : VolumeRef}

/-- What was not used and has not been used by the call of another one. -/
theorem mem_fresh_update (o : Shares own c) (hcall : (own i).Permits call)
    (hv : v ∈ (Function.update own i ((own i).after call r) j).fresh) :
    (v ∈ (own j).fresh ∧ v ∉ call.attached ∧ v ∉ call.deleted) ∨
      j = i ∧ v ∈ call.madeVolumes r := by
  by_cases hj : j = i
  · subst hj
    rw [Function.update_self] at hv
    exact (Stock.mem_fresh_after.mp hv).imp_right fun hmade => ⟨rfl, hmade⟩
  · rw [Function.update_of_ne hj] at hv
    refine .inl ⟨hv, fun hattached => hj ?_, fun hdeleted => hj ?_⟩
    · exact o.apart j i v hv (List.mem_append_left _ (hcall.attached v hattached))
    · exact o.apart j i v hv (hcall.deleted v hdeleted)

/-- What is known was known before, or the call has made it or shown it. -/
theorem mem_known_update (hcall : (own i).Permits call)
    (hv : v ∈ (Function.update own i ((own i).after call r) j).known) :
    v ∈ (own j).known ∨ j = i ∧ (v ∈ call.madeVolumes r ∨ v ∈ call.shown r) := by
  by_cases hj : j = i
  · subst hj
    rw [Function.update_self] at hv
    rcases Stock.mem_known_after.mp hv with hold | hattached | hdeleted | hnew
    · exact .inl hold
    · exact .inl (List.mem_append_left _ (hcall.attached v hattached))
    · exact .inl (hcall.deleted v hdeleted)
    · exact .inr ⟨rfl, hnew⟩
  · rw [Function.update_of_ne hj] at hv
    exact .inl hv

/-- The cloud stays attached, for what a call attaches is there and not listed. -/
theorem attached_affect (o : Shares own c) (hcall : (own i).Permits call)
    (h : Affects c call r d) : d.Attached where
  there := by
    intro v hv
    refine h.remains v ?_ (.inr hv)
    rcases List.mem_append.mp (h.listed.subset hv) with hlisted | hattached
    · exact o.attached.there v hlisted
    · exact o.there i v (hcall.attached v hattached)
  once := by
    obtain ⟨l, hperm, hsub⟩ := h.listed
    have hnodup : (c.listed ++ call.attached).Nodup := List.nodup_append.mpr
      ⟨o.attached.once, call.nodup_attached, fun v hv w hw heq =>
        o.unlisted i w (hcall.attached w hw) (heq ▸ hv)⟩
    exact hperm.nodup_iff.mp (hnodup.sublist hsub)
  issued := h.issued
  keys := h.keys

/-- Whatever a call of one of them does, the stocks go with the cloud after it. -/
theorem affect (o : Shares own c) (hcall : (own i).Permits call) (h : Affects c call r d) :
    Shares (Function.update own i ((own i).after call r)) d := by
  have hlisted : ∀ v ∈ c.listed, c.WasIssued v.volume := fun v hv =>
    o.attached.issued.volume_wasIssued (o.attached.there v hv)
  refine ⟨o.attached_affect hcall h, fun j v hv => ?there, fun j v hv hmem => ?unlisted,
    fun j l v hj hl => ?apart, fun j v hv => ?issued⟩
  case there =>
    rcases o.mem_fresh_update hcall hv with ⟨hold, -, hdeleted⟩ | ⟨-, hmade⟩
    · exact h.remains v (o.there j v hold) (.inl hdeleted)
    · exact (h.made v hmade).2.2
  case unlisted =>
    have hbefore := List.mem_append.mp (h.listed.subset hmem)
    rcases o.mem_fresh_update hcall hv with ⟨hold, hattached, -⟩ | ⟨-, hmade⟩
    · exact hbefore.elim (o.unlisted j v hold) hattached
    · refine (h.made v hmade).1 (hbefore.elim (hlisted v) fun hattached => ?_)
      exact o.issued i v (List.mem_append_left _ (hcall.attached v hattached))
  case apart =>
    rcases o.mem_fresh_update hcall hj with ⟨hold, -⟩ | ⟨rfl, hmade⟩ <;>
      rcases mem_known_update hcall hl with hknown | ⟨rfl, hnew⟩
    · exact o.apart j l v hold hknown
    · rcases hnew with hmade | hshown
      · exact absurd (o.issued j v (List.mem_append_left _ hold)) (h.made v hmade).1
      · exact absurd (h.shown v hshown) (o.unlisted j v hold)
    · exact absurd (o.issued l v hknown) (h.made v hmade).1
    · rfl
  case issued =>
    rcases mem_known_update hcall hv with hknown | ⟨-, hmade | hshown⟩
    · exact (o.issued j v hknown).mono h.grows
    · exact (h.made v hmade).2.1
    · exact (hlisted v (h.shown v hshown)).mono h.grows

/-- A volume that is made is new to the one who makes it. -/
theorem possible (o : Shares own c) (h : Affects c call r d) : (own i).Possible call r :=
  fun v hmade hfresh =>
    (h.made v hmade).1 (o.issued i v (List.mem_append_left _ hfresh))

theorem content_iff : Shares own c.content ↔ Shares own c :=
  ⟨fun o => ⟨MemoryCloud.attached_content.mp o.attached, o.there, o.unlisted, o.apart, o.issued⟩,
    fun o => ⟨MemoryCloud.attached_content.mpr o.attached, o.there, o.unlisted, o.apart, o.issued⟩⟩

/-- Operations that have yet to begin have no volumes. -/
theorem start (hc : c.Attached) : Shares (fun _ => {}) c :=
  ⟨hc, fun _ _ hv => (nomatch hv), fun _ _ hv => (nomatch hv), fun _ _ _ hv => (nomatch hv),
    fun _ _ hv => (nomatch hv)⟩

end Shares

/-! ## Operations with stocks -/

/-- An operation with the stock `k` uses volumes as its stock permits. -/
def Activity.Handles {α : Type} (k : Stock) : Activity α → Prop
  | going program => program.Handles (fun _ _ => True) k
  | calling _ c _ next => k.Permits c ∧
      ∀ r, k.Possible c r → (next r).Handles (fun _ _ => True) (k.after c r)
  | queued _ c next => k.Permits c ∧
      ∀ r, k.Possible c r → (next r).Handles (fun _ _ => True) (k.after c r)
  | closing .. => False

namespace Interplay

variable {α : Type} {s s' w : Interplay α} {e : Event} {es : List Event} {i : Nat}
  {a b : Activity α}

/-- A call succeeds only as the cloud has told. It can fail in any way, also if it never reached the
cloud or was carried out. -/
def Event.IsHonest : Event → Prop
  | answer _ _ told result => ∀ a, result = .ok a → told = some (.ok a)
  | _ => True

theorem Event.IsFaithful.isHonest (h : e.IsFaithful) : e.IsHonest := by
  cases e with
  | answer i c told result =>
    intro a ha
    rw [← ha]
    exact h
  | _ => trivial

theorem handles_of_isPoll {k : Stock} {Q : Stock → α → Prop} {r : Request}
    {next : r.Response → Program α} (hx : (request r next).Handles Q k) (hr : isPoll r = true)
    (x : r.Response) : (next x).Handles Q k := by
  cases r with
  | pause d => exact hx
  | await w p => exact hx x
  | gather t width keys => exact hx x
  | fetch => exact hx x
  | call | submit | close => cases hr

/-- Each operation keeps to its stock, and the stocks go with the cloud. -/
structure Stocked (own : Nat → Stock) (s : Interplay α) : Prop where
  handles : ∀ i (a : Activity α), s.activities[i]? = some a → a.Handles (own i)
  shares : Shares own s.cloud

variable {own : Nat → Stock}

/-- Nothing has been used, made or shown. -/
theorem Stocked.put (o : Stocked own s) (h : s.activities[i]? = some b)
    (hs : s'.activities = (s.put i a).activities) (ha : a.Handles (own i))
    (hcloud : s'.cloud.content = s.cloud.content) : Stocked own s' := by
  refine ⟨fun j b hj => ?_, ?_⟩
  · rw [hs] at hj
    exact forall_put (P := fun j b => b.Handles (own j)) h o.handles ha j b hj
  · rw [← Shares.content_iff, hcloud, Shares.content_iff]
    exact o.shares

/-- A call of one of them has come to its end. -/
theorem Stocked.answer (o : Stocked own s) {call : Call} {r : call.Result}
    {next : call.Result → Program α} (h : s.activities[i]? = some b)
    (hs : s'.activities = (s.put i (.going (next r))).activities) (hcall : (own i).Permits call)
    (hnext : ∀ r, (own i).Possible call r →
      (next r).Handles (fun _ _ => True) ((own i).after call r))
    (heffect : Affects s.cloud call r s'.cloud) :
    Stocked (Function.update own i ((own i).after call r)) s' := by
  refine ⟨fun j b hj => ?_, o.shares.affect hcall heffect⟩
  rw [hs, getElem?_put h] at hj
  split at hj
  · next hij =>
    obtain rfl : .going (next r) = b := Option.some.inj hj
    rw [← hij, Function.update_self]
    exact hnext r (o.shares.possible heffect)
  · next hij =>
    rw [Function.update_of_ne (Ne.symm hij)]
    exact o.handles j b hj

/-- What an honest answer leaves of a cloud. -/
theorem affects_land {c : MemoryCloud} (hc : c.Attached) {call : Call} {flight : Flight}
    {r : call.Result} (hr : ∀ a, r = .ok a → flight.told? call c = some (.ok a)) :
    Affects c call r (flight.land call c) := by
  cases flight with
  | made =>
    cases r with
    | ok a => cases hr a rfl
    | error e => exact hc.affects_nothing call e
  | begun failure =>
    have heffect := hc.affects_finish call failure
    cases r with
    | ok a =>
      have htold : (c.finish call failure).1 = .ok a := Option.some.inj (hr a rfl)
      rwa [htold] at heffect
    | error e => exact heffect.fail e

theorem Stocked.step (o : Stocked own s) (hs : Step s e s') (he : e.IsHonest) :
    ∃ own', Stocked own' s' := by
  cases hs with
  | call h =>
    have ha := o.handles _ _ h
    exact ⟨own, o.put h rfl ha rfl⟩
  | accept h hq =>
    have ha := o.handles _ _ h
    exact ⟨own, o.put h rfl ha rfl⟩
  | @refuse i dc call next e h hq =>
    -- the volumes that were to be attached or deleted count as used
    obtain ⟨hcall, hnext⟩ := o.handles _ _ h
    exact ⟨_, o.answer h rfl hcall hnext (o.shares.attached.affects_nothing call e)⟩
  | start h hq =>
    have ha := o.handles _ _ h
    exact ⟨own, o.put h rfl ha rfl⟩
  | @reach i via call next h =>
    have ha := o.handles _ _ h
    exact ⟨own, o.put h rfl ha (s.cloud.begin_content call)⟩
  | @answer i via call flight next r h =>
    obtain ⟨hcall, hnext⟩ := o.handles _ _ h
    exact ⟨_, o.answer h rfl hcall hnext (affects_land o.shares.attached he)⟩
  | @probe i r next call h hr hread =>
    have hcloud := (s.cloud.answers_call call).eq_of_read hread
    have hsame : s.activities = (s.put i (.going (.request r next))).activities :=
      congrArg activities (put_of_get h).symm
    exact ⟨own, o.put h hsame (o.handles _ _ h) hcloud⟩
  | wake x h hr => exact ⟨own, o.put h rfl (handles_of_isPoll (o.handles _ _ h) hr x) rfl⟩
  | close h hq => exact (o.handles _ _ h).elim
  | closeAgain h hq => exact (o.handles _ _ h).elim
  | closeReturns h hq => exact (o.handles _ _ h).elim

theorem Run.stocked (o : Stocked own w) (h : Run w es s) (hhonest : ∀ e ∈ es, e.IsHonest) :
    ∃ own', Stocked own' s := by
  induction h with
  | nil => exact ⟨own, o⟩
  | @snoc es s e s' h hs ih =>
    obtain ⟨own', o'⟩ := ih fun e he => hhonest e (List.mem_append_left _ he)
    exact o'.step hs (hhonest e (by simp))

/-- Operations that have yet to begin have no volumes. -/
theorem stocked_start {cloud : MemoryCloud} (hcloud : cloud.Attached) (queue : JobQueue Nat)
    {programs : List (Program α)} (h : ∀ x ∈ programs, x.Handles (fun _ _ => True) {}) :
    Stocked (fun _ => {}) (start queue cloud programs) where
  handles i a ha := by
    rw [start, List.getElem?_map] at ha
    obtain ⟨program, hi, rfl⟩ := Option.map_eq_some_iff.mp ha
    exact h program (List.mem_of_getElem? hi)
  shares := .start hcloud

/-- Attachments stay consistent. Let every volume that a server lists be there in the datacenter of
the server, no volume be listed twice or by two servers, and all ids in use have been issued. Then
this is so again in every state that creations, destructions and power operations lead to, however
they come between each other, whatever fails among their calls, and whatever the state of the
queues. -/
theorem attachments_consistent {operations : List NodeOperation} {queue : JobQueue Nat}
    {cloud : MemoryCloud} {s : Interplay NodeOperation.Result} (hcloud : cloud.Attached)
    (h : Run (start queue cloud (operations.map (·.program))) es s)
    (hhonest : ∀ e ∈ es, e.IsHonest) : s.cloud.Attached := by
  have hstart : Stocked (fun _ => {}) (start queue cloud (operations.map (·.program))) :=
    stocked_start hcloud queue fun x hx => by
      obtain ⟨o, -, rfl⟩ := List.mem_map.mp hx
      exact o.program_handles
  obtain ⟨own, o⟩ := h.stocked hstart hhonest
  exact o.shares.attached

/-- Two creations and a destruction go on in turn. One creation cannot attach its second volume and
deletes it, and the other one is rolled back for want of a network interface. -/
theorem attachments_consistent_in_turn :
    let cloud : MemoryCloud :=
      { issued := 3
        datacenters := [("dc-1", "de/fra")]
        volumes := [⟨"dc-1", "vol-2", "n", Number.singleOfNat 10, .available, none⟩]
        servers := [⟨⟨"dc-1", "srv-3"⟩, "n", 1, 1024, .available, .running, ["vol-2"], []⟩]
        failures := [("create_nic", 1), ("attach_volume", 1)] }
    let template (sizes : List Nat) : Lifecycle.Template :=
      { datacenter := "dc-1", region := some "de/fra", image := "img-1", password := some "secret"
        hardware := ⟨1, 1024, sizes⟩ }
    let operations : List NodeOperation :=
      [.create {} "a" (template [10, 20, 30]) fun _ => 0, .destroy {} "dc-1/srv-3",
        .create {} "b" (template [10]) fun _ => 0]
    ∃ es s, Run (start .empty cloud (operations.map (·.program))) es s ∧
      (s.result? 0).map Except.isOk = some true ∧ (s.result? 2).map Except.isOk = some false ∧
      s.cloud.servers.map (·.listing) = [(⟨"dc-1", "srv-10"⟩, ["vol-4", "vol-8"])] ∧
      s.cloud.volumes.map (·.ref) = [⟨"dc-1", "vol-4"⟩, ⟨"dc-1", "vol-8"⟩] ∧ s.cloud.Attached := by
  intro cloud template operations
  have hissued : cloud.AllIssued := by
    refine ⟨fun s hs x hx => ?_, fun dc hdc => ?_, fun v hv => ?_, fun b hb => (nomatch hb),
      fun i hi => (nomatch hi), fun s hs => (nomatch hs)⟩
    · obtain rfl := List.mem_singleton.mp hs
      obtain rfl := List.mem_singleton.mp hx
      exact ⟨"srv", 3, by decide, by decide, by decide⟩
    · obtain rfl := List.mem_singleton.mp hdc
      exact ⟨"dc", 1, by decide, by decide, by decide⟩
    · obtain rfl := List.mem_singleton.mp hv
      exact ⟨"vol", 2, by decide, by decide, by decide⟩
  have hcloud : cloud.Attached := ⟨by decide, by decide, hissued, by decide⟩
  let s := (start .empty cloud (operations.map (·.program))).turns ((List.range 240).map (· % 3))
  obtain ⟨es, hrun, hfaithful⟩ : ∃ es, Run _ es s ∧ ∀ e ∈ es, e.IsFaithful := exists_run_turns _ _
  exact ⟨es, s, hrun, by decide +kernel, by decide +kernel, by decide +kernel, by decide +kernel,
    attachments_consistent hcloud hrun fun e he => (hfaithful e he).isHonest⟩

end Interplay

end ComputePlane
