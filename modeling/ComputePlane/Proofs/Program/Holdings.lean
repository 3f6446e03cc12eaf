import Mathlib.Tactic.Tauto
import ComputePlane.Proofs.Program.Play

/-!
# What a program holds

A program that makes resources holds them until it deletes them. `Keeps Q h x` says of a program `x`
that holds `h`: its calls name only resources that it holds, and it ends with `Q` of what it then
holds and what it gives. It is a weakest precondition, by recursion on the program; each call may
give any result that is `Possible`, and each wait may end in any way. Programs are followed by
others (`Keeps.bind`, `Keeps.run_bind`).

Nothing is said of a cloud here. In which clouds the results of calls are possible is another
matter.
-/

namespace ComputePlane

/-! ## Assets -/

/-- A volume, a server or a block of addresses, by its ids. -/
inductive Asset where
  | volume (ref : VolumeRef)
  | server (id : NodeId)
  | ipBlock (id : String)
  deriving DecidableEq, Repr

namespace Call

/-- What a call attaches, deletes or changes. A server that starts from a volume has it attached. -/
def uses : Call → List Asset
  | deleteVolume v => [.volume v]
  | createServer dc r => r.bootVolume.toList.map fun id => .volume ⟨dc, id⟩
  | deleteServer s => [.server s]
  | attachVolume s v => [.server s, .volume ⟨s.datacenter, v⟩]
  | rebootServer s => [.server s]
  | startServer s => [.server s]
  | stopServer s => [.server s]
  | createNic s _ => [.server s]
  | deleteIpBlock b => [.ipBlock b]
  | createFirewallRule n _ => [.server n.server]
  | _ => []

def made? : (c : Call) → c.Result → Option Asset
  | createVolume dc _, .ok v => some (.volume ⟨dc, v.id⟩)
  | createServer dc _, .ok s => some (.server ⟨dc, s.id⟩)
  | createIpBlock _, .ok b => some (.ipBlock b.id)
  | _, _ => none

theorem made?_error (c : Call) (e : Error) : c.made? (.error e) = none := by
  cases c <;> rfl

/-- A call that reads names nothing. -/
theorem uses_of_read {c : Call} (h : c.isChange = false) : c.uses = [] := by
  cases c <;> first | rfl | cases h

/-- A delete or a read. -/
def isSpared : Call → Bool
  | deleteVolume _ => true
  | deleteServer _ => true
  | deleteIpBlock _ => true
  | c => !c.isChange

def isDelete : Call → Bool
  | deleteVolume _ => true
  | deleteServer _ => true
  | deleteIpBlock _ => true
  | _ => false

theorem isDelete_of_read {c : Call} (h : c.isChange = false) : c.isDelete = false := by
  cases c <;> first | rfl | cases h

/-- Only a change makes something. -/
theorem isChange_of_made {c : Call} {r : c.Result} {a : Asset} (h : c.made? r = some a) :
    c.isChange = true := by
  cases c <;> first | rfl | cases h

/-- A change that succeeds wherever what it names is there, unless it was set up to fail. A rule
needs a network interface besides, of which nothing is said here. -/
def isSure : Call → Bool
  | createFirewallRule .. => false
  | c => c.isChange && !c.isDelete

/-- A sure change has succeeded. -/
def Sure (c : Call) (r : c.Result) : Prop :=
  c.isSure = true → r.isOk = true

/-- A change that names nothing and succeeds makes something. -/
theorem exists_made {c : Call} (hc : c.isChange = true) (huses : c.uses = []) {r : c.Result}
    (hr : c.Sure r) : ∃ a, c.made? r = some a := by
  cases c with
  | createVolume | createServer | createIpBlock =>
    cases r with
    | ok x => exact ⟨_, rfl⟩
    | error e => exact absurd (hr rfl) Bool.false_ne_true
  | listDatacenters | getDatacenter | getVolume | getServer | listServers | getNic | listImages
  | getImage | listSnapshots | getSnapshot => cases hc
  | _ => cases huses

end Call

/-! ## Holdings -/

/-- Volumes, servers with the volumes they list, and blocks of addresses. -/
structure Holding where
  volumes : List VolumeRef := []
  servers : List (NodeId × List String) := []
  ipBlocks : List String := []
  deriving DecidableEq, Repr

namespace Holding

variable {h : Holding}

instance : Append Holding where
  append h k := ⟨h.volumes ++ k.volumes, h.servers ++ k.servers, h.ipBlocks ++ k.ipBlocks⟩

@[simp] theorem volumes_append (h k : Holding) : (h ++ k).volumes = h.volumes ++ k.volumes := rfl

@[simp] theorem servers_append (h k : Holding) : (h ++ k).servers = h.servers ++ k.servers := rfl

@[simp] theorem ipBlocks_append (h k : Holding) : (h ++ k).ipBlocks = h.ipBlocks ++ k.ipBlocks :=
  rfl

theorem append_empty (h : Holding) : h ++ ({} : Holding) = h := by
  obtain ⟨vs, ss, bs⟩ := h
  show Holding.mk (vs ++ []) (ss ++ []) (bs ++ []) = _
  simp only [List.append_nil]

/-- All that is held. -/
def assets (h : Holding) : List Asset :=
  h.volumes.map .volume ++ h.servers.map (.server ·.1) ++ h.ipBlocks.map .ipBlock

@[simp] theorem mem_assets_volume {v : VolumeRef} : .volume v ∈ h.assets ↔ v ∈ h.volumes := by
  simp [assets]

@[simp] theorem mem_assets_server {s : NodeId} :
    .server s ∈ h.assets ↔ s ∈ h.servers.map (·.1) := by
  simp [assets]

@[simp] theorem mem_assets_ipBlock {b : String} : .ipBlock b ∈ h.assets ↔ b ∈ h.ipBlocks := by
  simp [assets]

/-- Servers list only volumes that are held with them. -/
def Consistent (h : Holding) : Prop :=
  ∀ s ∈ h.servers, ∀ v ∈ s.2, ⟨s.1.datacenter, v⟩ ∈ h.volumes

/-- All that a call names is held. -/
def Permits (h : Holding) (c : Call) : Prop :=
  ∀ a ∈ c.uses, a ∈ h.assets

/-- The servers with the volumes of one of them changed. -/
def mapServer (id : NodeId) (f : List String → List String) (s : NodeId × List String) :
    NodeId × List String :=
  if s.1 = id then (s.1, f s.2) else s

@[simp] theorem mapServer_fst (id : NodeId) (f : List String → List String)
    (s : NodeId × List String) : (mapServer id f s).1 = s.1 := by
  unfold mapServer
  split <;> rfl

/-- What is held after a call with a result. -/
def after (h : Holding) : (c : Call) → c.Result → Holding
  | .createVolume dc _, .ok v => { h with volumes := h.volumes ++ [⟨dc, v.id⟩] }
  | .deleteVolume v, .ok _ =>
    { h with
      volumes := h.volumes.filter (· ≠ v)
      servers := h.servers.map fun s => (s.1, s.2.filter (· ≠ v.volume)) }
  | .createServer dc r, .ok s =>
    { h with servers := h.servers ++ [(⟨dc, s.id⟩, r.bootVolume.toList)] }
  | .deleteServer id, .ok _ => { h with servers := h.servers.filter (·.1 ≠ id) }
  | .attachVolume id v, .ok _ => { h with servers := h.servers.map (mapServer id (· ++ [v])) }
  | .createIpBlock _, .ok b => { h with ipBlocks := h.ipBlocks ++ [b.id] }
  | .deleteIpBlock b, .ok _ => { h with ipBlocks := h.ipBlocks.filter (· ≠ b) }
  | _, _ => h

/-- A call that fails changes nothing that is held. -/
theorem after_error (c : Call) (e : Error) : h.after c (.error e) = h := by
  cases c <;> rfl

/-- So does a call that reads. -/
theorem after_of_read {c : Call} (hc : c.isChange = false) (r : c.Result) : h.after c r = h := by
  cases c <;> first | rfl | cases hc

/-- After a call that deletes nothing, what was held and what the call has made is held. -/
theorem mem_assets_after_iff {c : Call} {r : c.Result} {a : Asset} (hc : c.isDelete = false) :
    a ∈ (h.after c r).assets ↔ a ∈ h.assets ∨ c.made? r = some a := by
  cases r with
  | error e => simp [after_error, Call.made?_error]
  | ok x =>
    cases c with
    | createVolume | createServer | createIpBlock =>
      cases a <;> simp [after, Call.made?, eq_comm]
    | deleteVolume | deleteServer | deleteIpBlock => cases hc
    | attachVolume id v =>
      have hids : (h.servers.map (mapServer id (· ++ [v]))).map (·.1) = h.servers.map (·.1) := by
        simp
      cases a with
      | server s => simp only [mem_assets_server, after, hids, Call.made?, reduceCtorEq, or_false]
      | volume | ipBlock => simp [after, Call.made?]
    | _ => simp [after, Call.made?]

/-- What is held after a call was held before, or the call has made it. -/
theorem mem_assets_after {c : Call} {r : c.Result} {a : Asset} (ha : a ∈ (h.after c r).assets) :
    a ∈ h.assets ∨ c.made? r = some a := by
  by_cases hc : c.isDelete = true
  · refine .inl ?_
    cases r with
    | error e => rwa [after_error] at ha
    | ok x =>
      cases c with
      | deleteVolume | deleteServer | deleteIpBlock =>
        cases a <;> simp [after] at ha ⊢ <;> tauto
      | _ => cases hc
  · exact (mem_assets_after_iff (Bool.eq_false_iff.mpr hc)).mp ha

/-- A call that names only what is held leaves servers that list only what is held. -/
theorem Consistent.after {c : Call} (hh : h.Consistent) (hc : h.Permits c) (r : c.Result) :
    (h.after c r).Consistent := by
  cases r with
  | error e => exact (h.after_error c e).symm ▸ hh
  | ok x =>
    cases c with
    | createVolume dc request => exact fun s hs v hv => List.mem_append_left _ (hh s hs v hv)
    | deleteVolume w =>
      intro s hs v hv
      obtain ⟨r, hr, rfl⟩ := List.mem_map.mp hs
      obtain ⟨hv, hne⟩ := List.mem_filter.mp hv
      refine List.mem_filter.mpr ⟨hh r hr v hv, ?_⟩
      simpa using fun heq => of_decide_eq_true hne (congrArg VolumeRef.volume heq)
    | createServer dc request =>
      intro s hs v hv
      rcases List.mem_append.mp hs with hs | hs
      · exact hh s hs v hv
      · obtain rfl := List.mem_singleton.mp hs
        have hheld : ⟨dc, v⟩ ∈ h.volumes :=
          mem_assets_volume.mp (hc _ (List.mem_map_of_mem hv))
        exact hheld
    | deleteServer id => exact fun s hs => hh s (List.mem_filter.mp hs).1
    | attachVolume id w =>
      intro s hs v hv
      obtain ⟨r, hr, rfl⟩ := List.mem_map.mp hs
      rw [mapServer_fst]
      unfold mapServer at hv
      split at hv
      · next hid =>
        rcases List.mem_append.mp hv with hv | hv
        · exact hh r hr v hv
        · obtain rfl := List.mem_singleton.mp hv
          have hheld : ⟨id.datacenter, v⟩ ∈ h.volumes :=
            mem_assets_volume.mp (hc _ (by simp [Call.uses]))
          exact hid ▸ hheld
      · exact hh r hr v hv
    | _ => exact hh

/-- What a call may give whose resources are held: new ids are not held yet, a new server has an id
that a node's text can have, deletes are carried out, and servers are found as they are. -/
def Possible (h : Holding) : (c : Call) → c.Result → Prop
  | .createVolume dc _, .ok v => ⟨dc, v.id⟩ ∉ h.volumes
  | .createServer _ _, .ok s => s.id ≠ "" ∧ '/' ∉ s.id.toList
  | .deleteVolume _, r => r = .ok ()
  | .deleteServer _, r => r = .ok ()
  | .deleteIpBlock _, r => r = .ok ()
  | .getServer id, r => ∀ vs, (id, vs) ∈ h.servers →
      ∃ s, r = .ok (some s) ∧ s.volumes.map (·.id) = vs
  | _, _ => True

/-- Any failure of a call is possible, unless it is spared. -/
theorem possible_error {c : Call} (hc : c.isSpared = false) (e : Error) :
    h.Possible c (.error e) := by
  cases c <;> trivial

end Holding

/-! ## Keeping to what is held -/

namespace Program

variable {α β : Type} {h : Holding}

/-- A program that holds `h` names only what it holds, and ends with `Q`. It does not close the
queues. -/
def Keeps (Q : Holding → α → Prop) : Holding → Program α → Prop
  | h, .done a => Q h a
  | h, .request (.call c) next =>
    h.Permits c ∧ ∀ r, h.Possible c r → Keeps Q (h.after c r) (next r)
  | h, .request (.submit _ c) next =>
    h.Permits c ∧ ∀ r, h.Possible c r → Keeps Q (h.after c r) (next r)
  | _, .request .close _ => False
  | h, .request (.pause _) next => Keeps Q h (next ())
  | h, .request (.await ..) next => ∀ x, Keeps Q h (next x)
  | h, .request (.gather ..) next => ∀ x, Keeps Q h (next x)
  | h, .request .fetch next => ∀ x, Keeps Q h (next x)

namespace Keeps

variable {Q : Holding → α → Prop} {R : Holding → β → Prop}

theorem pure {a : α} (ha : Q h a) : Keeps Q h (Pure.pure a) := ha

theorem mono {Q' : Holding → α → Prop} {x : Program α} (hx : Keeps Q h x)
    (hQ : ∀ h a, Q h a → Q' h a) : Keeps Q' h x := by
  induction x generalizing h with
  | done a => exact hQ h a hx
  | request r next ih =>
    cases r with
    | call c => exact ⟨hx.1, fun r hr => ih r (hx.2 r hr)⟩
    | submit dc c => exact ⟨hx.1, fun r hr => ih r (hx.2 r hr)⟩
    | pause d => exact ih () hx
    | await w p => exact fun x => ih x (hx x)
    | gather t w keys => exact fun x => ih x (hx x)
    | fetch => exact fun x => ih x (hx x)
    | close => exact hx

theorem bind {x : Program α} {f : α → Program β} (hx : Keeps Q h x)
    (hf : ∀ k a, Q k a → Keeps R k (f a)) : Keeps R h (x >>= f) := by
  induction x generalizing h with
  | done a => exact hf h a hx
  | request r next ih =>
    cases r with
    | call c => exact ⟨hx.1, fun r hr => ih r (hx.2 r hr)⟩
    | submit dc c => exact ⟨hx.1, fun r hr => ih r (hx.2 r hr)⟩
    | pause d => exact ih () hx
    | await w p => exact fun x => ih x (hx x)
    | gather t w keys => exact fun x => ih x (hx x)
    | fetch => exact fun x => ih x (hx x)
    | close => exact hx

/-- An operation goes on only after a success. -/
theorem run_bind {x : Operation α} {f : α → Operation β} {R : Holding → Except Error β → Prop}
    {Q : Holding → Except Error α → Prop} (hx : Keeps Q h x.run)
    (hok : ∀ k a, Q k (.ok a) → Keeps R k (f a).run)
    (herror : ∀ k e, Q k (.error e) → R k (.error e)) : Keeps R h (x >>= f).run := by
  rw [ExceptT.run_bind]
  refine hx.bind fun k r hr => ?_
  cases r with
  | ok a => exact hok k a hr
  | error e => exact herror k e hr

/-- What cannot fail is followed by what comes next. -/
theorem lift_bind {x : Program α} {f : α → Operation β} {R : Holding → Except Error β → Prop}
    (hx : Keeps Q h x) (hf : ∀ k a, Q k a → Keeps R k (f a).run) :
    Keeps R h ((liftM x : Operation α) >>= f).run := by
  refine run_bind (Q := fun k r => ∃ a, r = .ok a ∧ Q k a) ?_ ?_ ?_
  · exact hx.bind fun k a ha => ⟨a, rfl, ha⟩
  · rintro k a ⟨b, hb, ha⟩
    cases hb
    exact hf k a ha
  · rintro k e ⟨b, hb, -⟩
    cases hb

theorem call {c : Call} {Q : Holding → c.Result → Prop} (hc : h.Permits c)
    (hQ : ∀ r, h.Possible c r → Q (h.after c r) r) : Keeps Q h (Program.call c).run :=
  ⟨hc, hQ⟩

theorem of_reads {x : Program α} (hx : x.AsksOnly (isRead · = true)) :
    Keeps (fun k _ => k = h) h x := by
  induction x with
  | done a => rfl
  | request r next ih =>
    cases r with
    | call c =>
      have hc : c.isChange = false := by simpa [isRead] using hx.1
      refine ⟨fun a ha => ?_, fun r _ => ?_⟩
      · rw [Call.uses_of_read hc] at ha
        cases ha
      · rw [Holding.after_of_read hc]
        exact ih r (hx.2 r)
    | submit dc c => cases hx.1
    | close => cases hx.1
    | pause d => exact ih () (hx.2 ())
    | await w p => exact fun x => ih x (hx.2 x)
    | gather t w keys => exact fun x => ih x (hx.2 x)
    | fetch => exact fun x => ih x (hx.2 x)

/-- Whatever is waited for, what is held stays the same. -/
theorem await (p : PollPolicy) (w : Watch) : Keeps (fun k _ => k = h) h (Program.await p w) :=
  fun _ => rfl

theorem pause (d : Nat) : Keeps (fun k _ => k = h) h (Program.pause d) :=
  rfl

end Keeps

end Program

end ComputePlane
