import Mathlib.Data.List.Nodup
import ComputePlane.Proofs.Cloud.Grown

/-!
# What becomes of a new server

Calls that are about the one server that a cloud has grown by change that server and nothing else
(`Grown.attachVolume`, `Grown.createNic`, `Grown.createFirewallRule`, `Grown.rebootServer`). It is
told as it is stored, with all of its volumes (`Grown.server?_new`).
-/

namespace ComputePlane.MemoryCloud

variable {c d d' : MemoryCloud} {vs : List StoredVolume} {ss : List StoredServer}
  {srv : StoredServer} {bs : List (String × List String)}

/-! ## Looking up -/

/-- The only item that is looked for is found. -/
theorem find?_of_unique {α : Type} {p : α → Bool} {xs : List α} {x : α} (hx : x ∈ xs) (hp : p x)
    (hone : ∀ y ∈ xs, p y → y = x) : xs.find? p = some x := by
  cases hfind : xs.find? p with
  | none => exact absurd hp (List.find?_eq_none.mp hfind x hx)
  | some y => rw [hone y (List.mem_of_find?_eq_some hfind) (List.find?_some hfind)]

theorem of_stored? {id : NodeId} {r : StoredServer} (h : c.stored? id = some r) :
    r ∈ c.servers ∧ r.id = id :=
  ⟨List.mem_of_find?_eq_some h, by simpa using List.find?_some h⟩

/-- The same servers are found when servers are changed but for their ids. -/
theorem stored?_map {f : StoredServer → StoredServer} (hf : ∀ r, (f r).id = r.id)
    (h : d.servers = c.servers.map f) (id : NodeId) : d.stored? id = (c.stored? id).map f := by
  have hcomp : (fun r : StoredServer => decide (r.id = id)) ∘ f = fun r => decide (r.id = id) :=
    funext fun r => by rw [Function.comp_apply, hf]
  rw [stored?, h, List.find?_map, hcomp]
  rfl

theorem Grown.stored?_new (hc : c.IdsIssued) (g : Grown c vs [srv] bs d) :
    d.stored? srv.id = some srv := by
  refine find?_of_unique (by simp [g.servers]) (by simp) fun r hr hid => ?_
  rw [g.servers] at hr
  rcases List.mem_append.mp hr with hr | hr
  · exact absurd (by simpa using hid) (g.server_ne hc (by simp) r hr)
  · exact List.mem_singleton.mp hr

theorem Grown.volume?_new (hc : c.IdsIssued) (g : Grown c vs ss bs d) {w : StoredVolume}
    (hw : w ∈ vs) : d.volume? w.datacenter w.id = some (tellVolume w) := by
  refine congrArg (Option.map tellVolume) (find?_of_unique (by simp [g.volumes, hw]) (by simp) ?_)
  intro v hv hid
  rw [g.volumes] at hv
  have hid : v.id = w.id := (by simpa using hid : v.datacenter = w.datacenter ∧ v.id = w.id).2
  rcases List.mem_append.mp hv with hv | hv
  · exact absurd hid (g.volume_ne hc hw v hv)
  · exact List.inj_on_of_nodup_map g.nodupVolumes hv hw hid

/-! ## Changing it -/

theorem Grown.changeServer (hc : c.IdsIssued) (g : Grown c vs [srv] bs d)
    {f : StoredServer → StoredServer} (hf : (f srv).id = srv.id) :
    (d.changeServer srv.id f).1 = .ok () ∧ Grown c vs [f srv] bs (d.changeServer srv.id f).2 := by
  have hstored := g.stored?_new hc
  unfold MemoryCloud.changeServer
  rw [if_pos (by rw [hstored]; rfl)]
  have hservers : (d.updateServer srv.id f).servers = c.servers ++ [f srv] := by
    have hold : c.servers.map (fun s => if s.id = srv.id then f s else s) = c.servers := by
      refine (List.map_congr_left fun s hs => ?_).trans (List.map_id _)
      exact if_neg (g.server_ne hc (by simp) s hs)
    unfold updateServer
    rw [g.servers, List.map_append, hold]
    simp
  exact ⟨rfl, { g with
    servers := hservers
    newServer := by
      intro s hs
      obtain rfl := List.mem_singleton.mp hs
      rw [hf]
      exact g.newServer srv (by simp)
    nodupServers := by simp }⟩

/-- A server with further volumes; a cloud can be busy with them. -/
def attached (busy : Bool) (volumes : List String) (s : StoredServer) : StoredServer :=
  { s with
    volumes := s.volumes ++ volumes
    state := if busy = true ∧ volumes ≠ [] then .busy else s.state }

theorem attached_nil (busy : Bool) (s : StoredServer) : attached busy [] s = s := by
  simp [attached]

theorem attached_cons (busy : Bool) (volume : String) (volumes : List String) (s : StoredServer) :
    attached busy (volume :: volumes) s = attached busy volumes (attached busy [volume] s) := by
  cases busy <;> simp [attached]

/-- The network interface that a request makes under an id. -/
def nicFor (id : String) (r : NicRequest) : StoredNic := ⟨id, r.ips, r.lan, r.firewallActive, []⟩

theorem attachVolume_eq (c : MemoryCloud) (id : NodeId) (volume : String) :
    c.attachVolume id volume = c.changeServer id (attached c.busyAfterAttach [volume]) := by
  refine congrArg (c.changeServer id) (funext fun s => ?_)
  simp [attached]

theorem Grown.attachVolume (hc : c.IdsIssued) (g : Grown c vs [srv] bs d) {volume : String}
    {r : (Call.attachVolume srv.id volume).Result}
    (h : Answers d (.attachVolume srv.id volume) r d') :
    r = .ok () ∧ Grown c vs [attached c.busyAfterAttach [volume] srv] bs d' ∨
      ∃ e, r = .error e ∧ Grown c vs [srv] bs d' := by
  cases h with
  | @failed e he => exact .inr ⟨e, rfl, g⟩
  | applied happ =>
    obtain ⟨hok, hgrown⟩ := g.changeServer hc (f := attached d.busyAfterAttach [volume]) rfl
    rw [apply, attachVolume_eq] at happ
    obtain ⟨rfl, rfl⟩ := Prod.mk.inj happ
    rw [← g.busy]
    exact .inl ⟨hok, hgrown⟩

/-- A running server that is restarted is running. -/
theorem Grown.rebootServer (hc : c.IdsIssued) (g : Grown c vs [srv] bs d)
    (hrunning : srv.vmState = .running) {r : (Call.rebootServer srv.id).Result}
    (h : Answers d (.rebootServer srv.id) r d') : Grown c vs [srv] bs d' := by
  cases h with
  | failed => exact g
  | applied happ =>
    have hsame : { srv with vmState := .running } = srv := by rw [← hrunning]
    obtain ⟨-, hgrown⟩ := g.changeServer hc (f := fun s => { s with vmState := .running }) rfl
    obtain ⟨-, rfl⟩ := Prod.mk.inj happ
    rw [hsame] at hgrown
    exact hgrown

theorem Grown.createNic (hc : c.IdsIssued) (g : Grown c vs [srv] bs d) {r : NicRequest} {nic : Nic}
    (h : Answers d (.createNic srv.id r) (.ok nic) d') :
    Grown c vs [{ srv with nics := srv.nics ++ [nicFor nic.id r] }] bs d' := by
  cases h with
  | applied happ =>
    let add (s : StoredServer) : StoredServer :=
      { s with nics := s.nics ++ [nicFor (d.issue "nic").1 r] }
    obtain ⟨hok, hgrown⟩ := g.issue.changeServer hc (f := add) rfl
    have hcreate : (((d.issue "nic").2.changeServer srv.id add).1.map fun _ =>
        tellNic .busy (nicFor (d.issue "nic").1 r),
          ((d.issue "nic").2.changeServer srv.id add).2) = (Except.ok nic, d') := happ
    obtain ⟨hnic, rfl⟩ := Prod.mk.inj hcreate
    have hdone : ((d.issue "nic").2.changeServer srv.id add).1 = .ok () := hok
    rw [hdone] at hnic
    cases hnic
    exact hgrown

/-- A rule opens its ports at the only network interface, or there is none. -/
theorem Grown.createFirewallRule (hc : c.IdsIssued) (g : Grown c vs [srv] bs d) {n : StoredNic}
    (hn : srv.nics = [n]) {r : FirewallRuleRequest}
    {x : (Call.createFirewallRule ⟨srv.id, n.id⟩ r).Result}
    (h : Answers d (.createFirewallRule ⟨srv.id, n.id⟩ r) x d') :
    (∃ a, x = .ok a ∧ Grown c vs [{ srv with
        nics := [{ n with rules := n.rules ++ [(r.portRangeStart, r.portRangeEnd)] }] }] bs d') ∨
      ∃ e, x = .error e ∧ Grown c vs [srv] bs d' := by
  cases h with
  | @failed e he => exact .inr ⟨e, rfl, g⟩
  | applied happ =>
    let add (m : StoredNic) : StoredNic :=
      if m.id = n.id then { m with rules := m.rules ++ [(r.portRangeStart, r.portRangeEnd)] } else m
    obtain ⟨-, hgrown⟩ :=
      g.issue.changeServer hc (f := fun s => { s with nics := s.nics.map add }) rfl
    have hstored : (d.issue "fw").2.stored? srv.id = some srv := g.issue.stored?_new hc
    have hfind : ([n].find? (·.id = n.id)).isNone = false := by simp
    have hadd : srv.nics.map add =
        [{ n with rules := n.rules ++ [(r.portRangeStart, r.portRangeEnd)] }] := by simp [hn, add]
    rw [MemoryCloud.changeServer, if_pos (by rw [g.issue.stored?_new hc]; rfl), hadd] at hgrown
    simp only [apply, MemoryCloud.createFirewallRule, hstored, hn, hfind] at happ
    obtain ⟨rfl, rfl⟩ := Prod.mk.inj happ
    exact .inl ⟨_, rfl, hgrown⟩

/-! ## Deleting volumes -/

/-- A volume that is not attached is deleted from what a cloud has grown by, or is still there. -/
theorem Grown.deleteUnattached (hc : c.IdsIssued) (hlist : c.ListsExisting)
    (g : Grown c vs [srv] bs d) {w : StoredVolume} (hw : w ∈ vs) (hfree : w.id ∉ srv.volumes)
    {r : (Call.deleteVolume ⟨w.datacenter, w.id⟩).Result}
    (h : Answers d (.deleteVolume ⟨w.datacenter, w.id⟩) r d') :
    (r = .ok () ∧ Grown c (vs.filter (·.id ≠ w.id)) [srv] bs d') ∨
      ∃ e, r = .error e ∧ Grown c vs [srv] bs d' := by
  cases h with
  | @failed e he => exact .inr ⟨e, rfl, g⟩
  | applied happ =>
    obtain ⟨rfl, rfl⟩ := Prod.mk.inj happ
    obtain ⟨xs, ys, rfl⟩ := List.append_of_mem hw
    have hfilter : (xs ++ w :: ys).filter (·.id ≠ w.id) = xs ++ ys := by
      have hnone : ∀ y ∈ ([] : List StoredVolume), y.id ≠ w.id := fun y hy => nomatch hy
      simpa using filter_append_ne hnone g.nodupVolumes
    have hgrown := g.deleteVolume hc hlist
    rw [map_detach (by simpa using hfree)] at hgrown
    rw [hfilter]
    exact .inl ⟨rfl, hgrown⟩

/-! ## What is told of it -/

/-- A server whose volumes are all new is told with all of them. -/
theorem Grown.server?_new (hc : c.IdsIssued) (g : Grown c vs [srv] bs d)
    (hvolumes : ∀ id ∈ srv.volumes, ∃ w ∈ vs, w.id = id ∧ w.datacenter = srv.id.datacenter) :
    d.server? srv.id = some (d.tellServer srv) ∧
      (d.tellServer srv).volumes.map (·.id) = srv.volumes := by
  refine ⟨by rw [server?, g.stored?_new hc]; rfl, ?_⟩
  show ((srv.volumes.filterMap (d.volume? srv.id.datacenter)).map (·.id)) = srv.volumes
  rw [List.map_filterMap]
  refine (List.filterMap_congr fun id hid => ?_).trans List.filterMap_some
  obtain ⟨w, hw, rfl, hdc⟩ := hvolumes id hid
  rw [← hdc, g.volume?_new hc hw]
  rfl

end ComputePlane.MemoryCloud
