import Mathlib.Data.List.Perm.Basic
import ComputePlane.Proofs.Cloud.NewServer
import ComputePlane.Proofs.Cloud.Setup
import ComputePlane.Proofs.Program.Holdings

/-!
# Holdings in a cloud

`Holds c h d`: the cloud `d` has the resources of `c` and those of the holding `h`, all of them made
since, in any order. A call that names only what is held is possible, and what it does to the cloud
is what it does to the holding; whatever else is held beside it stays as it is (`Holds.apply`).
-/

namespace ComputePlane

/-- The ids of a stored volume. -/
def StoredVolume.ref (v : StoredVolume) : VolumeRef := ⟨v.datacenter, v.id⟩

/-- A stored server and the volumes it lists. -/
def StoredServer.listing (s : StoredServer) : NodeId × List String := (s.id, s.volumes)

namespace MemoryCloud

variable {c d d' : MemoryCloud} {h p q : Holding} {call : Call}

/-- The resources of `d` are those of `c` and those of a holding, which were made since. -/
def Holds (c : MemoryCloud) (h : Holding) (d : MemoryCloud) : Prop :=
  ∃ vs ss bs, Grown c vs ss bs d ∧ (vs.map StoredVolume.ref).Perm h.volumes ∧
    (ss.map StoredServer.listing).Perm h.servers ∧ (bs.map (·.1)).Perm h.ipBlocks

namespace Holds

theorem refl (c : MemoryCloud) : Holds c {} c :=
  ⟨[], [], [], .refl c, .nil, .nil, .nil⟩

theorem content_iff : Holds c h d.content ↔ Holds c h d :=
  ⟨fun ⟨vs, ss, bs, g, hp⟩ => ⟨vs, ss, bs, { g with }, hp⟩,
    fun ⟨vs, ss, bs, g, hp⟩ => ⟨vs, ss, bs, { g with }, hp⟩⟩

/-- The order in which resources are held does not matter. -/
theorem perm {k : Holding} (H : Holds c h d) (hv : h.volumes.Perm k.volumes)
    (hs : h.servers.Perm k.servers) (hb : h.ipBlocks.Perm k.ipBlocks) : Holds c k d := by
  obtain ⟨vs, ss, bs, g, hvs, hss, hbs⟩ := H
  exact ⟨vs, ss, bs, g, hvs.trans hv, hss.trans hs, hbs.trans hb⟩

theorem issue (H : Holds c h d) : Holds c h { d with issued := d.issued + 1 } := by
  obtain ⟨vs, ss, bs, g, hp⟩ := H
  exact ⟨vs, ss, bs, g.issue, hp⟩

theorem issued_le (H : Holds c h d) : c.issued ≤ d.issued := by
  obtain ⟨vs, ss, bs, g, -⟩ := H
  exact g.issued

/-! ## What is held -/

/-- No two volumes that are held have the same id. -/
theorem nodupVolumes (H : Holds c h d) : (h.volumes.map (·.volume)).Nodup := by
  obtain ⟨vs, ss, bs, g, hvs, -⟩ := H
  have hids : (vs.map StoredVolume.ref).map (·.volume) = vs.map (·.id) := by
    rw [List.map_map]
    rfl
  exact (hvs.map _).nodup_iff.mp (hids ▸ g.nodupVolumes)

theorem nodupServers (H : Holds c h d) : (h.servers.map (·.1)).Nodup := by
  obtain ⟨vs, ss, bs, g, -, hss, -⟩ := H
  have hids : (ss.map StoredServer.listing).map (·.1) = ss.map (·.id) := by
    rw [List.map_map]
    rfl
  exact (hss.map _).nodup_iff.mp (hids ▸ g.nodupServers)

theorem nodupIpBlocks (H : Holds c h d) : h.ipBlocks.Nodup := by
  obtain ⟨vs, ss, bs, g, -, -, hbs⟩ := H
  exact hbs.nodup_iff.mp g.nodupIpBlocks

/-- Of two holdings side by side, one does not have the volumes of the other. -/
theorem volume_ne (H : Holds c (p ++ q) d) {v w : VolumeRef} (hv : v ∈ p.volumes)
    (hw : w ∈ q.volumes) : w.volume ≠ v.volume := by
  have hnodup := H.nodupVolumes
  rw [Holding.volumes_append, List.map_append, List.nodup_append] at hnodup
  exact (hnodup.2.2 _ (List.mem_map_of_mem hv) _ (List.mem_map_of_mem hw)).symm

theorem server_ne (H : Holds c (p ++ q) d) {id : NodeId} (hid : id ∈ p.servers.map (·.1))
    {s : NodeId × List String} (hs : s ∈ q.servers) : s.1 ≠ id := by
  have hnodup := H.nodupServers
  rw [Holding.servers_append, List.map_append, List.nodup_append] at hnodup
  exact (hnodup.2.2 _ hid _ (List.mem_map_of_mem hs)).symm

theorem ipBlock_ne (H : Holds c (p ++ q) d) {a b : String} (ha : a ∈ p.ipBlocks)
    (hb : b ∈ q.ipBlocks) : b ≠ a := by
  have hnodup := H.nodupIpBlocks
  rw [Holding.ipBlocks_append, List.nodup_append] at hnodup
  exact (hnodup.2.2 a ha b hb).symm

end Holds

/-! ## Making -/

/-- Something new beside what is held is held too. -/
theorem perm_append_new {α : Type} {xs ps qs : List α} {x : α} (h : xs.Perm (ps ++ qs)) :
    (xs ++ [x]).Perm (ps ++ [x] ++ qs) := by
  refine (h.append_right [x]).trans ?_
  rw [List.append_assoc, List.append_assoc]
  exact List.perm_append_comm.append_left ps

theorem Holds.createVolume (H : Holds c (p ++ q) d) {dc : String} {r : VolumeRequest} {v : Volume}
    (h : Answers d (.createVolume dc r) (.ok v) d') :
    p.Possible (.createVolume dc r) (.ok v) ∧
      Holds c (p.after (.createVolume dc r) (.ok v) ++ q) d' := by
  obtain ⟨vs, ss, bs, g, hvs, hss, hbs⟩ := H
  have g' := g.createVolume h
  have hnew : ⟨dc, v.id⟩ ∉ vs.map StoredVolume.ref := by
    intro hmem
    obtain ⟨w, hw, heq⟩ := List.mem_map.mp hmem
    have hnodup := g'.nodupVolumes
    rw [List.map_append, List.nodup_append] at hnodup
    exact hnodup.2.2 w.id (List.mem_map_of_mem hw) v.id (by simp [volumeFor])
      (congrArg VolumeRef.volume heq)
  refine ⟨fun hmem => hnew (hvs.mem_iff.mpr (List.mem_append_left _ hmem)), ?_⟩
  refine ⟨_, ss, bs, g', ?_, hss, hbs⟩
  rw [List.map_append]
  exact perm_append_new hvs

theorem Holds.createIpBlock (H : Holds c (p ++ q) d) {r : IpBlockRequest} {b : IpBlock}
    (h : Answers d (.createIpBlock r) (.ok b) d') :
    Holds c (p.after (.createIpBlock r) (.ok b) ++ q) d' := by
  obtain ⟨vs, ss, bs, g, hvs, hss, hbs⟩ := H
  refine ⟨vs, ss, _, g.createIpBlock h, hvs, hss, ?_⟩
  rw [List.map_append]
  exact perm_append_new hbs

theorem Holds.createServer (H : Holds c (p ++ q) d) {dc : String} {r : ServerRequest} {v : Server}
    (h : Answers d (.createServer dc r) (.ok v) d') :
    p.Possible (.createServer dc r) (.ok v) ∧
      Holds c (p.after (.createServer dc r) (.ok v) ++ q) d' := by
  obtain ⟨vs, ss, bs, g, hvs, hss, hbs⟩ := H
  have g' := g.createServer h
  refine ⟨?_, vs, _, bs, g', hvs, ?_, hbs⟩
  · obtain ⟨n, -, -, hn⟩ := g'.newServer (serverFor dc v.id r) (by simp)
    have hid : v.id = "srv" ++ "-" ++ Number.decimal n := hn
    show v.id ≠ "" ∧ '/' ∉ v.id.toList
    rw [hid]
    exact isPlain_issued n (by decide)
  · rw [List.map_append]
    exact perm_append_new hss

/-! ## Deleting -/

/-- What is taken out of what is held is not taken out of what is held beside it. -/
theorem perm_filter {α β κ : Type} [DecidableEq κ] {f : α → β} (key : β → κ) {k : κ} {xs : List α}
    {ps qs : List β} (h : (xs.map f).Perm (ps ++ qs)) (hqs : ∀ y ∈ qs, key y ≠ k) :
    ((xs.filter fun x => key (f x) ≠ k).map f).Perm (ps.filter (key · ≠ k) ++ qs) := by
  have hkeep : qs.filter (key · ≠ k) = qs :=
    List.filter_eq_self.mpr fun y hy => by simpa using hqs y hy
  have hfilter := h.filter (key · ≠ k)
  rw [List.filter_append, hkeep, List.filter_map] at hfilter
  exact hfilter

theorem filter_of_nodup {α β : Type} [DecidableEq β] {f : α → β} {xs ys : List α} {x : α}
    (h : ((xs ++ x :: ys).map f).Nodup) :
    (xs ++ x :: ys).filter (fun y => f y ≠ f x) = xs ++ ys := by
  have hnone : ∀ y ∈ ([] : List α), f y ≠ f x := fun _ hy => nomatch hy
  exact filter_append_ne hnone h

theorem Holds.deleteVolume (hc : c.IdsIssued) (hlist : c.ListsExisting) (H : Holds c (p ++ q) d)
    (hq : q.Consistent) {v : VolumeRef} (hv : v ∈ p.volumes) :
    Holds c (p.after (.deleteVolume v) (.ok ()) ++ q) (d.deleteVolume v) := by
  have hfree : ∀ s ∈ q.servers, v.volume ∉ s.2 := fun s hs hmem =>
    H.volume_ne hv (hq s hs v.volume hmem) rfl
  have hother : ∀ w ∈ q.volumes, w.volume ≠ v.volume := fun w hw => H.volume_ne hv hw
  have hids := H.nodupVolumes
  obtain ⟨vs, ss, bs, g, hvs, hss, hbs⟩ := H
  obtain ⟨w, hw, rfl⟩ := List.mem_map.mp (hvs.mem_iff.mpr (List.mem_append_left _ hv))
  obtain ⟨xs, ys, rfl⟩ := List.append_of_mem hw
  refine ⟨xs ++ ys, _, bs, g.deleteVolume hc hlist, ?volumes, ?servers, hbs⟩
  case volumes =>
    have hperm := perm_filter (·.volume) hvs hother
    rw [show ((xs ++ w :: ys).filter fun y => y.ref.volume ≠ w.ref.volume) = xs ++ ys from
      filter_of_nodup g.nodupVolumes] at hperm
    -- among the volumes that are held, an id is that of one volume
    have hsame : p.volumes.filter (·.volume ≠ w.ref.volume) = p.volumes.filter (· ≠ w.ref) := by
      refine List.filter_congr fun u hu => ?_
      rw [decide_eq_decide]
      refine not_congr ⟨fun heq => ?_, fun heq => heq ▸ rfl⟩
      exact List.inj_on_of_nodup_map hids (List.mem_append_left _ hu)
        (List.mem_append_left _ hv) heq
    rwa [hsame] at hperm
  case servers =>
    have hperm := hss.map fun s : NodeId × List String => (s.1, s.2.filter (· ≠ w.id))
    have hkeep : (q.servers.map fun s => (s.1, s.2.filter (· ≠ w.id))) = q.servers := by
      refine (List.map_congr_left fun s hs => ?_).trans (List.map_id _)
      refine Prod.ext rfl (List.filter_eq_self.mpr fun u hu => ?_)
      simpa using fun heq : u = w.id => hfree s hs (show w.id ∈ s.2 from heq ▸ hu)
    rw [Holding.servers_append, List.map_append, hkeep, List.map_map] at hperm
    rw [List.map_map]
    exact hperm

theorem Holds.deleteServer (hc : c.IdsIssued) (hdel : c.ignoreServerDeletes = false)
    (H : Holds c (p ++ q) d) {id : NodeId} (hid : id ∈ p.servers.map (·.1)) :
    Holds c (p.after (.deleteServer id) (.ok ()) ++ q) (d.deleteServer id) := by
  have hother : ∀ s ∈ q.servers, s.1 ≠ id := fun s hs => H.server_ne hid hs
  obtain ⟨vs, ss, bs, g, hvs, hss, hbs⟩ := H
  obtain ⟨r, hr, rfl⟩ := List.mem_map.mp hid
  obtain ⟨s, hs, rfl⟩ := List.mem_map.mp (hss.mem_iff.mpr (List.mem_append_left _ hr))
  obtain ⟨xs, ys, rfl⟩ := List.append_of_mem hs
  refine ⟨vs, xs ++ ys, bs, g.deleteServer hc hdel, hvs, ?_, hbs⟩
  have hperm := perm_filter (·.1) hss hother
  rwa [show ((xs ++ s :: ys).filter fun y => y.listing.1 ≠ s.listing.1) = xs ++ ys from
    filter_of_nodup g.nodupServers] at hperm

theorem Holds.deleteIpBlock (hc : c.IdsIssued) (H : Holds c (p ++ q) d) {b : String}
    (hb : b ∈ p.ipBlocks) :
    Holds c (p.after (.deleteIpBlock b) (.ok ()) ++ q) (d.deleteIpBlock b) := by
  have hother : ∀ a ∈ q.ipBlocks, a ≠ b := fun a ha => H.ipBlock_ne hb ha
  obtain ⟨vs, ss, bs, g, hvs, hss, hbs⟩ := H
  obtain ⟨a, ha, rfl⟩ := List.mem_map.mp (hbs.mem_iff.mpr (List.mem_append_left _ hb))
  obtain ⟨xs, ys, rfl⟩ := List.append_of_mem ha
  refine ⟨vs, ss, xs ++ ys, g.deleteIpBlock hc, hvs, hss, ?_⟩
  have hperm := perm_filter (fun b => b) hbs hother
  rwa [show ((xs ++ a :: ys).filter fun y => y.1 ≠ a.1) = xs ++ ys from
    filter_of_nodup g.nodupIpBlocks] at hperm

/-! ## Changing a server -/

/-- A server made since is changed, and no other. -/
theorem Grown.changeOneOf {vs : List StoredVolume} {ss : List StoredServer}
    {bs : List (String × List String)} (hc : c.IdsIssued) (g : Grown c vs ss bs d)
    {srv : StoredServer} (hsrv : srv ∈ ss) {f : StoredServer → StoredServer}
    (hf : ∀ s, (f s).id = s.id) :
    (d.changeServer srv.id f).1 = .ok () ∧
      Grown c vs (ss.map fun s => if s.id = srv.id then f s else s) bs
        (d.changeServer srv.id f).2 := by
  have hfound : (d.stored? srv.id).isSome = true := by
    refine List.find?_isSome.mpr ⟨srv, ?_, by simp⟩
    rw [g.servers]
    exact List.mem_append_right _ hsrv
  have hold : c.servers.map (fun s => if s.id = srv.id then f s else s) = c.servers := by
    refine (List.map_congr_left fun s hs => ?_).trans (List.map_id _)
    exact if_neg (g.server_ne hc hsrv s hs)
  have hids : ∀ s : StoredServer, (if s.id = srv.id then f s else s).id = s.id := by
    intro s
    split
    · exact hf s
    · rfl
  unfold MemoryCloud.changeServer
  rw [if_pos hfound]
  refine ⟨rfl, { g with servers := ?servers, newServer := ?new, nodupServers := ?nodup }⟩
  case servers =>
    unfold updateServer
    rw [g.servers, List.map_append, hold]
  case new =>
    intro s hs
    obtain ⟨r, hr, rfl⟩ := List.mem_map.mp hs
    rw [hids]
    exact g.newServer r hr
  case nodup =>
    rw [List.map_map, show StoredServer.id ∘ (fun s => if s.id = srv.id then f s else s) =
      StoredServer.id from funext hids]
    exact g.nodupServers

/-- A server that is held is changed: also the volumes that it lists, perhaps. -/
theorem Holds.changeServer (hc : c.IdsIssued) (H : Holds c (p ++ q) d) {id : NodeId}
    (hid : id ∈ p.servers.map (·.1)) {f : StoredServer → StoredServer}
    {φ : List String → List String} (hf : ∀ s, (f s).listing = (s.id, φ s.volumes)) :
    (d.changeServer id f).1 = .ok () ∧
      Holds c ({ p with servers := p.servers.map (Holding.mapServer id φ) } ++ q)
        (d.changeServer id f).2 := by
  have hother : ∀ s ∈ q.servers, s.1 ≠ id := fun s hs => H.server_ne hid hs
  obtain ⟨vs, ss, bs, g, hvs, hss, hbs⟩ := H
  obtain ⟨r, hr, rfl⟩ := List.mem_map.mp hid
  obtain ⟨srv, hsrv, rfl⟩ := List.mem_map.mp (hss.mem_iff.mpr (List.mem_append_left _ hr))
  obtain ⟨hok, g'⟩ := g.changeOneOf hc hsrv fun s => congrArg Prod.fst (hf s)
  refine ⟨hok, vs, _, bs, g', hvs, ?_, hbs⟩
  have hperm := hss.map (Holding.mapServer srv.id φ)
  have hkeep : q.servers.map (Holding.mapServer srv.id φ) = q.servers :=
    (List.map_congr_left fun s hs => if_neg (hother s hs)).trans (List.map_id _)
  rw [Holding.servers_append, List.map_append, hkeep, List.map_map] at hperm
  rw [List.map_map]
  refine (List.Perm.of_eq (List.map_congr_left fun s _ => ?_)).trans hperm
  simp only [Function.comp_apply, Holding.mapServer]
  show (if s.id = srv.id then f s else s).listing =
    if s.id = srv.id then (s.id, φ s.volumes) else s.listing
  split
  · exact hf s
  · rfl

theorem mapServer_id (id : NodeId) (ss : List (NodeId × List String)) :
    ss.map (Holding.mapServer id fun vs => vs) = ss := by
  refine (List.map_congr_left fun s _ => ?_).trans (List.map_id _)
  unfold Holding.mapServer
  split <;> rfl

/-- A server that is held is changed in another way than in what it lists. -/
theorem Holds.touchServer (hc : c.IdsIssued) (H : Holds c (p ++ q) d) {id : NodeId}
    (hid : id ∈ p.servers.map (·.1)) {f : StoredServer → StoredServer}
    (hf : ∀ s, (f s).listing = s.listing) :
    (d.changeServer id f).1 = .ok () ∧ Holds c (p ++ q) (d.changeServer id f).2 := by
  have hchange := H.changeServer hc hid (φ := fun vs => vs) hf
  rwa [mapServer_id] at hchange

/-- A server that is held is told as it is: with all the volumes that it lists. -/
theorem Holds.server? (hc : c.IdsIssued) (H : Holds c (p ++ q) d) (hp : p.Consistent)
    {id : NodeId} {vs : List String} (hs : (id, vs) ∈ p.servers) :
    ∃ s, d.server? id = some s ∧ s.volumes.map (·.id) = vs := by
  obtain ⟨ws, ss, bs, g, hws, hss, hbs⟩ := H
  obtain ⟨s, hmem, heq⟩ := List.mem_map.mp (hss.mem_iff.mpr (List.mem_append_left _ hs))
  obtain ⟨rfl, rfl⟩ := Prod.mk.inj heq
  have hstored : d.stored? s.id = some s := by
    refine find?_of_unique (by simp [g.servers, hmem]) (by simp) fun r hr hid => ?_
    rw [g.servers] at hr
    have hid : r.id = s.id := by simpa using hid
    rcases List.mem_append.mp hr with hr | hr
    · exact absurd hid (g.server_ne hc hmem r hr)
    · exact List.inj_on_of_nodup_map g.nodupServers hr hmem hid
  refine ⟨d.tellServer s, by rw [MemoryCloud.server?, hstored]; rfl, ?_⟩
  show ((s.volumes.filterMap (d.volume? s.id.datacenter)).map (·.id)) = s.volumes
  rw [List.map_filterMap]
  refine (List.filterMap_congr fun v hv => ?_).trans List.filterMap_some
  obtain ⟨w, hw, href⟩ := List.mem_map.mp
    (hws.mem_iff.mpr (List.mem_append_left _ (hp _ hs v hv)))
  obtain ⟨hdc, rfl⟩ := VolumeRef.mk.inj href
  have htold := g.volume?_new hc hw
  rw [hdc] at htold
  rw [htold]
  rfl

theorem Holds.createFirewallRule (hc : c.IdsIssued) (H : Holds c (p ++ q) d) {n : NicRef}
    (hid : n.server ∈ p.servers.map (·.1)) (r : FirewallRuleRequest) :
    Holds c (p ++ q) (d.createFirewallRule n r).2 := by
  have H₁ : Holds c (p ++ q) (d.issue "fw").2 := H.issue
  simp only [MemoryCloud.createFirewallRule]
  split
  · exact H₁
  · next s hs =>
    split
    · exact H₁
    · obtain ⟨-, H'⟩ := H₁.touchServer hc hid (f := fun s => { s with
        nics := s.nics.map fun m =>
          if m.id = n.nic then { m with rules := m.rules ++ [(r.portRangeStart, r.portRangeEnd)] }
          else m }) fun _ => rfl
      have hfound : ((d.issue "fw").2.stored? n.server).isSome = true := by simp [hs]
      rw [MemoryCloud.changeServer, if_pos hfound] at H'
      exact H'

/-- A server that is held is there. -/
theorem Holds.isSome_stored? (H : Holds c (p ++ q) d) {id : NodeId}
    (hid : id ∈ p.servers.map (·.1)) : (d.stored? id).isSome = true := by
  obtain ⟨vs, ss, bs, g, -, hss, -⟩ := H
  obtain ⟨r, hr, rfl⟩ := List.mem_map.mp hid
  obtain ⟨srv, hsrv, rfl⟩ := List.mem_map.mp (hss.mem_iff.mpr (List.mem_append_left _ hr))
  refine List.find?_isSome.mpr ⟨srv, ?_, by simp [StoredServer.listing]⟩
  rw [g.servers]
  exact List.mem_append_right _ hsrv

/-! ## Any call -/

/-- A call that names only what is held and deletes nothing gives what is possible, and does to the
cloud what it does to the holding. What is held beside it stays as it is. -/
theorem Holds.apply_of_not_delete (hc : c.IdsIssued) (H : Holds c (p ++ q) d) (hp : p.Consistent)
    (hcall : p.Permits call) (hdelete : call.isDelete = false) :
    p.Possible call (d.apply call).1 ∧
      Holds c (p.after call (d.apply call).1 ++ q) (d.apply call).2 := by
  have hserver : ∀ {id}, .server id ∈ call.uses → id ∈ p.servers.map (·.1) :=
    fun hid => Holding.mem_assets_server.mp (hcall _ hid)
  cases call with
  | createVolume dc r => exact H.createVolume (.applied rfl)
  | createServer dc r => exact H.createServer (.applied rfl)
  | createIpBlock r => exact ⟨trivial, H.createIpBlock (.applied rfl)⟩
  | deleteVolume | deleteServer | deleteIpBlock => cases hdelete
  | attachVolume id v =>
    obtain ⟨hok, H'⟩ := H.changeServer hc (hserver List.mem_cons_self) (φ := (· ++ [v]))
      (f := fun s => { s with
        volumes := s.volumes ++ [v], state := if d.busyAfterAttach then .busy else s.state })
      fun _ => rfl
    have hdone : (d.apply (.attachVolume id v)).1 = .ok () := hok
    rw [hdone]
    exact ⟨trivial, H'⟩
  | rebootServer id | startServer id =>
    exact ⟨trivial, (H.touchServer hc (hserver List.mem_cons_self)
      (f := fun s => { s with vmState := .running }) fun _ => rfl).2⟩
  | stopServer id =>
    exact ⟨trivial, (H.touchServer hc (hserver List.mem_cons_self)
      (f := fun s => { s with vmState := .shutoff }) fun _ => rfl).2⟩
  | createNic id r =>
    have H₁ : Holds c (p ++ q) (d.issue "nic").2 := H.issue
    exact ⟨trivial, (H₁.touchServer hc (hserver List.mem_cons_self)
      (f := fun s => { s with
        nics := s.nics ++ [⟨(d.issue "nic").1, r.ips, r.lan, r.firewallActive, []⟩] })
      fun _ => rfl).2⟩
  | createFirewallRule n r =>
    exact ⟨trivial, H.createFirewallRule hc (hserver List.mem_cons_self) r⟩
  | getServer id =>
    refine ⟨fun vs hs => ?_, H⟩
    obtain ⟨s, hfound, hlisted⟩ := H.server? hc hp hs
    exact ⟨s, congrArg Except.ok hfound, hlisted⟩
  | _ => exact ⟨trivial, H⟩

/-- A sure change of what is held succeeds. -/
theorem Holds.sure_apply (H : Holds c (p ++ q) d) (hcall : p.Permits call) :
    call.Sure (d.apply call).1 := by
  intro hsure
  have hchanged : ∀ {id} {e : MemoryCloud} {f}, .server id ∈ call.uses → e.servers = d.servers →
      (e.changeServer id f).1 = .ok () := by
    intro id e f hid he
    have hfound := H.isSome_stored? (Holding.mem_assets_server.mp (hcall _ hid))
    rw [MemoryCloud.changeServer, if_pos (by rwa [MemoryCloud.stored?, he])]
  cases call with
  | createVolume | createServer | createIpBlock => rfl
  | attachVolume id v | rebootServer id | startServer id | stopServer id =>
    exact congrArg Except.isOk (hchanged List.mem_cons_self rfl)
  | createNic id r =>
    have hservers : (d.issue "nic").2.servers = d.servers := rfl
    simp only [MemoryCloud.apply, MemoryCloud.createNic]
    rw [hchanged List.mem_cons_self hservers]
    rfl
  | _ => cases hsure

/-- So does a call that deletes, if deletes are carried out. -/
theorem Holds.apply (hc : c.IdsIssued) (hlist : c.ListsExisting)
    (hdel : c.ignoreServerDeletes = false) (H : Holds c (p ++ q) d) (hp : p.Consistent)
    (hq : q.Consistent) (hcall : p.Permits call) :
    p.Possible call (d.apply call).1 ∧
      Holds c (p.after call (d.apply call).1 ++ q) (d.apply call).2 := by
  by_cases hdelete : call.isDelete = true
  · cases call with
    | deleteVolume v =>
      have hv : v ∈ p.volumes := Holding.mem_assets_volume.mp (hcall _ List.mem_cons_self)
      exact ⟨rfl, H.deleteVolume hc hlist hq hv⟩
    | deleteServer id =>
      have hid : id ∈ p.servers.map (·.1) :=
        Holding.mem_assets_server.mp (hcall _ List.mem_cons_self)
      exact ⟨rfl, H.deleteServer hc hdel hid⟩
    | deleteIpBlock b =>
      have hb : b ∈ p.ipBlocks := Holding.mem_assets_ipBlock.mp (hcall _ List.mem_cons_self)
      exact ⟨rfl, H.deleteIpBlock hc hb⟩
    | _ => cases hdelete
  · exact H.apply_of_not_delete hc hp hcall (Bool.eq_false_iff.mpr hdelete)

/-! ## Dependable clouds -/

/-- A cloud that can have come about, whose servers list only volumes that are there. Deletes are
carried out, and no read or delete is to fail. -/
structure Dependable (c : MemoryCloud) : Prop where
  reachable : c.Reachable
  listsExisting : c.ListsExisting
  deletes : c.ignoreServerDeletes = false
  spares : ∀ call : Call, call.isSpared = true → ∀ n, (call.name, n) ∉ c.failures

/-- A call that begins is not to fail if it is spared. -/
theorem Dependable.spares_begin (hc : c.Dependable) (hd : d.setup = c.setup) {e : Error}
    (h : (d.begin call).1 = some e) : call.isSpared = false := by
  obtain ⟨⟨n, hn⟩, -⟩ := begin_failure h
  rw [show d.failures = c.failures from congrArg Prod.snd hd] at hn
  exact Bool.eq_false_iff.mpr fun hspared => hc.spares call hspared n hn

/-- A call that comes to its end does to what is held what it does to the cloud. -/
theorem Holds.finish (hc : c.Dependable) (H : Holds c (p ++ q) d) (hp : p.Consistent)
    (hq : q.Consistent) (hcall : p.Permits call) {failure : Option Error}
    (hspares : ∀ e, failure = some e → call.isSpared = false) :
    p.Possible call (d.finish call failure).1 ∧
      Holds c (p.after call (d.finish call failure).1 ++ q) (d.finish call failure).2 := by
  rw [← content_iff]
  cases failure with
  | some e =>
    obtain ⟨hresult, hcontent⟩ := d.finish_some call e
    rw [hresult, hcontent, Holding.after_error, content_iff]
    exact ⟨Holding.possible_error (hspares e rfl) e, H⟩
  | none =>
    obtain ⟨hresult, hcontent⟩ := d.finish_none call
    rw [hresult, hcontent]
    exact (content_iff.mpr H).apply hc.reachable.idsIssued hc.listsExisting hc.deletes hp hq hcall

/-! ## New assets -/

/-- The id of an asset was issued. -/
def HasIssuedAsset (c : MemoryCloud) : Asset → Prop
  | .volume v => c.HasIssued "vol" v.volume
  | .server s => c.HasIssued "srv" s.server
  | .ipBlock b => c.HasIssued "ipb" b

theorem HasIssuedAsset.mono {a : Asset} (h : c.HasIssuedAsset a) (hle : c.issued ≤ d.issued) :
    d.HasIssuedAsset a := by
  cases a with
  | volume v => exact HasIssued.mono h hle
  | server s => exact HasIssued.mono h hle
  | ipBlock b => exact HasIssued.mono h hle

/-- What a call makes has an id that is issued now and was not before. -/
theorem hasIssuedAsset_of_made {a : Asset} (h : call.made? (d.apply call).1 = some a) :
    ¬d.HasIssuedAsset a ∧ (d.apply call).2.HasIssuedAsset a := by
  have hnew : ∀ kind, d.HasIssued kind (d.issue kind).1 → False := fun kind h => h.ne_issue rfl
  cases call with
  | createVolume dc r =>
    cases h
    exact ⟨hnew "vol", d.issued + 1, Nat.le_refl _, rfl⟩
  | createServer dc r =>
    cases h
    exact ⟨hnew "srv", d.issued + 1, Nat.le_refl _, rfl⟩
  | createIpBlock r =>
    cases h
    exact ⟨hnew "ipb", d.issued + 1, Nat.le_refl _, rfl⟩
  | _ => cases h

theorem issued_le_finish (d : MemoryCloud) (call : Call) (failure : Option Error) :
    d.issued ≤ (d.finish call failure).2.issued := by
  show _ ≤ (d.finish call failure).2.content.issued
  cases failure with
  | some e =>
    rw [(d.finish_some call e).2]
    exact Nat.le_refl _
  | none =>
    rw [(d.finish_none call).2]
    exact d.content.issued_le_apply call

theorem hasIssuedAsset_of_finish {failure : Option Error} {a : Asset}
    (h : call.made? (d.finish call failure).1 = some a) :
    ¬d.HasIssuedAsset a ∧ (d.finish call failure).2.HasIssuedAsset a := by
  cases failure with
  | some e =>
    rw [(d.finish_some call e).1, Call.made?_error] at h
    cases h
  | none =>
    obtain ⟨hresult, hcontent⟩ := d.finish_none call
    rw [hresult] at h
    obtain ⟨hbefore, hafter⟩ := hasIssuedAsset_of_made h
    rw [← hcontent] at hafter
    exact ⟨fun h => hbefore (h.mono (Nat.le_refl _)), hafter.mono (Nat.le_refl _)⟩

def HasAsset (c : MemoryCloud) : Asset → Prop
  | .volume v => ∃ w ∈ c.volumes, w.ref = v
  | .server id => ∃ s ∈ c.servers, s.id = id
  | .ipBlock b => ∃ a ∈ c.ipBlocks, a.1 = b

instance (c : MemoryCloud) : DecidablePred c.HasAsset
  | .volume v => inferInstanceAs (Decidable (∃ w ∈ c.volumes, w.ref = v))
  | .server id => inferInstanceAs (Decidable (∃ s ∈ c.servers, s.id = id))
  | .ipBlock b => inferInstanceAs (Decidable (∃ a ∈ c.ipBlocks, a.1 = b))

theorem IdsIssued.hasIssuedAsset {a : Asset} (hc : c.IdsIssued) (ha : c.HasAsset a) :
    c.HasIssuedAsset a := by
  cases a with
  | volume v =>
    obtain ⟨w, hw, rfl⟩ := ha
    exact hc.volume w hw
  | server id =>
    obtain ⟨s, hs, rfl⟩ := ha
    exact hc.server s.id (List.mem_map_of_mem hs)
  | ipBlock b =>
    obtain ⟨a, ha, rfl⟩ := ha
    exact hc.ipBlock a ha

/-- What is held was not there before. -/
theorem Holds.not_hasAsset (hc : c.IdsIssued) (H : Holds c h d) {a : Asset} (ha : a ∈ h.assets) :
    ¬c.HasAsset a := by
  obtain ⟨vs, ss, bs, g, hvs, hss, hbs⟩ := H
  cases a with
  | volume v =>
    rw [Holding.mem_assets_volume, ← hvs.mem_iff] at ha
    obtain ⟨w, hw, rfl⟩ := List.mem_map.mp ha
    rintro ⟨u, hu, heq⟩
    exact g.volume_ne hc hw u hu (congrArg VolumeRef.volume heq)
  | server id =>
    rw [Holding.mem_assets_server, ← (hss.map (·.1)).mem_iff, List.map_map] at ha
    obtain ⟨s, hs, rfl⟩ := List.mem_map.mp ha
    rintro ⟨r, hr, heq⟩
    exact g.server_ne hc hs r hr heq
  | ipBlock b =>
    rw [Holding.mem_assets_ipBlock, ← hbs.mem_iff] at ha
    obtain ⟨x, hx, rfl⟩ := List.mem_map.mp ha
    rintro ⟨y, hy, heq⟩
    exact g.ipBlock_ne hc hx y hy heq

/-- What is there was there before or is held. -/
theorem Holds.hasAsset_iff (H : Holds c h d) {a : Asset} :
    d.HasAsset a ↔ c.HasAsset a ∨ a ∈ h.assets := by
  obtain ⟨vs, ss, bs, g, hvs, hss, hbs⟩ := H
  cases a with
  | volume v =>
    rw [Holding.mem_assets_volume, ← hvs.mem_iff]
    simp only [HasAsset, g.volumes, List.mem_append, List.mem_map, or_and_right, exists_or]
  | server id =>
    have hservers := (hss.map (·.1)).mem_iff (a := id)
    rw [Holding.mem_assets_server, ← hservers]
    simp only [HasAsset, g.servers, List.mem_append, List.mem_map, or_and_right, exists_or,
      exists_exists_and_eq_and, StoredServer.listing]
  | ipBlock b =>
    rw [Holding.mem_assets_ipBlock, ← hbs.mem_iff]
    simp only [HasAsset, g.ipBlocks, List.mem_append, List.mem_map, or_and_right, exists_or]

end MemoryCloud

end ComputePlane
