import ComputePlane.Proofs.Cloud.Ids

/-!
# Resources added to a cloud

`Grown c vs ss bs d`: the cloud `d` has the resources of `c`, the volumes `vs`, the servers `ss` and
the blocks of addresses `bs`, all of them made since. Making one appends it. Deleting one takes it
out again and leaves the resources of `c` alone, for its id is none of theirs.
-/

namespace ComputePlane.MemoryCloud

open Number

/-! ## Ids issued since -/

/-- An id was issued after `c` and not after `d`. -/
def IssuedSince (c d : MemoryCloud) (kind id : String) : Prop :=
  ∃ n, c.issued < n ∧ n ≤ d.issued ∧ id = kind ++ "-" ++ decimal n

variable {c d d' : MemoryCloud}

theorem IssuedSince.mono {kind id : String} (h : IssuedSince c d kind id)
    (hle : d.issued ≤ d'.issued) : IssuedSince c d' kind id := by
  obtain ⟨n, hlt, hn, rfl⟩ := h
  exact ⟨n, hlt, Nat.le_trans hn hle, rfl⟩

theorem IssuedSince.hasIssued {kind id : String} (h : IssuedSince c d kind id) :
    d.HasIssued kind id := by
  obtain ⟨n, -, hn, rfl⟩ := h
  exact ⟨n, hn, rfl⟩

theorem HasIssued.ne_of_issuedSince {kind id id' : String} (h : c.HasIssued kind id)
    (h' : IssuedSince c d kind id') : id ≠ id' := by
  obtain ⟨m, hm, rfl⟩ := h
  obtain ⟨n, hlt, -, rfl⟩ := h'
  intro heq
  have hmn : m = n := decimal_inj ((String.append_right_inj _).mp heq)
  omega

theorem issuedSince_issue (hle : c.issued ≤ d.issued) (hd' : d'.issued = d.issued + 1)
    (kind : String) : IssuedSince c d' kind (d.issue kind).1 :=
  ⟨d.issued + 1, Nat.lt_succ_of_le hle, Nat.le_of_eq hd'.symm, rfl⟩

/-! ## Growth -/

/-- Servers name only volumes that are there. -/
def ListsExisting (c : MemoryCloud) : Prop :=
  ∀ s ∈ c.servers, ∀ id ∈ s.volumes, ∃ v ∈ c.volumes, v.id = id

/-- The resources of `d` are those of `c` and some made since. -/
structure Grown (c : MemoryCloud) (vs : List StoredVolume) (ss : List StoredServer)
    (bs : List (String × List String)) (d : MemoryCloud) : Prop where
  volumes : d.volumes = c.volumes ++ vs
  servers : d.servers = c.servers ++ ss
  ipBlocks : d.ipBlocks = c.ipBlocks ++ bs
  issued : c.issued ≤ d.issued
  datacenters : d.datacenters = c.datacenters
  ignores : d.ignoreServerDeletes = c.ignoreServerDeletes
  busy : d.busyAfterAttach = c.busyAfterAttach
  newVolume : ∀ v ∈ vs, IssuedSince c d "vol" v.id
  newServer : ∀ s ∈ ss, IssuedSince c d "srv" s.id.server
  newIpBlock : ∀ b ∈ bs, IssuedSince c d "ipb" b.1
  nodupVolumes : (vs.map (·.id)).Nodup
  nodupServers : (ss.map (·.id)).Nodup
  nodupIpBlocks : (bs.map (·.1)).Nodup

variable {vs ws : List StoredVolume} {ss rs : List StoredServer}
  {bs as : List (String × List String)}

theorem Grown.refl (c : MemoryCloud) : Grown c [] [] [] c where
  volumes := (List.append_nil _).symm
  servers := (List.append_nil _).symm
  ipBlocks := (List.append_nil _).symm
  issued := Nat.le_refl _
  datacenters := rfl
  ignores := rfl
  busy := rfl
  newVolume _ hv := nomatch hv
  newServer _ hs := nomatch hs
  newIpBlock _ hb := nomatch hb
  nodupVolumes := .nil
  nodupServers := .nil
  nodupIpBlocks := .nil

/-- Issuing an id changes nothing else. -/
theorem Grown.issue (g : Grown c vs ss bs d) : Grown c vs ss bs { d with issued := d.issued + 1 } :=
  have hle : d.issued ≤ d.issued + 1 := Nat.le_succ _
  { g with
    issued := Nat.le_trans g.issued hle
    newVolume := fun v hv => (g.newVolume v hv).mono hle
    newServer := fun s hs => (g.newServer s hs).mono hle
    newIpBlock := fun b hb => (g.newIpBlock b hb).mono hle }

theorem Grown.of_error (g : Grown c vs ss bs d) {call : Call} {e : Error}
    (h : Answers d call (.error e) d') : Grown c vs ss bs d' := by
  cases h with
  | failed => exact g
  | applied happ =>
    rcases (apply_error happ).1 with rfl | rfl
    · exact g
    · exact g.issue

/-! ## Old and new ids -/

theorem Grown.volume_ne (hc : c.IdsIssued) (g : Grown c vs ss bs d) {w : StoredVolume}
    (hw : w ∈ vs) : ∀ v ∈ c.volumes, v.id ≠ w.id :=
  fun v hv => (hc.volume v hv).ne_of_issuedSince (g.newVolume w hw)

theorem Grown.server_ne (hc : c.IdsIssued) (g : Grown c vs ss bs d) {s : StoredServer}
    (hs : s ∈ ss) : ∀ r ∈ c.servers, r.id ≠ s.id := fun r hr heq =>
  (hc.server r.id (List.mem_map_of_mem hr)).ne_of_issuedSince (g.newServer s hs)
    (congrArg NodeId.server heq)

theorem Grown.ipBlock_ne (hc : c.IdsIssued) (g : Grown c vs ss bs d) {b : String × List String}
    (hb : b ∈ bs) : ∀ a ∈ c.ipBlocks, a.1 ≠ b.1 :=
  fun a ha => (hc.ipBlock a ha).ne_of_issuedSince (g.newIpBlock b hb)

/-! ## Making -/

theorem nodup_map_append_singleton {α β : Type} {f : α → β} {xs : List α} {x : α}
    (h : (xs.map f).Nodup) (hx : ∀ y ∈ xs, f y ≠ f x) : ((xs ++ [x]).map f).Nodup := by
  rw [List.map_append, List.nodup_append]
  refine ⟨h, by simp, fun a ha b hb => ?_⟩
  obtain ⟨y, hy, rfl⟩ := List.mem_map.mp ha
  obtain rfl := List.mem_singleton.mp hb
  exact hx y hy

/-- The volume that a request makes under an id. -/
def volumeFor (dc id : String) (r : VolumeRequest) : StoredVolume :=
  ⟨dc, id, r.name, r.size, .available, r.image.map fun _ => .linux⟩

/-- The server that a request makes under an id. -/
def serverFor (dc id : String) (r : ServerRequest) : StoredServer :=
  ⟨⟨dc, id⟩, r.name, r.cores, r.ram, .available, .running, r.bootVolume.toList, []⟩

theorem Grown.createVolume (g : Grown c vs ss bs d) {dc : String} {r : VolumeRequest}
    {v : Volume} (h : Answers d (.createVolume dc r) (.ok v) d') :
    Grown c (vs ++ [volumeFor dc v.id r]) ss bs d' := by
  cases h with
  | applied happ =>
    cases happ
    refine { g.issue with volumes := ?volumes, newVolume := ?new, nodupVolumes := ?nodup }
    case volumes => exact (congrArg (· ++ _) g.volumes).trans (List.append_assoc ..)
    case new =>
      intro w hw
      rcases List.mem_append.mp hw with hw | hw
      · exact g.issue.newVolume w hw
      · obtain rfl := List.mem_singleton.mp hw
        exact issuedSince_issue g.issued rfl "vol"
    case nodup =>
      exact nodup_map_append_singleton g.nodupVolumes fun w hw =>
        (g.newVolume w hw).hasIssued.ne_issue

theorem Grown.createServer (g : Grown c vs ss bs d) {dc : String} {r : ServerRequest}
    {v : Server} (h : Answers d (.createServer dc r) (.ok v) d') :
    Grown c vs (ss ++ [serverFor dc v.id r]) bs d' := by
  cases h with
  | applied happ =>
    cases happ
    refine { g.issue with servers := ?servers, newServer := ?new, nodupServers := ?nodup }
    case servers => exact (congrArg (· ++ _) g.servers).trans (List.append_assoc ..)
    case new =>
      intro s hs
      rcases List.mem_append.mp hs with hs | hs
      · exact g.issue.newServer s hs
      · obtain rfl := List.mem_singleton.mp hs
        exact issuedSince_issue g.issued rfl "srv"
    case nodup =>
      refine nodup_map_append_singleton g.nodupServers fun s hs heq => ?_
      exact (g.newServer s hs).hasIssued.ne_issue (congrArg NodeId.server heq)

theorem Grown.createIpBlock (g : Grown c vs ss bs d) {r : IpBlockRequest} {v : IpBlock}
    (h : Answers d (.createIpBlock r) (.ok v) d') :
    Grown c vs ss (bs ++ [(v.id, v.properties.ips)]) d' := by
  cases h with
  | applied happ =>
    cases happ
    refine { g.issue with ipBlocks := ?ipBlocks, newIpBlock := ?new, nodupIpBlocks := ?nodup }
    case ipBlocks => exact (congrArg (· ++ _) g.ipBlocks).trans (List.append_assoc ..)
    case new =>
      intro b hb
      rcases List.mem_append.mp hb with hb | hb
      · exact g.issue.newIpBlock b hb
      · obtain rfl := List.mem_singleton.mp hb
        exact issuedSince_issue g.issued rfl "ipb"
    case nodup =>
      exact nodup_map_append_singleton g.nodupIpBlocks fun b hb =>
        (g.newIpBlock b hb).hasIssued.ne_issue

/-! ## Deleting -/

/-- A filter that takes one item out of a list with distinct keys, and nothing out of the list in
front of it. -/
theorem filter_append_ne {α β : Type} [DecidableEq β] {f : α → β} {old xs ys : List α} {x : α}
    (hold : ∀ y ∈ old, f y ≠ f x) (hnodup : ((xs ++ x :: ys).map f).Nodup) :
    (old ++ (xs ++ x :: ys)).filter (fun y => f y ≠ f x) = old ++ (xs ++ ys) := by
  rw [List.map_append, List.map_cons, List.nodup_append, List.nodup_cons] at hnodup
  obtain ⟨-, ⟨hys, -⟩, hxs⟩ := hnodup
  have hkeep : ∀ zs : List α, (∀ y ∈ zs, f y ≠ f x) → zs.filter (fun y => f y ≠ f x) = zs :=
    fun zs hzs => List.filter_eq_self.mpr fun y hy => by simpa using hzs y hy
  have hxs' : ∀ y ∈ xs, f y ≠ f x := fun y hy =>
    hxs (f y) (List.mem_map_of_mem hy) (f x) List.mem_cons_self
  have hys' : ∀ y ∈ ys, f y ≠ f x := fun y hy heq => hys (heq ▸ List.mem_map_of_mem hy)
  rw [List.filter_append, List.filter_append, List.filter_cons_of_neg (by simp), hkeep old hold,
    hkeep xs hxs', hkeep ys hys']

theorem nodup_map_of_cons {α β : Type} {f : α → β} {xs ys : List α} {x : α}
    (h : ((xs ++ x :: ys).map f).Nodup) : ((xs ++ ys).map f).Nodup :=
  h.sublist (((List.sublist_cons_self x ys).append_left xs).map f)

theorem Grown.deleteServer {s : StoredServer} (hc : c.IdsIssued)
    (hdel : c.ignoreServerDeletes = false) (g : Grown c vs (rs ++ s :: ss) bs d) :
    Grown c vs (rs ++ ss) bs (d.deleteServer s.id) := by
  have hsub : rs ++ ss ⊆ rs ++ s :: ss :=
    ((List.sublist_cons_self s ss).append_left rs).subset
  have hold := g.server_ne hc (s := s) (by simp)
  unfold MemoryCloud.deleteServer
  rw [if_neg (by simp [g.ignores, hdel])]
  exact { g with
    servers := by rw [g.servers, filter_append_ne hold g.nodupServers]
    newServer := fun r hr => g.newServer r (hsub hr)
    nodupServers := nodup_map_of_cons g.nodupServers }

theorem Grown.deleteIpBlock {b : String × List String} (hc : c.IdsIssued)
    (g : Grown c vs ss (as ++ b :: bs) d) : Grown c vs ss (as ++ bs) (d.deleteIpBlock b.1) := by
  have hsub : as ++ bs ⊆ as ++ b :: bs :=
    ((List.sublist_cons_self b bs).append_left as).subset
  have hold := g.ipBlock_ne hc (b := b) (by simp)
  exact { g with
    ipBlocks := by
      rw [MemoryCloud.deleteIpBlock, g.ipBlocks, filter_append_ne hold g.nodupIpBlocks]
    newIpBlock := fun a ha => g.newIpBlock a (hsub ha)
    nodupIpBlocks := nodup_map_of_cons g.nodupIpBlocks }

def detach (id : String) (s : StoredServer) : StoredServer :=
  { s with volumes := s.volumes.filter (· ≠ id) }

theorem map_detach {id : String} {ss : List StoredServer} (h : ∀ s ∈ ss, id ∉ s.volumes) :
    ss.map (detach id) = ss := by
  have hself : ∀ s ∈ ss, detach id s = s := by
    intro s hs
    have hkeep : s.volumes.filter (· ≠ id) = s.volumes :=
      List.filter_eq_self.mpr fun v hv => by simpa using fun heq : v = id => h s hs (heq ▸ hv)
    rw [detach, hkeep]
  exact (List.map_congr_left hself).trans (List.map_id _)

/-- Among the volumes of a cloud that has grown, one made since is known by its id alone. -/
theorem Grown.datacenter_of_id {v w : StoredVolume} (hc : c.IdsIssued)
    (g : Grown c (ws ++ v :: vs) ss bs d) (hw : w ∈ d.volumes) (hid : w.id = v.id) :
    w.datacenter = v.datacenter := by
  rw [g.volumes] at hw
  have hnodup := g.nodupVolumes
  rw [List.map_append, List.map_cons, List.nodup_append, List.nodup_cons] at hnodup
  obtain ⟨-, ⟨hvs, -⟩, hws⟩ := hnodup
  rcases List.mem_append.mp hw with hw | hw
  · exact absurd hid (g.volume_ne hc (by simp) w hw)
  rcases List.mem_append.mp hw with hw | hw
  · exact absurd hid (hws w.id (List.mem_map_of_mem hw) v.id List.mem_cons_self)
  rcases List.mem_cons.mp hw with rfl | hw
  · rfl
  · exact absurd (hid ▸ List.mem_map_of_mem hw) hvs

theorem Grown.deleteVolume {v : StoredVolume} (hc : c.IdsIssued) (hlist : c.ListsExisting)
    (g : Grown c (ws ++ v :: vs) ss bs d) :
    Grown c (ws ++ vs) (ss.map (detach v.id)) bs (d.deleteVolume ⟨v.datacenter, v.id⟩) := by
  have hsub : ws ++ vs ⊆ ws ++ v :: vs :=
    ((List.sublist_cons_self v vs).append_left ws).subset
  have hold := g.volume_ne hc (w := v) (by simp)
  -- no server that was there before names it
  have hfree : ∀ s ∈ c.servers, v.id ∉ s.volumes := by
    intro s hs hmem
    obtain ⟨w, hw, heq⟩ := hlist s hs v.id hmem
    exact hold w hw heq
  have hvolumes : (d.deleteVolume ⟨v.datacenter, v.id⟩).volumes = c.volumes ++ (ws ++ vs) := by
    rw [← filter_append_ne hold g.nodupVolumes, ← g.volumes]
    refine List.filter_congr fun w hw => ?_
    rw [decide_eq_decide]
    exact not_congr ⟨And.right, fun hid => ⟨g.datacenter_of_id hc hw hid, hid⟩⟩
  have hids : (ss.map (detach v.id)).map (·.id) = ss.map (·.id) := by
    rw [List.map_map]
    rfl
  exact { g with
    volumes := hvolumes
    servers := by
      show d.servers.map (detach v.id) = c.servers ++ ss.map (detach v.id)
      rw [g.servers, List.map_append, map_detach hfree]
    newVolume := fun w hw => g.newVolume w (hsub hw)
    newServer := by
      intro s hs
      obtain ⟨r, hr, rfl⟩ := List.mem_map.mp hs
      exact g.newServer r hr
    nodupVolumes := nodup_map_of_cons g.nodupVolumes
    nodupServers := hids ▸ g.nodupServers }

end ComputePlane.MemoryCloud
