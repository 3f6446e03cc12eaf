import Mathlib.Data.List.Flatten
import Mathlib.Data.List.Perm.Subperm
import ComputePlane.Proofs.Cloud.Holdings
import ComputePlane.Proofs.Program.Stock
import ComputePlane.Proofs.Text.Cutting

/-!
# Attached volumes

A cloud is `Attached` if its servers list only volumes of their datacenters that are there, each of
them once, and all ids in use were issued. What a call can do to this, whether it is carried out or
not and whatever it answers, is the relation `Affects`: the servers list nothing more than what they
listed and what the call attaches, a volume is gone only if the call deletes it and no server lists
it any more, and what is made is new (`Attached.affects_apply`, `Attached.affects_finish`).
-/

namespace ComputePlane

open Number

/-! ## Ids -/

/-- A text has one number at its end. -/
theorem Number.eq_of_append_decimal {s t : String} {m n : Nat}
    (h : s ++ "-" ++ decimal m = t ++ "-" ++ decimal n) : m = n := by
  have hdigits : ∀ n, '-' ∉ (decimal n).toList := by
    intro n hmem
    rw [decimal, String.toList_ofList] at hmem
    exact absurd (Nat.isDigit_of_mem_toDigits (by decide) (by decide) hmem) (by decide)
  have hlast : ∀ (s : String) (n : Nat),
      (Text.pieces '-' (s ++ "-" ++ decimal n).toList).getLast? = some (decimal n).toList := by
    intro s n
    have hsplit : (s ++ "-" ++ decimal n).toList = s.toList ++ '-' :: (decimal n).toList := by simp
    rw [hsplit, Text.pieces_append_cons, Text.pieces_of_not_mem (hdigits n), List.getLast?_concat]
  have hsame := hlast s m
  rw [h, hlast t n] at hsame
  exact decimal_inj (String.toList_inj.mp (Option.some.inj hsame)).symm

namespace MemoryCloud

variable {c d : MemoryCloud} {call : Call} {v : VolumeRef}

/-- An id was issued by the counter, for a resource of any kind. -/
def WasIssued (c : MemoryCloud) (id : String) : Prop :=
  ∃ kind n, 0 < n ∧ n ≤ c.issued ∧ id = kind ++ "-" ++ decimal n

theorem WasIssued.mono {id : String} (h : c.WasIssued id) (hle : c.issued ≤ d.issued) :
    d.WasIssued id := by
  obtain ⟨kind, n, hpos, hn, rfl⟩ := h
  exact ⟨kind, n, hpos, Nat.le_trans hn hle, rfl⟩

/-- An id that is issued was not issued before. -/
theorem not_wasIssued_issue (c : MemoryCloud) (kind : String) :
    ¬c.WasIssued (c.issue kind).1 := by
  rintro ⟨kind', n, -, hn, heq⟩
  have hsucc : c.issued + 1 = n := eq_of_append_decimal heq
  omega

theorem wasIssued_issue (kind : String) (hd : d.issued = c.issued + 1) :
    d.WasIssued (c.issue kind).1 :=
  ⟨kind, c.issued + 1, Nat.succ_pos _, Nat.le_of_eq hd.symm, rfl⟩

end MemoryCloud

/-- The ids of a stored server and of its network interfaces. -/
def StoredServer.ids (s : StoredServer) : List String := s.id.server :: s.nics.map (·.id)

namespace MemoryCloud

variable {c d : MemoryCloud} {call : Call} {v : VolumeRef}

/-- All ids in use were issued. -/
structure AllIssued (c : MemoryCloud) : Prop where
  server : ∀ s ∈ c.servers, ∀ x ∈ s.ids, c.WasIssued x
  datacenter : ∀ dc ∈ c.datacenters, c.WasIssued dc.1
  volume : ∀ v ∈ c.volumes, c.WasIssued v.id
  ipBlock : ∀ b ∈ c.ipBlocks, c.WasIssued b.1
  image : ∀ i ∈ c.images, c.WasIssued i.id
  snapshot : ∀ s ∈ c.snapshots, c.WasIssued s.id

def issuedBy (c : MemoryCloud) : Call → List String
  | .createVolume .. => [(c.issue "vol").1]
  | .createServer .. => [(c.issue "srv").1]
  | .createNic .. => [(c.issue "nic").1]
  | .createIpBlock _ => [(c.issue "ipb").1]
  | .createFirewallRule .. => [(c.issue "fw").1]
  | _ => []

theorem wasIssued_of_issuedBy {x : String} (hx : x ∈ c.issuedBy call) :
    (c.apply call).2.WasIssued x := by
  have hissued := c.issued_apply call
  cases call with
  | createVolume | createServer | createNic | createIpBlock | createFirewallRule =>
    obtain rfl := List.mem_singleton.mp hx
    exact wasIssued_issue _ hissued
  | _ => cases hx

/-- The images and snapshots are those that the cloud was set up with. -/
theorem catalog_apply (c : MemoryCloud) (call : Call) :
    (c.apply call).2.images = c.images ∧ (c.apply call).2.snapshots = c.snapshots := by
  have hchange : ∀ (c : MemoryCloud) id f, (c.changeServer id f).2.images = c.images ∧
      (c.changeServer id f).2.snapshots = c.snapshots := by
    intro c id f
    unfold changeServer
    split <;> exact ⟨rfl, rfl⟩
  cases call with
  | deleteServer s =>
    simp only [apply, deleteServer]
    split <;> exact ⟨rfl, rfl⟩
  | attachVolume | rebootServer | startServer | stopServer => exact hchange ..
  | createNic s r => exact hchange ..
  | createFirewallRule n r =>
    simp only [apply, createFirewallRule]
    split
    · exact ⟨rfl, rfl⟩
    · split <;> exact ⟨rfl, rfl⟩
  | _ => exact ⟨rfl, rfl⟩

/-- A server that is changed has the ids that it had, and perhaps new ones. -/
theorem ids_updateServer {id : NodeId} {f : StoredServer → StoredServer} {new : List String}
    (hf : ∀ s, (f s).ids ⊆ s.ids ++ new) :
    ∀ s ∈ (c.updateServer id f).servers, ∀ x ∈ s.ids, (∃ r ∈ c.servers, x ∈ r.ids) ∨ x ∈ new := by
  intro s hs x hx
  obtain ⟨r, hr, rfl⟩ := List.mem_map.mp hs
  have hids : x ∈ r.ids ++ new := by
    split at hx
    · exact hf r hx
    · exact List.mem_append_left _ hx
  exact (List.mem_append.mp hids).imp_left fun hold => ⟨r, hr, hold⟩

theorem ids_changeServer {id : NodeId} {f : StoredServer → StoredServer} {new : List String}
    (hf : ∀ s, (f s).ids ⊆ s.ids ++ new) :
    ∀ s ∈ (c.changeServer id f).2.servers, ∀ x ∈ s.ids,
      (∃ r ∈ c.servers, x ∈ r.ids) ∨ x ∈ new := by
  unfold changeServer
  split
  · exact ids_updateServer hf
  · exact fun s hs x hx => .inl ⟨s, hs, hx⟩

/-- What the servers and their network interfaces have for ids after a call. -/
theorem ids_apply (c : MemoryCloud) (call : Call) :
    ∀ s ∈ (c.apply call).2.servers, ∀ x ∈ s.ids,
      (∃ r ∈ c.servers, x ∈ r.ids) ∨ x ∈ c.issuedBy call := by
  cases call with
  | createServer dc r =>
    intro s hs x hx
    rcases List.mem_append.mp hs with hs | hs
    · exact .inl ⟨s, hs, hx⟩
    · obtain rfl := List.mem_singleton.mp hs
      exact .inr hx
  | deleteVolume v =>
    intro s hs x hx
    obtain ⟨r, hr, rfl⟩ := List.mem_map.mp hs
    exact .inl ⟨r, hr, hx⟩
  | deleteServer id =>
    intro s hs x hx
    simp only [apply, deleteServer] at hs
    split at hs
    · exact .inl ⟨s, hs, hx⟩
    · exact .inl ⟨s, (List.mem_filter.mp hs).1, hx⟩
  | attachVolume | rebootServer | startServer | stopServer =>
    exact ids_changeServer fun s => List.subset_append_left _ _
  | createNic id r =>
    refine ids_changeServer (c := (c.issue "nic").2) fun s x hx => ?_
    simpa [StoredServer.ids, issuedBy, issue, or_assoc] using hx
  | createFirewallRule n r =>
    simp only [apply, createFirewallRule]
    split
    · exact fun s hs x hx => .inl ⟨s, hs, hx⟩
    · split
      · exact fun s hs x hx => .inl ⟨s, hs, hx⟩
      · refine ids_updateServer (c := (c.issue "fw").2) fun s x hx => List.mem_append_left _ ?_
        -- a network interface with one more rule has the id that it had
        have hids : ∀ m : StoredNic, (if m.id = n.nic then { m with
            rules := m.rules ++ [(r.portRangeStart, r.portRangeEnd)] } else m).id = m.id := by
          intro m
          split <;> rfl
        simpa [StoredServer.ids, List.map_map, Function.comp_def, hids] using hx
  | _ => exact fun s hs x hx => .inl ⟨s, hs, hx⟩

theorem AllIssued.apply (h : c.AllIssued) (call : Call) : (c.apply call).2.AllIssued := by
  have hle := c.issued_le_apply call
  have hnew : ∀ x ∈ c.issuedBy call, (c.apply call).2.WasIssued x := fun x hx =>
    wasIssued_of_issuedBy hx
  obtain ⟨himages, hsnapshots⟩ := c.catalog_apply call
  have hdatacenters : (c.apply call).2.datacenters = c.datacenters :=
    congrArg Prod.fst (c.setup_apply call)
  refine ⟨fun s hs x hx => ?server, fun dc hdc => ?datacenter, fun v hv => ?volume,
    fun b hb => ?ipBlock, fun i hi => ?image, fun s hs => ?snapshot⟩
  case server =>
    rcases c.ids_apply call s hs x hx with ⟨r, hr, hx⟩ | hx
    · exact (h.server r hr x hx).mono hle
    · exact hnew x hx
  case datacenter => exact (h.datacenter dc (hdatacenters ▸ hdc)).mono hle
  case volume =>
    rw [volumes_apply] at hv
    cases call with
    | createVolume dc r =>
      rcases List.mem_append.mp hv with hv | hv
      · exact (h.volume v hv).mono hle
      · obtain rfl := List.mem_singleton.mp hv
        exact hnew _ List.mem_cons_self
    | deleteVolume w => exact (h.volume v (List.mem_filter.mp hv).1).mono hle
    | _ => exact (h.volume v hv).mono hle
  case ipBlock =>
    rw [ipBlocks_apply] at hb
    cases call with
    | createIpBlock r =>
      rcases List.mem_append.mp hb with hb | hb
      · exact (h.ipBlock b hb).mono hle
      · obtain rfl := List.mem_singleton.mp hb
        exact hnew _ List.mem_cons_self
    | deleteIpBlock id => exact (h.ipBlock b (List.mem_filter.mp hb).1).mono hle
    | _ => exact (h.ipBlock b hb).mono hle
  case image => exact (h.image i (himages ▸ hi)).mono hle
  case snapshot => exact (h.snapshot s (hsnapshots ▸ hs)).mono hle

end MemoryCloud

/-! ## What servers list -/

/-- The volumes of a server. -/
def StoredServer.refs (s : StoredServer) : List VolumeRef :=
  s.volumes.map (⟨s.id.datacenter, ·⟩)

namespace MemoryCloud

variable {c d : MemoryCloud} {call : Call} {v : VolumeRef}

/-- The volumes that servers list, each as often as it is listed. -/
def listed (c : MemoryCloud) : List VolumeRef := c.servers.flatMap StoredServer.refs

/-- Only one of the servers has the id. -/
theorem refs_updateServer {id : NodeId} {f : StoredServer → StoredServer} {new : List VolumeRef}
    (hkeys : (c.servers.map (·.id)).Nodup) (hf : ∀ s, s.id = id → (f s).refs = s.refs ++ new) :
    (c.updateServer id f).listed.Subperm (c.listed ++ new) := by
  unfold listed updateServer
  revert hkeys
  generalize c.servers = ss
  intro hkeys
  rw [List.flatMap_map]
  induction ss with
  | nil => exact List.nil_subperm
  | cons s ss ih =>
    obtain ⟨hs, hss⟩ := List.nodup_cons.mp hkeys
    simp only [List.flatMap_cons]
    by_cases hid : s.id = id
    · have hrest : ∀ r ∈ ss, (if r.id = id then f r else r).refs = r.refs := by
        intro r hr
        have hne : r.id ≠ id := fun heq => hs (List.mem_map.mpr ⟨r, hr, heq.trans hid.symm⟩)
        rw [if_neg hne]
      rw [if_pos hid, hf s hid, List.flatMap_congr hrest, List.append_assoc, List.append_assoc]
      exact (List.perm_append_comm.append_left s.refs).subperm
    · rw [if_neg hid, List.append_assoc]
      exact (List.subperm_append_left s.refs).mpr (ih hss)

theorem refs_changeServer {id : NodeId} {f : StoredServer → StoredServer} {new : List VolumeRef}
    (hkeys : (c.servers.map (·.id)).Nodup) (hf : ∀ s, s.id = id → (f s).refs = s.refs ++ new) :
    (c.changeServer id f).2.listed.Subperm (c.listed ++ new) := by
  unfold changeServer
  split
  · exact refs_updateServer hkeys hf
  · exact (List.sublist_append_left _ _).subperm

theorem listed_deleteVolume (c : MemoryCloud) (v : VolumeRef) :
    (c.deleteVolume v).listed = c.listed.filter (·.volume ≠ v.volume) := by
  unfold listed deleteVolume
  rw [List.filter_flatMap, List.flatMap_map]
  refine List.flatMap_congr fun s _ => ?_
  simp [StoredServer.refs, List.filter_map, Function.comp_def]

/-- The servers list nothing more than what they have listed and what the call attaches. -/
theorem listed_apply (hkeys : (c.servers.map (·.id)).Nodup) (call : Call) :
    (c.apply call).2.listed.Subperm (c.listed ++ call.attached) := by
  have hkeep : ∀ {d : MemoryCloud} {xs : List VolumeRef}, d.listed = c.listed →
      d.listed.Subperm (c.listed ++ xs) := fun h => h ▸ (List.sublist_append_left _ _).subperm
  have hsame : ∀ s : StoredServer, s.refs = s.refs ++ [] := fun s => (List.append_nil _).symm
  cases call with
  | createServer dc r =>
    refine (List.Perm.of_eq ?_).subperm
    simp [apply, createServer, listed, StoredServer.refs, Call.attached, issue]
  | attachVolume id w =>
    refine refs_changeServer hkeys fun s hs => ?_
    simp [StoredServer.refs, Call.attached, hs]
  | deleteVolume w =>
    refine List.Sublist.subperm ?_
    rw [show (c.apply (.deleteVolume w)).2.listed = _ from c.listed_deleteVolume w]
    exact List.filter_sublist.trans (List.sublist_append_left _ _)
  | deleteServer id =>
    refine List.Sublist.subperm (.trans ?_ (List.sublist_append_left _ _))
    simp only [apply, deleteServer]
    split
    · exact List.Sublist.refl _
    · exact List.filter_sublist.flatMap _
  | rebootServer | startServer | stopServer =>
    exact refs_changeServer hkeys fun s _ => hsame s
  | createNic id r =>
    exact refs_changeServer (c := (c.issue "nic").2) hkeys fun s _ => hsame s
  | createFirewallRule n r =>
    simp only [apply, createFirewallRule]
    split
    · exact hkeep rfl
    · split
      · exact hkeep rfl
      · exact refs_updateServer (c := (c.issue "fw").2) hkeys fun s _ => hsame s
  | _ => exact hkeep rfl

/-! ## Volumes that remain -/

/-- A volume that is deleted is listed no more. -/
theorem not_mem_listed_of_deleted (hv : v ∈ call.deleted) : v ∉ (c.apply call).2.listed := by
  cases call with
  | deleteVolume w =>
    obtain rfl := List.mem_singleton.mp hv
    rw [show (c.apply (.deleteVolume v)).2.listed = _ from c.listed_deleteVolume v]
    simp
  | _ => cases hv

/-- A volume that is not deleted remains. -/
theorem hasAsset_apply (h : c.HasAsset (.volume v)) (hv : v ∉ call.deleted) :
    (c.apply call).2.HasAsset (.volume v) := by
  obtain ⟨w, hw, rfl⟩ := h
  refine ⟨w, ?_, rfl⟩
  rw [volumes_apply]
  cases call with
  | createVolume dc r => exact List.mem_append_left _ hw
  | deleteVolume u =>
    have hne : ¬(w.datacenter = u.datacenter ∧ w.id = u.volume) := fun ⟨hdc, hid⟩ =>
      hv (List.mem_singleton.mpr (congrArg₂ VolumeRef.mk hdc hid))
    exact List.mem_filter.mpr ⟨hw, decide_eq_true hne⟩
  | _ => exact hw

theorem volume?_id {dc id : String} {w : Volume} (h : c.volume? dc id = some w) : w.id = id := by
  obtain ⟨u, hu, rfl⟩ := Option.map_eq_some_iff.mp h
  have hfound := List.find?_some hu
  simp only [decide_eq_true_eq] at hfound
  exact hfound.2

/-- A look-up shows only what the server lists. -/
theorem shown_apply (c : MemoryCloud) (call : Call) :
    ∀ v ∈ call.shown (c.apply call).1, v ∈ c.listed := by
  intro v hv
  cases call with
  | getServer id =>
    cases hs : c.stored? id with
    | none =>
      simp [apply, server?, hs, Call.shown] at hv
    | some s =>
      have hshown : v ∈ (c.tellServer s).volumes.map (⟨id.datacenter, ·.id⟩) := by
        simpa [apply, server?, hs, Call.shown] using hv
      obtain ⟨w, hw, rfl⟩ := List.mem_map.mp hshown
      obtain ⟨x, hx, htold⟩ := List.mem_filterMap.mp hw
      have hid : s.id = id := by simpa using List.find?_some hs
      refine List.mem_flatMap.mpr ⟨s, List.mem_of_find?_eq_some hs, ?_⟩
      rw [volume?_id htold, ← hid]
      exact List.mem_map_of_mem hx
  | _ => cases hv

/-! ## Attached clouds -/

/-- Every volume that a server lists is there, in the datacenter of the server, and no volume is
listed twice or by two servers. All ids in use were issued, and the servers are told apart by their
ids. -/
structure Attached (c : MemoryCloud) : Prop where
  there : ∀ v ∈ c.listed, c.HasAsset (.volume v)
  once : c.listed.Nodup
  issued : c.AllIssued
  keys : (c.servers.map (·.id)).Nodup

theorem AllIssued.volume_wasIssued (h : c.AllIssued) (hv : c.HasAsset (.volume v)) :
    c.WasIssued v.volume := by
  obtain ⟨w, hw, rfl⟩ := hv
  exact h.volume w hw

theorem keys_apply (hissued : c.AllIssued) (hkeys : (c.servers.map (·.id)).Nodup) (call : Call) :
    ((c.apply call).2.servers.map (·.id)).Nodup := by
  refine nodup_serverIds_apply (fun id hid heq => c.not_wasIssued_issue "srv" ?_) hkeys call
  obtain ⟨s, hs, rfl⟩ := List.mem_map.mp hid
  exact heq ▸ hissued.server s hs _ List.mem_cons_self

/-! ## What a call can do -/

/-- What a call can do to the volumes of a cloud and to what its servers list, whether it is carried
out or not and whatever it answers. -/
structure Affects (c : MemoryCloud) (call : Call) (r : call.Result) (d : MemoryCloud) : Prop where
  listed : d.listed.Subperm (c.listed ++ call.attached)
  remains : ∀ v, c.HasAsset (.volume v) → v ∉ call.deleted ∨ v ∈ d.listed →
    d.HasAsset (.volume v)
  issued : d.AllIssued
  keys : (d.servers.map (·.id)).Nodup
  grows : c.issued ≤ d.issued
  shown : ∀ v ∈ call.shown r, v ∈ c.listed
  made : ∀ v ∈ call.madeVolumes r,
    ¬c.WasIssued v.volume ∧ d.WasIssued v.volume ∧ d.HasAsset (.volume v)

/-- A call that is not carried out fails. -/
theorem Attached.affects_nothing (hc : c.Attached) (call : Call) (e : Error) :
    Affects c call (.error e) c where
  listed := (List.sublist_append_left _ _).subperm
  remains _ hv _ := hv
  issued := hc.issued
  keys := hc.keys
  grows := Nat.le_refl _
  shown := by simp
  made := by simp

theorem Attached.affects_apply (hc : c.Attached) (call : Call) :
    Affects c call (c.apply call).1 (c.apply call).2 where
  listed := listed_apply hc.keys call
  remains v hv h := hasAsset_apply hv (h.elim id fun hlisted hdeleted =>
    not_mem_listed_of_deleted hdeleted hlisted)
  issued := hc.issued.apply call
  keys := keys_apply hc.issued hc.keys call
  grows := c.issued_le_apply call
  shown := c.shown_apply call
  made := by
    intro v hv
    cases call with
    | createVolume dc r =>
      obtain rfl := List.mem_singleton.mp hv
      refine ⟨c.not_wasIssued_issue "vol", wasIssued_issue "vol" rfl, ?_⟩
      exact ⟨_, List.mem_append_right _ List.mem_cons_self, rfl⟩
    | _ => cases hv

/-- A call can fail also if it is carried out. -/
theorem Affects.fail {r : call.Result} (h : Affects c call r d) (e : Error) :
    Affects c call (.error e) d :=
  { h with shown := by simp, made := by simp }

theorem allIssued_content : c.content.AllIssued ↔ c.AllIssued :=
  ⟨fun h => ⟨h.server, h.datacenter, h.volume, h.ipBlock, h.image, h.snapshot⟩,
    fun h => ⟨h.server, h.datacenter, h.volume, h.ipBlock, h.image, h.snapshot⟩⟩

theorem attached_content : c.content.Attached ↔ c.Attached :=
  ⟨fun h => ⟨h.there, h.once, allIssued_content.mp h.issued, h.keys⟩,
    fun h => ⟨h.there, h.once, allIssued_content.mpr h.issued, h.keys⟩⟩

theorem Affects.of_content {r : call.Result} (h : Affects c.content call r d.content) :
    Affects c call r d :=
  ⟨h.listed, h.remains, allIssued_content.mp h.issued, h.keys, h.grows, h.shown, h.made⟩

/-- A call that comes to its end has failed by its number, or it is carried out. -/
theorem Attached.affects_finish (hc : c.Attached) (call : Call) (failure : Option Error) :
    Affects c call (c.finish call failure).1 (c.finish call failure).2 := by
  refine .of_content ?_
  cases failure with
  | some e =>
    obtain ⟨hresult, hcontent⟩ := c.finish_some call e
    rw [hresult, hcontent]
    exact (attached_content.mpr hc).affects_nothing call e
  | none =>
    obtain ⟨hresult, hcontent⟩ := c.finish_none call
    rw [hresult, hcontent]
    exact (attached_content.mpr hc).affects_apply call

end MemoryCloud

end ComputePlane
