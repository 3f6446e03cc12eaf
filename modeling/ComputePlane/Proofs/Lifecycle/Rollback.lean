import ComputePlane.Proofs.Cloud.Grown
import ComputePlane.Proofs.Cloud.Reachable
import ComputePlane.Proofs.Lifecycle.Creation
import ComputePlane.Proofs.Program.Holdings
import ComputePlane.Proofs.World.Simulation

/-!
# Creations that are undone

A creation that fails fatally deletes what it has made, each thing once, and goes on when a delete
fails. What is left in the end is what was there before and what could not be deleted
(`rollback_exact`).

`Progress` follows a creation up to the call that fails: what it has added to the cloud so far is
what its jobs say they have made.
-/

namespace ComputePlane

open MemoryCloud (Grown Answers)

/-! ## What undoes a job -/

def StoredVolume.deletion (v : StoredVolume) : Call := .deleteVolume ⟨v.datacenter, v.id⟩

def StoredServer.deletion (s : StoredServer) : Call := .deleteServer s.id

def blockDeletion (b : String × List String) : Call := .deleteIpBlock b.1

namespace Call

/-- The step of a creation that a call is, if the creation cannot go on without it. A volume is
such a step if it carries an image. -/
def criticalStage? : Call → Option Stage
  | createVolume _ r => r.image.map fun _ => .provisionBootVolume
  | createServer .. => some .provisionServer
  | createIpBlock _ => some .allocateIpBlock
  | createNic .. => some .provisionNic
  | _ => none

end Call

namespace Program

namespace Outcome

def failed (j : Outcome) : Bool :=
  match j.result with
  | .ok _ => false
  | .error _ => true

/-- The call that deletes the volume that a job has made. -/
def volumeDeletion? : Outcome → Option Call
  | ⟨.createVolume dc _, .ok v⟩ => some (.deleteVolume ⟨dc, v.id⟩)
  | _ => none

/-- The call that deletes the server that a job has made. -/
def serverDeletion? : Outcome → Option Call
  | ⟨.createServer dc _, .ok s⟩ => some (.deleteServer ⟨dc, s.id⟩)
  | _ => none

/-- The call that deletes the block of addresses that a job has made. -/
def blockDeletion? : Outcome → Option Call
  | ⟨.createIpBlock _, .ok b⟩ => some (.deleteIpBlock b.id)
  | _ => none

end Outcome

/-- Deletes of one thing after another leave those whose delete failed. -/
theorem Answered.exists_left {X : Type} {del : X → Call} {G : List X → MemoryCloud → Prop}
    (hstep : ∀ kept x rest c, G (kept ++ x :: rest) c →
      ∃ a d, c.apply (del x) = (.ok a, d) ∧ G (kept ++ rest) d)
    {xs : List X} {c d : MemoryCloud} {js : List Outcome} (hG : G xs c) (h : Answered c js d)
    (hcalls : js.map (·.call) = xs.map del) :
    ∃ left, G left d ∧ left.map del = (js.filter (·.failed)).map (·.call) := by
  -- those before `xs` were not deleted either
  suffices hinv : ∀ kept, G (kept ++ xs) c → ∃ left, G (kept ++ left) d ∧
      left.map del = (js.filter (·.failed)).map (·.call) from hinv [] hG
  clear hG
  induction xs generalizing c js with
  | nil =>
    obtain rfl := List.map_eq_nil_iff.mp hcalls
    cases h
    exact fun kept hG => ⟨[], hG, rfl⟩
  | cons x xs ih =>
    intro kept hG
    obtain ⟨⟨call, result⟩, js', rfl, hcall, hrest⟩ := List.map_eq_cons_iff.mp hcalls
    dsimp only at hcall
    subst hcall
    obtain ⟨a, e, hok, hG'⟩ := hstep kept x xs c hG
    cases h with
    | cons hans hn =>
      dsimp only at hans
      cases result with
      | ok b =>
        cases hans with
        | applied happ =>
          rw [hok] at happ
          cases happ
          exact ih hn hrest kept hG'
      | error err =>
        cases hans with
        | failed he =>
          rw [List.append_cons] at hG
          obtain ⟨left, hleft, heq⟩ := ih hn hrest (kept ++ [x]) hG
          refine ⟨x :: left, by rwa [List.append_cons], ?_⟩
          rw [List.map_cons, heq]
          rfl
        | applied happ =>
          rw [hok] at happ
          cases happ

end Program

namespace Lifecycle

open Program

variable {c d d' : MemoryCloud} {vs : List StoredVolume} {ss : List StoredServer}
  {bs : List (String × List String)} {done js : List Outcome}

/-! ## Undoing -/

/-- The deletes that undo what a cloud has grown by leave what they could not delete. -/
theorem exists_left_of_undo (hc : c.IdsIssued) (hlist : c.ListsExisting)
    (hdel : c.ignoreServerDeletes = false) (g : Grown c vs ss bs d) {undo : List Outcome}
    (h : Answered d undo d')
    (hcalls : undo.map (·.call) = ss.map StoredServer.deletion ++
      vs.map StoredVolume.deletion ++ bs.map blockDeletion) :
    ∃ vs' ss' bs', Grown c vs' ss' bs' d' ∧
      ss'.map StoredServer.deletion ++ vs'.map StoredVolume.deletion ++ bs'.map blockDeletion =
        (undo.filter (·.failed)).map (·.call) := by
  obtain ⟨undo', ofBlocks, rfl, hcalls', hblocks⟩ := List.map_eq_append_iff.mp hcalls
  obtain ⟨ofServers, ofVolumes, rfl, hservers, hvolumes⟩ := List.map_eq_append_iff.mp hcalls'
  obtain ⟨d₂, h, h₃⟩ := h.of_append
  obtain ⟨d₁, h₁, h₂⟩ := h.of_append
  obtain ⟨ss₁, g₁, hss⟩ := h₁.exists_left (G := fun ss d => Grown c vs ss bs d)
    (fun kept s rest d g => ⟨(), _, rfl, g.deleteServer hc hdel⟩) g hservers
  -- the servers that are left lose the volumes that are deleted
  obtain ⟨vs₂, ⟨ss₂, hids, g₂⟩, hvs⟩ := h₂.exists_left
    (G := fun vs d => ∃ ss₂ : List StoredServer, ss₂.map (·.id) = ss₁.map (·.id) ∧
      Grown c vs ss₂ bs d)
    (fun kept v rest d ⟨ss₂, hids, g⟩ => ⟨(), _, rfl, ss₂.map (MemoryCloud.detach v.id),
      by rw [List.map_map]; exact hids, g.deleteVolume hc hlist⟩) ⟨ss₁, rfl, g₁⟩ hvolumes
  obtain ⟨bs₃, g₃, hbs⟩ := h₃.exists_left (G := fun bs d => Grown c vs₂ ss₂ bs d)
    (fun kept b rest d g => ⟨(), _, rfl, g.deleteIpBlock hc⟩) g₂ hblocks
  refine ⟨vs₂, ss₂, bs₃, g₃, ?_⟩
  have hmap : ∀ ss : List StoredServer,
      ss.map StoredServer.deletion = (ss.map (·.id)).map Call.deleteServer := fun ss => by
    rw [List.map_map]
    rfl
  have hdeletions : ss₂.map StoredServer.deletion = ss₁.map StoredServer.deletion := by
    rw [hmap, hmap, hids]
  simp only [hdeletions, hss, hvs, hbs, List.filter_append, List.map_append]

/-- Nothing that a cloud has grown by is deleted twice. -/
theorem nodup_deletions (g : Grown c vs ss bs d) :
    (ss.map StoredServer.deletion ++ vs.map StoredVolume.deletion ++
      bs.map blockDeletion).Nodup := by
  have hmap : ∀ {α β : Type} {id : α → β} {xs : List α} (del : α → Call),
      (∀ x y, del x = del y → id x = id y) → (xs.map id).Nodup → (xs.map del).Nodup := by
    intro α β id xs del hdel h
    rw [List.Nodup, List.pairwise_map] at h ⊢
    exact h.imp fun hne heq => hne (hdel _ _ heq)
  have hservers := hmap StoredServer.deletion (fun _ _ h => Call.deleteServer.inj h) g.nodupServers
  have hvolumes := hmap StoredVolume.deletion
    (fun _ _ h => congrArg VolumeRef.volume (Call.deleteVolume.inj h)) g.nodupVolumes
  have hblocks := hmap blockDeletion (fun _ _ h => Call.deleteIpBlock.inj h) g.nodupIpBlocks
  rw [List.nodup_append, List.nodup_append]
  refine ⟨⟨hservers, hvolumes, ?_⟩, hblocks, ?_⟩
  · intro a ha b hb heq
    obtain ⟨s, -, rfl⟩ := List.mem_map.mp ha
    obtain ⟨v, -, rfl⟩ := List.mem_map.mp hb
    cases heq
  · intro a ha b hb heq
    obtain ⟨b, -, rfl⟩ := List.mem_map.mp hb
    rcases List.mem_append.mp ha with ha | ha
    · obtain ⟨s, -, rfl⟩ := List.mem_map.mp ha
      cases heq
    · obtain ⟨v, -, rfl⟩ := List.mem_map.mp ha
      cases heq

/-! ## Progress -/

/-- What a creation has added to a cloud is what its jobs say they have made. It has deleted
nothing, and no call that it cannot go on without has failed. -/
structure Progress (c : MemoryCloud) (done : List Outcome) (vs : List StoredVolume)
    (ss : List StoredServer) (bs : List (String × List String)) (d : MemoryCloud) : Prop where
  grown : Grown c vs ss bs d
  volumes : done.filterMap Outcome.volumeDeletion? = vs.map StoredVolume.deletion
  servers : done.filterMap Outcome.serverDeletion? = ss.map StoredServer.deletion
  ipBlocks : done.filterMap Outcome.blockDeletion? = bs.map blockDeletion
  creates : ∀ j ∈ done, j.call.isDelete = false
  critical : ∀ j ∈ done, j.call.criticalStage?.isSome → j.failed = false

/-- The creation failed at `stage` because of `source`: the jobs are those that were done, the one
that failed, and the deletes of what was made. What the cloud `d` has beside the resources of `c` is
what could not be deleted. -/
def RolledBack (c : MemoryCloud) (js : List Outcome) (stage : Stage) (source : Error)
    (d : MemoryCloud) : Prop :=
  ∃ done bad undo vs ss bs, js = done ++ ⟨bad, .error source⟩ :: undo ∧
    bad.criticalStage? = some stage ∧
    (∀ j ∈ done, j.call.isDelete = false ∧ (j.call.criticalStage?.isSome → j.failed = false)) ∧
    undo.map (·.call) = done.filterMap Outcome.serverDeletion? ++
      done.filterMap Outcome.volumeDeletion? ++ done.filterMap Outcome.blockDeletion? ∧
    (undo.map (·.call)).Nodup ∧
    d.volumes = c.volumes ++ vs ∧ d.servers = c.servers ++ ss ∧ d.ipBlocks = c.ipBlocks ++ bs ∧
    ss.map StoredServer.deletion ++ vs.map StoredVolume.deletion ++ bs.map blockDeletion =
      (undo.filter (·.failed)).map (·.call)

theorem Progress.refl (c : MemoryCloud) : Progress c [] [] [] [] c :=
  ⟨.refl c, rfl, rfl, rfl, by simp, by simp⟩

/-- One more job, and what it has made. -/
theorem Progress.snoc (p : Progress c done vs ss bs d) {j : Outcome} {vs' ss' bs'}
    (hcreates : j.call.isDelete = false)
    (hcritical : j.call.criticalStage?.isSome → j.failed = false) (g : Grown c vs' ss' bs' d')
    (hv : vs'.map StoredVolume.deletion =
      vs.map StoredVolume.deletion ++ j.volumeDeletion?.toList)
    (hs : ss'.map StoredServer.deletion =
      ss.map StoredServer.deletion ++ j.serverDeletion?.toList)
    (hb : bs'.map blockDeletion = bs.map blockDeletion ++ j.blockDeletion?.toList) :
    Progress c (done ++ [j]) vs' ss' bs' d' := by
  have hlast : ∀ f : Outcome → Option Call, [j].filterMap f = (f j).toList := fun f => by
    cases hf : f j <;> simp [hf]
  refine ⟨g, ?_, ?_, ?_, fun k hk => ?_, fun k hk => ?_⟩
  · rw [List.filterMap_append, hlast, p.volumes, hv]
  · rw [List.filterMap_append, hlast, p.servers, hs]
  · rw [List.filterMap_append, hlast, p.ipBlocks, hb]
  · rcases List.mem_append.mp hk with hk | hk
    · exact p.creates k hk
    · exact List.mem_singleton.mp hk ▸ hcreates
  · rcases List.mem_append.mp hk with hk | hk
    · exact p.critical k hk
    · exact List.mem_singleton.mp hk ▸ hcritical

theorem Progress.volume (p : Progress c done vs ss bs d) {dc : String} {r : VolumeRequest}
    {v : Volume} (hans : Answers d (.createVolume dc r) (.ok v) d') :
    ∃ w : StoredVolume, w.deletion = .deleteVolume ⟨dc, v.id⟩ ∧
      Progress c (done ++ [⟨.createVolume dc r, .ok v⟩]) (vs ++ [w]) ss bs d' := by
  refine ⟨_, rfl, p.snoc rfl (fun _ => rfl) (p.grown.createVolume hans) ?_
    (List.append_nil _).symm (List.append_nil _).symm⟩
  rw [List.map_append, List.map_singleton]
  rfl

theorem Progress.server (p : Progress c done vs ss bs d) {dc : String} {r : ServerRequest}
    {v : Server} (hans : Answers d (.createServer dc r) (.ok v) d') :
    ∃ s : StoredServer, s.deletion = .deleteServer ⟨dc, v.id⟩ ∧
      Progress c (done ++ [⟨.createServer dc r, .ok v⟩]) vs (ss ++ [s]) bs d' := by
  refine ⟨_, rfl, p.snoc rfl (fun _ => rfl) (p.grown.createServer hans)
    (List.append_nil _).symm ?_ (List.append_nil _).symm⟩
  rw [List.map_append, List.map_singleton]
  rfl

theorem Progress.ipBlock (p : Progress c done vs ss bs d) {r : IpBlockRequest} {v : IpBlock}
    (hans : Answers d (.createIpBlock r) (.ok v) d') :
    ∃ b, blockDeletion b = .deleteIpBlock v.id ∧
      Progress c (done ++ [⟨.createIpBlock r, .ok v⟩]) vs ss (bs ++ [b]) d' := by
  refine ⟨_, rfl, p.snoc rfl (fun _ => rfl) (p.grown.createIpBlock hans)
    (List.append_nil _).symm (List.append_nil _).symm ?_⟩
  rw [List.map_append, List.map_singleton]
  rfl

/-- A call that the creation cannot go on without fails, and what it has made is deleted. -/
theorem Progress.of_critical (p : Progress c done vs ss bs d) (hc : c.IdsIssued)
    (hlist : c.ListsExisting) (hdel : c.ignoreServerDeletes = false) {dc : String} {made : Made}
    {call : Call} {stage stage' : Stage} {source : Error}
    (hstage : call.criticalStage? = some stage')
    (hmade : made.deletes dc = ss.map StoredServer.deletion ++ vs.map StoredVolume.deletion ++
      bs.map blockDeletion)
    (h : Plays d (Lifecycle.critical stage' dc made call).run js (.error (.fatal stage source))
      d') :
    RolledBack c (done ++ js) stage source d' := by
  obtain ⟨_, undo, e, herr, rfl, hans, hcalls, hundo⟩ := plays_critical_error h
  cases herr
  rw [hmade] at hcalls
  obtain ⟨vs', ss', bs', g, hleft⟩ :=
    exists_left_of_undo hc hlist hdel (p.grown.of_error hans) hundo hcalls
  refine ⟨done, call, undo, vs', ss', bs', rfl, hstage,
    fun j hj => ⟨p.creates j hj, p.critical j hj⟩, ?_, hcalls ▸ nodup_deletions p.grown, g.volumes,
    g.servers, g.ipBlocks, hleft⟩
  rw [hcalls, p.servers, p.volumes, p.ipBlocks]

/-- Further volumes are added, or they fail and are passed over. -/
theorem Progress.of_createVolumes {dc : String} {request : Nat → Nat → VolumeRequest}
    {i : Nat} {sizes : List Nat} {made : List String × List Skipped}
    (p : Progress c done vs ss bs d) (hplain : ∀ k size, i ≤ k → (request k size).image = none)
    (h : Plays d (createVolumes dc request i sizes) js made d') :
    ∃ ws, Progress c (done ++ js) (vs ++ ws) ss bs d' ∧
      ws.map StoredVolume.deletion = made.1.map fun id => .deleteVolume ⟨dc, id⟩ := by
  induction sizes generalizing i d js done vs made with
  | nil =>
    obtain ⟨rfl, rfl, rfl⟩ := h.of_pure
    exact ⟨[], by simpa using p, rfl⟩
  | cons size sizes ih =>
    obtain ⟨js₁, r, e, js₂, h₁, h₂, rfl⟩ := Plays.of_bind h
    obtain ⟨js₃, rest, e', js₄, h₃, h₄, rfl⟩ := Plays.of_bind h₂
    have hplain' : ∀ k size, i + 1 ≤ k → (request k size).image = none :=
      fun k size hk => hplain k size (Nat.le_of_succ_le hk)
    rcases plays_attempt h₁ with ⟨v, rfl, rfl, hans⟩ | ⟨err, rfl, rfl, hans⟩
    · obtain ⟨rfl, rfl, rfl⟩ := h₄.of_pure
      obtain ⟨w, hw, p'⟩ := p.volume hans
      obtain ⟨ws, p'', hws⟩ := ih p' hplain' h₃
      refine ⟨w :: ws, by simpa using p'', ?_⟩
      rw [List.map_cons, List.map_cons, hw, hws]
    · obtain ⟨rfl, rfl, rfl⟩ := h₄.of_pure
      -- a volume without an image may fail
      have hstage : (Call.createVolume dc (request i size)).criticalStage? = none := by
        simp [Call.criticalStage?, hplain i size (Nat.le_refl _)]
      have p' := p.snoc (j := ⟨.createVolume dc (request i size), .error err⟩) rfl
        (by simp [hstage]) (p.grown.of_error hans) (List.append_nil _).symm
        (List.append_nil _).symm (List.append_nil _).symm
      obtain ⟨ws, p'', hws⟩ := ih p' hplain' h₃
      exact ⟨ws, by simpa using p'', hws⟩

/-! ## Creations that fail -/

section Creations

variable {s : AdapterSettings} {name : String} {t : Template} {password : String} {draws : Draws}
  {bootSize : Nat} {sizes : List Nat} {region boot : String} {extra : List String}
  {notMade : List Skipped} {server : NodeId} {stage : Stage} {source : Error}

/-- What a creation has made when its volumes are there. -/
theorem VolumesMade.progress
    (h : VolumesMade s name t password bootSize sizes c js boot extra notMade d) :
    ∃ vs, Progress c js vs [] [] d ∧
      vs.map StoredVolume.deletion =
        (boot :: extra).map fun id => .deleteVolume ⟨t.datacenter, id⟩ := by
  cases h with
  | mk hboot hextra =>
    obtain ⟨v, hv, p⟩ := (Progress.refl c).volume hboot
    obtain ⟨ws, p', hws⟩ := p.of_createVolumes (fun k size hk => if_neg (by omega)) hextra
    exact ⟨_, p', by simp [hv, hws]⟩

/-- What a creation has made when its server is there. -/
theorem ServerMade.progress
    (h : ServerMade s name t password bootSize sizes c js boot extra notMade server d) :
    ∃ vs ss, Progress c js vs ss [] d ∧
      vs.map StoredVolume.deletion =
        ((boot :: extra).map fun id => .deleteVolume ⟨t.datacenter, id⟩) ∧
      ss.map StoredServer.deletion = [.deleteServer ⟨t.datacenter, server.server⟩] := by
  cases h with
  | mk hvolumes hserver =>
    obtain ⟨vs, p, hvs⟩ := hvolumes.progress
    obtain ⟨v, hv, p'⟩ := p.server hserver
    exact ⟨vs, _, p', hvs, by simp [hv]⟩

/-- If the network of a node fails, all is undone. -/
theorem Progress.of_networkRun (p : Progress c done vs ss [] d) (hc : c.IdsIssued)
    (hlist : c.ListsExisting) (hdel : c.ignoreServerDeletes = false) {volumes : List String}
    (hvs : vs.map StoredVolume.deletion =
      volumes.map fun id => .deleteVolume ⟨t.datacenter, id⟩)
    (hss : ss.map StoredServer.deletion = [.deleteServer ⟨t.datacenter, server.server⟩])
    (h : NetworkRun s name t region server volumes d js (.error (.fatal stage source)) d') :
    RolledBack c (done ++ js) stage source d' := by
  cases h with
  | noIpBlock h => exact p.of_critical hc hlist hdel rfl (by simp [Made.deletes, hss, hvs]) h
  | noNic hblock h =>
    obtain ⟨b, hb, p'⟩ := p.ipBlock hblock
    rw [List.append_cons]
    exact p'.of_critical hc hlist hdel rfl (by simp [Made.deletes, hss, hvs, hb]) h

theorem CreationRun.rolledBack (hc : c.IdsIssued) (hlist : c.ListsExisting)
    (hdel : c.ignoreServerDeletes = false)
    (h : CreationRun s name t draws bootSize sizes region c js (.error (.fatal stage source)) d) :
    RolledBack c js stage source d := by
  cases h with
  | noVolume h => exact (Progress.refl c).of_critical hc hlist hdel rfl rfl h
  | noServer hvolumes h =>
    obtain ⟨vs, p, hvs⟩ := hvolumes.progress
    exact p.of_critical hc hlist hdel rfl (by simp [Made.deletes, hvs]) h
  | noNetwork hserver h =>
    obtain ⟨vs, ss, p, hvs, hss⟩ := hserver.progress
    exact p.of_networkRun hc hlist hdel hvs hss h
  | noNode hserver hnetwork hsettle h =>
    have hfatal := getNode_error h
    cases hfatal

/-- A creation that fails fatally is undone. -/
theorem create_rolledBack (hc : c.IdsIssued) (hlist : c.ListsExisting)
    (hdel : c.ignoreServerDeletes = false)
    (h : Plays c (create s name t draws).run js (.error (.fatal stage source)) d) :
    RolledBack c js stage source d := by
  rcases plays_create h with ⟨e, herr, he, -⟩ | ⟨bootSize, sizes, region, -, h⟩
  · cases herr
    cases he
  · exact h.rolledBack hc hlist hdel

/-- Rollback is exact. If a creation fails fatally while nothing else goes on, then all that it did
was `done`, the critical call `bad`, whose failure is the cause of its own, and the deletes `undo`
of what it had made, each once and in the order server, volumes, addresses. What is left beside
what was there before is what could not be deleted. -/
theorem rollback_exact {w w' : World} (hc : w.backend.cloud.Reachable)
    (hlist : w.backend.cloud.ListsExisting) (hdel : w.backend.cloud.ignoreServerDeletes = false)
    (hrules : w.backend.rules = []) (hidle : w.queue.IsIdle) (hopen : w.queue.closed = false)
    (h : w.run (create s name t draws).run = (.error (.fatal stage source), w')) :
    ∃ done bad undo vs ss bs,
      w.jobs (create s name t draws).run = done ++ ⟨bad, .error source⟩ :: undo ∧
      w'.backend.changes = w.backend.changes ++ (done.map (·.call) ++ bad :: undo.map (·.call)) ∧
      bad.criticalStage? = some stage ∧
      (∀ j ∈ done, j.call.isDelete = false ∧ (j.call.criticalStage?.isSome → j.failed = false)) ∧
      undo.map (·.call) = done.filterMap Outcome.serverDeletion? ++
        done.filterMap Outcome.volumeDeletion? ++ done.filterMap Outcome.blockDeletion? ∧
      (undo.map (·.call)).Nodup ∧
      w'.backend.cloud.volumes = w.backend.cloud.volumes ++ vs ∧
      w'.backend.cloud.servers = w.backend.cloud.servers ++ ss ∧
      w'.backend.cloud.ipBlocks = w.backend.cloud.ipBlocks ++ bs ∧
      ss.map StoredServer.deletion ++ vs.map StoredVolume.deletion ++ bs.map blockDeletion =
        (undo.filter (·.failed)).map (·.call) := by
  have hplays := World.plays hrules (create s name t draws).run
  obtain ⟨hchanges, -⟩ := World.run_orderly hidle hopen (create_orderly s name t draws)
  rw [h] at hplays hchanges
  obtain ⟨done, bad, undo, vs, ss, bs, hjobs, hbad, hdone, hundo, hnodup, hleft⟩ :=
    create_rolledBack (MemoryCloud.idsIssued_content.mpr hc.idsIssued) hlist hdel hplays
  rw [hjobs, List.map_append, List.map_cons] at hchanges
  exact ⟨done, bad, undo, vs, ss, bs, hjobs, hchanges, hbad, hdone, hundo, hnodup, hleft⟩

/-- The server cannot be made, and the volume made for it cannot be deleted. -/
theorem rollback_exact_volume_left :
    let w : World := { backend := { cloud :=
      { failures := [("create_server", 1), ("delete_volume", 1)] } } }
    let t : Template :=
      { datacenter := "dc-1", region := some "de/fra", image := "img-1", password := some "secret"
        hardware := ⟨1, 1024, [10]⟩ }
    let x := (create {} "n" t fun _ => 0).run
    let source : Error := .backend "injected failure: create_server #1"
    (w.run x).1 = .error (.fatal .provisionServer source) ∧
      ∃ done bad undo, w.jobs x = done ++ ⟨bad, .error source⟩ :: undo ∧
        bad.criticalStage? = some .provisionServer := by
  intro w t x source
  have hfatal : (w.run x).1 = .error (.fatal .provisionServer source) := by decide +kernel
  have hrun : w.run x = (.error (.fatal .provisionServer source), (w.run x).2) := by rw [← hfatal]
  have hreach : w.backend.cloud.Reachable :=
    .seed (.seed .empty (.failure "create_server" 1)) (.failure "delete_volume" 1)
  obtain ⟨done, bad, undo, vs, ss, bs, hjobs, -, hbad, -⟩ :=
    rollback_exact hreach (by simp [w, MemoryCloud.ListsExisting]) rfl rfl JobQueue.isIdle_empty rfl
      hrun
  exact ⟨hfatal, done, bad, undo, hjobs, hbad⟩

end Creations

end Lifecycle

end ComputePlane
