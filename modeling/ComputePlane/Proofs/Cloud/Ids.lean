import ComputePlane.Proofs.Cloud.Memory

/-!
# Ids and the resources that have them

Which volumes, servers and blocks of addresses there are is changed by six calls only
(`volumes_apply`, `serverIds_apply`, `ipBlocks_apply`). All of them have ids that were issued, and
so a new id is none of theirs.
-/

namespace ComputePlane

open Number

theorem Number.decimal_inj {m n : Nat} (h : decimal m = decimal n) : m = n := by
  have hchars : Nat.toDigits 10 m = Nat.toDigits 10 n := by
    simpa [decimal] using congrArg String.toList h
  calc m = Nat.ofDigitChars 10 (Nat.toDigits 10 m) 0 := Nat.ofDigitChars_ten_toDigits.symm
    _ = n := by rw [hchars, Nat.ofDigitChars_ten_toDigits]

namespace MemoryCloud

variable {c d : MemoryCloud}

/-! ## What changes a server -/

@[simp] theorem volumes_changeServer (c : MemoryCloud) (id : NodeId)
    (f : StoredServer → StoredServer) : (c.changeServer id f).2.volumes = c.volumes := by
  unfold changeServer
  split <;> rfl

@[simp] theorem ipBlocks_changeServer (c : MemoryCloud) (id : NodeId)
    (f : StoredServer → StoredServer) : (c.changeServer id f).2.ipBlocks = c.ipBlocks := by
  unfold changeServer
  split <;> rfl

@[simp] theorem issued_changeServer (c : MemoryCloud) (id : NodeId)
    (f : StoredServer → StoredServer) : (c.changeServer id f).2.issued = c.issued := by
  unfold changeServer
  split <;> rfl

theorem serverIds_updateServer (c : MemoryCloud) (id : NodeId) {f : StoredServer → StoredServer}
    (hf : ∀ s, (f s).id = s.id) :
    (c.updateServer id f).servers.map (·.id) = c.servers.map (·.id) := by
  unfold updateServer
  rw [List.map_map]
  refine List.map_congr_left fun s _ => ?_
  dsimp only [Function.comp_apply]
  split
  · exact hf s
  · rfl

theorem serverIds_changeServer (c : MemoryCloud) (id : NodeId) {f : StoredServer → StoredServer}
    (hf : ∀ s, (f s).id = s.id) :
    (c.changeServer id f).2.servers.map (·.id) = c.servers.map (·.id) := by
  unfold changeServer
  split
  · exact serverIds_updateServer c id hf
  · rfl

/-! ## Which resources there are -/

theorem volumes_apply (c : MemoryCloud) (call : Call) :
    (c.apply call).2.volumes =
      match call with
      | .createVolume dc r => c.volumes ++ [⟨dc, (c.issue "vol").1, r.name, r.size, .available,
          r.image.map fun _ => .linux⟩]
      | .deleteVolume v =>
        c.volumes.filter fun w => ¬(w.datacenter = v.datacenter ∧ w.id = v.volume)
      | _ => c.volumes := by
  cases call with
  | deleteServer s =>
    simp only [apply, deleteServer]
    split <;> rfl
  | attachVolume | rebootServer | startServer | stopServer => simp [apply, attachVolume]
  | createNic s r => simp [apply, createNic, issue]
  | createFirewallRule n r =>
    simp only [apply, createFirewallRule]
    split
    · rfl
    · split <;> rfl
  | _ => rfl

theorem serverIds_apply (c : MemoryCloud) (call : Call) :
    (c.apply call).2.servers.map (·.id) =
      match call with
      | .createServer dc _ => c.servers.map (·.id) ++ [⟨dc, (c.issue "srv").1⟩]
      | .deleteServer s =>
        if c.ignoreServerDeletes then c.servers.map (·.id)
        else (c.servers.map (·.id)).filter (· ≠ s)
      | _ => c.servers.map (·.id) := by
  cases call with
  | createServer dc r => simp [apply, createServer, issue]
  | deleteVolume v => simp [apply, deleteVolume]
  | deleteServer s =>
    simp only [apply, deleteServer]
    split
    · rfl
    · simp [List.filter_map, Function.comp_def]
  | attachVolume | rebootServer | startServer | stopServer =>
    exact serverIds_changeServer _ _ fun _ => rfl
  | createNic s r => exact serverIds_changeServer _ _ fun _ => rfl
  | createFirewallRule n r =>
    simp only [apply, createFirewallRule]
    split
    · rfl
    · split
      · rfl
      · exact serverIds_updateServer _ _ fun _ => rfl
  | _ => rfl

/-- Servers stay told apart by their ids if none of them has the next one. -/
theorem nodup_serverIds_apply (hnew : ∀ id ∈ c.servers.map (·.id), id.server ≠ (c.issue "srv").1)
    (h : (c.servers.map (·.id)).Nodup) (call : Call) :
    ((c.apply call).2.servers.map (·.id)).Nodup := by
  rw [serverIds_apply]
  cases call with
  | createServer dc r =>
    refine List.nodup_append.mpr ⟨h, by simp, fun id hid new hmem heq => ?_⟩
    obtain rfl := List.mem_singleton.mp hmem
    exact hnew id hid (congrArg NodeId.server heq)
  | deleteServer id =>
    dsimp only
    split
    · exact h
    · exact h.filter _
  | _ => exact h

theorem ipBlocks_apply (c : MemoryCloud) (call : Call) :
    (c.apply call).2.ipBlocks =
      match call with
      | .createIpBlock r =>
        c.ipBlocks ++ [((c.issue "ipb").1, (c.createIpBlock r).1.properties.ips)]
      | .deleteIpBlock b => c.ipBlocks.filter (·.1 ≠ b)
      | _ => c.ipBlocks := by
  cases call with
  | deleteServer s =>
    simp only [apply, deleteServer]
    split <;> rfl
  | attachVolume | rebootServer | startServer | stopServer => simp [apply, attachVolume]
  | createNic s r => simp [apply, createNic, issue]
  | createFirewallRule n r =>
    simp only [apply, createFirewallRule]
    split
    · rfl
    · split <;> rfl
  | _ => rfl

/-! ## Calls that fail -/

theorem changeServer_error {id : NodeId} {f : StoredServer → StoredServer} {e : Error}
    (h : c.changeServer id f = (.error e, d)) : d = c ∧ e = noServer id := by
  unfold changeServer at h
  split at h <;> cases h
  exact ⟨rfl, rfl⟩

theorem createNic_error {id : NodeId} {r : NicRequest} {e : Error}
    (h : c.createNic id r = (.error e, d)) :
    d = { c with issued := c.issued + 1 } ∧ e = noServer id := by
  simp only [createNic] at h
  generalize hchange : (c.issue "nic").2.changeServer id _ = p at h
  obtain ⟨done, c'⟩ := p
  cases done with
  | ok a => cases h
  | error err =>
    cases h
    exact changeServer_error hchange

theorem createFirewallRule_error {n : NicRef} {r : FirewallRuleRequest} {e : Error}
    (h : c.createFirewallRule n r = (.error e, d)) :
    d = { c with issued := c.issued + 1 } ∧ ∃ text, e = .backend text := by
  simp only [createFirewallRule] at h
  split at h
  · cases h
    exact ⟨rfl, _, rfl⟩
  · split at h <;> cases h
    exact ⟨rfl, _, rfl⟩

/-- A call that fails uses up an id at most, and is never fatal. -/
theorem apply_error {call : Call} {e : Error} (h : c.apply call = (.error e, d)) :
    (d = c ∨ d = { c with issued := c.issued + 1 }) ∧ e.isFatal = false := by
  cases call with
  | attachVolume | rebootServer | startServer | stopServer =>
    obtain ⟨rfl, rfl⟩ := changeServer_error h
    exact ⟨.inl rfl, rfl⟩
  | createNic s r =>
    obtain ⟨hd, rfl⟩ := createNic_error h
    exact ⟨.inr hd, rfl⟩
  | createFirewallRule n r =>
    obtain ⟨hd, text, rfl⟩ := createFirewallRule_error h
    exact ⟨.inr hd, rfl⟩
  | _ => cases h

theorem Answers.isFatal_eq_false {call : Call} {e : Error} (h : Answers c call (.error e) d) :
    e.isFatal = false := by
  cases h with
  | failed he => exact he
  | applied happ => exact (apply_error happ).2

/-! ## Ids that were issued -/

def issues (call : Call) : Bool :=
  match call with
  | .createVolume .. | .createServer .. | .createIpBlock _ => true
  | .createNic .. | .createFirewallRule .. => true
  | _ => false

theorem issued_apply (c : MemoryCloud) (call : Call) :
    (c.apply call).2.issued = if issues call then c.issued + 1 else c.issued := by
  cases call with
  | deleteServer s =>
    simp only [apply, deleteServer]
    split <;> rfl
  | attachVolume | rebootServer | startServer | stopServer =>
    exact issued_changeServer ..
  | createNic s r => simp [apply, createNic, issue, issues]
  | createFirewallRule n r =>
    simp only [apply, createFirewallRule]
    split
    · rfl
    · split <;> rfl
  | _ => rfl

theorem issued_le_apply (c : MemoryCloud) (call : Call) : c.issued ≤ (c.apply call).2.issued := by
  rw [issued_apply]
  split <;> omega

def HasIssued (c : MemoryCloud) (kind id : String) : Prop :=
  ∃ n ≤ c.issued, id = kind ++ "-" ++ decimal n

theorem HasIssued.mono {kind id : String} (h : c.HasIssued kind id) (hle : c.issued ≤ d.issued) :
    d.HasIssued kind id := by
  obtain ⟨n, hn, rfl⟩ := h
  exact ⟨n, Nat.le_trans hn hle, rfl⟩

theorem HasIssued.ne_issue {kind id : String} (h : c.HasIssued kind id) :
    id ≠ (c.issue kind).1 := by
  obtain ⟨n, hn, rfl⟩ := h
  intro heq
  have hsucc : n = c.issued + 1 := decimal_inj ((String.append_right_inj _).mp heq)
  omega

/-- The ids of all resources were issued. -/
structure IdsIssued (c : MemoryCloud) : Prop where
  volume : ∀ v ∈ c.volumes, c.HasIssued "vol" v.id
  server : ∀ id ∈ c.servers.map (·.id), c.HasIssued "srv" id.server
  ipBlock : ∀ b ∈ c.ipBlocks, c.HasIssued "ipb" b.1

theorem IdsIssued.apply (h : c.IdsIssued) (call : Call) : (c.apply call).2.IdsIssued := by
  have hle := c.issued_le_apply call
  refine ⟨fun v hv => ?volume, fun id hid => ?server, fun b hb => ?ipBlock⟩
  case volume =>
    rw [volumes_apply] at hv
    cases call with
    | createVolume dc r =>
      rcases List.mem_append.mp hv with hv | hv
      · exact (h.volume v hv).mono hle
      · obtain rfl := List.mem_singleton.mp hv
        exact ⟨c.issued + 1, Nat.le_refl _, rfl⟩
    | deleteVolume w => exact (h.volume v (List.mem_filter.mp hv).1).mono hle
    | _ => exact (h.volume v hv).mono hle
  case server =>
    rw [serverIds_apply] at hid
    cases call with
    | createServer dc r =>
      rcases List.mem_append.mp hid with hid | hid
      · exact (h.server id hid).mono hle
      · obtain rfl := List.mem_singleton.mp hid
        exact ⟨c.issued + 1, Nat.le_refl _, rfl⟩
    | deleteServer s =>
      dsimp only at hid
      split at hid
      · exact (h.server id hid).mono hle
      · exact (h.server id (List.mem_filter.mp hid).1).mono hle
    | _ => exact (h.server id hid).mono hle
  case ipBlock =>
    rw [ipBlocks_apply] at hb
    cases call with
    | createIpBlock r =>
      rcases List.mem_append.mp hb with hb | hb
      · exact (h.ipBlock b hb).mono hle
      · obtain rfl := List.mem_singleton.mp hb
        exact ⟨c.issued + 1, Nat.le_refl _, rfl⟩
    | deleteIpBlock id => exact (h.ipBlock b (List.mem_filter.mp hb).1).mono hle
    | _ => exact (h.ipBlock b hb).mono hle

end MemoryCloud

end ComputePlane
