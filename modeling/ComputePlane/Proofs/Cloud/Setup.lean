import ComputePlane.Proofs.Cloud.Reachable

/-!
# What a cloud is set up with

The datacenters of a cloud and the failures that its calls are to have come from setting it up, and
calls leave them alone (`setup_apply`). The ids of its datacenters were issued, so a node's text can
have them (`Reachable.datacenter_isPlain`).
-/

namespace ComputePlane.MemoryCloud

open Number

variable {c d : MemoryCloud} {call : Call}

/-- The datacenters with their regions, and the failures that calls are to have. -/
def setup (c : MemoryCloud) : List (String × String) × List (String × Nat) :=
  (c.datacenters, c.failures)

@[simp] theorem setup_content (c : MemoryCloud) : c.content.setup = c.setup := rfl

/-! ## Calls -/

theorem setup_changeServer (c : MemoryCloud) (id : NodeId) (f : StoredServer → StoredServer) :
    (c.changeServer id f).2.setup = c.setup := by
  unfold changeServer
  split <;> rfl

theorem setup_apply (c : MemoryCloud) (call : Call) : (c.apply call).2.setup = c.setup := by
  cases call with
  | deleteServer s =>
    simp only [apply, deleteServer]
    split <;> rfl
  | attachVolume | rebootServer | startServer | stopServer => exact setup_changeServer ..
  | createNic s r => exact setup_changeServer ..
  | createFirewallRule n r =>
    simp only [apply, createFirewallRule]
    split
    · rfl
    · split <;> rfl
  | _ => rfl

@[simp] theorem setup_begin (c : MemoryCloud) (call : Call) :
    (c.begin call).2.setup = c.setup := by
  rw [← setup_content, begin_content, setup_content]

@[simp] theorem setup_finish (c : MemoryCloud) (call : Call) (failure : Option Error) :
    (c.finish call failure).2.setup = c.setup := by
  rw [← setup_content]
  cases failure with
  | some e => rw [(c.finish_some call e).2, setup_content]
  | none => rw [(c.finish_none call).2, setup_apply, setup_content]

/-- A call that is not to fail is carried out. -/
theorem call_of_begin_none (h : (c.begin call).1 = none) :
    (c.call call).1 = (c.content.apply call).1 ∧
      (c.call call).2.content = (c.content.apply call).2 := by
  have hcall : c.call call = (c.begin call).2.finish call none := h ▸ rfl
  rw [hcall, ← c.begin_content call]
  exact finish_none _ call

/-- No call is to fail if none was set up to. -/
theorem begin_of_failures_nil (h : c.failures = []) (call : Call) : (c.begin call).1 = none := by
  cases hfailure : (c.begin call).1 with
  | none => rfl
  | some e =>
    obtain ⟨⟨n, hn⟩, -⟩ := begin_failure hfailure
    rw [h] at hn
    cases hn

/-- A cloud in which no call is to fail carries every call out. -/
theorem call_of_failures_nil (h : c.failures = []) (call : Call) :
    (c.call call).1 = (c.content.apply call).1 ∧
      (c.call call).2.content = (c.content.apply call).2 :=
  call_of_begin_none (begin_of_failures_nil h call)

/-! ## Ids that were issued -/

/-- An id that was issued can stand in the text of a node. -/
theorem isPlain_issued {kind : String} (n : Nat) (hkind : '/' ∉ kind.toList) :
    kind ++ "-" ++ decimal n ≠ "" ∧ '/' ∉ (kind ++ "-" ++ decimal n).toList := by
  have hdigits : '/' ∉ (decimal n).toList := by
    intro hmem
    rw [decimal, String.toList_ofList] at hmem
    exact absurd (Nat.isDigit_of_mem_toDigits (by decide) (by decide) hmem) (by decide)
  refine ⟨fun heq => ?_, ?_⟩
  · simpa using congrArg String.toList heq
  · simp [hkind, hdigits]

theorem Seeds.datacenters (hs : Seeds c d) :
    ∀ dc ∈ d.datacenters, dc ∈ c.datacenters ∨ dc.1 = "dc" ++ "-" ++ decimal (c.issued + 1) := by
  intro dc hdc
  cases hs with
  | datacenter region =>
    rcases List.mem_append.mp hdc with hdc | hdc
    · exact .inl hdc
    · exact .inr (congrArg Prod.fst (List.mem_singleton.mp hdc))
  | _ => exact .inl hdc

theorem Reachable.datacenter_issued (h : Reachable c) :
    ∀ dc ∈ c.datacenters, ∃ n, dc.1 = "dc" ++ "-" ++ decimal n := by
  induction h with
  | empty => exact fun dc hdc => nomatch hdc
  | @seed c d h hs ih =>
    intro dc hdc
    rcases hs.datacenters dc hdc with hdc | hdc
    · exact ih dc hdc
    · exact ⟨c.issued + 1, hdc⟩
  | @begin c h call ih =>
    rw [show (c.begin call).2.datacenters = c.datacenters from
      congrArg Prod.fst (c.setup_begin call)]
    exact ih
  | @finish c h call failure ih =>
    rw [show (c.finish call failure).2.datacenters = c.datacenters from
      congrArg Prod.fst (c.setup_finish call failure)]
    exact ih

/-- The id of a datacenter can stand in the text of a node. -/
theorem Reachable.datacenter_isPlain (h : Reachable c) {dc : String}
    (hdc : dc ∈ c.datacenters.map (·.1)) : dc ≠ "" ∧ '/' ∉ dc.toList := by
  obtain ⟨d, hd, rfl⟩ := List.mem_map.mp hdc
  obtain ⟨n, hn⟩ := h.datacenter_issued d hd
  rw [hn]
  exact isPlain_issued n (by decide)

end ComputePlane.MemoryCloud
