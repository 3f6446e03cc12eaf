import Mathlib.Control.Monad.Basic
import ComputePlane.Cloud.Memory

/-!
# What calls do to a cloud

The record of calls aside, a call that does not fail by its number acts on what the cloud holds, its
`content`. Reads leave it alone.
-/

namespace ComputePlane

/-- The failure of a step without which an operation cannot go on. -/
def Error.isFatal : Error → Bool
  | .fatal .. => true
  | _ => false

namespace MemoryCloud

variable {c : MemoryCloud}

/-- A cloud without its records of calls: all that its answers depend on. -/
def content (c : MemoryCloud) : MemoryCloud :=
  { c with counts := [], inFlight := [], overlaps := 0 }

@[simp] theorem content_content (c : MemoryCloud) : c.content.content = c.content := rfl

@[simp] theorem stored?_content (c : MemoryCloud) (id : NodeId) :
    c.content.stored? id = c.stored? id := rfl

theorem changeServer_content (c : MemoryCloud) (id : NodeId) (f : StoredServer → StoredServer) :
    c.content.changeServer id f =
      ((c.changeServer id f).1, (c.changeServer id f).2.content) := by
  by_cases h : (c.stored? id).isSome = true
  · simp only [changeServer, stored?_content, h, if_true]
    rfl
  · simp only [changeServer, stored?_content, h]
    rfl

theorem deleteServer_content (c : MemoryCloud) (id : NodeId) :
    c.content.deleteServer id = (c.deleteServer id).content := by
  by_cases h : c.ignoreServerDeletes = true
  · simp [deleteServer, content, h]
  · simp [deleteServer, content, h]

theorem createNic_content (c : MemoryCloud) (id : NodeId) (r : NicRequest) :
    c.content.createNic id r = ((c.createNic id r).1, (c.createNic id r).2.content) := by
  simp only [createNic]
  rw [show (c.content.issue "nic").2 = (c.issue "nic").2.content from rfl,
    show (c.content.issue "nic").1 = (c.issue "nic").1 from rfl, changeServer_content]

theorem createFirewallRule_content (c : MemoryCloud) (n : NicRef) (r : FirewallRuleRequest) :
    c.content.createFirewallRule n r =
      ((c.createFirewallRule n r).1, (c.createFirewallRule n r).2.content) := by
  have hstored :
      (c.content.issue "fw").2.stored? n.server = (c.issue "fw").2.stored? n.server := rfl
  simp only [createFirewallRule, hstored]
  split
  · rfl
  · split <;> rfl

/-- A call acts on the content alone. -/
theorem apply_content (c : MemoryCloud) (call : Call) :
    c.content.apply call = ((c.apply call).1, (c.apply call).2.content) := by
  cases call with
  | deleteServer s => exact congrArg (Prod.mk _) (deleteServer_content c s)
  | attachVolume | rebootServer | startServer | stopServer => exact changeServer_content ..
  | createNic s r => exact createNic_content c s r
  | createFirewallRule n r => exact createFirewallRule_content c n r
  | _ => rfl

theorem changes?_of_read {call : Call} (h : call.isChange = false) : call.changes? = none := by
  cases call <;> first | rfl | cases h

theorem apply_of_read {call : Call} (h : call.isChange = false) : (c.apply call).2 = c := by
  cases call <;> first | rfl | cases h

/-! ## Whole calls -/

/-- A call that has begun has changed nothing yet. -/
theorem begin_content (c : MemoryCloud) (call : Call) : (c.begin call).2.content = c.content := by
  unfold begin record
  dsimp only
  cases call.changes? <;> rfl

/-- A call that comes to its end has failed by its number, or it acts on the content. -/
theorem finish_content (c : MemoryCloud) (call : Call) (failure : Option Error) :
    ((c.finish call failure).1, (c.finish call failure).2.content) =
      match failure with
      | some e => (.error e, c.content)
      | none => c.content.apply call := by
  obtain ⟨d, hd, hfinish⟩ : ∃ d : MemoryCloud, d.content = c.content ∧
      c.finish call failure = match failure with
        | some e => (.error e, d)
        | none => d.apply call := by
    unfold finish
    cases call.changes? with
    | none => exact ⟨c, rfl, rfl⟩
    | some dc => exact ⟨{ c with inFlight := c.inFlight.erase dc }, rfl, rfl⟩
  rw [hfinish]
  cases failure with
  | some e => simp only [hd]
  | none => simp only [← apply_content, hd]

theorem finish_some (c : MemoryCloud) (call : Call) (e : Error) :
    (c.finish call (some e)).1 = .error e ∧ (c.finish call (some e)).2.content = c.content :=
  Prod.ext_iff.mp (c.finish_content call (some e))

theorem finish_none (c : MemoryCloud) (call : Call) :
    (c.finish call none).1 = (c.content.apply call).1 ∧
      (c.finish call none).2.content = (c.content.apply call).2 :=
  Prod.ext_iff.mp (c.finish_content call none)

theorem begin_fst (c : MemoryCloud) (call : Call) :
    (c.begin call).1 = (c.record call.name).1 := by
  unfold begin
  dsimp only
  cases call.changes? <;> rfl

/-- A call fails by its number only if it was set up to, and not fatally. -/
theorem begin_failure {call : Call} {e : Error} (h : (c.begin call).1 = some e) :
    (∃ n, (call.name, n) ∈ c.failures) ∧ e.isFatal = false := by
  rw [begin_fst, record] at h
  dsimp only at h
  split at h
  · next hmem =>
    cases h
    exact ⟨⟨_, List.contains_iff_mem.mp hmem⟩, rfl⟩
  · cases h

/-- What a call can come to: it fails and does nothing, or it is carried out. -/
inductive Answers (c : MemoryCloud) (call : Call) : call.Result → MemoryCloud → Prop where
  | failed {e : Error} (he : e.isFatal = false) : Answers c call (.error e) c
  | applied {r : call.Result} {d : MemoryCloud} (h : c.apply call = (r, d)) : Answers c call r d

theorem answers_call (c : MemoryCloud) (call : Call) :
    Answers c.content call (c.call call).1 (c.call call).2.content := by
  have hcall : c.call call = (c.begin call).2.finish call (c.begin call).1 := rfl
  have hfinish := (c.begin call).2.finish_content call (c.begin call).1
  rw [← hcall, begin_content] at hfinish
  cases hfail : (c.begin call).1 with
  | none =>
    rw [hfail] at hfinish
    exact .applied hfinish.symm
  | some e =>
    rw [hfail] at hfinish
    obtain ⟨hres, hcontent⟩ := Prod.mk.inj hfinish
    rw [hres, hcontent]
    exact .failed (begin_failure hfail).2

/-- A read that is answered leaves the cloud as it was. -/
theorem Answers.eq_of_read {d : MemoryCloud} {call : Call} {r : call.Result}
    (h : Answers c call r d) (hread : call.isChange = false) : d = c := by
  cases h with
  | failed => rfl
  | applied happ =>
    have heq := apply_of_read (c := c) hread
    rwa [happ] at heq

/-- What a look-up finds is there. -/
theorem Answers.eq_server? {d : MemoryCloud} {id : NodeId} {r : Option Server}
    (h : Answers c (.getServer id) (.ok r) d) : c.server? id = r := by
  cases h with
  | applied happ => exact Except.ok.inj (congrArg Prod.fst happ)

end MemoryCloud

end ComputePlane
