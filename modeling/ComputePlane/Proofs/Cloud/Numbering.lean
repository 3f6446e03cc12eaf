import ComputePlane.Proofs.Cloud.Reading
import ComputePlane.Proofs.Cloud.Setup

/-!
# Reads that are told apart by their numbers

What a read answers depends on the content of the cloud, on the rules in front of it, and on how
many calls of its name were made before. So two backends that agree in these answer alike
(`Alike.ask`), whenever it is that they are asked.

A cloud that is set up to let calls fail counts those that reach it. Unless rules hold some of them
up, that is their number as well (`NumbersAtOnce`).
-/

namespace ComputePlane

namespace MemoryCloud

variable {c d : MemoryCloud} {call : Call}

/-! ## Counting -/

theorem lookup_bump_self (name : String) (counts : List (String × Nat)) :
    (bump name counts).lookup name = some ((counts.lookup name).getD 0 + 1) := by
  induction counts with
  | nil => simp [bump]
  | cons k counts ih =>
    obtain ⟨k, n⟩ := k
    unfold bump
    split_ifs with hk
    · subst hk
      simp
    · have hne : (name == k) = false := beq_false_of_ne (Ne.symm hk)
      rw [List.lookup_cons, List.lookup_cons, hne]
      exact ih

theorem count_record (c : MemoryCloud) (name : String) :
    (c.record name).2.count name = c.count name + 1 := by
  show ((bump name c.counts).lookup name).getD 0 = _
  rw [lookup_bump_self]
  rfl

theorem failures_of_content (h : c.content = d.content) : c.failures = d.failures := by
  show c.content.failures = d.content.failures
  rw [h]

/-- Whether a call fails by its number depends on what was set up and on that number. -/
theorem record_congr {name : String} (hfailures : c.failures = d.failures)
    (hcount : c.count name = d.count name) : (c.record name).1 = (d.record name).1 := by
  have hc := c.count_record name
  have hd := d.count_record name
  rw [← hcount, ← hc] at hd
  unfold record at hd ⊢
  dsimp only at hd ⊢
  rw [hd, hfailures]

theorem record_of_not_mem {name : String} (h : ∀ n, (name, n) ∉ c.failures) :
    (c.record name).1 = none := by
  unfold record
  dsimp only
  rw [if_neg fun hmem => h _ (List.contains_iff_mem.mp hmem)]

/-! ## Reading -/

/-- A read does nothing but count. -/
theorem call_of_read (h : call.isChange = false) (c : MemoryCloud) :
    c.call call =
      (match (c.record call.name).1 with
        | some e => .error e
        | none => (c.content.apply call).1,
      (c.record call.name).2) := by
  have happly : (c.record call.name).2.apply call =
      ((c.content.apply call).1, (c.record call.name).2) :=
    Prod.ext (congrArg Prod.fst ((c.record call.name).2.apply_content call)).symm
      (apply_of_read h)
  unfold MemoryCloud.call begin finish
  simp only [changes?_of_read h]
  cases (c.record call.name).1 with
  | some e => rfl
  | none => exact happly

/-- Of two clouds with the same content a read gives the same, unless they count it differently and
some reads are to fail by their numbers. -/
theorem call_congr_of_read (h : call.isChange = false) (hcontent : c.content = d.content)
    (hcount : (∀ n, (call.name, n) ∉ c.failures) ∨ c.count call.name = d.count call.name) :
    (c.call call).1 = (d.call call).1 := by
  have hfailures := failures_of_content hcontent
  have hrecord : (c.record call.name).1 = (d.record call.name).1 := by
    rcases hcount with hnone | hcount
    · rw [record_of_not_mem hnone, record_of_not_mem (hfailures ▸ hnone)]
    · exact record_congr hfailures hcount
  rw [call_of_read h, call_of_read h, hrecord, hcontent]

theorem count_call_of_read (h : call.isChange = false) (c : MemoryCloud) :
    (c.call call).2.count call.name = c.count call.name + 1 := by
  rw [call_of_read h, count_record]

end MemoryCloud

namespace Backend

variable {b b' : Backend} {c : Call} {name : String} {now now' : Nat}

/-! ## Backends that agree -/

/-- Two backends differ at most in what does not matter for reads of a name: in the record of calls,
in the numbers of other calls, and in how many reads have reached a cloud that lets none of them
fail. -/
structure Alike (name : String) (b b' : Backend) : Prop where
  rules : b.rules = b'.rules
  numbers : b.counts.lookup name = b'.counts.lookup name
  content : b.cloud.content = b'.cloud.content
  counts : (∀ n, (name, n) ∉ b.cloud.failures) ∨ b.cloud.count name = b'.cloud.count name

theorem Alike.refl (name : String) (b : Backend) : Alike name b b := ⟨rfl, rfl, rfl, .inr rfl⟩

/-- A call is numbered in the order in which it is made, and falls under the rule for its number. -/
theorem Alike.arrive (h : Alike c.name b b') (now now' : Nat) :
    (b.arrive now c).1.rule = (b'.arrive now' c).1.rule ∧
      Alike c.name (b.arrive now c).2 (b'.arrive now' c).2 := by
  have hnumbers : (MemoryCloud.bump c.name b.counts).lookup c.name =
      (MemoryCloud.bump c.name b'.counts).lookup c.name := by
    rw [MemoryCloud.lookup_bump_self, MemoryCloud.lookup_bump_self, h.numbers]
  refine ⟨?_, h.rules, hnumbers, h.content, h.counts⟩
  show b.rules.find? _ = b'.rules.find? _
  rw [hnumbers, h.rules]

/-- What a call that was made is answered depends on its rule, the content and, if some calls are to
fail by their numbers, on how the cloud counts it. -/
theorem settle_congr (hread : c.isChange = false) (hcontent : b.cloud.content = b'.cloud.content)
    (hcounts : (∀ n, (c.name, n) ∉ b.cloud.failures) ∨ b.cloud.count c.name = b'.cloud.count c.name)
    {p p' : Pending} (hp : p.rule = p'.rule) : (b.settle c p).1 = (b'.settle c p').1 := by
  have hcall := MemoryCloud.call_congr_of_read hread hcontent hcounts
  unfold Backend.settle
  rw [hp]
  split
  · exact congrArg (Option.getD _) hcall
  · rfl

/-- Backends that agree give the same answer to calls under the same rule, and agree again. -/
theorem Alike.settle (h : Alike c.name b b') (hread : c.isChange = false) {p p' : Pending}
    (hp : p.rule = p'.rule) :
    (b.settle c p).1 = (b'.settle c p').1 ∧
      Alike c.name (b.settle c p).2 (b'.settle c p').2 := by
  refine ⟨settle_congr hread h.content h.counts hp, ?_⟩
  have hcontent := (b.cloud.answers_call c).eq_of_read hread
  have hcontent' := (b'.cloud.answers_call c).eq_of_read hread
  have hfailures := MemoryCloud.failures_of_content hcontent
  unfold Backend.settle
  rw [hp]
  split
  · refine ⟨h.rules, h.numbers, hcontent.trans (h.content.trans hcontent'.symm), ?_⟩
    refine h.counts.imp (fun hnone n => hfailures ▸ hnone n) fun hcount => ?_
    show (b.cloud.call c).2.count c.name = (b'.cloud.call c).2.count c.name
    rw [MemoryCloud.count_call_of_read hread, MemoryCloud.count_call_of_read hread, hcount]
  · exact h

/-- Where no read of the name is to fail, it does not matter that one was answered. -/
theorem alike_settle (hread : c.isChange = false) (h : ∀ n, (c.name, n) ∉ b.cloud.failures)
    (p : Pending) : Alike c.name (b.settle c p).2 b := by
  have hcontent := (onlyRead_settle b p hread).content
  have hfailures := MemoryCloud.failures_of_content hcontent
  refine ⟨rules_settle b c p, ?_, hcontent, .inl fun n => hfailures ▸ h n⟩
  unfold settle
  split <;> rfl

/-! ## Calls one after another -/

/-- A call that is answered before another one is made. -/
def ask (b : Backend) (now : Nat) (c : Call) : c.Result × Backend :=
  let (p, b) := b.arrive now c
  b.settle c p

/-- Backends that agree give the same answer, at whatever times. -/
theorem Alike.ask (h : Alike c.name b b') (hread : c.isChange = false) (now now' : Nat) :
    (b.ask now c).1 = (b'.ask now' c).1 ∧ Alike c.name (b.ask now c).2 (b'.ask now' c).2 := by
  obtain ⟨hrule, harrive⟩ := h.arrive now now'
  exact harrive.settle hread hrule

/-! ## Delays -/

/-- The calls of a name reach the cloud in the order in which they are made, as far as the cloud
tells them apart: if it is to let some of them fail by their numbers, no rule holds any of them
up. -/
def NumbersAtOnce (b : Backend) (name : String) : Prop :=
  (∀ n, (name, n) ∉ b.cloud.failures) ∨ ∀ r ∈ b.rules, r.call = name → r.delay = 0

theorem NumbersAtOnce.of_onlyRead (h : b.NumbersAtOnce name) (hread : OnlyRead b b') :
    b'.NumbersAtOnce name := by
  have hfailures := MemoryCloud.failures_of_content hread.content
  unfold NumbersAtOnce
  rw [hfailures, hread.rules]
  exact h

/-- A call that is held up is not told apart by the cloud. -/
theorem NumbersAtOnce.of_held_up (h : b.NumbersAtOnce c.name)
    (hdue : now < (b.arrive now c).1.due) : ∀ n, (c.name, n) ∉ b.cloud.failures := by
  refine h.resolve_right fun hdelays => ?_
  unfold arrive at hdue
  dsimp only at hdue
  cases hrule : b.rules.find? (·.covers c.name
      (((MemoryCloud.bump c.name b.counts).lookup c.name).getD 0)) with
  | none =>
    rw [hrule] at hdue
    exact absurd hdue (Nat.lt_irrefl _)
  | some r =>
    have hcovers := List.find?_some hrule
    simp only [Rule.covers, Bool.and_eq_true, decide_eq_true_eq] at hcovers
    rw [hrule, Option.map_some, Option.getD_some,
      hdelays r (List.mem_of_find?_eq_some hrule) hcovers.1.1] at hdue
    exact absurd hdue (Nat.lt_irrefl _)

end Backend

end ComputePlane
