import ComputePlane.Cloud.Listing
import ComputePlane.Cloud.Watch
import ComputePlane.Proofs.Cloud.Reachable

/-!
# Reads and changes of a backend

A call that reads leaves the cloud, the rules in front of it and the changes recorded so far as they
are (`OnlyRead`). Watches and listings make no other calls.
-/

namespace ComputePlane

/-- Calls that read lead from one cloud to the other. -/
inductive MemoryCloud.ReadSteps (c : MemoryCloud) : MemoryCloud → Prop where
  | refl : ReadSteps c c
  | call {d call} (h : ReadSteps c d) (hc : call.isChange = false) : ReadSteps c (d.call call).2

theorem MemoryCloud.ReadSteps.trans {c d e : MemoryCloud} (h : c.ReadSteps d)
    (h' : d.ReadSteps e) : c.ReadSteps e := by
  induction h' with
  | refl => exact h
  | call _ hc ih => exact ih.call hc

namespace Backend

variable {b b' : Backend} {c : Call}

/-- The changes among the calls that were made, in order. -/
def changes (b : Backend) : List Call :=
  (b.log.map (·.call)).filter Call.isChange

/-! ## Single calls -/

theorem changes_arrive (b : Backend) (now : Nat) (c : Call) :
    (b.arrive now c).2.changes = b.changes ++ [c].filter Call.isChange := by
  simp only [arrive, changes, List.map_append, List.map_cons, List.map_nil, List.filter_append]

@[simp] theorem cloud_arrive (b : Backend) (now : Nat) (c : Call) :
    (b.arrive now c).2.cloud = b.cloud := rfl

@[simp] theorem rules_arrive (b : Backend) (now : Nat) (c : Call) :
    (b.arrive now c).2.rules = b.rules := rfl

@[simp] theorem changes_settle (b : Backend) (c : Call) (p : Pending) :
    (b.settle c p).2.changes = b.changes := by
  unfold settle
  split <;> rfl

@[simp] theorem rules_settle (b : Backend) (c : Call) (p : Pending) :
    (b.settle c p).2.rules = b.rules := by
  unfold settle
  split <;> rfl

/-- Without rules a call falls under none. -/
theorem rule_arrive (h : b.rules = []) (now : Nat) (c : Call) :
    (b.arrive now c).1.rule = none := by
  simp [arrive, h]

/-- Without rules a call is answered at once. -/
theorem due_arrive (h : b.rules = []) (now : Nat) (c : Call) : (b.arrive now c).1.due = now := by
  simp [arrive, h]

/-- A call that falls under no rule is passed on. -/
theorem settle_of_rule_none (b : Backend) (c : Call) {p : Pending} (h : p.rule = none) :
    b.settle c p = b.pass c := by
  unfold settle
  rw [h]
  rfl

/-- A call that falls under no rule is answered by the cloud. -/
theorem answers_settle (b : Backend) (c : Call) {p : Pending} (h : p.rule = none) :
    b.cloud.content.Answers c (b.settle c p).1 (b.settle c p).2.cloud.content := by
  unfold settle
  rw [h]
  exact b.cloud.answers_call c

theorem reachable_settle {b : Backend} (h : b.cloud.Reachable) (c : Call) (p : Pending) :
    (b.settle c p).2.cloud.Reachable := by
  unfold settle
  split
  · exact h.call c
  · exact h

/-! ## Reads -/

/-- Nothing but reads happened in between. -/
structure OnlyRead (b b' : Backend) : Prop where
  reads : b.cloud.ReadSteps b'.cloud
  content : b'.cloud.content = b.cloud.content
  rules : b'.rules = b.rules
  changes : b'.changes = b.changes
  reachable : b.cloud.Reachable → b'.cloud.Reachable

theorem OnlyRead.refl (b : Backend) : OnlyRead b b := ⟨.refl, rfl, rfl, rfl, id⟩

theorem OnlyRead.trans {b'' : Backend} (h : OnlyRead b b') (h' : OnlyRead b' b'') :
    OnlyRead b b'' :=
  ⟨h.reads.trans h'.reads, h'.content.trans h.content, h'.rules.trans h.rules,
    h'.changes.trans h.changes, fun hreach => h'.reachable (h.reachable hreach)⟩

theorem onlyRead_arrive (b : Backend) (now : Nat) (hc : c.isChange = false) :
    OnlyRead b (b.arrive now c).2 := by
  refine ⟨.refl, rfl, rfl, ?_, id⟩
  rw [changes_arrive]
  simp [hc]

theorem onlyRead_settle (b : Backend) (p : Pending) (hc : c.isChange = false) :
    OnlyRead b (b.settle c p).2 := by
  refine ⟨?_, ?_, rules_settle b c p, changes_settle b c p, fun h => reachable_settle h c p⟩
  · unfold settle
    split
    · exact .call .refl hc
    · exact .refl
  · unfold settle
    split
    · exact (b.cloud.answers_call c).eq_of_read hc
    · rfl

end Backend

open Backend

/-! ## Watches -/

theorem Watch.question_isRead (w : Watch) : w.question.call.isChange = false := by
  cases w with
  | state r target => cases r <;> rfl
  | status | gone => rfl

theorem Asking.onlyRead_settle {q : Question} (hq : q.call.isChange = false) (now : Nat)
    (b : Backend) (w : Wait) (p : Pending) : OnlyRead b (Asking.settle q now b w p).2 := by
  unfold Asking.settle
  split
  · exact Backend.onlyRead_settle b p hq
  · split <;> exact .refl b

theorem Asking.onlyRead_poll {q : Question} (hq : q.call.isChange = false) (now : Nat)
    (b : Backend) (a : Asking) : OnlyRead b (a.poll q now b).2 := by
  cases a with
  | pausing w wake =>
    by_cases hw : now < wake
    · simp only [Asking.poll, if_pos hw]
      exact .refl b
    · simp only [Asking.poll, if_neg hw]
      exact (Backend.onlyRead_arrive b now hq).trans (Asking.onlyRead_settle hq now _ w _)
  | asking w p => exact Asking.onlyRead_settle hq now b w p
  | breaking wake =>
    simp only [Asking.poll]
    split <;> exact .refl b

/-! ## Listings -/

/-- A node is looked up by the ids in its text. -/
theorem Topic.lookup_nodes {key : String} {l : Topic.nodes.Lookup}
    (h : Topic.nodes.lookup key = .ok l) :
    ∃ id, l = ⟨.getServer id, foundNode key id⟩ := by
  simp only [Topic.lookup] at h
  cases hid : NodeId.parse key with
  | error e =>
    rw [hid] at h
    cases h
  | ok id =>
    rw [hid] at h
    cases h
    exact ⟨id, rfl⟩

theorem Topic.lookup_isRead {t : Topic} {key : String} {l : t.Lookup} (h : t.lookup key = .ok l) :
    l.call.isChange = false := by
  cases t with
  | locations | servers =>
    cases h
    rfl
  | nodes =>
    obtain ⟨id, rfl⟩ := lookup_nodes h
    rfl

namespace Slot

variable {t : Topic}

/-- What an entry waits for is the answer of a read. -/
def Reads : Slot t → Prop
  | waiting l _ => l.call.isChange = false
  | _ => True

theorem onlyRead_reach (now : Nat) (b : Backend) {l : t.Lookup} (hl : l.call.isChange = false)
    (p : Pending) : (reach now b l p).1.Reads ∧ OnlyRead b (reach now b l p).2 := by
  unfold reach
  split
  · exact ⟨trivial, onlyRead_settle b p hl⟩
  · exact ⟨hl, .refl b⟩

theorem onlyRead_begin (now : Nat) (b : Backend) (key : String) :
    (begin (t := t) now b key).1.Reads ∧ OnlyRead b (begin (t := t) now b key).2 := by
  unfold begin
  split
  · exact ⟨trivial, .refl b⟩
  · next l hl =>
    have hread := Topic.lookup_isRead hl
    obtain ⟨hslot, hb⟩ := onlyRead_reach now (b.arrive now l.call).2 hread (b.arrive now l.call).1
    exact ⟨hslot, (onlyRead_arrive b now hread).trans hb⟩

theorem onlyRead_advance {now : Nat} {b b' : Backend} {slots slots' : List (Slot t)}
    (h : advance now b slots = some (slots', b')) (hs : ∀ s ∈ slots, s.Reads) :
    (∀ s ∈ slots', s.Reads) ∧ OnlyRead b b' := by
  induction slots generalizing slots' b' with
  | nil => cases h
  | cons s rest ih =>
    obtain ⟨hslot, hrest⟩ := List.forall_mem_cons.mp hs
    -- unless this entry is the one that goes on, it is one behind it
    have hbehind : ∀ {r}, advance now b rest = some r → slots' = s :: r.1 → b' = r.2 →
        (∀ s ∈ slots', s.Reads) ∧ OnlyRead b b' := by
      rintro ⟨slots, b''⟩ hr rfl rfl
      obtain ⟨hs', hb⟩ := ih hr hrest
      exact ⟨List.forall_mem_cons.mpr ⟨hslot, hs'⟩, hb⟩
    cases s with
    | fresh key =>
      cases h
      obtain ⟨hslot', hb⟩ := onlyRead_begin (t := t) now b key
      exact ⟨List.forall_mem_cons.mpr ⟨hslot', hrest⟩, hb⟩
    | waiting l p =>
      unfold advance at h
      split at h
      · cases h
        obtain ⟨hslot', hb⟩ := onlyRead_reach now b hslot p
        exact ⟨List.forall_mem_cons.mpr ⟨hslot', hrest⟩, hb⟩
      · obtain ⟨r, hr, heq⟩ := Option.map_eq_some_iff.mp h
        cases heq
        exact hbehind hr rfl rfl
    | settled r =>
      obtain ⟨q, hq, heq⟩ := Option.map_eq_some_iff.mp h
      cases heq
      exact hbehind hq rfl rfl

end Slot

namespace Gathering

variable {t : Topic}

theorem onlyRead_moves (now count : Nat) (b : Backend) (g : Gathering t)
    (hg : ∀ s ∈ g.slots, s.Reads) :
    OnlyRead b (moves now count b g).2 ∧
      ∀ g', (moves now count b g).1 = .inr g' → ∀ s ∈ g'.slots, s.Reads := by
  induction count generalizing b g with
  | zero => exact ⟨.refl b, fun g' h => by cases h; exact hg⟩
  | succ count ih =>
    have hfill : ∀ s ∈ g.fill.slots, s.Reads := by
      intro s hs
      rcases List.mem_append.mp hs with hs | hs
      · exact hg s hs
      · obtain ⟨key, -, rfl⟩ := List.mem_map.mp hs
        trivial
    rw [moves]
    split
    · exact ⟨.refl b, fun g' h => by cases h⟩
    · exact ⟨.refl b, fun g' h => by cases h⟩
    · next v rest heq =>
      rw [heq] at hfill
      exact ih b _ (List.forall_mem_cons.mp hfill).2
    · split
      · exact ⟨.refl b, fun g' h => by cases h; exact hfill⟩
      · next slots b' hadv =>
        obtain ⟨hslots, hb⟩ := Slot.onlyRead_advance hadv hfill
        obtain ⟨hb', hinv⟩ := ih b' { g.fill with slots := slots } hslots
        exact ⟨hb.trans hb', hinv⟩

theorem onlyRead_poll (now : Nat) (b : Backend) (g : Gathering t) (hg : ∀ s ∈ g.slots, s.Reads) :
    OnlyRead b (poll now b g).2 ∧
      ∀ g', (poll now b g).1 = .inr g' → ∀ s ∈ g'.slots, s.Reads :=
  onlyRead_moves now _ b g hg

end Gathering

namespace Half

variable {c : Call}

theorem onlyRead_reach (hc : c.isChange = false) (now : Nat) (b : Backend) (p : Pending) :
    OnlyRead b (reach (c := c) now b p).2 := by
  unfold reach
  split
  · exact onlyRead_settle b p hc
  · exact .refl b

theorem onlyRead_poll (hc : c.isChange = false) (now : Nat) (b : Backend) (h : Half c) :
    OnlyRead b (h.poll now b).2 := by
  cases h with
  | fresh => exact (onlyRead_arrive b now hc).trans (onlyRead_reach hc now _ _)
  | waiting p => exact onlyRead_reach hc now b p
  | got a => exact .refl b

end Half

/-- One half that goes on, then the other unless the first has failed. -/
theorem Fetching.onlyRead_poll (now : Nat) (b : Backend) (f : Fetching) :
    OnlyRead b (f.poll now b).2 := by
  have himages := Half.onlyRead_poll (c := .listImages) rfl now
  have hsnapshots := Half.onlyRead_poll (c := .listSnapshots) rfl now
  unfold Fetching.poll
  split
  · have h₁ := hsnapshots b f.snapshots
    split
    · next e b₁ heq => rwa [heq] at h₁
    · next s b₁ heq =>
      rw [heq] at h₁
      have h₂ := himages b₁ f.images
      split
      · next e b₂ heq => rw [heq] at h₂; exact h₁.trans h₂
      · next i b₂ heq => rw [heq] at h₂; exact h₁.trans h₂
  · have h₁ := himages b f.images
    split
    · next e b₁ heq => rwa [heq] at h₁
    · next i b₁ heq =>
      rw [heq] at h₁
      have h₂ := hsnapshots b₁ f.snapshots
      split
      · next e b₂ heq => rw [heq] at h₂; exact h₁.trans h₂
      · next s b₂ heq => rw [heq] at h₂; exact h₁.trans h₂

end ComputePlane
