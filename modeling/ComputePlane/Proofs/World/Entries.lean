import ComputePlane.Proofs.Cloud.Numbering

/-!
# What the entries of a listing owe

At each moment the entries of a listing that is going on owe their results (`Slot.owed`): an entry
that waits owes what it will be answered, and the entries not begun owe what reads made one after
the other from now on are answered. What advances one entry changes nothing of this
(`Slot.Step.owed_eq`), because entries are begun in their order and an entry that waits is answered
alike at all times.
-/

namespace ComputePlane

open Backend

variable {t : Topic} {b b' : Backend} {c : MemoryCloud} {now now' : Nat} {key : String}

/-! ## Keys one after the other -/

namespace Topic

/-- The name of the calls that a listing makes for its keys. -/
def callName : Topic → String
  | locations => "get_datacenter"
  | servers => "list_servers"
  | nodes => "get_server"

theorem lookup_name {l : t.Lookup} (h : t.lookup key = .ok l) : l.call.name = t.callName := by
  cases t with
  | locations | servers =>
    cases h
    rfl
  | nodes =>
    obtain ⟨id, rfl⟩ := lookup_nodes h
    rfl

/-- What looking up a key gives if its call is answered before another one is made. -/
def ask (t : Topic) (b : Backend) (now : Nat) (key : String) : Except Error t.Value × Backend :=
  match t.lookup key with
  | .error e => (.error e, b)
  | .ok l => (l.read (b.ask now l.call).1, (b.ask now l.call).2)

theorem ask_congr (h : Alike t.callName b b') (now now' : Nat) (key : String) :
    (t.ask b now key).1 = (t.ask b' now' key).1 ∧
      Alike t.callName (t.ask b now key).2 (t.ask b' now' key).2 := by
  unfold ask
  cases hl : t.lookup key with
  | error e => exact ⟨rfl, h⟩
  | ok l =>
    rw [← lookup_name hl] at h ⊢
    obtain ⟨hanswer, halike⟩ := h.ask (lookup_isRead hl) now now'
    exact ⟨congrArg l.read hanswer, halike⟩

end Topic

/-! ## What entries owe -/

namespace Slot

/-- An entry that waits does so for a read of the listing's name, and no such read is set up to fail
in the content `c`. -/
def IsSteady (c : MemoryCloud) : Slot t → Prop
  | waiting l _ => (∃ key, t.lookup key = .ok l) ∧ ∀ n, (t.callName, n) ∉ c.failures
  | _ => True

/-- The results that entries are still to give, in their order. -/
def owed (b : Backend) : List (Slot t) → List (Except Error t.Value)
  | [] => []
  | fresh key :: rest => (t.ask b 0 key).1 :: owed (t.ask b 0 key).2 rest
  | waiting l p :: rest => l.read (b.settle l.call p).1 :: owed b rest
  | settled r :: rest => r :: owed b rest

/-- What an entry that waits is answered stays the same while there are only reads. -/
theorem read_settle_of_steady {l : t.Lookup} {p : Pending} (h : (waiting l p).IsSteady c)
    (hb : b.cloud.content = c) (hb' : b'.cloud.content = c) :
    l.read (b.settle l.call p).1 = l.read (b'.settle l.call p).1 := by
  obtain ⟨⟨key, hl⟩, hnone⟩ := h
  subst hb
  refine congrArg l.read (settle_congr (Topic.lookup_isRead hl) hb'.symm (.inl ?_) rfl)
  rw [Topic.lookup_name hl]
  exact hnone

/-- Backends that agree make entries owe the same. -/
theorem owed_congr (h : Alike t.callName b b') {slots : List (Slot t)}
    (hsteady : ∀ s ∈ slots, s.IsSteady c) : owed b slots = owed b' slots := by
  induction slots generalizing b b' with
  | nil => rfl
  | cons s rest ih =>
    obtain ⟨hs, hrest⟩ := List.forall_mem_cons.mp hsteady
    cases s with
    | fresh key =>
      obtain ⟨hanswer, halike⟩ := Topic.ask_congr h 0 0 key
      rw [owed, owed, hanswer, ih halike hrest]
    | waiting l p =>
      obtain ⟨⟨key, hl⟩, -⟩ := hs
      rw [← Topic.lookup_name hl] at h
      have hanswer := (h.settle (Topic.lookup_isRead hl) (p := p) rfl).1
      rw [Topic.lookup_name hl] at h
      rw [owed, owed, hanswer, ih h hrest]
    | settled r => rw [owed, owed, ih h hrest]

/-! ## Advancing one entry -/

/-- An entry that does not go on at the time `now`. -/
def IsIdle (now : Nat) : Slot t → Prop
  | fresh _ => False
  | waiting _ p => now < p.due
  | settled _ => True

/-- An entry goes on: it is begun, or its answer is due. -/
inductive Step (now : Nat) (b : Backend) : Slot t → Slot t → Backend → Prop
  | begin (key : String) :
    Step now b (fresh key) (begin (t := t) now b key).1 (begin (t := t) now b key).2
  | settle (l : t.Lookup) (p : Pending) (h : p.due ≤ now) :
    Step now b (waiting l p) (settled (l.read (b.settle l.call p).1)) (b.settle l.call p).2

theorem reach_of_due {l : t.Lookup} {p : Pending} (h : p.due ≤ now) :
    reach now b l p = (settled (l.read (b.settle l.call p).1), (b.settle l.call p).2) := by
  rw [reach, if_pos h]

/-- The first entry goes on that can. -/
theorem advance_eq_some {slots slots' : List (Slot t)}
    (h : advance now b slots = some (slots', b')) :
    ∃ before s s' after, slots = before ++ s :: after ∧ slots' = before ++ s' :: after ∧
      (∀ x ∈ before, x.IsIdle now) ∧ Step now b s s' b' := by
  induction slots generalizing slots' b' with
  | nil => cases h
  | cons s rest ih =>
    -- unless this entry goes on, it is one behind it
    have hbehind : ∀ {r}, advance now b rest = some r → s.IsIdle now → slots' = s :: r.1 →
        b' = r.2 → ∃ before x x' after, s :: rest = before ++ x :: after ∧
          slots' = before ++ x' :: after ∧ (∀ x ∈ before, x.IsIdle now) ∧ Step now b x x' b' := by
      rintro ⟨slots, b''⟩ hr hidle rfl rfl
      obtain ⟨before, x, x', after, rfl, rfl, hbefore, hstep⟩ := ih hr
      exact ⟨s :: before, x, x', after, rfl, rfl, List.forall_mem_cons.mpr ⟨hidle, hbefore⟩, hstep⟩
    cases s with
    | fresh key =>
      cases h
      exact ⟨[], _, _, rest, rfl, rfl, List.forall_mem_nil _, .begin key⟩
    | waiting l p =>
      by_cases hdue : p.due ≤ now
      · rw [advance, if_pos hdue, reach_of_due hdue] at h
        cases h
        exact ⟨[], _, _, rest, rfl, rfl, List.forall_mem_nil _, .settle l p hdue⟩
      · rw [advance, if_neg hdue] at h
        obtain ⟨r, hr, heq⟩ := Option.map_eq_some_iff.mp h
        cases heq
        exact hbehind hr (Nat.lt_of_not_le hdue) rfl rfl
    | settled r =>
      obtain ⟨q, hq, heq⟩ := Option.map_eq_some_iff.mp h
      cases heq
      exact hbehind hq trivial rfl rfl

theorem advance_eq_none {slots : List (Slot t)} (h : advance now b slots = none) :
    ∀ s ∈ slots, s.IsIdle now := by
  induction slots with
  | nil => exact List.forall_mem_nil _
  | cons s rest ih =>
    cases s with
    | fresh key => cases h
    | waiting l p =>
      by_cases hdue : p.due ≤ now
      · rw [advance, if_pos hdue] at h
        cases h
      · rw [advance, if_neg hdue] at h
        exact List.forall_mem_cons.mpr
          ⟨Nat.lt_of_not_le hdue, ih (Option.map_eq_none_iff.mp h)⟩
    | settled r =>
      exact List.forall_mem_cons.mpr ⟨trivial, ih (Option.map_eq_none_iff.mp h)⟩

/-- Idle entries in front owe the same while there are only reads. -/
theorem owed_append_congr {before slots slots' : List (Slot t)}
    (hidle : ∀ s ∈ before, s.IsIdle now) (hsteady : ∀ s ∈ before, s.IsSteady c)
    (hb : b.cloud.content = c) (hb' : b'.cloud.content = c) (h : owed b slots = owed b' slots') :
    owed b (before ++ slots) = owed b' (before ++ slots') := by
  induction before with
  | nil => exact h
  | cons s before ih =>
    obtain ⟨hs, hbefore⟩ := List.forall_mem_cons.mp hsteady
    obtain ⟨hs', hbefore'⟩ := List.forall_mem_cons.mp hidle
    have hrest := ih hbefore' hbefore
    cases s with
    | fresh key => exact hs'.elim
    | waiting l p =>
      rw [List.cons_append, List.cons_append, owed, owed, read_settle_of_steady hs hb hb', hrest]
    | settled r => rw [List.cons_append, List.cons_append, owed, owed, hrest]

/-- An entry that is begun gets its answer at once, or waits for it. -/
theorem begin_cases (t : Topic) (now : Nat) (b : Backend) (key : String) :
    begin now b key = (settled (t.ask b now key).1, (t.ask b now key).2) ∨
      ∃ l, t.lookup key = .ok l ∧ now < (b.arrive now l.call).1.due ∧
        begin now b key = (waiting l (b.arrive now l.call).1, (b.arrive now l.call).2) := by
  unfold begin Topic.ask
  cases hl : t.lookup key with
  | error e => exact .inl rfl
  | ok l =>
    by_cases hdue : (b.arrive now l.call).1.due ≤ now
    · exact .inl (reach_of_due hdue)
    · refine .inr ⟨l, rfl, Nat.lt_of_not_le hdue, ?_⟩
      simp only [reach, if_neg hdue]

namespace Step

variable {s s' : Slot t}

theorem onlyRead (h : Step now b s s' b') (hs : s.IsSteady c) : OnlyRead b b' := by
  cases h with
  | begin key => exact (onlyRead_begin now b key).2
  | settle l p hdue =>
    obtain ⟨⟨key, hl⟩, -⟩ := hs
    exact onlyRead_settle b p (Topic.lookup_isRead hl)

theorem isSteady (h : Step now b s s' b') (hnumbered : b.NumbersAtOnce t.callName) :
    s'.IsSteady b.cloud.content := by
  cases h with
  | begin key =>
    obtain hbegin | ⟨l, hl, hdue, hbegin⟩ := begin_cases t now b key
    · rw [hbegin]
      trivial
    · rw [hbegin]
      rw [← Topic.lookup_name hl] at hnumbered
      have hnone := hnumbered.of_held_up hdue
      rw [Topic.lookup_name hl] at hnone
      exact ⟨⟨key, hl⟩, hnone⟩
  | settle => trivial

/-- The entries owe after it what they owed before. -/
theorem owed_eq (h : Step now b s s' b') {rest : List (Slot t)}
    (hnumbered : b.NumbersAtOnce t.callName)
    (hsteady : ∀ x ∈ s :: rest, x.IsSteady b.cloud.content) :
    owed b (s :: rest) = owed b' (s' :: rest) := by
  obtain ⟨hs, hrest⟩ := List.forall_mem_cons.mp hsteady
  cases h with
  | begin key =>
    obtain ⟨hanswer, halike⟩ := Topic.ask_congr (.refl t.callName b) 0 now key
    rw [owed, hanswer, owed_congr halike hrest]
    obtain hbegin | ⟨l, hl, hdue, hbegin⟩ := begin_cases t now b key
    · rw [hbegin, owed]
    · -- the call has been made, and that it is not answered yet makes no difference
      rw [hbegin, owed]
      rw [← Topic.lookup_name hl] at hnumbered
      have hsettle := alike_settle (b := (b.arrive now l.call).2) (Topic.lookup_isRead hl)
        (hnumbered.of_held_up hdue) (b.arrive now l.call).1
      rw [Topic.lookup_name hl] at hsettle
      have hask : t.ask b now key = (l.read (b.ask now l.call).1, (b.ask now l.call).2) := by
        unfold Topic.ask
        rw [hl]
      rw [hask]
      exact congrArg _ (owed_congr hsettle hrest)
  | settle l p hdue =>
    obtain ⟨⟨key, hl⟩, hnone⟩ := hs
    rw [← Topic.lookup_name hl] at hnone
    have hsettle := alike_settle (Topic.lookup_isRead hl) hnone p
    rw [Topic.lookup_name hl] at hsettle
    rw [owed, owed, owed_congr hsettle hrest]

end Step

end Slot

end ComputePlane
