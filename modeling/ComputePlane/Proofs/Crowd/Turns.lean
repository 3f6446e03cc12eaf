import ComputePlane.Proofs.Crowd.Interplay

/-!
# Operations that take turns

Operations go on one event at a time, in the order of a list. Calls are answered as the cloud tells,
and what is awaited has come about. Any such order is a run (`exists_run_turns`).
-/

namespace ComputePlane

variable {α : Type}

def Activity.result? : Activity α → Option α
  | going (.done r) => some r
  | _ => none

namespace Interplay

variable {s s' : Interplay α} {e : Event} {i : Nat}

def result? (s : Interplay α) (i : Nat) : Option α :=
  s.activities[i]?.bind Activity.result?

theorem result?_eq_some {r : α} :
    s.result? i = some r ↔ s.activities[i]? = some (.going (.done r)) := by
  unfold result?
  cases s.activities[i]? with
  | none => simp
  | some a =>
    cases a with
    | going program => cases program <;> simp [Activity.result?]
    | calling | queued | closing => simp [Activity.result?]

/-- A call is answered as the cloud has told. -/
def Event.IsFaithful : Event → Prop
  | answer _ _ told result => told = some result
  | _ => True

/-- The next event of an operation that can go on, and what it changes. Listings are not gone on
with. -/
def next? (s : Interplay α) (i : Nat) : Option (Event × Interplay α) :=
  match s.activities[i]? with
  | some (.going (.request (.call c) next)) =>
    some (.make i none c, s.put i (.calling none c .made next))
  | some (.going (.request (.submit dc c) next)) =>
    match s.queue.enqueue dc i with
    | .ok q => some (.accept i dc c, { s.put i (.queued dc c next) with queue := q })
    | .error e => some (.refuse i dc c, s.put i (.going (next (.error e))))
  | some (.going (.request (.pause _) next)) => some (.wake i, s.put i (.going (next ())))
  | some (.going (.request (.await ..) next)) => some (.wake i, s.put i (.going (next true)))
  | some (.queued dc c next) =>
    match s.queue.start? dc with
    | some (j, q) =>
      if j = i then
        some (.make i (some dc) c, { s.put i (.calling (some dc) c .made next) with queue := q })
      else none
    | none => none
  | some (.calling via c .made next) =>
    some (.reach i c,
      { s.put i (.calling via c (.begun (s.cloud.begin c).1) next) with
        cloud := (s.cloud.begin c).2 })
  | some (.calling via c (.begun failure) next) =>
    let (r, cloud) := s.cloud.finish c failure
    some (.answer i c (some r) r,
      { s.put i (.going (next r)) with
        queue := via.elim s.queue s.queue.finish
        cloud := cloud })
  | some (.going (.request .close next)) =>
    if s.queue.closed then some (.closeAgain i, s.put i (.going (next ())))
    else
      some (.close i, { s.put i (.closing s.queue.handles next) with queue := s.queue.close })
  | some (.closing dcs next) =>
    if s.queue.haveEnded dcs then some (.closeReturns i, s.put i (.going (next ()))) else none
  | _ => none

theorem step_of_next? (h : s.next? i = some (e, s')) : Step s e s' ∧ e.IsFaithful := by
  unfold next? at h
  split at h
  · next hi =>
    cases h
    exact ⟨.call hi, trivial⟩
  · next hi =>
    split at h
    · next hq =>
      cases h
      exact ⟨.accept hi hq, trivial⟩
    · next hq =>
      cases h
      exact ⟨.refuse hi hq, trivial⟩
  · next hi =>
    cases h
    exact ⟨.wake () hi rfl, trivial⟩
  · next hi =>
    cases h
    exact ⟨.wake true hi rfl, trivial⟩
  · next hi =>
    split at h
    · next hq =>
      split at h
      · next hji =>
        cases h
        exact ⟨.start hi (hji ▸ hq), trivial⟩
      · cases h
    · cases h
  · next hi =>
    cases h
    exact ⟨.reach hi, trivial⟩
  · next hi =>
    cases h
    exact ⟨.answer _ hi, rfl⟩
  · next hi =>
    split at h
    · next hq =>
      cases h
      exact ⟨.closeAgain hi hq, trivial⟩
    · next hq =>
      cases h
      exact ⟨.close hi (Bool.eq_false_iff.mpr hq), trivial⟩
  · next hi =>
    split at h
    · next hq =>
      cases h
      exact ⟨.closeReturns hi hq, trivial⟩
    · cases h
  · cases h

/-- Each operation in turn goes on for one event, unless it cannot. -/
def turns : List Nat → Interplay α → Interplay α
  | [], s => s
  | i :: order, s => turns order ((s.next? i).elim s Prod.snd)

theorem exists_run_turns (order : List Nat) (s : Interplay α) :
    ∃ es, Run s es (s.turns order) ∧ ∀ e ∈ es, e.IsFaithful := by
  induction order generalizing s with
  | nil => exact ⟨[], .nil, fun e he => nomatch he⟩
  | cons i order ih =>
    unfold turns
    cases hnext : s.next? i with
    | none => exact ih s
    | some p =>
      obtain ⟨hstep, hfaithful⟩ := step_of_next? hnext
      obtain ⟨es, hrun, hes⟩ := ih p.2
      refine ⟨p.1 :: es, (Run.one hstep).trans hrun, fun e he => ?_⟩
      rcases List.mem_cons.mp he with rfl | he
      · exact hfaithful
      · exact hes e he

end Interplay

end ComputePlane
