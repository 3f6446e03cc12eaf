import ComputePlane.Proofs.Provisioning.History

/-!
# Callers and their results

While no worker goes down, the results that have come are those of the jobs that have ended, and a
caller waits no more once it has its result or has left. Whether callers wait or leave is all the
same to the jobs: a history can be replayed without what befell some callers
(`Run.exists_filter`).
-/

namespace ComputePlane.Manager

namespace Event

variable {β : Type}

/-- What the end of a job gives its caller, unless its worker goes down. -/
def yields? : Event β → Option (Nat × Except Error β)
  | finish _ n r => some (n, r)
  | breakOff d n => some (n, .error (.jobAborted d))
  | _ => none

/-- The caller that waits no more. -/
def caller? : Event β → Option Nat
  | answer n _ => some n
  | leave n => some n
  | _ => none

end Event

variable {β : Type} {es : List (Event β)} {m m' a : Manager β} {e : Event β}

theorem yields?_eq_some {n : Nat} {r : Except Error β} :
    e.yields? = some (n, r) ↔
      ∃ dc, e = .finish dc n r ∨ e = .breakOff dc n ∧ r = .error (.jobAborted dc) := by
  constructor
  · intro h
    cases e with
    | finish dc k s =>
      cases h
      exact ⟨dc, .inl rfl⟩
    | breakOff dc k =>
      cases h
      exact ⟨dc, .inr ⟨rfl, rfl⟩⟩
    | _ => cases h
  · rintro ⟨dc, rfl | ⟨rfl, rfl⟩⟩ <;> rfl

theorem caller?_eq_some {n : Nat} :
    e.caller? = some n ↔ e = .leave n ∨ ∃ r, e = .answer n r := by
  cases e <;> simp [Event.caller?]

/-! ## Results -/

/-- What a job of a datacenter gave its caller: what it returned, or that it broke off. -/
def Gave (es : List (Event β)) (dc : String) (n : Nat) (r : Except Error β) : Prop :=
  .finish dc n r ∈ es ∨ .breakOff dc n ∈ es ∧ r = .error (.jobAborted dc)

theorem Gave.mono {fs : List (Event β)} {dc : String} {n : Nat} {r : Except Error β}
    (h : Gave es dc n r) (hsub : es ⊆ fs) : Gave fs dc n r :=
  h.imp (@hsub _) (And.imp_left (@hsub _))

theorem Gave.mem_endedJobs {dc : String} {n : Nat} {r : Except Error β} (h : Gave es dc n r) :
    n ∈ endedJobs es dc := by
  rw [Manager.mem_endedJobs]
  rcases h with h | ⟨h, -⟩
  · exact ⟨_, h, if_pos rfl⟩
  · exact ⟨_, h, if_pos rfl⟩

theorem Step.results_eq (hs : Step m e m') (hc : e.isCrash = false) :
    m'.results = m.results ++ e.yields?.toList := by
  cases hs with
  | crash h => cases hc
  | _ => simp [Event.yields?, aborted]

/-- While no worker goes down, each end of a job gives one result. -/
theorem Run.results_eq (h : Run es m) (hc : ∀ e ∈ es, e.isCrash = false) :
    m.results = es.filterMap Event.yields? := by
  induction h with
  | nil => rfl
  | @snoc es m e m' h hs ih =>
    rw [hs.results_eq (hc e (by simp)), ih fun e he => hc e (by simp [he]), List.filterMap_append]
    cases hy : e.yields? <;> simp [hy]

theorem Run.mem_results_iff (h : Run es m) (hc : ∀ e ∈ es, e.isCrash = false) {n : Nat}
    {r : Except Error β} : (n, r) ∈ m.results ↔ ∃ dc, Gave es dc n r := by
  rw [h.results_eq hc, List.mem_filterMap]
  simp only [yields?_eq_some]
  constructor
  · rintro ⟨e, he, dc, rfl | ⟨rfl, rfl⟩⟩
    · exact ⟨dc, .inl he⟩
    · exact ⟨dc, .inr ⟨he, rfl⟩⟩
  · rintro ⟨dc, he | ⟨he, rfl⟩⟩
    · exact ⟨_, he, dc, .inl rfl⟩
    · exact ⟨_, he, dc, .inr ⟨rfl, rfl⟩⟩

/-- Two results of one number are the same, of the same job. -/
theorem Run.gave_unique (h : Run es m) {dc dc' : String} {n : Nat} {r r' : Except Error β}
    (hr : Gave es dc n r) (hr' : Gave es dc' n r') : dc = dc' ∧ r = r' := by
  obtain rfl := h.datacenter_unique (h.accepted_of_start (h.started_of_end hr.mem_endedJobs))
    (h.accepted_of_start (h.started_of_end hr'.mem_endedJobs))
  refine ⟨rfl, ?_⟩
  rcases hr with he | ⟨he, rfl⟩ <;> rcases hr' with he' | ⟨he', rfl⟩
  · cases h.end_unique he he' (if_pos rfl) (if_pos rfl)
    rfl
  · cases h.end_unique he he' (if_pos rfl) (if_pos rfl)
  · cases h.end_unique he he' (if_pos rfl) (if_pos rfl)
  · rfl

theorem Step.gone_eq (hs : Step m e m') : m'.gone = e.caller?.toList ++ m.gone := by
  cases hs <;> rfl

/-- Only who waits can get a result or leave. -/
theorem Step.not_mem_gone (hs : Step m e m') {n : Nat} (he : e.caller? = some n) :
    n ∉ m.gone := by
  cases hs with
  | answer h hn | leave h hn =>
    cases he
    exact hn
  | _ => cases he

/-- A caller waits no more when it has its result or has left. -/
theorem Run.mem_gone_iff (h : Run es m) {n : Nat} :
    n ∈ m.gone ↔ ∃ e ∈ es, e.caller? = some n := by
  induction h with
  | nil => simp
  | @snoc es m e m' h hs ih =>
    rw [hs.gone_eq, List.mem_append, ih, Option.mem_toList]
    simp only [List.mem_append, List.mem_singleton]
    grind

/-! ## Replaying a history -/

/-- The same jobs wait, run and have given the same results. Only the callers may differ. -/
structure Alike (m a : Manager β) : Prop where
  queue : a.queue = m.queue
  accepted : a.accepted = m.accepted
  results : a.results = m.results
  closing : a.closing = m.closing

theorem Alike.trans {b : Manager β} (h : Alike m a) (h' : Alike a b) : Alike m b :=
  ⟨h'.queue.trans h.queue, h'.accepted.trans h.accepted, h'.results.trans h.results,
    h'.closing.trans h.closing⟩

theorem Alike.symm (h : Alike m a) : Alike a m :=
  ⟨h.queue.symm, h.accepted.symm, h.results.symm, h.closing.symm⟩

/-- What befalls a caller is nothing to the jobs. -/
theorem Step.alike_of_caller (hs : Step m e m') (he : e.caller? ≠ none) : Alike m m' := by
  cases hs with
  | answer | leave => exact ⟨rfl, rfl, rfl, rfl⟩
  | _ => exact absurd rfl he

/-- Where the same jobs wait and run, the same can happen next, as long as its caller waits. -/
theorem Step.exists_alike (hs : Step m e m') (ha : Alike m a)
    (he : ∀ n, e.caller? = some n → n ∉ a.gone) : ∃ a', Step a e a' ∧ Alike m' a' := by
  obtain ⟨queue, accepted, results, gone, closing⟩ := a
  obtain ⟨rfl, rfl, rfl, rfl⟩ := ha
  cases hs with
  | accept h => exact ⟨_, .accept h, rfl, rfl, rfl, rfl⟩
  | refuse h => exact ⟨_, .refuse h, rfl, rfl, rfl, rfl⟩
  | start h => exact ⟨_, .start h, rfl, rfl, rfl, rfl⟩
  | finish h => exact ⟨_, .finish h, rfl, rfl, rfl, rfl⟩
  | breakOff h => exact ⟨_, .breakOff h, rfl, rfl, rfl, rfl⟩
  | crash h => exact ⟨_, .crash h, rfl, rfl, rfl, rfl⟩
  | answer h => exact ⟨_, .answer h (he _ rfl), rfl, rfl, rfl, rfl⟩
  | leave h => exact ⟨_, .leave h (he _ rfl), rfl, rfl, rfl, rfl⟩
  | close h => exact ⟨_, .close h, rfl, rfl, rfl, rfl⟩
  | closeAgain h => exact ⟨_, .closeAgain h, rfl, rfl, rfl, rfl⟩
  | closeReturns h hd => exact ⟨_, .closeReturns h hd, rfl, rfl, rfl, rfl⟩

/-- Let one history lead to the same jobs as another. Then what happened after the other can happen
after the one, but for the events of callers that `keep` leaves out. Those `D` of which it keeps no
event need not wait. -/
theorem Run.exists_filter (keep : Event β → Bool) (D : Nat → Prop) {fs fs' gs : List (Event β)}
    (hcaller : ∀ e, keep e = false → e.caller? ≠ none)
    (hD : ∀ e n, keep e = true → e.caller? = some n → ¬D n)
    (hf : ∀ m, Run fs m → ∃ a, Run fs' a ∧ Alike m a ∧ ∀ n ∈ a.gone, n ∈ m.gone ∨ D n)
    (h : Run (fs ++ gs) m) :
    ∃ a, Run (fs' ++ gs.filter keep) a ∧ Alike m a ∧ ∀ n ∈ a.gone, n ∈ m.gone ∨ D n := by
  induction gs using List.reverseRecOn generalizing m with
  | nil => simpa using hf m (by simpa using h)
  | append_singleton gs e ih =>
    rw [← List.append_assoc] at h
    obtain ⟨m₁, h₁, hs⟩ := h.of_snoc
    obtain ⟨a, hrun, ha, hgone⟩ := ih h₁
    rw [List.filter_append, ← List.append_assoc]
    cases hk : keep e with
    | true =>
      have hwait : ∀ n, e.caller? = some n → n ∉ a.gone := fun n hn hmem =>
        (hgone n hmem).elim (hs.not_mem_gone hn) (hD e n hk hn)
      obtain ⟨a', hs', ha'⟩ := hs.exists_alike ha hwait
      refine ⟨a', by simpa [hk] using hrun.snoc hs', ha', fun n hn => ?_⟩
      rw [hs'.gone_eq, List.mem_append] at hn
      rw [hs.gone_eq, List.mem_append]
      rcases hn with hn | hn
      · exact .inl (.inl hn)
      · exact (hgone n hn).imp_left .inr
    | false =>
      have hme := hs.alike_of_caller (hcaller e hk)
      refine ⟨a, by simpa [hk] using hrun, hme.symm.trans ha, fun n hn => ?_⟩
      rw [hs.gone_eq, List.mem_append]
      exact (hgone n hn).imp_left .inr

/-- Those who left might as well have stayed. -/
theorem Run.exists_without_leave (h : Run es m) :
    ∃ a, Run (es.filter fun e => !e.isLeave) a ∧ Alike m a := by
  have hcaller : ∀ e : Event β, (!e.isLeave) = false → e.caller? ≠ none := by
    intro e he
    cases e with
    | leave n => simp [Event.caller?]
    | _ => cases he
  have hstart : ∀ m : Manager β, Run [] m →
      ∃ a, Run [] a ∧ Alike m a ∧ ∀ n ∈ a.gone, n ∈ m.gone ∨ False :=
    fun m hm => ⟨m, hm, ⟨rfl, rfl, rfl, rfl⟩, fun n hn => .inl hn⟩
  obtain ⟨a, hrun, ha, -⟩ := Run.exists_filter (fun e => !e.isLeave) (fun _ => False) hcaller
    (fun _ _ _ _ => id) hstart (show Run ([] ++ es) m from h)
  exact ⟨a, hrun, ha⟩

/-- Whoever waits might as well leave. -/
theorem Run.exists_with_leave {fs gs : List (Event β)} {dc : String} {n : Nat}
    (h : Run (fs ++ gs) m) (hacc : .accept dc n ∈ fs) (hwait : ∀ e ∈ fs, e.caller? ≠ some n) :
    ∃ a, Run (fs ++ .leave n :: gs.filter fun e => e.caller? ≠ some n) a ∧ Alike m a := by
  have hcaller : ∀ e : Event β, decide (e.caller? ≠ some n) = false → e.caller? ≠ none := by
    intro e he
    simp_all
  have hleave : ∀ m : Manager β, Run fs m →
      ∃ a, Run (fs ++ [.leave n]) a ∧ Alike m a ∧ ∀ k ∈ a.gone, k ∈ m.gone ∨ k = n := by
    intro m hm
    have hn : n ∉ m.gone := by
      rw [hm.mem_gone_iff]
      rintro ⟨e, he, heq⟩
      exact hwait e he heq
    refine ⟨_, hm.snoc (.leave (hm.lt_accepted hacc) hn), ⟨rfl, rfl, rfl, rfl⟩, fun k hk => ?_⟩
    exact (List.mem_cons.mp hk).symm
  obtain ⟨a, hrun, ha, -⟩ := Run.exists_filter (fun e => e.caller? ≠ some n) (· = n) hcaller
    (fun e k hk heq hkn => by simp_all) hleave h
  exact ⟨a, by simpa using hrun, ha⟩

end ComputePlane.Manager
