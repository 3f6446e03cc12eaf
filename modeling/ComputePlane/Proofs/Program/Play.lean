import ComputePlane.Program
import ComputePlane.Proofs.Cloud.Memory

/-!
# Programs against a cloud that may fail

Any call may fail at any time, a watch may end either way, and a listing may give anything. What a
program can do to the contents of such a cloud, and which jobs it submits on the way, is the
relation `Plays`. A run of two programs one after the other is a run of each
(`Plays.of_bind`, `Plays.of_run_bind`).
-/

namespace ComputePlane

namespace Program

open MemoryCloud (Answers)

variable {α β : Type}

/-! ## Requests -/

/-- Every request that a program can make has a property. -/
def AsksOnly (P : Request → Prop) : Program α → Prop
  | .done _ => True
  | .request r next => P r ∧ ∀ x, AsksOnly P (next x)

/-- Nothing is changed by a request. -/
def isRead : Request → Bool
  | .call c => !c.isChange
  | .submit .. => false
  | .close => false
  | _ => true

/-- A call that changes nothing. -/
def isLook : Request → Bool
  | .call c => !c.isChange
  | _ => false

theorem isRead_of_isLook {r : Request} (h : isLook r = true) : isRead r = true := by
  cases r <;> first | exact h | cases h

/-- Every change is made as a job of the datacenter it changes, and the queues are left open. -/
def isOrderly : Request → Bool
  | .call c => !c.isChange
  | .submit dc c => c.isChange && c.changes?.all (· = dc)
  | .close => false
  | _ => true

/-- The call that a request makes or submits. -/
def call? : Request → Option Call
  | .call c => some c
  | .submit _ c => some c
  | _ => none

theorem all_call?_of_isRead {keeps : Call → Bool}
    (hkeeps : ∀ c, c.isChange = false → keeps c = true) {r : Request} (h : isRead r = true) :
    (call? r).all keeps = true := by
  cases r with
  | call c => exact hkeeps c (by simpa [isRead] using h)
  | submit => cases h
  | pause | await | gather | fetch | close => rfl

namespace AsksOnly

variable {P Q : Request → Prop}

theorem mono {x : Program α} (h : x.AsksOnly P) (hPQ : ∀ r, P r → Q r) : x.AsksOnly Q := by
  induction x with
  | done a => trivial
  | request r next ih => exact ⟨hPQ r h.1, fun y => ih y (h.2 y)⟩

theorem ask {r : Request} (h : P r) : (Program.ask r).AsksOnly P := ⟨h, fun _ => trivial⟩

theorem pure (a : α) : (Pure.pure a : Program α).AsksOnly P := trivial

theorem bind {x : Program α} {f : α → Program β} (hx : x.AsksOnly P)
    (hf : ∀ a, (f a).AsksOnly P) : (x >>= f).AsksOnly P := by
  induction x with
  | done a => exact hf a
  | request r next ih => exact ⟨hx.1, fun y => ih y (hx.2 y)⟩

/-- An operation goes on only after a success. -/
theorem run_bind {x : Operation α} {f : α → Operation β} (hx : x.run.AsksOnly P)
    (hf : ∀ a, (f a).run.AsksOnly P) : (x >>= f).run.AsksOnly P := by
  rw [ExceptT.run_bind]
  refine hx.bind fun r => ?_
  cases r with
  | ok a => exact hf a
  | error e => trivial

theorem run_lift {x : Program α} (hx : x.AsksOnly P) : (liftM x : Operation α).run.AsksOnly P :=
  hx.bind fun _ => trivial

end AsksOnly

/-! ## Jobs and what they leave -/

/-- A job that was submitted, and its result. -/
structure Outcome where
  call : Call
  result : call.Result

/-- A request that neither makes nor submits a call of its own. -/
def isWait : Request → Bool
  | .call _ => false
  | .submit .. => false
  | _ => true

/-- The jobs that a program submits in order, what it gives, and the contents it leaves. -/
inductive Plays : MemoryCloud → Program α → List Outcome → α → MemoryCloud → Prop where
  | done {c a} : Plays c (.done a) [] a c
  | call {c call r c' next js a d} (h : Answers c call r c') (hn : Plays c' (next r) js a d) :
      Plays c (.request (.call call) next) js a d
  | submit {c dc call r c' next js a d} (h : Answers c call r c') (hn : Plays c' (next r) js a d) :
      Plays c (.request (.submit dc call) next) (⟨call, r⟩ :: js) a d
  | wait {c req x next js a d} (h : isWait req = true) (hn : Plays c (next x) js a d) :
      Plays c (.request req next) js a d

/-- Jobs that a cloud answers one after another. -/
inductive Answered : MemoryCloud → List Outcome → MemoryCloud → Prop where
  | nil {c} : Answered c [] c
  | cons {c j c' js d} (h : Answers c j.call j.result c') (hn : Answered c' js d) :
      Answered c (j :: js) d

theorem Answered.of_append {c d : MemoryCloud} {js ks : List Outcome}
    (h : Answered c (js ++ ks) d) : ∃ e, Answered c js e ∧ Answered e ks d := by
  induction js generalizing c with
  | nil => exact ⟨c, .nil, h⟩
  | cons j js ih =>
    cases h with
    | cons hans hn =>
      obtain ⟨e, h₁, h₂⟩ := ih hn
      exact ⟨e, .cons hans h₁, h₂⟩

namespace Plays

variable {c d : MemoryCloud} {js : List Outcome}

theorem of_bind {x : Program α} {f : α → Program β} {b : β} (h : Plays c (x >>= f) js b d) :
    ∃ js₁ a e js₂, Plays c x js₁ a e ∧ Plays e (f a) js₂ b d ∧ js = js₁ ++ js₂ := by
  induction x generalizing c js with
  | done a => exact ⟨[], a, c, js, .done, h, rfl⟩
  | request r next ih =>
    cases h with
    | call hans hn =>
      obtain ⟨js₁, a, e, js₂, h₁, h₂, rfl⟩ := ih _ hn
      exact ⟨js₁, a, e, js₂, .call hans h₁, h₂, rfl⟩
    | submit hans hn =>
      obtain ⟨js₁, a, e, js₂, h₁, h₂, rfl⟩ := ih _ hn
      exact ⟨_ :: js₁, a, e, js₂, .submit hans h₁, h₂, rfl⟩
    | wait hwait hn =>
      obtain ⟨js₁, a, e, js₂, h₁, h₂, rfl⟩ := ih _ hn
      exact ⟨js₁, a, e, js₂, .wait hwait h₁, h₂, rfl⟩

theorem of_pure {a b : α} (h : Plays c (pure a) js b d) : js = [] ∧ b = a ∧ d = c := by
  cases h
  exact ⟨rfl, rfl, rfl⟩

/-- An operation that is followed by another one either fails or is followed by it. -/
theorem of_run_bind {x : Operation α} {f : α → Operation β} {r : Except Error β}
    (h : Plays c (x >>= f).run js r d) :
    (∃ e, r = .error e ∧ Plays c x.run js (.error e) d) ∨
      ∃ js₁ a e js₂, Plays c x.run js₁ (.ok a) e ∧ Plays e (f a).run js₂ r d ∧
        js = js₁ ++ js₂ := by
  rw [ExceptT.run_bind] at h
  obtain ⟨js₁, r₁, e, js₂, h₁, h₂, rfl⟩ := h.of_bind
  cases r₁ with
  | ok a => exact .inr ⟨js₁, a, e, js₂, h₁, h₂, rfl⟩
  | error err =>
    obtain ⟨rfl, rfl, rfl⟩ := h₂.of_pure
    exact .inl ⟨err, rfl, by simpa using h₁⟩

/-- What cannot fail is followed by what comes next. -/
theorem of_lift_bind {x : Program α} {f : α → Operation β} {r : Except Error β}
    (h : Plays c ((liftM x : Operation α) >>= f).run js r d) :
    ∃ js₁ a e js₂, Plays c x js₁ a e ∧ Plays e (f a).run js₂ r d ∧ js = js₁ ++ js₂ := by
  rcases h.of_run_bind with ⟨err, -, h₁⟩ | ⟨js₁, a, e, js₂, h₁, h₂, rfl⟩
  · obtain ⟨_, _, _, _, -, h₂, -⟩ := h₁.of_bind
    cases h₂
  · obtain ⟨js', a', e', js'', h', h₃, rfl⟩ := h₁.of_bind
    cases h₃
    exact ⟨js', a, e, js₂, h', h₂, by simp⟩

theorem of_submit {dc : String} {call : Call} {r : call.Result}
    (h : Plays c (Program.submit dc call).run js r d) : js = [⟨call, r⟩] ∧ Answers c call r d := by
  cases h with
  | submit hans hn =>
    cases hn
    exact ⟨rfl, hans⟩
  | wait hwait hn => cases hwait

theorem of_call {call : Call} {r : call.Result} (h : Plays c (Program.call call).run js r d) :
    js = [] ∧ Answers c call r d := by
  cases h with
  | call hans hn =>
    cases hn
    exact ⟨rfl, hans⟩
  | wait hwait hn => cases hwait

theorem of_reads {x : Program α} {a : α} (hx : x.AsksOnly (isRead · = true))
    (h : Plays c x js a d) : js = [] ∧ d = c := by
  induction h with
  | done => exact ⟨rfl, rfl⟩
  | call hans hn ih =>
    obtain ⟨rfl, rfl⟩ := ih (hx.2 _)
    exact ⟨rfl, hans.eq_of_read (by simpa [isRead] using hx.1)⟩
  | submit hans hn ih => exact absurd hx.1 (by simp [isRead])
  | wait hwait hn ih => exact ih (hx.2 _)

/-- What none of a program's calls changes is the same after its run. -/
theorem obs_eq {β : Type} {obs : MemoryCloud → β} {keeps : Call → Bool}
    (hkeeps : ∀ {c call r d}, keeps call = true → Answers c call r d → obs d = obs c)
    {x : Program α} {a : α} (hx : x.AsksOnly fun r => (call? r).all keeps = true)
    (h : Plays c x js a d) : obs d = obs c := by
  induction h with
  | done => rfl
  | call hans hn ih => exact (ih (hx.2 _)).trans (hkeeps hx.1 hans)
  | submit hans hn ih => exact (ih (hx.2 _)).trans (hkeeps hx.1 hans)
  | wait hwait hn ih => exact ih (hx.2 _)

/-- Each job makes one of the calls that its program can ask for. -/
theorem forall_jobs {P : Call → Bool} {x : Program α} {a : α}
    (hx : x.AsksOnly fun r => (call? r).all P = true) (h : Plays c x js a d) :
    ∀ j ∈ js, P j.call = true := by
  induction h with
  | done => exact fun j hj => nomatch hj
  | call hans hn ih => exact ih (hx.2 _)
  | submit hans hn ih => exact List.forall_mem_cons.mpr ⟨hx.1, ih (hx.2 _)⟩
  | wait hwait hn ih => exact ih (hx.2 _)

end Plays

end Program

end ComputePlane
