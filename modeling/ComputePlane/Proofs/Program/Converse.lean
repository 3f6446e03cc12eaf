import ComputePlane.Proofs.Poll.Questions
import ComputePlane.Proofs.Program.Play

/-!
# Programs answered in any way at all

`Runs` follows a program whose requests are answered by anything: a call may give any result, a wait
may end either way or break the program off by an overflow, and whatever is looked up while it lasts
may be answered in any way too. A program that is not broken off `Converses`.

Two programs are `Twins` if they submit the same changes for as long as these give the same results,
whatever their waits come to. When the changes of twins are answered alike, they make the same
changes and give the same, unless one of them is broken off; then it has made the first of the
changes of the other one (`Twins.runs`).
-/

namespace ComputePlane.Program

variable {α β : Type}

instance : LawfulMonad Program :=
  LawfulMonad.mk' _ (fun x => bind_done x) (fun _ _ => rfl) (fun x f g => bind_assoc x f g)

/-! ## Runs -/

/-- The calls a program makes with their results, in order, and what it gives in the end, unless it
is broken off by a watch that starts before the time `T` and overflows. The calls made during a wait
are among them. -/
inductive Runs (T : Nat) : Program α → List Outcome → Option α → Prop where
  | done {a} : Runs T (.done a) [] (some a)
  | call {c r next js e} (h : Runs T (next r) js e) :
      Runs T (.request (.call c) next) (⟨c, r⟩ :: js) e
  | submit {dc c r next js e} (h : Runs T (next r) js e) :
      Runs T (.request (.submit dc c) next) (⟨c, r⟩ :: js) e
  | wait {req x next reads js e} (hreq : isWait req = true)
      (hreads : ∀ o ∈ reads, o.call.isChange = false) (h : Runs T (next x) js e) :
      Runs T (.request req next) (reads ++ js) e
  | overflow {w p next reads start} (hstart : start < T) (hfits : ¬PollPolicy.Fits p start)
      (hreads : ∀ o ∈ reads, o.call.isChange = false) :
      Runs T (.request (.await w p) next) reads none

/-- The calls a program makes with their results, in order, and what it gives in the end. -/
def Converses (x : Program α) (js : List Outcome) (a : α) : Prop :=
  Runs 0 x js (some a)

/-- The changes among some calls. -/
def changes (js : List Outcome) : List Outcome :=
  js.filter (·.call.isChange)

@[simp] theorem changes_nil : changes [] = [] := rfl

@[simp] theorem changes_append (js ks : List Outcome) :
    changes (js ++ ks) = changes js ++ changes ks :=
  List.filter_append ..

theorem changes_cons_of_isChange {o : Outcome} (h : o.call.isChange = true) (js : List Outcome) :
    changes (o :: js) = o :: changes js :=
  List.filter_cons_of_pos h

theorem changes_of_reads {js : List Outcome} (h : ∀ o ∈ js, o.call.isChange = false) :
    changes js = [] :=
  List.filter_eq_nil_iff.mpr fun o ho => by simp [h o ho]

namespace Runs

variable {T : Nat} {js : List Outcome}

theorem of_pure {a : α} {e : Option α} (h : Runs T (pure a) js e) : js = [] ∧ e = some a := by
  cases h
  exact ⟨rfl, rfl⟩

/-- What a program goes on with after its first part is broken off with that part. -/
theorem of_bind {x : Program α} {f : α → Program β} {e : Option β} (h : Runs T (x >>= f) js e) :
    ∃ js₁ e₁ js₂, Runs T x js₁ e₁ ∧ js = js₁ ++ js₂ ∧
      e₁.elim (js₂ = [] ∧ e = none) fun a => Runs T (f a) js₂ e := by
  induction x generalizing js with
  | done a => exact ⟨[], some a, js, .done, rfl, h⟩
  | request r next ih =>
    cases h with
    | call hn =>
      obtain ⟨js₁, e₁, js₂, h₁, rfl, h₂⟩ := ih _ hn
      exact ⟨_ :: js₁, e₁, js₂, .call h₁, rfl, h₂⟩
    | submit hn =>
      obtain ⟨js₁, e₁, js₂, h₁, rfl, h₂⟩ := ih _ hn
      exact ⟨_ :: js₁, e₁, js₂, .submit h₁, rfl, h₂⟩
    | wait hreq hreads hn =>
      obtain ⟨js₁, e₁, js₂, h₁, rfl, h₂⟩ := ih _ hn
      exact ⟨_ ++ js₁, e₁, js₂, .wait hreq hreads h₁, (List.append_assoc ..).symm, h₂⟩
    | overflow hstart hfits hreads =>
      exact ⟨js, none, [], .overflow hstart hfits hreads, (List.append_nil js).symm, rfl, rfl⟩

/-- Each call is one that its program can ask for, or a read made during a wait. -/
theorem forall_calls {keeps : Call → Bool} (hkeeps : ∀ c, c.isChange = false → keeps c = true)
    {x : Program α} {e : Option α} (hx : x.AsksOnly fun r => (call? r).all keeps = true)
    (h : Runs T x js e) : ∀ o ∈ js, keeps o.call = true := by
  induction h with
  | done => exact fun o ho => nomatch ho
  | call hn ih => exact List.forall_mem_cons.mpr ⟨hx.1, ih (hx.2 _)⟩
  | submit hn ih => exact List.forall_mem_cons.mpr ⟨hx.1, ih (hx.2 _)⟩
  | wait hreq hreads hn ih =>
    exact List.forall_mem_append.mpr ⟨fun o ho => hkeeps _ (hreads o ho), ih (hx.2 _)⟩
  | overflow hstart hfits hreads => exact fun o ho => hkeeps _ (hreads o ho)

theorem changes_eq_nil {x : Program α} {e : Option α} (hx : x.AsksOnly (isRead · = true))
    (h : Runs T x js e) : changes js = [] := by
  induction h with
  | done => rfl
  | @call c r next js e hn ih =>
    have hc : c.isChange = false := by simpa [isRead] using hx.1
    exact (List.filter_cons_of_neg (by simp [hc])).trans (ih (hx.2 _))
  | submit hn ih => exact absurd hx.1 (by simp [isRead])
  | wait hreq hreads hn ih => rw [changes_append, changes_of_reads hreads, ih (hx.2 _)]; rfl
  | overflow hstart hfits hreads => exact changes_of_reads hreads

/-- A run that is not broken off is a conversation. -/
theorem converses {x : Program α} {a : α} (h : Runs T x js (some a)) : Converses x js a := by
  generalize he : some a = e at h
  induction h with
  | done =>
    cases he
    exact .done
  | call hn ih => exact .call (ih he)
  | submit hn ih => exact .submit (ih he)
  | wait hreq hreads hn ih => exact .wait hreq hreads (ih he)
  | overflow => cases he

/-- What only looks is not broken off. -/
theorem exists_of_looks {x : Program α} {e : Option α} (hx : x.AsksOnly (isLook · = true))
    (h : Runs T x js e) : ∃ a, e = some a ∧ Converses x js a := by
  induction h with
  | done => exact ⟨_, rfl, .done⟩
  | call hn ih =>
    obtain ⟨a, rfl, ha⟩ := ih (hx.2 _)
    exact ⟨a, rfl, .call ha⟩
  | submit => cases hx.1
  | wait hreq hreads hn ih =>
    obtain ⟨a, rfl, ha⟩ := ih (hx.2 _)
    exact ⟨a, rfl, .wait hreq hreads ha⟩
  | overflow => cases hx.1

/-- An operation that only looks after its first part is broken off in that part or not at all. -/
theorem of_run_bind_looks {x : Operation α} {f : α → Operation β} {e : Option (Except Error β)}
    (hf : ∀ a, (f a).run.AsksOnly (isLook · = true)) (h : Runs T (x >>= f).run js e) :
    ∃ js₁ e₁ js₂, Runs T x.run js₁ e₁ ∧ js = js₁ ++ js₂ ∧ changes js = changes js₁ ∧
      e₁.elim (e = none) fun
        | .error err => e = some (.error err)
        | .ok a => ∃ b, e = some b ∧ Converses (f a).run js₂ b := by
  rw [ExceptT.run_bind] at h
  obtain ⟨js₁, e₁, js₂, h₁, rfl, h₂⟩ := h.of_bind
  refine ⟨js₁, e₁, js₂, h₁, rfl, ?_⟩
  rcases e₁ with _ | (err | a)
  · obtain ⟨rfl, he⟩ := h₂
    exact ⟨by rw [List.append_nil], he⟩
  · obtain ⟨rfl, he⟩ := h₂.of_pure
    exact ⟨by rw [List.append_nil], he⟩
  · have hnone : changes js₂ = [] := h₂.changes_eq_nil ((hf a).mono fun _ => isRead_of_isLook)
    exact ⟨by rw [changes_append, hnone, List.append_nil], h₂.exists_of_looks (hf a)⟩

end Runs

/-! ## Conversations -/

namespace Converses

variable {js : List Outcome}

theorem of_pure {a b : α} (h : Converses (pure a) js b) : js = [] ∧ b = a := by
  obtain ⟨rfl, ha⟩ := Runs.of_pure h
  exact ⟨rfl, Option.some.inj ha⟩

theorem of_bind {x : Program α} {f : α → Program β} {b : β} (h : Converses (x >>= f) js b) :
    ∃ js₁ a js₂, Converses x js₁ a ∧ Converses (f a) js₂ b ∧ js = js₁ ++ js₂ := by
  obtain ⟨js₁, e, js₂, h₁, rfl, h₂⟩ := Runs.of_bind h
  cases e with
  | none => cases h₂.2
  | some a => exact ⟨js₁, a, js₂, h₁, h₂, rfl⟩

/-- An operation that is followed by another one either fails or is followed by it. -/
theorem of_run_bind {x : Operation α} {f : α → Operation β} {r : Except Error β}
    (h : Converses (x >>= f).run js r) :
    (∃ e, r = .error e ∧ Converses x.run js (.error e)) ∨
      ∃ js₁ a js₂, Converses x.run js₁ (.ok a) ∧ Converses (f a).run js₂ r ∧
        js = js₁ ++ js₂ := by
  rw [ExceptT.run_bind] at h
  obtain ⟨js₁, r₁, js₂, h₁, h₂, rfl⟩ := h.of_bind
  cases r₁ with
  | ok a => exact .inr ⟨js₁, a, js₂, h₁, h₂, rfl⟩
  | error e =>
    obtain ⟨rfl, rfl⟩ := h₂.of_pure
    exact .inl ⟨e, rfl, by simpa using h₁⟩

/-- What cannot fail is followed by what comes next. -/
theorem of_lift_bind {x : Program α} {f : α → Operation β} {r : Except Error β}
    (h : Converses ((liftM x : Operation α) >>= f).run js r) :
    ∃ js₁ a js₂, Converses x js₁ a ∧ Converses (f a).run js₂ r ∧ js = js₁ ++ js₂ := by
  have hbind : ((liftM x : Operation α) >>= f).run = x >>= fun a => (f a).run :=
    (ExceptT.run_bind ..).trans (LawfulMonad.bind_assoc x _ _)
  rw [hbind] at h
  exact h.of_bind

theorem of_call {c : Call} {r : c.Result} (h : Converses (Program.call c).run js r) :
    js = [⟨c, r⟩] := by
  cases h with
  | call hn =>
    obtain ⟨rfl, hr⟩ := Runs.of_pure hn
    cases hr
    rfl
  | wait hreq => cases hreq

theorem of_submit {dc : String} {c : Call} {r : c.Result}
    (h : Converses (Program.submit dc c).run js r) : js = [⟨c, r⟩] := by
  cases h with
  | submit hn =>
    obtain ⟨rfl, hr⟩ := Runs.of_pure hn
    cases hr
    rfl
  | wait hreq => cases hreq

end Converses

/-- A run against a cloud is a conversation, and its jobs are the changes made in it. -/
theorem Plays.converses {c d : MemoryCloud} {x : Program α} {js : List Outcome} {a : α}
    (hx : x.AsksOnly (isOrderly · = true)) (h : Plays c x js a d) :
    ∃ ks, Converses x ks a ∧ changes ks = js := by
  induction h with
  | done => exact ⟨[], .done, rfl⟩
  | @call c call r c' next js a d hans hn ih =>
    obtain ⟨ks, hk, rfl⟩ := ih (hx.2 _)
    have hc : call.isChange = false := by simpa [isOrderly] using hx.1
    exact ⟨_, .call hk, List.filter_cons_of_neg (by simp [hc])⟩
  | @submit c dc call r c' next js a d hans hn ih =>
    obtain ⟨ks, hk, rfl⟩ := ih (hx.2 _)
    have hc : call.isChange = true := by
      have h := hx.1
      simp only [isOrderly, Bool.and_eq_true] at h
      exact h.1
    exact ⟨_, .submit hk, changes_cons_of_isChange hc ks⟩
  | wait hwait hn ih =>
    obtain ⟨ks, hk, rfl⟩ := ih (hx.2 _)
    exact ⟨[] ++ ks, .wait hwait (fun _ ho => nomatch ho) hk, rfl⟩

/-! ## What a program gives -/

/-- Whatever the answers are, what a program gives has a property. -/
def Gives (P : α → Prop) : Program α → Prop
  | .done a => P a
  | .request _ next => ∀ x, Gives P (next x)

theorem Gives.bind {P : α → Prop} {Q : β → Prop} {x : Program α} {f : α → Program β}
    (hx : x.Gives P) (hf : ∀ a, P a → (f a).Gives Q) : (x >>= f).Gives Q := by
  induction x with
  | done a => exact hf a hx
  | request r next ih => exact fun y => ih y (hx y)

theorem Gives.of_runs {P : α → Prop} {T : Nat} {x : Program α} {js : List Outcome} {e : Option α}
    (hx : x.Gives P) (h : Runs T x js e) : ∀ a ∈ e, P a := by
  induction h with
  | done => exact fun _ ha => Option.some.inj ha ▸ hx
  | call hn ih => exact ih (hx _)
  | submit hn ih => exact ih (hx _)
  | wait hreq hreads hn ih => exact ih (hx _)
  | overflow => exact fun _ ha => nomatch ha

/-- Nothing is asked of what a program gives. -/
theorem Gives.any (x : Program α) : x.Gives fun _ => True := by
  induction x with
  | done a => trivial
  | request r next ih => exact ih

/-! ## Answers that are alike -/

/-- After the same changes with the same results, the same change gives the same result. -/
def AnsweredAlike (js ks : List Outcome) : Prop :=
  ∀ ls o o' js' ks', js = ls ++ o :: js' → ks = ls ++ o' :: ks' → o.call = o'.call → o = o'

namespace AnsweredAlike

variable {js ks js' ks' : List Outcome} {o o' : Outcome}

theorem refl (js : List Outcome) : AnsweredAlike js js := by
  rintro ls o o' js' ks' rfl heq -
  exact (List.cons.inj (List.append_cancel_left heq)).1

theorem head (h : AnsweredAlike (o :: js) (o' :: ks)) (hcall : o.call = o'.call) : o = o' :=
  h [] o o' js ks rfl rfl hcall

theorem tail (h : AnsweredAlike (o :: js) (o :: ks)) : AnsweredAlike js ks := by
  rintro ls p p' js' ks' rfl rfl hcall
  exact h (o :: ls) p p' js' ks' rfl rfl hcall

theorem of_append (h : AnsweredAlike (js ++ js') (ks ++ ks')) : AnsweredAlike js ks := by
  rintro ls p p' js₁ ks₁ rfl rfl hcall
  exact h ls p p' _ _ (List.append_assoc ..) (List.append_assoc ..) hcall

end AnsweredAlike

/-! ## A conversation for each program -/

section Conversation

variable (result : (c : Call) → c.Result) (came : Bool) (seen : Watch → List Outcome)

/-- The calls and the end of a program when each call gives `result`, each watch ends with `came`
and sees `seen`, and there is nothing to list. -/
def conversation : Program α → List Outcome × α
  | .done a => ([], a)
  | .request (.call c) next =>
    let (js, a) := conversation (next (result c))
    (⟨c, result c⟩ :: js, a)
  | .request (.submit _ c) next =>
    let (js, a) := conversation (next (result c))
    (⟨c, result c⟩ :: js, a)
  | .request (.await w _) next =>
    let (js, a) := conversation (next came)
    (seen w ++ js, a)
  | .request (.pause _) next => conversation (next ())
  | .request (.gather ..) next => conversation (next (.ok []))
  | .request .fetch next => conversation (next (.error .request))
  | .request .close next => conversation (next ())

theorem converses_conversation (hseen : ∀ w, ∀ o ∈ seen w, o.call.isChange = false)
    (x : Program α) :
    Converses x (conversation result came seen x).1 (conversation result came seen x).2 := by
  have hnone : ∀ o ∈ ([] : List Outcome), o.call.isChange = false := fun _ ho => nomatch ho
  induction x with
  | done a => exact .done
  | request r next ih =>
    cases r with
    | call c => exact .call (ih _)
    | submit dc c => exact .submit (ih _)
    | await w p => exact .wait rfl (hseen w) (ih _)
    | pause d => exact .wait rfl hnone (ih _)
    | gather t w keys => exact .wait rfl hnone (ih _)
    | fetch => exact .wait rfl hnone (ih _)
    | close => exact .wait rfl hnone (ih _)

/-- Its changes give what they are said to give. -/
theorem mem_changes_conversation (hseen : ∀ w, ∀ o ∈ seen w, o.call.isChange = false)
    {x : Program α} {o : Outcome} (ho : o ∈ changes (conversation result came seen x).1) :
    o = ⟨o.call, result o.call⟩ := by
  induction x with
  | done a => cases ho
  | request r next ih =>
    have hcons : ∀ c js, (o ∈ changes js → o = ⟨o.call, result o.call⟩) →
        o ∈ changes (⟨c, result c⟩ :: js) → o = ⟨o.call, result o.call⟩ := by
      intro c js hjs hmem
      obtain ⟨hmem, hchange⟩ := List.mem_filter.mp hmem
      rcases List.mem_cons.mp hmem with rfl | hmem
      · rfl
      · exact hjs (List.mem_filter.mpr ⟨hmem, hchange⟩)
    cases r with
    | call c => exact hcons c _ (ih _) ho
    | submit dc c => exact hcons c _ (ih _) ho
    | await w p =>
      refine ih came ?_
      simpa [conversation, changes_of_reads (hseen w)] using ho
    | pause d => exact ih _ ho
    | gather t w keys => exact ih _ ho
    | fetch => exact ih _ ho
    | close => exact ih _ ho

end Conversation

/-- Two programs whose changes give the same results are answered alike. -/
theorem conversation_answeredAlike (result : (c : Call) → c.Result) {came came' : Bool}
    {seen seen' : Watch → List Outcome} (hseen : ∀ w, ∀ o ∈ seen w, o.call.isChange = false)
    (hseen' : ∀ w, ∀ o ∈ seen' w, o.call.isChange = false) (x : Program α) (y : Program β) :
    AnsweredAlike (changes (conversation result came seen x).1)
      (changes (conversation result came' seen' y).1) := by
  intro ls o o' js' ks' hjs hks hcall
  have ho : o ∈ changes (conversation result came seen x).1 := by simp [hjs]
  have ho' : o' ∈ changes (conversation result came' seen' y).1 := by simp [hks]
  rw [mem_changes_conversation result came seen hseen ho,
    mem_changes_conversation result came' seen' hseen' ho', hcall]

/-! ## Twins -/

/-- A wait, whose policy is `p` if it is a watch. -/
def WaitsBy (p : PollPolicy) : Request → Prop
  | .await _ q => q = p
  | .call _ => False
  | .submit .. => False
  | _ => True

/-- The same changes are submitted as long as they give the same, whatever the waits give. The
watches have the policies `p` and `p'`. -/
inductive Twins (p p' : PollPolicy) : Program α → Program α → Prop where
  | done {a} : Twins p p' (.done a) (.done a)
  | change {dc c next next'} (hc : c.isChange = true) (h : ∀ r, Twins p p' (next r) (next' r)) :
      Twins p p' (.request (.submit dc c) next) (.request (.submit dc c) next')
  | wait {req req' next next'} (hreq : WaitsBy p req) (hreq' : WaitsBy p' req')
      (h : ∀ x y, Twins p p' (next x) (next' y)) :
      Twins p p' (.request req next) (.request req' next')

/-- All that is asked for is to submit changes. -/
def submitsChange : Request → Bool
  | .submit _ c => c.isChange
  | _ => false

/-- A run with the calls `js` that gives `e` is broken off, by a watch with the policy `p` that
starts before the time `T`. It has made no change but the first ones among the calls `ks`. -/
structure StopsShort (p : PollPolicy) (T : Nat) (js ks : List Outcome) (e : Option α) : Prop where
  broken : e = none
  unfit : ∃ start < T, ¬p.Fits start
  changes : changes js <+: changes ks

namespace StopsShort

variable {p : PollPolicy} {T : Nat} {js ks js' ks' : List Outcome} {e : Option α}

/-- Only the changes matter. -/
theorem congr (hjs : Program.changes js = Program.changes js')
    (hks : Program.changes ks = Program.changes ks') :
    StopsShort p T js ks e ↔ StopsShort p T js' ks' e :=
  ⟨fun h => ⟨h.broken, h.unfit, hjs ▸ hks ▸ h.changes⟩,
    fun h => ⟨h.broken, h.unfit, hjs ▸ hks ▸ h.changes⟩⟩

theorem cons (h : StopsShort p T js ks e) {o : Outcome} (ho : o.call.isChange = true) :
    StopsShort p T (o :: js) (o :: ks) e := by
  refine ⟨h.broken, h.unfit, ?_⟩
  rw [changes_cons_of_isChange ho, changes_cons_of_isChange ho]
  exact (List.prefix_cons_inj o).mpr h.changes

end StopsShort

namespace Twins

variable {p p' : PollPolicy} {x y : Program α} {T : Nat} {js ks : List Outcome} {e e' : Option α}

/-- A program without waits is its own twin. -/
theorem refl (hx : x.AsksOnly (submitsChange · = true)) : Twins p p' x x := by
  induction x with
  | done a => exact .done
  | request r next ih =>
    cases r with
    | submit dc c => exact .change hx.1 fun r => ih r (hx.2 r)
    | _ => cases hx.1

theorem bind {f g : α → Program β} (h : Twins p p' x y) (hf : ∀ a, Twins p p' (f a) (g a)) :
    Twins p p' (x >>= f) (y >>= g) := by
  induction h with
  | done => exact hf _
  | change hc h ih => exact .change hc ih
  | wait hreq hreq' h ih => exact .wait hreq hreq' ih

theorem run_bind {x y : Operation α} {f g : α → Operation β} (h : Twins p p' x.run y.run)
    (hf : ∀ a, Twins p p' (f a).run (g a).run) : Twins p p' (x >>= f).run (y >>= g).run := by
  rw [ExceptT.run_bind, ExceptT.run_bind]
  refine h.bind fun r => ?_
  cases r with
  | ok a => exact hf a
  | error e => exact .done

theorem run_lift (h : Twins p p' x y) :
    Twins p p' (liftM x : Operation α).run (liftM y : Operation α).run :=
  h.bind fun _ => .done

/-- Waits of any kind, with what follows each of their outcomes. -/
theorem wait_bind {r r' : Request} {f : r.Response → Program β} {g : r'.Response → Program β}
    (hr : WaitsBy p r) (hr' : WaitsBy p' r') (h : ∀ x y, Twins p p' (f x) (g y)) :
    Twins p p' (ask r >>= f) (ask r' >>= g) :=
  .wait hr hr' h

theorem wait_run_bind {r r' : Request} {f : r.Response → Operation β}
    {g : r'.Response → Operation β} (hr : WaitsBy p r) (hr' : WaitsBy p' r')
    (h : ∀ x y, Twins p p' (f x).run (g y).run) :
    Twins p p' ((liftM (ask r) : Operation _) >>= f).run
      ((liftM (ask r') : Operation _) >>= g).run :=
  .wait hr hr' h

/-- A wait is passed without a change, or breaks its program off. -/
theorem of_wait {r : Request} {next : r.Response → Program α} (hr : WaitsBy p r)
    (h : Runs T (.request r next) js e) :
    (∃ y js', Runs T (next y) js' e ∧ changes js = changes js') ∨
      ∀ ks, StopsShort p T js ks e := by
  cases h with
  | call => cases hr
  | submit => cases hr
  | wait hreq hreads hn =>
    exact .inl ⟨_, _, hn, by rw [changes_append, changes_of_reads hreads, List.nil_append]⟩
  | overflow hstart hfits hreads =>
    obtain rfl := hr
    refine .inr fun ks => ⟨rfl, ⟨_, hstart, hfits⟩, ?_⟩
    rw [changes_of_reads hreads]
    exact List.nil_prefix

/-- Twins whose changes are answered alike make the same changes and give the same, unless one of
them is broken off before the other one. -/
theorem runs (h : Twins p p' x y) (hx : Runs T x js e) (hy : Runs T y ks e')
    (halike : AnsweredAlike (changes js) (changes ks)) :
    StopsShort p T js ks e ∨ StopsShort p' T ks js e' ∨
      ∃ a, e = some a ∧ e' = some a ∧ changes js = changes ks := by
  induction h generalizing js ks with
  | done =>
    obtain ⟨rfl, rfl⟩ := hx.of_pure
    obtain ⟨rfl, rfl⟩ := hy.of_pure
    exact .inr (.inr ⟨_, rfl, rfl, rfl⟩)
  | @change dc c next next' hc h ih =>
    cases hx with
    | wait hreq => cases hreq
    | @submit _ _ r _ js' _ hx =>
      cases hy with
      | wait hreq => cases hreq
      | @submit _ _ r' _ ks' _ hy =>
        rw [changes_cons_of_isChange hc, changes_cons_of_isChange hc] at halike
        have hhead := halike.head rfl
        cases hhead
        rcases ih r hx hy halike.tail with hshort | hshort | ⟨a, rfl, rfl, htail⟩
        · exact .inl (hshort.cons hc)
        · exact .inr (.inl (hshort.cons hc))
        · refine .inr (.inr ⟨a, rfl, rfl, ?_⟩)
          rw [changes_cons_of_isChange hc, changes_cons_of_isChange hc, htail]
  | wait hreq hreq' h ih =>
    rcases of_wait hreq hx with ⟨_, js', hx, hjs⟩ | hshort
    · rcases of_wait hreq' hy with ⟨_, ks', hy, hks⟩ | hshort
      · rw [hjs, hks] at halike
        rw [StopsShort.congr hjs hks, StopsShort.congr hks hjs, hjs, hks]
        exact ih _ _ hx hy halike
      · exact .inr (.inl (hshort js))
    · exact .inl (hshort ks)

end Twins

end ComputePlane.Program
