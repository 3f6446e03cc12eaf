import ComputePlane.Proofs.Program.Converse
import ComputePlane.Proofs.World.Simulation

/-!
# Runs that are broken off

A watch overflows only if its policy does not fit when it starts, whatever rules there are in front
of the cloud (`watch_ne_overflow`). Nothing else breaks a run off (`run?_of_unwatched`), and a run
that is not broken off is the run without regard to overflows (`run_of_run?`). Either kind is one of
those that a program has when it is answered in any way (`runs_run?`).
-/

namespace ComputePlane.World

open Program

variable {α β σ : Type} {w w' : World}

/-! ## Watches that fit -/

/-- What a drive ends with, if every step of it keeps an invariant. -/
theorem drive_of_invariant {poll : Nat → Backend → σ → (β ⊕ σ) × Backend} {wake : σ → Nat}
    {late : β} {I : Backend → σ → Prop} {Q : β → Prop} (hlate : Q late)
    (hpoll : ∀ now b s, I b s → (poll now b s).1.elim Q (I (poll now b s).2))
    (count : Nat) (w : World) {s : σ} (hs : I w.backend s) :
    Q (drive poll wake late count w s).1 := by
  induction count generalizing w s with
  | zero => exact hlate
  | succ count ih =>
    have hstep := hpoll w.now w.backend s hs
    unfold drive
    split
    · next r b heq =>
      rw [heq] at hstep
      exact hstep
    · next s' b heq =>
      rw [heq] at hstep
      exact ih { w with now := max w.now (wake s'), backend := b } hstep

/-- A watch has come to a time at which its wait would not overflow if every question from then on
were answered no at once. -/
def Spared : Asking → Prop
  | .pausing wait wake => ∃ m, ∃ t ≤ wake, (wait.run Wait.never m t).outcome ≠ .overflow
  | .asking wait p => ∃ m, ∃ t ≤ p.due, (wait.run Wait.never m t).outcome ≠ .overflow
  | .breaking _ => False

variable {wait : Wait} {m t now : Nat} {p : Pending} {a : Asking} {policy : PollPolicy}

theorem answered_spared (h : (wait.run Wait.never m t).outcome ≠ .overflow) (hle : t ≤ now)
    (yes : Bool) : (Asking.answered now wait yes).elim (· ≠ .overflow) Spared := by
  unfold Asking.answered
  split
  · simp
  split
  · simp
  · next wake hnext => exact absurd hnext (Wait.next_ne_overflow h hle)
  · next wake wait' hnext => exact ⟨_, Wait.ne_overflow_of_again h hle hnext⟩

theorem settle_spared (q : Question) (now : Nat) (b : Backend) (h : Spared (.asking wait p)) :
    (Asking.settle q now b wait p).1.elim (· ≠ .overflow) Spared := by
  unfold Asking.settle
  split
  · next hdue =>
    obtain ⟨m, t, ht, hfits⟩ := h
    exact answered_spared hfits (ht.trans hdue) _
  split
  · simp
  · exact h

theorem poll_spared (q : Question) (now : Nat) (b : Backend) (h : Spared a) :
    (a.poll q now b).1.elim (· ≠ .overflow) Spared := by
  cases a with
  | asking wait p => exact settle_spared q now b h
  | breaking wake => exact h.elim
  | pausing wait wake =>
    simp only [Asking.poll]
    split
    · exact h
    · next hwake =>
      -- the question is asked now, and its answer comes no earlier
      obtain ⟨m, t, ht, hfits⟩ := h
      exact settle_spared q now _
        ⟨m, t, (ht.trans (Nat.le_of_not_lt hwake)).trans (Nat.le_add_right ..), hfits⟩

/-- A watch whose policy fits does not overflow. -/
theorem watch_ne_overflow (hfits : policy.Fits w.now) (watch : Watch) :
    (w.watch watch policy).1 ≠ .overflow := by
  have hstart : Spared (Asking.start policy w.now) := by
    rw [Asking.start_eq, if_pos hfits.lt_clockLimit]
    exact ⟨0, w.now, le_rfl, hfits.runAt_eq _ ▸ hfits⟩
  exact drive_of_invariant (I := fun _ => Spared) (Q := (· ≠ PollEnd.overflow))
    PollEnd.noConfusion
    (fun now b _ h => poll_spared watch.question now b h) _ w hstart

/-! ## Runs -/

def isWatch : Request → Bool
  | .await .. => true
  | _ => false

theorem isWatch_of_isLook {r : Request} (h : isLook r = true) : isWatch r = false := by
  cases r <;> first | rfl | cases h

theorem overflows_await {watch : Watch} :
    w.overflows (.await watch policy) = true ↔ (w.watch watch policy).1 = .overflow := by
  simp only [overflows, decide_eq_true_eq]

/-- A run that is not broken off is the run without regard to overflows. -/
theorem run_of_run? {x : Program α} {a : α} (h : w.run? x = (some a, w')) :
    w.run x = (a, w') := by
  induction x generalizing w with
  | done b =>
    cases h
    rfl
  | request r next ih =>
    simp only [run?] at h
    split at h
    · cases h
    · exact ih _ h

/-- What asks for no watch is not broken off. -/
theorem run?_of_unwatched {x : Program α} (hx : x.AsksOnly (isWatch · = false)) (w : World) :
    w.run? x = (some (w.run x).1, (w.run x).2) := by
  induction x generalizing w with
  | done a => rfl
  | request r next ih =>
    have hno : w.overflows r = false := by
      cases r with
      | await => cases hx.1
      | _ => rfl
    simp only [run?, hno, Bool.false_eq_true, if_false]
    exact ih _ (hx.2 _) _

/-- What a run goes on with after its first part is broken off with that part. -/
theorem run?_bind (w : World) (x : Program α) (f : α → Program β) :
    w.run? (x >>= f) =
      (w.run? x).1.elim (none, (w.run? x).2) fun a => (w.run? x).2.run? (f a) := by
  induction x generalizing w with
  | done a => rfl
  | request r next ih =>
    show w.run? (.request r fun y => next y >>= f) = _
    simp only [run?]
    split
    · rfl
    · exact ih _ _

/-- What only looks is not broken off. -/
theorem run?_of_looks {x : Program α} (hx : x.AsksOnly (isLook · = true)) {a : α}
    (h : w.run x = (a, w')) : w.run? x = (some a, w') := by
  rw [run?_of_unwatched (hx.mono fun _ => isWatch_of_isLook), h]

theorem run?_bind_of_unwatched {x : Program α} (hx : x.AsksOnly (isWatch · = false)) (w : World)
    (f : α → Program β) : w.run? (x >>= f) = (w.run x).2.run? (f (w.run x).1) := by
  rw [run?_bind, run?_of_unwatched hx]
  rfl

/-- What cannot fail and asks for no watch is run before what follows it. -/
theorem run?_lift_bind {x : Program α} (hx : x.AsksOnly (isWatch · = false)) (w : World)
    (f : α → Operation β) :
    w.run? ((liftM x : Operation α) >>= f).run = (w.run x).2.run? (f (w.run x).1).run := by
  have hbind : ((liftM x : Operation α) >>= f).run = x >>= fun a => (f a).run :=
    (ExceptT.run_bind ..).trans (Program.bind_assoc x _ _)
  rw [hbind, run?_bind_of_unwatched hx]

/-- An operation ends with the failure of its first part. -/
theorem run?_bind_of_error {x : Operation α} {e : Error}
    (h : w.run? x.run = (some (.error e), w')) (f : α → Operation β) :
    w.run? (x >>= f).run = (some (.error e), w') := by
  rw [ExceptT.run_bind, run?_bind, h]
  rfl

/-- An operation goes on with what its first part gives. -/
theorem run?_bind_of_ok {x : Operation α} {a : α} (h : w.run? x.run = (some (.ok a), w'))
    (f : α → Operation β) : w.run? (x >>= f).run = w'.run? (f a).run := by
  rw [ExceptT.run_bind, run?_bind, h]
  rfl

/-- A watch is run before what follows it, and breaks the run off if it overflows. -/
theorem run?_await_bind (w : World) (policy : PollPolicy) (watch : Watch) (f : Bool → Operation β) :
    w.run? ((liftM (Program.await policy watch) : Operation Bool) >>= f).run =
      if (w.watch watch policy).1 = .overflow then (none, (w.watch watch policy).2)
      else (w.watch watch policy).2.run? (f ((w.watch watch policy).1 = .reached)).run := by
  show w.run? (.request (.await watch policy) fun yes => (f yes).run) = _
  rw [run?_request, perform_await_fst, perform_await_snd]
  simp only [overflows_await]

/-- What every request of a program keeps is kept by its run, also if that is broken off. -/
theorem run?_of_invariant {I : World → Prop} {P : Request → Prop}
    (hstep : ∀ w r, P r → I w → I (w.perform r).2) {x : Program α} (hx : x.AsksOnly P)
    (hw : I w) : I (w.run? x).2 := by
  induction x generalizing w with
  | done a => exact hw
  | request r next ih =>
    have hnext := hstep w r hx.1 hw
    simp only [run?]
    split
    · exact hnext
    · exact ih _ (hx.2 _) hnext

/-! ## Time -/

theorem now_le_drive (poll : Nat → Backend → σ → (β ⊕ σ) × Backend) (wake : σ → Nat) (late : β)
    (count : Nat) (w : World) (s : σ) : w.now ≤ (drive poll wake late count w s).2.now := by
  induction count generalizing w s with
  | zero => exact le_rfl
  | succ count ih =>
    unfold drive
    split
    · exact le_rfl
    · next s' b heq =>
      have hlater : w.now ≤ max w.now (wake s') := Nat.le_max_left ..
      exact hlater.trans (ih { w with now := max w.now (wake s'), backend := b } s')

theorem now_le_call (w : World) (c : Call) : w.now ≤ (w.call c).2.now :=
  Nat.le_add_right ..

theorem now_le_perform (w : World) (r : Request) : w.now ≤ (w.perform r).2.now := by
  cases r with
  | call c => exact now_le_call w c
  | submit dc c =>
    show w.now ≤ (w.submit dc c).2.now
    unfold submit
    split
    · exact le_rfl
    · split
      · exact le_rfl
      · exact now_le_call _ c
  | pause d =>
    show w.now ≤ ceilMs _
    rw [← Nat.mul_le_mul_right_iff (show 0 < millisecond by decide)]
    exact (Nat.le_add_right ..).trans (ceilMs_le_iff.mp le_rfl)
  | await watch policy =>
    rw [perform_await_snd]
    exact now_le_drive _ _ _ _ w _
  | gather t width keys => exact now_le_drive _ _ _ _ w _
  | fetch => exact now_le_drive _ _ _ _ w _
  | close => exact le_rfl

/-- A run in a world is one in which the program is answered as it is there. -/
theorem runs_run? {T : Nat} {x : Program α} (hT : (w.run? x).2.now < T) :
    ∃ js, Runs T x js (w.run? x).1 := by
  induction x generalizing w with
  | done a => exact ⟨[], .done⟩
  | request r next ih =>
    have hnone : ∀ o ∈ ([] : List Outcome), o.call.isChange = false := fun _ ho => nomatch ho
    rw [run?_request] at hT ⊢
    cases hover : w.overflows r with
    | true =>
      rw [hover, if_pos rfl] at hT
      rw [if_pos rfl]
      have hstart : w.now < T := (now_le_perform w r).trans_lt hT
      cases r with
      | await watch policy =>
        have hfits : ¬policy.Fits w.now := fun hfits =>
          watch_ne_overflow hfits watch (overflows_await.mp hover)
        exact ⟨[], .overflow hstart hfits hnone⟩
      | _ => cases hover
    | false =>
      rw [hover, if_neg Bool.false_ne_true] at hT
      rw [if_neg Bool.false_ne_true]
      obtain ⟨js, hjs⟩ := ih _ hT
      cases r with
      | call c => exact ⟨_, .call hjs⟩
      | submit dc c => exact ⟨_, .submit hjs⟩
      | pause | await | gather | fetch | close => exact ⟨_, .wait rfl hnone hjs⟩

end ComputePlane.World
