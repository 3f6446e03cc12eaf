import ComputePlane.Lifecycle.Basic
import ComputePlane.Proofs.Cloud.Removal
import ComputePlane.Proofs.Poll.Questions
import ComputePlane.Proofs.World.Holdings

/-!
# Calls and watches of a world that is ready

Nothing is in the way of the calls of a world that is `Ready`: each is answered by the cloud at
once, whether it is made directly, as a job or by a watch. So what such a world goes through is told
by the lines that are added to its record (`Makes`). A watch adds one line for each of its
questions, at the times of its policy's schedule up to the first yes (`Ready.await`).
-/

namespace ComputePlane

/-- The questions of a watch that is answered at once by a cloud that nothing else changes. -/
def Question.probes (q : Question) (c : MemoryCloud) (k : Nat) : Probe :=
  ⟨0, q.holds (c.askedAgain q.call k)⟩

namespace World

variable {w w' w'' : World} {lines lines' : List LogLine}

/-- There are no rules in front of the cloud, and the queues are open and idle. -/
structure Ready (w : World) : Prop where
  rules : w.backend.rules = []
  idle : w.queue.IsIdle
  isOpen : w.queue.closed = false

/-- Of the calls that are recorded in some lines, none was kept from the cloud. -/
structure Makes (w : World) (lines : List LogLine) (w' : World) : Prop where
  ready : w'.Ready
  log : w'.backend.log = w.backend.log ++ lines
  cloud : w'.backend.cloud = w.backend.cloud.calls (lines.map (·.call))

theorem Ready.makes_nil (h : w.Ready) : w.Makes [] w := ⟨h, (List.append_nil _).symm, rfl⟩

theorem Makes.trans (h : w.Makes lines w') (h' : w'.Makes lines' w'') :
    w.Makes (lines ++ lines') w'' :=
  ⟨h'.ready, by rw [h'.log, h.log, List.append_assoc],
    by rw [h'.cloud, h.cloud, List.map_append, MemoryCloud.calls_append]⟩

/-! ## Calls and jobs -/

theorem Ready.call (h : w.Ready) (call : Call) :
    (w.call call).1 = (w.backend.cloud.call call).1 ∧ (w.call call).2.now = w.now ∧
      w.Makes [⟨w.now, call⟩] (w.call call).2 := by
  have hrule := Backend.rule_arrive h.rules w.now call
  have hdue := Backend.due_arrive h.rules w.now call
  unfold World.call
  simp only [Backend.settle_of_rule_none _ call hrule, hdue]
  exact ⟨rfl, trivial, ⟨h.rules, h.idle, h.isOpen⟩, rfl, rfl⟩

/-- A job is answered like a call. -/
theorem Ready.submit (h : w.Ready) (dc : String) (call : Call) :
    (w.submit dc call).1 = (w.backend.cloud.call call).1 ∧ (w.submit dc call).2.now = w.now ∧
      w.Makes [⟨w.now, call⟩] (w.submit dc call).2 := by
  obtain ⟨q₁, q₂, henq, hstart, hidle, hopen⟩ := h.idle.exists_start h.isOpen dc 0
  obtain ⟨hresult, hnow, hmade⟩ := h.call call
  have hsubmit : w.submit dc call =
      ((w.call call).1, { (w.call call).2 with queue := q₂.finish dc }) := by
    unfold World.submit
    simp only [henq, hstart]
    rfl
  rw [hsubmit]
  exact ⟨hresult, hnow, ⟨hmade.ready.rules, hidle, hopen⟩, hmade.log, hmade.cloud⟩

theorem Ready.bestEffortAll (h : w.Ready) (dc : String) (cs : List Call) :
    (w.run (Lifecycle.bestEffortAll dc cs)).2.now = w.now ∧
      w.Makes (cs.map (⟨w.now, ·⟩)) (w.run (Lifecycle.bestEffortAll dc cs)).2 := by
  induction cs generalizing w with
  | nil => exact ⟨rfl, h.makes_nil⟩
  | cons call cs ih =>
    have hrun : w.run (Lifecycle.bestEffortAll dc (call :: cs)) =
        (w.submit dc call).2.run (Lifecycle.bestEffortAll dc cs) := by
      rw [Lifecycle.bestEffortAll, run_bind]
      rfl
    obtain ⟨-, hnow, hmade⟩ := h.submit dc call
    obtain ⟨hnow', hmade'⟩ := ih hmade.ready
    rw [hnow] at hnow' hmade'
    rw [hrun]
    exact ⟨hnow', hmade.trans hmade'⟩

/-! ## Watches -/

section Watches

variable {q : Question} {c : MemoryCloud} {wait : Wait} {n now count : Nat}

/-- The `n`-th question of a watch is answered at once, and the watch goes on from the answer. -/
theorem Ready.drive_pausing (h : w.Ready) (hnow : w.now = now)
    (hcloud : w.backend.cloud = c.calls (List.replicate n q.call)) :
    drive (Asking.poll q) Asking.wake .timedOut (count + 1) w (.pausing wait now) =
      (Asking.answered now wait (q.probes c n).answer).elim
        (fun outcome => (outcome, (w.call q.call).2))
        (fun a => drive (Asking.poll q) Asking.wake .timedOut count
          { (w.call q.call).2 with now := max now a.wake } a) := by
  subst hnow
  have hanswer : q.holds (w.backend.cloud.call q.call).1 = (q.probes c n).answer := by
    rw [hcloud]
    rfl
  have hcall : (w.call q.call).2 = { w with backend := (w.call q.call).2.backend } := by
    unfold World.call
    simp only [Backend.due_arrive h.rules w.now q.call]
  rw [drive, poll_pausing h.rules, hanswer, hcall]
  cases Asking.answered w.now wait (q.probes c n).answer <;> rfl

/-- A watch that is to overflow does so at the end of its pause. -/
theorem drive_breaking (q : Question) (count : Nat) {w : World} {wake : Nat} (hnow : wake ≤ w.now) :
    drive (Asking.poll q) Asking.wake .timedOut (count + 1) w (.breaking wake) =
      (.overflow, w) := by
  simp only [drive, Asking.poll, if_neg (Nat.not_lt_of_le hnow)]

/-- What a watch comes to from its `n`-th question on. -/
theorem Ready.drive_asking (h : w.Ready) (hnow : w.now = now) (hlimit : now ≤ wait.cutoff)
    (hcount : wait.cutoff - now ≤ count)
    (hcloud : w.backend.cloud = c.calls (List.replicate n q.call)) :
    ∃ w', drive (Asking.poll q) Asking.wake .timedOut (count + 1) w (.pausing wait now) =
        ((wait.run (q.probes c) n now).outcome, w') ∧
      w.Makes ((wait.run (q.probes c) n now).starts.map (⟨·, q.call⟩)) w' := by
  have hinstant : ∀ k, (q.probes c k).duration = 0 := fun _ => rfl
  fun_induction Wait.run wait (q.probes c) n now generalizing w count with
  | case1 wait n now hlate =>
    rw [hinstant] at hlate
    omega
  | case2 wait n now hin hyes =>
    obtain ⟨-, -, hmade⟩ := h.call q.call
    rw [h.drive_pausing hnow hcloud, hyes]
    exact ⟨_, rfl, hnow ▸ hmade⟩
  | case3 wait n now hin hno hnext =>
    obtain ⟨-, -, hmade⟩ := h.call q.call
    rw [hinstant, Nat.add_zero] at hnext
    rw [h.drive_pausing hnow hcloud, Asking.answered, if_neg hno, hnext]
    exact ⟨_, rfl, hnow ▸ hmade⟩
  | case4 wait n now hin hno wake hnext =>
    obtain ⟨-, -, hmade⟩ := h.call q.call
    rw [hinstant, Nat.add_zero] at hnext
    obtain ⟨hbefore, -, hwake⟩ := Wait.next_eq_overflow.mp hnext
    have hlt : now < wake := hwake ▸ Wait.lt_wake hbefore
    have hle : wake ≤ wait.cutoff := hwake ▸ Wait.wake_le_cutoff hbefore
    obtain ⟨count, rfl⟩ : ∃ k, count = k + 1 := ⟨count - 1, by omega⟩
    let w₁ : World := { (w.call q.call).2 with now := max now wake }
    have hmade₁ : w.Makes [⟨now, q.call⟩] w₁ :=
      ⟨⟨hmade.ready.rules, hmade.ready.idle, hmade.ready.isOpen⟩, hnow ▸ hmade.log, hmade.cloud⟩
    rw [h.drive_pausing hnow hcloud, Asking.answered, if_neg hno, hnext]
    exact ⟨w₁, drive_breaking q count (Nat.le_max_right ..), hmade₁⟩
  | case5 wait n now hin hno wake wait' hnext ih =>
    obtain ⟨-, -, hmade⟩ := h.call q.call
    rw [hinstant, Nat.add_zero] at hnext
    have hlt := Wait.next_again_lt hnext
    have hcut := Wait.next_again_cutoff hnext
    obtain ⟨count, rfl⟩ : ∃ k, count = k + 1 := ⟨count - 1, by
      have hle := Wait.next_again_le hnext
      omega⟩
    let w₁ : World := { (w.call q.call).2 with now := max now wake }
    have hmade₁ : w.Makes [⟨now, q.call⟩] w₁ :=
      ⟨⟨hmade.ready.rules, hmade.ready.idle, hmade.ready.isOpen⟩, hnow ▸ hmade.log, hmade.cloud⟩
    have hcloud₁ : w₁.backend.cloud = c.calls (List.replicate (n + 1) q.call) := by
      rw [hmade₁.cloud, hcloud, ← MemoryCloud.calls_append, List.replicate_succ']
      rfl
    have hless : wait'.cutoff - wake ≤ count := by omega
    obtain ⟨w', hdrive, hmade'⟩ := ih (w := w₁) hmade₁.ready (Nat.max_eq_right hlt.le)
      (hcut ▸ Wait.next_again_le hnext) hless hcloud₁
    rw [h.drive_pausing hnow hcloud, Asking.answered, if_neg hno, hnext]
    exact ⟨w', hdrive, hmade₁.trans hmade'⟩

/-- A watch goes like the run of its policy with the answers that the cloud would give. -/
theorem Ready.watch (h : w.Ready) (watch : Watch) (policy : PollPolicy) :
    ∃ w', w.watch watch policy =
        ((policy.runAt w.now (watch.question.probes w.backend.cloud)).outcome, w') ∧
      w.Makes ((policy.runAt w.now (watch.question.probes w.backend.cloud)).starts.map
        (⟨·, watch.question.call⟩)) w' := by
  have hwatch : w.watch watch policy = drive (Asking.poll watch.question) Asking.wake .timedOut
      (ceilMs policy.timeout + 1 + 1) w (Asking.start policy w.now) := rfl
  rw [hwatch, Asking.start_eq]
  split_ifs with hclock
  · have hcount : (Wait.begin policy w.now).cutoff - w.now ≤ ceilMs policy.timeout + 1 := by
      rw [PollPolicy.cutoff_begin, PollPolicy.limit]
      omega
    rw [PollPolicy.runAt_of_some (Wait.begin?_of_lt hclock)]
    exact h.drive_asking rfl (policy.le_cutoff_begin w.now) hcount rfl
  · rw [PollPolicy.runAt, Wait.begin?_of_not_lt hclock, Option.elim_none]
    exact ⟨w, drive_breaking _ _ le_rfl, h.makes_nil⟩

/-- A watch asks at the times of its schedule up to the first yes. It has success if there is one
and a clock can show its deadline; if not, it overflows only if its policy does not fit. -/
theorem Ready.await (h : w.Ready) (watch : Watch) (policy : PollPolicy) :
    ∃ polls, polls <+: policy.schedule w.now ∧
      w.Makes (polls.map (⟨·, watch.question.call⟩)) (w.watch watch policy).2 ∧
      ((w.watch watch policy).1 = .reached ↔
        w.now * millisecond + policy.timeout < clockLimit ∧
          ∃ k < (policy.schedule w.now).length,
            watch.question.holds (w.backend.cloud.askedAgain watch.question.call k) = true) ∧
      ((w.watch watch policy).1 = .overflow ↔
        (w.watch watch policy).1 ≠ .reached ∧ ¬policy.Fits w.now) := by
  obtain ⟨w', hwatch, hmade⟩ := h.watch watch policy
  have hinstant : ∀ k, (watch.question.probes w.backend.cloud k).duration = 0 := fun _ => rfl
  obtain ⟨hpolls, hreached, hover⟩ := policy.runAt_of_instant hinstant
  rw [hwatch]
  exact ⟨_, hpolls, hmade, hreached, hover⟩

end Watches

end World

end ComputePlane
