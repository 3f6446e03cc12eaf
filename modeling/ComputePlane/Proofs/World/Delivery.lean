import ComputePlane.Proofs.Program.Converse
import ComputePlane.Proofs.World.Watching

/-!
# Programs that are carried out

A cloud in which no call is to fail carries out every call, so all that is left open in a run of a
program against it is what its waits come to. `Ends` follows a program through the contents of such
a cloud, whatever its waits give, and `Delivers` is the same for what an operation gives unless it
fails. A world that `Carries` every call runs its programs so (`Carries.run_ends`).
-/

namespace ComputePlane

namespace Program

variable {α β : Type} {c d : MemoryCloud}

/-! ## Programs -/

/-- However its waits end, a program ends with `Q` if the cloud carries out each of its calls. It
does not close the queues. -/
def Ends (Q : α → MemoryCloud → Prop) : Program α → MemoryCloud → Prop
  | .done a, c => Q a c
  | .request (.call call) next, c => (next (c.apply call).1).Ends Q (c.apply call).2
  | .request (.submit _ call) next, c => (next (c.apply call).1).Ends Q (c.apply call).2
  | .request .close _, _ => False
  | .request (.pause _) next, c => (next ()).Ends Q c
  | .request (.await ..) next, c => ∀ x, (next x).Ends Q c
  | .request (.gather ..) next, c => ∀ x, (next x).Ends Q c
  | .request .fetch next, c => ∀ x, (next x).Ends Q c

namespace Ends

variable {P : α → MemoryCloud → Prop} {Q : β → MemoryCloud → Prop}

theorem pure {a : α} (h : P a c) : (Pure.pure a : Program α).Ends P c := h

theorem bind {x : Program α} {f : α → Program β} (hx : x.Ends P c)
    (hf : ∀ a d, P a d → (f a).Ends Q d) : (x >>= f).Ends Q c := by
  induction x generalizing c with
  | done a => exact hf a c hx
  | request r next ih =>
    cases r with
    | call call => exact ih _ hx
    | submit dc call => exact ih _ hx
    | pause d => exact ih () hx
    | await w p => exact fun x => ih x (hx x)
    | gather t w keys => exact fun x => ih x (hx x)
    | fetch => exact fun x => ih x (hx x)
    | close => exact hx

theorem mono {P' : α → MemoryCloud → Prop} {x : Program α} (hx : x.Ends P c)
    (h : ∀ a d, P a d → P' a d) : x.Ends P' c :=
  bind_pure x ▸ hx.bind fun a d hp => .pure (h a d hp)

/-- A job gives what the cloud makes of its call. -/
theorem submit (dc : String) (call : Call) :
    (Program.submit dc call).run.Ends (fun r e => c.apply call = (r, e)) c := rfl

/-- What waits leaves the cloud as it is. -/
theorem await (p : PollPolicy) (w : Watch) :
    (Program.await p w).Ends (fun _ e => e = c) c := fun _ => rfl

theorem pause (duration : Nat) : (Program.pause duration).Ends (fun _ e => e = c) c := rfl

end Ends

/-! ## Operations -/

/-- However its waits end, an operation that is carried out and does not fail gives something with
`Q`. -/
def Delivers (Q : α → MemoryCloud → Prop) (x : Operation α) (c : MemoryCloud) : Prop :=
  x.run.Ends (fun r e => ∀ a, r = .ok a → Q a e) c

namespace Delivers

variable {P : α → MemoryCloud → Prop} {Q : β → MemoryCloud → Prop}

theorem pure {a : α} (h : P a c) : Delivers P (Pure.pure a) c := by
  rintro _ ⟨⟩
  exact h

theorem throw (e : Error) : Delivers P (MonadExcept.throw e : Operation α) c := nofun

theorem bind {x : Operation α} {f : α → Operation β} (hx : Delivers P x c)
    (hf : ∀ a d, P a d → Delivers Q (f a) d) : Delivers Q (x >>= f) c := by
  unfold Delivers
  rw [ExceptT.run_bind]
  refine Ends.bind hx fun r e hr => ?_
  cases r with
  | ok a => exact hf a e (hr a rfl)
  | error err => exact Ends.pure nofun

theorem mono {P' : α → MemoryCloud → Prop} {x : Operation α} (hx : Delivers P x c)
    (h : ∀ a d, P a d → P' a d) : Delivers P' x c :=
  Ends.mono hx fun _ d hr a ha => h a d (hr a ha)

theorem lift {x : Program α} (hx : x.Ends P c) : Delivers P (liftM x : Operation α) c :=
  Ends.bind hx fun _ _ hp => .pure fun _ ha => Except.ok.inj ha ▸ hp

theorem lift_bind {x : Program α} {f : α → Operation β} (hx : x.Ends P c)
    (hf : ∀ a d, P a d → Delivers Q (f a) d) :
    Delivers Q ((liftM x : Operation α) >>= f) c := by
  have hbind : ((liftM x : Operation α) >>= f).run = x >>= fun a => (f a).run :=
    (ExceptT.run_bind ..).trans (LawfulMonad.bind_assoc x _ _)
  unfold Delivers
  rw [hbind]
  exact hx.bind hf

theorem call (call : Call) :
    Delivers (fun a e => c.apply call = (.ok a, e)) (Program.call call) c := by
  intro a ha
  exact Prod.ext ha rfl

end Delivers

end Program

namespace World

open Program

variable {α : Type} {w w' : World} {c : MemoryCloud}

/-! ## Worlds -/

/-- Nothing keeps the calls of a world from its cloud, which has the content `c` and in which no
call is to fail. -/
structure Carries (c : MemoryCloud) (w : World) : Prop where
  ready : w.Ready
  failures : w.backend.cloud.failures = []
  content : w.content = c

theorem Carries.makes (h : Carries c w) {call : Call} {line : LogLine} (hline : line.call = call)
    (hmade : w.Makes [line] w') :
    (w.backend.cloud.call call).1 = (c.apply call).1 ∧ Carries (c.apply call).2 w' := by
  obtain ⟨hresult, hcontent⟩ := MemoryCloud.call_of_failures_nil h.failures call
  have hcloud : w'.backend.cloud = (w.backend.cloud.call call).2 := hline ▸ hmade.cloud
  have hsetup : (w.backend.cloud.call call).2.setup = w.backend.cloud.setup := by
    rw [MemoryCloud.call, MemoryCloud.setup_finish, MemoryCloud.setup_begin]
  obtain rfl := h.content
  refine ⟨hresult, hmade.ready, ?_, ?_⟩
  · rw [hcloud]
    exact (congrArg Prod.snd hsetup).trans h.failures
  · rw [World.content, hcloud]
    exact hcontent

theorem Carries.call (h : Carries c w) (call : Call) :
    (w.call call).1 = (c.apply call).1 ∧ Carries (c.apply call).2 (w.call call).2 := by
  obtain ⟨hresult, -, hmade⟩ := h.ready.call call
  rw [hresult]
  exact h.makes rfl hmade

theorem Carries.submit (h : Carries c w) (dc : String) (call : Call) :
    (w.submit dc call).1 = (c.apply call).1 ∧ Carries (c.apply call).2 (w.submit dc call).2 := by
  obtain ⟨hresult, -, hmade⟩ := h.ready.submit dc call
  rw [hresult]
  exact h.makes rfl hmade

theorem Carries.perform (h : Carries c w) {r : Request} (hr : isRead r = true) :
    Carries c (w.perform r).2 := by
  obtain ⟨hread, hqueue⟩ := onlyRead_perform hr w
  have hsetup : (w.perform r).2.backend.cloud.setup = w.backend.cloud.setup := by
    rw [← MemoryCloud.setup_content, hread.content, MemoryCloud.setup_content]
  exact ⟨⟨hread.rules.trans h.ready.rules, hqueue ▸ h.ready.idle, hqueue ▸ h.ready.isOpen⟩,
    (congrArg Prod.snd hsetup).trans h.failures, hread.content.trans h.content⟩

/-- A run ends as its program does when it is carried out. -/
theorem Carries.run_ends {Q : α → MemoryCloud → Prop} {x : Program α} (h : Carries c w)
    (hx : x.Ends Q c) : Q (w.run x).1 (w.run x).2.content := by
  induction x generalizing w c with
  | done a => exact h.content ▸ hx
  | request r next ih =>
    cases r with
    | call call =>
      obtain ⟨hresult, hnext⟩ := h.call call
      exact ih (w.call call).1 hnext (hresult ▸ hx)
    | submit dc call =>
      obtain ⟨hresult, hnext⟩ := h.submit dc call
      exact ih (w.submit dc call).1 hnext (hresult ▸ hx)
    | pause d => exact ih () (h.perform (r := .pause d) rfl) hx
    | await watch p => exact ih _ (h.perform (r := .await watch p) rfl) (hx _)
    | gather t width keys => exact ih _ (h.perform (r := .gather t width keys) rfl) (hx _)
    | fetch => exact ih _ (h.perform (r := .fetch) rfl) (hx _)
    | close => exact hx.elim

end World

end ComputePlane
