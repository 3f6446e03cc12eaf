import Mathlib.Tactic.Tauto
import ComputePlane.Proofs.Program.Play

/-!
# Volumes on hand

An operation attaches no volume but those that it has made itself and not used so far, and of the
others it deletes only what it has seen on a server or has used before. What it has of both is its
`Stock`. `Handles Q k x` says of a program `x` with the stock `k` that it keeps to this, whatever
its calls answer, and ends with `Q` of its stock and of what it gives. Programs are followed by
others (`Handles.bind`, `Handles.run_bind`).
-/

namespace ComputePlane

/-! ## Calls and volumes -/

namespace Call

/-- The volumes that a call attaches. A server that starts from a volume has it attached. -/
def attached : Call → List VolumeRef
  | createServer dc r => r.bootVolume.toList.map (⟨dc, ·⟩)
  | attachVolume s v => [⟨s.datacenter, v⟩]
  | _ => []

/-- The volumes that a call deletes. -/
def deleted : Call → List VolumeRef
  | deleteVolume v => [v]
  | _ => []

/-- The volumes that a call with a result has made. -/
def madeVolumes : (c : Call) → c.Result → List VolumeRef
  | createVolume dc _, .ok v => [⟨dc, v.id⟩]
  | _, _ => []

/-- The volumes that a look-up with a result shows on a server. -/
def shown : (c : Call) → c.Result → List VolumeRef
  | getServer id, .ok (some s) => s.volumes.map (⟨id.datacenter, ·.id⟩)
  | _, _ => []

/-- No volume is made, attached, deleted or shown. -/
def isIdle : Call → Bool
  | createVolume .. => false
  | deleteVolume _ => false
  | createServer .. => false
  | attachVolume .. => false
  | getServer _ => false
  | _ => true

@[simp] theorem madeVolumes_error (c : Call) (e : Error) : c.madeVolumes (.error e) = [] := by
  cases c <;> rfl

@[simp] theorem shown_error (c : Call) (e : Error) : c.shown (.error e) = [] := by
  cases c <;> rfl

/-- No call attaches two volumes. -/
theorem nodup_attached (c : Call) : c.attached.Nodup := by
  cases c with
  | createServer dc r => cases hboot : r.bootVolume <;> simp [attached, hboot]
  | attachVolume s v => simp [attached]
  | _ => exact .nil

theorem nothing_of_isIdle {c : Call} (hc : c.isIdle = true) (r : c.Result) :
    c.attached = [] ∧ c.deleted = [] ∧ c.madeVolumes r = [] ∧ c.shown r = [] := by
  cases c <;> first | exact ⟨rfl, rfl, rfl, rfl⟩ | cases hc

end Call

/-! ## Stocks -/

/-- The volumes that an operation has made and not used, and the others that it knows. -/
structure Stock where
  fresh : List VolumeRef := []
  seen : List VolumeRef := []

namespace Stock

variable {k : Stock} {c : Call} {v : VolumeRef}

/-- All volumes that are known. -/
def known (k : Stock) : List VolumeRef := k.fresh ++ k.seen

/-- A call attaches what has not been used, and deletes what is known. -/
structure Permits (k : Stock) (c : Call) : Prop where
  attached : ∀ v ∈ c.attached, v ∈ k.fresh
  deleted : ∀ v ∈ c.deleted, v ∈ k.known

/-- The stock after a call with a result. Whether the call succeeds or not, the volumes that it was
to attach or to delete are used. -/
def after (k : Stock) (c : Call) (r : c.Result) : Stock where
  fresh := k.fresh.filter (fun v => v ∉ c.attached ∧ v ∉ c.deleted) ++ c.madeVolumes r
  seen := k.seen ++ c.attached ++ c.deleted ++ c.shown r

/-- A volume that is made is not one that was made before. -/
def Possible (k : Stock) (c : Call) (r : c.Result) : Prop :=
  ∀ v ∈ c.madeVolumes r, v ∉ k.fresh

theorem mem_fresh_after {r : c.Result} : v ∈ (k.after c r).fresh ↔
    (v ∈ k.fresh ∧ v ∉ c.attached ∧ v ∉ c.deleted) ∨ v ∈ c.madeVolumes r := by
  simp [after]

theorem mem_known_after {r : c.Result} : v ∈ (k.after c r).known ↔
    v ∈ k.known ∨ v ∈ c.attached ∨ v ∈ c.deleted ∨ v ∈ c.madeVolumes r ∨ v ∈ c.shown r := by
  rw [known, List.mem_append, mem_fresh_after]
  simp only [known, after, List.mem_append]
  by_cases hattached : v ∈ c.attached <;> by_cases hdeleted : v ∈ c.deleted <;>
    simp only [hattached, hdeleted] <;> tauto

theorem known_subset_after (k : Stock) (c : Call) (r : c.Result) :
    k.known ⊆ (k.after c r).known :=
  fun _ hv => mem_known_after.mpr (.inl hv)

theorem permits_of_unused (hattached : c.attached = []) (hdeleted : c.deleted = []) :
    k.Permits c :=
  ⟨by simp [hattached], by simp [hdeleted]⟩

theorem permits_of_isIdle (hc : c.isIdle = true) : k.Permits c := by
  obtain ⟨hattached, hdeleted, -⟩ := Call.nothing_of_isIdle hc (.error .request)
  exact permits_of_unused hattached hdeleted

/-- A call that neither attaches nor deletes uses nothing up. -/
theorem after_of_unused (hattached : c.attached = []) (hdeleted : c.deleted = []) (r : c.Result) :
    k.after c r = ⟨k.fresh ++ c.madeVolumes r, k.seen ++ c.shown r⟩ := by
  simp [after, hattached, hdeleted]

/-- A volume that has been made can be used. -/
theorem after_createVolume {dc : String} (request : VolumeRequest) (r : Except Error Volume) :
    k.after (.createVolume dc request) r =
      ⟨k.fresh ++ (r.toOption.map fun v => ⟨dc, v.id⟩).toList, k.seen⟩ := by
  rw [after_of_unused rfl rfl]
  cases r with
  | ok v => exact congrArg (Stock.mk _) (List.append_nil _)
  | error e => exact congrArg (Stock.mk _) (List.append_nil _)

theorem after_of_isIdle (hc : c.isIdle = true) (r : c.Result) : k.after c r = k := by
  obtain ⟨hattached, hdeleted, hmade, hshown⟩ := Call.nothing_of_isIdle hc r
  rw [after_of_unused hattached hdeleted, hmade, hshown, List.append_nil, List.append_nil]

end Stock

/-! ## Keeping to a stock -/

namespace Program

variable {α β : Type} {k : Stock}

/-- A program with the stock `k` uses volumes as its stock permits, and ends with `Q`. It does not
close the queues. -/
def Handles (Q : Stock → α → Prop) : Stock → Program α → Prop
  | k, .done a => Q k a
  | k, .request (.call c) next =>
    k.Permits c ∧ ∀ r, k.Possible c r → Handles Q (k.after c r) (next r)
  | k, .request (.submit _ c) next =>
    k.Permits c ∧ ∀ r, k.Possible c r → Handles Q (k.after c r) (next r)
  | _, .request .close _ => False
  | k, .request (.pause _) next => Handles Q k (next ())
  | k, .request (.await ..) next => ∀ x, Handles Q k (next x)
  | k, .request (.gather ..) next => ∀ x, Handles Q k (next x)
  | k, .request .fetch next => ∀ x, Handles Q k (next x)

/-- What is said of the stock if an operation succeeds. -/
def IfOk (P : Stock → α → Prop) (k : Stock) : Except Error α → Prop
  | .ok a => P k a
  | .error _ => True

/-- A request for an idle call, or for none. -/
def isIdle : Request → Bool
  | .call c => c.isIdle
  | .submit _ c => c.isIdle
  | .close => false
  | _ => true

namespace Handles

variable {Q : Stock → α → Prop} {R : Stock → β → Prop}

theorem pure {a : α} (ha : Q k a) : Handles Q k (Pure.pure a) := ha

theorem bind {x : Program α} {f : α → Program β} (hx : Handles Q k x)
    (hf : ∀ l a, Q l a → Handles R l (f a)) : Handles R k (x >>= f) := by
  induction x generalizing k with
  | done a => exact hf k a hx
  | request r next ih =>
    cases r with
    | call c => exact ⟨hx.1, fun r hr => ih r (hx.2 r hr)⟩
    | submit dc c => exact ⟨hx.1, fun r hr => ih r (hx.2 r hr)⟩
    | pause d => exact ih () hx
    | await w p => exact fun x => ih x (hx x)
    | gather t w keys => exact fun x => ih x (hx x)
    | fetch => exact fun x => ih x (hx x)
    | close => exact hx

theorem mono {Q' : Stock → α → Prop} {x : Program α} (hx : Handles Q k x)
    (hQ : ∀ l a, Q l a → Q' l a) : Handles Q' k x := by
  have hbind := hx.bind (R := Q') (f := done) hQ
  rwa [show x >>= done = x from bind_done x] at hbind

/-- An operation goes on only after a success. -/
theorem run_bind {x : Operation α} {f : α → Operation β} {P : Stock → α → Prop}
    {R : Stock → β → Prop} (hx : Handles (IfOk P) k x.run)
    (hf : ∀ l a, P l a → Handles (IfOk R) l (f a).run) : Handles (IfOk R) k (x >>= f).run := by
  rw [ExceptT.run_bind]
  refine hx.bind fun l r hr => ?_
  cases r with
  | ok a => exact hf l a hr
  | error e => exact .pure trivial

theorem run_lift {x : Program α} (hx : Handles Q k x) :
    Handles (IfOk Q) k (liftM x : Operation α).run :=
  hx.bind fun _ _ ha => .pure ha

/-- What cannot fail is followed by what comes next. -/
theorem lift_bind {x : Program α} {f : α → Operation β} {R : Stock → β → Prop}
    (hx : Handles Q k x) (hf : ∀ l a, Q l a → Handles (IfOk R) l (f a).run) :
    Handles (IfOk R) k ((liftM x : Operation α) >>= f).run :=
  run_bind hx.run_lift hf

theorem of_isIdle {x : Program α} (hx : x.AsksOnly (isIdle · = true)) :
    Handles (fun l _ => l = k) k x := by
  induction x with
  | done a => rfl
  | request r next ih =>
    cases r with
    | call c | submit dc c =>
      refine ⟨Stock.permits_of_isIdle hx.1, fun r _ => ?_⟩
      rw [Stock.after_of_isIdle hx.1]
      exact ih r (hx.2 r)
    | pause d => exact ih () (hx.2 ())
    | await w p => exact fun x => ih x (hx.2 x)
    | gather t w keys => exact fun x => ih x (hx.2 x)
    | fetch => exact fun x => ih x (hx.2 x)
    | close => cases hx.1

end Handles

end Program

end ComputePlane
