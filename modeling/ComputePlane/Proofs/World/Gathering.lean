import Mathlib.Data.List.Forall2
import ComputePlane.Proofs.World.InTurn

/-!
# Listings that are answered at once

A listing gives the values of its keys in their order, however many entries it has in flight, if the
cloud has a value for each of them (`gather_of_finds`).
-/

namespace ComputePlane

/-- The cloud has the content `c`, in which no call is to fail, and there are no rules in front of
it. -/
structure Backend.Serves (c : MemoryCloud) (b : Backend) : Prop where
  rules : b.rules = []
  content : b.cloud.content = c
  failures : c.failures = []

/-- The value that a cloud has for a key. -/
def Topic.Finds (t : Topic) (c : MemoryCloud) (key : String) (v : t.Value) : Prop :=
  ∃ l, t.lookup key = .ok l ∧ l.read (c.apply l.call).1 = .ok v

variable {t : Topic} {c : MemoryCloud} {b b' : Backend} {key : String} {v : t.Value}
  {keys : List String} {vs : List t.Value}

/-! ## Single keys -/

namespace Backend.Serves

/-- No call fails, so each is answered as the content has it. -/
theorem call_eq (hb : b.Serves c) (call : Call) : (b.cloud.call call).1 = (c.apply call).1 := by
  have hfailures : b.cloud.failures = [] :=
    (congrArg MemoryCloud.failures hb.content).trans hb.failures
  rw [(MemoryCloud.call_of_failures_nil hfailures call).1, hb.content]

theorem numbersAtOnce (hb : b.Serves c) (name : String) : b.NumbersAtOnce name := by
  refine .inr fun r hr => ?_
  rw [hb.rules] at hr
  cases hr

/-- What only reads leaves the content as it is. -/
theorem of_onlyRead (hb : b.Serves c) (h : OnlyRead b b') : b'.Serves c :=
  ⟨h.rules.trans hb.rules, h.content.trans hb.content, hb.failures⟩

end Backend.Serves

/-- Looking up a key gives the value that the cloud has for it. -/
theorem Topic.ask_of_finds (hb : b.Serves c) (hv : t.Finds c key v) (now : Nat) :
    (t.ask b now key).1 = .ok v ∧ (t.ask b now key).2.Serves c := by
  obtain ⟨l, hl, hread⟩ := hv
  have hisRead := lookup_isRead hl
  have hask : b.ask now l.call = (b.arrive now l.call).2.pass l.call :=
    Backend.settle_of_rule_none _ l.call (Backend.rule_arrive hb.rules now l.call)
  have honly : Backend.OnlyRead b (b.ask now l.call).2 :=
    (Backend.onlyRead_arrive b now hisRead).trans (Backend.onlyRead_settle _ _ hisRead)
  simp only [Topic.ask, hl]
  refine ⟨?_, hb.of_onlyRead honly⟩
  rw [hask, ← hread, ← hb.call_eq l.call]
  rfl

theorem Slot.owed_of_finds (hb : b.Serves c) (hvs : List.Forall₂ (t.Finds c) keys vs) :
    owed b (keys.map .fresh) = vs.map .ok := by
  induction hvs generalizing b with
  | nil => rfl
  | cons hv _ ih =>
    obtain ⟨hanswer, hserves⟩ := Topic.ask_of_finds hb hv 0
    rw [List.map_cons, List.map_cons, owed, hanswer, ih hserves]

/-! ## Whole listings -/

namespace World

variable {w : World} {width : Nat}

/-- A listing gives the values of its keys in their order. -/
theorem gather_of_finds (hw : w.backend.Serves c) (hwidth : 0 < width)
    (hvs : List.Forall₂ (t.Finds c) keys vs) :
    (w.perform (.gather t width keys)).1 = .ok vs := by
  rw [gather_of_owed (hw.numbersAtOnce _) hwidth, Slot.owed_of_finds hw hvs, List.mapM_map]
  exact List.mapM_pure.trans (congrArg Except.ok (List.map_id' vs))

theorem serves_perform (hw : w.backend.Serves c) {r : Request} (hr : Program.isRead r = true) :
    (w.perform r).2.backend.Serves c :=
  hw.of_onlyRead (onlyRead_perform hr w).1

end World

end ComputePlane
