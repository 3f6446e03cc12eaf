import Mathlib.Logic.Function.Basic
import ComputePlane.Proofs.Cloud.Holdings
import ComputePlane.Proofs.Crowd.Turns
import ComputePlane.Proofs.Lifecycle.Custody

/-!
# Creations side by side

Operations that name only what they hold do not disturb each other. However they come between each
other, the cloud has what it had at first and what each of them holds, and all that one of them
holds it has made itself (`Owned`). Each event keeps this (`Owned.step`), and so does each run
(`Run.owned`). Creations end with a whole node or with nothing
(`creations_side_by_side`).
-/

namespace ComputePlane

open Program

/-! ## Holdings side by side -/

namespace Holding

variable {ids : List Nat} {own : Nat → Holding} {i : Nat} {h : Holding}

/-- What is held together. -/
def joined (ids : List Nat) (own : Nat → Holding) : Holding :=
  ⟨ids.flatMap fun i => (own i).volumes, ids.flatMap fun i => (own i).servers,
    ids.flatMap fun i => (own i).ipBlocks⟩

theorem joined_cons (i : Nat) (ids : List Nat) (own : Nat → Holding) :
    joined (i :: ids) own = own i ++ joined ids own := rfl

theorem joined_empty (ids : List Nat) : joined ids (fun _ => {}) = {} := by
  simp [joined]

theorem joined_update (hi : i ∉ ids) : joined ids (Function.update own i h) = joined ids own := by
  have hsame : ∀ j ∈ ids, Function.update own i h j = own j := fun j hj =>
    Function.update_of_ne (fun heq : j = i => hi (heq ▸ hj)) h own
  unfold joined
  congr 1 <;> exact List.flatMap_congr fun j hj => by rw [hsame j hj]

theorem mem_assets_joined {a : Asset} :
    a ∈ (joined ids own).assets ↔ ∃ i ∈ ids, a ∈ (own i).assets := by
  cases a with
  | volume v => simp [joined]
  | server id =>
    simp only [mem_assets_server, joined, List.map_flatMap, List.mem_flatMap]
  | ipBlock b => simp [joined]

theorem consistent_joined (hown : ∀ i, (own i).Consistent) : (joined ids own).Consistent := by
  intro s hs v hv
  obtain ⟨i, hi, hs⟩ := List.mem_flatMap.mp hs
  exact List.mem_flatMap.mpr ⟨i, hi, hown i s hs v hv⟩

end Holding

open Holding (joined)

namespace MemoryCloud

variable {c d : MemoryCloud} {ids : List Nat} {i : Nat}

theorem Holds.joined_perm {ids' : List Nat} {own : Nat → Holding} (H : Holds c (joined ids own) d)
    (h : ids.Perm ids') : Holds c (joined ids' own) d :=
  H.perm (h.flatMap_right fun i => (own i).volumes) (h.flatMap_right fun i => (own i).servers)
    (h.flatMap_right fun i => (own i).ipBlocks)

/-- One of the holdings of a cloud beside the others. -/
theorem holds_joined_update (hids : ids.Nodup) (hi : i ∈ ids) (own : Nat → Holding) (h : Holding) :
    Holds c (joined ids (Function.update own i h)) d ↔
      Holds c (h ++ joined (ids.erase i) own) d := by
  have hperm := List.perm_cons_erase hi
  have hrest : joined (ids.erase i) (Function.update own i h) = joined (ids.erase i) own :=
    Holding.joined_update hids.not_mem_erase
  have hcons : joined (i :: ids.erase i) (Function.update own i h) =
      h ++ joined (ids.erase i) own := by
    rw [Holding.joined_cons, hrest, Function.update_self]
  rw [← hcons]
  exact ⟨fun H => H.joined_perm hperm, fun H => H.joined_perm hperm.symm⟩

end MemoryCloud

/-! ## What an operation keeps to -/

/-- A call that is to fail is none of those that are spared. -/
def Flight.Spares (c : Call) : Flight → Prop
  | made => True
  | begun failure => ∀ e, failure = some e → c.isSpared = false

/-- An operation that holds `h` names only what it holds, and ends with `Q`. -/
def Activity.Keeps {α : Type} (Q : Holding → α → Prop) (h : Holding) : Activity α → Prop
  | going program => program.Keeps Q h
  | calling _ c flight next =>
    flight.Spares c ∧ h.Permits c ∧ ∀ r, h.Possible c r → (next r).Keeps Q (h.after c r)
  | queued _ c next => h.Permits c ∧ ∀ r, h.Possible c r → (next r).Keeps Q (h.after c r)
  | closing .. => False

namespace Interplay

/-- A wait changes nothing that is held. -/
theorem keeps_of_isPoll {α : Type} {Q : Holding → α → Prop} {h : Holding} {r : Request}
    {next : r.Response → Program α} (hkeeps : (request r next).Keeps Q h) (hr : isPoll r = true)
    (x : r.Response) : (next x).Keeps Q h := by
  cases r with
  | pause d => exact hkeeps
  | await w p => exact hkeeps x
  | gather t width keys => exact hkeeps x
  | fetch => exact hkeeps x
  | call | submit | close => cases hr

/-! ## What is made, and by whom -/

namespace Event

/-- The call that an event is about, and whose it is. -/
def call? : Event → Option (Nat × Call)
  | make i _ c => some (i, c)
  | accept i _ c => some (i, c)
  | refuse i _ c => some (i, c)
  | reach i c => some (i, c)
  | answer i c _ _ => some (i, c)
  | probe i c => some (i, c)
  | _ => none

/-- What was made by an answered call, and whose it is. -/
def made? : Event → Option (Nat × Asset)
  | answer i c _ result => (c.made? result).map (i, ·)
  | _ => none

end Event

/-- An asset was made by an operation. -/
def MadeBy (es : List Event) (i : Nat) (a : Asset) : Prop :=
  ∃ e ∈ es, e.made? = some (i, a)

variable {α : Type} {s s' w : Interplay α} {e : Event} {es : List Event} {i j : Nat}
  {a b : Activity α} {x y : Asset}

theorem madeBy_snoc : MadeBy (es ++ [e]) i x ↔ MadeBy es i x ∨ e.made? = some (i, x) := by
  simp [MadeBy, or_and_right, exists_or]

theorem MadeBy.mono {fs : List Event} (h : MadeBy es i x) : MadeBy (es ++ fs) i x := by
  obtain ⟨e, he, hx⟩ := h
  exact ⟨e, List.mem_append_left _ he, hx⟩

/-- Whatever was made has an id that was issued since, and one operation has made it. -/
structure Credited (c : MemoryCloud) (es : List Event) (d : MemoryCloud) : Prop where
  issued : ∀ i x, MadeBy es i x → d.HasIssuedAsset x ∧ ¬c.HasIssuedAsset x
  unique : ∀ i j x, MadeBy es i x → MadeBy es j x → i = j

theorem Credited.quiet {c d d' : MemoryCloud} (k : Credited c es d) (he : e.made? = none)
    (hle : d.issued ≤ d'.issued) : Credited c (es ++ [e]) d' := by
  have hmade : ∀ {i x}, MadeBy (es ++ [e]) i x ↔ MadeBy es i x := by simp [madeBy_snoc, he]
  refine ⟨fun i x hx => ?_, fun i j x hi hj => k.unique i j x (hmade.mp hi) (hmade.mp hj)⟩
  obtain ⟨hnew, hold⟩ := k.issued i x (hmade.mp hx)
  exact ⟨hnew.mono hle, hold⟩

/-- What is new has an id that was not issued before, and so it is nobody else's. -/
theorem Credited.answer {c d : MemoryCloud} (k : Credited c es d) (hcd : c.issued ≤ d.issued)
    (i : Nat) {call : Call} {failure : Option Error} {r : call.Result}
    (hr : (d.finish call failure).1 = r) (told : Option call.Result) :
    Credited c (es ++ [.answer i call told r]) (d.finish call failure).2 := by
  have hmade : ∀ {j x}, MadeBy (es ++ [.answer i call told r]) j x →
      MadeBy es j x ∨ j = i ∧ call.made? r = some x := by
    intro j x hx
    refine (madeBy_snoc.mp hx).imp_right fun hx => ?_
    obtain ⟨y, hy, heq⟩ := Option.map_eq_some_iff.mp hx
    cases heq
    exact ⟨rfl, hy⟩
  have hnew : ∀ x, call.made? r = some x →
      ¬d.HasIssuedAsset x ∧ (d.finish call failure).2.HasIssuedAsset x := by
    subst hr
    exact fun x hx => MemoryCloud.hasIssuedAsset_of_finish hx
  refine ⟨fun j x hx => ?issued, fun j l x hj hl => ?unique⟩
  case issued =>
    rcases hmade hx with hbefore | ⟨-, hmakes⟩
    · obtain ⟨hissued, hold⟩ := k.issued j x hbefore
      exact ⟨hissued.mono (d.issued_le_finish call failure), hold⟩
    · obtain ⟨hbefore, hafter⟩ := hnew x hmakes
      exact ⟨hafter, fun hold => hbefore (hold.mono hcd)⟩
  case unique =>
    rcases hmade hj with hj' | ⟨hji, hx⟩ <;> rcases hmade hl with hl' | ⟨hli, hx'⟩
    · exact k.unique j l x hj' hl'
    · exact absurd (k.issued j x hj').1 (hnew x hx').1
    · exact absurd (k.issued l x hl').1 (hnew x hx).1
    · exact hji.trans hli.symm

/-! ## The invariant -/

/-- The cloud has what `c` had and what each operation holds. Each of them keeps to its own. -/
structure Owned (c : MemoryCloud) (Q : Nat → Holding → α → Prop) (es : List Event)
    (own : Nat → Holding) (s : Interplay α) : Prop where
  keeps : ∀ i (a : Activity α), s.activities[i]? = some a → a.Keeps (Q i) (own i)
  consistent : ∀ i, (own i).Consistent
  holds : c.Holds (joined (List.range s.activities.length) own) s.cloud
  setup : s.cloud.setup = c.setup
  isOpen : s.queue.closed = false
  isCrashed : ∀ dc, s.queue.isCrashed dc = false
  made : ∀ i, ∀ x ∈ (own i).assets, MadeBy es i x
  credited : Credited c es s.cloud

variable {c : MemoryCloud} {Q : Nat → Holding → α → Prop} {own : Nat → Holding}

theorem length_put (h : s'.activities = (s.put i a).activities) :
    s'.activities.length = s.activities.length := by
  rw [h]
  exact List.length_set

/-- Nothing has come or gone. -/
theorem Owned.put (o : Owned c Q es own s) (h : s.activities[i]? = some b)
    (hs : s'.activities = (s.put i a).activities) (ha : a.Keeps (Q i) (own i))
    (hcloud : s'.cloud.content = s.cloud.content) (hopen : s'.queue.closed = s.queue.closed)
    (hcrashed : ∀ dc, s'.queue.isCrashed dc = s.queue.isCrashed dc) (he : e.made? = none) :
    Owned c Q (es ++ [e]) own s' := by
  have hissued : s.cloud.content.issued = s'.cloud.content.issued := by rw [hcloud]
  refine ⟨?keeps, o.consistent, ?holds, ?setup, hopen.trans o.isOpen,
    fun dc => (hcrashed dc).trans (o.isCrashed dc), fun i x hx => (o.made i x hx).mono,
    o.credited.quiet he (Nat.le_of_eq hissued)⟩
  case keeps =>
    intro j b hj
    rw [hs] at hj
    exact forall_put (P := fun j b => b.Keeps (Q j) (own j)) h o.keeps ha j b hj
  case holds =>
    rw [length_put hs, ← MemoryCloud.Holds.content_iff, hcloud, MemoryCloud.Holds.content_iff]
    exact o.holds
  case setup =>
    rw [← MemoryCloud.setup_content, hcloud]
    exact o.setup

/-- A call is answered as the cloud tells. -/
theorem Owned.answer (hc : c.Dependable) (o : Owned c Q es own s) {via : Option String}
    {call : Call} {failure : Option Error} {next : call.Result → Program α}
    (h : s.activities[i]? = some (.calling via call (.begun failure) next)) {r : call.Result}
    (hr : (s.cloud.finish call failure).1 = r) (told : Option call.Result) :
    Owned c Q (es ++ [.answer i call told r]) (Function.update own i ((own i).after call r))
      { s.put i (.going (next r)) with
        queue := via.elim s.queue s.queue.finish
        cloud := (s.cloud.finish call failure).2 } := by
  obtain ⟨hspares, hpermits, hnext⟩ := o.keeps i _ h
  have hi : i ∈ List.range s.activities.length :=
    List.mem_range.mpr (List.getElem?_eq_some_iff.mp h).1
  -- what the operation holds, beside what all others hold
  have H : c.Holds (own i ++ joined ((List.range s.activities.length).erase i) own) s.cloud := by
    rw [← MemoryCloud.holds_joined_update List.nodup_range hi, Function.update_eq_self]
    exact o.holds
  obtain ⟨hpossible, H'⟩ := H.finish hc (o.consistent i)
    (Holding.consistent_joined o.consistent) hpermits hspares
  rw [hr] at H' hpossible
  refine ⟨?keeps, ?consistent, ?holds, (MemoryCloud.setup_finish ..).trans o.setup, ?isOpen,
    ?isCrashed, ?made, o.credited.answer o.holds.issued_le i hr told⟩
  case keeps =>
    intro j b hj
    rw [show _ = (s.put i (.going (next r))).activities[j]? from rfl, getElem?_put h] at hj
    split at hj
    · next hij =>
      obtain rfl : .going (next r) = b := Option.some.inj hj
      rw [← hij, Function.update_self]
      exact hnext r hpossible
    · next hij =>
      rw [Function.update_of_ne (Ne.symm hij)]
      exact o.keeps j b hj
  case consistent =>
    intro j
    by_cases hj : j = i
    · subst hj
      rw [Function.update_self]
      exact (o.consistent j).after hpermits r
    · rw [Function.update_of_ne hj]
      exact o.consistent j
  case holds =>
    rw [length_put rfl, MemoryCloud.holds_joined_update List.nodup_range hi]
    exact H'
  case isOpen => cases via <;> simp [o.isOpen]
  case isCrashed =>
    intro dc
    cases via <;> simp [o.isCrashed]
  case made =>
    intro j x hx
    by_cases hj : j = i
    · subst hj
      rw [Function.update_self] at hx
      rcases Holding.mem_assets_after hx with hx | hx
      · exact (o.made j x hx).mono
      · exact madeBy_snoc.mpr (.inr (by simp [Event.made?, hx]))
    · rw [Function.update_of_ne hj] at hx
      exact (o.made j x hx).mono

theorem Owned.step (hc : c.Dependable) (o : Owned c Q es own s) (hs : Step s e s')
    (he : e.IsFaithful) : ∃ own', Owned c Q (es ++ [e]) own' s' := by
  cases hs with
  | call h => exact ⟨own, o.put h rfl ⟨trivial, o.keeps _ _ h⟩ rfl rfl (fun _ => rfl) rfl⟩
  | accept h hq =>
    have ha := o.keeps _ _ h
    exact ⟨own, o.put h rfl ha rfl (JobQueue.closed_enqueue hq)
      (JobQueue.isCrashed_enqueue hq) rfl⟩
  | refuse h hq =>
    rcases (JobQueue.enqueue_error hq).2 with hclosed | hcrashed
    · rw [o.isOpen] at hclosed
      cases hclosed
    · rw [o.isCrashed] at hcrashed
      cases hcrashed
  | start h hq =>
    exact ⟨own, o.put h rfl ⟨trivial, o.keeps _ _ h⟩ rfl (JobQueue.closed_start hq)
      (JobQueue.isCrashed_start hq) rfl⟩
  | @reach i via call next h =>
    obtain ⟨-, hkeeps⟩ := o.keeps _ _ h
    exact ⟨own, o.put h rfl ⟨fun e he => hc.spares_begin o.setup he, hkeeps⟩
      (s.cloud.begin_content call) rfl (fun _ => rfl) rfl⟩
  | @answer i via call flight next r h =>
    cases flight with
    | made => cases he
    | begun failure => exact ⟨_, o.answer hc h (Option.some.inj he) _⟩
  | @probe i r next call h hr hread =>
    have hcloud := (s.cloud.answers_call call).eq_of_read hread
    have hsame : s.activities = (s.put i (.going (.request r next))).activities :=
      congrArg activities (put_of_get h).symm
    exact ⟨own, o.put h hsame (o.keeps _ _ h) hcloud rfl (fun _ => rfl) rfl⟩
  | @wake i r next x h hr =>
    exact ⟨own, o.put h rfl (keeps_of_isPoll (o.keeps _ _ h) hr x) rfl rfl (fun _ => rfl) rfl⟩
  | close h hq => exact (o.keeps _ _ h).elim
  | closeAgain h hq => exact (o.keeps _ _ h).elim
  | closeReturns h hq => exact (o.keeps _ _ h).elim

theorem Run.length_activities (h : Run w es s) : s.activities.length = w.activities.length := by
  induction h with
  | nil => rfl
  | snoc h hs ih =>
    rw [← ih]
    cases hs <;> first | rfl | exact List.length_set

/-- Whatever an event is about names only what its operation holds. -/
theorem Owned.permits (o : Owned c Q es own s) (hs : Step s e s') {call : Call}
    (he : e.call? = some (i, call)) : (own i).Permits call := by
  cases hs with
  | call h =>
    cases he
    exact (o.keeps _ _ h).1
  | accept h hq =>
    cases he
    exact (o.keeps _ _ h).1
  | refuse h hq =>
    cases he
    exact (o.keeps _ _ h).1
  | start h hq =>
    cases he
    exact (o.keeps _ _ h).1
  | reach h =>
    cases he
    exact (o.keeps _ _ h).2.1
  | answer r h =>
    cases he
    exact (o.keeps _ _ h).2.1
  | probe h hr hread =>
    cases he
    intro x hx
    rw [Call.uses_of_read hread] at hx
    cases hx
  | wake | close | closeAgain | closeReturns => cases he

/-- What keeps to its own at first does so in every run. -/
theorem Run.owned (hc : c.Dependable) (o : Owned c Q [] own w) (h : Run w es s)
    (hfaithful : ∀ e ∈ es, e.IsFaithful) :
    (∃ own', Owned c Q es own' s) ∧
      ∀ e ∈ es, ∀ i call, e.call? = some (i, call) → ∀ x ∈ call.uses, MadeBy es i x := by
  induction h with
  | nil => exact ⟨⟨own, o⟩, fun e he => nomatch he⟩
  | @snoc es s e s' h hs ih =>
    obtain ⟨⟨own', o'⟩, hused⟩ := ih fun e he => hfaithful e (List.mem_append_left _ he)
    refine ⟨o'.step hc hs (hfaithful e (by simp)), fun f hf i call hcall x hx => ?_⟩
    rcases List.mem_append.mp hf with hf | hf
    · exact (hused f hf i call hcall x hx).mono
    · obtain rfl := List.mem_singleton.mp hf
      exact (o'.made i x (o'.permits hs hcall x hx)).mono

/-- Operations that have yet to begin hold nothing. -/
theorem owned_start {queue : JobQueue Nat} (hidle : queue.IsIdle) (hopen : queue.closed = false)
    {programs : List (Program α)}
    (h : ∀ i (program : Program α), programs[i]? = some program → program.Keeps (Q i) {}) :
    Owned c Q [] (fun _ => {}) (start queue c programs) where
  keeps i a ha := by
    unfold start at ha
    rw [List.getElem?_map] at ha
    obtain ⟨program, hi, rfl⟩ := Option.map_eq_some_iff.mp ha
    exact h i program hi
  consistent _ _ hs := nomatch hs
  holds := by
    rw [Holding.joined_empty]
    exact .refl c
  setup := rfl
  isOpen := hopen
  isCrashed := hidle.isCrashed
  made _ x hx := by cases x <;> simp at hx
  credited := ⟨fun _ _ hx => by simp [MadeBy] at hx, fun _ _ _ hx => by simp [MadeBy] at hx⟩

/-- What is there in the end was there at first, or it is held by the one who made it. -/
theorem Owned.hasAsset (o : Owned c Q es own s) (h : s.cloud.HasAsset x) :
    c.HasAsset x ∨ ∃ i, x ∈ (own i).assets := by
  refine (o.holds.hasAsset_iff.mp h).imp_right fun hx => ?_
  obtain ⟨i, -, hi⟩ := Holding.mem_assets_joined.mp hx
  exact ⟨i, hi⟩

theorem Owned.not_hasAsset (hc : c.IdsIssued) (o : Owned c Q es own s) (h : MadeBy es i x) :
    ¬c.HasAsset x :=
  fun hx => (o.credited.issued i x h).2 (hc.hasIssuedAsset hx)

end Interplay

/-! ## Creations -/

namespace Lifecycle

/-- A creation of a node with the settings of its adapter, the name that it is to give and what it
draws for passwords. -/
structure Creation where
  settings : AdapterSettings
  name : String
  template : Template
  draws : Draws

def Creation.program (x : Creation) : Program (Except Error Created) :=
  (create x.settings x.name x.template x.draws).run

/-- What a creation holds in the end: the node that it has created, or nothing if it has failed. -/
def Creation.Leaves (x : Creation) (h : Holding) (r : Except Error Created) : Prop :=
  OrNothing (CreatesNode x.template.datacenter) h r

end Lifecycle

namespace Interplay

open Lifecycle (Created Creation Template)

variable {s : Interplay (Except Error Created)} {es : List Event}

/-- Creations do not disturb each other, however they come between each other and whichever of their
changes fail. Once all of them have returned, the volumes, the servers and the blocks of addresses
are those that were there at first and, for each creation that gave a node, the server of this node,
the volumes that it lists and one block of addresses. Nothing is left that was made by a creation
that failed. At all times a creation attaches, deletes and changes only what it has made itself,
which no other one has made and which was not there at first. -/
theorem creations_side_by_side {cloud : MemoryCloud} (hcloud : cloud.Dependable)
    {queue : JobQueue Nat} (hidle : queue.IsIdle) (hopen : queue.closed = false)
    {creations : List Creation}
    (hdc : ∀ x ∈ creations, x.template.datacenter ∈ cloud.datacenters.map (·.1))
    (h : Run (start queue cloud (creations.map (·.program))) es s)
    (hfaithful : ∀ e ∈ es, e.IsFaithful) :
    ((∀ i < creations.length, (s.result? i).isSome) →
      (∃ own : Nat → Holding,
        cloud.Holds (joined (List.range creations.length) own) s.cloud ∧
          ∀ i x, creations[i]? = some x → ∃ r, s.result? i = some r ∧ x.Leaves (own i) r) ∧
        ∀ i e, s.result? i = some (.error e) → ∀ a, MadeBy es i a → ¬s.cloud.HasAsset a) ∧
      ∀ e ∈ es, ∀ i call, e.call? = some (i, call) → ∀ a ∈ call.uses,
        MadeBy es i a ∧ ¬cloud.HasAsset a ∧ ∀ j, MadeBy es j a → j = i := by
  -- what the creation of a number is to end with
  let Q (i : Nat) (h : Holding) (r : Except Error Created) : Prop :=
    ∀ x, creations[i]? = some x → x.Leaves h r
  have hstart : Owned cloud Q [] (fun _ => {}) (start queue cloud (creations.map (·.program))) := by
    refine owned_start hidle hopen fun i program hi => ?_
    rw [List.getElem?_map] at hi
    obtain ⟨x, hx, rfl⟩ := Option.map_eq_some_iff.mp hi
    have hplain := hcloud.reachable.datacenter_isPlain (hdc x (List.mem_of_getElem? hx))
    refine (Lifecycle.create_keeps _ _ _ hplain _).mono fun k r hk y hy => ?_
    obtain rfl : x = y := Option.some.inj (hx.symm.trans hy)
    exact hk
  obtain ⟨⟨own, o⟩, hused⟩ := h.owned hcloud hstart hfaithful
  have hids := hcloud.reachable.idsIssued
  have hlength : s.activities.length = creations.length := by
    rw [h.length_activities]
    simp [start]
  refine ⟨fun hdone => ⟨⟨own, ?held, ?leaves⟩, ?gone⟩, ?used⟩
  case held =>
    rw [← hlength]
    exact o.holds
  case leaves =>
    intro i x hx
    obtain ⟨hi, -⟩ := List.getElem?_eq_some_iff.mp hx
    obtain ⟨r, hr⟩ := Option.isSome_iff_exists.mp (hdone i hi)
    exact ⟨r, hr, o.keeps i _ (result?_eq_some.mp hr) x hx⟩
  case gone =>
    intro i e hi a ha hthere
    have hi := result?_eq_some.mp hi
    obtain ⟨hlt, -⟩ := List.getElem?_eq_some_iff.mp hi
    have hempty : own i = {} := o.keeps i _ hi creations[i] (by simp)
    -- what is there is held by the one who made it, and that one holds nothing
    rcases o.hasAsset hthere with hold | ⟨j, hj⟩
    · exact o.not_hasAsset hids ha hold
    · obtain rfl := o.credited.unique j i a (o.made j a hj) ha
      rw [hempty] at hj
      cases a <;> simp at hj
  case used =>
    intro e he i call hcall a ha
    have hmade := hused e he i call hcall a ha
    exact ⟨hmade, o.not_hasAsset hids hmade, fun j hj => o.credited.unique j i a hj hmade⟩

/-- Of two creations in one datacenter that go on in turn, event by event, the second one fails and
is rolled back while the first one goes on. -/
theorem creations_side_by_side_one_fails :
    let cloud : MemoryCloud :=
      { (({} : MemoryCloud).addDatacenter "de/fra").2 with failures := [("create_nic", 2)] }
    let template : Template :=
      { datacenter := "dc-1", image := "img-1", password := some "secret"
        hardware := ⟨1, 1024, [10, 20]⟩ }
    let creations : List Creation := ["a", "b"].map fun name => ⟨{}, name, template, fun _ => 0⟩
    ∃ es s, Run (start .empty cloud (creations.map (·.program))) es s ∧
      (s.result? 0).map Except.isOk = some true ∧ (s.result? 1).map Except.isOk = some false ∧
      s.cloud.servers.map (·.listing) = [(⟨"dc-1", "srv-6"⟩, ["vol-2", "vol-4"])] ∧
      (∃ own, cloud.Holds (joined [0, 1] own) s.cloud ∧ own 1 = {}) ∧
      ∀ e ∈ es, ∀ i call, e.call? = some (i, call) → ∀ a ∈ call.uses, MadeBy es i a := by
  intro cloud template creations
  have hreachable : cloud.Reachable := .seed (.seed .empty (.datacenter "de/fra")) (.failure _ _)
  have hcloud : cloud.Dependable := by
    refine ⟨hreachable, fun s hs => (nomatch hs), rfl, fun call hcall n hmem => ?_⟩
    have hname : call.name = "create_nic" := congrArg Prod.fst (List.mem_singleton.mp hmem)
    cases call <;> first | exact absurd hcall Bool.false_ne_true | simp [Call.name] at hname
  have hdc : ∀ x ∈ creations, x.template.datacenter ∈ cloud.datacenters.map (·.1) := by decide
  let s := (start .empty cloud (creations.map (·.program))).turns ((List.range 120).map (· % 2))
  obtain ⟨es, hrun, hfaithful⟩ : ∃ es, Run _ es s ∧ ∀ e ∈ es, e.IsFaithful := exists_run_turns _ _
  have hfailed : (s.result? 1).map Except.isOk = some false := by decide +kernel
  have hdone : ∀ i < creations.length, (s.result? i).isSome := by decide +kernel
  obtain ⟨hend, hused⟩ := creations_side_by_side hcloud JobQueue.isIdle_empty rfl hdc hrun hfaithful
  obtain ⟨⟨own, hheld, hleaves⟩, -⟩ := hend hdone
  refine ⟨es, s, hrun, by decide +kernel, hfailed, by decide +kernel, ⟨own, hheld, ?_⟩,
    fun e he i call hcall a ha => (hused e he i call hcall a ha).1⟩
  obtain ⟨r, hr, hleft⟩ := hleaves 1 _ rfl
  rw [hr] at hfailed
  cases r with
  | ok created => exact absurd (Option.some.inj hfailed) (by simp [Except.isOk, Except.toBool])
  | error e => exact hleft

end Interplay

end ComputePlane
