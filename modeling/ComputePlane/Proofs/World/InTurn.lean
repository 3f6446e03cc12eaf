import Mathlib.Algebra.Ring.Nat
import ComputePlane.Proofs.Program.Converse
import ComputePlane.Proofs.World.Closed
import ComputePlane.Proofs.World.Entries

/-!
# Listings with many entries in flight, and one entry after the other

A listing gives what looking up its keys one after the other gives, however many entries it has in
flight and however long its reads take (`gather_in_turn`). Its result is what its entries owe, up to
the first failure, and each move keeps that (`Gathering.Owes`).

A listing that does not go on waits for an entry, and that entry is done when it goes on again, so
it goes on no more often than it has entries (`Gathering.Follows`).
-/

namespace ComputePlane

variable {t : Topic} {b b' : Backend} {c : MemoryCloud} {now count : Nat}
  {out : Except Error (List t.Value)}

/-! ## Entries -/

namespace Slot

/-- How many moves an entry takes at most to leave. -/
def effort : Slot t → Nat
  | fresh _ => 3
  | waiting .. => 2
  | settled _ => 1

theorem effort_le (s : Slot t) : s.effort ≤ 3 := by
  cases s with
  | fresh => exact Nat.le_refl 3
  | waiting => exact (by decide : 2 ≤ 3)
  | settled => exact (by decide : 1 ≤ 3)

/-- An entry that is not done. -/
def isOpen : Slot t → Bool
  | settled _ => false
  | _ => true

theorem Step.effort_lt {s s' : Slot t} (h : Step now b s s' b') : s'.effort < s.effort := by
  cases h with
  | begin key =>
    obtain hbegin | ⟨l, -, -, hbegin⟩ := begin_cases t now b key
    · rw [hbegin]
      exact (by decide : 1 < 3)
    · rw [hbegin]
      exact (by decide : 2 < 3)
  | settle => exact (by decide : 1 < 2)

/-- An entry that goes on is done, or it begins to wait. -/
theorem Step.isOpen_cases {s s' : Slot t} (h : Step now b s s' b') :
    s.isOpen = true ∧ (s'.isOpen = false ∨ s'.isOpen = true ∧ s.due? = none) := by
  cases h with
  | begin key =>
    obtain hbegin | ⟨l, -, -, hbegin⟩ := begin_cases t now b key
    · rw [hbegin]
      exact ⟨rfl, .inl rfl⟩
    · rw [hbegin]
      exact ⟨rfl, .inr ⟨rfl, rfl⟩⟩
  | settle => exact ⟨rfl, .inl rfl⟩

end Slot

namespace Gathering

variable {g g' g'' : Gathering t}

/-- All entries, those in flight first. -/
def entries (g : Gathering t) : List (Slot t) := g.slots ++ g.keys.map .fresh

@[simp] theorem entries_fill (g : Gathering t) : g.fill.entries = g.entries := by
  simp only [entries, fill, List.append_assoc, ← List.map_append, List.take_append_drop]

/-- Nothing is in flight only if all entries have left. -/
theorem entries_of_slots_fill (hwidth : 0 < g.width) (h : g.fill.slots = []) : g.entries = [] := by
  obtain ⟨hslots, hkeys⟩ := List.append_eq_nil_iff.mp h
  rw [List.map_eq_nil_iff, hslots, List.length_nil, List.take_eq_nil_iff] at hkeys
  have hnone : g.keys = [] := hkeys.resolve_left (by omega)
  rw [entries, hslots, hnone]
  rfl

/-! ## Progress -/

/-- How many moves a listing takes at most. -/
def effort (g : Gathering t) : Nat := (g.entries.map Slot.effort).sum

/-- How many entries are not done. -/
def unsettled (g : Gathering t) : Nat := g.entries.countP Slot.isOpen

/-- The times at which entries get their answers. -/
def dues (g : Gathering t) : List Nat := g.entries.filterMap Slot.due?

theorem dues_eq (g : Gathering t) : g.dues = g.slots.filterMap Slot.due? := by
  have hkeys : (g.keys.map Slot.fresh).filterMap (Slot.due? (t := t)) = [] := by
    rw [List.filterMap_map, List.filterMap_eq_nil_iff]
    exact fun _ _ => rfl
  rw [dues, entries, List.filterMap_append, hkeys, List.append_nil]

/-- Since `g` some entry was done, or none that waited. -/
def Follows (g g' : Gathering t) : Prop :=
  g'.unsettled < g.unsettled ∨ g'.unsettled = g.unsettled ∧ g.dues.Sublist g'.dues

theorem Follows.of_entries (h : g'.entries = g.entries) : g.Follows g' := by
  rw [Follows, unsettled, unsettled, dues, dues, h]
  exact .inr ⟨rfl, .refl _⟩

theorem Follows.trans (h : g.Follows g') (h' : g'.Follows g'') : g.Follows g'' := by
  rcases h with h | ⟨h, hdues⟩ <;> rcases h' with h' | ⟨h', hdues'⟩
  · exact .inl (Nat.lt_trans h' h)
  · exact .inl (h' ▸ h)
  · exact .inl (h ▸ h')
  · exact .inr ⟨h'.trans h, hdues.trans hdues'⟩

theorem Follows.unsettled_le (h : g.Follows g') : g'.unsettled ≤ g.unsettled :=
  h.elim Nat.le_of_lt fun h => Nat.le_of_eq h.1

/-- The listing waits for an entry, at a time when it cannot go on. -/
structure Waits (now : Nat) (g : Gathering t) : Prop where
  nonempty : g.dues ≠ []
  later : ∀ d ∈ g.dues, now < d

/-- A listing waits if no entry goes on and the first one is not done. -/
theorem waits_of_idle (hidle : ∀ s ∈ g.slots, s.IsIdle now) (hnil : g.slots ≠ [])
    (hopen : ∀ r rest, g.slots ≠ .settled r :: rest) : g.Waits now := by
  constructor
  · rw [dues_eq]
    cases hslots : g.slots with
    | nil => exact absurd hslots hnil
    | cons s rest =>
      have hs := hidle s (hslots ▸ List.mem_cons_self)
      cases s with
      | fresh key => exact hs.elim
      | waiting l p => exact List.cons_ne_nil _ _
      | settled r => exact absurd hslots (hopen r rest)
  · intro d hd
    rw [dues_eq] at hd
    obtain ⟨s, hs, hdue⟩ := List.mem_filterMap.mp hd
    have hs := hidle s hs
    cases s with
    | fresh key => exact hs.elim
    | waiting l p =>
      cases hdue
      exact hs
    | settled r => cases hdue

/-- An entry that was due is done when the listing waits again. -/
theorem Follows.unsettled_lt (h : g.Follows g') (hwaits : g'.Waits now) {d : Nat}
    (hd : d ∈ g.dues) (hdue : d ≤ now) : g'.unsettled < g.unsettled := by
  refine h.resolve_right fun ⟨_, hdues⟩ => ?_
  exact absurd (hwaits.later d (hdues.subset hd)) (Nat.not_lt_of_le hdue)

theorem unsettled_pos {d : Nat} (hd : d ∈ g.dues) : 0 < g.unsettled := by
  obtain ⟨s, hs, hdue⟩ := List.mem_filterMap.mp hd
  refine List.countP_pos_iff.mpr ⟨s, hs, ?_⟩
  cases s with
  | waiting => rfl
  | fresh | settled => cases hdue

/-- The listing goes on when an entry is due. -/
theorem wake_mem_dues (h : g.dues ≠ []) : g.wake ∈ g.dues := by
  rw [wake, ← dues_eq]
  cases hmin : g.dues.min? with
  | none => exact absurd (List.min?_eq_none_iff.mp hmin) h
  | some d => exact List.min?_mem hmin

/-! ## Moves -/

theorem entries_leave {s : Slot t} {rest : List (Slot t)} (hslots : g.slots = s :: rest)
    (found : List t.Value) :
    g.entries = s :: entries { g with slots := rest, found := found } := by
  rw [entries, hslots]
  rfl

/-- One entry has gone on, and the ones before it cannot. -/
theorem exists_step {slots : List (Slot t)} (h : Slot.advance now b g.slots = some (slots, b')) :
    ∃ before s s' after, g.entries = before ++ s :: after ∧
      entries { g with slots := slots } = before ++ s' :: after ∧
      (∀ x ∈ before, x.IsIdle now) ∧ Slot.Step now b s s' b' := by
  obtain ⟨before, s, s', after, hslots, rfl, hidle, hstep⟩ := Slot.advance_eq_some h
  refine ⟨before, s, s', after ++ g.keys.map .fresh, ?_, ?_, hidle, hstep⟩
  · rw [entries, hslots, List.append_assoc, List.cons_append]
  · rw [entries, List.append_assoc, List.cons_append]

/-- What is done takes one move to leave. -/
theorem follows_leave {r : Except Error t.Value} {rest : List (Slot t)}
    (hslots : g.slots = .settled r :: rest) (found : List t.Value) :
    g.Follows { g with slots := rest, found := found } ∧
      effort { g with slots := rest, found := found } < g.effort := by
  have hentries := entries_leave hslots found
  refine ⟨.inr ⟨?_, ?_⟩, ?_⟩
  · rw [unsettled, unsettled, hentries, List.countP_cons_of_neg Bool.false_ne_true]
  · rw [dues, dues, hentries, List.filterMap_cons_none rfl]
  · rw [effort, effort, hentries, List.map_cons, List.sum_cons, Slot.effort]
    exact Nat.lt_add_of_pos_left Nat.one_pos

/-- What goes on takes one move. -/
theorem follows_advance {slots : List (Slot t)}
    (hadv : Slot.advance now b g.slots = some (slots, b')) :
    g.Follows { g with slots := slots } ∧ effort { g with slots := slots } < g.effort := by
  obtain ⟨before, s, s', after, hentries, hentries', -, hstep⟩ := exists_step hadv
  obtain ⟨hopen, hcases⟩ := hstep.isOpen_cases
  refine ⟨?_, ?_⟩
  · rw [Follows, unsettled, unsettled, dues, dues, hentries, hentries', List.countP_append,
      List.countP_append, List.countP_cons_of_pos hopen, List.filterMap_append,
      List.filterMap_append]
    rcases hcases with hdone | ⟨hopen', hdue⟩
    · rw [List.countP_cons_of_neg (Bool.eq_false_iff.mp hdone)]
      exact .inl (Nat.lt_succ_self _)
    · rw [List.countP_cons_of_pos hopen', List.filterMap_cons_none hdue]
      exact .inr ⟨rfl, ((List.sublist_cons_self s' after).filterMap _).append_left _⟩
  · have hless := hstep.effort_lt
    rw [effort, effort, hentries, hentries', List.map_append, List.map_append, List.sum_append,
      List.sum_append, List.map_cons, List.map_cons, List.sum_cons, List.sum_cons]
    omega

/-- There are enough moves each time that a listing goes on. -/
theorem effort_lt (g : Gathering t) : g.effort < 3 * (g.keys.length + g.slots.length) + 1 := by
  have hle : ∀ slots : List (Slot t), (slots.map Slot.effort).sum ≤ 3 * slots.length := by
    intro slots
    induction slots with
    | nil => exact Nat.le_refl _
    | cons s rest ih =>
      have hs := s.effort_le
      rw [List.map_cons, List.sum_cons, List.length_cons]
      omega
  have hentries := hle g.entries
  rw [entries, List.length_append, List.length_map] at hentries
  unfold effort entries
  omega

/-! ## Results -/

/-- The listing is to end with `out`, over a cloud of the content `c`: with the values that have
left and those of its entries, or with the first failure that an entry owes. -/
structure Owes (c : MemoryCloud) (out : Except Error (List t.Value)) (b : Backend)
    (g : Gathering t) : Prop where
  width : 0 < g.width
  content : b.cloud.content = c
  numbered : b.NumbersAtOnce t.callName
  steady : ∀ s ∈ g.entries, s.IsSteady c
  out_eq : ((Slot.owed b g.entries).mapM id).map (g.found ++ ·) = out

namespace Owes

variable {e : Error} {v : t.Value} {rest slots : List (Slot t)}

theorem fill (h : g.Owes c out b) : g.fill.Owes c out b where
  width := h.width
  content := h.content
  numbered := h.numbered
  steady := by rw [entries_fill]; exact h.steady
  out_eq := by rw [entries_fill]; exact h.out_eq

theorem out_of_nil (h : g.Owes c out b) (hslots : g.fill.slots = []) : out = .ok g.found := by
  rw [← h.out_eq, entries_of_slots_fill h.width hslots]
  exact congrArg Except.ok (List.append_nil _)

theorem out_of_error (h : g.Owes c out b) (hslots : g.slots = .settled (.error e) :: rest) :
    out = .error e := by
  rw [← h.out_eq, entries_leave hslots g.found, Slot.owed, List.mapM_cons]
  rfl

theorem leave (h : g.Owes c out b) (hslots : g.slots = .settled (.ok v) :: rest) :
    Owes c out b { g with slots := rest, found := g.found ++ [v] } := by
  have hsteady := h.steady
  have hout := h.out_eq
  rw [entries_leave hslots (g.found ++ [v])] at hsteady hout
  refine ⟨h.width, h.content, h.numbered, (List.forall_mem_cons.mp hsteady).2, ?_⟩
  rw [← hout, Slot.owed, List.mapM_cons]
  cases (Slot.owed b (entries { g with slots := rest, found := g.found ++ [v] })).mapM id with
  | error e => rfl
  | ok vs => exact congrArg Except.ok (List.append_assoc ..)

theorem advance (h : g.Owes c out b) (hadv : Slot.advance now b g.slots = some (slots, b')) :
    Owes c out b' { g with slots := slots } := by
  obtain ⟨before, s, s', after, hentries, hentries', hidle, hstep⟩ := exists_step hadv
  have hsteady := h.steady
  have hout := h.out_eq
  rw [hentries] at hsteady hout
  obtain ⟨hbefore, hafter⟩ := List.forall_mem_append.mp hsteady
  obtain ⟨hs, hrest⟩ := List.forall_mem_cons.mp hafter
  have hread := hstep.onlyRead hs
  have hcontent := hread.content.trans h.content
  have hs' := hstep.isSteady h.numbered
  have howed := hstep.owed_eq h.numbered (h.content ▸ hafter)
  rw [h.content] at hs'
  refine ⟨h.width, hcontent, h.numbered.of_onlyRead hread, ?_, ?_⟩
  · rw [hentries', List.forall_mem_append]
    exact ⟨hbefore, List.forall_mem_cons.mpr ⟨hs', hrest⟩⟩
  · rw [← hout, hentries', Slot.owed_append_congr hidle hbefore h.content hcontent howed]

end Owes

/-- A listing ends with what it owes, or it waits. -/
theorem moves_of_owes (h : g.Owes c out b) (hcount : g.effort < count) :
    (moves now count b g).1 = .inl out ∨
      ∃ g', (moves now count b g).1 = .inr g' ∧ g'.Owes c out (moves now count b g).2 ∧
        g'.Waits now ∧ g.Follows g' := by
  induction count generalizing b g with
  | zero => exact absurd hcount (Nat.not_lt_zero _)
  | succ count ih =>
    have hfill := Follows.of_entries g.entries_fill
    have heffort : g.fill.effort = g.effort := by rw [effort, entries_fill]; rfl
    -- what follows a move is given by the induction hypothesis
    have hnext : ∀ {b' g'}, g'.Owes c out b' → g.fill.Follows g' ∧ g'.effort < g.fill.effort →
        (moves now count b' g').1 = .inl out ∨
          ∃ g'', (moves now count b' g').1 = .inr g'' ∧ g''.Owes c out (moves now count b' g').2 ∧
            g''.Waits now ∧ g.Follows g'' := by
      rintro b' g' howes ⟨hfollows, hless⟩
      refine (ih howes (by omega)).imp_right ?_
      rintro ⟨g'', hresult, howes', hwaits, hfollows'⟩
      exact ⟨g'', hresult, howes', hwaits, hfill.trans (hfollows.trans hfollows')⟩
    rw [moves]
    split
    · next hslots => exact .inl (by rw [h.out_of_nil hslots]; rfl)
    · next e rest hslots => exact .inl (by rw [h.fill.out_of_error hslots])
    · next v rest hslots => exact hnext (h.fill.leave hslots) (follows_leave hslots _)
    · next hnil herror hok =>
      cases hadv : Slot.advance now b g.fill.slots with
      | some r => exact hnext (h.fill.advance hadv) (follows_advance hadv)
      | none =>
        refine .inr ⟨g.fill, rfl, h.fill, ?_, hfill⟩
        refine waits_of_idle (Slot.advance_eq_none hadv) hnil fun r rest hslots => ?_
        cases r with
        | error e => exact herror e rest hslots
        | ok v => exact hok v rest hslots

theorem poll_of_owes (h : g.Owes c out b) (now : Nat) :
    (poll now b g).1 = .inl out ∨
      ∃ g', (poll now b g).1 = .inr g' ∧ g'.Owes c out (poll now b g).2 ∧ g'.Waits now ∧
        g.Follows g' :=
  moves_of_owes h g.effort_lt

end Gathering

/-! ## Whole listings -/

namespace World

variable {w : World} {g : Gathering t} {width : Nat} {keys : List String}

open Gathering

/-- A listing ends with what it owes, if it may go on once for each entry that is not done. -/
theorem drive_of_owes {late : Except Error (List t.Value)} (h : g.Owes c out w.backend)
    (hcount : g.unsettled < count ∨ g.unsettled ≤ count ∧ ∃ d ∈ g.dues, d ≤ w.now) :
    (drive poll wake late count w g).1 = out := by
  induction count generalizing w g with
  | zero =>
    obtain hless | ⟨hle, d, hd, -⟩ := hcount
    · exact absurd hless (Nat.not_lt_zero _)
    · exact absurd (unsettled_pos hd) (Nat.not_lt_of_le hle)
  | succ count ih =>
    have hpoll := poll_of_owes h w.now
    unfold drive
    generalize poll w.now w.backend g = polled at hpoll ⊢
    obtain ⟨result, b⟩ := polled
    obtain rfl | ⟨g', rfl, howes, hwaits, hfollows⟩ := hpoll
    · rfl
    · refine ih howes (.inr ⟨?_, _, wake_mem_dues hwaits.nonempty, Nat.le_max_right ..⟩)
      obtain hless | ⟨hle, d, hd, hdue⟩ := hcount
      · have hle := hfollows.unsettled_le
        omega
      · have hless := hfollows.unsettled_lt hwaits hd hdue
        omega

theorem gather_of_owed (hnumbered : w.backend.NumbersAtOnce t.callName) (hwidth : 0 < width)
    (keys : List String) :
    (w.perform (.gather t width keys)).1 =
      (Slot.owed w.backend (keys.map (.fresh (t := t)))).mapM id := by
  refine drive_of_owes (c := w.backend.cloud.content) ⟨hwidth, rfl, hnumbered, ?_, ?_⟩ (.inl ?_)
  · intro s hs
    obtain ⟨key, -, rfl⟩ := List.mem_map.mp hs
    trivial
  · show Except.map ([] ++ ·) ((Slot.owed w.backend (keys.map .fresh)).mapM id) = _
    cases (Slot.owed w.backend (keys.map (.fresh (t := t)))).mapM id <;> rfl
  · have hle := List.countP_le_length (p := Slot.isOpen) (l := (start t width keys).entries)
    rw [entries, start, List.nil_append, List.length_map] at hle
    exact Nat.lt_succ_of_le hle

/-! ## One key after the other -/

/-- The operation looks up a key of a listing. -/
def IsLookup (t : Topic) (f : String → Program.Operation t.Value) : Prop :=
  ∀ (w : World) (key : String), (w.run (f key).run).1 = (t.ask w.backend w.now key).1 ∧
    (w.run (f key).run).2.backend = (t.ask w.backend w.now key).2

theorem run_mapM {f : String → Program.Operation t.Value} (hf : IsLookup t f) (w : World)
    (keys : List String) :
    (w.run (keys.mapM f).run).1 = (Slot.owed w.backend (keys.map .fresh)).mapM id := by
  induction keys generalizing w with
  | nil => rfl
  | cons key keys ih =>
    obtain ⟨hresult, hbackend⟩ := hf w key
    obtain ⟨hanswer, halike⟩ := Topic.ask_congr (.refl t.callName w.backend) 0 w.now key
    have hsteady : ∀ s ∈ keys.map (Slot.fresh (t := t)), s.IsSteady w.backend.cloud.content := by
      intro s hs
      obtain ⟨key, -, rfl⟩ := List.mem_map.mp hs
      trivial
    rw [List.map_cons, Slot.owed, hanswer, Slot.owed_congr halike hsteady, ← hresult, ← hbackend,
      List.mapM_cons, List.mapM_cons]
    have hrest := ih (w.run (f key).run).2
    generalize hrun : w.run (f key).run = first at hrest ⊢
    obtain ⟨r, w'⟩ := first
    cases r with
    | error e => rw [run_bind_of_error hrun]; rfl
    | ok v =>
      rw [run_bind_of_ok hrun, ← hrest]
      generalize hruns : w'.run (keys.mapM f).run = others
      obtain ⟨rs, w''⟩ := others
      cases rs with
      | error e => rw [run_bind_of_error hruns]; rfl
      | ok vs => rw [run_bind_of_ok hruns]; rfl

/-- A listing gives what looking up its keys one after the other gives. -/
theorem gather_in_turn {f : String → Program.Operation t.Value} (hf : IsLookup t f)
    (hnumbered : w.backend.NumbersAtOnce t.callName) (hwidth : 0 < width) (keys : List String) :
    (w.run (Program.gather t width keys).run).1 = (w.run (keys.mapM f).run).1 := by
  rw [run_mapM hf, ← gather_of_owed hnumbered hwidth]
  rfl

end World

end ComputePlane
