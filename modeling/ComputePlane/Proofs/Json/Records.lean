import Mathlib.Tactic.Tauto
import ComputePlane.Json.Decoder

/-!
# Records read from objects

An object gives a record if all members have names, no field is repeated, what is ignored is JSON,
and the record can be made from the values of its fields (`record_object_eq_ok_iff`). The checks
that are made on the way add nothing to that: a value that a record is made from has passed its
check.
-/

namespace ComputePlane.Json

/-- The members of an object. -/
abbrev Members := List (Option String × Json)

namespace Shape

variable {α β : Type}

/-! ## Objects of a record -/

def names (s : Shape α) : List String := s.fields.map (·.1)

/-- The fields that an object gives, in the order of its members. -/
def given (names : List String) (ms : Members) : List String :=
  ms.filterMap fun m => m.1.filter (· ∈ names)

/-- An object that can be a record: all members have names, no field is given twice, and what is
ignored is JSON. -/
structure Admits (names : List String) (ms : Members) : Prop where
  named : ∀ m ∈ ms, m.1.isSome = true
  once : (given names ms).Nodup
  sound : ∀ k v, (some k, v) ∈ ms → k ∉ names → v.sound = true

section
variable {names : List String} {ms : Members} {k : String} {v : Json}

theorem given_eq (names : List String) (ms : Members) :
    given names ms = (ms.map (·.1)).filterMap (·.filter (· ∈ names)) := by
  rw [List.filterMap_map]
  rfl

theorem given_cons_of_mem (h : k ∈ names) :
    given names ((some k, v) :: ms) = k :: given names ms := by
  simp [given, Option.filter, h]

theorem given_cons_of_not_mem (h : k ∉ names) :
    given names ((some k, v) :: ms) = given names ms := by
  simp [given, Option.filter, h]

theorem mem_given : k ∈ given names ms ↔ k ∈ names ∧ ∃ v, (some k, v) ∈ ms := by
  simp only [given, List.mem_filterMap, Option.filter_eq_some_iff, decide_eq_true_eq, Prod.exists]
  constructor
  · rintro ⟨_, v, hmem, rfl, hk⟩
    exact ⟨hk, v, hmem⟩
  · rintro ⟨hk, v, hmem⟩
    exact ⟨some k, v, hmem, rfl, hk⟩

theorem not_admits_cons_none : ¬Admits names ((.none, v) :: ms) :=
  fun h => nomatch h.named _ List.mem_cons_self

theorem admits_cons_of_mem (h : k ∈ names) :
    Admits names ((some k, v) :: ms) ↔ k ∉ given names ms ∧ Admits names ms := by
  constructor
  · intro hms
    have honce := hms.once
    rw [given_cons_of_mem h, List.nodup_cons] at honce
    exact ⟨honce.1, fun m hm => hms.named m (List.mem_cons_of_mem _ hm), honce.2,
      fun k v hm => hms.sound k v (List.mem_cons_of_mem _ hm)⟩
  · rintro ⟨hk, hms⟩
    refine ⟨?_, ?_, ?_⟩
    · simpa using fun m v => hms.named (m, v)
    · rw [given_cons_of_mem h]
      exact List.nodup_cons.mpr ⟨hk, hms.once⟩
    · intro l w hm hl
      rcases List.mem_cons.mp hm with heq | hm
      · cases heq
        exact absurd h hl
      · exact hms.sound l w hm hl

theorem admits_cons_of_not_mem (h : k ∉ names) :
    Admits names ((some k, v) :: ms) ↔ v.sound = true ∧ Admits names ms := by
  constructor
  · intro hms
    have honce := hms.once
    rw [given_cons_of_not_mem h] at honce
    exact ⟨hms.sound k v List.mem_cons_self h, fun m hm => hms.named m (List.mem_cons_of_mem _ hm),
      honce, fun k v hm => hms.sound k v (List.mem_cons_of_mem _ hm)⟩
  · rintro ⟨hv, hms⟩
    refine ⟨?_, ?_, ?_⟩
    · simpa using fun m v => hms.named (m, v)
    · rw [given_cons_of_not_mem h]
      exact hms.once
    · intro l w hm hl
      rcases List.mem_cons.mp hm with heq | hm
      · cases heq
        exact hv
      · exact hms.sound l w hm hl

/-- A field of an object that can be a record has the value of the only member of its name. -/
theorem Admits.look_eq_some (h : Admits names ms) (hk : k ∈ names) :
    look ms k = some v ↔ (some k, v) ∈ ms := by
  induction ms with
  | nil => simp [look]
  | cons m ms ih =>
    obtain ⟨_ | l, w⟩ := m
    · exact absurd h not_admits_cons_none
    by_cases hl : l ∈ names
    · obtain ⟨hnew, hms⟩ := (admits_cons_of_mem hl).mp h
      by_cases hkl : k = l
      · subst hkl
        have hnot : (some k, v) ∉ ms := fun hm => hnew (mem_given.mpr ⟨hk, v, hm⟩)
        simp [look, hnot, eq_comm]
      · rw [List.mem_cons, ← ih hms]
        have hbeq : (k == l) = false := by simpa using hkl
        simp [look, List.lookup_cons, hbeq, hkl]
    · have hkl : k ≠ l := fun hkl => hl (hkl ▸ hk)
      rw [List.mem_cons, ← ih ((admits_cons_of_not_mem hl).mp h).2]
      have hbeq : (k == l) = false := by simpa using hkl
      simp [look, List.lookup_cons, hbeq, hkl]

end

/-! ## Checks -/

theorem check?_eq_none {s : Shape α} {k : String} : s.check? k = .none ↔ k ∉ s.names := by
  simp only [check?, names, List.lookup_eq_none_iff, List.mem_map, not_exists, not_and, bne_iff_ne]
  exact ⟨fun h p hp heq => h p hp heq.symm, fun h p hp heq => h p hp heq.symm⟩

theorem mem_names_of_check? {s : Shape α} {k : String} {check : Json → Except Fault Unit}
    (h : s.check? k = some check) : k ∈ s.names := by
  refine Decidable.byContradiction fun hk => ?_
  cases (check?_eq_none.mpr hk).symm.trans h

theorem mem_fields_of_check? {s : Shape α} {k : String} {check : Json → Except Fault Unit}
    (h : s.check? k = some check) : (k, check) ∈ s.fields := by
  obtain ⟨l₁, l₂, heq, -⟩ := List.lookup_eq_some_iff.mp h
  rw [heq]
  exact List.mem_append_right _ List.mem_cons_self

/-- The checks that the values of an object's fields have to pass. -/
def Passes (s : Shape α) (ms : Members) : Prop :=
  ∀ k v, (some k, v) ∈ ms → ∀ check, s.check? k = some check → check v = .ok ()

theorem passes_cons {s : Shape α} {ms : Members} {k : String} {v : Json} :
    s.Passes ((some k, v) :: ms) ↔
      (∀ check, s.check? k = some check → check v = .ok ()) ∧ s.Passes ms := by
  simp only [Passes, List.mem_cons]
  constructor
  · exact fun h => ⟨h k v (.inl rfl), fun l w hm => h l w (.inr hm)⟩
  · rintro ⟨hv, hms⟩ l w (heq | hm)
    · cases heq
      exact hv
    · exact hms l w hm

/-- The members of an object pass if it can be a record and the fields pass their checks. -/
theorem scan_eq_ok_iff {s : Shape α} {seen : List String} {ms : Members} :
    s.scan seen ms = .ok () ↔
      Admits s.names ms ∧ (∀ k ∈ given s.names ms, k ∉ seen) ∧ s.Passes ms := by
  induction ms generalizing seen with
  | nil => exact iff_of_true rfl ⟨⟨nofun, .nil, nofun⟩, nofun, nofun⟩
  | cons m ms ih =>
    obtain ⟨_ | k, v⟩ := m
    · exact iff_of_false nofun fun h => not_admits_cons_none h.1
    rw [passes_cons]
    unfold scan
    split
    · next hcheck =>
      have hk := check?_eq_none.mp hcheck
      rw [admits_cons_of_not_mem hk, given_cons_of_not_mem hk]
      split
      · next hv => simp [ih, hv, hcheck]
      · next hv => simp [hv]
    · next check hcheck =>
      have hk := mem_names_of_check? hcheck
      rw [admits_cons_of_mem hk, given_cons_of_mem hk]
      split
      · next hseen => simp [hseen]
      · next hseen =>
        cases hv : check v with
        | error e => simp [bind, Except.bind, hcheck, hv]
        | ok _ =>
          have hdisjoint : (∀ l ∈ given s.names ms, l ∉ k :: seen) ↔
              k ∉ given s.names ms ∧ ∀ l ∈ given s.names ms, l ∉ seen := by
            simp only [List.mem_cons, not_or]
            constructor
            · exact fun h => ⟨fun hk => (h k hk).1 rfl, fun l hl => (h l hl).2⟩
            · exact fun h l hl => ⟨fun hlk => h.1 (hlk ▸ hl), h.2 l hl⟩
          simp only [bind, Except.bind]
          rw [ih, hdisjoint]
          simp [hcheck, hv, hseen]
          tauto

/-- A value that the record is made from has passed the check of its field. -/
class Checked (s : Shape α) : Prop where
  check_eq_ok : ∀ {look : String → Option Json} {a : α}, s.byName look = .ok a →
    ∀ {k check}, (k, check) ∈ s.fields → ∀ {v}, look k = some v → check v = .ok ()

theorem checked_field (name : String) (d : Decoder α) (absent cut : Option α) :
    (field name d absent cut).Checked where
  check_eq_ok h k check hmem v hlook := by
    obtain ⟨rfl, rfl⟩ := Prod.mk.inj (List.mem_singleton.mp hmem)
    simp only [field, hlook] at h
    simp only [h]
    rfl

instance (name : String) (d : Decoder α) : (required name d).Checked := checked_field ..

instance (name : String) (d : Decoder α) : (optional name d).Checked := checked_field ..

instance (name : String) (d : Decoder α) (default : α) : (defaulted name d default).Checked :=
  checked_field ..

theorem byName_seq_eq_ok {f : Shape (α → β)} {s : Shape α} {look : String → Option Json} {b : β} :
    (f <*> s).byName look = .ok b ↔
      ∃ g a, f.byName look = .ok g ∧ s.byName look = .ok a ∧ g a = b := by
  change (both f s).byName look = .ok b ↔ _
  unfold both
  dsimp only
  cases f.byName look with
  | error e => simp [bind, Except.bind]
  | ok g => cases s.byName look <;> simp [bind, Except.bind, pure, Except.pure]

instance (f : Shape (α → β)) (s : Shape α) [f.Checked] [s.Checked] : (f <*> s).Checked where
  check_eq_ok h k check hmem v hlook := by
    obtain ⟨g, a, hf, hs, -⟩ := byName_seq_eq_ok.mp h
    rcases List.mem_append.mp hmem with hmem | hmem
    · exact Checked.check_eq_ok hf hmem hlook
    · exact Checked.check_eq_ok hs hmem hlook

instance (a : α) : (pure a : Shape α).Checked where
  check_eq_ok _ _ _ hmem := absurd hmem List.not_mem_nil

instance (g : α → β) (s : Shape α) [s.Checked] : (g <$> s).Checked :=
  inferInstanceAs (pure g <*> s : Shape β).Checked

/-- The objects that a record is read from, and the record. -/
theorem record_object_eq_ok_iff {s : Shape α} [s.Checked] {ms : Members} {a : α} :
    Decoder.record s (.object ms) = .ok a ↔ Admits s.names ms ∧ s.byName (look ms) = .ok a := by
  unfold Decoder.record
  constructor
  · intro h
    cases hscan : s.scan [] ms with
    | error e => simp [hscan, bind, Except.bind] at h
    | ok _ => exact ⟨(scan_eq_ok_iff.mp hscan).1, by simpa [hscan, bind, Except.bind] using h⟩
  · rintro ⟨hadmits, hname⟩
    have hpasses : s.Passes ms := fun k v hmem check hcheck =>
      Checked.check_eq_ok hname (mem_fields_of_check? hcheck)
        ((hadmits.look_eq_some (mem_names_of_check? hcheck)).mpr hmem)
    have hscan : s.scan [] ms = .ok () :=
      scan_eq_ok_iff.mpr ⟨hadmits, fun _ _ => List.not_mem_nil, hpasses⟩
    simpa [hscan, bind, Except.bind] using hname

theorem toOption_record_object {s : Shape α} [s.Checked] {ms : Members} (h : Admits s.names ms) :
    (Decoder.record s (.object ms)).toOption = (s.byName (look ms)).toOption := by
  have hiff {a : α} : Decoder.record s (.object ms) = .ok a ↔ s.byName (look ms) = .ok a :=
    record_object_eq_ok_iff.trans (and_iff_right h)
  cases hr : Decoder.record s (.object ms) with
  | ok a => rw [hiff.mp hr]
  | error e =>
    cases hn : s.byName (look ms) with
    | error e' => rfl
    | ok a => cases hr.symm.trans (hiff.mpr hn)

/-! ## Arrays of a record -/

theorem record_array_eq_ok {s : Shape α} {vs : List Json} {a : α}
    (h : Decoder.record s (.array vs) = .ok a) :
    ∃ rest, s.byPosition vs = .ok (a, rest) ∧ rest.isEmpty = true := by
  unfold Decoder.record at h
  rcases hs : s.byPosition vs with e | ⟨b, rest⟩
  · simp [hs, bind, Except.bind] at h
  · by_cases hrest : rest.isEmpty = true
    · simp only [hs, hrest, bind, Except.bind, pure, Except.pure, if_true, Except.ok.injEq] at h
      exact ⟨rest, h ▸ rfl, hrest⟩
    · simp [hs, hrest, bind, Except.bind, throw, throwThe, MonadExceptOf.throw] at h

theorem toOption_record_array {s : Shape α} {vs rest : List Json} {o : Option α}
    (hrest : rest.isEmpty = true) (h : (s.byPosition vs).toOption = o.map (·, rest)) :
    (Decoder.record s (.array vs)).toOption = o := by
  unfold Decoder.record
  rcases hs : s.byPosition vs with e | ⟨b, rest'⟩
  · rw [hs] at h
    cases o with
    | none => simp [hs, bind, Except.bind, Except.toOption]
    | some a => cases h
  · rw [hs] at h
    cases o with
    | none => cases h
    | some a =>
      cases h
      simp [hs, hrest, bind, Except.bind, pure, Except.pure, Except.toOption]

/-! ## Objects without repeated names -/

theorem look_record (ms : List (String × Json)) (k : String) :
    look (ms.map fun m => (some m.1, m.2)) k = ms.lookup k := by
  induction ms with
  | nil => rfl
  | cons m ms ih =>
    obtain ⟨l, v⟩ := m
    unfold look at ih ⊢
    simp [List.lookup_cons, ih]

theorem admits_record {names : List String} {ms : List (String × Json)}
    (hnames : (ms.map (·.1)).Nodup) (hsound : ∀ m ∈ ms, m.2.sound = true) :
    Admits names (ms.map fun m => (some m.1, m.2)) := by
  induction ms with
  | nil => exact ⟨nofun, .nil, nofun⟩
  | cons m ms ih =>
    obtain ⟨k, v⟩ := m
    obtain ⟨hk, hnames⟩ := List.nodup_cons.mp hnames
    obtain ⟨hv, hsound⟩ := List.forall_mem_cons.mp hsound
    have hms := ih hnames hsound
    rw [List.map_cons]
    by_cases h : k ∈ names
    · refine (admits_cons_of_mem h).mpr ⟨fun hmem => ?_, hms⟩
      obtain ⟨-, w, hw⟩ := mem_given.mp hmem
      obtain ⟨m, hm, heq⟩ := List.mem_map.mp hw
      cases heq
      exact hk (List.mem_map.mpr ⟨m, hm, rfl⟩)
    · exact (admits_cons_of_not_mem h).mpr ⟨hv, hms⟩

/-- A record is read from an object without repeated names if it can be made from the values. -/
theorem record_eq_ok {s : Shape α} [s.Checked] {ms : List (String × Json)} {a : α}
    (hnames : (ms.map (·.1)).Nodup) (hsound : ∀ m ∈ ms, m.2.sound = true)
    (h : s.byName (fun k => ms.lookup k) = .ok a) : Decoder.record s (record ms) = .ok a :=
  record_object_eq_ok_iff.mpr
    ⟨admits_record hnames hsound, (congrArg s.byName (funext (look_record ms))).trans h⟩

section
variable {look : String → Option Json}

theorem byName_seq {f : Shape (α → β)} {s : Shape α} {g : α → β} {a : α}
    (hf : f.byName look = .ok g) (hs : s.byName look = .ok a) :
    (f <*> s).byName look = .ok (g a) :=
  byName_seq_eq_ok.mpr ⟨g, a, hf, hs, rfl⟩

theorem byName_map (g : α → β) {s : Shape α} {a : α} (hs : s.byName look = .ok a) :
    (g <$> s).byName look = .ok (g a) :=
  byName_seq (f := pure g) rfl hs

theorem byName_given {name : String} {d : Decoder α} {absent cut : Option α} {v : Json} {a : α}
    (hlook : look name = some v) (hd : d v = .ok a) :
    (field name d absent cut).byName look = .ok a := by
  simp [field, hlook, hd]

theorem byName_absent {name : String} {d : Decoder α} {absent cut : Option α} {a : α}
    (hlook : look name = .none) (ha : absent = some a) :
    (field name d absent cut).byName look = .ok a := by
  simp [field, hlook, ha, orAbsent]

/-- An optional field has a value if the object has one. -/
theorem byName_optional_map {γ : Type} {name : String} {d : Decoder α} {f : γ → Json} {g : γ → α}
    {o : Option γ} (hlook : look name = o.map f) (hd : ∀ c, d.orNull (f c) = .ok (some (g c))) :
    (optional name d).byName look = .ok (o.map g) := by
  cases o with
  | none => exact byName_absent hlook rfl
  | some c => exact byName_given hlook (hd c)

theorem byName_optional {name : String} {d : Decoder α} {f : α → Json} {o : Option α}
    (hlook : look name = o.map f) (hd : ∀ a, d.orNull (f a) = .ok (some a)) :
    (optional name d).byName look = .ok o := by
  simpa using byName_optional_map (g := fun a => a) hlook hd

end

end Shape

end ComputePlane.Json
