import Mathlib.Data.List.Forall2
import ComputePlane.Hardware
import ComputePlane.Proofs.Number.Digits
import ComputePlane.Proofs.Text.Cutting
import ComputePlane.Proofs.Text.Trimming

/-!
# Ids of hardware read back

Each part of an id gives one quantity its size (`take?_eq`), so parts with different keys can be
taken up in any order (`foldlM_take?_perm`), and blank characters around a part are not seen. The id
of a shape has one part for each quantity, and these give it back with its volumes joined in one
(`ids_read_back`).
-/

namespace ComputePlane.Hardware

open Number Text

/-! ## Parts -/

/-- What a part of an id gives the size of. -/
inductive Quantity where
  | cores
  | ramMb
  | diskGb
  deriving DecidableEq

namespace Quantity

def key : Quantity → String
  | cores => "cpu"
  | ramMb => "ram"
  | diskGb => "disk"

def ofKey? (key : String) : Option Quantity :=
  [cores, ramMb, diskGb].find? (·.key = key)

theorem ofKey?_eq_some {k : String} {q : Quantity} (h : ofKey? k = some q) : k = q.key := by
  unfold ofKey? at h
  have hkey := List.find?_some h
  exact (of_decide_eq_true hkey).symm

theorem ofKey?_key (q : Quantity) : ofKey? q.key = some q := by
  cases q <;> rfl

end Quantity

/-- The sizes with that of one quantity set. -/
def Sizes.put (s : Sizes) (n : Nat) : Quantity → Sizes
  | .cores => { s with cores := some n }
  | .ramMb => { s with ramMb := some n }
  | .diskGb => { s with diskGb := some n }

def keyOf? (part : String) : Option String :=
  (cut '=' (trim part)).map (·.1)

/-- What a part assigns: a quantity and its size. -/
def assigned? (part : String) : Option (Quantity × Nat) := do
  let (key, value) ← cut '=' (trim part)
  let n ← size? value
  let q ← Quantity.ofKey? key
  return (q, n)

variable {s s' : Sizes} {part : String} {parts parts' : List String} {q q' : Quantity} {n n' : Nat}

/-- Taking a part up sets its quantity. -/
theorem take?_eq (s : Sizes) (part : String) :
    s.take? part = (assigned? part).map fun e => s.put e.2 e.1 := by
  unfold Sizes.take? assigned?
  rcases cut '=' (trim part) with _ | ⟨key, value⟩
  · rfl
  · cases hsize : size? value with
    | none => simp [hsize]
    | some n =>
      simp only [Option.bind_eq_bind, Option.bind_some, hsize]
      split
      · rfl
      · rfl
      · rfl
      · next hcpu hram hdisk =>
        have hnone : Quantity.ofKey? key = none := by
          cases h : Quantity.ofKey? key with
          | none => rfl
          | some q =>
            have hkey := Quantity.ofKey?_eq_some h
            cases q
            · exact absurd hkey hcpu
            · exact absurd hkey hram
            · exact absurd hkey hdisk
        rw [hnone]
        rfl

theorem exists_of_assigned? (h : assigned? part = some (q, n)) :
    ∃ value, cut '=' (trim part) = some (q.key, value) ∧ size? value = some n := by
  unfold assigned? at h
  obtain ⟨⟨key, value⟩, hcut, h⟩ := Option.bind_eq_some_iff.mp h
  obtain ⟨m, hsize, h⟩ := Option.bind_eq_some_iff.mp h
  obtain ⟨r, hr, h⟩ := Option.bind_eq_some_iff.mp h
  cases h
  exact ⟨value, Quantity.ofKey?_eq_some hr ▸ hcut, hsize⟩

theorem keyOf?_of_assigned? (h : assigned? part = some (q, n)) : keyOf? part = some q.key := by
  obtain ⟨value, hcut, -⟩ := exists_of_assigned? h
  rw [keyOf?, hcut]
  rfl

theorem size?_lt {value : String} (h : size? value = some n) : n < twoTo 32 := by
  unfold size? at h
  split at h
  · next m hword =>
    cases h
    exact of_decide_eq_true (Option.filter_eq_some_iff.mp hword).2
  · obtain ⟨x, -, hx⟩ := Option.bind_eq_some_iff.mp h
    have hle : n ≤ twoTo 32 - 1 := by
      unfold Binary.exactNat? at hx
      split at hx
      · next neg c e =>
        dsimp only at hx
        split_ifs at hx with hexact
        cases hx
        exact hexact.2.1
      · cases hx
      · cases hx
    exact Nat.lt_of_le_pred (by decide) hle

/-! ## Order and padding -/

theorem put_comm (h : q ≠ q') : (s.put n q).put n' q' = (s.put n' q').put n q := by
  cases q <;> cases q' <;> first | rfl | exact absurd rfl h

/-- Parts with different keys are taken up in either order. -/
theorem take?_comm {part' : String} (h : keyOf? part ≠ keyOf? part') (s : Sizes) :
    (s.take? part).bind (·.take? part') = (s.take? part').bind (·.take? part) := by
  simp only [take?_eq]
  cases hp : assigned? part with
  | none => simp
  | some e =>
    cases hp' : assigned? part' with
    | none => simp
    | some e' =>
      have hne : e.1 ≠ e'.1 := fun heq => h (by
        rw [keyOf?_of_assigned? hp, keyOf?_of_assigned? hp', heq])
      simp [put_comm hne]

/-- The order of the parts makes no difference if no key is repeated. -/
theorem foldlM_take?_perm (h : parts.Perm parts') (hkeys : (parts.map keyOf?).Nodup) (s : Sizes) :
    parts.foldlM Sizes.take? s = parts'.foldlM Sizes.take? s := by
  induction h generalizing s with
  | nil => rfl
  | cons part _ ih =>
    rw [List.map_cons, List.nodup_cons] at hkeys
    simp only [List.foldlM_cons]
    exact congrArg _ (funext fun s => ih hkeys.2 s)
  | swap part part' rest =>
    rw [List.map_cons, List.nodup_cons] at hkeys
    have hne : keyOf? part' ≠ keyOf? part := fun heq =>
      hkeys.1 (List.mem_map.mpr ⟨part, List.mem_cons_self, heq.symm⟩)
    simp only [List.foldlM_cons, Option.bind_eq_bind]
    rw [← Option.bind_assoc, take?_comm hne s, Option.bind_assoc]
  | trans hfirst _ ih ih' =>
    exact (ih hkeys s).trans (ih' ((hfirst.map keyOf?).nodup_iff.mp hkeys) s)

/-- Blank characters around the parts make no difference. -/
theorem foldlM_take?_padded (h : List.Forall₂ IsPadded parts parts') (s : Sizes) :
    parts'.foldlM Sizes.take? s = parts.foldlM Sizes.take? s := by
  induction h generalizing s with
  | nil => rfl
  | @cons part part' _ _ hpart _ ih =>
    have htake : s.take? part' = s.take? part := by
      unfold Sizes.take?
      rw [trim_padded hpart]
    simp only [List.foldlM_cons, htake]
    exact congrArg _ (funext fun s => ih s)

theorem comma_not_mem_padded (h : List.Forall₂ IsPadded parts parts')
    (hparts : ∀ part ∈ parts, ',' ∉ part.toList) : ∀ part ∈ parts', ',' ∉ part.toList := by
  induction h with
  | nil => exact fun _ h => absurd h List.not_mem_nil
  | cons hpart _ ih =>
    rw [List.forall_mem_cons] at hparts ⊢
    refine ⟨?_, ih hparts.2⟩
    obtain ⟨l, r, hl, hr, hchars⟩ := hpart
    have hblank : ∀ cs : List Char, (∀ c ∈ cs, isBlank c = true) → ',' ∉ cs :=
      fun cs hcs hmem => absurd (hcs ',' hmem) (by decide)
    rw [hchars, List.mem_append, List.mem_append]
    rintro ((hmem | hmem) | hmem)
    · exact hblank l hl hmem
    · exact hparts.1 hmem
    · exact hblank r hr hmem

/-! ## Whole ids -/

theorem hardware?_eq_some_iff {h : Hardware} :
    s.hardware? = some h ↔ ∃ c r d, s = ⟨some c, some r, some d⟩ ∧ h = ⟨c, r, [d]⟩ ∧
      0 < c ∧ 0 < r ∧ 0 < d := by
  unfold Sizes.hardware?
  constructor
  · intro hs
    split at hs
    · next c r d hc hr hd =>
      split_ifs at hs with hpos
      cases hs
      cases s
      cases hc
      cases hr
      cases hd
      exact ⟨c, r, d, rfl, rfl, hpos⟩
    · cases hs
  · rintro ⟨c, r, d, rfl, rfl, hpos⟩
    exact if_pos hpos

theorem ofId_eq_ok_iff {id : String} {h : Hardware} : ofId id = .ok h ↔ ofId? id = some h := by
  unfold ofId
  cases ofId? id <;> simp

/-- An id that is put together from parts without commas. -/
theorem ofId?_intercalate (hne : parts ≠ []) (h : ∀ part ∈ parts, ',' ∉ part.toList) :
    ofId? (",".intercalate parts) =
      (parts.foldlM Sizes.take? ⟨none, none, none⟩).bind Sizes.hardware? := by
  rw [ofId?, show "," = String.singleton ',' from rfl, split_intercalate hne h]

/-- All sizes that were met are numbers of 32 bits. -/
def Sizes.Fits (s : Sizes) : Prop :=
  (∀ c ∈ s.cores, c < twoTo 32) ∧ (∀ r ∈ s.ramMb, r < twoTo 32) ∧ ∀ d ∈ s.diskGb, d < twoTo 32

theorem Sizes.Fits.take? (hs : s.Fits) (h : s.take? part = some s') : s'.Fits := by
  rw [take?_eq] at h
  obtain ⟨⟨q, n⟩, hassigned, rfl⟩ := Option.map_eq_some_iff.mp h
  obtain ⟨value, -, hsize⟩ := exists_of_assigned? hassigned
  have hn : ∀ m ∈ some n, m < twoTo 32 := fun m hm => Option.some.inj hm ▸ size?_lt hsize
  cases q with
  | cores => exact ⟨hn, hs.2⟩
  | ramMb => exact ⟨hs.1, hn, hs.2.2⟩
  | diskGb => exact ⟨hs.1, hs.2.1, hn⟩

theorem Sizes.Fits.foldlM (hs : s.Fits) (h : parts.foldlM Sizes.take? s = some s') : s'.Fits := by
  induction parts generalizing s with
  | nil =>
    cases h
    exact hs
  | cons part parts ih =>
    rw [List.foldlM_cons] at h
    obtain ⟨s₁, hpart, hrest⟩ := Option.bind_eq_some_iff.mp h
    exact ih (hs.take? hpart) hrest

/-- An id that is accepted names a shape with one volume and sizes of 32 bits that are not zero. -/
theorem exists_of_ofId? {id : String} {h : Hardware} (hid : ofId? id = some h) :
    ∃ c r d, h = ⟨c, r, [d]⟩ ∧ (0 < c ∧ c < twoTo 32) ∧ (0 < r ∧ r < twoTo 32) ∧
      0 < d ∧ d < twoTo 32 := by
  obtain ⟨s, hfold, hs⟩ := Option.bind_eq_some_iff.mp hid
  obtain ⟨c, r, d, rfl, rfl, hc, hr, hd⟩ := hardware?_eq_some_iff.mp hs
  have hnone : Sizes.Fits ⟨none, none, none⟩ := ⟨nofun, nofun, nofun⟩
  obtain ⟨hc', hr', hd'⟩ := hnone.foldlM hfold
  exact ⟨c, r, d, rfl, ⟨hc, hc' c rfl⟩, ⟨hr, hr' r rfl⟩, hd, hd' d rfl⟩

/-! ## Written ids -/

/-- The part of a quantity in an id. -/
def partOf (q : Quantity) (n : Nat) : String := q.key ++ "=" ++ decimal n

theorem idOf_eq (c r d : Nat) :
    idOf c r d = ",".intercalate [partOf .cores c, partOf .ramMb r, partOf .diskGb d] := by
  rw [← String.toList_inj]
  simp [idOf, partOf, Quantity.key, String.intercalate_cons_cons]

theorem forall_mem_decimal {P : Char → Prop} (h : ∀ d < 10, P (digitChar d)) (n : Nat) :
    ∀ c ∈ (decimal n).toList, P c := by
  intro c hc
  rw [toList_decimal] at hc
  obtain ⟨d, hd, rfl⟩ := List.mem_map.mp hc
  exact h d (digits_lt n d hd)

theorem toList_partOf (q : Quantity) (n : Nat) :
    (partOf q n).toList = q.key.toList ++ '=' :: (decimal n).toList := by
  simp [partOf]

theorem comma_not_mem_partOf (q : Quantity) (n : Nat) : ',' ∉ (partOf q n).toList := by
  have hkey : ',' ∉ q.key.toList := by cases q <;> decide
  have hdigits : ∀ c ∈ (decimal n).toList, c ≠ ',' := forall_mem_decimal (by decide) n
  rw [toList_partOf, List.mem_append, List.mem_cons]
  rintro (hmem | hmem | hmem)
  · exact hkey hmem
  · cases hmem
  · exact hdigits _ hmem rfl

theorem trim_partOf (q : Quantity) (n : Nat) : trim (partOf q n) = partOf q n := by
  have hkey : ∀ c ∈ q.key.toList, (!isBlank c) = true :=
    List.all_eq_true.mp (by cases q <;> decide)
  refine trim_of_not_blank fun c hc => ?_
  rw [toList_partOf, List.mem_append, List.mem_cons] at hc
  rcases hc with hc | rfl | hc
  · exact (Bool.not_eq_true' _).mp (hkey c hc)
  · decide
  · exact forall_mem_decimal (P := (isBlank · = false)) (by decide) n c hc

/-- The part of a quantity gives it its size. -/
theorem assigned?_partOf (q : Quantity) (h : n < twoTo 32) :
    assigned? (partOf q n) = some (q, n) := by
  have hkey : '=' ∉ q.key.toList := by cases q <;> decide
  have hcut : cut '=' (partOf q n) = some (q.key, decimal n) :=
    cut_eq_some_iff.mpr ⟨toList_partOf q n, hkey⟩
  have hsize : size? (decimal n) = some n := by
    rw [size?, word32?, unsigned?_decimal h]
  unfold assigned?
  rw [trim_partOf, hcut]
  simp [hsize, Quantity.ofKey?_key]

/-- The id of sizes of 32 bits that are not zero names them. -/
theorem ofId?_idOf {c r d : Nat} (hc : 0 < c ∧ c < twoTo 32) (hr : 0 < r ∧ r < twoTo 32)
    (hd : 0 < d ∧ d < twoTo 32) : ofId? (idOf c r d) = some ⟨c, r, [d]⟩ := by
  have hcommas : ∀ part ∈ [partOf .cores c, partOf .ramMb r, partOf .diskGb d],
      ',' ∉ part.toList := by
    simp [comma_not_mem_partOf]
  rw [idOf_eq, ofId?_intercalate (List.cons_ne_nil _ _) hcommas]
  simp only [List.foldlM_cons, List.foldlM_nil, take?_eq, assigned?_partOf .cores hc.2,
    assigned?_partOf .ramMb hr.2, assigned?_partOf .diskGb hd.2]
  exact if_pos ⟨hc.1, hr.1, hd.1⟩

/-- The id of a shape names the shape with its volumes joined in one. A text that names a shape
still names it if its parts are reordered, none of their keys being repeated, or blank characters
are put around them; and the id of that shape, whose numbers are at least one, names it as well. -/
theorem ids_read_back :
    (∀ h : Hardware, 1 ≤ h.cores → h.cores < twoTo 32 → 1 ≤ h.ramMb → h.ramMb < twoTo 32 →
      h.volumesGb ≠ [] → 1 ≤ h.totalGb → h.totalGb < twoTo 32 →
        ofId h.id = .ok ⟨h.cores, h.ramMb, [h.totalGb]⟩) ∧
    ∀ s h, ofId s = .ok h →
      ofId h.id = .ok h ∧
      (∃ d, h.volumesGb = [d] ∧ 1 ≤ h.cores ∧ 1 ≤ h.ramMb ∧ 1 ≤ d) ∧
      (∀ parts, (split ',' s).Perm parts → ((split ',' s).map keyOf?).Nodup →
        ofId (",".intercalate parts) = .ok h) ∧
      ∀ parts, List.Forall₂ IsPadded (split ',' s) parts →
        ofId (",".intercalate parts) = .ok h := by
  refine ⟨fun h hc hc' hr hr' _ hd hd' => ?_, fun s h hs => ?_⟩
  · exact ofId_eq_ok_iff.mpr (ofId?_idOf ⟨hc, hc'⟩ ⟨hr, hr'⟩ ⟨hd, hd'⟩)
  simp only [ofId_eq_ok_iff] at hs ⊢
  have hcommas : ∀ part ∈ split ',' s, ',' ∉ part.toList := fun _ => not_mem_of_mem_split
  refine ⟨?_, ?_, fun parts hperm hkeys => ?_, fun parts hpadded => ?_⟩
  · obtain ⟨c, r, d, rfl, hc, hr, hd⟩ := exists_of_ofId? hs
    exact ofId?_idOf hc hr hd
  · obtain ⟨c, r, d, rfl, hc, hr, hd⟩ := exists_of_ofId? hs
    exact ⟨d, rfl, hc.1, hr.1, hd.1⟩
  · have hne : parts ≠ [] := fun hnil => split_ne_nil ',' s (List.perm_nil.mp (hnil ▸ hperm))
    rw [ofId?_intercalate hne fun part hp => hcommas part (hperm.mem_iff.mpr hp),
      ← foldlM_take?_perm hperm hkeys]
    exact hs
  · have hne : parts ≠ [] := fun hnil => split_ne_nil ',' s
      (List.forall₂_nil_right_iff.mp (hnil ▸ hpadded))
    rw [ofId?_intercalate hne (comma_not_mem_padded hpadded hcommas),
      foldlM_take?_padded hpadded]
    exact hs

/-- The volumes of a shape come back as one. A text with a fraction and a sign names the same shape,
in any order and with any blank characters between its parts. -/
theorem ids_read_back_fraction :
    ofId (Hardware.id ⟨4, 8192, [20, 30]⟩) = .ok ⟨4, 8192, [50]⟩ ∧
      ofId "disk=5e1,cpu=+4,ram=8192" = .ok ⟨4, 8192, [50]⟩ ∧
      ofId (",".intercalate ["cpu=+4", "ram=8192", "disk=5e1"]) = .ok ⟨4, 8192, [50]⟩ ∧
      ofId (",".intercalate ["disk=5e1 ", "cpu=+4", "\t\u3000ram=8192"]) = .ok ⟨4, 8192, [50]⟩ := by
  have hsplit : split ',' "disk=5e1,cpu=+4,ram=8192" = ["disk=5e1", "cpu=+4", "ram=8192"] := by
    decide +kernel
  have hs : ofId "disk=5e1,cpu=+4,ram=8192" = .ok ⟨4, 8192, [50]⟩ :=
    ofId_eq_ok_iff.mpr (by decide +kernel)
  obtain ⟨hnew, hread⟩ := ids_read_back
  obtain ⟨-, -, hperm, hpadded⟩ := hread _ _ hs
  rw [hsplit] at hperm hpadded
  refine ⟨?_, hs, hperm _ ?_ ?_, hpadded _ (.cons ?_ (.cons ?_ (.cons ?_ .nil)))⟩
  · exact hnew ⟨4, 8192, [20, 30]⟩ (by decide) (by decide) (by decide) (by decide) (by decide)
      (by decide) (by decide)
  · decide
  · decide +kernel
  · exact ⟨[], [' '], List.forall_mem_nil _, List.all_eq_true.mp (by decide), by decide⟩
  · exact ⟨[], [], List.forall_mem_nil _, List.forall_mem_nil _, by decide⟩
  · exact ⟨['\t', '\u3000'], [], List.all_eq_true.mp (by decide), List.forall_mem_nil _,
      by decide⟩

end ComputePlane.Hardware
