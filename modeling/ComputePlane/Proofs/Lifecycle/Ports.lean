import Mathlib.Data.List.Destutter
import Mathlib.Data.List.Sort
import ComputePlane.Lifecycle.Create

/-!
# The ranges that ports make up

The ranges of some ports are in order, at least one port is missing between each two, and they cover
these ports and no others. There is only one list of ranges of which this is true
(`IsSpaced.unique`). The ranges are found from the first port to the last in one pass, which makes
the last range longer or begins a new one (`extend?`); none of its sums overflows
(`foldlM_portRanges`).
-/

namespace ComputePlane.Lifecycle

/-! ## Ranges -/

def Covers (range : Nat × Nat) (port : Nat) : Prop := range.1 ≤ port ∧ port ≤ range.2

instance (range : Nat × Nat) (port : Nat) : Decidable (Covers range port) :=
  inferInstanceAs (Decidable (_ ∧ _))

/-- Ranges cover a port if one of them does. -/
def CoveredBy (ranges : List (Nat × Nat)) (port : Nat) : Prop := ∃ range ∈ ranges, Covers range port

/-- No range is empty, and between each two neighbours a port is missing at least. -/
structure IsSpaced (ranges : List (Nat × Nat)) : Prop where
  nonempty : ∀ range ∈ ranges, range.1 ≤ range.2
  apart : ranges.IsChain fun a b => a.2 + 1 < b.1

section Ranges

variable {r : Nat × Nat} {ranges ranges' : List (Nat × Nat)} {ports : List Nat} {port first : Nat}

@[simp] theorem coveredBy_nil : ¬CoveredBy [] port := by simp [CoveredBy]

@[simp] theorem coveredBy_cons :
    CoveredBy (r :: ranges) port ↔ Covers r port ∨ CoveredBy ranges port :=
  List.exists_mem_cons_iff ..

theorem IsSpaced.nil : IsSpaced [] := ⟨by simp, .nil⟩

theorem IsSpaced.tail (h : IsSpaced (r :: ranges)) : IsSpaced ranges :=
  ⟨fun q hq => h.nonempty q (List.mem_cons_of_mem _ hq), h.apart.tail⟩

theorem IsSpaced.head_le (h : IsSpaced (r :: ranges)) : r.1 ≤ r.2 :=
  h.nonempty r List.mem_cons_self

/-- Each range begins after the one before it has ended. -/
theorem IsSpaced.pairwise (h : IsSpaced ranges) : ranges.Pairwise fun a b => a.2 + 1 < b.1 := by
  induction ranges with
  | nil => exact .nil
  | cons r ranges ih =>
    have hrest := ih h.tail
    cases ranges with
    | nil => simp
    | cons q ranges =>
      refine hrest.cons fun a ha => ?_
      have hnext : r.2 + 1 < q.1 := h.apart.rel
      rcases List.mem_cons.mp ha with rfl | ha
      · exact hnext
      · have hq := h.tail.head_le
        have hafter := List.rel_of_pairwise_cons hrest ha
        omega

/-- What later ranges cover comes after the first range, with a port missing in between. -/
theorem IsSpaced.lt_of_coveredBy (h : IsSpaced (r :: ranges)) (hport : CoveredBy ranges port) :
    r.2 + 1 < port := by
  obtain ⟨q, hq, hcovers⟩ := hport
  exact (List.rel_of_pairwise_cons h.pairwise hq).trans_le hcovers.1

/-- The first range begins with the first port. -/
theorem IsSpaced.fst_le (h : IsSpaced (r :: ranges)) (hport : CoveredBy (r :: ranges) port) :
    r.1 ≤ port := by
  rcases coveredBy_cons.mp hport with hcovers | hlater
  · exact hcovers.1
  · have hle := h.head_le
    have hlt := h.lt_of_coveredBy hlater
    omega

/-- The first range ends before the first port that is missing. -/
theorem IsSpaced.le_snd (h : IsSpaced (r :: ranges))
    (hall : ∀ q, r.1 ≤ q → q ≤ port → CoveredBy (r :: ranges) q) : port ≤ r.2 := by
  by_contra hlt
  have hfirst := h.head_le
  rcases coveredBy_cons.mp (hall (r.2 + 1) (by omega) (by omega)) with hcovers | hlater
  · exact absurd hcovers.2 (by omega)
  · exact absurd (h.lt_of_coveredBy hlater) (by omega)

/-- The later ranges cover what comes after the first one. -/
theorem IsSpaced.coveredBy_tail (h : IsSpaced (r :: ranges)) :
    CoveredBy ranges port ↔ CoveredBy (r :: ranges) port ∧ r.2 < port := by
  rw [coveredBy_cons]
  constructor
  · intro hlater
    have hlt := h.lt_of_coveredBy hlater
    exact ⟨.inr hlater, by omega⟩
  · rintro ⟨hcovers | hlater, hlt⟩
    · exact absurd hcovers.2 (by omega)
    · exact hlater

theorem coveredBy_head (hport : Covers r port) : CoveredBy (r :: ranges) port :=
  coveredBy_cons.mpr (.inl hport)

/-- Only one list of ranges covers the ports that it covers. -/
theorem IsSpaced.unique (h : IsSpaced ranges) (h' : IsSpaced ranges')
    (hsame : ∀ port, CoveredBy ranges port ↔ CoveredBy ranges' port) : ranges = ranges' := by
  induction ranges generalizing ranges' with
  | nil =>
    cases ranges' with
    | nil => rfl
    | cons r' ranges' =>
      exact absurd ((hsame r'.1).mpr (coveredBy_head ⟨le_rfl, h'.head_le⟩)) coveredBy_nil
  | cons r ranges ih =>
    cases ranges' with
    | nil => exact absurd ((hsame r.1).mp (coveredBy_head ⟨le_rfl, h.head_le⟩)) coveredBy_nil
    | cons r' ranges' =>
      have hle := h.head_le
      have hle' := h'.head_le
      have hfst : r.1 = r'.1 := le_antisymm
        (h.fst_le ((hsame _).mpr (coveredBy_head ⟨le_rfl, hle'⟩)))
        (h'.fst_le ((hsame _).mp (coveredBy_head ⟨le_rfl, hle⟩)))
      have hsnd : r.2 = r'.2 := le_antisymm
        (h'.le_snd fun q hq hq' => (hsame q).mp (coveredBy_head ⟨by omega, hq'⟩))
        (h.le_snd fun q hq hq' => (hsame q).mpr (coveredBy_head ⟨by omega, hq'⟩))
      rw [ih h.tail h'.tail fun port => ?_, Prod.ext hfst hsnd]
      rw [h.coveredBy_tail, h'.coveredBy_tail, hsame, hsnd]

theorem coveredBy_iff_countP : CoveredBy ranges port ↔ 0 < ranges.countP (Covers · port) := by
  simp [CoveredBy, List.countP_pos_iff]

/-- No port is covered twice. -/
theorem IsSpaced.countP_le_one (h : IsSpaced ranges) (port : Nat) :
    ranges.countP (Covers · port) ≤ 1 := by
  induction ranges with
  | nil => simp
  | cons r ranges ih =>
    have hrest := ih h.tail
    by_cases hcovers : Covers r port
    · have hlater : ¬CoveredBy ranges port := fun hlater => by
        have hlt := h.lt_of_coveredBy hlater
        exact absurd hcovers.2 (by omega)
      rw [coveredBy_iff_countP] at hlater
      rw [List.countP_cons_of_pos (by simpa using hcovers)]
      omega
    · rwa [List.countP_cons_of_neg (by simpa using hcovers)]

/-! ## From the last port to the first -/

/-- Ranges with a port in front of them. -/
def prepend (port : Nat) : List (Nat × Nat) → List (Nat × Nat)
  | [] => [(port, port)]
  | (first, last) :: rest =>
    if port + 1 = first then (port, last) :: rest else (port, port) :: (first, last) :: rest

theorem collapse_cons (port : Nat) (ports : List Nat) :
    collapse (port :: ports) = prepend port (collapse ports) := by
  rw [collapse]
  cases collapse ports <;> rfl

theorem IsSpaced.cons (h : IsSpaced ranges) (hle : r.1 ≤ r.2)
    (hnext : ∀ q ∈ ranges.head?, r.2 + 1 < q.1) : IsSpaced (r :: ranges) :=
  ⟨List.forall_mem_cons.mpr ⟨hle, h.nonempty⟩, List.isChain_cons.mpr ⟨hnext, h.apart⟩⟩

theorem IsSpaced.prepend (h : IsSpaced ranges) (hbefore : ∀ q, CoveredBy ranges q → port < q) :
    IsSpaced (prepend port ranges) := by
  cases ranges with
  | nil => exact h.cons le_rfl (by simp)
  | cons r ranges =>
    obtain ⟨first, last⟩ := r
    have hle : first ≤ last := h.head_le
    have hlt := hbefore first (coveredBy_head ⟨le_rfl, hle⟩)
    rw [Lifecycle.prepend]
    split
    · exact h.tail.cons (by dsimp only; omega) (List.isChain_cons.mp h.apart).1
    · refine h.cons le_rfl fun q hq => ?_
      obtain rfl := Option.mem_some.mp hq
      dsimp only
      omega

theorem coveredBy_prepend (h : IsSpaced ranges) {q : Nat} :
    CoveredBy (prepend port ranges) q ↔ q = port ∨ CoveredBy ranges q := by
  have hsingle : Covers (port, port) q ↔ q = port := by
    unfold Covers
    omega
  cases ranges with
  | nil => simp [Lifecycle.prepend, hsingle]
  | cons r ranges =>
    obtain ⟨first, last⟩ := r
    have hle : first ≤ last := h.head_le
    rw [Lifecycle.prepend]
    split
    · have hlonger : Covers (port, last) q ↔ q = port ∨ Covers (first, last) q := by
        unfold Covers
        omega
      rw [coveredBy_cons, coveredBy_cons, hlonger, or_assoc]
    · rw [coveredBy_cons, hsingle]

/-- Ranges are the ranges of some ports. -/
structure RangesOf (ports : List Nat) (ranges : List (Nat × Nat)) : Prop where
  spaced : IsSpaced ranges
  covers : ∀ port, CoveredBy ranges port ↔ port ∈ ports

theorem RangesOf.unique (h : RangesOf ports ranges) (h' : RangesOf ports ranges') :
    ranges = ranges' :=
  h.spaced.unique h'.spaced fun port => (h.covers port).trans (h'.covers port).symm

theorem rangesOf_collapse (h : ports.Pairwise (· < ·)) : RangesOf ports (collapse ports) := by
  induction ports with
  | nil => exact ⟨.nil, by simp [collapse]⟩
  | cons port ports ih =>
    obtain ⟨hbefore, hrest⟩ := List.pairwise_cons.mp h
    obtain ⟨hspaced, hcovers⟩ := ih hrest
    rw [collapse_cons]
    refine ⟨hspaced.prepend fun q hq => hbefore q ((hcovers q).mp hq), fun q => ?_⟩
    rw [coveredBy_prepend hspaced, hcovers, List.mem_cons]

end Ranges

/-! ## Ports in order -/

/-- Ports in order, each once. -/
def inOrder (ports : List Nat) : List Nat := (ports.mergeSort (· ≤ ·)).eraseReps

theorem eraseReps_loop (port : Nat) (ports done : List Nat) :
    List.eraseRepsBy.loop (· == ·) port ports done =
      done.reverse ++ List.destutter' (· ≠ ·) port ports := by
  induction ports generalizing port done with
  | nil => simp [List.eraseRepsBy.loop]
  | cons q ports ih =>
    rw [List.eraseRepsBy.loop, List.destutter']
    by_cases heq : port = q
    · simp [heq, ih]
    · simp [beq_false_of_ne heq, heq, ih]

theorem inOrder_eq (ports : List Nat) : inOrder ports = (ports.mergeSort (· ≤ ·)).dedup := by
  rw [← (List.pairwise_mergeSort' (· ≤ ·) ports).destutter_eq_dedup, inOrder]
  cases ports.mergeSort (· ≤ ·) with
  | nil => rfl
  | cons port ports => exact eraseReps_loop port ports []

theorem mem_inOrder {ports : List Nat} {port : Nat} : port ∈ inOrder ports ↔ port ∈ ports := by
  rw [inOrder_eq, List.mem_dedup, (List.mergeSort_perm ..).mem_iff]

theorem pairwise_inOrder (ports : List Nat) : (inOrder ports).Pairwise (· < ·) := by
  rw [inOrder_eq]
  have hsorted := (List.pairwise_mergeSort' (· ≤ ·) ports).sublist (List.dedup_sublist _)
  exact (hsorted.and (List.nodup_dedup _)).imp fun ⟨hle, hne⟩ => lt_of_le_of_ne hle hne

/-- The ranges by a sort that can be evaluated. -/
theorem portRanges_eq (ports : List Nat) :
    portRanges ports = collapse (ports.insertionSort (· ≤ ·)).eraseReps := by
  rw [portRanges, List.mergeSort_eq_insertionSort]

theorem rangesOf_portRanges (ports : List Nat) : RangesOf ports (portRanges ports) := by
  obtain ⟨hspaced, hcovers⟩ := rangesOf_collapse (pairwise_inOrder ports)
  exact ⟨hspaced, fun port => (hcovers port).trans mem_inOrder⟩

/-! ## From the first port to the last -/

/-- The sum of two words of 32 bits, unless it overflows. -/
def sum32? (m n : Nat) : Option Nat := if m + n < Number.twoTo 32 then some (m + n) else none

/-- Ranges with a port behind them, the last range first. The last range is made longer if the port
comes next after its end. -/
def extend? : List (Nat × Nat) → Nat → Option (List (Nat × Nat))
  | [], port => some [(port, port)]
  | (first, last) :: done, port =>
    (sum32? last 1).map fun next =>
      if next = port then (first, port) :: done else (port, port) :: (first, last) :: done

theorem sum32?_eq {m : Nat} (h : m < Number.twoTo 16) : sum32? m 1 = some (m + 1) := by
  have hlimit : Number.twoTo 16 < Number.twoTo 32 := by decide
  exact if_pos (by omega)

theorem exists_collapse (port : Nat) (ports : List Nat) :
    ∃ last ranges, collapse (port :: ports) = (port, last) :: ranges := by
  rw [collapse_cons]
  cases collapse ports with
  | nil => exact ⟨_, _, rfl⟩
  | cons r ranges =>
    rw [prepend]
    split <;> exact ⟨_, _, rfl⟩

/-- The pass from a range on that ends with `last`. What comes of that range is what the other pass
makes of its last port. -/
theorem foldlM_extend? {first last : Nat} {ports : List Nat} {done : List (Nat × Nat)}
    (hwords : ∀ port ∈ last :: ports, port < Number.twoTo 16) {last' : Nat}
    {ranges : List (Nat × Nat)} (h : collapse (last :: ports) = (last, last') :: ranges) :
    ports.foldlM extend? ((first, last) :: done) =
      some (ranges.reverse ++ (first, last') :: done) := by
  induction ports generalizing first last done last' ranges with
  | nil =>
    cases h
    rfl
  | cons port ports ih =>
    obtain ⟨hlast, hrest⟩ := List.forall_mem_cons.mp hwords
    obtain ⟨end', ranges', hcollapse⟩ := exists_collapse port ports
    rw [collapse_cons, hcollapse, prepend] at h
    rw [List.foldlM_cons, extend?, sum32?_eq hlast]
    simp only [Option.map_some, Option.bind_eq_bind, Option.bind_some]
    split at h
    · next hnext =>
      cases h
      rw [if_pos hnext]
      exact ih hrest hcollapse
    · next hnext =>
      cases h
      rw [if_neg hnext, ih hrest hcollapse]
      simp

/-- Both passes find the same ranges, and no sum overflows. -/
theorem foldlM_portRanges {ports : List Nat} (hwords : ∀ port ∈ ports, port < Number.twoTo 16) :
    ((inOrder ports).foldlM extend? []).map List.reverse = some (portRanges ports) := by
  have hwords : ∀ port ∈ inOrder ports, port < Number.twoTo 16 := fun port hport =>
    hwords port (mem_inOrder.mp hport)
  show _ = some (collapse (inOrder ports))
  cases hports : inOrder ports with
  | nil => rfl
  | cons port rest =>
    obtain ⟨last, ranges, hcollapse⟩ := exists_collapse port rest
    rw [hports] at hwords
    rw [List.foldlM_cons, extend?, Option.bind_eq_bind, Option.bind_some,
      foldlM_extend? hwords hcollapse, hcollapse]
    simp

/-- The ranges that ports make up are the only ranges of these ports. They depend on nothing but
which ports there are, and are found without overflow in one pass. -/
theorem portRanges_determined (ports : List UInt16) :
    RangesOf (ports.map (·.toNat)) (portRanges (ports.map (·.toNat))) ∧
      (∀ ranges, RangesOf (ports.map (·.toNat)) ranges →
        ranges = portRanges (ports.map (·.toNat))) ∧
      (∀ ports' : List UInt16, (∀ port, port ∈ ports' ↔ port ∈ ports) →
        portRanges (ports'.map (·.toNat)) = portRanges (ports.map (·.toNat))) ∧
      ((inOrder (ports.map (·.toNat))).foldlM extend? []).map List.reverse =
        some (portRanges (ports.map (·.toNat))) := by
  have hranges := rangesOf_portRanges (ports.map (·.toNat))
  refine ⟨hranges, fun ranges h => h.unique hranges, fun ports' hsame => ?_,
    foldlM_portRanges fun port hport => ?_⟩
  · have hranges' := rangesOf_portRanges (ports'.map (·.toNat))
    refine hranges'.spaced.unique hranges.spaced fun port => ?_
    rw [hranges'.covers, hranges.covers, List.mem_map, List.mem_map]
    exact exists_congr fun q => and_congr_left fun _ => hsame q
  · obtain ⟨q, -, rfl⟩ := List.mem_map.mp hport
    exact q.toNat_lt

example : portRanges [65535, 22, 80, 21, 65534, 22, 443] =
    [(21, 22), (80, 80), (443, 443), (65534, 65535)] := by
  rw [portRanges_eq]
  decide

end ComputePlane.Lifecycle
