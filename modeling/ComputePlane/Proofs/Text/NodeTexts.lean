import ComputePlane.NodeId
import ComputePlane.Proofs.Text.Cutting

/-!
# Nodes and their texts

A text names a node if it has a part on each side of its only slash (`ofText?_eq_some_iff`). The
text of a node names that node or none (`eq_of_ofText?_text`), so texts that name a node and nodes
that have such a text are one to one (`parse_one_to_one`).
-/

namespace ComputePlane.NodeId

open Text

theorem ofText?_eq_some_iff {t : String} {n : NodeId} :
    ofText? t = some n ↔
      t = n.text ∧ n.datacenter ≠ "" ∧ n.server ≠ "" ∧ '/' ∉ n.datacenter.toList ∧
        '/' ∉ n.server.toList := by
  have htext : ∀ dc id : String,
      t = dc ++ "/" ++ id ↔ t.toList = dc.toList ++ '/' :: id.toList := by
    intro dc id
    simp [← String.toList_inj]
  rw [text, htext]
  unfold ofText?
  constructor
  · intro h
    cases hcut : cut '/' t with
    | none =>
      rw [hcut] at h
      cases h
    | some p =>
      obtain ⟨dc, id⟩ := p
      rw [hcut] at h
      dsimp only at h
      split_ifs at h with hparts
      cases h
      obtain ⟨hjoin, hdc⟩ := cut_eq_some_iff.mp hcut
      exact ⟨hjoin, hparts.1, hparts.2.1, hdc, hparts.2.2⟩
  · rintro ⟨hjoin, hdc, hid, hslash, hslash'⟩
    rw [cut_eq_some_iff.mpr ⟨hjoin, hslash⟩]
    exact if_pos ⟨hdc, hid, hslash'⟩

theorem parse_eq_ok_iff {t : String} {n : NodeId} :
    parse t = .ok n ↔ ofText? t = some n := by
  unfold parse
  cases ofText? t with
  | none => simp
  | some m => simp

/-- What is said of a text that names no node. -/
theorem parse_of_none {t : String} (h : ofText? t = none) :
    parse t = .error (.invalidId ("expected <datacenterId>/<serverId>, got " ++ quoted t)) := by
  rw [parse, h]

theorem toList_text (n : NodeId) :
    n.text.toList = n.datacenter.toList ++ '/' :: n.server.toList := by
  simp [text]

/-- The text of a node names no other one. -/
theorem eq_of_ofText?_text {n m : NodeId} (h : ofText? n.text = some m) : m = n := by
  obtain ⟨htext, -, -, hdc, hid⟩ := ofText?_eq_some_iff.mp h
  have hchars := congrArg String.toList htext
  rw [toList_text, toList_text] at hchars
  -- there is one slash on either side
  have hcount := congrArg (List.count '/') hchars
  simp only [List.count_append, List.count_cons_self, List.count_eq_zero.mpr hdc,
    List.count_eq_zero.mpr hid] at hcount
  have hdc' : '/' ∉ n.datacenter.toList := List.count_eq_zero.mp (by omega)
  have hcut : cutChars '/' (n.datacenter.toList ++ '/' :: n.server.toList) =
      some (n.datacenter.toList, n.server.toList) := cutChars_eq_some_iff.mpr ⟨rfl, hdc'⟩
  rw [cutChars_eq_some_iff.mpr ⟨hchars, hdc⟩, Option.some.injEq, Prod.mk.injEq,
    String.toList_inj, String.toList_inj] at hcut
  cases n
  cases m
  obtain ⟨rfl, rfl⟩ := hcut
  rfl

/-! ## One to one -/

/-- Neither part of a node is empty or holds a slash. -/
def IsNameable (n : NodeId) : Prop :=
  n.datacenter ≠ "" ∧ n.server ≠ "" ∧ '/' ∉ n.datacenter.toList ∧ '/' ∉ n.server.toList

instance : DecidablePred IsNameable := fun _ => inferInstanceAs (Decidable (_ ∧ _ ∧ _ ∧ _))

theorem parse_eq_ok_iff_text {t : String} {n : NodeId} :
    parse t = .ok n ↔ n.IsNameable ∧ n.text = t := by
  rw [parse_eq_ok_iff, ofText?_eq_some_iff, and_comm, eq_comm]
  rfl

/-- The text of a node that cannot be named does not name another one in its place. -/
theorem ofText?_text_of_not_nameable {n : NodeId} (h : ¬n.IsNameable) : ofText? n.text = none := by
  cases hn : ofText? n.text with
  | none => rfl
  | some m =>
    obtain rfl := eq_of_ofText?_text hn
    exact absurd (ofText?_eq_some_iff.mp hn).2 h

/-- The text of a node names that node, or none if a part of the node is empty or holds a slash. A
text names no other node than the one whose text it is. -/
theorem parse_one_to_one :
    (∀ n : NodeId, parse n.text =
      if n.IsNameable then .ok n
      else .error (.invalidId ("expected <datacenterId>/<serverId>, got " ++ quoted n.text))) ∧
    ∀ t n, parse t = .ok n ↔ n.IsNameable ∧ n.text = t := by
  refine ⟨fun n => ?_, fun t n => parse_eq_ok_iff_text⟩
  by_cases hn : n.IsNameable
  · rw [if_pos hn]
    exact parse_eq_ok_iff_text.mpr ⟨hn, rfl⟩
  · rw [if_neg hn]
    exact parse_of_none (ofText?_text_of_not_nameable hn)

end ComputePlane.NodeId
