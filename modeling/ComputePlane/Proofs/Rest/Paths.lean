import ComputePlane.Proofs.Text.Cutting
import ComputePlane.Rest.Client

/-!
# Paths below an endpoint

What is requested when the text of a path is put behind an endpoint: the endpoint's own path stays
in front, and what follows its last slash is read by itself (`Client.ofText?_below`).
-/

namespace ComputePlane.Rest

open Text

variable {cs : List Char}

/-! ## Resolving -/

/-- The segments after one that others follow. -/
def enter (done : List String) (s : List Char) : List String :=
  match dots? s with
  | some 1 => done
  | some 2 => done.dropLast
  | _ => done ++ [escaped isPathChar s]

/-- What comes first leads to segments from which all that follows goes on. -/
theorem resolve_append (done : List String) (ps : List (List Char)) {qs : List (List Char)}
    (hqs : qs ≠ []) : resolve done (ps ++ qs) = resolve (ps.foldl enter done) qs := by
  induction ps generalizing done with
  | nil => rfl
  | cons p ps ih =>
    have hne : ps ++ qs ≠ [] := by simp [hqs]
    rw [List.cons_append, resolve.eq_3 _ _ _ hne, List.foldl_cons, ← ih, enter]
    rcases dots? p with _ | _ | _ | _ | n <;> rfl

/-! ## Reading a path -/

/-- Characters without those at their end that are dropped there. -/
def withoutEnd (cs : List Char) : List Char :=
  (cs.reverse.dropWhile Url.isControl).reverse

/-- The characters of a path that count. -/
def kept (cs : List Char) : List Char :=
  (withoutEnd cs).filter (!Url.isBreak ·)

/-- Characters with backslashes turned round. -/
def slashed (cs : List Char) : List Char :=
  cs.map fun c => if c = '\\' then '/' else c

/-- Where requests are sent: an origin and the segments of a path below it. -/
structure Base where
  origin : String
  segments : List String
  deriving DecidableEq, Repr

/-- The URL that the characters after a slash lead to, with the segments of the base in front. -/
def Base.read (b : Base) (cs : List Char) : Url :=
  let cs := cs.takeWhile (· ≠ '#')
  let path := cs.takeWhile (· ≠ '?')
  ⟨b.origin, resolve b.segments (pieces '/' (slashed path)),
    match cs.drop path.length with
    | _ :: query => some (escaped isQueryChar query)
    | [] => none⟩

/-- The URL that the text of a path leads to. -/
def Base.below (b : Base) (path : String) : Url :=
  b.read (kept path.toList)

/-- Where a client sends its requests, if its endpoint is a URL without a query or a fragment. -/
def Client.base? (c : Client) : Option Base :=
  if '?' ∈ c.endpoint.toList ∨ '#' ∈ c.endpoint.toList then none
  else (Url.ofText? (c.endpoint ++ "/")).map fun u => ⟨u.origin, u.segments.dropLast⟩

theorem dropWhile_isControl_append (s t : List Char) :
    (s ++ '/' :: t).dropWhile Url.isControl = s.dropWhile Url.isControl ++ '/' :: t := by
  rw [List.dropWhile_append]
  split
  next h =>
    rw [List.isEmpty_iff.mp h, List.nil_append, List.dropWhile_cons_of_neg (by decide)]
  next => rfl

/-- What counts of a text up to a slash is the same whatever follows. -/
theorem significant_append (e : String) :
    ∃ front, front ⊆ e.toList ∧
      ∀ path : String, Url.significant (e ++ "/" ++ path) = front ++ '/' :: kept path.toList := by
  refine ⟨(e.toList.dropWhile Url.isControl).filter (!Url.isBreak ·), fun c hc => ?_,
    fun path => ?_⟩
  · exact (List.dropWhile_suffix _).subset (List.mem_of_mem_filter hc)
  · have htext : (e ++ "/" ++ path).toList = e.toList ++ '/' :: path.toList := by simp
    rw [Url.significant, htext, dropWhile_isControl_append, List.reverse_append,
      List.reverse_cons, List.append_assoc, List.singleton_append, dropWhile_isControl_append,
      List.reverse_append, List.reverse_cons, List.reverse_reverse, List.append_assoc,
      List.singleton_append, List.filter_append, List.filter_cons_of_pos (by decide), kept,
      withoutEnd]

theorem segmentsOf_eq {rest : List Char} (h : slashed cs = '/' :: rest) :
    segmentsOf cs = resolve [] (pieces '/' rest) := by
  rw [slashed] at h
  simp only [segmentsOf, h]

/-- The path of a URL up to a slash leads to segments from which what follows goes on. -/
theorem exists_segmentsOf_append {front : List Char} (h : ∀ c ∈ front.head?, Url.isSlash c = true) :
    ∃ base, ∀ cs, segmentsOf (front ++ '/' :: cs) = resolve base (pieces '/' (slashed cs)) := by
  cases front with
  | nil => exact ⟨[], fun cs => segmentsOf_eq rfl⟩
  | cons c front =>
    have hc : (if c = '\\' then '/' else c) = '/' := by
      have hslash := h c rfl
      simp only [Url.isSlash, Bool.or_eq_true, decide_eq_true_eq] at hslash
      exact ite_eq_left_iff.mpr fun hback => hslash.resolve_right hback
    refine ⟨(pieces '/' (slashed front)).foldl enter [], fun cs => ?_⟩
    have hslashed : slashed (c :: front ++ '/' :: cs) =
        '/' :: (slashed front ++ '/' :: slashed cs) := by
      simp [slashed, hc]
    rw [segmentsOf_eq hslashed, pieces_append_cons, resolve_append _ _ (pieces_ne_nil _ _)]

/-- The parts of a URL up to a slash lead to a base from which what follows is read. -/
theorem exists_ofParts_append {front : List Char} (hslash : ∀ c ∈ front.head?, Url.isSlash c = true)
    (hquery : '?' ∉ front) (hfragment : '#' ∉ front) (origin : String) :
    ∃ b : Base, ∀ cs, Url.ofParts origin (front ++ '/' :: cs) = b.read cs := by
  obtain ⟨base, hbase⟩ := exists_segmentsOf_append hslash
  have htake : ∀ d, d ∉ front → d ≠ '/' → ∀ cs,
      (front ++ '/' :: cs).takeWhile (· ≠ d) = front ++ '/' :: cs.takeWhile (· ≠ d) := by
    intro d hd hne cs
    have hall : ∀ c ∈ front, decide (c ≠ d) = true := by
      intro c hc
      simpa using fun h : c = d => hd (h ▸ hc)
    rw [List.takeWhile_append_of_pos hall, List.takeWhile_cons_of_pos (by simpa using Ne.symm hne)]
  refine ⟨⟨origin, base⟩, fun cs => ?_⟩
  unfold Url.ofParts Base.read
  dsimp only
  rw [htake '#' hfragment (by decide), htake '?' hquery (by decide), hbase, List.length_append,
    List.drop_length_add_append, List.length_cons]
  rfl

theorem takeWhile_host_append (s t : List Char) :
    (s ++ '/' :: t).takeWhile (!Url.endsHost ·) = s.takeWhile (!Url.endsHost ·) := by
  rw [List.takeWhile_append]
  split
  next h =>
    rw [List.takeWhile_cons_of_neg (by decide), List.append_nil]
    exact ((List.takeWhile_prefix _).eq_of_length h).symm
  next => rfl

theorem drop_takeWhile_append (p : Char → Bool) (s t : List Char) :
    (s ++ t).drop (s.takeWhile p).length = s.dropWhile p ++ t := by
  induction s with
  | nil => rfl
  | cons c s ih => by_cases hc : p c <;> simp [hc, ih]

/-- The host ends before the slash or at it, and what follows it is the same up to there. -/
theorem exists_host_append {rest : List Char} (h : rest.dropWhile Url.isSlash ≠ []) :
    ∃ host front, front ⊆ rest ∧ (∀ c ∈ front.head?, Url.endsHost c = true) ∧ ∀ cs,
      ((rest ++ '/' :: cs).dropWhile Url.isSlash).takeWhile (!Url.endsHost ·) = host ∧
        ((rest ++ '/' :: cs).dropWhile Url.isSlash).drop host.length = front ++ '/' :: cs := by
  refine ⟨(rest.dropWhile Url.isSlash).takeWhile (!Url.endsHost ·),
    (rest.dropWhile Url.isSlash).dropWhile (!Url.endsHost ·), ?sub, ?head, fun cs => ?append⟩
  case sub => exact ((List.dropWhile_suffix _).trans (List.dropWhile_suffix _)).subset
  case head =>
    intro c hc
    have hnot := List.head?_dropWhile_not (!Url.endsHost ·) (rest.dropWhile Url.isSlash)
    rw [Option.mem_def.mp hc] at hnot
    simpa using hnot
  case append =>
    rw [List.dropWhile_append, if_neg (by simpa using h), takeWhile_host_append,
      drop_takeWhile_append]
    exact ⟨rfl, rfl⟩

theorem Base.read_nil (b : Base) : b.read [] = ⟨b.origin, b.segments ++ [""], none⟩ := rfl

/-- The text of a URL up to a slash leads to a base from which what follows is read. -/
theorem exists_ofText?_append {e : String} {u : Url} (hu : Url.ofText? (e ++ "/") = some u)
    (hquery : '?' ∉ e.toList) (hfragment : '#' ∉ e.toList) :
    ∃ b : Base, ∀ path, Url.ofText? (e ++ "/" ++ path) = some (b.read (kept path.toList)) := by
  obtain ⟨front, hfront, hsignificant⟩ := significant_append e
  have hempty := hsignificant ""
  rw [String.append_empty] at hempty
  rw [Url.ofText?, hempty] at hu
  cases hcut : cutChars ':' front with
  | none =>
    have hnone : cutChars ':' (front ++ '/' :: kept "".toList) = none := by
      rw [cutChars_eq_none_iff] at hcut ⊢
      simpa [kept, withoutEnd] using hcut
    rw [hnone] at hu
    cases hu
  | some p =>
    obtain ⟨scheme, rest⟩ := p
    rw [cutChars_append hcut] at hu
    dsimp only at hu
    have hrest : rest.dropWhile Url.isSlash ≠ [] := by
      intro hnil
      rw [List.dropWhile_append, if_pos (List.isEmpty_iff.mpr hnil)] at hu
      simp [kept, withoutEnd, Url.isSlash] at hu
    obtain ⟨host, tail, htail, hends, happend⟩ := exists_host_append hrest
    rw [(happend _).1, (happend _).2] at hu
    split_ifs at hu with hweb
    obtain ⟨rfl, -⟩ := cutChars_eq_some_iff.mp hcut
    have hsub : tail ⊆ e.toList := fun d hd => hfront (by simp [htail hd])
    have hslash : ∀ d ∈ tail.head?, Url.isSlash d = true := by
      intro d hd
      have hmem := hsub (List.mem_of_mem_head? hd)
      have hend := hends d hd
      simp only [Url.endsHost, Bool.or_eq_true, decide_eq_true_eq] at hend
      rcases hend with (hend | rfl) | rfl
      · exact hend
      · exact absurd hmem hquery
      · exact absurd hmem hfragment
    obtain ⟨b, hb⟩ := exists_ofParts_append hslash (fun h => hquery (hsub h))
      (fun h => hfragment (hsub h)) (lower (String.ofList scheme) ++ "://" ++ String.ofList host)
    refine ⟨b, fun path => ?_⟩
    rw [Url.ofText?, hsignificant, cutChars_append hcut]
    dsimp only
    rw [(happend _).1, (happend _).2, if_pos hweb, hb]

/-- What is requested when the text of a path is put behind the endpoint of a client. -/
theorem Client.ofText?_below {c : Client} {b : Base} (hb : c.base? = some b) (path : String) :
    Url.ofText? (c.endpoint ++ "/" ++ path) = some (b.below path) := by
  unfold Client.base? at hb
  split_ifs at hb with hmarks
  rw [not_or] at hmarks
  obtain ⟨u, hu, rfl⟩ := Option.map_eq_some_iff.mp hb
  obtain ⟨b, hread⟩ := exists_ofText?_append hu hmarks.1 hmarks.2
  have hempty := hread ""
  rw [String.append_empty, hu] at hempty
  have hkept : kept "".toList = [] := rfl
  rw [hread, Option.some.inj hempty, hkept, b.read_nil, List.dropLast_concat]
  rfl

end ComputePlane.Rest
