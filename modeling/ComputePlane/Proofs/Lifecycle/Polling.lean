import ComputePlane.Proofs.Lifecycle.Steps
import ComputePlane.Proofs.Program.Converse
import ComputePlane.Proofs.World.Breaking

/-!
# Waiting decides nothing

What a creation changes does not depend on what its waits come to. Of two creations of one node
whose changes are answered alike, both make the same changes, skip the same steps, and end at the
same point, however patient they are and whatever they see while they wait
(`waits_decide_nothing`). But a policy that does not fit can break a creation off in the middle, and
there are settings with such a policy (`exists_wait_decides`).

All of a creation but the look-up of the new node is `prepareIn`, and two such preparations are
twins (`prepareIn_twins`).
-/

namespace ComputePlane.Lifecycle

open Program

/-! ## All but the look-up -/

/-- A creation up to the look-up of the new node: its server, and what was passed over. -/
def prepareIn (s : AdapterSettings) (name : String) (t : Template) (draws : Draws) (bootSize : Nat)
    (sizes : List Nat) (region : String) : Operation (NodeId × List Skipped) := do
  let dc := t.datacenter
  let request := volumeRequest s t name (t.credentials draws).password
  let boot ← critical .provisionBootVolume dc {} (.createVolume dc (request 1 bootSize))
  let (extra, notMade) ← createVolumes dc request 2 sizes
  let _ ← awaitAvailable s (.volume ⟨dc, boot.id⟩)
  let made ← critical .provisionServer dc { volumes := boot.id :: extra }
    (.createServer dc (serverRequest t name boot.id))
  let server : NodeId := ⟨dc, made.id⟩
  let _ ← awaitAvailable s (.server server)
  let _ ← awaitAvailable s (.datacenter dc)
  let notOpened ← createNetwork s t name region server (boot.id :: extra)
  let notSettled ← settle s server extra
  return (server, notMade ++ notOpened ++ notSettled)

/-- The look-up that a creation ends with. -/
def lookUp (t : Template) (draws : Draws) (made : NodeId × List Skipped) : Operation Created := do
  let node ← getNode made.1.text
  return ⟨node, made.1.text, t.credentials draws, made.2⟩

variable {s s' : AdapterSettings} {name : String} {t : Template} {draws draws' : Draws}
  {bootSize : Nat} {sizes : List Nat} {region : String}

theorem createIn_eq : createIn s name t draws bootSize sizes region =
    prepareIn s name t draws bootSize sizes region >>= lookUp t draws := by
  unfold createIn prepareIn lookUp
  simp only [LawfulMonad.bind_assoc, LawfulMonad.pure_bind]

/-! ## Twins -/

section Twins

variable {p p' : PollPolicy}

theorem critical_twins {stage : Stage} {dc : String} {made : Made} {c : Call}
    (hc : c.isChange = true) :
    Twins p p' (critical stage dc made c).run (critical stage dc made c).run := by
  refine .refl (critical_asksOnly hc fun u hu => ?_)
  simp only [Made.deletes, List.mem_append, List.mem_map] at hu
  rcases hu with (⟨id, -, rfl⟩ | ⟨id, -, rfl⟩) | ⟨id, -, rfl⟩ <;> rfl

theorem awaitAvailable_twins {α : Type} {r : ResourceRef} {f g : Bool → Operation α}
    (h : ∀ a b, Twins s.poll s'.poll (f a).run (g b).run) :
    Twins s.poll s'.poll ((liftM (awaitAvailable s r) : Operation Bool) >>= f).run
      ((liftM (awaitAvailable s' r) : Operation Bool) >>= g).run :=
  .wait_run_bind rfl rfl h

theorem settle_twins (server : NodeId) (extra : List String) :
    Twins s.poll s'.poll (settle s server extra) (settle s' server extra) :=
  .bind (.refl (attachVolumes_asksOnly (fun _ => rfl) (fun _ => rfl) extra)) fun _ =>
    .wait_bind rfl rfl fun _ _ => .wait_bind rfl rfl fun _ _ =>
    .wait_bind trivial trivial fun _ _ =>
    .bind (.refl (restart_asksOnly rfl)) fun _ =>
    .wait_bind rfl rfl fun _ _ => .wait_bind trivial trivial fun _ _ => .done

theorem createNetwork_twins (hlan : s.defaultLan = s'.defaultLan) (server : NodeId)
    (volumes : List String) :
    Twins s.poll s'.poll (createNetwork s t name region server volumes).run
      (createNetwork s' t name region server volumes).run := by
  have hnic : nicRequest s t name = nicRequest s' t name := by
    funext ips
    simp only [nicRequest, lanOf, hlan]
  unfold createNetwork
  rw [hnic]
  exact .run_bind (critical_twins rfl) fun block => .run_bind (critical_twins rfl) fun nic =>
    awaitAvailable_twins fun _ _ => .run_lift (.refl (createRules_asksOnly name (fun _ => rfl) _))

/-- Two preparations of one node, with the same password, volumes and network. -/
theorem prepareIn_twins (hlan : s.defaultLan = s'.defaultLan)
    (htype : s.volumeType = s'.volumeType)
    (hpassword : (t.credentials draws).password = (t.credentials draws').password) :
    Twins s.poll s'.poll (prepareIn s name t draws bootSize sizes region).run
      (prepareIn s' name t draws' bootSize sizes region).run := by
  have hrequest : volumeRequest s t name (t.credentials draws).password =
      volumeRequest s' t name (t.credentials draws').password := by
    funext i size
    simp only [volumeRequest, htype, hpassword]
  unfold prepareIn
  rw [hrequest]
  exact .run_bind (critical_twins rfl) fun boot =>
    .run_bind (.run_lift (.refl (createVolumes_asksOnly _ (fun _ => rfl) _ _))) fun extra =>
    awaitAvailable_twins fun _ _ => .run_bind (critical_twins rfl) fun made =>
    awaitAvailable_twins fun _ _ => awaitAvailable_twins fun _ _ =>
    .run_bind (createNetwork_twins hlan _ _) fun notOpened =>
    .run_bind (.run_lift (settle_twins _ _)) fun notSettled => .done

end Twins

/-! ## Failures -/

section Failures

/-- An operation that fails fails for good. -/
def FailsFatally {α : Type} (x : Operation α) : Prop :=
  x.run.Gives fun r => ∀ e, r = .error e → ∃ stage cause, e = .fatal stage cause

theorem FailsFatally.pure {α : Type} (a : α) : FailsFatally (pure a : Operation α) :=
  fun _ he => nomatch he

theorem FailsFatally.bind {α β : Type} {x : Operation α} {f : α → Operation β}
    (hx : FailsFatally x) (hf : ∀ a, FailsFatally (f a)) : FailsFatally (x >>= f) := by
  unfold FailsFatally
  rw [ExceptT.run_bind]
  refine Gives.bind hx fun r hr => ?_
  cases r with
  | ok a => exact hf a
  | error e =>
    intro e' he
    cases he
    exact hr e rfl

theorem FailsFatally.lift {α : Type} (x : Program α) : FailsFatally (liftM x : Operation α) :=
  (Gives.any x).bind fun _ _ _ he => nomatch he

theorem critical_failsFatally {stage : Stage} {dc : String} {made : Made} {c : Call} :
    FailsFatally (critical stage dc made c) := by
  intro r
  cases r with
  | ok a => exact fun _ he => nomatch he
  | error e =>
    refine (FailsFatally.lift (bestEffortAll dc (made.deletes dc))).bind fun _ => ?_
    rintro _ ⟨⟩
    exact ⟨stage, e, rfl⟩

theorem createNetwork_failsFatally (server : NodeId) (volumes : List String) :
    FailsFatally (createNetwork s t name region server volumes) :=
  .bind critical_failsFatally fun _ => .bind critical_failsFatally fun _ =>
    .bind (.lift _) fun _ => .lift _

/-- Before its look-up, a creation in a region can only fail for good. -/
theorem prepareIn_failsFatally :
    FailsFatally (prepareIn s name t draws bootSize sizes region) :=
  .bind critical_failsFatally fun _ => .bind (.lift _) fun _ => .bind (.lift _) fun _ =>
    .bind critical_failsFatally fun _ => .bind (.lift _) fun _ => .bind (.lift _) fun _ =>
    .bind (createNetwork_failsFatally _ _) fun _ => .bind (.lift _) fun _ => .pure _

end Failures

/-! ## The look-ups -/

section LookUps

variable {js js' : List Outcome} {x x' : Except Error Created}

/-- A creation gets as far as looking up its node. The look-up is all that is left of it. -/
def LooksUp (t : Template) (draws : Draws) (server : NodeId) (skipped : List Skipped)
    (js : List Outcome) (x : Except Error Created) : Prop :=
  ∃ before after, js = before ++ after ∧ Converses (lookUp t draws (server, skipped)).run after x

theorem LooksUp.prepend {server : NodeId} {skipped : List Skipped}
    (h : LooksUp t draws server skipped js x) (ks : List Outcome) :
    LooksUp t draws server skipped (ks ++ js) x := by
  obtain ⟨before, after, rfl, hl⟩ := h
  exact ⟨ks ++ before, after, (List.append_assoc ..).symm, hl⟩

theorem lookUp_looks (made : NodeId × List Skipped) :
    (lookUp t draws made).run.AsksOnly (isLook · = true) :=
  .run_bind (getNode_looks _) fun _ => .pure _

theorem lookUp_asksOnly (made : NodeId × List Skipped) :
    (lookUp t draws made).run.AsksOnly (isRead · = true) :=
  (lookUp_looks made).mono fun _ => isRead_of_isLook

/-- The region of a new node is known, or depends on the answer to one question. -/
theorem regionOf_converses (t : Template) :
    (∃ region, t.region = some region ∧
        ∀ js r, Converses (regionOf t).run js r → js = [] ∧ r = .ok region) ∨
      t.region = none ∧ ∃ f : (Call.getDatacenter t.datacenter).Result → Except Error String,
        ∀ js r, Converses (regionOf t).run js r →
          ∃ found, js = [⟨.getDatacenter t.datacenter, found⟩] ∧ r = f found := by
  unfold regionOf
  cases t.region with
  | some region => exact .inl ⟨region, rfl, fun js r h => h.of_pure⟩
  | none =>
    refine .inr ⟨rfl, fun found => found.bind fun d =>
      (d.bind (·.properties.location)).elim (.error (.notFound "datacenter" t.datacenter)) .ok,
      fun js r h => ?_⟩
    rcases h.of_run_bind with ⟨e, rfl, h₁⟩ | ⟨js₁, d, js₂, h₁, h₂, rfl⟩
    · exact ⟨.error e, h₁.of_call, rfl⟩
    · refine ⟨.ok d, ?_⟩
      rw [h₁.of_call]
      cases hd : d.bind (·.properties.location) <;>
        (rw [hd] at h₂; obtain ⟨rfl, rfl⟩ := h₂.of_pure; simp [Except.bind, hd])

/-- If the first question is answered alike, the region is the same. -/
theorem regionOf_eq {before before' after after' : List Outcome} {r r' : Except Error String}
    (h : Converses (regionOf t).run before r) (h' : Converses (regionOf t).run before' r')
    (hregion : t.region = none → (before ++ after).head? = (before' ++ after').head?) : r = r' := by
  rcases regionOf_converses t with ⟨region, -, hknown⟩ | ⟨hnone, f, hasked⟩
  · exact (hknown _ _ h).2.trans (hknown _ _ h').2.symm
  · obtain ⟨found, rfl, rfl⟩ := hasked _ _ h
    obtain ⟨found', rfl, rfl⟩ := hasked _ _ h'
    have hhead := hregion hnone
    simp only [List.cons_append, List.head?_cons, Option.some.injEq] at hhead
    cases hhead
    rfl

variable {T : Nat} {r r' : Option (Except Error Created)}

/-- Two creations in one region. -/
theorem createIn_runs (hlan : s.defaultLan = s'.defaultLan)
    (htype : s.volumeType = s'.volumeType)
    (hpassword : (t.credentials draws).password = (t.credentials draws').password)
    (h : Runs T (createIn s name t draws bootSize sizes region).run js r)
    (h' : Runs T (createIn s' name t draws' bootSize sizes region).run js' r')
    (halike : AnsweredAlike (changes js) (changes js')) :
    StopsShort s.poll T js js' r ∨ StopsShort s'.poll T js' js r' ∨
      ∃ x x', r = some x ∧ r' = some x' ∧ changes js = changes js' ∧
        ((∃ stage cause, x = .error (.fatal stage cause) ∧ x' = .error (.fatal stage cause)) ∨
          ∃ server skipped, LooksUp t draws server skipped js x ∧
            LooksUp t draws' server skipped js' x') := by
  have htwins : Twins s.poll s'.poll (prepareIn s name t draws bootSize sizes region).run
      (prepareIn s' name t draws' bootSize sizes region).run :=
    prepareIn_twins hlan htype hpassword
  rw [createIn_eq] at h h'
  obtain ⟨ks, e, ls, hp, hjs, hchanges, hl⟩ := h.of_run_bind_looks lookUp_looks
  obtain ⟨ks', e', ls', hp', hjs', hchanges', hl'⟩ := h'.of_run_bind_looks lookUp_looks
  rw [StopsShort.congr hchanges hchanges', StopsShort.congr hchanges' hchanges, hchanges, hchanges']
  rw [hchanges, hchanges'] at halike
  rcases htwins.runs hp hp' halike with hshort | hshort | ⟨made, rfl, rfl, hsame⟩
  · obtain rfl := hshort.broken
    exact .inl ⟨hl, hshort.unfit, hshort.changes⟩
  · obtain rfl := hshort.broken
    exact .inr (.inl ⟨hl', hshort.unfit, hshort.changes⟩)
  · cases made with
    | error e =>
      obtain ⟨stage, cause, rfl⟩ := prepareIn_failsFatally.of_runs hp _ rfl e rfl
      exact .inr (.inr ⟨_, _, hl, hl', hsame, .inl ⟨stage, cause, rfl, rfl⟩⟩)
    | ok made =>
      obtain ⟨x, hx, hl⟩ := hl
      obtain ⟨x', hx', hl'⟩ := hl'
      exact .inr (.inr ⟨x, x', hx, hx', hsame, .inr ⟨made.1, made.2, ⟨ks, ls, hjs, hl⟩,
        ks', ls', hjs', hl'⟩⟩)

/-- How two creations of one node end that are not broken off. -/
inductive EndAlike (t : Template) (draws draws' : Draws) (js js' : List Outcome) :
    Except Error Created → Except Error Created → Prop where
  /-- Both fail for good, at the same stage and for the same cause. -/
  | failed (stage : Stage) (cause : Error) :
      EndAlike t draws draws' js js' (.error (.fatal stage cause)) (.error (.fatal stage cause))
  /-- Both get as far as looking up the same node, and have passed over the same steps. -/
  | lookedUp {x x' : Except Error Created} (server : NodeId) (skipped : List Skipped)
      (h : LooksUp t draws server skipped js x) (h' : LooksUp t draws' server skipped js' x') :
      EndAlike t draws draws' js js' x x'
  /-- Both fail before the first change, for want of a volume or a region. -/
  | unbegun {e : Error} (hnone : changes js = [])
      (h : t.hardware.volumesGb = [] ∨ Converses (regionOf t).run js (.error e)) :
      EndAlike t draws draws' js js' (.error e) (.error e)

/-- Waiting decides nothing, unless it breaks a creation off. Let two creations of one node, of the
same name and with a password, use the same network and type of volumes by default. Let the region
be looked up with the same result if it is not given, and the changes be answered alike, while the
waits may be as patient as they like, may end either way, and may see anything or fail. Then both
make the same changes with the same results in the same order, and they end alike.

Only a watch with a policy that does not fit can break a creation off. One that is broken off before
the other one has made the first of the other one's changes. -/
theorem waits_decide_nothing {s s' : AdapterSettings} {name : String} {t : Template}
    {draws draws' : Draws} {T : Nat} {js js' : List Outcome}
    {r r' : Option (Except Error Created)}
    (h : Runs T (create s name t draws).run js r)
    (h' : Runs T (create s' name t draws').run js' r')
    (hlan : s.defaultLan = s'.defaultLan) (htype : s.volumeType = s'.volumeType)
    (hpassword : ∃ p, t.password = some p ∧ p ≠ "")
    (hregion : t.region = none → js.head? = js'.head?)
    (halike : AnsweredAlike (changes js) (changes js')) :
    StopsShort s.poll T js js' r ∨ StopsShort s'.poll T js' js r' ∨
      ∃ x x', r = some x ∧ r' = some x' ∧ changes js = changes js' ∧
        EndAlike t draws draws' js js' x x' := by
  obtain ⟨p, hp, hne⟩ := hpassword
  have hdraws : (t.credentials draws).password = (t.credentials draws').password := by
    simp [Template.credentials, hp, hne, Option.filter]
  unfold create at h h'
  cases hsizes : t.hardware.volumesGb with
  | nil =>
    rw [hsizes] at h h'
    obtain ⟨rfl, rfl⟩ := h.of_pure
    obtain ⟨rfl, rfl⟩ := h'.of_pure
    exact .inr (.inr ⟨_, _, rfl, rfl, rfl, .unbegun rfl (.inl hsizes)⟩)
  | cons bootSize sizes =>
    rw [hsizes] at h h'
    obtain ⟨before, found, after, hr, rfl, hc⟩ := h.of_bind
    obtain ⟨before', found', after', hr', rfl, hc'⟩ := h'.of_bind
    obtain ⟨region, rfl, hregionOf⟩ := hr.exists_of_looks (regionOf_looks t)
    obtain ⟨region', rfl, hregionOf'⟩ := hr'.exists_of_looks (regionOf_looks t)
    obtain rfl : region = region' := regionOf_eq hregionOf hregionOf' hregion
    have hreads := regionOf_asksOnly (fun _ => id) t
    have hchanges (ks : List Outcome) : changes (before ++ ks) = changes ks := by
      rw [changes_append, hr.changes_eq_nil hreads, List.nil_append]
    have hchanges' (ks : List Outcome) : changes (before' ++ ks) = changes ks := by
      rw [changes_append, hr'.changes_eq_nil hreads, List.nil_append]
    cases region with
    | error e =>
      obtain ⟨rfl, rfl⟩ := hc.of_pure
      obtain ⟨rfl, rfl⟩ := hc'.of_pure
      refine .inr (.inr ⟨_, _, rfl, rfl, by rw [hchanges, hchanges'], .unbegun (hchanges [])
        (.inr ?_)⟩)
      rw [List.append_nil]
      exact hregionOf
    | ok region =>
      rw [hchanges, hchanges'] at halike
      rw [StopsShort.congr (hchanges after) (hchanges' after'),
        StopsShort.congr (hchanges' after') (hchanges after), hchanges, hchanges']
      refine (createIn_runs hlan htype hdraws hc hc' halike).imp_right (.imp_right ?_)
      rintro ⟨x, x', hx, hx', hsame, ⟨stage, cause, rfl, rfl⟩ | ⟨server, skipped, hl, hl'⟩⟩
      · exact ⟨_, _, hx, hx', hsame, .failed stage cause⟩
      · exact ⟨x, x', hx, hx', hsame,
          .lookedUp server skipped (hl.prepend before) (hl'.prepend before')⟩

/-- Of two creations of one node, one sees everything become available, and the other sees nothing
but failures and gives up at once. Their region is looked up, the restart fails, and both get as far
as looking up the node. -/
theorem waits_decide_nothing_impatient :
    let t : Template :=
      { datacenter := "a", image := "i", hardware := ⟨1, 1024, [10, 20]⟩, password := some "p" }
    let server : Server := { id := "s", metadata := none, properties := {}, attachments := none }
    let result : (c : Call) → c.Result
      | .getDatacenter _ => .ok (some ⟨"a", none, { location := some "r" }⟩)
      | .createVolume .. => .ok ⟨"v", none, {}⟩
      | .createServer .. => .ok server
      | .createIpBlock _ => .ok ⟨"b", none, {}⟩
      | .createNic .. => .ok ⟨"c", none, {}⟩
      | .attachVolume .. => .ok ()
      | .getServer _ => .ok (some server)
      | _ => .error .request
    let run := (conversation result true (fun _ => []) (create {} "n" t fun _ => 0).run)
    let run' := (conversation result false (fun w => [⟨w.question.call, .error .request⟩])
      (create { poll := .ofSeconds 0 0 0, preRebootPause := 0 } "n" t fun _ => 1).run)
    (changes run.1).map (·.call.name) = ["create_volume", "create_volume", "create_server",
      "create_ip_block", "create_nic", "attach_volume", "reboot_server"] ∧
      run.1.length < run'.1.length ∧ changes run.1 = changes run'.1 ∧
      run.2.toOption.map (·.skipped.length) = some 1 ∧
      run'.2.toOption.map (·.skipped.length) = some 1 := by
  intro t server result run run'
  have hseen : ∀ w : Watch, ∀ o ∈ ([] : List Outcome), o.call.isChange = false := by simp
  have hseen' : ∀ w : Watch, ∀ o ∈ [(⟨w.question.call, .error .request⟩ : Outcome)],
      o.call.isChange = false := by
    intro w o ho
    obtain rfl := List.mem_singleton.mp ho
    rcases w with ⟨r, target⟩ | _ | _
    · cases r <;> rfl
    · rfl
    · rfl
  have h : Converses (create {} "n" t fun _ => 0).run run.1 run.2 :=
    converses_conversation result true _ hseen _
  have h' : Converses (create { poll := .ofSeconds 0 0 0, preRebootPause := 0 } "n" t
      fun _ => 1).run run'.1 run'.2 :=
    converses_conversation result false _ hseen' _
  have hhead : run.1.head? = some ⟨.getDatacenter "a", result (.getDatacenter "a")⟩ := rfl
  have hhead' : run'.1.head? = some ⟨.getDatacenter "a", result (.getDatacenter "a")⟩ := rfl
  have halike : AnsweredAlike (changes run.1) (changes run'.1) :=
    conversation_answeredAlike result hseen hseen' _ _
  have hsame : changes run.1 = changes run'.1 := by
    rcases waits_decide_nothing h h' rfl rfl ⟨"p", rfl, by decide⟩
      (fun _ => hhead.trans hhead'.symm) halike with hshort | hshort | ⟨_, _, -, -, hsame, -⟩
    · cases hshort.broken
    · cases hshort.broken
    · exact hsame
  exact ⟨by decide +kernel, by decide +kernel, hsame, by decide +kernel, by decide +kernel⟩

end LookUps

/-- Settings are accepted with which a creation of the same node in the same world stops after its
first change, where one with the settings that are given by default makes all of them. -/
theorem exists_wait_decides :
    ¬∀ (look look' : Lookup) (a a' : Settings) (w : World) (name : String) (t : Template)
      (draws : Draws), Settings.ofLookup look = .ok a → Settings.ofLookup look' = .ok a' →
      a.adapter.defaultLan = a'.adapter.defaultLan → a.adapter.volumeType = a'.adapter.volumeType →
      (∃ p, t.password = some p ∧ p ≠ "") → w.backend.rules = [] → w.queue.IsIdle →
      w.queue.closed = false →
      (w.run? (create a.adapter name t draws).run).2.backend.changes =
        (w.run? (create a'.adapter name t draws).run).2.backend.changes := by
  intro hall
  let entries := [("PROFITBRICKS_USERNAME", "alice"), ("PROFITBRICKS_PASSWORD", "s3cret")]
  let entries' := ("PROFITBRICKS_POLL_TIMEOUT_SECS", "18446744073709551615") :: entries
  let adapter : AdapterSettings := { poll := .ofSeconds 18446744073709551615 2 5 }
  let w : World := { backend := { cloud := (({} : MemoryCloud).addDatacenter "de/fra").2 } }
  let t : Template :=
    { datacenter := "dc-1", image := "img-1", password := some "secret"
      hardware := ⟨1, 1024, [10]⟩ }
  let a : Settings := ⟨"alice", "s3cret", defaultEndpoint, {}⟩
  let a' : Settings := ⟨"alice", "s3cret", defaultEndpoint, adapter⟩
  have haccepted : Settings.ofLookup (fun key => entries.lookup key) = .ok a := by decide +kernel
  have haccepted' : Settings.ofLookup (fun key => entries'.lookup key) = .ok a' := by
    decide +kernel
  have hdefault : (w.run? (create a.adapter "n" t fun _ => 0).run).2.backend.changes.map
      Call.name = ["create_volume", "create_server", "create_ip_block", "create_nic",
        "reboot_server"] := by
    decide +kernel
  have hfirst : (w.run? (create a'.adapter "n" t fun _ => 0).run).2.backend.changes.map
      Call.name = ["create_volume"] := by
    decide +kernel
  have hsame := hall _ _ a a' w "n" t (fun _ => 0) haccepted haccepted' rfl rfl
    ⟨"secret", rfl, by decide⟩ rfl JobQueue.isIdle_empty rfl
  rw [hsame, hfirst] at hdefault
  cases hdefault

end ComputePlane.Lifecycle
