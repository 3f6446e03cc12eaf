import ComputePlane.Proofs.Lifecycle.Destruction
import ComputePlane.Proofs.World.Watching
import ComputePlane.Settings

/-!
# Destroying any node

A destruction that finds its server makes all its deletes, whatever each of them answers, and then
asks for the server until it is gone or the deadline has come (`destroy_outcome`). What it leaves of
the cloud lacks some of the volumes that the server lists, and the server at most. There are
settings with which a destruction does not come to the deadline: its watch overflows, and so it has
no result (`exists_destroy_broken`).
-/

namespace ComputePlane.Lifecycle

open Program World MemoryCloud

variable {s : AdapterSettings} {text : String} {id : NodeId} {server : Server} {w w' : World}
  {r : Option (Except Error Unit)}

/-! ## The deletes -/

/-- The deletes of a destruction take effect in part. -/
theorem content_deletes (c : MemoryCloud) (id : NodeId) (volumes : List String) :
    ∃ deleted, deleted.Sublist volumes ∧
      ((c.calls (deletes id volumes)).content = c.content.withoutVolumes id.datacenter deleted ∨
        (c.calls (deletes id volumes)).content =
          (c.content.withoutVolumes id.datacenter deleted).withoutServer id) := by
  obtain ⟨deleted, hsub, hvolumes⟩ := c.calls_deleteVolumes id.datacenter volumes
  refine ⟨deleted, hsub, ?_⟩
  rw [deletes, calls_append, ← hvolumes]
  exact call_deleteServer _ id

/-! ## Without a server -/

/-- A text that names no node is refused before any call is made. -/
theorem run?_destroy_of_invalid (h : NodeId.ofText? text = none) (s : AdapterSettings) (w : World) :
    w.run? (destroy s text).run = (some (.error (.invalidId
      ("expected <datacenterId>/<serverId>, got " ++ Text.quoted text))), w) := by
  unfold destroy
  rw [NodeId.parse_of_none h]
  rfl

/-- A destruction that finds no server is over: it fails as the look-up did, or has nothing to
destroy. -/
theorem run?_destroy_of_unfound (hid : NodeId.parse text = .ok id)
    {found : Except Error (Option Server)} (hfound : (w.call (.getServer id)).1 = found)
    (hnone : ∀ server, found ≠ .ok (some server)) (s : AdapterSettings) :
    w.run? (destroy s text).run = (some (found.map fun _ => ()), (w.call (.getServer id)).2) := by
  unfold destroy
  rw [hid]
  change (w.call (.getServer id)).2.run? (ExceptT.bindCont _ (w.call (.getServer id)).1) = _
  rw [hfound]
  match found, hnone with
  | .error e, _ => rfl
  | .ok none, _ => rfl
  | .ok (some server), hnone => exact absurd rfl (hnone server)

/-! ## With a server -/

/-- What the destruction of a node comes to whose server has been found: its result, unless its
watch overflows, and the world then. -/
structure Destroys (s : AdapterSettings) (text : String) (id : NodeId) (server : Server)
    (w : World) (result : Option (Except Error Unit)) (w' : World) : Prop where
  /-- Every listed volume is deleted in order, then the server; after that come only look-ups, at
  the times of the schedule up to the deadline. -/
  makes : ∃ polls, polls <+: s.poll.schedule w.now ∧ (∀ t ∈ polls, t ≤ s.poll.limit w.now) ∧
    w.Makes ((.getServer id :: deletes id (server.volumes.map (·.id))).map (⟨w.now, ·⟩) ++
      polls.map (⟨·, .getServer id⟩)) w'
  /-- It succeeds exactly if a clock can show the deadline and a look-up until then tells that the
  server is gone. -/
  ok_iff : result = some (.ok ()) ↔ w.now * millisecond + s.poll.timeout < clockLimit ∧
    ∃ k < (s.poll.schedule w.now).length,
      (w.backend.cloud.calls (.getServer id :: deletes id (server.volumes.map (·.id)))).askedAgain
        (.getServer id) k = .ok none
  error : result ≠ some (.ok ()) → s.poll.Fits w.now →
    result =
      some (.error (.invariantViolation ("server " ++ text ++ " still present after delete")))
  /-- A policy that does not fit breaks it off. -/
  broken : result ≠ some (.ok ()) → ¬s.poll.Fits w.now → result = none
  /-- Nothing is different but that listed volumes and the server can be gone. -/
  content : ∃ deleted, deleted.Sublist (server.volumes.map (·.id)) ∧
    (w'.content = w.content.withoutVolumes id.datacenter deleted ∨
      w'.content = (w.content.withoutVolumes id.datacenter deleted).withoutServer id)

theorem holds_gone {r : Except Error (Option Server)} :
    (Watch.gone id).question.holds r = true ↔ r = .ok none := by
  rcases r with e | _ | server <;> simp [Watch.question]

/-- What is read before and after the deletes is the same as if there were the deletes alone. -/
theorem content_looked_up (c : MemoryCloud) (cs : List Call) (polls : List Nat) :
    ∃ d : MemoryCloud, d.content = c.content ∧
      (c.calls (.getServer id :: cs ++ polls.map fun _ => .getServer id)).content =
        (d.calls cs).content := by
  refine ⟨(c.call (.getServer id)).2, (c.answers_call (.getServer id)).eq_of_read rfl, ?_⟩
  rw [calls_append, content_calls, calls_cons]
  intro call hcall
  obtain ⟨-, -, rfl⟩ := List.mem_map.mp hcall
  rfl

theorem removed_eq_ok_iff {e : PollEnd} : removed text e = some (.ok ()) ↔ e = .reached := by
  cases e <;> simp [removed]

theorem destroys (h : w.Ready) (hid : NodeId.parse text = .ok id)
    (hfound : (w.call (.getServer id)).1 = .ok (some server)) (s : AdapterSettings) :
    Destroys s text id server w (w.run? (destroy s text).run).1
      (w.run? (destroy s text).run).2 := by
  rw [run?_destroy hid hfound s]
  obtain ⟨-, hnow, hlookedUp⟩ := h.call (.getServer id)
  obtain ⟨hnow', hdeleted⟩ := makes_remove hlookedUp.ready id (server.volumes.map (·.id))
  rw [hnow] at hnow' hdeleted
  generalize hcs : deletes id (server.volumes.map (·.id)) = cs at hdeleted
  generalize ((w.call (.getServer id)).2.run (remove id _)).2 = w₁ at *
  have hremoved : w.Makes ((.getServer id :: cs).map (⟨w.now, ·⟩)) w₁ := hlookedUp.trans hdeleted
  obtain ⟨polls, hpolls, hwatched, hgone, hover⟩ := hremoved.ready.await (.gone id) s.poll
  have hcloud : w₁.backend.cloud = w.backend.cloud.calls (.getServer id :: cs) := by
    rw [hremoved.cloud, List.map_map]
    exact congrArg _ (List.map_id _)
  rw [hnow', hcloud] at hgone
  rw [hnow'] at hpolls hover
  have hmakes := hremoved.trans hwatched
  generalize w₁.watch (.gone id) s.poll = watched at *
  refine ⟨⟨polls, hpolls, fun t ht => (PollPolicy.mem_schedule (hpolls.subset ht)).2, ?_⟩,
    ?ok, ?error, ?broken, ?content⟩
  · rw [hcs]
    exact hmakes
  case ok =>
    rw [hcs, removed_eq_ok_iff]
    exact hgone.trans (and_congr_right fun _ => exists_congr fun k =>
      and_congr_right fun _ => holds_gone)
  case error =>
    intro hfails hfits
    rw [Ne, removed_eq_ok_iff] at hfails
    cases hend : watched.1 with
    | reached => exact absurd hend hfails
    | timedOut => rfl
    | overflow => exact absurd hfits (hover.mp hend).2
  case broken =>
    intro hfails hfits
    rw [Ne, removed_eq_ok_iff] at hfails
    rw [hover.mpr ⟨hfails, hfits⟩]
    rfl
  case content =>
    obtain ⟨c, hc, hcontent⟩ := content_looked_up w.backend.cloud cs polls
    obtain ⟨deleted, hsub, hleft⟩ := content_deletes c id (server.volumes.map (·.id))
    rw [hcs, hc, ← hcontent] at hleft
    have hfinal : watched.2.backend.cloud =
        w.backend.cloud.calls (.getServer id :: cs ++ polls.map fun _ => .getServer id) := by
      rw [hmakes.cloud, List.map_append, List.map_map, List.map_map]
      exact congrArg _ (congrArg (· ++ _) (List.map_id _))
    refine ⟨deleted, hsub, ?_⟩
    show watched.2.backend.cloud.content = _ ∨ watched.2.backend.cloud.content = _
    rw [hfinal]
    exact hleft

/-- What the destruction of a node comes to: a text that names no node is refused, a failure to look
up the server is passed on, a server that is not there needs nothing, and any other is destroyed. -/
theorem destroy_outcome (h : w.Ready) (hrun : w.run? (destroy s text).run = (r, w')) :
    (NodeId.ofText? text = none → r = some (.error (.invalidId
      ("expected <datacenterId>/<serverId>, got " ++ Text.quoted text))) ∧ w' = w) ∧
    ∀ id, NodeId.ofText? text = some id →
      (∀ e, (w.backend.cloud.call (.getServer id)).1 = .error e →
        r = some (.error e) ∧ w.Makes [⟨w.now, .getServer id⟩] w' ∧ w'.content = w.content) ∧
      ((w.backend.cloud.call (.getServer id)).1 = .ok none →
        r = some (.ok ()) ∧ w.Makes [⟨w.now, .getServer id⟩] w' ∧ w'.content = w.content) ∧
      ∀ server, (w.backend.cloud.call (.getServer id)).1 = .ok (some server) →
        Destroys s text id server w r w' := by
  constructor
  · intro hinvalid
    rw [run?_destroy_of_invalid hinvalid] at hrun
    cases hrun
    exact ⟨rfl, rfl⟩
  · intro id hid
    have hparse := NodeId.parse_eq_ok_iff.mpr hid
    obtain ⟨hlookup, -, hmade⟩ := h.call (.getServer id)
    have hcontent : (w.call (.getServer id)).2.content = w.content :=
      (answers_call h.rules (.getServer id)).eq_of_read rfl
    rw [← hlookup]
    refine ⟨fun e hfound => ?_, fun hfound => ?_, fun server hfound => ?_⟩
    · rw [run?_destroy_of_unfound hparse hfound fun _ h => nomatch h] at hrun
      cases hrun
      exact ⟨rfl, hmade, hcontent⟩
    · rw [run?_destroy_of_unfound hparse hfound fun _ h => nomatch h] at hrun
      cases hrun
      exact ⟨rfl, hmade, hcontent⟩
    · have hdestroys := destroys h hparse hfound s
      rwa [hrun] at hdestroys

/-- The delete of the first volume fails, and so does the first look-up after the deletes. The
server is gone all the same; another one has lost the second volume. -/
theorem destroy_outcome_failures :
    let target : StoredServer :=
      ⟨⟨"dc-1", "srv-4"⟩, "a", 1, 1024, .available, .running, ["vol-2", "vol-3"], []⟩
    let other : StoredServer :=
      ⟨⟨"dc-1", "srv-5"⟩, "b", 1, 1024, .available, .running, ["vol-3", "vol-2"], []⟩
    let cloud : MemoryCloud :=
      { datacenters := [("dc-1", "de/fra")]
        volumes := ["vol-2", "vol-3"].map fun v =>
          ⟨"dc-1", v, v, Number.singleOfNat 10, .available, none⟩
        servers := [target, other]
        failures := [("delete_volume", 1), ("get_server", 2)] }
    let w : World := { backend := { cloud } }
    let s : AdapterSettings := { poll := ⟨5000000, 2000000, 3000000⟩ }
    let w' := (w.run? (destroy s "dc-1/srv-4").run).2
    Destroys s "dc-1/srv-4" target.id (cloud.tellServer target) w (some (.ok ())) w' ∧
      w'.backend.log.map (fun l => (l.time, l.call.text)) =
        [(0, "get_server dc-1/srv-4"), (0, "delete_volume dc-1/vol-2"),
          (0, "delete_volume dc-1/vol-3"), (0, "delete_server dc-1/srv-4"),
          (0, "get_server dc-1/srv-4"), (2, "get_server dc-1/srv-4")] ∧
      w'.backend.cloud.volumes.map (·.id) = ["vol-2"] ∧
      w'.backend.cloud.servers = [{ other with volumes := ["vol-2"] }] := by
  intro target other cloud w s w'
  have hready : w.Ready := ⟨rfl, JobQueue.isIdle_empty, rfl⟩
  have hid : NodeId.ofText? "dc-1/srv-4" = some target.id := by decide +kernel
  have hfound : (w.backend.cloud.call (.getServer target.id)).1 =
      .ok (some (cloud.tellServer target)) := by decide +kernel
  have hok : (w.run? (destroy s "dc-1/srv-4").run).1 = some (.ok ()) := by decide +kernel
  have hrun : w.run? (destroy s "dc-1/srv-4").run = (some (.ok ()), w') := by rw [← hok]
  obtain ⟨-, hdestroys⟩ := destroy_outcome hready hrun
  refine ⟨(hdestroys _ hid).2.2 _ hfound, ?_, ?_, ?_⟩ <;> decide +kernel

/-- Settings are accepted with which the destruction of a server that is there has no result: no
clock can show the deadline of its watch. -/
theorem exists_destroy_broken :
    ¬∀ (look : Lookup) (settings : Settings) (w : World) (text : String),
      Settings.ofLookup look = .ok settings → w.Ready →
        (w.run? (destroy settings.adapter text).run).1 ≠ none := by
  intro hall
  let entries := [("PROFITBRICKS_USERNAME", "alice"), ("PROFITBRICKS_PASSWORD", "s3cret"),
    ("PROFITBRICKS_POLL_TIMEOUT_SECS", "18446744073709551615")]
  let adapter : AdapterSettings :=
    ⟨.ofSeconds 18446744073709551615 2 5, 1, 5 * second, 30 * second, 10, .hdd⟩
  let server : StoredServer :=
    ⟨⟨"dc-1", "srv-2"⟩, "a", 1, 1024, .available, .running, [], []⟩
  let cloud : MemoryCloud := { datacenters := [("dc-1", "de/fra")], servers := [server] }
  let w : World := { backend := { cloud } }
  have haccepted : Settings.ofLookup (fun key => entries.lookup key) =
      .ok ⟨"alice", "s3cret", defaultEndpoint, adapter⟩ := by decide +kernel
  have hready : w.Ready := ⟨rfl, JobQueue.isIdle_empty, rfl⟩
  have hid : NodeId.parse "dc-1/srv-2" = .ok server.id := by decide +kernel
  have hfound : (w.call (.getServer server.id)).1 = .ok (some (cloud.tellServer server)) := by
    decide +kernel
  have hclock : ¬w.now * millisecond + adapter.poll.timeout < clockLimit := by decide +kernel
  have hdestroys := destroys hready hid hfound adapter
  exact hall _ _ w "dc-1/srv-2" haccepted hready
    (hdestroys.broken (fun hok => hclock (hdestroys.ok_iff.mp hok).1) fun hfits =>
      hclock hfits.lt_clockLimit)

end ComputePlane.Lifecycle
