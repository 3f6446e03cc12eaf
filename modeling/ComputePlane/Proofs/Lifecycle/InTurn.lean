import ComputePlane.Proofs.Lifecycle.Listing
import ComputePlane.Proofs.World.InTurn

/-!
# Listings as plain loops

The listings that look many things up at once give what loops over the datacenters or the ids give
that make one read after the other (`listings_in_turn`). The reads may fail by their numbers and
take as long as they like, and how many of them are in flight makes no difference.
-/

namespace ComputePlane.Lifecycle

open Program World

variable {α β : Type} {w : World} {s : AdapterSettings}

/-! ## Loops -/

def listNodesOf (dc : String) : Operation (List Node) := do
  return (← call (.listServers dc)).map (⟨·, dc⟩)

/-- The nodes of all datacenters, one datacenter after the other. -/
def listNodesInTurn : Operation (List Node) := do
  let ids ← datacenterIds
  return (← ids.mapM listNodesOf).flatten

/-- All datacenters as locations, one after the other, without those that have vanished. -/
def listLocationsInTurn : Operation (List Location) := do
  let ids ← datacenterIds
  return (← ids.mapM fun dc => call (.getDatacenter dc)).reduceOption.map Datacenter.toLocation

/-- The nodes of the given ids, one after the other. -/
def listNodesByIdsInTurn (texts : List String) : Operation (List Node) :=
  texts.mapM getNode

/-! ## Single keys -/

theorem isLookup_getDatacenter : IsLookup .locations fun dc => call (.getDatacenter dc) :=
  fun _ _ => ⟨rfl, rfl⟩

theorem isLookup_listNodesOf : IsLookup .servers listNodesOf := by
  intro w dc
  have hrun : w.run (call (.listServers dc)).run = w.call (.listServers dc) := rfl
  have hask : Topic.servers.ask w.backend w.now dc =
      ((w.call (.listServers dc)).1.map (·.map (⟨·, dc⟩)),
        (w.call (.listServers dc)).2.backend) := rfl
  rw [hask, listNodesOf]
  generalize w.call (.listServers dc) = answer at hrun ⊢
  obtain ⟨r, w'⟩ := answer
  cases r with
  | error e => rw [run_bind_of_error hrun]; exact ⟨rfl, rfl⟩
  | ok servers => rw [run_bind_of_ok hrun]; exact ⟨rfl, rfl⟩

theorem isLookup_getNode : IsLookup .nodes getNode := by
  intro w text
  cases hid : NodeId.ofText? text with
  | none =>
    rw [run_getNode_of_invalid hid]
    simp only [Topic.ask, Topic.lookup, NodeId.parse_of_none hid]
    exact ⟨rfl, rfl⟩
  | some id =>
    rw [run_getNode hid]
    simp only [Topic.ask, Topic.lookup, NodeId.parse_eq_ok_iff.mpr hid]
    exact ⟨rfl, rfl⟩

/-! ## Whole listings -/

/-- Operations that go on alike after the ids of the datacenters have the same result. -/
theorem run_datacenterIds_congr {f g : List String → Operation α}
    (h : ∀ w' : World, Backend.OnlyRead w.backend w'.backend →
      ∀ ids, (w'.run (f ids).run).1 = (w'.run (g ids).run).1) :
    (w.run (datacenterIds >>= f).run).1 = (w.run (datacenterIds >>= g).run).1 := by
  have hread : datacenterIds.run.AsksOnly (isRead · = true) :=
    .run_bind (.ask rfl) fun _ => .pure _
  have honly := (onlyRead_run hread w).1
  generalize hids : w.run datacenterIds.run = first at honly
  obtain ⟨r, w'⟩ := first
  cases r with
  | error e => rw [run_bind_of_error hids, run_bind_of_error hids]
  | ok ids => rw [run_bind_of_ok hids, run_bind_of_ok hids, h w' honly ids]

/-- What is made of a result depends on it alone. -/
theorem run_bind_pure_congr {x y : Operation α} (h : (w.run x.run).1 = (w.run y.run).1)
    (f : α → β) :
    (w.run (x >>= fun a => pure (f a)).run).1 = (w.run (y >>= fun a => pure (f a)).run).1 := by
  have hmap : ∀ x : Operation α,
      (w.run (x >>= fun a => pure (f a)).run).1 = (w.run x.run).1.map f := by
    intro x
    generalize hx : w.run x.run = result
    obtain ⟨r, w'⟩ := result
    cases r with
    | error e => rw [run_bind_of_error hx]; rfl
    | ok a => rw [run_bind_of_ok hx]; rfl
  rw [hmap x, hmap y, h]

/-- Whatever the rules do to the reads and however many of these are in flight, a listing gives what
the loop gives, if reads fail by the numbers that they have when they are made. -/
theorem listings_in_turn (w : World) (s : AdapterSettings) (hwidth : 0 < s.userThreads) :
    (w.backend.NumbersAtOnce "list_servers" →
      (w.run (listNodes s).run).1 = (w.run listNodesInTurn.run).1) ∧
    (w.backend.NumbersAtOnce "get_datacenter" →
      (w.run (listLocations s).run).1 = (w.run listLocationsInTurn.run).1) ∧
    (w.backend.NumbersAtOnce "get_server" → ∀ texts,
      (w.run (listNodesByIds s texts).run).1 = (w.run (listNodesByIdsInTurn texts).run).1) := by
  refine ⟨fun hnumbered => ?_, fun hnumbered => ?_, fun hnumbered texts => ?_⟩
  · exact run_datacenterIds_congr fun w' hread ids => run_bind_pure_congr
      (gather_in_turn isLookup_listNodesOf (hnumbered.of_onlyRead hread) hwidth ids) List.flatten
  · exact run_datacenterIds_congr fun w' hread ids => run_bind_pure_congr
      (gather_in_turn isLookup_getDatacenter (hnumbered.of_onlyRead hread) hwidth ids)
      fun found => found.reduceOption.map Datacenter.toLocation
  · exact gather_in_turn isLookup_getNode hnumbered hwidth texts

/-- The listing of the second datacenter fails after the one of the third has failed and before the
one of the first is there, and still it is this failure that ends the listing of the nodes.
Datacenters that have vanished are left out, and nodes come in the order of their ids. -/
theorem listings_in_turn_delayed :
    let cloud : MemoryCloud := (((({} : MemoryCloud).addDatacenter "de/fra").2.addServer "dc-1" "a"
      .running []).2.addServer "dc-9" "b" .shutoff []).2
    let datacenters : Json :=
      .array (["dc-1", "dc-8", "dc-9"].map fun id => .record [("id", .text id)])
    let rules : List Rule :=
      [{ call := "list_datacenters", reply := some datacenters },
        { call := "list_servers", last := some 1, delay := 30 },
        { call := "list_servers", first := 2, last := some 2, delay := 20,
          failure := some (.backend "second") },
        { call := "list_servers", first := 3, delay := 10, failure := some (.backend "third") },
        { call := "get_datacenter", last := some 1, delay := 20 },
        { call := "get_server", last := some 1, delay := 20 }]
    let w : World := { backend := { cloud, rules } }
    let s : AdapterSettings := { userThreads := 3 }
    (w.run (listNodes s).run).1 = .error (.backend "second") ∧
      (w.run (listLocations s).run).1.toOption.map (·.map (·.id)) = some ["dc-1"] ∧
      (w.run (listNodesByIds s ["dc-9/srv-3", "dc-1/srv-2"]).run).1.toOption.map
        (·.map (·.id.text)) = some ["dc-9/srv-3", "dc-1/srv-2"] := by
  intro cloud datacenters rules w s
  obtain ⟨hnodes, hlocations, hbyIds⟩ := listings_in_turn w s (by decide)
  refine ⟨?_, ?_, ?_⟩
  · rw [hnodes (.inl fun n hn => by cases hn)]
    rfl
  · rw [hlocations (.inl fun n hn => by cases hn)]
    decide +kernel
  · rw [hbyIds (.inl fun n hn => by cases hn)]
    decide +kernel

end ComputePlane.Lifecycle
