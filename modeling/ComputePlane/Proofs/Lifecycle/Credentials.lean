import ComputePlane.Proofs.Lifecycle.Steps
import ComputePlane.Proofs.Program.Converse

/-!
# The password of a new node

A creation orders its volumes one after another, then its server, and nothing more
(`create_orders`). The password goes with the order of the first volume, and it is the one that is
given back beside the node; the server is ordered with the volume that came of that first order
(`returned_password_of_boot`). Nothing is assumed about the answers.
-/

namespace ComputePlane.Lifecycle

open Program Number

variable {s : AdapterSettings} {name : String} {t : Template} {draws : Draws} {js : List Outcome}

/-! ## Orders -/

def ordersVolume : Call → Bool
  | .createVolume .. => true
  | _ => false

def ordersServer : Call → Bool
  | .createServer .. => true
  | _ => false

theorem ordersServer_of_ordersVolume {c : Call} (h : ordersVolume c = true) :
    ordersServer c = false := by
  cases c <;> first | rfl | cases h

def isOrder (c : Call) : Bool := ordersVolume c || ordersServer c

/-- The orders among some calls. -/
def orders (js : List Outcome) : List Outcome := js.filter (isOrder ·.call)

def volumeOrders (js : List Outcome) : List Outcome := js.filter (ordersVolume ·.call)

def serverOrders (js : List Outcome) : List Outcome := js.filter (ordersServer ·.call)

theorem orders_append (js ks : List Outcome) : orders (js ++ ks) = orders js ++ orders ks :=
  List.filter_append ..

theorem volumeOrders_eq (js : List Outcome) : volumeOrders js = volumeOrders (orders js) := by
  rw [volumeOrders, volumeOrders, orders, List.filter_filter]
  exact List.filter_congr fun o _ => by cases h : ordersVolume o.call <;> simp [isOrder, h]

theorem serverOrders_eq (js : List Outcome) : serverOrders js = serverOrders (orders js) := by
  rw [serverOrders, serverOrders, orders, List.filter_filter]
  exact List.filter_congr fun o _ => by cases h : ordersServer o.call <;> simp [isOrder, h]

theorem isOrder_of_read {c : Call} (h : c.isChange = false) : (!isOrder c) = true := by
  cases c <;> first | rfl | cases h

/-- A request that orders nothing. -/
def asksNoOrder (r : Request) : Bool := (call? r).all fun c => !isOrder c

theorem asksNoOrder_of_isRead {r : Request} (h : isRead r = true) : asksNoOrder r = true :=
  all_call?_of_isRead (fun _ => isOrder_of_read) h

theorem orders_eq_nil {α : Type} {x : Program α} {a : α}
    (hx : x.AsksOnly (asksNoOrder · = true)) (h : Converses x js a) : orders js = [] := by
  refine List.filter_eq_nil_iff.mpr fun o ho => ?_
  have hno := Runs.forall_calls (fun _ => isOrder_of_read) hx h o ho
  simpa using hno

/-! ## The orders of each step -/

theorem converses_attempt {stage : Stage} {resource : Option String} {dc : String} {c : Call}
    {r : Except Skipped c.Answer} (h : Converses (attempt stage resource dc c) js r) :
    ∃ result, js = [⟨c, result⟩] := by
  obtain ⟨js₁, result, js₂, h₁, h₂, rfl⟩ := h.of_bind
  obtain rfl := h₁.of_submit
  cases result <;> obtain ⟨rfl, -⟩ := h₂.of_pure <;> exact ⟨_, rfl⟩

/-- The volumes are ordered one after another, whatever becomes of them. -/
theorem converses_createVolumes {dc : String} {request : Nat → Nat → VolumeRequest} {i : Nat}
    {sizes : List Nat} {r : List String × List Skipped}
    (h : Converses (createVolumes dc request i sizes) js r) :
    js.map (·.call) = (sizes.zipIdx i).map fun p => .createVolume dc (request p.2 p.1) := by
  induction sizes generalizing i js r with
  | nil =>
    obtain ⟨rfl, -⟩ := h.of_pure
    rfl
  | cons size sizes ih =>
    obtain ⟨js₁, made, js₂, h₁, h₂, rfl⟩ := h.of_bind
    obtain ⟨result, rfl⟩ := converses_attempt h₁
    obtain ⟨js₃, rest, js₄, h₃, h₄, rfl⟩ := h₂.of_bind
    have hrest : js₄ = [] := by
      cases made <;> exact h₄.of_pure.1
    rw [hrest, List.append_nil, List.map_append, ih h₃]
    rfl

theorem deletes_asksNoOrder {dc : String} {made : Made} {u : Call} (hu : u ∈ made.deletes dc) :
    asksNoOrder (.submit dc u) = true := by
  simp only [Made.deletes, List.mem_append, List.mem_map] at hu
  rcases hu with (⟨id, -, rfl⟩ | ⟨id, -, rfl⟩) | ⟨id, -, rfl⟩ <;> rfl

/-- If a critical change fails, what is done about it orders nothing. -/
theorem converses_critical {stage : Stage} {dc : String} {made : Made} {c : Call}
    {r : Except Error c.Answer} (hc : isOrder c = true)
    (h : Converses (critical stage dc made c).run js r) :
    (∃ a, r = .ok a ∧ orders js = [⟨c, .ok a⟩]) ∨
      ∃ e err, r = .error err ∧ orders js = [⟨c, .error e⟩] := by
  obtain ⟨js₁, result, js₂, h₁, h₂, rfl⟩ := Converses.of_bind h
  obtain rfl := h₁.of_submit
  have hhead : orders (⟨c, result⟩ :: js₂) = ⟨c, result⟩ :: orders js₂ :=
    List.filter_cons_of_pos hc
  rw [List.singleton_append, hhead]
  cases result with
  | ok a =>
    obtain ⟨rfl, rfl⟩ := h₂.of_pure
    exact .inl ⟨a, rfl, rfl⟩
  | error e =>
    obtain ⟨undo, _, js₃, h₃, h₄, rfl⟩ := Converses.of_lift_bind h₂
    obtain ⟨rfl, rfl⟩ := Converses.of_pure h₄
    rw [List.append_nil, orders_eq_nil (bestEffortAll_asksOnly fun _ => deletes_asksNoOrder) h₃]
    exact .inr ⟨e, _, rfl, rfl⟩

/-- Nothing is ordered for the network of a node. -/
theorem createNetwork_asksNoOrder (s : AdapterSettings) (t : Template) (name region : String)
    (server : NodeId) (volumes : List String) :
    (createNetwork s t name region server volumes).run.AsksOnly (asksNoOrder · = true) :=
  .run_bind (critical_asksOnly rfl fun _ => deletes_asksNoOrder) fun _ =>
    .run_bind (critical_asksOnly rfl fun _ => deletes_asksNoOrder) fun _ =>
    .run_bind (.run_lift (awaitAvailable_asksOnly (fun _ => asksNoOrder_of_isRead) s _)) fun _ =>
    .run_lift (createRules_asksOnly name (fun _ => rfl) _)

/-- Nothing is ordered once the server is there. -/
theorem settle_asksNoOrder (s : AdapterSettings) (server : NodeId) (extra : List String) :
    (settle s server extra).AsksOnly (asksNoOrder · = true) :=
  settle_asksOnly (fun _ => asksNoOrder_of_isRead) s extra (fun _ => rfl) (fun _ => rfl) rfl

/-! ## The orders of a creation -/

/-- The order of a volume of a new node: its size, and its number counted from one. -/
abbrev volumeOrder (s : AdapterSettings) (name : String) (t : Template) (draws : Draws)
    (volume : Nat × Nat) : Call :=
  .createVolume t.datacenter
    (volumeRequest s t name (t.credentials draws).password volume.2 volume.1)

/-- The order of the server of a new node. -/
abbrev serverOrder (name : String) (t : Template) (boot : Volume) : Call :=
  .createServer t.datacenter (serverRequest t name boot.id)

/-- What a creation orders, with what became of it, and what it gives in the end. -/
inductive Orders (s : AdapterSettings) (name : String) (t : Template) (draws : Draws)
    (bootSize : Nat) (sizes : List Nat) : List Outcome → Except Error Created → Prop
  /-- The first volume fails. -/
  | noBoot (e err : Error) :
      Orders s name t draws bootSize sizes
        [⟨volumeOrder s name t draws (bootSize, 1), .error e⟩] (.error err)
  /-- The server is ordered with the first volume, but it fails. -/
  | noServer (boot : Volume) (extra : List Outcome) (e err : Error)
      (hextra : extra.map (·.call) = (sizes.zipIdx 2).map (volumeOrder s name t draws)) :
      Orders s name t draws bootSize sizes
        (⟨volumeOrder s name t draws (bootSize, 1), .ok boot⟩ ::
          (extra ++ [⟨serverOrder name t boot, .error e⟩])) (.error err)
  /-- The server is made with the first volume. -/
  | server (boot : Volume) (extra : List Outcome) (made : Server) (r : Except Error Created)
      (hextra : extra.map (·.call) = (sizes.zipIdx 2).map (volumeOrder s name t draws))
      (hr : ∀ created, r = .ok created → created.credentials = t.credentials draws) :
      Orders s name t draws bootSize sizes
        (⟨volumeOrder s name t draws (bootSize, 1), .ok boot⟩ ::
          (extra ++ [⟨serverOrder name t boot, .ok made⟩])) r

theorem ordersVolume_of_map {extra : List Outcome} {volumes : List (Nat × Nat)}
    (h : extra.map (·.call) = volumes.map (volumeOrder s name t draws)) :
    ∀ o ∈ extra, ordersVolume o.call = true := by
  intro o ho
  have hcall : o.call ∈ volumes.map (volumeOrder s name t draws) :=
    h ▸ List.mem_map_of_mem ho
  obtain ⟨volume, -, hv⟩ := List.mem_map.mp hcall
  rw [← hv]
  rfl

theorem orders_of_ordersVolume {extra : List Outcome}
    (h : ∀ o ∈ extra, ordersVolume o.call = true) : orders extra = extra :=
  List.filter_eq_self.mpr fun o ho => by simp [isOrder, h o ho]

theorem serverOrders_of_ordersVolume {extra : List Outcome}
    (h : ∀ o ∈ extra, ordersVolume o.call = true) : serverOrders extra = [] := by
  refine List.filter_eq_nil_iff.mpr fun o ho => ?_
  rw [ordersServer_of_ordersVolume (h o ho)]
  exact Bool.false_ne_true

/-- Once its server is there, a creation orders nothing more and gives the credentials that it began
with. -/
theorem converses_finish {region : String} {server : NodeId} {volumes extra : List String}
    {notMade : List Skipped} {r : Except Error Created}
    (h : Converses (finish s name t draws region server volumes extra notMade).run js r) :
    orders js = [] ∧ ∀ created, r = .ok created → created.credentials = t.credentials draws := by
  have hread : ∀ q, isRead q = true → asksNoOrder q = true := fun _ => asksNoOrder_of_isRead
  constructor
  · exact orders_eq_nil (.run_bind (.run_lift (awaitAvailable_asksOnly hread s _)) fun _ =>
      .run_bind (.run_lift (awaitAvailable_asksOnly hread s _)) fun _ =>
      .run_bind (createNetwork_asksNoOrder s t name region server volumes) fun _ =>
      .run_bind (.run_lift (settle_asksNoOrder s server extra)) fun _ =>
      .run_bind (getNode_asksOnly hread _) fun _ => .pure _) h
  · rintro created rfl
    obtain ⟨_, _, _, -, h, -⟩ := Converses.of_lift_bind h
    obtain ⟨_, _, _, -, h, -⟩ := Converses.of_lift_bind h
    obtain ⟨_, ⟨⟩, -⟩ | ⟨_, notOpened, _, -, h, -⟩ := Converses.of_run_bind h
    obtain ⟨_, notSettled, _, -, h, -⟩ := Converses.of_lift_bind h
    obtain ⟨_, ⟨⟩, -⟩ | ⟨_, node, _, -, h, -⟩ := Converses.of_run_bind h
    cases (Converses.of_pure h).2
    rfl

theorem createIn_orders {bootSize : Nat} {sizes : List Nat} {region : String}
    {r : Except Error Created}
    (h : Converses (createIn s name t draws bootSize sizes region).run js r) :
    Orders s name t draws bootSize sizes (orders js) r := by
  rcases Converses.of_run_bind h with ⟨err, rfl, h₁⟩ | ⟨js₁, boot, js', h₁, hvolumes, rfl⟩
  · obtain ⟨_, ⟨⟩, -⟩ | ⟨e, _, -, horders⟩ := converses_critical rfl h₁
    rw [horders]
    exact .noBoot e err
  obtain ⟨_, ⟨⟩, hboot⟩ | ⟨_, _, ⟨⟩, -⟩ := converses_critical rfl h₁
  obtain ⟨extra, ⟨ids, notMade⟩, js', h₂, hwait, rfl⟩ := Converses.of_lift_bind hvolumes
  have hextra := converses_createVolumes h₂
  obtain ⟨reads, _, js', h₃, hmade, rfl⟩ := Converses.of_lift_bind hwait
  have hreads : orders reads = [] :=
    orders_eq_nil (awaitAvailable_asksOnly (fun _ => asksNoOrder_of_isRead) s _) h₃
  have hbefore : ∀ ks, orders (js₁ ++ (extra ++ (reads ++ ks))) =
      ⟨volumeOrder s name t draws (bootSize, 1), .ok boot⟩ :: (extra ++ orders ks) := by
    intro ks
    rw [orders_append, hboot, orders_append,
      orders_of_ordersVolume (ordersVolume_of_map hextra), orders_append, hreads]
    rfl
  rw [hbefore]
  rcases Converses.of_run_bind hmade with ⟨err, rfl, h₄⟩ | ⟨js₄, made, js', h₄, hrest, rfl⟩
  · obtain ⟨_, ⟨⟩, -⟩ | ⟨e, _, -, horders⟩ := converses_critical rfl h₄
    rw [horders]
    exact .noServer boot extra e err hextra
  obtain ⟨_, ⟨⟩, hserver⟩ | ⟨_, _, ⟨⟩, -⟩ := converses_critical rfl h₄
  obtain ⟨hnone, hr⟩ := converses_finish hrest
  rw [orders_append, hserver, hnone]
  exact .server boot extra made r hextra hr

/-- A creation without volumes or without a region orders nothing. -/
theorem create_orders {r : Except Error Created}
    (h : Converses (create s name t draws).run js r) :
    (orders js = [] ∧ ∃ e, r = .error e) ∨
      ∃ bootSize sizes, t.hardware.volumesGb = bootSize :: sizes ∧
        Orders s name t draws bootSize sizes (orders js) r := by
  unfold create at h
  cases hsizes : t.hardware.volumesGb with
  | nil =>
    rw [hsizes] at h
    obtain ⟨rfl, rfl⟩ := h.of_pure
    exact .inl ⟨rfl, _, rfl⟩
  | cons bootSize sizes =>
    rw [hsizes] at h
    have hreads : (regionOf t).run.AsksOnly (asksNoOrder · = true) :=
      regionOf_asksOnly (fun _ => asksNoOrder_of_isRead) t
    rcases Converses.of_run_bind h with ⟨e, rfl, h₁⟩ | ⟨js₁, region, js₂, h₁, h₂, rfl⟩
    · exact .inl ⟨orders_eq_nil hreads h₁, e, rfl⟩
    · rw [orders_append, orders_eq_nil hreads h₁]
      exact .inr ⟨bootSize, sizes, rfl, createIn_orders h₂⟩

/-- The volumes and the server that are ordered. -/
theorem Orders.cases_orders {bootSize : Nat} {sizes : List Nat} {r : Except Error Created}
    (h : Orders s name t draws bootSize sizes js r) :
    (∃ e err, r = .error err ∧ serverOrders js = [] ∧
      volumeOrders js = [⟨volumeOrder s name t draws (bootSize, 1), .error e⟩]) ∨
    ∃ boot extra result,
      extra.map (·.call) = (sizes.zipIdx 2).map (volumeOrder s name t draws) ∧
      volumeOrders js = ⟨volumeOrder s name t draws (bootSize, 1), .ok boot⟩ :: extra ∧
      serverOrders js = [⟨serverOrder name t boot, result⟩] ∧
      ∀ created, r = .ok created → created.credentials = t.credentials draws ∧
        ∃ made, result = .ok made := by
  have hsplit : ∀ boot extra result,
      extra.map (·.call) = (sizes.zipIdx 2).map (volumeOrder s name t draws) →
      volumeOrders (⟨volumeOrder s name t draws (bootSize, 1), .ok boot⟩ ::
          (extra ++ [⟨serverOrder name t boot, result⟩])) =
        ⟨volumeOrder s name t draws (bootSize, 1), .ok boot⟩ :: extra ∧
      serverOrders (⟨volumeOrder s name t draws (bootSize, 1), .ok boot⟩ ::
          (extra ++ [⟨serverOrder name t boot, result⟩])) =
        [⟨serverOrder name t boot, result⟩] := by
    intro boot extra result hextra
    have hvolumes := ordersVolume_of_map hextra
    constructor
    · show _ :: volumeOrders (extra ++ _) = _
      rw [volumeOrders, List.filter_append, List.filter_eq_self.mpr hvolumes]
      exact congrArg _ (List.append_nil _)
    · show serverOrders (extra ++ _) = _
      rw [serverOrders, List.filter_append, ← serverOrders, serverOrders_of_ordersVolume hvolumes]
      rfl
  cases h with
  | noBoot e err => exact .inl ⟨e, err, rfl, rfl, rfl⟩
  | noServer boot extra e err hextra =>
    obtain ⟨hvolumes, hservers⟩ := hsplit boot extra (.error e) hextra
    exact .inr ⟨boot, extra, .error e, hextra, hvolumes, hservers, fun _ hr => nomatch hr⟩
  | server boot extra made r hextra hr =>
    obtain ⟨hvolumes, hservers⟩ := hsplit boot extra (.ok made) hextra
    exact .inr ⟨boot, extra, .ok made, hextra, hvolumes, hservers,
      fun created hcreated => ⟨hr created hcreated, made, rfl⟩⟩

/-- The `i`-th of the orders of volumes, of which not all need to be made. -/
theorem call_of_getElem? {os : List Outcome} {volumes : List Nat} {i : Nat} {o : Outcome}
    (h : os.map (·.call) <+: (volumes.zipIdx 1).map (volumeOrder s name t draws))
    (ho : os[i]? = some o) :
    ∃ size, volumes[i]? = some size ∧ o.call = volumeOrder s name t draws (size, i + 1) := by
  have hcall : (os.map (·.call))[i]? = some o.call := by rw [List.getElem?_map, ho]; rfl
  have hi : i < (os.map (·.call)).length := (List.getElem?_eq_some_iff.mp hcall).1
  obtain ⟨rest, hrest⟩ := h
  rw [← List.getElem?_append_left hi, hrest, List.getElem?_map, List.getElem?_zipIdx,
    Option.map_map, Option.map_eq_some_iff] at hcall
  obtain ⟨size, hsize, hcall⟩ := hcall
  exact ⟨size, hsize, hcall.symm.trans (by rw [Function.comp_apply, Nat.add_comm])⟩

/-- The orders of volumes are a first part of one order for each size. -/
theorem create_volumeOrders {r : Except Error Created}
    (h : Converses (create s name t draws).run js r) :
    (volumeOrders js).map (·.call) <+:
      (t.hardware.volumesGb.zipIdx 1).map (volumeOrder s name t draws) := by
  rw [volumeOrders_eq]
  rcases create_orders h with ⟨hnone, -⟩ | ⟨bootSize, sizes, hsizes, horders⟩
  · rw [hnone]
    exact List.nil_prefix
  rw [hsizes, List.zipIdx_cons, List.map_cons]
  rcases horders.cases_orders with ⟨e, err, -, -, hvolumes⟩ | ⟨boot, extra, _, hextra, hvolumes, -⟩
  · rw [hvolumes]
    exact (List.prefix_cons_inj _).mpr List.nil_prefix
  · rw [hvolumes, List.map_cons]
    exact (List.prefix_cons_inj _).mpr (hextra ▸ List.prefix_rfl)

/-- A new node is logged in to with the password that went with the order of its boot volume. The
`i`-th volume that a creation orders has the `i`-th size and is named for the node and its number;
only the first carries the image and the password, which is that of the template, or a generated one
if that is missing or empty. If the first order fails, no other volume is ordered. If there is a
node in the end, all volumes have been ordered, the password given back is that of the first order,
and the server has been ordered once, with the volume that came of the first order. -/
theorem returned_password_of_boot {r : Except Error Created}
    (h : Converses (create s name t draws).run js r) :
    ∃ password : String,
      (∀ p, t.password = some p → p ≠ "" → password = p) ∧
      ((∀ p, t.password = some p → p = "") → password = Password.generate draws) ∧
      (∀ (i : Nat) (o : Outcome), (volumeOrders js)[i]? = some o →
        ∃ size, t.hardware.volumesGb[i]? = some size ∧
          o.call = .createVolume t.datacenter {
            name := name ++ "-disk-" ++ decimal (i + 1)
            size := singleOfNat size
            type := s.volumeType
            image := if i = 0 then some t.image else none
            imagePassword := if i = 0 then some password else none }) ∧
      (∀ (request : VolumeRequest) (e : Error),
        (volumeOrders js)[0]? = some ⟨.createVolume t.datacenter request, .error e⟩ →
          (volumeOrders js).length = 1) ∧
      ∀ created, r = .ok created →
        (volumeOrders js).length = t.hardware.volumesGb.length ∧
        ∃ (bootRequest : VolumeRequest) (boot : Volume) (request : ServerRequest) (made : Server),
          (volumeOrders js)[0]? = some ⟨.createVolume t.datacenter bootRequest, .ok boot⟩ ∧
          bootRequest.imagePassword = some password ∧
          created.credentials.password = password ∧
          serverOrders js = [⟨.createServer t.datacenter request, .ok made⟩] ∧
          request.bootVolume = some boot.id := by
  refine ⟨(t.credentials draws).password, ?caller, ?generated, ?volumes, ?first, ?node⟩
  case caller =>
    intro p hp hne
    simp [Template.credentials, hp, hne, Option.filter]
  case generated =>
    intro hempty
    cases hp : t.password with
    | none => simp [Template.credentials, hp]
    | some p => simp [Template.credentials, hp, hempty p hp, Option.filter]
  case volumes =>
    intro i o ho
    obtain ⟨size, hsize, hcall⟩ := call_of_getElem? (create_volumeOrders h) ho
    refine ⟨size, hsize, hcall.trans ?_⟩
    simp [volumeRequest]
  case first =>
    intro request e he
    rw [volumeOrders_eq] at he ⊢
    rcases create_orders h with ⟨hnone, -⟩ | ⟨bootSize, sizes, hsizes, horders⟩
    · rw [hnone] at he
      cases he
    rcases horders.cases_orders with ⟨_, _, -, -, hvolumes⟩ | ⟨boot, extra, _, -, hvolumes, -⟩
    · rw [hvolumes]
      rfl
    · rw [hvolumes] at he
      cases he
  case node =>
    rintro created rfl
    rw [volumeOrders_eq, serverOrders_eq]
    rcases create_orders h with ⟨-, _, ⟨⟩⟩ | ⟨bootSize, sizes, hsizes, horders⟩
    rcases horders.cases_orders with
      ⟨_, _, ⟨⟩, -⟩ | ⟨boot, extra, _, hextra, hvolumes, hservers, hr⟩
    obtain ⟨hcredentials, made, rfl⟩ := hr created rfl
    have hlength : extra.length = sizes.length := by
      simpa using congrArg List.length hextra
    refine ⟨?_, volumeRequest s t name (t.credentials draws).password 1 bootSize, boot, _, made,
      ?_, rfl, congrArg _ hcredentials, hservers, rfl⟩
    · rw [hvolumes, hsizes, List.length_cons, List.length_cons, hlength]
    · rw [hvolumes]
      rfl

/-- The password of the template is empty, and the second volume fails. The node is logged in to
with a generated password, and it starts from the volume that this password was sent for. -/
theorem returned_password_of_boot_generated :
    let t : Template :=
      { datacenter := "a", region := some "r", image := "i", hardware := ⟨1, 1024, [10, 20]⟩,
        password := some "" }
    let server : Server := { id := "s", metadata := none, properties := {}, attachments := none }
    let result : (c : Call) → c.Result
      | .createVolume _ v =>
        if v.image = some "i" then .ok ⟨"v", none, {}⟩ else .error .request
      | .createServer .. => .ok server
      | .createIpBlock _ => .ok ⟨"b", none, {}⟩
      | .createNic .. => .ok ⟨"c", none, {}⟩
      | .getServer _ => .ok (some server)
      | _ => .error .request
    let run := conversation result true (fun _ => []) (create {} "n" t fun _ => 0).run
    ∃ created, run.2 = .ok created ∧ created.credentials.password = Password.generate (fun _ => 0) ∧
      (volumeOrders run.1).length = 2 ∧
      ∃ (bootRequest : VolumeRequest) (boot : Volume) (request : ServerRequest) (made : Server),
        (volumeOrders run.1)[0]? = some ⟨.createVolume "a" bootRequest, .ok boot⟩ ∧
        bootRequest.imagePassword = some created.credentials.password ∧
        serverOrders run.1 = [⟨.createServer "a" request, .ok made⟩] ∧
        request.bootVolume = some boot.id := by
  intro t server result run
  have h : Converses (create {} "n" t fun _ => 0).run run.1 run.2 :=
    converses_conversation result true _ (by simp) _
  have hok : run.2.toOption.isSome = true := by decide +kernel
  obtain ⟨created, hcreated⟩ : ∃ created, run.2 = .ok created := by
    cases hrun : run.2 with
    | ok created => exact ⟨created, rfl⟩
    | error e =>
      rw [hrun] at hok
      cases hok
  obtain ⟨password, -, hgenerated, -, -, hnode⟩ := returned_password_of_boot h
  obtain ⟨hlength, bootRequest, boot, request, made, hboot, hsent, hreturned, hserver, hstarts⟩ :=
    hnode created hcreated
  have hdrawn : password = Password.generate fun _ => 0 := hgenerated fun p hp => by
    cases hp
    rfl
  exact ⟨created, hcreated, hreturned.trans hdrawn, hlength, bootRequest, boot, request, made,
    hboot, hsent.trans (congrArg some hreturned.symm), hserver, hstarts⟩

end ComputePlane.Lifecycle
