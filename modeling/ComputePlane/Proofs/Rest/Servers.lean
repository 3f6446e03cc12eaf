import ComputePlane.Proofs.Rest.PlainPaths
import ComputePlane.Proofs.Text.NodeTexts

/-!
# Requests about one server

What is requested for a node that a text names is its own server just when neither part holds a
character that ends or changes a path, or is dots (`server_addressed_iff`); for any other node it is
something else (`exists_other_addressed`).
-/

namespace ComputePlane

open Text

namespace Rest

/-! ## Calls about one server -/

/-- A kind of call that is about one server. -/
inductive ServerCall where
  | get
  | delete
  | reboot
  | start
  | stop
  deriving DecidableEq, Repr

namespace ServerCall

def call : ServerCall → NodeId → Call
  | get, n => .getServer n
  | delete, n => .deleteServer n
  | reboot, n => .rebootServer n
  | start, n => .startServer n
  | stop, n => .stopServer n

/-- What follows the server in the path. -/
def action? : ServerCall → Option String
  | get | delete => none
  | reboot => some "reboot"
  | start => some "start"
  | stop => some "stop"

def query? : ServerCall → Option String
  | get => some "depth=5"
  | _ => none

/-- The segments that name the server, and what is done with it. -/
def segments (k : ServerCall) (n : NodeId) : List String :=
  ["datacenters", n.datacenter, "servers", n.server] ++ k.action?.toList

/-- The path below the slash that ends the endpoint. -/
def path (k : ServerCall) (n : NodeId) : String :=
  (String.singleton '/').intercalate (k.segments n)

end ServerCall

theorem exchange_path (k : ServerCall) (n : NodeId) :
    (exchange (k.call n)).path = "/" ++ k.path n := by
  rw [← String.toList_inj]
  cases k <;>
    simp [ServerCall.call, ServerCall.path, ServerCall.segments, ServerCall.action?, exchange,
      Exchange.look, Exchange.delete, Exchange.act, serverPath, serversPath, datacenterPath]

/-- The URL of an exchange is that of its text, with the depth in its query if there is one. -/
theorem Client.exists_outgoing {α : Type} {c : Client} {x : Exchange α} {u : Url}
    (hu : Url.ofText? (c.endpoint ++ x.path) = some u) :
    ∃ out, c.outgoing? x = some out ∧ out.url.origin = u.origin ∧
      out.url.segments = u.segments ∧
      (u.query = none →
        out.url.query = x.depth.map fun d => "depth" ++ "=" ++ Number.decimal d) := by
  unfold Client.outgoing?
  rw [hu]
  refine ⟨_, rfl, ?_⟩
  dsimp only
  cases x.depth with
  | none => exact ⟨rfl, rfl, id⟩
  | some d =>
    refine ⟨rfl, rfl, fun hquery => ?_⟩
    simp [Url.withParameter, hquery]

theorem ServerCall.query?_eq (k : ServerCall) (n : NodeId) :
    ((exchange (k.call n)).depth.map fun d => "depth" ++ "=" ++ Number.decimal d) = k.query? := by
  cases k with
  | get => exact congrArg some (by decide +kernel)
  | _ => rfl

/-! ## Ids that stand for themselves -/

/-- An id holds nothing that ends or changes a path, and is no dots. -/
structure IsPlainId (s : String) : Prop where
  plain : ∀ c ∈ s.toList, IsPlainChar c
  name : IsName s.toList

instance : DecidablePred IsPlainId := fun s =>
  -- by going through the text, not through all characters
  have : Decidable (∀ c ∈ s.toList, IsPlainChar c) := List.decidableBAll _ _
  decidable_of_iff ((∀ c ∈ s.toList, IsPlainChar c) ∧ IsName s.toList)
    ⟨fun h => ⟨h.1, h.2⟩, fun h => ⟨h.plain, h.name⟩⟩

/-- Nothing at the end of a text would be dropped. -/
def KeepsEnd (s : String) : Prop := ∀ c ∈ s.toList.getLast?, Url.isControl c = false

instance : DecidablePred KeepsEnd := fun s => Option.decidableForallMem s.toList.getLast?

theorem isPlainPath_iff (path : String) :
    IsPlainPath path.toList ↔ (∀ s ∈ split '/' path, IsPlainId s) ∧ KeepsEnd path := by
  have hpieces : ∀ {P : List Char → Prop},
      (∀ s ∈ split '/' path, P s.toList) ↔ ∀ p ∈ pieces '/' path.toList, P p := by
    intro P
    simp [split]
  have hplain : (∀ p ∈ pieces '/' path.toList, ∀ c ∈ p, IsPlainChar c) ↔
      ∀ c ∈ path.toList, IsPlainChar c := forall_mem_pieces (by decide)
  constructor
  · intro h
    exact ⟨fun s hs => ⟨hpieces.mpr (hplain.mpr h.plain) s hs, hpieces.mpr h.names s hs⟩, h.ending⟩
  · rintro ⟨hids, hend⟩
    exact ⟨hend, hplain.mp (hpieces.mp fun s hs => (hids s hs).plain),
      hpieces.mp fun s hs => (hids s hs).name⟩

theorem split_path (k : ServerCall) {n : NodeId} (hdc : '/' ∉ n.datacenter.toList)
    (hid : '/' ∉ n.server.toList) : split '/' (k.path n) = k.segments n := by
  refine split_intercalate (by simp [ServerCall.segments]) ?_
  cases k <;> simp [ServerCall.segments, ServerCall.action?, hdc, hid]

theorem keepsEnd_append {s t : String} (ht : t ≠ "") : KeepsEnd (s ++ t) ↔ KeepsEnd t := by
  have hne : t.toList ≠ [] := by simpa using ht
  rw [KeepsEnd, String.toList_append, List.getLast?_append_of_ne_nil _ hne, KeepsEnd]

/-- What is done stands at the end of the path, or the server. -/
theorem keepsEnd_path_iff (k : ServerCall) {n : NodeId} (hne : n.server ≠ "") :
    KeepsEnd (k.path n) ↔ (k.action? = none → KeepsEnd n.server) := by
  have hend : ∃ front, k.path n = front ++ k.action?.getD n.server := by
    cases k with
    | get | delete =>
      refine ⟨"datacenters" ++ "/" ++ n.datacenter ++ "/" ++ "servers" ++ "/", ?_⟩
      simp [← String.toList_inj, ServerCall.path, ServerCall.segments, ServerCall.action?]
    | reboot | start | stop =>
      refine ⟨"datacenters" ++ "/" ++ n.datacenter ++ "/" ++ "servers" ++ "/" ++ n.server ++ "/",
        ?_⟩
      simp [← String.toList_inj, ServerCall.path, ServerCall.segments, ServerCall.action?]
  have haction : ∀ a ∈ k.action?, a ≠ "" ∧ KeepsEnd a := by
    intro a ha
    cases k <;> cases ha <;> decide
  obtain ⟨front, hfront⟩ := hend
  rw [hfront]
  cases hk : k.action? with
  | none => simp [keepsEnd_append hne]
  | some a =>
    obtain ⟨ha, hkeeps⟩ := haction a hk
    exact iff_of_true ((keepsEnd_append ha).mpr hkeeps) fun h => by cases h

/-- The path of a call is plain if its ids are and the server, where it is at the end, keeps its
own. -/
theorem isPlainPath_path_iff (k : ServerCall) {n : NodeId} (hdc : '/' ∉ n.datacenter.toList)
    (hid : '/' ∉ n.server.toList) (hne : n.server ≠ "") :
    IsPlainPath (k.path n).toList ↔ IsPlainId n.datacenter ∧ IsPlainId n.server ∧
      (k.action? = none → KeepsEnd n.server) := by
  have hdatacenters : IsPlainId "datacenters" := by decide
  have hservers : IsPlainId "servers" := by decide
  have haction : ∀ a ∈ k.action?, IsPlainId a := by
    intro a ha
    cases k <;> cases ha <;> decide
  rw [isPlainPath_iff, split_path k hdc hid, keepsEnd_path_iff k hne, ← and_assoc]
  refine and_congr_left' ?_
  constructor
  · intro h
    exact ⟨h _ (by simp [ServerCall.segments]), h _ (by simp [ServerCall.segments])⟩
  · rintro ⟨hd, hi⟩ s hs
    simp only [ServerCall.segments, List.cons_append, List.nil_append, List.mem_cons,
      Option.mem_toList] at hs
    rcases hs with rfl | rfl | rfl | rfl | hs
    · exact hdatacenters
    · exact hd
    · exact hservers
    · exact hi
    · exact haction s hs

/-! ## Where requests go -/

/-- What is requested for a node that a text names is what is under the segments that name its
server, up to percent signs, and the query holds the depth alone, just when the ids are plain and
nothing at the end of the path would be dropped. -/
theorem server_addressed_iff {c : Client} {b : Base} (hb : c.base? = some b) {t : String}
    {n : NodeId} (hn : NodeId.parse t = .ok n) (k : ServerCall) :
    ∃ out, c.outgoing? (exchange (k.call n)) = some out ∧ out.url.origin = b.origin ∧
      (decodedSegments out.url.segments = decodedSegments (b.segments ++ k.segments n) ∧
          out.url.query = k.query? ↔
        IsPlainId n.datacenter ∧ IsPlainId n.server ∧ (k.action? = none → KeepsEnd n.server)) := by
  obtain ⟨-, -, hne, hdc, hid⟩ := NodeId.ofText?_eq_some_iff.mp (NodeId.parse_eq_ok_iff.mp hn)
  have hurl : Url.ofText? (c.endpoint ++ (exchange (k.call n)).path) =
      some (b.below (k.path n)) := by
    rw [exchange_path, ← String.append_assoc, Client.ofText?_below hb]
  obtain ⟨out, hout, horigin, hsegments, hquery⟩ := Client.exists_outgoing hurl
  rw [k.query?_eq] at hquery
  refine ⟨out, hout, horigin, ?_⟩
  rw [← isPlainPath_path_iff k hdc hid hne, ← split_path k hdc hid, hsegments]
  refine ⟨fun h => b.plain_of_decoded h.1, fun hplain => ?_⟩
  rw [b.below_of_plain hplain] at hquery ⊢
  exact ⟨by simp [decodedSegments, Gateway.percentDecoded_escaped], hquery rfl⟩

/-- A node whose ids hold a blank and a percent sign is addressed at the default endpoint. -/
theorem server_addressed_blank :
    let c : Client := ⟨defaultEndpoint, ""⟩
    ∃ out, c.outgoing? (exchange (ServerCall.delete.call ⟨"dc 1", "50%"⟩)) = some out ∧
      decodedSegments out.url.segments =
        decodedSegments ["cloudapi", "v4", "datacenters", "dc 1", "servers", "50%"] ∧
      out.url.query = none := by
  intro c
  have hbase : c.base? = some ⟨"https://api.profitbricks.com", ["cloudapi", "v4"]⟩ := by
    decide +kernel
  have hparse : NodeId.parse "dc 1/50%" = .ok ⟨"dc 1", "50%"⟩ := by decide +kernel
  obtain ⟨out, hout, -, hiff⟩ := server_addressed_iff hbase hparse .delete
  exact ⟨out, hout, hiff.mpr ⟨by decide, by decide, fun _ => by decide⟩⟩

/-- A text can name a node whose requests go elsewhere: to its datacenter, or to a server of another
datacenter, as those for the node there do. -/
theorem exists_other_addressed :
    let c : Client := ⟨defaultEndpoint, ""⟩
    (NodeId.parse "dc-1/.." = .ok ⟨"dc-1", ".."⟩ ∧
      (c.outgoing? (exchange (.deleteServer ⟨"dc-1", ".."⟩))).map (·.url.target) =
        some "/cloudapi/v4/datacenters/dc-1/") ∧
    ∃ n, NodeId.parse "dc-1/..\\..\\dc-2\\servers\\srv-9" = .ok n ∧ n ≠ ⟨"dc-2", "srv-9"⟩ ∧
      c.outgoing? (exchange (.deleteServer n)) =
        c.outgoing? (exchange (.deleteServer ⟨"dc-2", "srv-9"⟩)) := by
  refine ⟨⟨by decide +kernel, by decide +kernel⟩,
    ⟨"dc-1", "..\\..\\dc-2\\servers\\srv-9"⟩, by decide +kernel, by decide, ?_⟩
  decide +kernel

end Rest

end ComputePlane
