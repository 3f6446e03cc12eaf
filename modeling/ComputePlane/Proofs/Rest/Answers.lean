import ComputePlane.Proofs.Json.Carrying
import ComputePlane.Proofs.Text.Encoding
import ComputePlane.Rest.Client

/-!
# What answers mean

An answer is read in one of five manners (`Manner`), and each operation has its own (`manner`). The
status and the body decide between success, a body that could not be read, and a refusal
(`Manner.Gives`). This is proved of each reader alone; a call over a link has the result that its
reader makes of the answer, also among the failures of all operations (`result_of_answer`).

A refusal tells the body in the words that it has in the character set that its type names. These
are the words that were written if that is UTF-8, and can be others if it is not
(`exists_refusal_reworded`).
-/

namespace ComputePlane

/-- The name of a call in words, as refusals tell it. -/
def Call.title (c : Call) : String :=
  String.ofList (c.name.toList.map fun ch => if ch = '_' then ' ' else ch)

theorem HttpStatus.ne_404_of_isSuccess {status : HttpStatus} (h : status.isSuccess) :
    status.code ≠ 404 := by
  simp only [HttpStatus.isSuccess, Bool.and_eq_true, decide_eq_true_eq] at h
  omega

namespace Rest

variable {α β ε : Type} {others : Text.Charset.Others}

/-! ## Bodies -/

namespace Response

/-- The body is complete, and it is the text `s`. -/
def Holds (r : Response) (s : String) : Prop :=
  r.content? = some (Text.Utf8.encode s.toList)

/-- The type of the body names UTF-8, no character set or none that is known, and `s` has no byte
order mark. -/
def IsPlain (others : Text.Charset.Others) (r : Response) (s : String) : Prop :=
  r.charset others = .utf8 ∧ s.toList.head? ≠ some '\ufeff'

variable {r : Response} {s : String}

theorem Holds.text_eq (h : r.Holds s) (hplain : r.IsPlain others s) : r.text others = s := by
  unfold text
  rw [h, hplain.1, Option.map_some, Text.Charset.decode_encode hplain.2, Option.getD_some]

theorem Holds.bodyValue_eq (h : r.Holds s) (d : Json.Decoder α) :
    bodyValue d r = (Json.decode d s).mapError fun _ => .request := by
  have hbytes : r.content?.bind Text.Utf8.strict? = some s := by
    rw [h, Option.bind_some, Text.Utf8.strict?_encode]
  unfold bodyValue
  simp only [hbytes]
  cases Json.decode d s <;> rfl

theorem Holds.bodyValue_eq_ok_iff (h : r.Holds s) {d : Json.Decoder α} {a : α} :
    bodyValue d r = .ok a ↔ Json.decode d s = .ok a := by
  rw [h.bodyValue_eq]
  cases Json.decode d s <;> simp [Except.mapError]

theorem Holds.bodyValue_eq_error (h : r.Holds s) {d : Json.Decoder α}
    (hd : ∀ a, Json.decode d s ≠ .ok a) : bodyValue d r = .error .request := by
  rw [h.bodyValue_eq]
  cases hs : Json.decode d s with
  | error e => rfl
  | ok a => exact absurd hs (hd a)

end Response

/-! ## Manners of reading -/

/-- How the answer to an operation is read: as a value, as one that can be absent, as one that is
not kept, as that something was done, or as that something is gone. -/
inductive Manner : Type → Type 1 where
  | value {α : Type} (d : Json.Decoder α) : Manner α
  | optional {α : Type} (d : Json.Decoder α) : Manner (Option α)
  | dropped {α : Type} (d : Json.Decoder α) : Manner Unit
  | done : Manner Unit
  | gone : Manner Unit

namespace Manner

/-- The body matters for the success with this result. -/
def Reads : {β : Type} → Manner β → β → Prop
  | _, value _, _ => True
  | _, optional _, v => v ≠ none
  | _, dropped _, _ => True
  | _, done, _ => False
  | _, gone, _ => False

/-- A status and a body mean success with the result `v`. -/
def Grants : {β : Type} → Manner β → HttpStatus → String → β → Prop
  | _, value d, status, s, v => status.isSuccess ∧ Json.decode d s = .ok v
  | _, optional _, status, _, none => status.code = 404
  | _, optional d, status, s, some v => status.isSuccess ∧ Json.decode d s = .ok v
  | _, dropped d, status, s, _ => status.isSuccess ∧ ∃ v, Json.decode d s = .ok v
  | _, done, status, _, _ => status.isSuccess
  | _, gone, status, _, _ => status.isSuccess ∨ status.code = 404

/-- A status and a body mean success, but the value cannot be read. -/
def Misreads : {β : Type} → Manner β → HttpStatus → String → Prop
  | _, value d, status, s => status.isSuccess ∧ ∀ v, Json.decode d s ≠ .ok v
  | _, optional d, status, s => status.isSuccess ∧ ∀ v, Json.decode d s ≠ .ok v
  | _, dropped d, status, s => status.isSuccess ∧ ∀ v, Json.decode d s ≠ .ok v
  | _, done, _, _ => False
  | _, gone, _, _ => False

/-- A status means refusal. -/
def Refuses : {β : Type} → Manner β → HttpStatus → Prop
  | _, value _, status => ¬status.isSuccess
  | _, optional _, status => ¬status.isSuccess ∧ status.code ≠ 404
  | _, dropped _, status => ¬status.isSuccess
  | _, done, status => ¬status.isSuccess
  | _, gone, status => ¬status.isSuccess ∧ status.code ≠ 404

/-- Every status with every body means something. -/
theorem exhaustive (m : Manner β) (status : HttpStatus) (s : String) :
    (∃ v, m.Grants status s v) ∨ m.Misreads status s ∨ m.Refuses status := by
  have hbody : ∀ {α : Type} (d : Json.Decoder α),
      (∃ v, Json.decode d s = .ok v) ∨ ∀ v, Json.decode d s ≠ .ok v :=
    fun d => (em _).imp_right not_exists.mp
  by_cases hok : status.isSuccess
  · cases m with
    | value d =>
      exact (hbody d).imp (fun ⟨v, hv⟩ => ⟨v, hok, hv⟩) fun hd => .inl ⟨hok, hd⟩
    | optional d =>
      exact (hbody d).imp (fun ⟨v, hv⟩ => ⟨some v, hok, hv⟩) fun hd => .inl ⟨hok, hd⟩
    | dropped d => exact (hbody d).imp (fun hd => ⟨(), hok, hd⟩) fun hd => .inl ⟨hok, hd⟩
    | done => exact .inl ⟨(), hok⟩
    | gone => exact .inl ⟨(), .inl hok⟩
  · by_cases h404 : status.code = 404
    · cases m with
      | value | dropped | done => exact .inr (.inr hok)
      | optional => exact .inl ⟨none, h404⟩
      | gone => exact .inl ⟨(), .inr h404⟩
    · cases m with
      | value | dropped | done => exact .inr (.inr hok)
      | optional | gone => exact .inr (.inr ⟨hok, h404⟩)

/-- The result is what the answer `r` to the operation `name` means, with its failures among those
of `ε`. A refusal tells the body as it reads in the character set that its type names. -/
structure Gives (m : Manner β) (name : String) (fail : Failure → ε)
    (others : Text.Charset.Others) (r : Response) (result : Except ε β) : Prop where
  ok_iff : ∀ s v, (m.Reads v → r.Holds s) → (result = .ok v ↔ m.Grants r.status s v)
  unread : ∀ s, r.Holds s → m.Misreads r.status s → result = .error (fail .request)
  refused : m.Refuses r.status → result = .error (fail (.refused ⟨name, r.status, r.text others⟩))

theorem Gives.named {m : Manner β} {name name' : String} {fail : Failure → ε} {r : Response}
    {result : Except ε β} (h : m.Gives name fail others r result) (hname : name = name') :
    m.Gives name' fail others r result :=
  hname ▸ h

/-- The same failures can be told among others. -/
theorem Gives.mapError {m : Manner β} {name : String} {r : Response} {result : Except Failure β}
    (h : m.Gives name id others r result) (fail : Failure → ε) :
    m.Gives name fail others r (result.mapError fail) where
  ok_iff s v hs := by
    rw [← h.ok_iff s v hs]
    cases result <;> simp [Except.mapError]
  unread s hs hm := by rw [h.unread s hs hm]; rfl
  refused hm := by rw [h.refused hm]; rfl

end Manner

/-! ## Readers -/

section Readers

variable (others : Text.Charset.Others) (name : String) (d : Json.Decoder α) (r : Response)

theorem gives_readValue :
    (Manner.value d).Gives name id others r (readValue others name d r) where
  ok_iff s v hs := by
    unfold readValue
    split_ifs with hok
    · simp only [Manner.Grants, hok, true_and]
      exact (hs trivial).bodyValue_eq_ok_iff
    · simp [Manner.Grants, hok]
  unread s hs hm := by
    rw [readValue, if_pos hm.1]
    exact hs.bodyValue_eq_error hm.2
  refused hm := by
    rw [readValue, if_neg hm]
    rfl

theorem gives_readOptional :
    (Manner.optional d).Gives name id others r (readOptional others name d r) where
  ok_iff s v hs := by
    unfold readOptional
    split_ifs with h404
    · cases v with
      | none => simp [Manner.Grants, h404]
      | some v =>
        have hfail : ¬r.status.isSuccess := fun h => HttpStatus.ne_404_of_isSuccess h h404
        simp [Manner.Grants, hfail]
    · cases v with
      | none => cases readValue others name d r <;> simp [Manner.Grants, h404, Except.map]
      | some v =>
        have hvalue := (gives_readValue others name d r).ok_iff s v fun _ =>
          hs (by simp [Manner.Reads])
        rw [show (Manner.optional d).Grants r.status s (some v) ↔
          (Manner.value d).Grants r.status s v from Iff.rfl, ← hvalue]
        cases readValue others name d r <;> simp [Except.map]
  unread s hs hm := by
    rw [readOptional, if_neg (HttpStatus.ne_404_of_isSuccess hm.1),
      (gives_readValue others name d r).unread s hs hm]
    rfl
  refused hm := by
    rw [readOptional, if_neg hm.2, (gives_readValue others name d r).refused hm.1]
    rfl

theorem gives_dropped :
    (Manner.dropped d).Gives name id others r ((readValue others name d r).map fun _ => ()) where
  ok_iff s v hs := by
    have hvalue := fun a => (gives_readValue others name d r).ok_iff s a fun _ => hs trivial
    have hex : (∃ a, readValue others name d r = .ok a) ↔
        r.status.isSuccess ∧ ∃ a, Json.decode d s = .ok a := by
      simp only [hvalue, Manner.Grants, exists_and_left]
    rw [Manner.Grants, ← hex]
    cases readValue others name d r <;> simp [Except.map]
  unread s hs hm := by
    rw [(gives_readValue others name d r).unread s hs hm]
    rfl
  refused hm := by
    rw [(gives_readValue others name d r).refused hm]
    rfl

theorem gives_readDone : Manner.done.Gives name id others r (readDone others name r) where
  ok_iff s v _ := by
    unfold readDone
    split_ifs with hok <;> simp [Manner.Grants, hok]
  unread s hs hm := hm.elim
  refused hm := by
    rw [readDone, if_neg hm]
    rfl

theorem gives_readGone : Manner.gone.Gives name id others r (readGone others name r) where
  ok_iff s v _ := by
    unfold readGone readDone
    split_ifs with h404 hok <;> simp [Manner.Grants, *]
  unread s hs hm := hm.elim
  refused hm := by
    rw [readGone, if_neg hm.2, (gives_readDone others name r).refused hm.1]

end Readers

/-! ## Operations -/

/-- The manner in which the answer to a call is read. -/
def manner : (c : Call) → Manner c.Answer
  | .listDatacenters => .value (collection Datacenter.decoder)
  | .getDatacenter _ => .optional Datacenter.decoder
  | .createVolume .. => .value Volume.decoder
  | .getVolume _ => .optional Volume.decoder
  | .deleteVolume _ => .gone
  | .createServer .. => .value Server.decoder
  | .getServer _ => .optional Server.decoder
  | .listServers _ => .value (collection Server.decoder)
  | .deleteServer _ => .gone
  | .attachVolume .. => .dropped Volume.decoder
  | .rebootServer _ => .done
  | .startServer _ => .done
  | .stopServer _ => .done
  | .createNic .. => .value Nic.decoder
  | .getNic _ => .optional Nic.decoder
  | .createIpBlock _ => .value IpBlock.decoder
  | .deleteIpBlock _ => .gone
  | .createFirewallRule .. => .value FirewallRule.decoder
  | .listImages => .value (collection Image.decoder)
  | .getImage _ => .optional Image.decoder
  | .listSnapshots => .value (collection Snapshot.decoder)
  | .getSnapshot _ => .optional Snapshot.decoder

/-- The exchange of a call reads its answer in the manner of the call. -/
theorem gives_read_exchange (others : Text.Charset.Others) (c : Call) (r : Response) :
    (manner c).Gives c.title id others r ((exchange c).read others r) := by
  cases c
  case' listDatacenters | createVolume | createServer | listServers | createNic | createIpBlock |
      createFirewallRule | listImages | listSnapshots =>
    refine (gives_readValue _ _ _ r).named ?_
  case' getDatacenter | getVolume | getServer | getNic | getImage | getSnapshot =>
    refine (gives_readOptional _ _ _ r).named ?_
  case' deleteVolume | deleteServer | deleteIpBlock => refine (gives_readGone _ _ r).named ?_
  case' attachVolume => refine (gives_dropped _ _ _ r).named ?_
  case' rebootServer | startServer | stopServer => refine (gives_readDone _ _ r).named ?_
  -- the names are compared once the readers are known
  all_goals
    simp only [Call.title, Call.name]
    decide +kernel

namespace Client

variable {c : Client} {link : Link} {r : Response}

theorem run_of_answer {x : Exchange α} (h : (c.outgoing? x).bind link = some r) :
    c.run link x others = x.read others r := by
  rw [run, h]

theorem call_eq_mapError (c : Client) (link : Link) (k : Call) :
    c.call link k others = (c.run link (exchange k) others).mapError Failure.toError := by
  unfold call
  cases c.run link (exchange k) others <;> rfl

end Client

/-- The result of every operation is what the answer to it means: of the client's own operations,
and of the calls, which tell the failures among those of all operations. What a refusal tells is the
body unchanged, if the body is a text in UTF-8 and its type names no other character set. -/
theorem result_of_answer (client : Client) (link : Link) (others : Text.Charset.Others)
    (r : Response) :
    (∀ c, (client.outgoing? (exchange c)).bind link = some r →
      (manner c).Gives c.title id others r (client.run link (exchange c) others) ∧
      (manner c).Gives c.title Failure.toError others r (client.call link c others)) ∧
    (∀ s v, (client.outgoing? (attachment s v)).bind link = some r →
      (Manner.value Volume.decoder).Gives "attach volume" id others r
        (client.run link (attachment s v) others)) ∧
    (∀ n, (client.outgoing? (firewallRules n)).bind link = some r →
      (Manner.value (collection FirewallRule.decoder)).Gives "list firewall rules" id others r
        (client.run link (firewallRules n) others)) ∧
    ∀ s, r.Holds s → r.IsPlain others s → r.text others = s := by
  refine ⟨fun c h => ?_, fun s v h => ?_, fun n h => ?_, fun s hs hplain => hs.text_eq hplain⟩
  · rw [Client.call_eq_mapError, Client.run_of_answer h]
    exact ⟨gives_read_exchange others c r,
      (gives_read_exchange others c r).mapError Failure.toError⟩
  · rw [Client.run_of_answer h]
    exact gives_readValue _ _ _ r
  · rw [Client.run_of_answer h]
    exact gives_readValue _ _ _ r

/-- A refusal tells the operation, the status and the text of the answer. -/
theorem result_of_answer_refusal :
    let client : Client := ⟨"https://cloud", ""⟩
    let others : Text.Charset.Others := fun _ => none
    let r : Response := ⟨⟨422⟩, none, Text.Utf8.encode "größer".toList, true⟩
    let link : Link := fun _ => some r
    let s : NodeId := ⟨"dc-1", "srv-1"⟩
    client.call link (.attachVolume s "vol-1") others =
        .error (.api ⟨"attach volume", ⟨422⟩, "größer"⟩) ∧
      client.run link (attachment s "vol-1") others =
        .error (.refused ⟨"attach volume", ⟨422⟩, "größer"⟩) ∧
      client.run link (firewallRules ⟨s, "nic-1"⟩) others =
        .error (.refused ⟨"list firewall rules", ⟨422⟩, "größer"⟩) := by
  intro client others r link s
  have hcode : ¬r.status.isSuccess := by decide
  have htitle : (Call.attachVolume s "vol-1").title = "attach volume" := by decide +kernel
  obtain ⟨hcall, hattach, hrules, htext⟩ := result_of_answer client link others r
  have htext : r.text others = "größer" := htext _ rfl ⟨rfl, by decide +kernel⟩
  rw [← htext]
  refine ⟨?_, ?_, ?_⟩
  · have h := (hcall (.attachVolume s "vol-1") (by decide +kernel)).2.named htitle
    exact h.refused hcode
  · exact (hattach s "vol-1" (by decide +kernel)).refused hcode
  · exact (hrules ⟨s, "nic-1"⟩ (by decide +kernel)).refused hcode

/-- A refusal in UTF-8 is not told as it was written if its type names another character set. -/
theorem exists_refusal_reworded :
    ¬∀ (client : Client) (link : Link) (others : Text.Charset.Others) (r : Response) (c : Call)
      (s : String), (client.outgoing? (exchange c)).bind link = some r → r.Holds s →
      s.toList.head? ≠ some '\ufeff' → (manner c).Refuses r.status →
      client.run link (exchange c) others = .error (.refused ⟨c.title, r.status, s⟩) := by
  intro hall
  let client : Client := ⟨"https://cloud", ""⟩
  let others : Text.Charset.Others := fun _ => none
  let r : Response :=
    ⟨⟨500⟩, some "text/plain; charset=iso-8859-1", Text.Utf8.encode "é".toList, true⟩
  let c : Call := .getServer ⟨"dc-1", "srv-1"⟩
  have hlink : (client.outgoing? (exchange c)).bind (fun _ => some r) = some r := by
    decide +kernel
  have hrefuses : (manner c).Refuses r.status := ⟨by decide, by decide⟩
  have htold := hall client (fun _ => some r) others r c "é" hlink rfl (by decide +kernel) hrefuses
  rw [Client.run_of_answer hlink, (gives_read_exchange others c r).refused hrefuses] at htold
  have htext : r.text others = "é" := by
    injection htold with htold
    injection htold with htold
    exact congrArg ApiFailure.body htold
  have hreworded : r.text others = "Ã©" := by decide +kernel
  rw [hreworded] at htext
  exact absurd htext (by decide)

end Rest

end ComputePlane
