import ComputePlane.Resource.Decoder
import ComputePlane.Resource.Request
import ComputePlane.Proofs.Json.Numerals
import ComputePlane.Proofs.Json.Records
import ComputePlane.Proofs.Json.Written
import ComputePlane.Proofs.Resource.Fields

/-!
# What is asked for is what is told

The properties of a request, told back by the cloud behind an id, are read as the resource that was
asked for (`decode_told`). What a request leaves open, and what only the cloud knows, is absent.
-/

namespace ComputePlane

open Json Number

/-! ## Members of requests -/

namespace Json

theorem isWritten_texts (ss : List String) : (texts ss).IsWritten := by
  change AreItems (ss.map .text)
  induction ss with
  | nil => trivial
  | cons s ss ih => exact ⟨rfl, ih⟩

theorem list_texts (ss : List String) : Decoder.text.list (texts ss) = .ok ss := by
  change Decoder.items Decoder.text (ss.map .text) = .ok ss
  induction ss with
  | nil => rfl
  | cons s ss ih =>
    simp [Decoder.items, ih, Decoder.text, Json.text, bind, Except.bind, pure, Except.pure]

theorem isWritten_member? {γ : Type} {name : String} {f : γ → Json} (o : Option γ)
    (h : ∀ c, (f c).IsWritten) : ∀ m ∈ member? name f o, m.2.IsWritten := by
  cases o with
  | none => nofun
  | some c => simpa [member?] using h c

@[simp] theorem lookup_member? {γ : Type} (name : String) (f : γ → Json) (o : Option γ)
    (k : String) : (member? name f o).lookup k = if k = name then o.map f else none := by
  cases o with
  | none => simp [member?]
  | some c =>
    by_cases h : k = name
    · simp [member?, h]
    · have hbeq : (k == name) = false := by simpa using h
      simp [member?, List.lookup_cons, h, hbeq]

theorem names_member?_sublist {γ : Type} (name : String) (f : γ → Json) (o : Option γ) :
    ((member? name f o).map (·.1)).Sublist [name] := by
  cases o <;> simp [member?]

theorem Decoder.orNull_of_ne_null {α : Type} {d : Decoder α} {v : Json} {a : α} (hv : v ≠ .null)
    (h : d v = .ok a) : d.orNull v = .ok (some a) := by
  unfold Decoder.orNull
  split
  · exact absurd rfl hv
  · rw [h]
    rfl

theorem orNull_natural {n bound : Nat} (h : n < bound) (hbound : bound ≤ twoTo 64) :
    (Decoder.natural bound).orNull (ofNat n) = .ok (some n) :=
  congrArg (Except.map some) (natural_ofNat h hbound)

theorem orNull_single {gb : Nat} (h : gb < twoTo 32) :
    Decoder.single.orNull (ofSingle (singleOfNat gb)) = .ok (some (singleOfNat gb)) := by
  obtain ⟨-, hread⟩ := single_ofSingle h
  refine Decoder.orNull_of_ne_null (fun hnull => ?_) hread
  rw [hnull] at hread
  cases hread

theorem isWritten_text (s : String) : (Json.text s).IsWritten := rfl

theorem isWritten_ofNat (n : Nat) : (Json.ofNat n).IsWritten := Numeral.isUsual_ofNat n

/-- Members that stand in a fixed order, some of them left out, are read like all of them. -/
theorem record_of_sublist {α : Type} {s : Shape α} [s.Checked] {ms : List (String × Json)} {a : α}
    (names : List String) (hsub : (ms.map (·.1)).Sublist names) (hnames : names.Nodup)
    (hwritten : (record ms).IsWritten) (h : s.byName (fun k => ms.lookup k) = .ok a) :
    Decoder.record s (record ms) = .ok a :=
  Shape.record_eq_ok (hnames.sublist hsub)
    (fun m hm => (isWritten_record.mp hwritten m hm).sound) h

end Json

/-! ## Resources that are told -/

/-- A resource with the given properties, as the cloud tells of it. -/
def told (id : String) (properties : Json) : Json :=
  record [("id", .text id), ("properties", properties)]

section
variable {id : String} {properties : Json}

theorem isWritten_told (h : properties.IsWritten) : (told id properties).IsWritten :=
  isWritten_record.mpr (by simpa using ⟨rfl, h⟩)

/-- A resource is read with the properties that are told. -/
theorem Resource.decode_told {α : Type} {shape : Shape α} {default a : α}
    (hwritten : properties.IsWritten) (h : Decoder.record shape properties = .ok a) :
    decode (Resource.decoder shape default) (told id properties).render = .ok ⟨id, none, a⟩ := by
  refine decode_render (isWritten_told hwritten) (Shape.record_eq_ok (by simp) ?_
    (byName_shape rfl rfl rfl h))
  simpa using ⟨rfl, hwritten.sound⟩

end

/-! ## Kinds of requests -/

open Shape (byName_seq byName_map byName_given byName_absent byName_optional byName_optional_map)

theorem VolumeRequest.isWritten_properties (r : VolumeRequest) (h : (ofSingle r.size).IsWritten) :
    r.properties.IsWritten := by
  simp only [properties, isWritten_record, List.forall_mem_append]
  refine ⟨⟨⟨⟨?_, isWritten_member? _ isWritten_text⟩, isWritten_member? _ isWritten_text⟩,
    isWritten_member? _ fun _ => isWritten_text _⟩, isWritten_member? _ isWritten_texts⟩
  simp [isWritten_text, h]

theorem VolumeRequest.decode_told (id : String) (r : VolumeRequest) {gb : Nat}
    (hgb : gb < twoTo 32) (hsize : r.size = singleOfNat gb) :
    decode Volume.decoder (told id r.properties).render =
      .ok ⟨id, none, { name := r.name, size := r.size, type := r.type, image := r.image,
                       licence := r.licence }⟩ := by
  have hwritten := r.isWritten_properties (hsize ▸ (single_ofSingle hgb).1)
  refine Resource.decode_told hwritten (record_of_sublist ["name", "size", "type",
    "image", "imagePassword", "licenceType", "sshKeys"] ?_ (by decide) hwritten ?_)
  · simp only [List.map_append]
    exact ((((List.Sublist.refl _).append (names_member?_sublist ..)).append
      (names_member?_sublist ..)).append (names_member?_sublist ..)).append
      (names_member?_sublist ..)
  · refine byName_seq (byName_seq (byName_seq (byName_seq (byName_seq (byName_seq (byName_map _
      (byName_given (v := .text r.name) (by simp) rfl))
      (byName_given (v := ofSingle r.size) ?_ ?_)) (byName_given (v := .text r.type.name) ?_ ?_))
      (byName_optional (f := .text) ?_ fun _ => rfl))
      (byName_optional (f := fun l => .text l.name) ?_ fun l => ?_))
      (byName_absent ?_ rfl)) (byName_absent ?_ rfl)
    · simp [List.lookup_cons]
    · rw [hsize]
      exact orNull_single hgb
    · simp [List.lookup_cons]
    · cases r.type <;> rfl
    · simp [List.lookup_cons, List.lookup_append]
    · simp [List.lookup_cons, List.lookup_append]
    · cases l <;> rfl
    · simp [List.lookup_cons, List.lookup_append]
    · simp [List.lookup_cons, List.lookup_append]

theorem ServerRequest.isWritten_properties (r : ServerRequest) : r.properties.IsWritten := by
  simp only [properties, isWritten_record, List.forall_mem_append]
  refine ⟨⟨?_, isWritten_member? _ fun id => isWritten_record.mpr ?_⟩,
    isWritten_member? _ isWritten_text⟩
  · simp [isWritten_text, isWritten_ofNat]
  · simp [isWritten_text]

/-- A boot volume is told by its id alone. -/
theorem Volume.decoder_id (id : String) :
    Volume.decoder.orNull (record [("id", .text id)]) = .ok (some ⟨id, none, {}⟩) :=
  Decoder.orNull_of_ne_null nofun (Shape.record_eq_ok (by simp) (by simp [Json.text, sound])
    (Resource.byName_shape_id rfl rfl rfl))

theorem ServerRequest.decode_told (id : String) (r : ServerRequest) (hcores : r.cores < twoTo 32)
    (hram : r.ram < twoTo 32) :
    decode Server.decoder (told id r.properties).render =
      .ok ⟨⟨id, none, { name := r.name, cores := r.cores, ram := r.ram,
                        availabilityZone := r.availabilityZone,
                        bootVolume := r.bootVolume.map fun b => ⟨b, none, {}⟩ }⟩, none⟩ := by
  have hwritten := r.isWritten_properties
  refine decode_render (isWritten_told hwritten) (Shape.record_eq_ok (by simp)
    (by simpa using ⟨rfl, hwritten.sound⟩) (byName_seq (byName_map _
      (Resource.byName_shape rfl rfl rfl (record_of_sublist
        ["name", "cores", "ram", "bootVolume", "availabilityZone"]
        ?_ (by decide) hwritten ?_))) (byName_absent rfl rfl)))
  · simp only [List.map_append]
    exact ((List.Sublist.refl _).append (names_member?_sublist ..)).append
      (names_member?_sublist ..)
  · refine byName_seq (byName_seq (byName_seq (byName_seq (byName_seq (byName_map _
      (byName_given (v := .text r.name) (by simp) rfl))
      (byName_given (v := .ofNat r.cores) ?_ (orNull_natural hcores (by decide))))
      (byName_given (v := .ofNat r.ram) ?_ (orNull_natural hram (by decide))))
      (byName_optional (f := .text) ?_ fun _ => rfl)) (byName_absent ?_ rfl))
      (byName_optional_map (f := fun b => record [("id", .text b)]) ?_ Volume.decoder_id)
    all_goals simp [List.lookup_cons, List.lookup_append]

theorem NicRequest.isWritten_properties (r : NicRequest) : r.properties.IsWritten := by
  simp only [properties, isWritten_record, List.forall_mem_append]
  refine ⟨isWritten_member? _ isWritten_text, ?_⟩
  simp [isWritten_texts, isWritten_ofNat, IsWritten]

theorem NicRequest.decode_told (id : String) (r : NicRequest) (hlan : r.lan < twoTo 32) :
    decode Nic.decoder (told id r.properties).render =
      .ok ⟨id, none, { name := r.name, ips := r.ips, dhcp := r.dhcp, lan := r.lan,
                       firewallActive := r.firewallActive }⟩ := by
  have hwritten := r.isWritten_properties
  refine Resource.decode_told hwritten (record_of_sublist ["name", "ips", "dhcp", "lan",
    "firewallActive"] ?_ (by decide) hwritten ?_)
  · simp only [List.map_append]
    exact (names_member?_sublist ..).append (List.Sublist.refl _)
  · refine byName_seq (byName_seq (byName_seq (byName_seq (byName_seq (byName_map _
      (byName_optional (f := .text) ?_ fun _ => rfl)) (byName_absent ?_ rfl))
      (byName_given (v := texts r.ips) ?_ (list_texts r.ips)))
      (byName_given (v := .bool r.dhcp) ?_ rfl))
      (byName_given (v := .ofNat r.lan) ?_ (orNull_natural hlan (by decide))))
      (byName_given (v := .bool r.firewallActive) ?_ rfl)
    all_goals simp [List.lookup_cons, List.lookup_append]

theorem IpBlockRequest.decode_told (id : String) (r : IpBlockRequest) (hsize : r.size < twoTo 32) :
    decode IpBlock.decoder (told id r.properties).render =
      .ok ⟨id, none, { name := r.name, location := r.location, size := r.size }⟩ := by
  have hwritten : r.properties.IsWritten :=
    isWritten_record.mpr (by simp [isWritten_text, isWritten_ofNat])
  refine Resource.decode_told hwritten (record_of_sublist _ (List.Sublist.refl _) (by simp) hwritten
    (byName_seq (byName_seq (byName_seq (byName_map _ (byName_given rfl rfl))
      (byName_given rfl rfl)) (byName_given rfl (orNull_natural hsize (by decide))))
      (byName_absent rfl rfl)))

theorem FirewallRuleRequest.isWritten_properties (r : FirewallRuleRequest) :
    r.properties.IsWritten := by
  simp only [properties, isWritten_record, List.forall_mem_append]
  refine ⟨⟨?_, isWritten_member? _ isWritten_text⟩, ?_⟩
  · simp [isWritten_text]
  · simp [isWritten_ofNat]

theorem FirewallRuleRequest.decode_told (id : String) (r : FirewallRuleRequest)
    (hstart : r.portRangeStart < twoTo 16) (hend : r.portRangeEnd < twoTo 16) :
    decode FirewallRule.decoder (told id r.properties).render =
      .ok ⟨id, none, { name := r.name, protocol := r.protocol, sourceIp := r.sourceIp,
                       portRangeStart := r.portRangeStart, portRangeEnd := r.portRangeEnd }⟩ := by
  have hwritten := r.isWritten_properties
  refine Resource.decode_told hwritten (record_of_sublist ["name", "protocol", "sourceIp",
    "portRangeStart", "portRangeEnd"] ?_ (by decide) hwritten ?_)
  · simp only [List.map_append]
    exact ((List.Sublist.refl _).append (names_member?_sublist ..)).append (List.Sublist.refl _)
  · refine byName_seq (byName_seq (byName_seq (byName_seq (byName_map _
      (byName_given (v := .text r.name) ?_ rfl)) (byName_given (v := .text r.protocol) ?_ rfl))
      (byName_optional (f := .text) ?_ fun _ => rfl))
      (byName_given (v := .ofNat r.portRangeStart) ?_ (orNull_natural hstart (by decide))))
      (byName_given (v := .ofNat r.portRangeEnd) ?_ (orNull_natural hend (by decide)))
    all_goals simp [List.lookup_cons, List.lookup_append]

/-! ## All kinds -/

/-- Whatever is asked for, the properties of the request are read again from a resource that is told
with them, for every kind of request and every id. -/
theorem requests_are_told (id : String) :
    (∀ (r : VolumeRequest) (gb : Nat), gb < twoTo 32 → r.size = singleOfNat gb →
      decode Volume.decoder (told id r.properties).render =
        .ok ⟨id, none, { name := r.name, size := r.size, type := r.type, image := r.image,
                         licence := r.licence }⟩) ∧
    (∀ r : ServerRequest, r.cores < twoTo 32 → r.ram < twoTo 32 →
      decode Server.decoder (told id r.properties).render =
        .ok ⟨⟨id, none, { name := r.name, cores := r.cores, ram := r.ram,
                          availabilityZone := r.availabilityZone,
                          bootVolume := r.bootVolume.map fun b => ⟨b, none, {}⟩ }⟩, none⟩) ∧
    (∀ r : NicRequest, r.lan < twoTo 32 →
      decode Nic.decoder (told id r.properties).render =
        .ok ⟨id, none, { name := r.name, ips := r.ips, dhcp := r.dhcp, lan := r.lan,
                         firewallActive := r.firewallActive }⟩) ∧
    (∀ r : IpBlockRequest, r.size < twoTo 32 →
      decode IpBlock.decoder (told id r.properties).render =
        .ok ⟨id, none, { name := r.name, location := r.location, size := r.size }⟩) ∧
    (∀ r : FirewallRuleRequest, r.portRangeStart < twoTo 16 → r.portRangeEnd < twoTo 16 →
      decode FirewallRule.decoder (told id r.properties).render =
        .ok ⟨id, none, { name := r.name, protocol := r.protocol, sourceIp := r.sourceIp,
                         portRangeStart := r.portRangeStart, portRangeEnd := r.portRangeEnd }⟩) :=
  ⟨fun r _ => r.decode_told id, fun r => r.decode_told id, fun r => r.decode_told id,
    fun r => r.decode_told id, fun r => r.decode_told id⟩

/-- A volume of a size that is rounded, with an unknown licence and a name with a quote. -/
theorem odd_requests_are_told :
    16777217 < twoTo 32 ∧
    decode Volume.decoder (told "v" (VolumeRequest.properties
        { name := "a \"disk\"", size := singleOfNat 16777217, type := .ssd,
          licence := some .unrecognized, sshKeys := some [] })).render =
      .ok ⟨"v", none, { name := "a \"disk\"", size := singleOfNat 16777216, type := some .ssd,
                        licence := some .unrecognized }⟩ ∧
    decode Server.decoder (told "s" (ServerRequest.properties
        { name := "", cores := 2, ram := 4294967295, bootVolume := "v" })).render =
      .ok ⟨⟨"s", none, { name := some "", cores := some 2, ram := some 4294967295,
                         bootVolume := some ⟨"v", none, {}⟩ }⟩, none⟩ ∧
    decode Nic.decoder (told "n" (NicRequest.properties
        { ips := ["10.0.0.1"], dhcp := true, lan := 1, firewallActive := false })).render =
      .ok ⟨"n", none, { ips := ["10.0.0.1"], dhcp := some true, lan := some 1,
                        firewallActive := some false }⟩ ∧
    decode IpBlock.decoder (told "b" (IpBlockRequest.properties
        { name := "b", location := "de/fra", size := 1 })).render =
      .ok ⟨"b", none, { name := "b", location := "de/fra", size := some 1 }⟩ ∧
    decode FirewallRule.decoder (told "f" (FirewallRuleRequest.properties
        { name := "ssh", protocol := "TCP", portRangeStart := 22, portRangeEnd := 22 })).render =
      .ok ⟨"f", none, { name := "ssh", protocol := "TCP", portRangeStart := some 22,
                        portRangeEnd := some 22 }⟩ :=
  have hround : singleOfNat 16777217 = singleOfNat 16777216 := by decide +kernel
  ⟨by decide, hround ▸ (requests_are_told "v").1 _ 16777217 (by decide) rfl,
    (requests_are_told "s").2.1 _ (by decide) (by decide),
    (requests_are_told "n").2.2.1 _ (by decide), (requests_are_told "b").2.2.2.1 _ (by decide),
    (requests_are_told "f").2.2.2.2 _ (by decide) (by decide)⟩

end ComputePlane
