import ComputePlane.Resource.Decoder
import ComputePlane.Proofs.Json.Forms
import ComputePlane.Proofs.Json.Written
import ComputePlane.Proofs.Resource.Fields

/-!
# Resources in rearranged texts

The forms of the resources: which fields they have, and where other records stand in them. A
resource is read from a text however its members are ordered and whatever else is among them
(`decode_rearranged`).
-/

namespace ComputePlane

open Json Shape Decoder

/-! ## Forms -/

def plainFields (names : List String) : List (String × Form) := names.map (·, .leaf)

def Metadata.fields : List (String × Form) :=
  plainFields ["createdDate", "lastModifiedDate", "etag", "state"]

def Resource.fields (properties : List (String × Form)) : List (String × Form) :=
  [("id", .leaf), ("metadata", .record Metadata.fields), ("properties", .record properties)]

def collectionForm (f : Form) : Form := .record [("items", .list f)]

def Datacenter.form : Form :=
  .record (Resource.fields (plainFields ["name", "location", "description", "version"]))

def Volume.form : Form :=
  .record (Resource.fields (plainFields ["name", "size", "type", "image", "licenceType", "bus",
    "deviceNumber"]))

def Nic.form : Form :=
  .record (Resource.fields (plainFields ["name", "mac", "ips", "dhcp", "lan", "firewallActive"]))

def Attachments.form : Form :=
  .record [("volumes", collectionForm Volume.form), ("nics", collectionForm Nic.form)]

def ServerProperties.fields : List (String × Form) :=
  plainFields ["name", "cores", "ram", "availabilityZone", "vmState"] ++
    [("bootVolume", Volume.form)]

def Server.form : Form :=
  .record (Resource.fields ServerProperties.fields ++ [("entities", Attachments.form)])

def IpBlock.form : Form :=
  .record (Resource.fields (plainFields ["name", "location", "size", "ips"]))

def FirewallRule.form : Form :=
  .record (Resource.fields (plainFields ["name", "protocol", "sourceIp", "portRangeStart",
    "portRangeEnd"]))

def Image.form : Form :=
  .record (Resource.fields (plainFields ["name", "description", "location", "size", "licenceType",
    "imageType", "public"]))

def Snapshot.form : Form :=
  .record (Resource.fields (plainFields ["name", "description", "location", "size", "licenceType"]))

/-! ## Decoders -/

theorem Metadata.follows : Metadata.shape.Follows Metadata.fields :=
  ((((follows_plain rfl).map _).seq (follows_plain rfl)).seq
    (follows_plain rfl)).seq (follows_plain rfl)

theorem Metadata.follows_record : (record Metadata.shape).Follows (.record Metadata.fields) :=
  Metadata.follows.record rfl

theorem Resource.follows {α : Type} {properties : Shape α} [properties.Checked] {default : α}
    {fields all : List (String × Form)} (h : properties.Follows fields)
    (hnames : properties.names = fieldNames fields)
    (hid : all.lookup "id" = some .leaf)
    (hmetadata : all.lookup "metadata" = some (.record Metadata.fields))
    (hproperties : all.lookup "properties" = some (.record fields)) :
    (Resource.shape properties default).Follows all :=
  (((follows_plain hid).map _).seq
    (follows_field Metadata.follows_record.orNull hmetadata)).seq
    (follows_field (h.record hnames) hproperties)

theorem follows_collection {α : Type} {d : Decoder α} {f : Form} (h : d.Follows f) :
    (collection d).Follows (collectionForm f) :=
  Shape.Follows.record (follows_field h.list rfl) rfl

theorem Datacenter.follows : Datacenter.decoder.Follows Datacenter.form :=
  Shape.Follows.record (Resource.follows
    (((((follows_plain rfl).map _).seq (follows_plain rfl)).seq
      (follows_plain rfl)).seq (follows_plain rfl)) rfl rfl rfl rfl) rfl

theorem Volume.follows : Volume.decoder.Follows Volume.form :=
  Shape.Follows.record (Resource.follows
    ((((((((follows_plain rfl).map _).seq (follows_plain rfl)).seq
      (follows_plain rfl)).seq (follows_plain rfl)).seq (follows_plain rfl)).seq
      (follows_plain rfl)).seq (follows_plain rfl)) rfl rfl rfl rfl) rfl

theorem Nic.follows : Nic.decoder.Follows Nic.form :=
  Shape.Follows.record (Resource.follows
    (((((((follows_plain rfl).map _).seq (follows_plain rfl)).seq
      (follows_plain rfl)).seq (follows_plain rfl)).seq (follows_plain rfl)).seq
      (follows_plain rfl)) rfl rfl rfl rfl) rfl

theorem Attachments.follows : Attachments.decoder.Follows Attachments.form :=
  Shape.Follows.record
    (((follows_field (follows_collection Volume.follows).orNull rfl).map _).seq
      (follows_field (follows_collection Nic.follows).orNull rfl)) rfl

theorem Server.follows : Server.decoder.Follows Server.form := by
  refine Shape.Follows.record (Shape.Follows.seq (Shape.Follows.map _ ?_) ?_) rfl
  · exact Resource.follows
      (((((((follows_plain rfl).map _).seq (follows_plain rfl)).seq
        (follows_plain rfl)).seq (follows_plain rfl)).seq (follows_plain rfl)).seq
        (follows_optional Volume.follows rfl)) rfl rfl rfl rfl
  · exact follows_field Attachments.follows.orNull rfl

theorem IpBlock.follows : IpBlock.decoder.Follows IpBlock.form :=
  Shape.Follows.record (Resource.follows
    (((((follows_plain rfl).map _).seq (follows_plain rfl)).seq
      (follows_plain rfl)).seq (follows_plain rfl)) rfl rfl rfl rfl) rfl

theorem FirewallRule.follows : FirewallRule.decoder.Follows FirewallRule.form :=
  Shape.Follows.record (Resource.follows
    ((((((follows_plain rfl).map _).seq (follows_plain rfl)).seq
      (follows_plain rfl)).seq (follows_plain rfl)).seq (follows_plain rfl))
      rfl rfl rfl rfl) rfl

theorem Image.follows : Image.decoder.Follows Image.form :=
  Shape.Follows.record (Resource.follows
    ((((((((follows_plain rfl).map _).seq (follows_plain rfl)).seq
      (follows_plain rfl)).seq (follows_plain rfl)).seq (follows_plain rfl)).seq
      (follows_plain rfl)).seq (follows_plain rfl)) rfl rfl rfl rfl) rfl

theorem Snapshot.follows : Snapshot.decoder.Follows Snapshot.form :=
  Shape.Follows.record (Resource.follows
    ((((((follows_plain rfl).map _).seq (follows_plain rfl)).seq
      (follows_plain rfl)).seq (follows_plain rfl)).seq (follows_plain rfl))
      rfl rfl rfl rfl) rfl

/-! ## Texts -/

/-- If a text `s` is decoded and the tree of a text `s'` is that of `s` rearranged, then the same is
read from `s'`, alone or in a collection. -/
def ReadsRearranged {α : Type} (d : Decoder α) (f : Form) (s s' : String) : Prop :=
  (∀ a, decode d s = .ok a → Rearranged f (parse s).root (parse s').root →
    (parse s').complete = true → decode d s' = .ok a) ∧
  (∀ as, decode (collection d) s = .ok as →
    Rearranged (collectionForm f) (parse s).root (parse s').root →
    (parse s').complete = true → decode (collection d) s' = .ok as)

theorem readsRearranged_of_follows {α : Type} {d : Decoder α} {f : Form} {s s' : String}
    (h : d.Follows f) : ReadsRearranged d f s s' :=
  ⟨fun _ hs hT hcomplete => h.decode hs hT hcomplete,
    fun _ hs hT hcomplete => (follows_collection h).decode hs hT hcomplete⟩

/-- Resources are read the same from rearranged texts, alone and in collections. -/
theorem decode_rearranged (s s' : String) :
    ReadsRearranged Datacenter.decoder Datacenter.form s s' ∧
    ReadsRearranged Volume.decoder Volume.form s s' ∧
    ReadsRearranged Server.decoder Server.form s s' ∧
    ReadsRearranged Nic.decoder Nic.form s s' ∧
    ReadsRearranged IpBlock.decoder IpBlock.form s s' ∧
    ReadsRearranged FirewallRule.decoder FirewallRule.form s s' ∧
    ReadsRearranged Image.decoder Image.form s s' ∧
    ReadsRearranged Snapshot.decoder Snapshot.form s s' :=
  ⟨readsRearranged_of_follows Datacenter.follows, readsRearranged_of_follows Volume.follows,
    readsRearranged_of_follows Server.follows, readsRearranged_of_follows Nic.follows,
    readsRearranged_of_follows IpBlock.follows, readsRearranged_of_follows FirewallRule.follows,
    readsRearranged_of_follows Image.follows, readsRearranged_of_follows Snapshot.follows⟩

/-- A server with a volume, and the same one told in another order with links everywhere. -/
theorem linked_server_is_read :
    decode Server.decoder (Json.record [("href", .text "/s"),
        ("entities", Json.record [("volumes", Json.record [("href", .null),
          ("items", .array [Json.record [("href", .array [.null]), ("id", .text "v")]])])]),
        ("id", .text "s")]).render =
      .ok ⟨⟨"s", Option.none, {}⟩, some ⟨some [⟨"v", Option.none, {}⟩], Option.none⟩⟩ := by
  obtain ⟨v, hv⟩ : ∃ v, v = Json.record [("id", .text "s"),
      ("entities", Json.record [("volumes", Json.record
        [("items", .array [Json.record [("id", .text "v")]])])])] := ⟨_, rfl⟩
  have hwritten : v.IsWritten := by
    subst hv
    simp [isWritten_record, IsWritten, AreItems, Json.text]
  have hread : decode Server.decoder v.render =
      .ok ⟨⟨"s", Option.none, {}⟩, some ⟨some [⟨"v", Option.none, {}⟩], Option.none⟩⟩ :=
    decode_render hwritten (by subst hv; rfl)
  have hw := parse_render (v := Json.record [("href", .text "/s"),
      ("entities", Json.record [("volumes", Json.record [("href", .null),
        ("items", .array [Json.record [("href", .array [.null]), ("id", .text "v")]])])]),
      ("id", .text "s")]) (by simp [isWritten_record, IsWritten, AreItems, Json.text])
  refine (decode_rearranged _ _).2.2.1.1 _ hread ?_ (by rw [hw])
  rw [hw, parse_render hwritten, hv]
  have hlink {fields : List (String × Form)} {v : Json} (h : "href" ∉ fieldNames fields)
      (hv : v.sound = true) : ∀ m ∈ [(some "href", v)], IsForeign fields m := by
    simpa using ⟨"href", rfl, h, hv⟩
  have hvolume : Rearranged Volume.form (Json.record [("id", .text "v")])
      (Json.record [("href", .array [.null]), ("id", .text "v")]) :=
    .object (.other .nil) (hlink (by decide) rfl) (List.reverse_perm _).symm
  have hvolumes : Rearranged (collectionForm Volume.form)
      (Json.record [("items", .array [Json.record [("id", .text "v")]])])
      (Json.record [("href", .null),
        ("items", .array [Json.record [("href", .array [.null]), ("id", .text "v")]])]) :=
    .object (.field rfl (.array (.cons hvolume .nil)) .nil) (hlink (by decide) rfl)
      (List.reverse_perm _).symm
  exact .object (.other (.field rfl
      (.object (.field rfl hvolumes .nil) (List.forall_mem_nil _) (.refl _)) .nil))
    (hlink (by decide) rfl) (List.reverse_perm _).symm

end ComputePlane
