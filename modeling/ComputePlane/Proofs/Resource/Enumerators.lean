import ComputePlane.Resource.Decoder
import ComputePlane.Proofs.Json.Renaming
import ComputePlane.Proofs.Json.Written
import ComputePlane.Proofs.Resource.Fields

/-!
# Names that are not known

Where names of states and kinds stand in resources, and what becomes of a resource when another name
is put there (`decode_renamed`). Any name of a state, a power state, a licence or a medium is read,
and nothing else changes. With a type of volume that is not known, the whole text is refused.
-/

namespace ComputePlane

open Json Shape Decoder Outcome

/-! ## Places of names -/

/-- A place where a resource holds a name: the path to it, and the resource with another name there,
if that can be read. -/
structure Spot (α : Type) where
  path : List Step
  rename : String → α → Option α

def Metadata.stateSpot : Spot Metadata where
  path := [.field "state" 3]
  rename n m := some { m with state := some (.ofName n) }

def Resource.stateSpot {α : Type} : Spot (Resource α) where
  path := .field "metadata" 1 :: Metadata.stateSpot.path
  rename n r := do
    let m ← Metadata.stateSpot.rename n (← r.metadata)
    return { r with metadata := some m }

/-- A place in the properties of a resource. -/
def Resource.propertySpot {α : Type} (p : Spot α) : Spot (Resource α) where
  path := .field "properties" 2 :: p.path
  rename n r := do
    let a ← p.rename n r.properties
    return { r with properties := a }

/-- A place in an item of a collection. -/
def collectionSpot {α : Type} (i : Nat) (p : Spot α) : Spot (List α) where
  path := .field "items" 0 :: .item i :: p.path
  rename n as := do
    let a ← p.rename n (← as[i]?)
    return as.set i a

/-- The type of a volume. Only a known one is read. -/
def VolumeProperties.typeSpot : Spot VolumeProperties where
  path := [.field "type" 2]
  rename n v := do
    let t ← VolumeType.ofName? n
    return { v with type := some t }

def VolumeProperties.licenceSpot : Spot VolumeProperties where
  path := [.field "licenceType" 4]
  rename n v := some { v with licence := some (.ofName n) }

def Volume.spots : List (Spot Volume) :=
  [Resource.stateSpot, Resource.propertySpot VolumeProperties.typeSpot,
    Resource.propertySpot VolumeProperties.licenceSpot]

def ServerProperties.vmStateSpot : Spot ServerProperties where
  path := [.field "vmState" 4]
  rename n s := some { s with vmState := some (.ofName n) }

def ServerProperties.bootVolumeSpot (p : Spot Volume) : Spot ServerProperties where
  path := .field "bootVolume" 5 :: p.path
  rename n s := do
    let v ← p.rename n (← s.bootVolume)
    return { s with bootVolume := some v }

def Attachments.volumesSpot (p : Spot (List Volume)) : Spot Attachments where
  path := .field "volumes" 0 :: p.path
  rename n a := do
    let vs ← p.rename n (← a.volumes)
    return { a with volumes := some vs }

def Attachments.nicsSpot (p : Spot (List Nic)) : Spot Attachments where
  path := .field "nics" 1 :: p.path
  rename n a := do
    let ns ← p.rename n (← a.nics)
    return { a with nics := some ns }

/-- A place in what a server is as a resource. -/
def Server.resourceSpot (p : Spot (Resource ServerProperties)) : Spot Server where
  path := p.path
  rename n s := do
    let r ← p.rename n s.toResource
    return { s with toResource := r }

/-- A place in what is attached to a server. -/
def Server.attachmentsSpot (p : Spot Attachments) : Spot Server where
  path := .field "entities" 3 :: p.path
  rename n s := do
    let a ← p.rename n (← s.attachments)
    return { s with attachments := some a }

/-- The places of a server: its own ones, and those of its volumes and network interfaces. -/
inductive Server.IsSpot : Spot Server → Prop
  | state : IsSpot (resourceSpot Resource.stateSpot)
  | vmState : IsSpot (resourceSpot (Resource.propertySpot ServerProperties.vmStateSpot))
  | bootVolume (p : Spot Volume) (hp : p ∈ Volume.spots) :
      IsSpot (resourceSpot (Resource.propertySpot (ServerProperties.bootVolumeSpot p)))
  | volume (i : Nat) (p : Spot Volume) (hp : p ∈ Volume.spots) :
      IsSpot (attachmentsSpot (Attachments.volumesSpot (collectionSpot i p)))
  | nic (i : Nat) :
      IsSpot (attachmentsSpot (Attachments.nicsSpot (collectionSpot i Resource.stateSpot)))

def ImageProperties.licenceSpot : Spot ImageProperties where
  path := [.field "licenceType" 4]
  rename n i := some { i with licence := some (.ofName n) }

def ImageProperties.typeSpot : Spot ImageProperties where
  path := [.field "imageType" 5]
  rename n i := some { i with type := some (.ofName n) }

def Image.spots : List (Spot Image) :=
  [Resource.stateSpot, Resource.propertySpot ImageProperties.licenceSpot,
    Resource.propertySpot ImageProperties.typeSpot]

def SnapshotProperties.licenceSpot : Spot SnapshotProperties where
  path := [.field "licenceType" 4]
  rename n s := some { s with licence := some (.ofName n) }

def Snapshot.spots : List (Spot Snapshot) :=
  [Resource.stateSpot, Resource.propertySpot SnapshotProperties.licenceSpot]

/-! ## Records -/

/-- With another name in a place, a decoder reads what the place makes of it. -/
def Renames {α : Type} (d : Decoder α) (p : Spot α) : Prop :=
  ∀ n, d.Carries (Renamed n p.path) (gives (p.rename n))

theorem renames_metadata : Renames (record Metadata.shape) Metadata.stateSpot := by
  intro n
  refine Carries.record (((((carries_before (by decide) 2).map ?_).seq
    (carries_before (by decide) 1)).seq (carries_before (by decide) 0)).seq
    (carries_changed (carries_andMap State.ofName).orNull_renamed)) (by decide)
  rintro c _ rfl m _ rfl e _ rfl s o ⟨_, _, rfl, rfl, rfl⟩
  rfl

theorem renames_collection {α : Type} {d : Decoder α} {p : Spot α} (h : Renames d p) (i : Nat) :
    Renames (collection d) (collectionSpot i p) := by
  intro n v w as hT has
  have hitems : (defaulted "items" d.list []).Carries
      (LookChanged (Renamed n (.item i :: p.path)) "items")
      (ItemChanged (Renamed n (.item i :: p.path)) 0) Eq (Outcome.item i (gives (p.rename n))) :=
    carries_changed ((h n).list i)
  obtain ⟨a, o, ha, rfl, ho⟩ := hitems.record List.mem_cons_self hT has
  rw [collection, ho]
  cases hr : p.rename n a <;> simp [gives, collectionSpot, ha, hr]

namespace Resource

variable {α : Type} {properties : Shape α} {default : α} {n : String}

theorem carries_state : (Resource.shape properties default).Carries
    (LookChanged (Renamed n Metadata.stateSpot.path) "metadata")
    (ItemChanged (Renamed n Metadata.stateSpot.path) 1) Eq (gives (stateSpot.rename n)) := by
  refine (((carries_before (by decide) 0).map ?_).seq
    (carries_changed (renames_metadata n).orNull_renamed)).seq (carries_behind (by decide))
  rintro i _ rfl m o ⟨_, _, rfl, rfl, rfl⟩ p _ rfl
  rfl

theorem carries_property {p : Spot α} (h : Renames (record properties) p) :
    (Resource.shape properties default).Carries (LookChanged (Renamed n p.path) "properties")
      (ItemChanged (Renamed n p.path) 2) Eq (gives ((propertySpot p).rename n)) := by
  refine (((carries_before (by decide) 1).map ?_).seq (carries_before (by decide) 0)).seq
    (carries_changed (h n))
  rintro i _ rfl m _ rfl a _ rfl
  simp only [gives, propertySpot]
  cases p.rename n a <;> rfl

theorem renames_state : Renames (Resource.decoder properties default) stateSpot := fun _ =>
  Carries.record carries_state (show "metadata" ∈ ["id", "metadata", "properties"] by decide)

theorem renames_property {p : Spot α} (h : Renames (record properties) p) :
    Renames (Resource.decoder properties default) (propertySpot p) := fun _ =>
  Carries.record (carries_property h)
    (show "properties" ∈ ["id", "metadata", "properties"] by decide)

/-- Fields behind those of a resource. -/
theorem carries_before {T : Json → Json → Prop} {name : String} (hid : "id" ≠ name)
    (hmetadata : "metadata" ≠ name) (hproperties : "properties" ≠ name) (i : Nat) :
    (Resource.shape properties default).Carries (LookChanged T name) (ItemChanged T (i + 3))
      (ItemChanged T i) same :=
  (((Shape.carries_before hid (i + 2)).map_same _).seq_same
    (Shape.carries_before hmetadata (i + 1))).seq_same (Shape.carries_before hproperties i)

end Resource

/-! ## Kinds of resources -/

theorem Volume.renames {p : Spot Volume} (hp : p ∈ Volume.spots) : Renames Volume.decoder p := by
  simp only [Volume.spots, List.mem_cons, List.not_mem_nil, or_false] at hp
  rcases hp with rfl | rfl | rfl
  · exact Resource.renames_state
  · refine Resource.renames_property fun n => Carries.record (((((((
      (carries_before (by decide) 1).map ?_).seq (carries_before (by decide) 0)).seq
      (carries_changed (carries_andThen VolumeType.ofName?).orNull_renamed)).seq
      (carries_behind (by decide))).seq (carries_behind (by decide))).seq
      (carries_behind (by decide))).seq (carries_behind (by decide))) (by decide)
    rintro name _ rfl size _ rfl t o ⟨_, _, rfl, rfl, rfl⟩ image _ rfl licence _ rfl bus _ rfl
      number _ rfl
    simp only [gives, VolumeProperties.typeSpot]
    cases VolumeType.ofName? n <;> rfl
  · refine Resource.renames_property fun n => Carries.record (((((((
      (carries_before (by decide) 3).map ?_).seq (carries_before (by decide) 2)).seq
      (carries_before (by decide) 1)).seq (carries_before (by decide) 0)).seq
      (carries_changed (carries_andMap LicenceType.ofName).orNull_renamed)).seq
      (carries_behind (by decide))).seq (carries_behind (by decide))) (by decide)
    rintro name _ rfl size _ rfl t _ rfl image _ rfl licence o ⟨_, _, rfl, rfl, rfl⟩ bus _ rfl
      number _ rfl
    rfl

theorem Nic.renames : Renames Nic.decoder Resource.stateSpot :=
  Resource.renames_state

theorem Attachments.renames_volumes {p : Spot (List Volume)}
    (h : Renames (collection Volume.decoder) p) :
    Renames Attachments.decoder (volumesSpot p) := by
  refine fun n => Carries.record (((carries_changed (h n).orNull_renamed).map ?_).seq
    (carries_behind (by decide))) (by decide)
  rintro _ _ ⟨vs, _, rfl, rfl, rfl⟩ nics _ rfl
  cases hr : p.rename n vs <;> simp [gives, volumesSpot, hr]

theorem Attachments.renames_nics {p : Spot (List Nic)} (h : Renames (collection Nic.decoder) p) :
    Renames Attachments.decoder (nicsSpot p) := by
  refine fun n => Carries.record (((carries_before (by decide) 0).map ?_).seq
    (carries_changed (h n).orNull_renamed)) (by decide)
  rintro vs _ rfl _ _ ⟨nics, _, rfl, rfl, rfl⟩
  cases hr : p.rename n nics <;> simp [gives, nicsSpot, hr]

/-- A place of a server as a resource, by the field that the path starts with. -/
theorem Server.renames_resource {properties : Shape ServerProperties} {default : ServerProperties}
    {p : Spot (Resource ServerProperties)} {name : String} {i : Nat} {path : List Step}
    (hpath : p.path = .field name i :: path) (hname : name ∈ ["id", "metadata", "properties"])
    (h : ∀ n, (Resource.shape properties default).Carries (LookChanged (Renamed n path) name)
      (ItemChanged (Renamed n path) i) Eq (gives (p.rename n))) :
    Renames (record (Server.mk <$> Resource.shape properties default <*>
      defaulted "entities" Attachments.decoder.orNull Option.none)) (resourceSpot p) := by
  intro n
  have hentities : "entities" ≠ name := by
    rintro rfl
    revert hname
    decide
  simp only [resourceSpot, hpath]
  refine Carries.record (((h n).map ?_).seq (carries_behind hentities))
    (List.mem_append_left ["entities"] hname)
  rintro r _ rfl a _ rfl
  cases hr : p.rename n r <;> simp [gives, hr]

theorem Server.renames_attachments {p : Spot Attachments} (h : Renames Attachments.decoder p) :
    Renames Server.decoder (attachmentsSpot p) := by
  refine fun n => Carries.record (((Resource.carries_before (by decide) (by decide) (by decide)
    0).map ?_).seq (carries_changed (h n).orNull_renamed))
    (show "entities" ∈ ["id", "metadata", "properties", "entities"] by decide)
  rintro r _ rfl _ _ ⟨a, _, rfl, rfl, rfl⟩
  cases hr : p.rename n a <;> simp [gives, attachmentsSpot, hr]

theorem Server.renames {p : Spot Server} (hp : IsSpot p) : Renames Server.decoder p := by
  cases hp with
  | state => exact renames_resource rfl (by decide) fun n => Resource.carries_state
  | vmState =>
    refine renames_resource rfl (by decide) fun n => Resource.carries_property fun n =>
      Carries.record ((((((((carries_before (by decide) 3).map ?_).seq
        (carries_before (by decide) 2)).seq (carries_before (by decide) 1)).seq
        (carries_before (by decide) 0)).seq
        (carries_changed (carries_andMap VmState.ofName).orNull_renamed)).seq
        (carries_behind (by decide)))) (by decide)
    rintro name _ rfl cores _ rfl ram _ rfl zone _ rfl s o ⟨_, _, rfl, rfl, rfl⟩ boot _ rfl
    rfl
  | bootVolume p hp =>
    refine renames_resource rfl (by decide) fun n => Resource.carries_property fun n =>
      Carries.record ((((((((carries_before (by decide) 4).map ?_).seq
        (carries_before (by decide) 3)).seq (carries_before (by decide) 2)).seq
        (carries_before (by decide) 1)).seq (carries_before (by decide) 0)).seq
        (carries_changed (Volume.renames hp n).orNull_renamed))) (by decide)
    rintro name _ rfl cores _ rfl ram _ rfl zone _ rfl s _ rfl _ _ ⟨boot, _, rfl, rfl, rfl⟩
    cases hr : p.rename n boot <;> simp [gives, ServerProperties.bootVolumeSpot, hr]
  | volume i p hp =>
    exact renames_attachments
      (Attachments.renames_volumes (renames_collection (Volume.renames hp) i))
  | nic i => exact renames_attachments (Attachments.renames_nics (renames_collection Nic.renames i))

theorem Image.renames {p : Spot Image} (hp : p ∈ Image.spots) : Renames Image.decoder p := by
  simp only [Image.spots, List.mem_cons, List.not_mem_nil, or_false] at hp
  rcases hp with rfl | rfl | rfl
  · exact Resource.renames_state
  · refine Resource.renames_property fun n => Carries.record (((((((
      (carries_before (by decide) 3).map ?_).seq (carries_before (by decide) 2)).seq
      (carries_before (by decide) 1)).seq (carries_before (by decide) 0)).seq
      (carries_changed (carries_andMap LicenceType.ofName).orNull_renamed)).seq
      (carries_behind (by decide))).seq (carries_behind (by decide))) (by decide)
    rintro name _ rfl d _ rfl location _ rfl size _ rfl licence o ⟨_, _, rfl, rfl, rfl⟩ t _ rfl
      isPublic _ rfl
    rfl
  · refine Resource.renames_property fun n => Carries.record (((((((
      (carries_before (by decide) 4).map ?_).seq (carries_before (by decide) 3)).seq
      (carries_before (by decide) 2)).seq (carries_before (by decide) 1)).seq
      (carries_before (by decide) 0)).seq
      (carries_changed (carries_andMap ImageType.ofName).orNull_renamed)).seq
      (carries_behind (by decide))) (by decide)
    rintro name _ rfl d _ rfl location _ rfl size _ rfl licence _ rfl t o ⟨_, _, rfl, rfl, rfl⟩
      isPublic _ rfl
    rfl

theorem Snapshot.renames {p : Spot Snapshot} (hp : p ∈ Snapshot.spots) :
    Renames Snapshot.decoder p := by
  simp only [Snapshot.spots, List.mem_cons, List.not_mem_nil, or_false] at hp
  rcases hp with rfl | rfl
  · exact Resource.renames_state
  · refine Resource.renames_property fun n => Carries.record (((((
      (carries_before (by decide) 3).map ?_).seq (carries_before (by decide) 2)).seq
      (carries_before (by decide) 1)).seq (carries_before (by decide) 0)).seq
      (carries_changed (carries_andMap LicenceType.ofName).orNull_renamed)) (by decide)
    rintro name _ rfl d _ rfl location _ rfl size _ rfl licence o ⟨_, _, rfl, rfl, rfl⟩
    rfl

/-! ## Texts -/

/-- If a text `s` is decoded and holds a name in one of the places, and a text `s'` differs from it
in holding `name` there, then what is read from `s'`, alone or in a collection, is what the place
makes of the first value. -/
def ReadsRenamed {α : Type} (d : Decoder α) (IsSpot : Spot α → Prop) (name s s' : String) : Prop :=
  ∀ p, IsSpot p →
    (∀ a, decode d s = .ok a → Renamed name p.path (parse s).root (parse s').root →
      (parse s').complete = true → (decode d s').toOption = p.rename name a) ∧
    (∀ i as, decode (collection d) s = .ok as →
      Renamed name (collectionSpot i p).path (parse s).root (parse s').root →
      (parse s').complete = true →
      (decode (collection d) s').toOption = (collectionSpot i p).rename name as)

theorem readsRenamed_of_renames {α : Type} {d : Decoder α} {IsSpot : Spot α → Prop}
    {name s s' : String} (h : ∀ {p}, IsSpot p → Renames d p) :
    ReadsRenamed d IsSpot name s s' := fun _ hp =>
  ⟨fun _ hs hT hcomplete => Carries.decode (h hp name) hs hT hcomplete,
    fun i _ hs hT hcomplete => Carries.decode (renames_collection (h hp) i name) hs hT hcomplete⟩

/-- One name in a text is replaced by any other one. -/
theorem decode_renamed (name s s' : String) :
    ReadsRenamed Server.decoder Server.IsSpot name s s' ∧
    ReadsRenamed Volume.decoder (· ∈ Volume.spots) name s s' ∧
    ReadsRenamed Image.decoder (· ∈ Image.spots) name s s' ∧
    ReadsRenamed Snapshot.decoder (· ∈ Snapshot.spots) name s s' :=
  ⟨readsRenamed_of_renames Server.renames, readsRenamed_of_renames Volume.renames,
    readsRenamed_of_renames Image.renames, readsRenamed_of_renames Snapshot.renames⟩

/-- A listing of one server with one volume. -/
def listing (volume : Json) : Json :=
  Json.record [("items", .array [Json.record [("id", .text "s"), ("entities", Json.record
    [("volumes", Json.record [("items", .array [volume])])])]])]

/-- The volume of a listing, by the names of its state and its type. -/
def toldVolume (state type : String) : Json :=
  Json.record [("id", .text "v"), ("metadata", Json.record [("state", .text state)]),
    ("properties", Json.record [("type", .text type)])]

/-- The server of a listing. -/
def listed (state : State) (type : VolumeType) : Server :=
  ⟨⟨"s", Option.none, {}⟩, some ⟨some [⟨"v", some { state := some state }, { type := some type }⟩],
    Option.none⟩⟩

/-- A place in the volume of a listing. -/
def listingSpot (p : Spot Volume) : Spot (List Server) :=
  collectionSpot 0 (Server.attachmentsSpot (Attachments.volumesSpot (collectionSpot 0 p)))

theorem isWritten_listing (state type : String) : (listing (toldVolume state type)).IsWritten := by
  simp [listing, toldVolume, isWritten_record, IsWritten, AreItems, Json.text]

theorem renamed_listing {p : Spot Volume} {n : String} {v w : Json} (h : Renamed n p.path v w) :
    Renamed n (listingSpot p).path (listing v) (listing w) := by
  have hvolumes : Renamed n (.field "volumes" 0 :: .field "items" 0 :: .item 0 :: p.path)
      (Json.record [("volumes", Json.record [("items", .array [v])])])
      (Json.record [("volumes", Json.record [("items", .array [w])])]) :=
    .object (.here (.object (.here ⟨_, _, rfl, rfl, .here h⟩)))
  exact .object (.here ⟨_, _, rfl, rfl, .here (.object (.there (by decide) (.here hvolumes)))⟩)

/-- A listing in which a volume's state is one that is not known. -/
theorem decode_renamed_thawing :
    (decode (collection Server.decoder) (listing (toldVolume "THAWING" "SSD")).render).toOption =
      some [listed .unrecognized .ssd] := by
  have hbusy : decode (collection Server.decoder) (listing (toldVolume "BUSY" "SSD")).render =
      .ok [listed .busy .ssd] :=
    decode_render (isWritten_listing _ _) rfl
  have hrenamed : Renamed "THAWING" (listingSpot Resource.stateSpot).path
      (listing (toldVolume "BUSY" "SSD")) (listing (toldVolume "THAWING" "SSD")) :=
    renamed_listing (.object (.there (by decide) (.here (.object (.here ⟨⟨_, rfl⟩, rfl⟩)))))
  exact ((decode_renamed "THAWING" _ _).1 _ (.volume 0 Resource.stateSpot List.mem_cons_self)).2 0 _
    hbusy (by rwa [parse_render (isWritten_listing _ _), parse_render (isWritten_listing _ _)])
    (by rw [parse_render (isWritten_listing _ _)])

/-- One volume of a type that is not known, and the whole listing is refused. -/
theorem exists_refused_listing :
    decode (collection Server.decoder) (listing (toldVolume "BUSY" "SSD")).render =
      .ok [listed .busy .ssd] ∧
    Renamed "NVME" (listingSpot (Resource.propertySpot VolumeProperties.typeSpot)).path
      (parse (listing (toldVolume "BUSY" "SSD")).render).root
      (parse (listing (toldVolume "BUSY" "NVME")).render).root ∧
    (parse (listing (toldVolume "BUSY" "NVME")).render).complete = true ∧
    decode (collection Server.decoder) (listing (toldVolume "BUSY" "NVME")).render =
      .error .mismatched := by
  simp only [decode, parse_render (isWritten_listing _ _)]
  refine ⟨rfl, renamed_listing ?_, trivial, rfl⟩
  exact .object (.there (by decide) (.there (by decide) (.here (.object
    (.here ⟨⟨_, rfl⟩, rfl⟩)))))

end ComputePlane
