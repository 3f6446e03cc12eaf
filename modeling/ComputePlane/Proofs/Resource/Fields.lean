import ComputePlane.Resource.Decoder
import ComputePlane.Proofs.Json.Records

/-!
# The fields of resources

A resource is made of its id, its metadata and its properties. What is read from its fields has
passed their checks.
-/

namespace ComputePlane

open Json Shape

instance : Metadata.shape.Checked := by
  unfold Metadata.shape
  infer_instance

instance {α : Type} (properties : Shape α) (default : α) :
    (Resource.shape properties default).Checked := by
  unfold Resource.shape
  infer_instance

/-- A resource without metadata, made of its id and its properties. -/
theorem Resource.byName_shape {α : Type} {shape : Shape α} {default a : α} {id : String}
    {properties : Json} {look : String → Option Json} (hid : look "id" = some (.text id))
    (hmetadata : look "metadata" = Option.none) (hproperties : look "properties" = some properties)
    (h : Decoder.record shape properties = .ok a) :
    (Resource.shape shape default).byName look = .ok ⟨id, Option.none, a⟩ :=
  byName_seq (byName_seq (byName_map _ (byName_given hid rfl)) (byName_absent hmetadata rfl))
    (byName_given hproperties h)

/-- A resource of which only the id is told. -/
theorem Resource.byName_shape_id {α : Type} {shape : Shape α} {default : α} {id : String}
    {look : String → Option Json} (hid : look "id" = some (.text id))
    (hmetadata : look "metadata" = Option.none) (hproperties : look "properties" = Option.none) :
    (Resource.shape shape default).byName look = .ok ⟨id, Option.none, default⟩ :=
  byName_seq (byName_seq (byName_map _ (byName_given hid rfl)) (byName_absent hmetadata rfl))
    (byName_absent hproperties rfl)

end ComputePlane
