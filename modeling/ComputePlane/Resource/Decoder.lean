import ComputePlane.Json.Decoder
import ComputePlane.Resource.Basic

/-!
# Resources read from JSON

The fields of each resource, in the order they have when a record is written as an array.
-/

namespace ComputePlane

open Json

/-! ## Values of properties -/

namespace Json.Decoder

def timestamp : Decoder Timestamp := text.andThen Timestamp.parse?

def state : Decoder State := name.andMap State.ofName

def vmState : Decoder VmState := name.andMap VmState.ofName

def licenceType : Decoder LicenceType := name.andMap LicenceType.ofName

def imageType : Decoder ImageType := name.andMap ImageType.ofName

/-- A known type of volume. -/
def volumeType : Decoder VolumeType := name.andThen VolumeType.ofName?

end Json.Decoder

open Shape Decoder

/-! ## Common parts -/

def Metadata.shape : Shape Metadata :=
  Metadata.mk <$> optional "createdDate" timestamp <*> optional "lastModifiedDate" timestamp <*>
    optional "etag" text <*> optional "state" Decoder.state

/-- The fields of a resource. Its properties may be left out as a whole, but they are not `null`. -/
def Resource.shape {α : Type} (properties : Shape α) (default : α) : Shape (Resource α) :=
  Resource.mk <$> required "id" text <*>
    defaulted "metadata" (record Metadata.shape).orNull Option.none <*>
    defaulted "properties" (record properties) default

/-- A resource with the given fields of its properties. -/
def Resource.decoder {α : Type} (properties : Shape α) (default : α) : Decoder (Resource α) :=
  record (Resource.shape properties default)

def collection {α : Type} (d : Decoder α) : Decoder (List α) :=
  record (defaulted "items" d.list [])

/-! ## Kinds of resources -/

def Datacenter.decoder : Decoder Datacenter :=
  Resource.decoder
    (DatacenterProperties.mk <$> optional "name" text <*> optional "location" text <*>
      optional "description" text <*> optional "version" integer)
    {}

def Volume.decoder : Decoder Volume :=
  Resource.decoder
    (VolumeProperties.mk <$> optional "name" text <*> optional "size" single <*>
      optional "type" volumeType <*> optional "image" text <*>
      optional "licenceType" licenceType <*> optional "bus" text <*>
      optional "deviceNumber" integer)
    {}

def Nic.decoder : Decoder Nic :=
  Resource.decoder
    (NicProperties.mk <$> optional "name" text <*> optional "mac" text <*>
      defaulted "ips" text.list [] <*> optional "dhcp" flag <*> optional "lan" word32 <*>
      optional "firewallActive" flag)
    {}

def Attachments.decoder : Decoder Attachments :=
  record
    (Attachments.mk <$> defaulted "volumes" (collection Volume.decoder).orNull Option.none <*>
      defaulted "nics" (collection Nic.decoder).orNull Option.none)

def Server.decoder : Decoder Server :=
  record
    (Server.mk <$>
      Resource.shape
        (ServerProperties.mk <$> optional "name" text <*> optional "cores" word32 <*>
          optional "ram" word32 <*> optional "availabilityZone" text <*>
          optional "vmState" Decoder.vmState <*> optional "bootVolume" Volume.decoder)
        {} <*>
      defaulted "entities" Attachments.decoder.orNull Option.none)

def IpBlock.decoder : Decoder IpBlock :=
  Resource.decoder
    (IpBlockProperties.mk <$> optional "name" text <*> optional "location" text <*>
      optional "size" word32 <*> defaulted "ips" text.list [])
    {}

def FirewallRule.decoder : Decoder FirewallRule :=
  Resource.decoder
    (FirewallRuleProperties.mk <$> optional "name" text <*> optional "protocol" text <*>
      optional "sourceIp" text <*> optional "portRangeStart" word16 <*>
      optional "portRangeEnd" word16)
    {}

def Image.decoder : Decoder Image :=
  Resource.decoder
    (ImageProperties.mk <$> optional "name" text <*> optional "description" text <*>
      optional "location" text <*> optional "size" single <*>
      optional "licenceType" licenceType <*> optional "imageType" imageType <*>
      optional "public" flag)
    {}

def Snapshot.decoder : Decoder Snapshot :=
  Resource.decoder
    (SnapshotProperties.mk <$> optional "name" text <*> optional "description" text <*>
      optional "location" text <*> optional "size" single <*>
      optional "licenceType" licenceType)
    {}

end ComputePlane
