import Twincam.Libcamera
import Twincam.Drm
import Std.Data.TreeSet

/-!
# Listing the resources of a device (`drm.cpp`)

`Device::getResources` asks the kernel for the CRTCs, encoders, connectors and planes by id and builds an object for
each, with pointers between them that come from the bit masks of the encoders and planes.  Every object is entered in
the table `objects_` under its id.  The properties of all of them are listed at the end, and only then can a plane
look up its type.
-/

namespace Twincam

namespace DRM

/-! ### Answers of the kernel -/

/-- An error number; libdrm sets it whenever a call fails. -/
structure Errno where
  value : Int
  pos : 0 < value

structure DrmModeRes where
  crtcs : List UInt32
  encoders : List UInt32
  connectors : List UInt32

structure DrmModeCrtc where
  crtc_id : UInt32

structure DrmModeEncoder where
  encoder_id : UInt32
  possible_crtcs : UInt32

/-- `drmModeConnection`, and the values that are none of its own. -/
inductive DrmModeConnection
  | DRM_MODE_CONNECTED
  | DRM_MODE_DISCONNECTED
  | DRM_MODE_UNKNOWNCONNECTION
  | other (value : UInt32)
deriving DecidableEq

structure DrmModeConnector where
  connector_id : UInt32
  connector_type : UInt32
  connector_type_id : UInt32
  connection : DrmModeConnection
  encoders : List UInt32
  modes : List Mode

structure DrmModePlane where
  plane_id : UInt32
  possible_crtcs : UInt32
  formats : List UInt32

structure DrmModePropertyRes where
  prop_id : UInt32
  name : String

/-- `Object::Type` of the objects that have properties. -/
inductive Object.Type
  | TypeCrtc
  | TypeConnector
  | TypeEncoder
  | TypePlane
deriving DecidableEq

/-- The answers to the calls of libdrm, a null pointer with its error number. -/
structure Kernel where
  drmModeGetResources : Except Errno DrmModeRes
  drmModeGetCrtc : UInt32 → Except Errno DrmModeCrtc
  drmModeGetEncoder : UInt32 → Except Errno DrmModeEncoder
  drmModeGetConnector : UInt32 → Except Errno DrmModeConnector
  drmModeGetPlaneResources : Except Errno (List UInt32)
  drmModeGetPlane : UInt32 → Except Errno DrmModePlane
  drmModeObjectGetProperties : UInt32 → Object.Type → Option (List PropertyValue)
  drmModeGetProperty : UInt32 → Except Errno DrmModePropertyRes

/-! ### Constructors -/

/-- `Object::Object` for the types that support properties. -/
def Object.new (k : Kernel) (id : UInt32) (type : Object.Type) : Object :=
  ⟨id, (k.drmModeObjectGetProperties id type).getD []⟩

def Property.new (property : DrmModePropertyRes) : Property := ⟨⟨property.prop_id, []⟩, property.name⟩

def Crtc.new (k : Kernel) (crtc : DrmModeCrtc) (index : Nat) : Crtc :=
  ⟨Object.new k crtc.crtc_id .TypeCrtc, UInt32.ofNat index, []⟩

/-- `mask & (1 << index)`. -/
def maskHas (mask index : UInt32) : Bool := mask &&& (1 <<< index) ≠ 0

/-- The positions of the CRTCs with their bit set in the mask: the loop of `Encoder::Encoder` and `Plane::Plane`. -/
def possibleCrtcs (crtcs : List Crtc) (mask : UInt32) : List Nat :=
  (List.range crtcs.length).filter fun i => (crtcs[i]?).any fun crtc => maskHas mask crtc.index_

def Encoder.new (k : Kernel) (crtcs : List Crtc) (encoder : DrmModeEncoder) : Encoder :=
  ⟨Object.new k encoder.encoder_id .TypeEncoder, possibleCrtcs crtcs encoder.possible_crtcs⟩

def connectorTypeNames : List (UInt32 × String) :=
  [(0, "Unknown"), (1, "VGA"), (2, "DVI-I"), (3, "DVI-D"), (4, "DVI-A"), (5, "Composite"), (6, "S-Video"), (7, "LVDS"),
    (8, "Component"), (9, "9-Pin-DIN"), (10, "DP"), (11, "HDMI-A"), (12, "HDMI-B"), (13, "TV"), (14, "eDP"),
    (15, "Virtual"), (16, "DSI"), (17, "DPI")]

/-- The name of a connector; a type that is not in the table counts as unknown. -/
def connectorName (connector : DrmModeConnector) : String :=
  (connectorTypeNames.lookup connector.connector_type).getD "Unknown" ++ "-" ++
    toString connector.connector_type_id.toNat

def connectorStatus : DrmModeConnection → Connector.Status
  | .DRM_MODE_CONNECTED => .Connected
  | .DRM_MODE_DISCONNECTED => .Disconnected
  | _ => .Unknown

def Connector.new (k : Kernel) (encoders : List Encoder) (connector : DrmModeConnector) : Connector where
  toObject := Object.new k connector.connector_id .TypeConnector
  type_ := connector.connector_type
  name_ := connectorName connector
  status_ := connectorStatus connector.connection
  -- an encoder that is not in the listing is skipped
  encoders_ := connector.encoders.filterMap fun encoderId => encoders.findIdx? (·.id_ = encoderId)
  modes_ := connector.modes

def Plane.new (k : Kernel) (crtcs : List Crtc) (plane : DrmModePlane) : Plane :=
  ⟨Object.new k plane.plane_id .TypePlane, none, plane.formats, possibleCrtcs crtcs plane.possible_crtcs,
    plane.possible_crtcs⟩

def Plane.supportsFormat (plane : Plane) (format : Libcamera.PixelFormat) : Bool :=
  plane.formats_.contains format.fourcc

def DRM_PLANE_TYPE_OVERLAY : UInt64 := 0
def DRM_PLANE_TYPE_PRIMARY : UInt64 := 1
def DRM_PLANE_TYPE_CURSOR : UInt64 := 2

def Plane.setup (dev : Device) (plane : Plane) : Except Int Plane :=
  match plane.toObject.propertyValue dev "type" with
  | none => .error (-EINVAL)
  | some pv =>
    if pv.value_ = DRM_PLANE_TYPE_OVERLAY then .ok { plane with type_ := some .TypeOverlay }
    else if pv.value_ = DRM_PLANE_TYPE_PRIMARY then .ok { plane with type_ := some .TypePrimary }
    else if pv.value_ = DRM_PLANE_TYPE_CURSOR then .ok { plane with type_ := some .TypeCursor }
    else .error (-EINVAL)

namespace Device

/-! ### `getResources` -/

def addCrtc (k : Kernel) (dev : Device) (crtc : DrmModeCrtc) : Device :=
  -- the loop counter `i` is the number of CRTCs so far
  let obj := Crtc.new k crtc dev.crtcs_.length
  { dev with
    crtcs_ := dev.crtcs_ ++ [obj]
    objects_ := dev.objects_.insert obj.id_ (.crtc dev.crtcs_.length) }

def addEncoder (k : Kernel) (dev : Device) (encoder : DrmModeEncoder) : Device :=
  let obj := Encoder.new k dev.crtcs_ encoder
  { dev with
    encoders_ := dev.encoders_ ++ [obj]
    objects_ := dev.objects_.insert obj.id_ (.encoder dev.encoders_.length) }

def addConnector (k : Kernel) (dev : Device) (connector : DrmModeConnector) : Device :=
  let obj := Connector.new k dev.encoders_ connector
  { dev with
    connectors_ := dev.connectors_ ++ [obj]
    objects_ := dev.objects_.insert obj.id_ (.connector dev.connectors_.length) }

def addPlane (k : Kernel) (dev : Device) (plane : DrmModePlane) : Device :=
  let obj := Plane.new k dev.crtcs_ plane
  { dev with
    planes_ := dev.planes_ ++ [obj]
    objects_ := dev.objects_.insert obj.id_ (.plane dev.planes_.length) }

def addProperty (dev : Device) (property : DrmModePropertyRes) : Device :=
  let obj := Property.new property
  { dev with
    properties_ := dev.properties_ ++ [obj]
    objects_ := dev.objects_.insert obj.id_ (.property dev.properties_.length) }

/-- A result of libdrm, with `-errno` for a null pointer. -/
def orErrno {α : Type} (r : Except Errno α) : Except Int α := r.mapError fun e => -e.value

/-- A loop of `getResources`: the objects with the given ids, one after another, up to the first failure. -/
def addAll {α : Type} (get : UInt32 → Except Errno α) (add : Device → α → Device) (ids : List UInt32) (dev : Device) :
    Except Int Device :=
  ids.foldlM (fun dev id => (orErrno (get id)).map (add dev)) dev

/-- The positions of the planes with the bit of the CRTC set in their mask. -/
def possiblePlanes (planes : List Plane) (crtc : Crtc) : List Nat :=
  (List.range planes.length).filter fun j => (planes[j]?).any fun plane => maskHas plane.possibleCrtcsMask_ crtc.index_

def setPossiblePlanesForEachCRTC (dev : Device) : Device :=
  { dev with
    crtcs_ := dev.crtcs_.map fun crtc => { crtc with planes_ := crtc.planes_ ++ possiblePlanes dev.planes_ crtc } }

def propertiesOf (dev : Device) : ObjectRef → List PropertyValue
  | .crtc i => (dev.crtcs_[i]?).elim [] (·.properties_)
  | .encoder i => (dev.encoders_[i]?).elim [] (·.properties_)
  | .connector i => (dev.connectors_[i]?).elim [] (·.properties_)
  | .plane i => (dev.planes_[i]?).elim [] (·.properties_)
  | .property i => (dev.properties_[i]?).elim [] (·.properties_)

/-- The ids that `collectPropertyIDsAndCreatePropertyInstances` puts into its set. -/
def collectPropertyIDs (dev : Device) : Std.TreeSet UInt32 :=
  dev.objects_.toList.foldl
    (fun properties entry => (dev.propertiesOf entry.2).foldl (fun properties v => properties.insert v.id_) properties)
    ∅

/-- The loop over the property ids, which skips a property it cannot get. -/
def createProperties (k : Kernel) (ids : List UInt32) (dev : Device) : Device :=
  ids.foldl
    (fun dev id =>
      match k.drmModeGetProperty id with
      | .error _ => dev
      | .ok property => dev.addProperty property)
    dev

/-- `value->setup()`, which does something for planes only. -/
def setup (dev : Device) (ref : ObjectRef) : Except Int Device :=
  match ref with
  | .plane i =>
    match dev.planes_[i]? with
    | none => .ok dev
    | some plane => (plane.setup dev).map fun plane => { dev with planes_ := dev.planes_.set i plane }
  | _ => .ok dev

/-- `performAllDelayedSetupOfModeObjects`, in the order of the ids. -/
def performAllDelayedSetupOfModeObjects (dev : Device) : Except Int Device :=
  dev.objects_.toList.foldlM (fun dev entry => dev.setup entry.2) dev

/-- `Device::getResources` on a new device; the error is the negative value it returns. -/
def getResources (k : Kernel) : Except Int Device := do
  let resources ← orErrno k.drmModeGetResources
  let dev ← addAll k.drmModeGetCrtc (addCrtc k) resources.crtcs empty
  let dev ← addAll k.drmModeGetEncoder (addEncoder k) resources.encoders dev
  let dev ← addAll k.drmModeGetConnector (addConnector k) resources.connectors dev
  let planes ← orErrno k.drmModeGetPlaneResources
  let dev ← addAll k.drmModeGetPlane (addPlane k) planes dev
  let dev := dev.setPossiblePlanesForEachCRTC
  let dev := dev.createProperties k dev.collectPropertyIDs.toList
  dev.performAllDelayedSetupOfModeObjects

/-- What opening a card and enabling the atomic API on it come to, and the answers of the card. -/
structure Card where
  openCard : Int
  drmSetClientCap : Except Errno Unit
  kernel : Kernel

/-- `Device::init` on a new device. -/
def init (card : Card) : Except Int Device := do
  if card.openCard < 0 then throw card.openCard
  orErrno card.drmSetClientCap
  getResources card.kernel

end Device

end DRM

end Twincam
