import Twincam.Errno
import Mathlib.Data.List.Basic
import Mathlib.Tactic.Common
import Std.Data.TreeMap

/-!
# DRM objects and atomic requests (`drm.h`, `drm.cpp`)

The objects of a DRM device and the lookup of a property by name through the table of all objects, and
`AtomicRequest`, which collects property changes and hands them to the kernel in one commit.  A pointer to an
object of the device is its position in the list that owns it.

`AtomicRequest` keeps a sticky error: `addProperties_valid` says that a request built from a list of changes is
valid exactly when the allocation and every single change succeeded (`Accepts`).
-/

namespace Twincam

namespace DRM

/-! ### Objects -/

structure PropertyValue where
  id_ : UInt32
  value_ : UInt64
deriving DecidableEq

structure Object where
  id_ : UInt32
  properties_ : List PropertyValue
deriving DecidableEq

structure Property extends Object where
  name_ : String
deriving DecidableEq

/-- `class Mode`, a `drmModeModeInfo`. -/
structure Mode where
  hdisplay : UInt16
  vdisplay : UInt16
  vrefresh : UInt32
deriving DecidableEq

/-- `class Crtc`; `planes_` are positions in the planes of the device. -/
structure Crtc extends Object where
  index_ : UInt32
  planes_ : List Nat
deriving DecidableEq

/-- `class Encoder`; `possibleCrtcs_` are positions in the CRTCs of the device. -/
structure Encoder extends Object where
  possibleCrtcs_ : List Nat
deriving DecidableEq

namespace Connector

inductive Status
  | Connected
  | Disconnected
  | Unknown
deriving DecidableEq

end Connector

/-- `class Connector`; `encoders_` are positions in the encoders of the device. -/
structure Connector extends Object where
  type_ : UInt32
  name_ : String
  status_ : Connector.Status
  encoders_ : List Nat
  modes_ : List Mode
deriving DecidableEq

namespace Plane

inductive PlaneType
  | TypeOverlay
  | TypePrimary
  | TypeCursor
deriving DecidableEq

end Plane

/-- `class Plane`; `type_` is not set before `setup`. -/
structure Plane extends Object where
  type_ : Option Plane.PlaneType
  formats_ : List UInt32
  possibleCrtcs_ : List Nat
  possibleCrtcsMask_ : UInt32
deriving DecidableEq

/-- A framebuffer of the display, `class FrameBuffer`; `planes_` holds the GEM handle imported for every dmabuf fd. -/
structure FrameBuffer where
  id_ : UInt32
  planes_ : Std.TreeMap Int UInt32

/-- An `Object*` of the table `objects_`: the list that owns the object and the position in it. -/
inductive ObjectRef
  | crtc (i : Nat)
  | encoder (i : Nat)
  | connector (i : Nat)
  | plane (i : Nat)
  | property (i : Nat)
deriving DecidableEq

structure Device where
  crtcs_ : List Crtc
  encoders_ : List Encoder
  connectors_ : List Connector
  planes_ : List Plane
  properties_ : List Property
  objects_ : Std.TreeMap UInt32 ObjectRef

namespace Device

/-- A device before `init`. -/
def empty : Device := ⟨[], [], [], [], [], ∅⟩

def object (dev : Device) (id : UInt32) : Option ObjectRef := dev.objects_[id]?

/-- `static_cast<const Property*>(dev_->object(id))`; the cast is of a property, since object ids are unique. -/
def propertyObject (dev : Device) (id : UInt32) : Option Property :=
  match dev.object id with
  | some (.property i) => dev.properties_[i]?
  | _ => none

end Device

namespace Object

/-- The object behind a null pointer, which has no properties; nothing is displayed through one. -/
def null : Object := ⟨0, []⟩

def property (dev : Device) (object : Object) (name : String) : Option Property :=
  object.properties_.findSome? fun pv => (dev.propertyObject pv.id_).filter (·.name_ = name)

def propertyValue (dev : Device) (object : Object) (name : String) : Option PropertyValue :=
  object.properties_.find? fun pv => (dev.propertyObject pv.id_).any (·.name_ = name)

end Object

/-! ### Atomic requests -/

/-- What libdrm and the allocator answer while one atomic request is built and committed: the address of the new
object, whether `drmModeAtomicAlloc` succeeds, the result of the `n`-th `drmModeAtomicAddProperty` and that of
`drmModeAtomicCommit`. -/
structure AtomicCalls where
  addr : Nat
  alloc : Bool
  addProperty : Nat → Int
  commit : Int

structure AtomicProperty where
  object : UInt32
  property : UInt32
  value : UInt64
deriving DecidableEq

/-- `class AtomicRequest`, with its own address. -/
structure AtomicRequest where
  addr : Nat
  valid_ : Bool
  request_ : Option (List AtomicProperty)
deriving DecidableEq

/-- A call of `drmModeAtomicCommit`: the request, the flags and the result. -/
structure KernelCommit where
  request : AtomicRequest
  drmFlags : UInt32
  ret : Int
deriving DecidableEq

def DRM_MODE_PAGE_FLIP_EVENT : UInt32 := 0x01
def DRM_MODE_ATOMIC_TEST_ONLY : UInt32 := 0x0100
def DRM_MODE_ATOMIC_NONBLOCK : UInt32 := 0x0200
def DRM_MODE_ATOMIC_ALLOW_MODESET : UInt32 := 0x0400

/-- The page-flip events a commit leaves outstanding in the kernel: one, carrying the address of the request, when
the commit succeeded and asked for it. -/
def KernelCommit.flips (c : KernelCommit) : List Nat :=
  if 0 ≤ c.ret ∧ c.drmFlags &&& DRM_MODE_PAGE_FLIP_EVENT ≠ 0 then [c.request.addr] else []

namespace AtomicRequest

def FlagAllowModeset : UInt32 := (1 : UInt32) <<< 0
def FlagAsync : UInt32 := (1 : UInt32) <<< 1
def FlagTestOnly : UInt32 := (1 : UInt32) <<< 2

def new (calls : AtomicCalls) : AtomicRequest :=
  if calls.alloc then ⟨calls.addr, true, some []⟩ else ⟨calls.addr, false, none⟩

/-- The private overload `addProperty(uint32_t, uint32_t, uint64_t)`. -/
def addPropertyId (r : AtomicRequest) (calls : AtomicCalls) (object property : UInt32) (value : UInt64) :
    Int × AtomicRequest :=
  let entries := r.request_.getD []
  let ret := calls.addProperty entries.length
  if ret < 0 then (ret, { r with valid_ := false })
  else (0, { r with request_ := some (entries ++ [⟨object, property, value⟩]) })

def addProperty (r : AtomicRequest) (dev : Device) (calls : AtomicCalls) (object : Object) (property : String)
    (value : UInt64) : Int × AtomicRequest :=
  if !r.valid_ then (-EINVAL, r)
  else
    match object.property dev property with
    | none => (-EINVAL, { r with valid_ := false })
    | some prop => r.addPropertyId calls object.id_ prop.id_ value

/-- A property change to add: the object, the name of its property and the value. -/
abbrev Change := Object × String × UInt64

/-- Calls of `addProperty` one after the other, their results ignored. -/
def addProperties (r : AtomicRequest) (dev : Device) (calls : AtomicCalls) (changes : List Change) :
    AtomicRequest :=
  changes.foldl (fun r c => (r.addProperty dev calls c.1 c.2.1 c.2.2).2) r

/-- The kernel's flags for a commit with `flags`. -/
def drmFlags (flags : UInt32) : UInt32 :=
  (if flags &&& FlagAllowModeset ≠ 0 then DRM_MODE_ATOMIC_ALLOW_MODESET else 0) |||
    (if flags &&& FlagAsync ≠ 0 then DRM_MODE_PAGE_FLIP_EVENT ||| DRM_MODE_ATOMIC_NONBLOCK else 0) |||
    (if flags &&& FlagTestOnly ≠ 0 then DRM_MODE_ATOMIC_TEST_ONLY else 0)

/-- `AtomicRequest::commit`: its result and the kernel commit it made, if any. -/
def commit (r : AtomicRequest) (calls : AtomicCalls) (flags : UInt32) : Int × Option KernelCommit :=
  if !r.valid_ then (-EINVAL, none) else (calls.commit, some ⟨r, drmFlags flags, calls.commit⟩)

/-! ### The sticky error -/

/-- Whether libdrm accepts a request built from `changes`: the allocation succeeds, every name is known to its
object and no addition is rejected. -/
def Accepts (dev : Device) (calls : AtomicCalls) (changes : List Change) : Prop :=
  calls.alloc = true ∧ (∀ c ∈ changes, (c.1.property dev c.2.1).isSome) ∧
    ∀ n < changes.length, 0 ≤ calls.addProperty n

instance (dev : Device) (calls : AtomicCalls) (changes : List Change) : Decidable (Accepts dev calls changes) :=
  inferInstanceAs (Decidable (_ ∧ _ ∧ _))

theorem addProperties_cons (r : AtomicRequest) (dev : Device) (calls : AtomicCalls) (c : Change)
    (changes : List Change) :
    r.addProperties dev calls (c :: changes) =
      (r.addProperty dev calls c.1 c.2.1 c.2.2).2.addProperties dev calls changes := rfl

/-- A call that follows a failure: it fails with `EINVAL` and does not touch the request. -/
theorem addProperty_of_invalid {r : AtomicRequest} (h : r.valid_ = false) (dev : Device) (calls : AtomicCalls)
    (c : Change) : r.addProperty dev calls c.1 c.2.1 c.2.2 = (-EINVAL, r) := by
  simp [addProperty, h]

/-- Once an addition failed, the request does not change any more. -/
theorem addProperties_of_invalid {r : AtomicRequest} (h : r.valid_ = false) (dev : Device) (calls : AtomicCalls)
    (changes : List Change) : r.addProperties dev calls changes = r := by
  induction changes with
  | nil => rfl
  | cons c changes ih => rw [addProperties_cons, addProperty_of_invalid h, ih]

/-- One addition to a valid request with `n` entries: it stays valid, with one more entry, when the name is known
and the addition accepted, and is invalid otherwise. -/
private theorem addProperty_valid {r : AtomicRequest} {l : List AtomicProperty} (hv : r.valid_ = true)
    (hr : r.request_ = some l) (dev : Device) (calls : AtomicCalls) (c : Change) :
    if (c.1.property dev c.2.1).isSome ∧ 0 ≤ calls.addProperty l.length then
      (r.addProperty dev calls c.1 c.2.1 c.2.2).2.valid_ = true ∧
      ∃ entry, (r.addProperty dev calls c.1 c.2.1 c.2.2).2.request_ = some (l ++ [entry])
    else (r.addProperty dev calls c.1 c.2.1 c.2.2).2.valid_ = false := by
  cases hp : c.1.property dev c.2.1 with
  | none => simp [addProperty, hv, hp]
  | some prop =>
    by_cases hadd : 0 ≤ calls.addProperty l.length
    · have hnot : ¬calls.addProperty l.length < 0 := by omega
      simp [addProperty, addPropertyId, hv, hp, hr, hadd, hnot]
    · have hlt : calls.addProperty l.length < 0 := by omega
      simp [addProperty, addPropertyId, hv, hp, hr, hadd, hlt]

/-- Additions to a valid request with `l.length` entries: it ends valid exactly when none of them fails. -/
private theorem addProperties_valid_from {r : AtomicRequest} {l : List AtomicProperty} (hv : r.valid_ = true)
    (hr : r.request_ = some l) (dev : Device) (calls : AtomicCalls) (changes : List Change) :
    (r.addProperties dev calls changes).valid_ = true ↔
      (∀ c ∈ changes, (c.1.property dev c.2.1).isSome) ∧
        ∀ n < changes.length, 0 ≤ calls.addProperty (l.length + n) := by
  induction changes generalizing r l with
  | nil => simp [addProperties, hv]
  | cons c changes ih =>
    have hstep := addProperty_valid hv hr dev calls c
    rw [addProperties_cons]
    by_cases hok : (c.1.property dev c.2.1).isSome ∧ 0 ≤ calls.addProperty l.length
    · rw [if_pos hok] at hstep
      obtain ⟨hv', entry, hr'⟩ := hstep
      rw [ih hv' hr']
      simp only [List.length_append, List.length_cons, List.length_nil, List.mem_cons, forall_eq_or_imp]
      constructor
      · intro h
        obtain ⟨hnames, hadds⟩ := h
        refine ⟨⟨hok.1, hnames⟩, fun n hn => ?_⟩
        cases n with
        | zero => exact hok.2
        | succ n =>
          have := hadds n (by omega)
          rwa [show l.length + (n + 1) = l.length + (0 + 1) + n by omega]
      · intro h
        obtain ⟨hnames, hadds⟩ := h
        refine ⟨hnames.2, fun n hn => ?_⟩
        have := hadds (n + 1) (by omega)
        rwa [show l.length + (0 + 1) + n = l.length + (n + 1) by omega]
    · rw [if_neg hok] at hstep
      rw [addProperties_of_invalid hstep, hstep]
      constructor
      · intro h; cases h
      · intro h
        obtain ⟨hnames, hadds⟩ := h
        exact absurd ⟨hnames c (by simp), hadds 0 (by simp)⟩ hok

/-- A request built from a list of changes is valid exactly when libdrm accepted all of it. -/
theorem addProperties_valid (dev : Device) (calls : AtomicCalls) (changes : List Change) :
    ((new calls).addProperties dev calls changes).valid_ = true ↔ Accepts dev calls changes := by
  by_cases ha : calls.alloc = true
  · have hnew : new calls = ⟨calls.addr, true, some []⟩ := if_pos ha
    rw [addProperties_valid_from (l := []) (by rw [hnew]) (by rw [hnew])]
    simp [Accepts, ha]
  · have hnew : (new calls).valid_ = false := by simp [new, ha]
    rw [addProperties_of_invalid hnew, hnew]
    simp [Accepts, ha]

/-! ### Commits and page flips -/

def commitFlips (r : AtomicRequest) (calls : AtomicCalls) (flags : UInt32) : List Nat :=
  (r.commit calls flags).2.elim [] KernelCommit.flips

/-- An asynchronous commit leaves one event outstanding when it succeeds, and none when it fails. -/
theorem commitFlips_async (r : AtomicRequest) (calls : AtomicCalls) :
    r.commitFlips calls FlagAsync = if r.valid_ = true ∧ 0 ≤ calls.commit then [r.addr] else [] := by
  cases hv : r.valid_ with
  | false => simp [commitFlips, commit, hv]
  | true =>
    have hflag : drmFlags FlagAsync &&& DRM_MODE_PAGE_FLIP_EVENT ≠ 0 := by decide
    simp [commitFlips, commit, hv, KernelCommit.flips, hflag]

end AtomicRequest

end DRM

end Twincam
