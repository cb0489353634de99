import Twincam.Libcamera
import Twincam.Drm

/-!
# The KMS sink (`kms_sink.h`, `kms_sink.cpp`)

The sink holds up to three camera requests: `active_` is on the screen, `queued_` has been committed and waits for
its page flip, `pending_` waits for `queued_`.  `processRequest` puts a frame in, `requestComplete` runs on a page
flip and moves every request one slot on.

The three equations `processRequest_dropped`, `processRequest_queued` and `processRequest_pending` say all that
`processRequest` can do, and `requestComplete_eq` says it for `requestComplete`.
-/

namespace Twincam

open DRM (AtomicCalls AtomicRequest Device KernelCommit)
open DRM.AtomicRequest (Change)
open Libcamera (FrameBufferPtr PixelFormat Size)

namespace KMSSink

structure Request where
  drmRequest_ : AtomicRequest
  camRequest_ : Libcamera.Request
deriving DecidableEq

end KMSSink

/-- `class KMSSink`; a pointer to an object of `dev_` is its position in the list that owns it, and `mode_` the position
of a mode in the modes of the connector. -/
structure KMSSink where
  dev_ : Device
  connector_ : Option Nat
  crtc_ : Option Nat
  plane_ : Option Nat
  mode_ : Option Nat
  format_ : PixelFormat
  size_ : Size
  stride_ : UInt32
  x_ : UInt32
  y_ : UInt32
  buffers_ : List (FrameBufferPtr × DRM.FrameBuffer)
  pending_ : Option KMSSink.Request
  queued_ : Option KMSSink.Request
  active_ : Option KMSSink.Request

namespace KMSSink

/-- A sink on a device, before a connector is picked; the members that are not initialised are zero. -/
def ofDevice (dev_ : Device) : KMSSink :=
  { dev_ := dev_, connector_ := none, crtc_ := none, plane_ := none, mode_ := none, format_ := ⟨0, 0⟩, size_ := ⟨0, 0⟩,
    stride_ := 0, x_ := 0, y_ := 0, buffers_ := [], pending_ := none, queued_ := none, active_ := none }

/-! ### Frames and page flips -/

def connectorObject (sink : KMSSink) : DRM.Object :=
  ((sink.connector_.bind (sink.dev_.connectors_[·]?)).map (·.toObject)).getD DRM.Object.null

def crtcObject (sink : KMSSink) : DRM.Object :=
  ((sink.crtc_.bind (sink.dev_.crtcs_[·]?)).map (·.toObject)).getD DRM.Object.null

def planeObject (sink : KMSSink) : DRM.Object :=
  ((sink.plane_.bind (sink.dev_.planes_[·]?)).map (·.toObject)).getD DRM.Object.null

/-- The properties `processRequest` adds for a frame; the first frame also enables the display pipeline. -/
def frameChanges (sink : KMSSink) (drmBuffer : DRM.FrameBuffer) : List Change :=
  (sink.planeObject, "FB_ID", drmBuffer.id_.toUInt64) ::
    if sink.active_.isNone && sink.queued_.isNone then
      [(sink.connectorObject, "CRTC_ID", sink.crtcObject.id_.toUInt64),
       (sink.planeObject, "SRC_X", (0 : UInt64) <<< 16),
       (sink.planeObject, "SRC_Y", (0 : UInt64) <<< 16),
       (sink.planeObject, "SRC_W", (sink.size_.width <<< 16).toUInt64),
       (sink.planeObject, "SRC_H", (sink.size_.height <<< 16).toUInt64),
       (sink.planeObject, "CRTC_X", sink.x_.toUInt64),
       (sink.planeObject, "CRTC_Y", sink.y_.toUInt64),
       (sink.planeObject, "CRTC_W", sink.size_.width.toUInt64),
       (sink.planeObject, "CRTC_H", sink.size_.height.toUInt64)]
    else []

/-- The request `processRequest` builds for a frame. -/
def newRequest (sink : KMSSink) (calls : AtomicCalls) (drmBuffer : DRM.FrameBuffer)
    (camRequest : Libcamera.Request) : Request :=
  ⟨(AtomicRequest.new calls).addProperties sink.dev_ calls (sink.frameChanges drmBuffer), camRequest⟩

/-- The result of `processRequest`, the sink after it and the kernel commit it made. -/
structure ProcessResult where
  ret : Bool
  sink : KMSSink
  committed : Option KernelCommit

def processRequest (sink : KMSSink) (calls : AtomicCalls) (camRequest : Libcamera.Request) : ProcessResult :=
  if sink.pending_.isSome then ⟨true, sink, none⟩
  else
    match sink.buffers_.lookup camRequest.firstBuffer with
    | none => ⟨true, sink, none⟩
    | some drmBuffer =>
      let request := sink.newRequest calls drmBuffer camRequest
      let sink := { sink with pending_ := some request }
      if sink.queued_.isNone then
        -- the result of the commit is printed, and the slot moves whatever it is
        let (_, committed) := request.drmRequest_.commit calls AtomicRequest.FlagAsync
        ⟨false, { sink with queued_ := sink.pending_, pending_ := none }, committed⟩
      else ⟨false, sink, none⟩

/-- The sink after `requestComplete`, the camera requests it emitted through `requestProcessed` and the kernel
commit it made. -/
structure CompleteResult where
  sink : KMSSink
  emitted : List Libcamera.Request
  committed : Option KernelCommit

/-- `KMSSink::requestComplete` for the atomic request at the address `request`; `none` when its assertion fails. -/
def requestComplete (sink : KMSSink) (calls : AtomicCalls) (request : Nat) : Option CompleteResult :=
  if sink.queued_.any (·.drmRequest_.addr = request) then
    let emitted := sink.active_.toList.map (·.camRequest_)
    let sink := { sink with active_ := sink.queued_, queued_ := none }
    match sink.pending_ with
    | none => some ⟨sink, emitted, none⟩
    | some pending =>
      let (_, committed) := pending.drmRequest_.commit calls AtomicRequest.FlagAsync
      some ⟨{ sink with queued_ := some pending, pending_ := none }, emitted, committed⟩
  else none

/-! ### What the two handlers do -/

/-- The framebuffer of a frame that the sink would take in now: the queue is not full and the buffer is mapped. -/
def displays (sink : KMSSink) (camRequest : Libcamera.Request) : Option DRM.FrameBuffer :=
  if sink.pending_.isSome then none else sink.buffers_.lookup camRequest.firstBuffer

variable {sink : KMSSink} {calls : AtomicCalls} {camRequest : Libcamera.Request} {drmBuffer : DRM.FrameBuffer}

theorem pending_eq_none_of_displays (h : sink.displays camRequest = some drmBuffer) : sink.pending_ = none := by
  unfold displays at h
  split at h
  · cases h
  · rename_i hne
    simpa using hne

theorem lookup_of_displays (h : sink.displays camRequest = some drmBuffer) :
    sink.buffers_.lookup camRequest.firstBuffer = some drmBuffer := by
  unfold displays at h
  split at h
  · cases h
  · exact h

/-- A frame that cannot be displayed is handed back and changes nothing. -/
theorem processRequest_dropped (h : sink.displays camRequest = none) :
    sink.processRequest calls camRequest = ⟨true, sink, none⟩ := by
  unfold displays at h
  unfold processRequest
  split at h
  · rw [if_pos ‹_›]
  · rw [if_neg ‹_›, h]

/-- A frame that finds no flip outstanding is committed and queued at once. -/
theorem processRequest_queued (h : sink.displays camRequest = some drmBuffer) (hq : sink.queued_ = none) :
    sink.processRequest calls camRequest =
      ⟨false, { sink with queued_ := some (sink.newRequest calls drmBuffer camRequest) },
        ((sink.newRequest calls drmBuffer camRequest).drmRequest_.commit calls AtomicRequest.FlagAsync).2⟩ := by
  have hp := pending_eq_none_of_displays h
  simp [processRequest, lookup_of_displays h, hp, hq]

/-- A frame that comes while another one waits for its flip becomes pending. -/
theorem processRequest_pending {queued : Request} (h : sink.displays camRequest = some drmBuffer)
    (hq : sink.queued_ = some queued) :
    sink.processRequest calls camRequest =
      ⟨false, { sink with pending_ := some (sink.newRequest calls drmBuffer camRequest) }, none⟩ := by
  have hp := pending_eq_none_of_displays h
  simp [processRequest, lookup_of_displays h, hp, hq]

/-- The flip of the queued request moves every request one slot on and commits the pending one. -/
theorem requestComplete_eq {queued : Request} (hq : sink.queued_ = some queued) :
    sink.requestComplete calls queued.drmRequest_.addr =
      some ⟨{ sink with active_ := some queued, queued_ := sink.pending_, pending_ := none },
        sink.active_.toList.map (·.camRequest_),
        sink.pending_.bind fun p => (p.drmRequest_.commit calls AtomicRequest.FlagAsync).2⟩ := by
  cases hp : sink.pending_ with
  | none => simp [requestComplete, hq, hp]
  | some p => simp [requestComplete, hq, hp]

/-! ### The slots as a queue -/

/-- The camera requests in the slots, oldest first. -/
def slots (sink : KMSSink) : List Libcamera.Request :=
  (sink.active_.toList ++ sink.queued_.toList ++ sink.pending_.toList).map (·.camRequest_)

theorem slots_length_le (sink : KMSSink) : sink.slots.length ≤ 3 := by
  cases ha : sink.active_ <;> cases hq : sink.queued_ <;> cases hp : sink.pending_ <;> simp [slots, ha, hq, hp]

theorem slots_length_lt (h : sink.displays camRequest = some drmBuffer) : sink.slots.length < 3 := by
  have hp := pending_eq_none_of_displays h
  cases ha : sink.active_ <;> cases hq : sink.queued_ <;> simp [slots, ha, hq, hp]

variable (calls) in
/-- An accepted frame is the newest request in the slots. -/
theorem slots_processRequest (h : sink.displays camRequest = some drmBuffer) :
    (sink.processRequest calls camRequest).sink.slots = sink.slots ++ [camRequest] := by
  have hp := pending_eq_none_of_displays h
  cases hq : sink.queued_ with
  | none => simp [processRequest_queued h hq, slots, newRequest, hq, hp]
  | some queued => simp [processRequest_pending h hq, slots, newRequest, hq, hp]

end KMSSink

end Twincam
