import Twincam.CameraAcquire
import Twincam.Options
import Twincam.StartCapture
import Twincam.Lib.Progress

/-!
# The life of a session (`CamApp::exec` and `run` in `twincam.cpp`, `start`, `stop` and the destructor of
`CameraSession`)

`CamApp::run` acquires a camera, starts a session on it, runs the event loop and stops the session; every call on the
way can fail, and then the destructors have to clean up.  `Usage` is the protocol that the camera, the sink, the
allocator and the requests have to be used by: what has to be there when a call is made and what the call leaves there.

* `start_follows`: the start of a session follows it, whatever fails.
* `exec_follows`: so does the whole of `CamApp::exec`, which leaves nothing acquired, running or allocated behind.
-/

namespace Twincam

open Libcamera (StreamPtr FrameBufferPtr StreamConfiguration)
open StartCapture
open Std.Do

set_option mvcgen.warning false

/-- The calls of `CamApp::exec`, with what they return. -/
inductive SessionCall (C : Type)
  | camera (c : CameraCall C)
  | configure (ret : Int)
  | newSink (kind : SinkKind)
  | sinkConfigure (ret : Int)
  | newAllocator
  | capture (c : CaptureCall)
  -- `loop_.exec()`, which runs callbacks of the camera, the sink and the requests until it is left
  | loopExec
  | cameraStop (ret : Int)
  | sinkStop (ret : Int)
  | deleteSink
  | clearRequests
  | deleteAllocator
  | managerStop
deriving DecidableEq

/-! ### The protocol -/

/-- What the sink was told last. -/
inductive SinkStage
  | absent
  | created
  | configured
  | started
deriving DecidableEq

/-- What is in use: the cameras acquired, whether the camera of the session is configured and whether it runs, the sink,
the allocator, the requests that exist, and the camera manager. -/
structure Usage (C : Type) where
  acquired : List C
  configured : Bool
  running : Bool
  sink : SinkStage
  allocator : Bool
  requests : List Nat
  manager : Bool
deriving DecidableEq

namespace Usage

variable {C : Type} [DecidableEq C]

/-- The calls of `startCapture`: buffers and requests come from a configured camera, buffers are mapped into a
configured sink, frames are requested from a running camera, and only what was started is stopped. -/
def capture (u : Usage C) : CaptureCall → Option (Usage C)
  | .allocate _ _ => if u.allocator && u.configured && !u.running then some u else none
  | .createRequest request => if u.configured then some { u with requests := u.requests ++ request.toList } else none
  | .addBuffer request _ _ _ => if request ∈ u.requests then some u else none
  | .mapBuffer _ => if u.sink = .configured then some u else none
  | .sinkStart ret =>
    if u.sink = .configured then some (if ret = 0 then { u with sink := .started } else u) else none
  | .cameraStart ret =>
    if u.configured && !u.running then some (if ret = 0 then { u with running := true } else u) else none
  | .queueRequest request _ => if u.running && decide (request ∈ u.requests) then some u else none
  | .cameraStop => if u.running then some { u with running := false } else none
  | .sinkStop => if u.sink = .started then some { u with sink := .configured } else none

/-- A call that is made when it may be; libcamera ignores the release of a camera that is not acquired, but not of one
that runs. -/
def step (u : Usage C) : SessionCall C → Option (Usage C)
  | .camera (.acquire camera ret) => some (if ret = 0 then { u with acquired := camera :: u.acquired } else u)
  | .camera (.release camera) =>
    if u.running then none else some { u with acquired := u.acquired.erase camera, configured := false }
  | .configure ret =>
    if u.acquired ≠ [] ∧ ¬u.running then some (if 0 ≤ ret then { u with configured := true } else u) else none
  | .newSink _ => if u.sink = .absent then some { u with sink := .created } else none
  | .sinkConfigure ret =>
    if u.sink = .created then some (if 0 ≤ ret then { u with sink := .configured } else u) else none
  | .newAllocator => if u.allocator then none else some { u with allocator := true }
  | .capture c => u.capture c
  | .loopExec => if u.running && u.sink = .started && u.allocator then some u else none
  | .cameraStop _ => if u.running then some { u with running := false } else none
  | .sinkStop _ => if u.sink = .started then some { u with sink := .configured } else none
  | .deleteSink =>
    if (u.sink = .created ∨ u.sink = .configured) ∧ ¬u.running then some { u with sink := .absent } else none
  | .clearRequests => if u.running then none else some { u with requests := [] }
  | .deleteAllocator =>
    if u.allocator && u.requests.isEmpty && !u.running then some { u with allocator := false } else none
  | .managerStop => if u = ⟨[], false, false, .absent, false, [], true⟩ then some { u with manager := false } else none

/-- Nothing but these cameras is in use, and the camera manager if `manager` holds. -/
def holding (acquired : List C) (manager : Bool) : Usage C := ⟨acquired, false, false, .absent, false, [], manager⟩

def unused (manager : Bool) : Usage C := holding [] manager

def machine : Machine (Usage C) (SessionCall C) where
  init u := u = unused true
  step := step

end Usage

/-! ### `CameraSession` and `CamApp` -/

/-- How everything answers: the cameras there are and how they answer `validateConfig`, `camera_->configure`, the sink,
`startCapture` and `camera_->stop`. -/
structure SessionAnswers (C : Type) where
  cameras : List C
  camera : CameraAnswers C
  configure : Int
  sinkConfigure : Int
  capture : CaptureAnswers
  cameraStop : Int
  sinkStop : Int

/-- A session: its camera, the streams that it is configured for and their names, its sink, its allocator, its requests,
the counters, and the calls so far. -/
structure CamSession (C : Type) where
  holder : CameraHolder C
  streamNames_ : List (StreamPtr × String)
  sink_ : Option SinkKind
  allocator_ : Bool
  requests_ : List CaptureRequest
  queueCount_ : UInt32
  captureCount_ : UInt32
  calls : List (SessionCall C)

namespace CamSession

variable {C : Type} (build : Build) (opts : Options) (answers : SessionAnswers C)

def call (s : CamSession C) (c : SessionCall C) : CamSession C := { s with calls := s.calls ++ [c] }

/-- The names that `start` gives to the streams; `cameraIndex_` is zero. -/
def streamNames (config : List StreamConfiguration) : List (StreamPtr × String) :=
  config.mapIdx fun index cfg => (cfg.stream, "cam0-stream" ++ toString index)

/-- `CameraSession::init`. -/
def init (s : CamSession C) : Int × CamSession C :=
  let (ret, holder) := CameraHolder.init answers.camera answers.cameras (Int32.ofInt opts.camera) s.holder
  (ret, { s with holder := holder, calls := s.calls ++ holder.calls.map .camera })

/-- `startCapture` in `start`: its result, and the session after it; `none` when it accesses a vector past its end. -/
def capture (config : List StreamConfiguration) (s : CamSession C) : Option (Int × CamSession C) :=
  let (ret, t) := outcome
    ((startCapture { answers.capture with hasSink := s.sink_.isSome } config).run ⟨s.requests_, s.queueCount_, []⟩)
  ret.map fun ret =>
    (ret, { s with requests_ := t.requests_, queueCount_ := t.queueCount_, calls := s.calls ++ t.calls.map .capture })

/-- `CameraSession::start` for a configuration of the streams `config`. -/
def start (config : List StreamConfiguration) (s : CamSession C) : Option (Int × CamSession C) :=
  let s := { s with queueCount_ := 0, captureCount_ := 0 }
  let s := s.call (.configure answers.configure)
  if answers.configure < 0 then some (answers.configure, s)
  else
    let s := { s with streamNames_ := streamNames config }
    match chosenSink build opts with
    | none => none
    | some kind =>
      let s := { s with sink_ := some kind }.call (.newSink kind)
      let s := s.call (.sinkConfigure answers.sinkConfigure)
      if answers.sinkConfigure < 0 then some (answers.sinkConfigure, s)
      else
        let s := { s with allocator_ := true }.call .newAllocator
        s.capture answers config

/-- `CameraSession::stop`. -/
def stop (s : CamSession C) : CamSession C :=
  let s := s.call (.cameraStop answers.cameraStop)
  let s := if s.sink_.isSome then { s.call (.sinkStop answers.sinkStop) with sink_ := none }.call .deleteSink else s
  let s := { s with requests_ := [] }.call .clearRequests
  if s.allocator_ then { s with allocator_ := false }.call .deleteAllocator else s

/-- `CameraSession::~CameraSession` and the destructors of the members, last one first. -/
def destructor (s : CamSession C) : CamSession C :=
  let s := match s.holder.camera_ with
    | none => s
    | some camera => s.call (.camera (.release camera))
  let s := { s with requests_ := [] }.call .clearRequests
  let s := if s.allocator_ then { s with allocator_ := false }.call .deleteAllocator else s
  if s.sink_.isSome then { s with sink_ := none }.call .deleteSink else s

/-- A session that was just constructed. -/
def constructed : CamSession C := ⟨CameraHolder.constructed, [], none, false, [], 0, 0, []⟩

/-- `CamApp::run`: its result and the calls made. -/
def run (config : List StreamConfiguration) : Option (Int × List (SessionCall C)) :=
  if opts.print_available_cameras then some (0, [])
  else if answers.cameras.isEmpty then some (0, [])
  else
    let (ret, session) := constructed.init opts answers
    if ret ≠ 0 then some (ret, session.destructor.calls)
    else (session.start build opts answers config).map fun (ret, session) =>
      if ret ≠ 0 then (ret, session.destructor.calls)
      else (0, ((session.call .loopExec).stop answers).destructor.calls)

/-- `CamApp::exec`. -/
def exec (config : List StreamConfiguration) : Option (Int × List (SessionCall C)) :=
  (run build opts answers config).map fun (ret, calls) => (ret, calls ++ [.managerStop])

end CamSession

/-! ### The capture follows the protocol -/

namespace Usage

variable {C : Type} [DecidableEq C]

/-- A configured camera that does not run, a sink that was configured and an allocator. -/
structure Ready (u : Usage C) : Prop where
  configured : u.configured = true
  running : u.running = false
  sink : u.sink = .configured
  allocator : u.allocator = true

/-- The calls so far follow the protocol from `u` on, and nothing is started. -/
def Idle (u : Usage C) (requests : List Nat) (s : CaptureState) : Prop :=
  machine.replay u (s.calls.map .capture) = some { u with requests := requests }

/-- Nothing is started, whatever requests there are. -/
def Halted (u : Usage C) (s : CaptureState) : Prop := ∃ requests, Idle u requests s

/-- Nothing is started, and the requests of the session are among those that exist. -/
def Setup (u : Usage C) (s : CaptureState) : Prop :=
  ∃ requests, Idle u requests s ∧ ∀ r ∈ s.requests_, r.addr ∈ requests

/-- The sink is started, the camera is if `running` holds, and the requests of the session exist. -/
def Started (u : Usage C) (running : Bool) (s : CaptureState) : Prop :=
  ∃ requests, machine.replay u (s.calls.map .capture) =
      some { u with requests := requests, sink := .started, running := running } ∧
    ∀ r ∈ s.requests_, r.addr ∈ requests

variable {u : Usage C} {answers : CaptureAnswers} {config : List StreamConfiguration}

private theorem Idle.call {s : CaptureState} {requests requests' : List Nat} (h : Idle u requests s) {c : CaptureCall}
    (hc : ({ u with requests := requests } : Usage C).capture c = some { u with requests := requests' }) :
    Idle u requests' { s with calls := s.calls ++ [c] } := by
  rw [Idle, List.map_append]
  exact Machine.replay_concat h hc

private theorem Setup.call {s : CaptureState} (h : Setup u s) {c : CaptureCall}
    (hc : ∀ requests, ({ u with requests := requests } : Usage C).capture c = some { u with requests := requests }) :
    Setup u { s with calls := s.calls ++ [c] } := by
  obtain ⟨requests, hidle, hmem⟩ := h
  exact ⟨requests, hidle.call (hc requests), hmem⟩

private theorem Setup.halted {s : CaptureState} (h : Setup u s) : Halted u s := by
  obtain ⟨requests, hidle, -⟩ := h
  exact ⟨requests, hidle⟩

private theorem allocateBuffers_follows (hu : Ready u) :
    ⦃fun s => ⌜Setup u s⌝⦄ allocateBuffers answers config
    ⦃post⟨fun _ s => ⌜Setup u s⌝, fun _ s => ⌜Halted u s⌝⟩⦄ := by
  have hcall : ∀ stream ret requests, ({ u with requests := requests } : Usage C).capture (.allocate stream ret) =
      some { u with requests := requests } := by
    intro stream ret requests
    simp [capture, hu.allocator, hu.configured, hu.running]
  mvcgen [allocateBuffers, allocate, StartCapture.call]
  case inv1 => exact post⟨fun _ s => ⌜Setup u s⌝, fun _ s => ⌜Halted u s⌝⟩
  case vc1.step.isTrue cfg _ _ n s hinv ret _ _ hret => exact (hinv.call (hcall cfg.stream ret)).halted
  case vc2.step.isFalse cfg _ _ n s hinv ret _ _ hret _ => exact hinv.call (hcall cfg.stream ret)
  case vc3.pre hsetup => exact hsetup
  case vc4.post.success hinv => exact hinv
  case vc5.post.except => exact ExceptConds.entails.rfl

/-- The request at `addr`, which is being filled, exists, and so do those of the session. -/
def Filling (u : Usage C) (addr : Nat) (request : CaptureRequest) (s : CaptureState) : Prop :=
  request.addr = addr ∧ ∃ requests, Idle u requests s ∧ addr ∈ requests ∧ ∀ r ∈ s.requests_, r.addr ∈ requests

private theorem Filling.call {s : CaptureState} {addr : Nat} {request : CaptureRequest} (h : Filling u addr request s)
    {c : CaptureCall}
    (hc : ∀ requests, addr ∈ requests →
      ({ u with requests := requests } : Usage C).capture c = some { u with requests := requests }) :
    Filling u addr request { s with calls := s.calls ++ [c] } := by
  obtain ⟨haddr, requests, hidle, hnew, hmem⟩ := h
  exact ⟨haddr, requests, hidle.call (hc requests hnew), hnew, hmem⟩

private theorem Filling.addBuffer {s : CaptureState} {addr : Nat} {request : CaptureRequest}
    (h : Filling u addr request s) (stream : StreamPtr) (buffer : FrameBufferPtr) (ret : Int) :
    Filling u addr request { s with calls := s.calls ++ [.addBuffer addr stream buffer ret] } :=
  h.call fun requests hmem => by simp [capture, hmem]

private theorem Filling.mapBuffer (hu : Ready u) {s : CaptureState} {addr : Nat} {request : CaptureRequest}
    (h : Filling u addr request s) (buffer : FrameBufferPtr) :
    Filling u addr request { s with calls := s.calls ++ [.mapBuffer buffer] } :=
  h.call fun requests _ => by simp [capture, hu.sink]

private theorem Filling.insert {s : CaptureState} {addr : Nat} {request : CaptureRequest} (h : Filling u addr request s)
    (buffers : List (StreamPtr × FrameBufferPtr)) : Filling u addr { request with buffers := buffers } s := h

private theorem Filling.halted {s : CaptureState} {addr : Nat} {request : CaptureRequest}
    (h : Filling u addr request s) :
    Halted u s := by
  obtain ⟨-, requests, hidle, -⟩ := h
  exact ⟨requests, hidle⟩

private theorem Filling.push {s : CaptureState} {addr : Nat} {request : CaptureRequest} (h : Filling u addr request s) :
    Setup u { s with requests_ := s.requests_ ++ [request] } := by
  obtain ⟨rfl, requests, hidle, hnew, hmem⟩ := h
  refine ⟨requests, hidle, fun r hr => ?_⟩
  rcases List.mem_append.1 hr with hold | hlast
  · exact hmem r hold
  · rw [List.mem_singleton.1 hlast]
    exact hnew

private theorem Setup.created (hu : Ready u) {s : CaptureState} (h : Setup u s) {request : Option Nat} {addr : Nat}
    (haddr : request = some addr) :
    Filling u addr ⟨addr, []⟩ { s with calls := s.calls ++ [.createRequest request] } := by
  obtain ⟨requests, hidle, hmem⟩ := h
  refine ⟨rfl, requests ++ request.toList, hidle.call (by simp [capture, hu.configured]), by simp [haddr], ?_⟩
  exact fun r hr => List.mem_append_left _ (hmem r hr)

private theorem Setup.not_created (hu : Ready u) {s : CaptureState} (h : Setup u s) (request : Option Nat) :
    Halted u { s with calls := s.calls ++ [.createRequest request] } := by
  obtain ⟨requests, hidle, -⟩ := h
  exact ⟨requests ++ request.toList, hidle.call (by simp [capture, hu.configured])⟩

private theorem makeRequest_follows (hu : Ready u) {i : Nat} :
    ⦃fun s => ⌜Setup u s⌝⦄ makeRequest answers config i
    ⦃post⟨fun _ s => ⌜Setup u s⌝, fun _ s => ⌜Halted u s⌝⟩⦄ := by
  mvcgen [makeRequest, createRequest, addBuffer, StartCapture.call]
  case inv1 addr _ _ => exact post⟨fun p s => ⌜Filling u addr p.2 s⌝, fun _ s => ⌜Halted u s⌝⟩
  case vc1.step.h_1.isTrue cfg _ _ _ buffer _ s hinv ret _ _ _ => exact (hinv.addBuffer cfg.stream buffer ret).halted
  case vc2.step.h_1.isFalse.isTrue cfg _ _ _ buffer _ s hinv ret _ _ _ _ _ _ =>
    exact ((hinv.addBuffer cfg.stream buffer ret).mapBuffer hu buffer).insert _
  case vc3.step.h_1.isFalse.isFalse cfg _ _ _ buffer _ s hinv ret _ _ _ _ _ =>
    exact (hinv.addBuffer cfg.stream buffer ret).insert _
  case vc4.step.h_2 hinv => exact hinv.halted
  case vc5.h_1.pre s hsetup _ _ addr haddr _ => exact hsetup.created hu haddr
  case vc6.h_1.post.success hinv _ => exact hinv.push
  case vc7.h_1.post.except => exact ExceptConds.entails.rfl
  case vc8.h_2 s hsetup request _ _ _ _ => exact hsetup.not_created hu request

private theorem Setup.sinkStart (hu : Ready u) {s : CaptureState} (h : Setup u s) :
    Started u false { s with calls := s.calls ++ [.sinkStart 0] } := by
  obtain ⟨requests, hidle, hmem⟩ := h
  refine ⟨requests, ?_, hmem⟩
  rw [List.map_append]
  refine Machine.replay_concat hidle ?_
  show ({ u with requests := requests } : Usage C).capture (.sinkStart 0) = _
  simp [capture, hu.sink, hu.running]

private theorem startSink_follows (hu : Ready u) (hsink : answers.hasSink = true) :
    ⦃fun s => ⌜Setup u s⌝⦄ startSink answers
    ⦃post⟨fun _ s => ⌜Started u false s⌝, fun _ s => ⌜Halted u s⌝⟩⦄ := by
  mvcgen [startSink, StartCapture.sinkStart, StartCapture.call]
  case vc1.isTrue.isTrue s hsetup ret _ hret =>
    refine (hsetup.call fun requests => ?_).halted
    simp [capture, hu.sink, hret]
  case vc2.isTrue.isFalse s hsetup ret _ hret =>
    have hzero := hsetup.sinkStart hu
    rw [← not_not.1 hret] at hzero
    exact hzero

private theorem Started.cameraStart (hu : Ready u) {s : CaptureState} (h : Started u false s) :
    Started u true { s with calls := s.calls ++ [.cameraStart 0] } := by
  obtain ⟨requests, hreplay, hmem⟩ := h
  refine ⟨requests, ?_, hmem⟩
  rw [List.map_append]
  refine Machine.replay_concat hreplay ?_
  show Usage.capture _ (.cameraStart 0) = _
  simp [capture, hu.configured]

/-- What was started is stopped again: the camera, if it runs, and the sink. -/
private theorem Started.unwind {running : Bool} {s : CaptureState} (h : Started u running s) {calls : List CaptureCall}
    (hcalls : ∀ requests, (∀ r ∈ s.requests_, r.addr ∈ requests) →
      machine.replay { u with requests := requests, sink := .started, running := running } (calls.map .capture) =
        some { u with requests := requests }) (queueCount : UInt32) :
    Halted u ⟨s.requests_, queueCount, s.calls ++ calls⟩ := by
  obtain ⟨requests, hreplay, hmem⟩ := h
  refine ⟨requests, ?_⟩
  show machine.replay u ((s.calls ++ calls).map .capture) = _
  rw [List.map_append, Machine.replay_append, hreplay]
  exact hcalls requests hmem

private theorem startCamera_follows (hu : Ready u) (hsink : answers.hasSink = true) :
    ⦃fun s => ⌜Started u false s⌝⦄ startCamera answers
    ⦃post⟨fun _ s => ⌜Started u true s⌝, fun _ s => ⌜Halted u s⌝⟩⦄ := by
  mvcgen [startCamera, StartCapture.cameraStart, StartCapture.call]
  case vc1.isTrue.isTrue s hstarted ret _ hret _ _ _ =>
    have hcalls : ∀ requests, (∀ r ∈ s.requests_, r.addr ∈ requests) →
        machine.replay { u with requests := requests, sink := .started, running := false }
          ([.cameraStart ret, .sinkStop].map .capture) = some { u with requests := requests } := by
      intro requests _
      simp [Machine.replay, machine, step, capture, hu.configured, hret, hu.sink, hu.running]
    have hhalted := hstarted.unwind hcalls s.queueCount_
    rw [List.append_cons] at hhalted
    exact hhalted
  case vc3.isFalse s hstarted ret _ hret =>
    have hzero := hstarted.cameraStart hu
    rw [← not_not.1 hret] at hzero
    exact hzero

private theorem Started.queueRequest {s : CaptureState} (h : Started u true s) {request : CaptureRequest}
    (hmem : request ∈ s.requests_) (ret : Int) (queueCount : UInt32) :
    Started u true ⟨s.requests_, queueCount, s.calls ++ [.queueRequest request.addr ret]⟩ := by
  obtain ⟨requests, hreplay, hall⟩ := h
  refine ⟨requests, ?_, hall⟩
  show machine.replay u ((s.calls ++ [_]).map .capture) = _
  rw [List.map_append]
  refine Machine.replay_concat hreplay ?_
  show Usage.capture _ (.queueRequest request.addr ret) = _
  simp [capture, hall request hmem]

private theorem queueRequests_follows (hu : Ready u) (hsink : answers.hasSink = true) {requests : List CaptureRequest} :
    ⦃fun s => ⌜Started u true s ∧ s.requests_ = requests⌝⦄ queueRequests answers requests
    ⦃post⟨fun _ s => ⌜Started u true s⌝, fun _ s => ⌜Halted u s⌝⟩⦄ := by
  mvcgen [queueRequests, StartCapture.queueRequest, StartCapture.call]
  case inv1 =>
    exact post⟨fun _ s => ⌜Started u true s ∧ s.requests_ = requests⌝, fun _ s => ⌜Halted u s⌝⟩
  case vc1.step.isTrue.isTrue request _ hsplit _ s hinv _ ret _ hret _ _ _ _ =>
    have hmem : request ∈ s.requests_ := by
      rw [hinv.2, hsplit]
      simp
    have hcalls : ∀ requests, (∀ r ∈ s.requests_, r.addr ∈ requests) →
        machine.replay { u with requests := requests, sink := .started, running := true }
          ([.queueRequest request.addr ret, .cameraStop, .sinkStop].map .capture) =
          some { u with requests := requests } := by
      intro requests hall
      simp [Machine.replay, machine, step, capture, hall request hmem, hu.sink, hu.running]
    have hhalted := hinv.1.unwind hcalls (s.queueCount_ + 1)
    rw [List.append_cons, List.append_cons] at hhalted
    exact hhalted
  case vc3.step.isFalse request _ hsplit _ s hinv _ ret _ hret =>
    have hmem : request ∈ s.requests_ := by
      rw [hinv.2, hsplit]
      simp
    exact ⟨hinv.1.queueRequest hmem ret _, hinv.2⟩
  case vc4.pre hstarted => exact hstarted
  case vc5.post.success hinv => exact hinv.1
  case vc6.post.except => exact ExceptConds.entails.rfl

private theorem startCapture_follows (hu : Ready u) (hsink : answers.hasSink = true) :
    ⦃fun s => ⌜Setup u s⌝⦄ startCapture answers config
    ⦃post⟨fun _ s => ⌜Started u true s⌝, fun _ s => ⌜Halted u s⌝⟩⦄ := by
  have hallocate := @allocateBuffers_follows C _ u answers config hu
  have hmake := @makeRequest_follows C _ u answers config hu
  have hsinkStart := @startSink_follows C _ u answers hu hsink
  have hcameraStart := @startCamera_follows C _ u answers hu hsink
  have hqueue := @queueRequests_follows C _ u answers hu hsink
  mvcgen [startCapture, hallocate, hmake, hsinkStart, hcameraStart, hqueue]
  case inv1 => exact post⟨fun _ s => ⌜Setup u s⌝, fun _ s => ⌜Halted u s⌝⟩
  case vc2.step.pre hsetup => exact hsetup
  case vc3.step.post.success hsetup => exact hsetup
  case vc4.step.post.except.handle => exact fun _ h => h
  case vc5.post.success.pre hsetup => exact hsetup
  case vc6.post.success.post.success.pre hsetup => exact hsetup
  case vc9.post.success.post.except => exact ExceptConds.entails.rfl

/-- `startCapture` returns, and its calls follow the protocol; it leaves everything started when it returns 0, and
nothing otherwise. -/
private theorem startCapture_outcome (answers : CaptureAnswers) (hu : Ready u) (hsink : answers.hasSink = true)
    (hne : config ≠ []) (queueCount : UInt32) :
    ∃ ret s, outcome ((startCapture answers config).run ⟨[], queueCount, []⟩) = (some ret, s) ∧
      (ret = 0 → Started u true s) ∧ (ret ≠ 0 → Halted u s) := by
  have hreturns : match (startCapture answers config).run ⟨[], queueCount, []⟩ with
      | .ok _ _ => True
      | .error e _ => ∃ ret, e = .ret ret ∧ ret ≠ 0 := by
    have hspec := @startCapture_triple answers config hne
    refine EStateM.of_wp_run_eq rfl (fun r : EStateM.Result CaptureExit CaptureState Unit => match r with
      | .ok _ _ => True
      | .error e _ => ∃ ret, e = .ret ret ∧ ret ≠ 0) ?_
    mvcgen [hspec]
    case vc2.post.except.handle => exact fun hfailed => hfailed.1
  have hfollows : match (startCapture answers config).run ⟨[], queueCount, []⟩ with
      | .ok _ s => Started u true s
      | .error _ s => Halted u s := by
    have hspec := @startCapture_follows C _ u answers config hu hsink
    refine EStateM.of_wp_run_eq rfl (fun r : EStateM.Result CaptureExit CaptureState Unit => match r with
      | .ok _ s => Started u true s
      | .error _ s => Halted u s) ?_
    mvcgen [hspec]
    case vc1 => exact ⟨u.requests, rfl, by simp⟩
  cases hrun : (startCapture answers config).run ⟨[], queueCount, []⟩ with
  | ok value s =>
    rw [hrun] at hfollows
    exact ⟨0, s, rfl, fun _ => hfollows, fun h => absurd rfl h⟩
  | error e s =>
    rw [hrun] at hreturns hfollows
    obtain ⟨ret, rfl, hret⟩ := hreturns
    exact ⟨ret, s, rfl, fun h => absurd h hret, fun _ => hfollows⟩

/-! ### The session follows the protocol -/

/-- Calls that keep the ledger of acquired cameras also follow the protocol. -/
private theorem replay_camera {calls : List (CameraCall C)} {hs hs' : List C}
    (h : Ledger.machine.replay hs (calls.filterMap CameraCall.entry?) = some hs') (manager : Bool) :
    machine.replay (holding hs manager) (calls.map .camera) = some (holding hs' manager) := by
  induction calls generalizing hs with
  | nil => exact congrArg _ (congrArg (holding · manager) (Option.some.inj h))
  | cons c calls ih =>
    rw [List.map_cons]
    cases c with
    | acquire camera ret =>
      by_cases hret : ret = 0
      · have hentry : CameraCall.entry? (.acquire camera ret) = some (.acquire camera) := if_pos hret
        rw [List.filterMap_cons_some hentry] at h
        have hstep : machine.step (holding hs manager) (.camera (.acquire camera ret)) =
            some (holding (camera :: hs) manager) := by
          simp [machine, step, hret, holding]
        rw [Machine.replay, hstep]
        exact ih h
      · have hentry : CameraCall.entry? (.acquire camera ret) = none := if_neg hret
        rw [List.filterMap_cons_none hentry] at h
        have hstep : machine.step (holding hs manager) (.camera (.acquire camera ret)) =
            some (holding hs manager) := by
          simp [machine, step, hret]
        rw [Machine.replay, hstep]
        exact ih h
    | release camera =>
      have hentry : CameraCall.entry? (.release camera) = some (.release camera) := rfl
      rw [List.filterMap_cons_some hentry, Machine.replay] at h
      have hmem : camera ∈ hs := by
        by_contra hno
        rw [show Ledger.machine.step hs (.release camera) = none from if_neg hno] at h
        cases h
      rw [Ledger.step_release hmem] at h
      have hstep : machine.step (holding hs manager) (.camera (.release camera)) =
          some (holding (hs.erase camera) manager) := rfl
      rw [Machine.replay, hstep]
      exact ih h

end Usage

namespace CamSession

variable {C : Type} [DecidableEq C] {build : Build} {opts : Options} {answers : SessionAnswers C}
  {config : List StreamConfiguration}

/-- The calls of a session so far follow the protocol, and the members say what there is to destroy. -/
structure Tracks (s : CamSession C) (u : Usage C) : Prop where
  replay : Usage.machine.replay (Usage.unused true) s.calls = some u
  sink : u.sink ≠ .absent ↔ s.sink_.isSome = true
  allocator : u.allocator = s.allocator_
  manager : u.manager = true

/-- Nothing runs, and the destructor releases the one camera that is acquired, if any. -/
structure Stopped (s : CamSession C) (u : Usage C) : Prop where
  tracks : Tracks s u
  running : u.running = false
  sink : u.sink ≠ .started
  camera : match s.holder.camera_ with
    | none => u.acquired = [] ∧ u.configured = false
    | some camera => u.acquired.erase camera = []

private theorem Tracks.call {s : CamSession C} {u v : Usage C} (h : Tracks s u) {c : SessionCall C}
    (hc : u.step c = some v) (hsink : v.sink ≠ .absent ↔ u.sink ≠ .absent) (hallocator : v.allocator = u.allocator)
    (hmanager : v.manager = u.manager) : Tracks (s.call c) v :=
  ⟨Machine.replay_concat h.replay hc, hsink.trans h.sink, hallocator.trans h.allocator, hmanager.trans h.manager⟩

private theorem chosenSink_eq_some (build : Build) (opts : Options) : ∃ kind, chosenSink build opts = some kind := by
  unfold chosenSink parse_args
  cases hsdl : build.HAVE_SDL && opts.sdl with
  | true => exact ⟨_, rfl⟩
  | false =>
    cases hdrm : build.HAVE_DRM && opts.drm with
    | true => exact ⟨_, rfl⟩
    | false =>
      by_cases hfile : opts.filename ≠ []
      · exact ⟨.FileSink opts.filename, by simp [hfile]⟩
      · cases hs : build.HAVE_SDL <;> cases hd : build.HAVE_DRM <;> simp [hfile]

omit [DecidableEq C] in
/-- The calls of the destructor. -/
private theorem destructor_calls (s : CamSession C) : s.destructor.calls = s.calls ++
    (s.holder.camera_.toList.map (fun camera => .camera (.release camera)) ++ [.clearRequests] ++
      (if s.allocator_ then [.deleteAllocator] else []) ++ if s.sink_.isSome then [.deleteSink] else []) := by
  cases hcam : s.holder.camera_ <;> cases halloc : s.allocator_ <;> cases hsink : s.sink_ <;>
    simp [CamSession.destructor, CamSession.call, hcam, halloc, hsink]

/-- The destructor of a session in which nothing runs leaves nothing behind. -/
private theorem Stopped.destructor {s : CamSession C} {u : Usage C} (h : Stopped s u) :
    Usage.machine.replay (Usage.unused true) s.destructor.calls = some (Usage.unused true) := by
  obtain ⟨⟨hreplay, hsink, hallocator, hmanager⟩, hrunning, hstarted, hcamera⟩ := h
  rw [destructor_calls, Machine.replay_append, hreplay, Option.bind_some]
  have hrelease : Usage.machine.replay u (s.holder.camera_.toList.map fun camera => .camera (.release camera)) =
      some { u with acquired := [], configured := false } := by
    cases hcam : s.holder.camera_ with
    | none =>
      rw [hcam] at hcamera
      rw [← hcamera.1, ← hcamera.2]
      rfl
    | some camera =>
      rw [hcam] at hcamera
      simp only at hcamera
      simp [Machine.replay, Usage.machine, Usage.step, hrunning, hcamera]
  have hclear : Usage.machine.step ({ u with acquired := [], configured := false } : Usage C) .clearRequests =
      some { u with acquired := [], configured := false, requests := [] } := by
    simp [Usage.machine, Usage.step, hrunning]
  have hfree : Usage.machine.replay ({ u with acquired := [], configured := false, requests := [] } : Usage C)
      (if u.allocator then [.deleteAllocator] else []) =
        some { u with acquired := [], configured := false, requests := [], allocator := false } := by
    cases halloc : u.allocator with
    | true => simp [Machine.replay, Usage.machine, Usage.step, hrunning]
    | false => simp [Machine.replay]
  have hdelete : Usage.machine.replay
      ({ u with acquired := [], configured := false, requests := [], allocator := false } : Usage C)
      (if s.sink_.isSome then [.deleteSink] else []) = some (Usage.unused true) := by
    cases hsome : s.sink_.isSome with
    | true =>
      have habsent := hsink.2 hsome
      have hstage : u.sink = .created ∨ u.sink = .configured := by
        cases hu : u.sink <;> simp_all
      simp [Machine.replay, Usage.machine, Usage.step, hstage, hrunning, Usage.unused, Usage.holding, hmanager]
    | false =>
      have habsent : u.sink = .absent := by
        by_contra hne
        rw [hsink.1 hne] at hsome
        cases hsome
      simp [Machine.replay, Usage.unused, Usage.holding, hmanager, hrunning, habsent]
  rw [Machine.replay_append, Machine.replay_append, Machine.replay_concat hrelease hclear, ← hallocator,
    Option.bind_some, hfree]
  exact hdelete

/-- A session that is constructed and initialised: it holds the camera that it found, or fails and has nothing to
stop. -/
private theorem init_follows (opts : Options) (answers : SessionAnswers C) :
    ∃ ret s, constructed.init opts answers = (ret, s) ∧ s.sink_ = none ∧ s.allocator_ = false ∧ s.requests_ = [] ∧
      .loopExec ∉ s.calls ∧
      ((ret = 0 ∧ ∃ camera, s.holder.camera_ = some camera ∧
          Usage.machine.replay (Usage.unused true) s.calls = some (Usage.holding [camera] true)) ∨
        (ret ≠ 0 ∧ ∃ u, Stopped s u)) := by
  have htried := CameraHolder.tryCameras_spec answers.camera
    (CameraHolder.tried answers.cameras (Int32.ofInt opts.camera)) (s := CameraHolder.constructed) rfl
  rw [← CameraHolder.init_eq] at htried
  refine ⟨_, _, rfl, rfl, rfl, rfl, by simp [constructed], ?_⟩
  by_cases hfound : ∃ c ∈ CameraHolder.tried answers.cameras (Int32.ofInt opts.camera),
      CameraHolder.Passes answers.camera c
  · obtain ⟨hret, camera, hcamera, -, hheld⟩ := htried.found hfound
    exact Or.inl ⟨hret, camera, hcamera, Usage.replay_camera hheld true⟩
  · obtain ⟨hret, hheld, hcamera⟩ := htried.failed hfound
    have htracks : Tracks (constructed.init opts answers).2 (Usage.unused true) :=
      ⟨Usage.replay_camera hheld true, by simp [init, Usage.unused, Usage.holding, constructed], rfl, rfl⟩
    refine Or.inr ⟨?_, Usage.unused true, htracks,
      rfl, by simp [Usage.unused, Usage.holding], ?_⟩
    · show (CameraHolder.init answers.camera answers.cameras _ CameraHolder.constructed).1 ≠ 0
      rw [hret]
      decide
    · show match (CameraHolder.init answers.camera answers.cameras _ CameraHolder.constructed).2.camera_ with
        | none => _
        | some camera => _
      cases (CameraHolder.init answers.camera answers.cameras _ CameraHolder.constructed).2.camera_ with
      | none => exact ⟨rfl, rfl⟩
      | some camera => rfl

private theorem Tracks.stopped {s : CamSession C} {u : Usage C} {camera : C} (h : Tracks s u)
    (hcamera : s.holder.camera_ = some camera) (hacquired : u.acquired = [camera]) (hrunning : u.running = false)
    (hsink : u.sink ≠ .started) : Stopped s u := by
  refine ⟨h, hrunning, hsink, ?_⟩
  rw [hcamera]
  simp [hacquired]

/-- The session runs: the camera and the sink are started. -/
structure Runs (s : CamSession C) (camera : C) : Prop where
  acquired : s.holder.camera_ = some camera
  tracks : ∃ requests, Tracks s ⟨[camera], true, true, .started, true, requests, true⟩

/-- The capture of a session that is set up: everything is started, or nothing is. -/
private theorem capture_follows {s : CamSession C} {camera : C} (hne : config ≠ [])
    (hcamera : s.holder.camera_ = some camera) (hsink : s.sink_.isSome = true) (hrequests : s.requests_ = [])
    (h : Tracks s ⟨[camera], true, false, .configured, true, [], true⟩) (hloop : .loopExec ∉ s.calls) :
    ∃ ret s', s.capture answers config = some (ret, s') ∧ .loopExec ∉ s'.calls ∧
      ((ret = 0 ∧ Runs s' camera) ∨ (ret ≠ 0 ∧ ∃ u, Stopped s' u)) := by
  have hready : Usage.Ready (⟨[camera], true, false, .configured, true, [], true⟩ : Usage C) := ⟨rfl, rfl, rfl, rfl⟩
  obtain ⟨ret, t, hrun, hok, hfailed⟩ := Usage.startCapture_outcome { answers.capture with hasSink := true } hready rfl
    hne s.queueCount_
  have hcapture : s.capture answers config = some (ret,
      { s with requests_ := t.requests_, queueCount_ := t.queueCount_, calls := s.calls ++ t.calls.map .capture }) := by
    unfold CamSession.capture
    rw [hsink, hrequests, hrun]
    rfl
  refine ⟨ret, _, hcapture, by simp [hloop], ?_⟩
  by_cases hret : ret = 0
  · obtain ⟨requests, hreplay, -⟩ := hok hret
    refine Or.inl ⟨hret, hcamera, requests, ?_, by simp [hsink], h.allocator, rfl⟩
    rw [Machine.replay_append, h.replay]
    exact hreplay
  · obtain ⟨requests, hreplay⟩ := hfailed hret
    have htracks : Tracks { s with
          requests_ := t.requests_, queueCount_ := t.queueCount_, calls := s.calls ++ t.calls.map .capture }
        ⟨[camera], true, false, .configured, true, requests, true⟩ := by
      refine ⟨?_, by simp [hsink], h.allocator, rfl⟩
      rw [Machine.replay_append, h.replay]
      exact hreplay
    exact Or.inr ⟨hret, _, htracks.stopped hcamera rfl rfl (by simp)⟩

/-- The start of a session that holds a camera follows the protocol; what it leaves behind when it fails can be
destroyed. -/
theorem start_follows (build : Build) (opts : Options) (answers : SessionAnswers C) {s : CamSession C} {camera : C}
    (hne : config ≠ []) (hcamera : s.holder.camera_ = some camera)
    (hreplay : Usage.machine.replay (Usage.unused true) s.calls = some (Usage.holding [camera] true))
    (hsink : s.sink_ = none) (hallocator : s.allocator_ = false) (hrequests : s.requests_ = [])
    (hloop : .loopExec ∉ s.calls) :
    ∃ ret s', s.start build opts answers config = some (ret, s') ∧ .loopExec ∉ s'.calls ∧
      ((ret = 0 ∧ Runs s' camera) ∨ (ret ≠ 0 ∧ ∃ u, Stopped s' u)) := by
  obtain ⟨kind, hkind⟩ := chosenSink_eq_some build opts
  have hheld : Tracks { s with queueCount_ := 0, captureCount_ := 0 } (Usage.holding [camera] true) :=
    ⟨hreplay, by simp [Usage.holding, hsink], hallocator.symm, rfl⟩
  by_cases hconf : answers.configure < 0
  · -- the camera cannot be configured
    have hstep : (Usage.holding [camera] true).step (.configure answers.configure) =
        some (Usage.holding [camera] true) := by
      simp [Usage.step, Usage.holding, not_le.2 hconf]
    refine ⟨answers.configure, _, by simp only [start, hconf, ↓reduceIte], by simp [CamSession.call, hloop],
      Or.inr ⟨ne_of_lt hconf, _, (hheld.call hstep Iff.rfl rfl rfl).stopped hcamera rfl rfl ?_⟩⟩
    simp [Usage.holding]
  have hconfigure : (Usage.holding [camera] true).step (.configure answers.configure) =
      some ⟨[camera], true, false, .absent, false, [], true⟩ := by
    simp [Usage.step, Usage.holding, not_lt.1 hconf]
  have hconfigured := hheld.call hconfigure Iff.rfl rfl rfl
  have hcreated : Tracks (CamSession.call { s with
        queueCount_ := 0, captureCount_ := 0, calls := s.calls ++ [.configure answers.configure],
        streamNames_ := streamNames config, sink_ := some kind } (.newSink kind))
      ⟨[camera], true, false, .created, false, [], true⟩ :=
    ⟨Machine.replay_concat hconfigured.replay rfl, by simp [CamSession.call], hallocator.symm, rfl⟩
  by_cases hset : answers.sinkConfigure < 0
  · -- the sink cannot be configured
    have hstep : (⟨[camera], true, false, .created, false, [], true⟩ : Usage C).step
        (.sinkConfigure answers.sinkConfigure) = some ⟨[camera], true, false, .created, false, [], true⟩ := by
      simp [Usage.step, not_le.2 hset]
    refine ⟨answers.sinkConfigure, _, by simp only [start, hconf, hkind, hset, ↓reduceIte]; rfl,
      by simp [CamSession.call, hloop],
      Or.inr ⟨ne_of_lt hset, _, (hcreated.call hstep Iff.rfl rfl rfl).stopped hcamera rfl rfl ?_⟩⟩
    simp
  have hstep : (⟨[camera], true, false, .created, false, [], true⟩ : Usage C).step
      (.sinkConfigure answers.sinkConfigure) = some ⟨[camera], true, false, .configured, false, [], true⟩ := by
    simp [Usage.step, not_lt.1 hset]
  have hsinkConfigured := hcreated.call hstep (by simp) rfl rfl
  have hstart : s.start build opts answers config = CamSession.capture answers config (CamSession.call
      { CamSession.call (CamSession.call { s with
          queueCount_ := 0, captureCount_ := 0, calls := s.calls ++ [.configure answers.configure],
          streamNames_ := streamNames config, sink_ := some kind } (.newSink kind))
        (.sinkConfigure answers.sinkConfigure) with allocator_ := true } .newAllocator) := by
    simp only [start, hconf, hkind, hset, ↓reduceIte]
    rfl
  rw [hstart]
  refine capture_follows hne hcamera rfl hrequests ⟨?_, ?_, rfl, rfl⟩ ?_
  · exact Machine.replay_concat hsinkConfigured.replay rfl
  · simp [CamSession.call]
  · simp [CamSession.call, hloop]

/-- The callbacks that the loop runs keep the session running. -/
private theorem Runs.loopExec {s : CamSession C} {camera : C} (h : Runs s camera) : Runs (s.call .loopExec) camera := by
  obtain ⟨hcamera, requests, htracks⟩ := h
  exact ⟨hcamera, requests, htracks.call rfl Iff.rfl rfl rfl⟩

/-- The stop of a session that runs. -/
private theorem Runs.stop {s : CamSession C} {camera : C} (h : Runs s camera) (answers : SessionAnswers C) :
    Stopped (s.stop answers) ⟨[camera], true, false, .absent, false, [], true⟩ := by
  obtain ⟨hcamera, requests, hreplay, hsink, hallocator, -⟩ := h
  have hsome : s.sink_.isSome = true := hsink.1 (by simp)
  have halloc : s.allocator_ = true := hallocator.symm
  have hcalls : (s.stop answers).calls = s.calls ++ [.cameraStop answers.cameraStop, .sinkStop answers.sinkStop,
      .deleteSink, .clearRequests, .deleteAllocator] := by
    simp [CamSession.stop, CamSession.call, hsome, halloc]
  refine Tracks.stopped ⟨?_, ?_, ?_, rfl⟩ ?_ rfl rfl (by simp)
  · rw [hcalls, Machine.replay_append, hreplay]
    rfl
  · simp [CamSession.stop, CamSession.call, hsome, halloc]
  · simp [CamSession.stop, CamSession.call, hsome, halloc]
  · simp [CamSession.stop, CamSession.call, hsome, halloc, hcamera]

omit [DecidableEq C] in
/-- The loop is run by `CamApp::run` alone. -/
private theorem loopExec_mem_destructor (s : CamSession C) : .loopExec ∈ s.destructor.calls ↔ .loopExec ∈ s.calls := by
  rw [destructor_calls]
  cases s.allocator_ <;> cases s.sink_ <;> simp

omit [DecidableEq C] in
private theorem loopExec_mem_stop (s : CamSession C) (answers : SessionAnswers C) :
    .loopExec ∈ (s.stop answers).calls ↔ .loopExec ∈ s.calls := by
  cases hsink : s.sink_ <;> cases hallocator : s.allocator_ <;>
    simp [CamSession.stop, CamSession.call, hsink, hallocator]

/-- Whatever fails, the calls of `CamApp::exec` follow the protocol up to the stop of the camera manager, which is
called when nothing is left in use.  It returns 0 when it has only listed the cameras, has found none or has run the
loop. -/
theorem exec_follows (build : Build) (opts : Options) (answers : SessionAnswers C) (hne : config ≠ []) :
    ∃ ret calls, exec build opts answers config = some (ret, calls) ∧
      Usage.machine.replay (Usage.unused true) calls = some (Usage.unused false) ∧
      (ret = 0 ↔ opts.print_available_cameras = true ∨ answers.cameras = [] ∨ .loopExec ∈ calls) := by
  have hend (calls : List (SessionCall C))
      (h : Usage.machine.replay (Usage.unused true) calls = some (Usage.unused true)) :
      Usage.machine.replay (Usage.unused true) (calls ++ [.managerStop]) = some (Usage.unused false) := by
    refine Machine.replay_concat h ?_
    simp [Usage.machine, Usage.step, Usage.unused, Usage.holding]
  by_cases hprint : opts.print_available_cameras = true
  · exact ⟨0, [.managerStop], by simp [exec, run, hprint], hend [] rfl, by simp [hprint]⟩
  by_cases hcameras : answers.cameras = []
  · exact ⟨0, [.managerStop], by simp [exec, run, hprint, hcameras], hend [] rfl, by simp [hcameras]⟩
  -- a failure is returned, and the loop was not run
  have hfail {ret : Int} {s : CamSession C} (hret : ret ≠ 0) (hloop : .loopExec ∉ s.calls) :
      ret = 0 ↔ opts.print_available_cameras = true ∨ answers.cameras = [] ∨
        .loopExec ∈ s.destructor.calls ++ [.managerStop] := by
    simp [hprint, hcameras, hret, loopExec_mem_destructor, hloop]
  obtain ⟨ret, s, hinit, hsink, hallocator, hrequests, hloop, hdone⟩ := init_follows opts answers
  rcases hdone with ⟨rfl, camera, hcamera, hreplay⟩ | ⟨hret, u, hstopped⟩
  · obtain ⟨ret, t, hstart, hloop, hdone⟩ := start_follows build opts answers hne hcamera hreplay hsink hallocator
      hrequests hloop
    rcases hdone with ⟨rfl, hruns⟩ | ⟨hret, u, hstopped⟩
    · have hdestroyed := (hruns.loopExec.stop answers).destructor
      refine ⟨0, _, by simp [exec, run, hprint, hcameras, hinit, hstart], hend _ hdestroyed, ?_⟩
      simp [loopExec_mem_destructor, loopExec_mem_stop, CamSession.call]
    · refine ⟨ret, t.destructor.calls ++ [.managerStop], ?_, hend _ hstopped.destructor, hfail hret hloop⟩
      simp [exec, run, hprint, hcameras, hinit, hstart, hret]
  · refine ⟨ret, s.destructor.calls ++ [.managerStop], ?_, hend _ hstopped.destructor, hfail hret hloop⟩
    simp [exec, run, hprint, hcameras, hinit, hret]

/-- The stream that `validateConfig` asks of a camera. -/
def oneStreamConfig : List StreamConfiguration := [⟨0, Libcamera.formats.NV12, ⟨640, 480⟩, 640⟩]

/-- Two cameras, the first of which is in use elsewhere, and no other failure. -/
def secondCamera : SessionAnswers Nat where
  cameras := [0, 1]
  camera := ⟨fun camera => if camera = 0 then -16 else 0, fun _ => some 1, fun _ => .Valid⟩
  configure := 0
  sinkConfigure := 0
  capture := twoStreams
  cameraStop := 0
  sinkStop := 0

theorem exec_follows_secondCamera :
    ∃ calls, exec ⟨true, true, true⟩ (Options.initial ⟨true, true, true⟩) secondCamera oneStreamConfig =
        some (0, calls) ∧
      Usage.machine.replay (Usage.unused true) calls = some (Usage.unused false) ∧ .loopExec ∈ calls := by
  obtain ⟨ret, calls, hexec, hreplay, hret⟩ := exec_follows ⟨true, true, true⟩ (Options.initial ⟨true, true, true⟩)
    secondCamera (show oneStreamConfig ≠ [] by decide)
  have hzero : (exec ⟨true, true, true⟩ (Options.initial ⟨true, true, true⟩) secondCamera oneStreamConfig).map (·.1) =
      some 0 := by decide +kernel
  rw [hexec, Option.map_some, Option.some.injEq] at hzero
  refine ⟨calls, hzero ▸ hexec, hreplay, ?_⟩
  rcases hret.1 hzero with hprint | hnone | hloop
  · cases hprint
  · cases hnone
  · exact hloop

end CamSession

end Twincam
