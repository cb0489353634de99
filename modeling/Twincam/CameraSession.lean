import Twincam.EventLoop
import Twincam.KmsRun

/-!
# A running capture session (`camera_session.cpp`)

A request travels from the camera through `EventLoop::calls_` into the slots of the KMS sink and back: directly from
`processRequest` when the sink hands it back, through `sinkRelease` when a page flip releases it.  `Session` puts
the three components together with the last loop of `startCapture`, which fills the camera; its machine takes the
steps of the camera thread, the loop thread and the kernel in any order.

* `Conserved`: every request of `requests_` is in one of these places, with its multiplicity.
* `requests_in_one_place`: so it is in exactly one of them, and is queued to the camera only when neither the camera
  nor a slot holds it.
* `capture_never_starves`: with two or more requests and no failed commit, something is always left to happen.
-/

namespace Twincam

open DRM (AtomicCalls)
open Libcamera (Request RequestStatus)

/-- The camera: the requests it holds, and the history of the calls of `camera_->queueRequest`. -/
structure Camera where
  queued : List Request
  log : List Request

def Camera.queueRequest (camera : Camera) (request : Request) : Camera :=
  ⟨camera.queued ++ [request], camera.log ++ [request]⟩

/-- A capture session on the KMS sink.  `starting` are the requests the last loop of `startCapture` has still to
queue, `calls` are the deferred calls, each a request for `processRequest`, and `badCall` says that the event loop
invoked an empty function, which ends the process. -/
structure Session where
  requests_ : List Request
  queueCount_ : UInt32
  captureCount_ : UInt32
  last_ : UInt64
  starting : List Request
  camera : Camera
  calls : CallState Request Nat
  kms : KmsState
  badCall : Bool

inductive SessionEvent
  -- the last loop of `startCapture` queues its next request
  | start
  -- the camera gives a request back on one of its threads
  | complete (thread : Nat) (request : Request) (status : RequestStatus)
  -- the thread schedules the once-event of the call it pushed
  | once (thread : Nat) (ok : Bool)
  -- a once-event fires and runs the oldest deferred call, for a frame with the given timestamp
  | dispatch (timestamp : UInt64) (calls : AtomicCalls)
  -- the kernel delivers the page-flip event that carries `addr`
  | flip (calls : AtomicCalls) (addr : Nat)

namespace Session

/-! ### The functions of `CameraSession` -/

def queueRequest (s : Session) (request : Request) : Session :=
  { s with queueCount_ := s.queueCount_ + 1, camera := s.camera.queueRequest request }

def sinkRelease (s : Session) (request : Request) : Session := s.queueRequest request

/-- `CameraSession::requestComplete`: a request that was not cancelled is deferred to the event loop; its
`event_base_once` is the thread's next step. -/
def requestComplete (s : Session) (thread : Nat) (request : Request) (status : RequestStatus) : Option Session :=
  if status = .RequestCancelled then some s
  else (s.calls.push thread request).map fun calls => { s with calls := calls }

/-- `CameraSession::processRequest`, without the line it prints. -/
def processRequest (s : Session) (timestamp : UInt64) (calls : AtomicCalls) (request : Request) : Session :=
  let (requeue, kms) := s.kms.processRequest calls request
  let s := { s with last_ := timestamp, kms := kms, captureCount_ := s.captureCount_ + 1 }
  if !requeue then s else { s with camera := s.camera.queueRequest request }

/-! ### Steps -/

def dispatch (s : Session) (timestamp : UInt64) (calls : AtomicCalls) : Option Session :=
  match s.calls.fire with
  | none => none
  | some (none, fired) => some { s with calls := fired, badCall := true }
  | some (some request, fired) => some ({ s with calls := fired }.processRequest timestamp calls request)

/-- A page flip, and the `sinkRelease` of every request the sink emits. -/
def flip (s : Session) (calls : AtomicCalls) (addr : Nat) : Session :=
  let (emitted, kms) := s.kms.pageFlipComplete calls addr
  emitted.foldl sinkRelease { s with kms := kms }

/-- The effect of a step while the process lives.  The event loop, which dispatches calls and page flips, runs only
after `startCapture`. -/
def act (s : Session) : SessionEvent → Option Session
  | .start =>
    match s.starting with
    | [] => none
    | request :: rest => some ({ s with starting := rest }.queueRequest request)
  | .complete thread request status =>
    if request ∈ s.camera.queued then
      { s with camera := { s.camera with queued := s.camera.queued.erase request } }.requestComplete
        thread request status
    else none
  | .once thread ok => (s.calls.once thread ok).map fun calls => { s with calls := calls }
  | .dispatch timestamp calls => if s.starting.isEmpty then s.dispatch timestamp calls else none
  | .flip calls addr => if s.starting.isEmpty && decide (addr ∈ s.kms.flips) then some (s.flip calls addr) else none

def step (s : Session) (e : SessionEvent) : Option Session :=
  if s.kms.aborted || s.badCall then none else s.act e

/-- The session before the last loop of `startCapture`: the requests are different objects, and none of them is
anywhere else yet. -/
def Initial (s : Session) : Prop :=
  s.requests_.Nodup ∧ s.starting = s.requests_ ∧ s.camera = ⟨[], []⟩ ∧ s.calls.Initial ∧ s.kms.Initial ∧
    s.badCall = false

def machine : Machine Session SessionEvent where
  init := Initial
  step := step

/-- The session runs: `startCapture` has returned. -/
def Running (s : Session) : Prop := s.starting = []

/-- The camera does not cancel the request it gives back. -/
def Uncancelled (_ : Session) : SessionEvent → Prop
  | .complete _ _ status => status = .RequestComplete
  | _ => True

/-- Nothing is cancelled, and a commit made in the step succeeds. -/
def Succeeds (s : Session) : SessionEvent → Prop
  | .complete _ _ status => status = .RequestComplete
  | .dispatch _ calls => ∀ request fired, s.calls.fire = some (some request, fired) →
      s.kms.CommitSucceeds (.frame calls request)
  | .flip calls addr => s.kms.CommitSucceeds (.flip calls addr)
  | _ => True

theorem Succeeds.uncancelled {s : Session} {e : SessionEvent} (h : s.Succeeds e) : s.Uncancelled e := by
  cases e <;> first | exact h | trivial

/-! ### What each step does -/

section Steps

variable {s s' : Session}

theorem act_of_step {e : SessionEvent} (h : s.step e = some s') : s.kms.aborted = false ∧ s.act e = some s' := by
  unfold step at h
  split at h
  · cases h
  · rename_i hne
    simp only [Bool.or_eq_true, not_or, Bool.not_eq_true] at hne
    exact ⟨hne.1, h⟩

theorem step_start (h : s.step .start = some s') :
    ∃ request rest, s.starting = request :: rest ∧ s' = { s with starting := rest }.queueRequest request := by
  have hact := (act_of_step h).2
  simp only [act] at hact
  split at hact
  · cases hact
  · rename_i request rest hs
    exact ⟨request, rest, hs, (Option.some.inj hact).symm⟩

theorem step_complete {thread : Nat} {request : Request} {status : RequestStatus}
    (hu : s.Uncancelled (.complete thread request status))
    (h : s.step (.complete thread request status) = some s') :
    request ∈ s.camera.queued ∧ ∃ calls, s.calls.push thread request = some calls ∧
      s' = { s with
        camera := { s.camera with queued := s.camera.queued.erase request }
        calls := calls } := by
  have hstatus : status = .RequestComplete := hu
  have hact := (act_of_step h).2
  subst hstatus
  simp only [act] at hact
  split at hact
  · simp only [requestComplete, reduceCtorEq, ↓reduceIte, Option.map_eq_some_iff] at hact
    obtain ⟨calls, hpush, rfl⟩ := hact
    exact ⟨‹_›, calls, hpush, rfl⟩
  · cases hact

theorem step_once {thread : Nat} {ok : Bool} (h : s.step (.once thread ok) = some s') :
    ∃ calls, s.calls.once thread ok = some calls ∧ s' = { s with calls := calls } := by
  obtain ⟨calls, honce, rfl⟩ := Option.map_eq_some_iff.1 (act_of_step h).2
  exact ⟨calls, honce, rfl⟩

/-- A dispatch runs `processRequest` on the oldest deferred request. -/
theorem step_dispatch {timestamp : UInt64} {calls : AtomicCalls} (hb : s.calls.Balanced)
    (h : s.step (.dispatch timestamp calls) = some s') :
    s.starting = [] ∧ ∃ request rest fired, s.calls.fire = some (some request, fired) ∧
      s.calls.loop.calls_ = request :: rest ∧ fired.loop.calls_ = rest ∧
      s' = { s with calls := fired }.processRequest timestamp calls request := by
  have hact := (act_of_step h).2
  simp only [act] at hact
  split at hact
  · rename_i hstart
    refine ⟨List.isEmpty_iff.1 hstart, ?_⟩
    unfold dispatch at hact
    cases hf : s.calls.fire with
    | none => rw [hf] at hact; cases hact
    | some result =>
      obtain ⟨call, fired⟩ := result
      obtain ⟨request, rest, hc, rfl, -, hfired⟩ := CallState.fire_eq_some hb hf
      rw [hf] at hact
      exact ⟨request, rest, fired, rfl, hc, by rw [hfired], (Option.some.inj hact).symm⟩
  · cases hact

theorem step_flip {calls : AtomicCalls} {addr : Nat} (h : s.step (.flip calls addr) = some s') :
    s.starting = [] ∧ addr ∈ s.kms.flips ∧ s' = s.flip calls addr := by
  have hact := (act_of_step h).2
  simp only [act] at hact
  split at hact
  · rename_i hok
    simp only [Bool.and_eq_true, List.isEmpty_iff, decide_eq_true_eq] at hok
    exact ⟨hok.1, hok.2, (Option.some.inj hact).symm⟩
  · cases hact

/-- `sinkRelease` touches the camera and its counter only. -/
private theorem foldl_sinkRelease (emitted : List Request) (s : Session) :
    ∃ count, emitted.foldl sinkRelease s = { s with
      queueCount_ := count
      camera := ⟨s.camera.queued ++ emitted, s.camera.log ++ emitted⟩ } := by
  induction emitted generalizing s with
  | nil => exact ⟨s.queueCount_, by simp⟩
  | cons request emitted ih =>
    obtain ⟨count, heq⟩ := ih (s.sinkRelease request)
    refine ⟨count, ?_⟩
    rw [List.foldl_cons, heq]
    simp [sinkRelease, queueRequest, Camera.queueRequest]

theorem flip_eq (s : Session) (calls : AtomicCalls) (addr : Nat) :
    ∃ count, s.flip calls addr = { s with
      queueCount_ := count
      camera := ⟨s.camera.queued ++ (s.kms.pageFlipComplete calls addr).1,
        s.camera.log ++ (s.kms.pageFlipComplete calls addr).1⟩
      kms := (s.kms.pageFlipComplete calls addr).2 } :=
  foldl_sinkRelease _ { s with kms := (s.kms.pageFlipComplete calls addr).2 }

/-- A frame the sink hands back goes to the camera at once. -/
theorem processRequest_dropped {timestamp : UInt64} {calls : AtomicCalls} {request : Request}
    (h : s.kms.sink.displays request = none) :
    s.processRequest timestamp calls request = { s with
      last_ := timestamp
      captureCount_ := s.captureCount_ + 1
      camera := s.camera.queueRequest request } := by
  simp [processRequest, KmsState.processRequest_dropped h]

/-- A frame the sink accepts stays with it. -/
theorem processRequest_accepted {timestamp : UInt64} {calls : AtomicCalls} {request : Request}
    {drmBuffer : DRM.FrameBuffer} (h : s.kms.sink.displays request = some drmBuffer) :
    s.processRequest timestamp calls request = { s with
      last_ := timestamp
      captureCount_ := s.captureCount_ + 1
      kms := (s.kms.processRequest calls request).2 } := by
  obtain ⟨kms, heq, -, -, -⟩ := KmsState.processRequest_accepted calls h
  simp [processRequest, heq]

end Steps

end Session

end Twincam
