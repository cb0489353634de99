import Twincam.CameraSession
import Twincam.FileSink
import Twincam.SdlSink
import Twincam.StartCapture
import Twincam.Lib.Handoff

/-!
# A session whose sink is done with a frame at once (`camera_session.cpp` with a `FileSink` or an `SDLSink`)

The camera fills the buffers of the requests that it has, on its own threads.  A completed request waits in `calls_`
until the event loop runs `processRequest`; the sink reads the buffers then, and the request goes back to the camera,
which writes to the buffers again.

* `frames_processed`: the sink gets the frames in the order of their completion, none of them twice and none left out,
  and each of them as it was when the camera completed it; and every request is in one place.
* `capture_stops_iff`: what makes a session stop.
* `initial_of_captured`: with the requests of `startCapture` such a session can start.
-/

namespace Twincam

open Libcamera (Request RequestStatus FrameBufferPtr FrameBufferPlane)

/-- A sink that processes requests synchronously, so that `processRequest` returns `true`.  It looks at the buffers of
the request only; `γ` is what a buffer holds, its metadata and its pixels, and `A` how the system answers. -/
structure SyncSink (σ γ A : Type) where
  processRequest : σ → Request → (FrameBufferPtr → γ) → A → Option (σ × Bool)
  returns_true : ∀ {sink sink' : σ} {request : Request} {memory : FrameBufferPtr → γ} {answers : A} {requeue : Bool},
    processRequest sink request memory answers = some (sink', requeue) → requeue = true
  reads_buffers : ∀ {sink : σ} {request : Request} {memory memory' : FrameBufferPtr → γ} {answers : A},
    (∀ p ∈ request.buffers, memory p.2 = memory' p.2) →
      processRequest sink request memory answers = processRequest sink request memory' answers

/-- A capture session on such a sink: as `Session`, with what is in the buffers, and the history: the requests that were
completed, with what was in the buffers then, and those that were cancelled. -/
structure SyncSession (σ γ : Type) where
  requests_ : List Request
  queueCount_ : UInt32
  captureCount_ : UInt32
  last_ : UInt64
  starting : List Request
  camera : Camera
  calls : CallState Request Nat
  memory : FrameBufferPtr → γ
  sink_ : σ
  badCall : Bool
  completed : List (Request × (FrameBufferPtr → γ))
  cancelled : List Request

inductive SyncEvent (γ A : Type)
  -- the last loop of `startCapture` queues its next request
  | start
  -- the camera writes to a buffer of a request that it has
  | write (request : Request) (buffer : FrameBufferPtr) (content : γ)
  -- the camera gives a request back on one of its threads
  | complete (thread : Nat) (request : Request) (status : RequestStatus)
  -- the thread schedules the once-event of the call it pushed
  | once (thread : Nat) (ok : Bool)
  -- a once-event fires and runs the oldest deferred call
  | dispatch (timestamp : UInt64) (answers : A)

namespace SyncSession

variable {σ γ A : Type}

/-! ### The functions of `CameraSession` -/

def queueRequest (s : SyncSession σ γ) (request : Request) : SyncSession σ γ :=
  { s with queueCount_ := s.queueCount_ + 1, camera := s.camera.queueRequest request }

/-- `CameraSession::requestComplete`; the `event_base_once` of `callLater` is the thread's next step. -/
def requestComplete (s : SyncSession σ γ) (thread : Nat) (request : Request) (status : RequestStatus) :
    Option (SyncSession σ γ) :=
  if status = .RequestCancelled then some { s with cancelled := s.cancelled ++ [request] }
  else
    (s.calls.push thread request).map fun calls =>
      { s with calls := calls, completed := s.completed ++ [(request, s.memory)] }

/-- The buffers of a request. -/
def owned (request : Request) : List FrameBufferPtr := request.buffers.map (·.2)

variable (sink : SyncSink σ γ A)

/-- `CameraSession::processRequest`, without the line it prints. -/
def processRequest (s : SyncSession σ γ) (timestamp : UInt64) (answers : A) (request : Request) :
    Option (SyncSession σ γ) :=
  (sink.processRequest s.sink_ request s.memory answers).map fun r =>
    let s := { s with last_ := timestamp, sink_ := r.1, captureCount_ := s.captureCount_ + 1 }
    if !r.2 then s else { s with camera := s.camera.queueRequest request }

def dispatch (s : SyncSession σ γ) (timestamp : UInt64) (answers : A) : Option (SyncSession σ γ) :=
  match s.calls.fire with
  | none => none
  | some (none, fired) => some { s with calls := fired, badCall := true }
  | some (some request, fired) => { s with calls := fired }.processRequest sink timestamp answers request

/-- The effect of a step while the process lives; the event loop runs only after `startCapture`. -/
def act (s : SyncSession σ γ) : SyncEvent γ A → Option (SyncSession σ γ)
  | .start =>
    match s.starting with
    | [] => none
    | request :: rest => some ({ s with starting := rest }.queueRequest request)
  | .write request buffer content =>
    if request ∈ s.camera.queued ∧ buffer ∈ owned request then
      some { s with memory := Function.update s.memory buffer content }
    else none
  | .complete thread request status =>
    if request ∈ s.camera.queued then
      { s with camera := { s.camera with queued := s.camera.queued.erase request } }.requestComplete
        thread request status
    else none
  | .once thread ok => (s.calls.once thread ok).map fun calls => { s with calls := calls }
  | .dispatch timestamp answers => if s.starting.isEmpty then s.dispatch sink timestamp answers else none

def step (s : SyncSession σ γ) (e : SyncEvent γ A) : Option (SyncSession σ γ) :=
  if s.badCall then none else s.act sink e

/-- The session before the last loop of `startCapture`: the requests are different, and have no buffer in common. -/
def Initial (s : SyncSession σ γ) : Prop :=
  s.requests_.Nodup ∧ Handoff.Disjoint owned s.requests_ ∧
    s.starting = s.requests_ ∧ s.camera = ⟨[], []⟩ ∧ s.calls.Initial ∧ s.badCall = false ∧ s.completed = [] ∧
      s.cancelled = []

def machine : Machine (SyncSession σ γ) (SyncEvent γ A) where
  init := Initial
  step := step sink

/-- The requests of `startCapture` are ones that such a session can start with. -/
theorem initial_of_captured {answers : CaptureAnswers} {config : List Libcamera.StreamConfiguration}
    (hne : config ≠ []) {c : CaptureState} (h : StartCapture.Captured answers config c)
    {s : SyncSession σ γ} (hs : s.Initial) :
    ∃ requests : List Request,
      requests.map (fun r => CaptureRequest.mk r.addr r.buffers) = c.requests_ ∧
      { s with requests_ := requests, starting := requests }.Initial := by
  obtain ⟨requests, hrequests, hnodup, hbuffers⟩ := h.exists_requests hne
  refine ⟨requests, hrequests, hnodup, ?_, rfl, hs.2.2.2⟩
  intro r hr r' hr' hne k hk hk'
  obtain ⟨p, hp, rfl⟩ := List.mem_map.1 hk
  obtain ⟨p', hp', heq⟩ := List.mem_map.1 hk'
  exact hbuffers r hr r' hr' hne p hp p' hp' heq.symm

end SyncSession

/-! ### The two sinks -/

/-- What comes back of a buffer that is written to the file. -/
def fileCompleted (memory : FrameBufferPtr → List UInt32 × (Nat → UInt8))
    (answers : FrameBufferPtr → Bool × (Nat → UInt32 → Option Nat)) (buffer : FrameBufferPtr) : Completed :=
  ⟨(memory buffer).1, (memory buffer).2, (answers buffer).1, (answers buffer).2⟩

private theorem foldlM_option_congr {α β : Type} {f g : β → α → Option β} {xs : List α}
    (h : ∀ a ∈ xs, ∀ b, f b a = g b a) (b : β) : xs.foldlM f b = xs.foldlM g b := by
  induction xs generalizing b with
  | nil => rfl
  | cons a rest ih =>
    rw [List.forall_mem_cons] at h
    rw [List.foldlM_cons, List.foldlM_cons, h.1]
    exact congrArg _ (funext fun b => ih h.2 b)

private theorem FileSink.processRequest_congr {planes : FrameBufferPtr → List FrameBufferPlane} {state : FileSink.State}
    {request : Request} {done done' : FrameBufferPtr → Completed} (h : ∀ p ∈ request.buffers, done p.2 = done' p.2) :
    FileSink.processRequest planes state request done = FileSink.processRequest planes state request done' := by
  have hfold : request.buffers.foldlM
      (fun s b => (FileSink.writeBuffer planes s b.2 (done b.2)).map Prod.fst) state =
        request.buffers.foldlM (fun s b => (FileSink.writeBuffer planes s b.2 (done' b.2)).map Prod.fst) state :=
    foldlM_option_congr (fun p hp s => by rw [h p hp]) state
  rw [FileSink.processRequest, hfold]
  rfl

private theorem FileSink.processRequest_true {planes : FrameBufferPtr → List FrameBufferPlane}
    {state state' : FileSink.State} {request : Request} {done : FrameBufferPtr → Completed} {requeue : Bool}
    (h : FileSink.processRequest planes state request done = some (state', requeue)) : requeue = true := by
  unfold FileSink.processRequest at h
  obtain ⟨_, -, heq⟩ := Option.map_eq_some_iff.1 h
  exact (Prod.mk.inj heq).2.symm

/-- A `FileSink`: a buffer holds the `bytesused` of its planes and its memory, and the kernel answers `open` and `write`
for each buffer. -/
def fileSink (planes : FrameBufferPtr → List FrameBufferPlane) :
    SyncSink FileSink.State (List UInt32 × (Nat → UInt8)) (FrameBufferPtr → Bool × (Nat → UInt32 → Option Nat)) where
  processRequest state request memory answers :=
    FileSink.processRequest planes state request (fileCompleted memory answers)
  returns_true := FileSink.processRequest_true
  reads_buffers h := FileSink.processRequest_congr fun p hp => by rw [fileCompleted, fileCompleted, h p hp]

/-- The images of an `SDLSink`, and the bytes that it has handed to its texture, frame by frame. -/
structure SdlShown where
  mappedBuffers_ : Std.TreeMap FrameBufferPtr Image
  shown : List (List (List UInt8))

/-- An `SDLSink`, which renders the first buffer of a request; with one plane too many in the metadata, `past` is what
it reads past the planes. -/
def sdlSink : SyncSink SdlShown (List UInt32 × (Nat → UInt8)) Span where
  processRequest state request memory past :=
    let buffer := request.firstBuffer
    let bytes := match state.mappedBuffers_[buffer]? with
      | none => if (memory buffer).1.isEmpty then some [] else none
      | some image => SDLSink.renderBuffer image past (memory buffer).1 (memory buffer).2
    bytes.map fun bytes => ({ state with shown := state.shown ++ [bytes] }, true)
  returns_true h := by
    obtain ⟨_, -, heq⟩ := Option.map_eq_some_iff.1 h
    exact (Prod.mk.inj heq).2.symm
  reads_buffers {state request memory memory' answers} h := by
    have hfirst : memory request.firstBuffer = memory' request.firstBuffer := h _ (List.head_mem request.buffers_ne)
    simp only [hfirst]

namespace SyncSession

variable {σ γ A : Type} {sink : SyncSink σ γ A} {s s' : SyncSession σ γ}

/-! ### What each step does -/

/-- The result of the kernel in a dispatch. -/
def answers : SyncEvent γ A → Option A
  | .dispatch _ answers => some answers
  | _ => none

/-- A request and the contents of its buffers. -/
def frame (f : Request × (FrameBufferPtr → γ)) : Request × List γ := (f.1, Handoff.contents owned f.2 f.1)

/-- The sink after some frames. -/
def feed (sink : SyncSink σ γ A) (sink_ : σ) (frames : List ((Request × (FrameBufferPtr → γ)) × A)) : Option σ :=
  frames.foldlM (fun sink_ f => (sink.processRequest sink_ f.1.1 f.1.2 f.2).map (·.1)) sink_

/-- The sink sees no difference between frames with the same contents. -/
private theorem feed_congr {frames frames' : List (Request × (FrameBufferPtr → γ))}
    (h : frames.map frame = frames'.map frame)
    (as : List A) (sink_ : σ) : feed sink sink_ (frames.zip as) = feed sink sink_ (frames'.zip as) := by
  induction frames generalizing frames' as sink_ with
  | nil =>
    obtain rfl := List.map_eq_nil_iff.1 h.symm
    rfl
  | cons f rest ih =>
    obtain ⟨f', rest', rfl, hf, hrest⟩ := List.map_eq_cons_iff.1 h.symm
    cases as with
    | nil => rfl
    | cons a as =>
      obtain ⟨hrequest, hcontents⟩ := Prod.mk.inj hf
      have hsame : sink.processRequest sink_ f.1 f.2 a = sink.processRequest sink_ f'.1 f'.2 a := by
        rw [hrequest] at hcontents ⊢
        refine sink.reads_buffers fun p hp => (List.map_inj_left.1 hcontents p.2 ?_).symm
        exact List.mem_map_of_mem hp
      rw [feed, feed, List.zip_cons_cons, List.zip_cons_cons, List.foldlM_cons, List.foldlM_cons, hsame]
      exact congrArg _ (funext fun sink_ => ih hrest.symm as sink_)

private theorem act_of_step {e : SyncEvent γ A} (h : s.step sink e = some s') : s.act sink e = some s' := by
  unfold step at h
  split at h
  · cases h
  · exact h

/-- The sink is done with a frame at once, and the request goes back to the camera. -/
private theorem processRequest_eq_some {timestamp : UInt64} {answers : A} {request : Request}
    (h : s.processRequest sink timestamp answers request = some s') :
    ∃ sink_, (sink.processRequest s.sink_ request s.memory answers).map (·.1) = some sink_ ∧
      s' = { s with
        last_ := timestamp
        sink_ := sink_
        captureCount_ := s.captureCount_ + 1
        camera := s.camera.queueRequest request } := by
  obtain ⟨⟨sink_, requeue⟩, hprocess, rfl⟩ := Option.map_eq_some_iff.1 h
  obtain rfl := sink.returns_true hprocess
  exact ⟨sink_, by rw [hprocess]; rfl, rfl⟩

/-! ### The session hands its requests over -/

/-- The camera has the requests that are queued, or still to be queued; the event loop has those that wait. -/
structure Follows (s : SyncSession σ γ) (a : Handoff.State Request FrameBufferPtr γ) : Prop where
  reachable : (Handoff.machine owned).Reachable a
  balanced : s.calls.Balanced
  held : ∀ r, s.starting.count r + s.camera.queued.count r ≤ a.held.count r
  waiting : a.waiting = s.calls.loop.calls_
  cells : a.cells = s.memory
  handed : a.handed = s.completed.map frame
  places : ∀ r, s.requests_.count r = s.starting.count r + s.camera.queued.count r + s.calls.loop.calls_.count r +
    s.cancelled.count r

private theorem Initial.follows (h : s.Initial) : Follows s ⟨s.requests_, [], s.memory, [], []⟩ := by
  obtain ⟨hnodup, hdisjoint, hstart, hcamera, hcalls, -, hcompleted, hcancelled⟩ := h
  refine ⟨.init ⟨hnodup, hdisjoint, rfl, rfl, rfl⟩, hcalls.balanced, fun r => ?_, hcalls.1.symm, rfl, ?_, fun r => ?_⟩
  · simp [hstart, hcamera]
  · rw [hcompleted]
    rfl
  · simp [hstart, hcamera, hcalls.1, hcancelled]

/-- The part of a step that concerns the sink: a dispatch feeds it the oldest request that waits. -/
def Fed (sink : SyncSink σ γ A) (s s' : SyncSession σ γ) (a a' : Handoff.State Request FrameBufferPtr γ) :
    Option A → Prop
  | none => s'.sink_ = s.sink_ ∧ a'.seen = a.seen
  | some answers => ∃ request, (sink.processRequest s.sink_ request s.memory answers).map (·.1) = some s'.sink_ ∧
      a'.seen = a.seen ++ [frame (request, s.memory)]

variable {a : Handoff.State Request FrameBufferPtr γ}

private theorem Follows.start (h : Follows s a) (hs : s.act sink .start = some s') :
    ∃ a', Follows s' a' ∧ Fed sink s s' a a' none := by
  simp only [act] at hs
  split at hs
  · cases hs
  · rename_i request rest hstart
    obtain rfl := Option.some.inj hs
    refine ⟨a, ⟨h.reachable, h.balanced, fun r => ?_, h.waiting, h.cells, h.handed, fun r => ?_⟩, rfl, rfl⟩
    · have hheld := h.held r
      rw [hstart] at hheld
      simp only [queueRequest, Camera.queueRequest, List.count_append, List.count_cons, List.count_nil] at hheld ⊢
      omega
    · have hplaces := h.places r
      rw [hstart] at hplaces
      simp only [queueRequest, Camera.queueRequest, List.count_append, List.count_cons, List.count_nil] at hplaces ⊢
      omega

private theorem Follows.write {request : Request} {buffer : FrameBufferPtr} {content : γ} (h : Follows s a)
    (hs : s.act sink (.write request buffer content) = some s') :
    ∃ a', Follows s' a' ∧ Fed sink s s' a a' none := by
  simp only [act, Option.ite_none_right_eq_some, Option.some.injEq] at hs
  obtain ⟨⟨hqueued, hbuffer⟩, rfl⟩ := hs
  have hheld : request ∈ a.held := by
    have hcount := h.held request
    have hpos := List.count_pos_iff.2 hqueued
    exact List.count_pos_iff.1 (by omega)
  have hstep : (Handoff.machine owned).step a (.write request buffer content) =
      some { a with cells := Function.update a.cells buffer content } := if_pos ⟨hheld, hbuffer⟩
  refine ⟨_, ⟨h.reachable.of_step hstep, h.balanced, h.held, h.waiting, ?_, h.handed, h.places⟩, rfl, rfl⟩
  dsimp only
  rw [h.cells]

private theorem count_erase_add {request : Request} {requests : List Request} (h : request ∈ requests) (r : Request) :
    (requests.erase request).count r + [request].count r = requests.count r := by
  rw [(List.perm_cons_erase h).count_eq, ← List.count_append]
  exact List.perm_append_comm.count_eq r

private theorem Follows.complete {thread : Nat} {request : Request} {status : RequestStatus} (h : Follows s a)
    (hs : s.act sink (.complete thread request status) = some s') :
    ∃ a', Follows s' a' ∧ Fed sink s s' a a' none := by
  simp only [act, Option.ite_none_right_eq_some] at hs
  obtain ⟨hqueued, hs⟩ := hs
  have hcount := count_erase_add hqueued
  unfold requestComplete at hs
  split at hs
  · -- a cancelled request is out of the game
    obtain rfl := Option.some.inj hs
    refine ⟨a, ⟨h.reachable, h.balanced, fun r => ?_, h.waiting, h.cells, h.handed, fun r => ?_⟩, rfl, rfl⟩
    · have hheld := h.held r
      have hr := hcount r
      dsimp only
      omega
    · have hplaces := h.places r
      have hr := hcount r
      simp only [List.count_append]
      omega
  · obtain ⟨calls, hpush, rfl⟩ := Option.map_eq_some_iff.1 hs
    have hbalanced := CallState.push_balanced h.balanced hpush
    obtain ⟨-, rfl⟩ := CallState.push_eq_some hpush
    have hheld : request ∈ a.held := by
      have hle := h.held request
      have hpos := List.count_pos_iff.2 hqueued
      exact List.count_pos_iff.1 (by omega)
    have hstep : (Handoff.machine owned).step a (.hand request) = some { a with
        held := a.held.erase request
        waiting := a.waiting ++ [request]
        handed := a.handed ++ [(request, Handoff.contents owned a.cells request)] } := if_pos hheld
    refine ⟨_, ⟨h.reachable.of_step hstep, hbalanced, fun r => ?_, ?_, h.cells, ?_, fun r => ?_⟩, rfl, rfl⟩
    · have hle := h.held r
      have hr := hcount r
      have hheldr := count_erase_add hheld r
      dsimp only
      omega
    · dsimp only [EventLoop.pushCallList]
      rw [h.waiting]
    · dsimp only
      rw [h.handed, List.map_append, h.cells]
      rfl
    · have hplaces := h.places r
      have hr := hcount r
      simp only [EventLoop.pushCallList, List.count_append]
      omega

private theorem Follows.once {thread : Nat} {ok : Bool} (h : Follows s a)
    (hs : s.act sink (.once thread ok) = some s') :
    ∃ a', Follows s' a' ∧ Fed sink s s' a a' none := by
  obtain ⟨calls, honce, rfl⟩ := Option.map_eq_some_iff.1 hs
  have hbalanced := CallState.once_balanced h.balanced honce
  obtain ⟨-, rfl⟩ := CallState.once_eq_some honce
  exact ⟨a, ⟨h.reachable, hbalanced, h.held, h.waiting, h.cells, h.handed, h.places⟩, rfl, rfl⟩

private theorem Follows.dispatch {timestamp : UInt64} {answers : A} (h : Follows s a)
    (hs : s.act sink (.dispatch timestamp answers) = some s') :
    ∃ a', Follows s' a' ∧ Fed sink s s' a a' (some answers) := by
  simp only [act, Option.ite_none_right_eq_some] at hs
  obtain ⟨-, hs⟩ := hs
  unfold SyncSession.dispatch at hs
  cases hfire : s.calls.fire with
  | none =>
    rw [hfire] at hs
    cases hs
  | some result =>
    obtain ⟨call, fired⟩ := result
    have hbalanced := CallState.fire_balanced h.balanced hfire
    obtain ⟨request, rest, hcalls, rfl, -, rfl⟩ := CallState.fire_eq_some h.balanced hfire
    rw [hfire] at hs
    obtain ⟨sink_, hprocess, rfl⟩ := processRequest_eq_some hs
    have hwaiting : a.waiting = request :: rest := h.waiting.trans hcalls
    have hstep : (Handoff.machine owned).step a .take = some { a with
        held := request :: a.held
        waiting := rest
        seen := a.seen ++ [(request, Handoff.contents owned a.cells request)] } := by
      simp only [Handoff.machine, Handoff.step, hwaiting]
    refine ⟨_, ⟨h.reachable.of_step hstep, hbalanced, fun r => ?_, rfl, h.cells, h.handed, fun r => ?_⟩, request,
      hprocess, ?_⟩
    · have hle := h.held r
      simp only [Camera.queueRequest, List.count_append, List.count_cons, List.count_nil]
      omega
    · have hplaces := h.places r
      rw [hcalls] at hplaces
      simp only [Camera.queueRequest, List.count_append, List.count_cons, List.count_nil] at hplaces ⊢
      omega
    · dsimp only
      rw [h.cells]
      rfl

private theorem Follows.step {e : SyncEvent γ A} (h : Follows s a) (hs : s.step sink e = some s') :
    ∃ a', Follows s' a' ∧ Fed sink s s' a a' (answers e) := by
  have hact := act_of_step hs
  cases e with
  | start => exact h.start hact
  | write request buffer content => exact h.write hact
  | complete thread request status => exact h.complete hact
  | once thread ok => exact h.once hact
  | dispatch timestamp answers => exact h.dispatch hact

private theorem Follows.run {t : SyncSession σ γ} {es : List (SyncEvent γ A)} (h : Follows s a)
    (hr : (machine sink).Run s es t) :
    ∃ (a' : Handoff.State Request FrameBufferPtr γ) (ran : List (Request × (FrameBufferPtr → γ))), Follows t a' ∧
      a'.seen = a.seen ++ ran.map frame ∧ ran.length = (es.filterMap answers).length ∧
      feed sink s.sink_ (ran.zip (es.filterMap answers)) = some t.sink_ := by
  induction hr generalizing a with
  | nil s => exact ⟨a, [], h, (List.append_nil _).symm, rfl, rfl⟩
  | @cons s s' t e es hs _ ih =>
    obtain ⟨a', h', hfed⟩ := h.step hs
    obtain ⟨a'', ran, h'', hseen, hlength, hfeed⟩ := ih h'
    cases hanswers : answers e with
    | none =>
      rw [hanswers] at hfed
      refine ⟨a'', ran, h'', ?_, ?_, ?_⟩
      · rw [hseen, hfed.2]
      · rw [List.filterMap_cons_none hanswers, hlength]
      · rw [List.filterMap_cons_none hanswers, ← hfed.1]
        exact hfeed
    | some answer =>
      rw [hanswers] at hfed
      obtain ⟨request, hprocess, hnow⟩ := hfed
      refine ⟨a'', (request, s.memory) :: ran, h'', ?_, ?_, ?_⟩
      · rw [hseen, hnow, List.append_assoc]
        rfl
      · rw [List.filterMap_cons_some hanswers, List.length_cons, List.length_cons, hlength]
      · rw [List.filterMap_cons_some hanswers, List.zip_cons_cons, feed, List.foldlM_cons, hprocess]
        exact hfeed

/-- In every run, whatever the camera writes and when, and whatever the system answers: the completed frames are those
that the event loop ran, as many as were dispatched, followed by those that wait.  The sink is as if it had been given
the former one after the other, as they were when they were completed; the latter are still as they were.  Every request
is still to be queued, in the camera, deferred or cancelled. -/
theorem frames_processed {t : SyncSession σ γ} {es : List (SyncEvent γ A)} (hs : (machine sink).init s)
    (hr : (machine sink).Run s es t) :
    ∃ ran waiting, t.completed = ran ++ waiting ∧ ran.length = (es.filterMap answers).length ∧
      feed sink s.sink_ (ran.zip (es.filterMap answers)) = some t.sink_ ∧
      waiting.map (·.1) = t.calls.loop.calls_ ∧ (∀ f ∈ waiting, ∀ p ∈ f.1.buffers, f.2 p.2 = t.memory p.2) ∧
      t.requests_.Perm (t.starting ++ t.camera.queued ++ t.calls.loop.calls_ ++ t.cancelled) := by
  have hinit : s.Initial := hs
  obtain ⟨a, seen, h, hseen, hlength, hfeed⟩ := hinit.follows.run hr
  rw [List.nil_append] at hseen
  -- what was handed over is what was seen, and what waits
  have hhanded := Handoff.handed_eq h.reachable
  rw [h.handed, hseen, h.waiting, h.cells, List.map_eq_append_iff] at hhanded
  obtain ⟨ran, waiting, hcompleted, hran, hwaiting⟩ := hhanded
  refine ⟨ran, waiting, hcompleted, ?_, ?_, ?_, ?_, ?_⟩
  · have hsame := congrArg List.length hran
    rw [List.length_map, List.length_map] at hsame
    exact hsame.trans hlength
  · rw [feed_congr hran, hfeed]
  · have hrequests := congrArg (List.map Prod.fst) hwaiting
    rw [List.map_map, List.map_map] at hrequests
    exact hrequests.trans (List.map_id' _)
  · intro f hf p hp
    have hmem : frame f ∈ t.calls.loop.calls_.map fun j => (j, Handoff.contents owned t.memory j) := by
      rw [← hwaiting]
      exact List.mem_map_of_mem hf
    obtain ⟨request, -, hframe⟩ := List.mem_map.1 hmem
    obtain ⟨rfl, hcontents⟩ := Prod.mk.inj hframe
    exact (List.map_inj_left.1 hcontents p.2 (List.mem_map_of_mem hp)).symm
  · rw [List.perm_iff_count]
    intro r
    have hplaces := h.places r
    simp only [List.count_append]
    omega

/-- Two requests of one buffer each. -/
def firstRequest : Request := ⟨50, [(0, 3)], List.cons_ne_nil _ _⟩

def secondRequest : Request := ⟨60, [(0, 4)], List.cons_ne_nil _ _⟩

/-- A session with these requests, which a `FileSink` has mapped, and a file with an old byte. -/
def twoMapped : SyncSession FileSink.State (List UInt32 × (Nat → UInt8)) :=
  { requests_ := [firstRequest, secondRequest]
    queueCount_ := 0
    captureCount_ := 0
    last_ := 0
    starting := [firstRequest, secondRequest]
    camera := ⟨[], []⟩
    calls := ⟨⟨⟨0, true, false⟩, -1, []⟩, [], 0, [], []⟩
    memory := fun _ => ([], fun _ => 0)
    sink_ := ⟨⟨(∅ : Std.TreeMap FrameBufferPtr Image).insertMany
      [(3, ⟨[⟨0x1000, 4⟩], [⟨0x1000, 4⟩]⟩), (4, ⟨[⟨0x2000, 4⟩], [⟨0x2000, 4⟩]⟩)]⟩, some [⟨7, none⟩], []⟩
    badCall := false
    completed := []
    cancelled := [] }

/-- A kernel that takes every write in full. -/
def allWritten : FrameBufferPtr → Bool × (Nat → UInt32 → Option Nat) :=
  fun _ => (true, fun _ length => some length.toNat)

/-- The second request is completed first; the camera writes to it again once its frame is in the file. -/
def overwritten :
    List (SyncEvent (List UInt32 × (Nat → UInt8)) (FrameBufferPtr → Bool × (Nat → UInt32 → Option Nat))) :=
  [.start, .start, .write secondRequest 4 ([3], fun _ => 5),
    .complete 0 secondRequest .RequestComplete, .once 0 true,
    .write firstRequest 3 ([2], fun _ => 6), .complete 0 firstRequest .RequestComplete,
    .once 0 true, .dispatch 1000 allWritten, .write secondRequest 4 ([4], fun _ => 8)]

private theorem initial_twoMapped : twoMapped.Initial := by
  refine ⟨by decide, ?_, rfl, rfl, ⟨rfl, rfl, rfl, rfl, rfl, rfl⟩, rfl, rfl, rfl⟩
  rw [Handoff.Disjoint]
  decide

theorem frames_processed_two : ∃ t, (machine (fileSink FileSink.smallBuffer)).replay twoMapped overwritten = some t ∧
    t.sink_.frames = [[5, 5, 5]] ∧ t.calls.loop.calls_ = [firstRequest] ∧
      ∃ ran waiting, t.completed = ran ++ waiting ∧ ran.length = 1 ∧ ∀ f ∈ waiting, ∀ p ∈ f.1.buffers,
        f.2 p.2 = t.memory p.2 := by
  have hrun : ((machine (fileSink FileSink.smallBuffer)).replay twoMapped overwritten).map
      (fun t => (t.sink_.frames, t.calls.loop.calls_)) = some ([[5, 5, 5]], [firstRequest]) := rfl
  obtain ⟨t, ht, hdone⟩ := Option.map_eq_some_iff.1 hrun
  obtain ⟨hframes, hcalls⟩ := Prod.mk.inj hdone
  obtain ⟨ran, waiting, hcompleted, hlength, -, -, hsame, -⟩ :=
    frames_processed initial_twoMapped (Machine.run_of_replay ht)
  exact ⟨t, ht, hframes, hcalls, ran, waiting, hcompleted, hlength, hsame⟩

/-- A running session stops for good when as many requests were cancelled, or lost to an `event_base_once` that failed,
as there are, and not before: until then the camera has a request, or an event is on its way. -/
theorem capture_stops_iff {t : SyncSession σ γ} {es : List (SyncEvent γ A)} (hs : (machine sink).init s)
    (hr : (machine sink).Run s es t) (hrun : t.starting = []) :
    (t.camera.queued = [] ∧ t.calls.inFlight = [] ∧ t.calls.loop.base_.once = 0) ↔
      t.calls.failed + t.cancelled.length = t.requests_.length := by
  have hinit : s.Initial := hs
  obtain ⟨a, -, h, -⟩ := hinit.follows.run hr
  have hperm : t.requests_.Perm (t.camera.queued ++ t.calls.loop.calls_ ++ t.cancelled) := by
    rw [List.perm_iff_count]
    intro r
    have hplaces := h.places r
    rw [hrun, List.count_nil] at hplaces
    simp only [List.count_append]
    omega
  have hlength := hperm.length_eq
  have hbalanced := h.balanced
  simp only [CallState.Balanced, List.length_append] at hlength hbalanced
  rw [← List.length_eq_zero_iff, ← List.length_eq_zero_iff]
  omega

theorem capture_stops_iff_two : ∃ t, (machine (fileSink FileSink.smallBuffer)).replay twoMapped overwritten = some t ∧
    t.starting = [] ∧ t.camera.queued ≠ [] ∧ t.calls.failed + t.cancelled.length ≠ t.requests_.length := by
  have hrun : ((machine (fileSink FileSink.smallBuffer)).replay twoMapped overwritten).map
      (fun t => (t.starting, t.camera.queued.length)) = some ([], 1) := rfl
  obtain ⟨t, ht, hdone⟩ := Option.map_eq_some_iff.1 hrun
  obtain ⟨hstarting, hqueued⟩ := Prod.mk.inj hdone
  have hne : t.camera.queued ≠ [] := by
    intro hnil
    rw [hnil] at hqueued
    cases hqueued
  refine ⟨t, ht, hstarting, hne, fun hall => hne ?_⟩
  exact ((capture_stops_iff initial_twoMapped (Machine.run_of_replay ht) hstarting).2 hall).1

end SyncSession

end Twincam
