import Twincam.DrmAtomic
import Twincam.KmsConfigure
import Twincam.KmsMapBuffer
import Twincam.KmsStop

/-!
# The frame that enables the display pipeline

A frame's atomic request sets `FB_ID`; it also enables the display pipeline when both `active_` and `queued_` are empty.
`KmsLife` is the sink over any number of sessions: frames and page flips, and between them `configure`, `mapBuffer` and
`stop`.  It remembers the frames accepted since the last `stop` that succeeded, and the requests committed for them.

* `Phase` is the invariant: both slots are empty exactly when no frame was accepted since.
* `first_frame_enables`: the first accepted frame, and no other one, enables the pipeline, and it is the first one
  committed.
-/

namespace Twincam

open DRM (AtomicCalls AtomicRequest Device)
open DRM.AtomicRequest (Change)
open Libcamera (FrameBufferPtr FrameBufferPlane StreamConfiguration)
open KmsState (committing oneBuffer stoppable)

namespace KMSSink

/-- The change that every frame makes. -/
def flipChange (sink : KMSSink) (drmBuffer : DRM.FrameBuffer) : Change :=
  (sink.planeObject, "FB_ID", drmBuffer.id_.toUInt64)

/-- The eight properties of the plane that place the image on the screen. -/
def planeRectangle (sink : KMSSink) : List Change :=
  [(sink.planeObject, "SRC_X", 0), (sink.planeObject, "SRC_Y", 0),
    (sink.planeObject, "SRC_W", (sink.size_.width <<< 16).toUInt64),
    (sink.planeObject, "SRC_H", (sink.size_.height <<< 16).toUInt64),
    (sink.planeObject, "CRTC_X", sink.x_.toUInt64), (sink.planeObject, "CRTC_Y", sink.y_.toUInt64),
    (sink.planeObject, "CRTC_W", sink.size_.width.toUInt64), (sink.planeObject, "CRTC_H", sink.size_.height.toUInt64)]

/-- The changes of a frame that enables the display pipeline. -/
def enablingChanges (sink : KMSSink) (drmBuffer : DRM.FrameBuffer) : List Change :=
  sink.flipChange drmBuffer :: (sink.connectorObject, "CRTC_ID", sink.crtcObject.id_.toUInt64) :: sink.planeRectangle

private theorem frameChanges_of_idle {sink : KMSSink} (ha : sink.active_ = none) (hq : sink.queued_ = none)
    (drmBuffer : DRM.FrameBuffer) : sink.frameChanges drmBuffer = sink.enablingChanges drmBuffer := by
  simp [frameChanges, enablingChanges, planeRectangle, flipChange, ha, hq]

private theorem frameChanges_of_busy {sink : KMSSink} (h : ¬(sink.active_ = none ∧ sink.queued_ = none))
    (drmBuffer : DRM.FrameBuffer) : sink.frameChanges drmBuffer = [sink.flipChange drmBuffer] := by
  simpa [frameChanges, flipChange] using h

/-! ### The calls of `commit` -/

/-- The requests on which `processRequest` calls `commit`. -/
def frameCommits (sink : KMSSink) (calls : AtomicCalls) (camRequest : Libcamera.Request) : List AtomicRequest :=
  match sink.displays camRequest, sink.queued_ with
  | some drmBuffer, none => [(sink.newRequest calls drmBuffer camRequest).drmRequest_]
  | _, _ => []

/-- The requests on which `requestComplete` calls `commit`. -/
def flipCommits (sink : KMSSink) (request : Nat) : List AtomicRequest :=
  if sink.queued_.any (·.drmRequest_.addr = request) then sink.pending_.toList.map (·.drmRequest_) else []

private theorem toList_eq_filterMap {α β : Type} (f : α → Option β) (a : α) :
    (f a).toList = [a].filterMap f := by
  cases h : f a <;> simp [h]

/-- What reaches the kernel from `processRequest` is what these calls make of it. -/
theorem processRequest_committed (sink : KMSSink) (calls : AtomicCalls) (camRequest : Libcamera.Request) :
    (sink.processRequest calls camRequest).committed.toList =
      (sink.frameCommits calls camRequest).filterMap fun r => (r.commit calls AtomicRequest.FlagAsync).2 := by
  cases hd : sink.displays camRequest with
  | none => simp [processRequest_dropped hd, frameCommits, hd]
  | some drmBuffer =>
    cases hq : sink.queued_ with
    | none =>
      rw [processRequest_queued hd hq, frameCommits, hd, hq]
      exact toList_eq_filterMap _ _
    | some queued => simp [processRequest_pending hd hq, frameCommits, hd, hq]

theorem requestComplete_committed {sink : KMSSink} {calls : AtomicCalls} {request : Nat} {result : CompleteResult}
    (h : sink.requestComplete calls request = some result) :
    result.committed.toList =
      (sink.flipCommits request).filterMap fun r => (r.commit calls AtomicRequest.FlagAsync).2 := by
  unfold requestComplete at h
  split at h
  · rename_i hassert
    cases hp : sink.pending_ with
    | none =>
      simp only [hp, Option.some.injEq] at h
      simp [← h, flipCommits, hassert, hp]
    | some pending =>
      simp only [hp, Option.some.injEq] at h
      rw [← h, flipCommits, if_pos hassert, hp]
      exact toList_eq_filterMap _ _
  · cases h

end KMSSink

/-! ### The sink over several sessions -/

/-- The sink and its history; the frames accepted since the start or the last `stop` that succeeded, and the requests on
which `commit` was called for them, both in order. -/
structure KmsLife where
  kms : KmsState
  frames : List Libcamera.Request
  commits : List AtomicRequest

inductive KmsLifeEvent
  | frame (calls : AtomicCalls) (camRequest : Libcamera.Request)
  | flip (calls : AtomicCalls) (addr : Nat)
  | configure (cfg : StreamConfiguration)
  | mapBuffer (calls : DRM.PrimeCalls) (buffer : FrameBufferPtr) (planes : List FrameBufferPlane)
  | stop (calls : AtomicCalls)

namespace KmsLife

def sink (s : KmsLife) : KMSSink := s.kms.sink

def withSink (s : KmsLife) (sink : KMSSink) : KmsLife := { s with kms := { s.kms with sink := sink } }

/-- A frame is accepted when `processRequest` returns false. -/
def Accepted (s : KmsLife) (calls : AtomicCalls) (camRequest : Libcamera.Request) : Prop :=
  (s.sink.processRequest calls camRequest).ret = false

instance (s : KmsLife) (calls : AtomicCalls) (camRequest : Libcamera.Request) :
    Decidable (s.Accepted calls camRequest) := inferInstanceAs (Decidable (_ = _))

/-- One step; nothing runs after an abort, and a call that fails in an undefined way ends the run. -/
def step (s : KmsLife) (e : KmsLifeEvent) : Option KmsLife :=
  match e with
  | .frame calls camRequest => do
    let kms ← s.kms.step (.frame calls camRequest)
    some ⟨kms, if s.Accepted calls camRequest then s.frames ++ [camRequest] else s.frames,
      s.commits ++ s.sink.frameCommits calls camRequest⟩
  | .flip calls addr => do
    let kms ← s.kms.step (.flip calls addr)
    some ⟨kms, s.frames, s.commits ++ s.sink.flipCommits addr⟩
  | .configure cfg => if s.kms.aborted then none else (s.sink.configure cfg).map fun r => s.withSink r.2
  | .mapBuffer calls buffer planes =>
    if s.kms.aborted then none else (s.sink.mapBuffer calls buffer planes).map fun r => s.withSink r.1
  | .stop calls =>
    if s.kms.aborted then none
    else
      let result := s.sink.stop calls
      if result.ret = 0 then some ⟨{ s.kms with sink := result.sink }, [], []⟩ else some (s.withSink result.sink)

/-- A sink that was just configured, before any frame. -/
def machine : Machine KmsLife KmsLifeEvent where
  init s := s.kms.Initial ∧ s.frames = [] ∧ s.commits = []
  step := step

/-! ### What a step does to the slots -/

theorem step_frame_eq {s s' : KmsLife} {calls : AtomicCalls} {camRequest : Libcamera.Request}
    (hs : s.step (.frame calls camRequest) = some s') :
    s' = ⟨(s.kms.processRequest calls camRequest).2,
      if s.Accepted calls camRequest then s.frames ++ [camRequest] else s.frames,
      s.commits ++ s.sink.frameCommits calls camRequest⟩ := by
  simp only [step, Option.bind_eq_bind, Option.bind_eq_some_iff, Option.some.injEq] at hs
  obtain ⟨kms, hkms, rfl⟩ := hs
  rcases KmsState.step_eq_some hkms with ⟨_, _, he, rfl⟩ | ⟨_, _, he, -⟩
  · cases he
    rfl
  · cases he

theorem step_flip_eq {s s' : KmsLife} {calls : AtomicCalls} {addr : Nat} (hs : s.step (.flip calls addr) = some s') :
    s' = ⟨(s.kms.pageFlipComplete calls addr).2, s.frames, s.commits ++ s.sink.flipCommits addr⟩ := by
  simp only [step, Option.bind_eq_bind, Option.bind_eq_some_iff, Option.some.injEq] at hs
  obtain ⟨kms, hkms, rfl⟩ := hs
  rcases KmsState.step_eq_some hkms with ⟨_, _, he, -⟩ | ⟨_, _, he, -, rfl⟩
  · cases he
  · cases he
    rfl

/-- The slots of two sinks are the same. -/
def SameSlots (a b : KMSSink) : Prop :=
  a.active_ = b.active_ ∧ a.queued_ = b.queued_ ∧ a.pending_ = b.pending_

private theorem selectPipeline_sameSlots (sink : KMSSink) (format : Libcamera.PixelFormat) :
    SameSlots (sink.selectPipeline format).2 sink := by
  unfold KMSSink.selectPipeline
  dsimp only
  split
  · exact ⟨rfl, rfl, rfl⟩
  · exact ⟨rfl, rfl, rfl⟩

private theorem configure_sameSlots {sink : KMSSink} {cfg : StreamConfiguration} {r : Int × KMSSink}
    (h : sink.configure cfg = some r) : SameSlots r.2 sink := by
  unfold KMSSink.configure at h
  split at h
  · obtain rfl := Option.some.inj h
    exact ⟨rfl, rfl, rfl⟩
  · dsimp only [KMSSink.configurePipeline] at h
    have hsel := selectPipeline_sameSlots { sink with crtc_ := none, plane_ := none, mode_ := none } cfg.pixelFormat
    split at h
    · obtain rfl := Option.some.inj h
      exact hsel
    · split at h
      · cases h
      · obtain rfl := Option.some.inj h
        exact hsel

private theorem mapBuffer_sameSlots {sink : KMSSink} {calls : DRM.PrimeCalls} {buffer : FrameBufferPtr}
    {planes : List FrameBufferPlane} {r : KMSSink × List DRM.DrmCall}
    (h : sink.mapBuffer calls buffer planes = some r) : SameSlots r.1 sink := by
  simp only [KMSSink.mapBuffer, Option.bind_eq_bind, Option.bind_eq_some_iff] at h
  obtain ⟨strides, -, drmBuffer, -, h⟩ := h
  split at h
  · obtain rfl := Option.some.inj h
    exact ⟨rfl, rfl, rfl⟩
  · obtain rfl := Option.some.inj h
    exact ⟨rfl, rfl, rfl⟩
  · obtain rfl := Option.some.inj h
    exact ⟨rfl, rfl, rfl⟩

/-- An accepted frame has a mapped buffer, and nothing waits behind the queued request. -/
private theorem accepted_iff {s : KmsLife} {calls : AtomicCalls} {camRequest : Libcamera.Request} :
    s.Accepted calls camRequest ↔ ∃ drmBuffer, s.sink.displays camRequest = some drmBuffer := by
  unfold Accepted
  cases hd : s.sink.displays camRequest with
  | none => simp [KMSSink.processRequest_dropped hd]
  | some drmBuffer =>
    cases hq : s.sink.queued_ with
    | none => simp [KMSSink.processRequest_queued hd hq]
    | some queued => simp [KMSSink.processRequest_pending hd hq]

/-- A page flip moves the requests one slot on, or fails the assertion and leaves them. -/
theorem flip_cases (s : KmsState) (calls : AtomicCalls) (addr : Nat) :
    ((s.pageFlipComplete calls addr).2.sink = s.sink ∧ s.sink.flipCommits addr = []) ∨
      ∃ queued, s.sink.queued_ = some queued ∧ (s.pageFlipComplete calls addr).2.sink =
        { s.sink with active_ := some queued, queued_ := s.sink.pending_, pending_ := none } := by
  by_cases hassert : s.sink.queued_.any (·.drmRequest_.addr = addr) = true
  · right
    cases hq : s.sink.queued_ with
    | none =>
      rw [hq] at hassert
      cases hassert
    | some queued =>
      rw [hq, Option.any_some, decide_eq_true_eq] at hassert
      subst hassert
      exact ⟨queued, rfl, by simp [KmsState.pageFlipComplete, KMSSink.requestComplete_eq hq]⟩
  · left
    have hnone : s.sink.requestComplete calls addr = none := by
      rw [KMSSink.requestComplete, if_neg hassert]
    constructor
    · simp [KmsState.pageFlipComplete, hnone]
    · rw [KMSSink.flipCommits, if_neg hassert]

/-! ### Which frame enables the pipeline -/

/-- `active_` and `queued_` are both empty exactly when no frame was accepted since the start or the last `stop`, and
then no request was committed either. -/
structure Phase (s : KmsLife) : Prop where
  pending_queued : s.sink.pending_.isSome → s.sink.queued_.isSome
  idle : s.frames = [] ↔ s.sink.active_ = none ∧ s.sink.queued_ = none
  commits : s.frames = [] → s.commits = []

private theorem Phase.of_sameSlots {s : KmsLife} {sink : KMSSink} (h : s.Phase) (hsink : SameSlots sink s.sink) :
    (s.withSink sink).Phase := by
  obtain ⟨ha, hq, hp⟩ := hsink
  constructor
  · show sink.pending_.isSome → sink.queued_.isSome
    rw [hp, hq]
    exact h.pending_queued
  · show s.frames = [] ↔ sink.active_ = none ∧ sink.queued_ = none
    rw [ha, hq]
    exact h.idle
  · exact h.commits

private theorem Phase.frame {s s' : KmsLife} {calls : AtomicCalls} {camRequest : Libcamera.Request} (h : s.Phase)
    (hs : s.step (.frame calls camRequest) = some s') : s'.Phase := by
  obtain rfl := step_frame_eq hs
  cases hd : s.sink.displays camRequest with
  | none =>
    -- the frame is handed back
    have hacc : ¬s.Accepted calls camRequest := by simp [accepted_iff, hd]
    rw [KmsState.processRequest_dropped hd, if_neg hacc]
    simpa [KMSSink.frameCommits, hd] using h
  | some drmBuffer =>
    have hacc : s.Accepted calls camRequest := accepted_iff.2 ⟨drmBuffer, hd⟩
    rw [if_pos hacc]
    cases hq : s.sink.queued_ with
    | none =>
      rw [KmsState.processRequest_queued hd hq]
      exact ⟨fun _ => rfl, by simp [sink], by simp⟩
    | some queued =>
      rw [KmsState.processRequest_pending hd hq]
      refine ⟨fun _ => ?_, ?_, by simp⟩
      · show s.sink.queued_.isSome
        rw [hq]
        rfl
      · show s.frames ++ [camRequest] = [] ↔ s.sink.active_ = none ∧ s.sink.queued_ = none
        simp [hq]

private theorem Phase.flip {s s' : KmsLife} {calls : AtomicCalls} {addr : Nat} (h : s.Phase)
    (hs : s.step (.flip calls addr) = some s') : s'.Phase := by
  obtain rfl := step_flip_eq hs
  rcases flip_cases s.kms calls addr with ⟨hsink, hcommits⟩ | ⟨queued, hq, hsink⟩
  · have hnil : s.sink.flipCommits addr = [] := hcommits
    rw [hnil, List.append_nil]
    constructor
    · simp only [sink, hsink]
      exact h.pending_queued
    · simp only [sink, hsink]
      exact h.idle
    · exact h.commits
  · -- a request was queued, so a frame was accepted before
    have hne : s.frames ≠ [] := by
      intro hnil
      have := (h.idle.1 hnil).2
      rw [sink, hq] at this
      cases this
    constructor
    · simp [sink, hsink]
    · simp [sink, hsink, hne]
    · exact fun hnil => absurd hnil hne

private theorem Phase.stop {s s' : KmsLife} {calls : AtomicCalls} (h : s.Phase) (hs : s.step (.stop calls) = some s') :
    s'.Phase := by
  simp only [step] at hs
  split at hs
  · cases hs
  · rcases s.sink.stop_eq calls with ⟨-, -, hret, hsink⟩ | ⟨-, hret, hsink⟩
    · rw [if_pos hret, hsink, Option.some.injEq] at hs
      subst hs
      exact ⟨id, iff_of_true rfl ⟨rfl, rfl⟩, fun _ => rfl⟩
    · have hne : ¬(s.sink.stop calls).ret = 0 := by omega
      rw [if_neg hne, Option.some.injEq, hsink] at hs
      subst hs
      exact h

private theorem Phase.step {s s' : KmsLife} {e : KmsLifeEvent} (h : s.Phase) (hs : s.step e = some s') : s'.Phase := by
  cases e with
  | frame calls camRequest => exact h.frame hs
  | flip calls addr => exact h.flip hs
  | configure cfg =>
    simp only [KmsLife.step] at hs
    split at hs
    · cases hs
    · obtain ⟨r, hr, rfl⟩ := Option.map_eq_some_iff.1 hs
      exact h.of_sameSlots (configure_sameSlots hr)
  | mapBuffer calls buffer planes =>
    simp only [KmsLife.step] at hs
    split at hs
    · cases hs
    · obtain ⟨r, hr, rfl⟩ := Option.map_eq_some_iff.1 hs
      exact h.of_sameSlots (mapBuffer_sameSlots hr)
  | stop calls => exact h.stop hs

private theorem phase_of_reachable {s : KmsLife} (h : machine.Reachable s) : s.Phase := by
  refine Machine.ReachableVia.invariant (M := machine) ?_ (fun _ _ _ hp _ hs => hp.step hs) h
  rintro s ⟨⟨hp, hq, ha, -⟩, hframes, hcommits⟩
  exact ⟨by simp [sink, hp], by simp [sink, hframes, hq, ha], fun _ => hcommits⟩

/-- The request was built by these additions; it holds exactly their entries if libdrm accepts them all. -/
def Carries (dev : Device) (calls : AtomicCalls) (changes : List Change) (r : AtomicRequest) : Prop :=
  r = (AtomicRequest.new calls).addProperties dev calls changes ∧
    (AtomicRequest.Accepts dev calls changes →
      ∃ entries, r.request_ = some entries ∧ List.Forall₂ (AtomicRequest.Records dev) changes entries)

private theorem carries_addProperties (dev : Device) (calls : AtomicCalls) (changes : List Change) :
    Carries dev calls changes ((AtomicRequest.new calls).addProperties dev calls changes) :=
  ⟨rfl, fun h => AtomicRequest.addProperties_records ((AtomicRequest.addProperties_valid _ _ _).2 h)⟩

/-- In any run of frames, page flips and reconfigurations, with any outcomes of the commits: the first frame that is
accepted since the start or the last `stop` that succeeded enables the pipeline, and `commit` is called on its request
at once, for the first time; the request of every later one carries `FB_ID` only, and takes the next free slot. -/
theorem first_frame_enables {s s' : KmsLife} (h : machine.Reachable s) {calls : AtomicCalls}
    {camRequest : Libcamera.Request} (hs : machine.step s (.frame calls camRequest) = some s')
    (hacc : s.Accepted calls camRequest) :
    ∃ drmBuffer r, s.sink.buffers_.lookup camRequest.firstBuffer = some drmBuffer ∧
      (s'.sink.queued_ = some ⟨r, camRequest⟩ ∨ s'.sink.pending_ = some ⟨r, camRequest⟩) ∧
      (s.frames = [] → Carries s.sink.dev_ calls (s.sink.enablingChanges drmBuffer) r ∧ s.commits = [] ∧
        s'.commits = [r] ∧ s'.sink.queued_ = some ⟨r, camRequest⟩) ∧
      (s.frames ≠ [] → Carries s.sink.dev_ calls [s.sink.flipChange drmBuffer] r) ∧
      s'.frames = s.frames ++ [camRequest] := by
  have hphase := phase_of_reachable h
  obtain ⟨drmBuffer, hd⟩ := accepted_iff.1 hacc
  have hcarries := carries_addProperties s.sink.dev_ calls (s.sink.frameChanges drmBuffer)
  obtain rfl := step_frame_eq hs
  refine ⟨drmBuffer, (s.sink.newRequest calls drmBuffer camRequest).drmRequest_, KMSSink.lookup_of_displays hd, ?_, ?_,
    ?_, if_pos hacc⟩
  · cases hq : s.sink.queued_ with
    | none => rw [KmsState.processRequest_queued hd hq]; exact Or.inl rfl
    | some queued => rw [KmsState.processRequest_pending hd hq]; exact Or.inr rfl
  · intro hnil
    obtain ⟨ha, hq⟩ := hphase.idle.1 hnil
    rw [KMSSink.frameChanges_of_idle ha hq] at hcarries
    rw [KmsState.processRequest_queued hd hq]
    refine ⟨?_, hphase.commits hnil, ?_, rfl⟩
    · simpa only [KMSSink.newRequest, KMSSink.frameChanges_of_idle ha hq] using hcarries
    · simp [hphase.commits hnil, KMSSink.frameCommits, hd, hq]
  · intro hne
    have hbusy : ¬(s.sink.active_ = none ∧ s.sink.queued_ = none) := fun hidle => hne (hphase.idle.2 hidle)
    rw [KMSSink.frameChanges_of_busy hbusy] at hcarries
    simpa only [KMSSink.newRequest, KMSSink.frameChanges_of_busy hbusy] using hcarries

/-- A session of one frame that is stopped, and the buffer mapped for the next one. -/
def oneSession : List KmsLifeEvent :=
  [.frame (committing 100 0) (oneBuffer 50), .flip (committing 0 0) 100, .stop (committing 200 0),
    .mapBuffer ⟨fun _ => some 5, (0, 31), fun _ => 0⟩ 1 [⟨7, 0, 614400⟩]]

/-- The first frame of the second session. -/
theorem first_frame_enables_again :
    ∃ s s', machine.replay ⟨stoppable, [], []⟩ oneSession = some s ∧
      machine.step s (.frame (committing 300 (-16)) (oneBuffer 60)) = some s' ∧ s.frames = [] ∧
      ∃ drmBuffer r, Carries s.sink.dev_ (committing 300 (-16)) (s.sink.enablingChanges drmBuffer) r ∧
        s'.commits = [r] := by
  have hrun : machine.replay ⟨stoppable, [], []⟩ oneSession = some _ := rfl
  have hinit : machine.init ⟨stoppable, [], []⟩ := ⟨⟨rfl, rfl, rfl, rfl, rfl, rfl, rfl⟩, rfl, rfl⟩
  refine ⟨_, _, hrun, rfl, rfl, ?_⟩
  obtain ⟨drmBuffer, r, -, -, hfirst, -⟩ :=
    @first_frame_enables _ _ (Machine.reachable_of_replay hinit hrun) (committing 300 (-16)) (oneBuffer 60) rfl rfl
  obtain ⟨hcarries, -, hcommits, -⟩ := hfirst rfl
  exact ⟨drmBuffer, r, hcarries, hcommits⟩

end KmsLife

end Twincam
