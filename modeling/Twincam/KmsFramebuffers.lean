import Twincam.KmsEnable
import Twincam.Lib.HandleTable
import Twincam.Lib.Progress
import Mathlib.Data.List.Sort

/-!
# The framebuffers of a KMS sink over its life (`mapBuffer`, `stop` and the destructor of `KMSSink`)

A framebuffer closes the GEM handles of its dmabufs when it is destroyed: at once when adding it fails or when its
camera buffer has one already, and otherwise with `buffers_`, by `stop` or by the destructor of the sink.  The kernel
does not count how often a handle was imported, so a handle that two framebuffers keep is closed by the first of them
under the other one.

`handles_balanced_iff`: over any run of a sink and its destructor, no handle is closed that is not open if and only if
every `mapBuffer` imports nothing twice and nothing that a framebuffer of the sink keeps; and then none stays open.
-/

namespace Twincam

open DRM (CreateResult DrmCall FrameBuffer Holds OneFdPerHandle PrimeCalls createFrameBuffer importedPlanes)
open Libcamera (FrameBufferPtr FrameBufferPlane PixelFormat Size)
open HandleTable (Releasable)

namespace DRM

/-- What a call does to the table of the handles that are open. -/
def DrmCall.entry? : DrmCall → Option (Ledger.Entry UInt32)
  | .primeFDToHandle _ handle => handle.map .acquire
  | .gemClose handle false => some (.release handle)
  | .gemClose _ true | .modeAddFB2 .. | .modeRmFB _ => none

/-- The handles that are open after the calls; `none` when one was closed that was not open. -/
def openHandles (handles : Finset UInt32) (calls : List DrmCall) : Option (Finset UInt32) :=
  HandleTable.machine.replay handles (calls.filterMap DrmCall.entry?)

/-- The handles that the destructor of a framebuffer closes. -/
def FrameBuffer.handles (fb : FrameBuffer) : List UInt32 := fb.planes_.toList.map (·.2)

/-! ### One framebuffer -/

private theorem openHandles_append (handles : Finset UInt32) (calls calls' : List DrmCall) :
    openHandles handles (calls ++ calls') = (openHandles handles calls).bind (openHandles · calls') := by
  rw [openHandles, List.filterMap_append, Machine.replay_append]
  rfl

private theorem entries_gemClose (calls : PrimeCalls) (handle : UInt32) :
    (gemClose calls handle).filterMap DrmCall.entry? = [.release handle] := by
  have hinterrupted : (List.replicate (calls.interrupted handle) (DrmCall.gemClose handle true)).filterMap
      DrmCall.entry? = [] := by
    rw [List.filterMap_eq_nil_iff]
    intro c hc
    rw [(List.mem_replicate.1 hc).2]
    rfl
  rw [gemClose, List.filterMap_append, hinterrupted]
  rfl

private theorem entries_destructor (calls : PrimeCalls) (fb : FrameBuffer) :
    (fb.destructor calls).filterMap DrmCall.entry? = fb.handles.map .release := by
  have hcloses : ∀ entries : List (Int × UInt32),
      (entries.flatMap fun entry => gemClose calls entry.2).filterMap DrmCall.entry? =
        (entries.map (·.2)).map .release := by
    intro entries
    induction entries with
    | nil => rfl
    | cons entry entries ih =>
      rw [List.flatMap_cons, List.filterMap_append, entries_gemClose, ih]
      rfl
  rw [FrameBuffer.destructor, List.filterMap_append]
  exact (List.append_nil _).trans (hcloses _)

private theorem entries_imports {log : List DrmCall}
    (h : ∀ call ∈ log, ∃ fd handle, call = .primeFDToHandle fd handle) :
    ∃ handles : List UInt32, log.filterMap DrmCall.entry? = handles.map .acquire ∧
      ∀ handle, handle ∈ handles ↔ ∃ fd, .primeFDToHandle fd (some handle) ∈ log := by
  induction log with
  | nil => exact ⟨[], rfl, by simp⟩
  | cons call log ih =>
    rw [List.forall_mem_cons] at h
    obtain ⟨⟨fd, handle, rfl⟩, hrest⟩ := h
    obtain ⟨handles, hentries, hmem⟩ := ih hrest
    cases handle with
    | none => exact ⟨handles, hentries, fun handle => by simp [hmem]⟩
    | some got =>
      refine ⟨got :: handles, ?_, fun handle => ?_⟩
      · rw [List.filterMap_cons_some (rfl : DrmCall.entry? (.primeFDToHandle fd (some got)) = some (.acquire got)),
          hentries, List.map_cons]
      · simp only [List.mem_cons, hmem, DrmCall.primeFDToHandle.injEq, Option.some.injEq, exists_or]
        simp

/-- The imports open the handles of the table. -/
private theorem openHandles_imports {calls : PrimeCalls} {planes : List FrameBufferPlane}
    {planes_ : Std.TreeMap Int UInt32}
    {log : List DrmCall} (h : Holds calls planes planes_ log) (id : UInt32) (handles : Finset UInt32) :
    openHandles handles log = some (handles ∪ (FrameBuffer.handles ⟨id, planes_⟩).toFinset) := by
  obtain ⟨imported, hentries, hmem⟩ := entries_imports h.imports
  have hsame : imported.toFinset = (FrameBuffer.handles ⟨id, planes_⟩).toFinset := by
    ext handle
    rw [List.mem_toFinset, List.mem_toFinset, hmem, h.imported, FrameBuffer.handles, List.mem_map]
    constructor
    · rintro ⟨plane, hplane, hhandle⟩
      exact ⟨(plane.fd, handle), (mem_toList_iff h _ _).2 ⟨plane, hplane, rfl, hhandle⟩, rfl⟩
    · rintro ⟨⟨fd, handle⟩, hin, rfl⟩
      obtain ⟨plane, hplane, rfl, hhandle⟩ := (mem_toList_iff h _ _).1 hin
      exact ⟨plane, hplane, hhandle⟩
  rw [openHandles, hentries, HandleTable.replay_acquires, hsame]

/-- What `createFrameBuffer` leaves behind: a framebuffer that keeps the handles that were imported, or no trace of
them. -/
private theorem createFrameBuffer_handles {calls : PrimeCalls} {planes : List FrameBufferPlane}
    (hlen : planes.length ≤ 4) {format : PixelFormat} {size : Size} {strides : Vector UInt32 4} {r : CreateResult}
    (hr : createFrameBuffer calls planes format size strides = some r) :
    ∃ fb : FrameBuffer, ∃ log, Holds calls (importedPlanes calls planes) fb.planes_ log ∧ ∃ more,
      more.filterMap DrmCall.entry? = [] ∧
        ((r.fb = some fb ∧ r.calls = log ++ more) ∨ (r.fb = none ∧ r.calls = log ++ more ++ fb.destructor calls)) := by
  have hloop := foldlM_importPlane (imported_nil calls) planes (by simpa using hlen)
  rw [List.nil_append, List.nil_append] at hloop
  unfold createFrameBuffer at hr
  rcases hloop with ⟨hall, st, heq, himp⟩ | ⟨st, heq, hholds⟩
  · rw [heq] at hr
    rw [hall]
    by_cases hret : calls.drmModeAddFB2.1 < 0
    · -- the kernel refuses the framebuffer
      obtain rfl := Option.some.inj ((if_pos hret).symm.trans hr)
      exact ⟨⟨0, st.planes_⟩, st.log, himp.holds, _, rfl, Or.inr ⟨rfl, rfl⟩⟩
    · obtain rfl := Option.some.inj ((if_neg hret).symm.trans hr)
      exact ⟨⟨_, st.planes_⟩, st.log, himp.holds, _, rfl, Or.inl ⟨rfl, rfl⟩⟩
  · -- an import fails
    rw [heq] at hr
    obtain rfl := Option.some.inj hr
    exact ⟨⟨0, st.planes_⟩, st.log, hholds, [], rfl, Or.inr ⟨rfl, by rw [List.append_nil]⟩⟩

/-- The handles of a new framebuffer are those that were imported, each for one descriptor. -/
private theorem handles_of_holds {calls : PrimeCalls} {planes : List FrameBufferPlane} {fb : FrameBuffer}
    {log : List DrmCall} (h : Holds calls planes fb.planes_ log) :
    (fb.handles.Nodup ↔ OneFdPerHandle calls planes) ∧
      ∀ handle, handle ∈ fb.handles ↔ ∃ plane ∈ planes, calls.drmPrimeFDToHandle plane.fd = some handle := by
  constructor
  · rw [← count_le_one_iff h, List.nodup_iff_count_le_one]
    rfl
  · intro handle
    rw [FrameBuffer.handles, List.mem_map]
    constructor
    · rintro ⟨⟨fd, handle⟩, hin, rfl⟩
      obtain ⟨plane, hplane, rfl, hhandle⟩ := (mem_toList_iff h _ _).1 hin
      exact ⟨plane, hplane, hhandle⟩
    · rintro ⟨plane, hplane, hhandle⟩
      exact ⟨(plane.fd, handle), (mem_toList_iff h _ _).2 ⟨plane, hplane, rfl, hhandle⟩, rfl⟩

end DRM

/-! ### The framebuffers of the sink -/

namespace KMSSink

/-- The end of `buffers_`, a map that is sorted by the camera buffers. -/
def clearBuffers (sink : KMSSink) (closing : PrimeCalls) : List DrmCall :=
  (sink.buffers_.insertionSort (·.1 ≤ ·.1)).flatMap fun p => p.2.destructor closing

/-- The handles that the framebuffers of the sink keep. -/
def handles (sink : KMSSink) : List UInt32 := sink.buffers_.flatMap (·.2.handles)

/-- The calls of a step for framebuffers; closing is interrupted as `closing` says. -/
def bufferCalls (sink : KMSSink) (closing : PrimeCalls) : KmsLifeEvent → List DrmCall
  | .mapBuffer calls buffer planes => ((sink.mapBuffer calls buffer planes).map (·.2)).getD []
  | .stop calls => if (sink.stop calls).ret = 0 then sink.clearBuffers closing else []
  | .frame .. | .flip .. | .configure _ => []

private theorem openHandles_clearBuffers (sink : KMSSink) (closing : PrimeCalls) (handles : Finset UInt32) :
    DRM.openHandles handles (sink.clearBuffers closing) =
      if Releasable sink.handles handles then some (handles \ sink.handles.toFinset) else none := by
  have hentries : ∀ buffers : List (FrameBufferPtr × FrameBuffer),
      (buffers.flatMap fun p => p.2.destructor closing).filterMap DrmCall.entry? =
        (buffers.flatMap (·.2.handles)).map .release := by
    intro buffers
    induction buffers with
    | nil => rfl
    | cons p buffers ih =>
      rw [List.flatMap_cons, List.filterMap_append, DRM.entries_destructor, ih, List.flatMap_cons, List.map_append]
  have hperm : ((sink.buffers_.insertionSort (·.1 ≤ ·.1)).flatMap (·.2.handles)).Perm sink.handles :=
    (List.perm_insertionSort _ _).flatMap_right _
  rw [DRM.openHandles, clearBuffers, hentries, HandleTable.replay_releases, List.toFinset_eq_of_perm _ _ hperm]
  simp only [Releasable.perm hperm]

/-- `strides` has room for four planes. -/
private theorem length_le_of_strides {sink : KMSSink} {n : Nat} {strides : Vector UInt32 4}
    (h : sink.strides n = some strides) : n ≤ 4 := by
  by_contra hlt
  have hrange : List.range' 1 (n - 1) = List.range' 1 3 ++ 4 :: List.range' 5 (n - 5) := by
    have hthree : n - 1 = 3 + (n - 5 + 1) := by omega
    rw [hthree, ← List.range'_append_1]
    rfl
  have hfull : ∀ strides, sink.setStride strides 4 = none := fun _ => dif_neg (by omega)
  rw [KMSSink.strides, hrange, List.foldlM_append, Option.bind_eq_bind, Option.bind_eq_some_iff] at h
  obtain ⟨strides', -, hrest⟩ := h
  rw [List.foldlM_cons, hfull] at hrest
  cases hrest

/-- The handles that `mapBuffer` imports are kept by a new framebuffer of the sink, or closed again. -/
private theorem mapBuffer_handles {sink sink' : KMSSink} {calls : PrimeCalls} {buffer : FrameBufferPtr}
    {planes : List FrameBufferPlane} {log : List DrmCall} (h : sink.mapBuffer calls buffer planes = some (sink', log)) :
    ∃ new : List UInt32, (new.Nodup ↔ OneFdPerHandle calls (importedPlanes calls planes)) ∧
      (∀ handle, handle ∈ new ↔
        ∃ plane ∈ importedPlanes calls planes, calls.drmPrimeFDToHandle plane.fd = some handle) ∧
      ((sink'.handles = sink.handles ++ new ∧ ∀ handles, DRM.openHandles handles log = some (handles ∪ new.toFinset)) ∨
        (sink'.handles = sink.handles ∧ ∀ handles, DRM.openHandles handles log =
          if new.Nodup then some (handles \ new.toFinset) else none)) := by
  simp only [mapBuffer, Option.bind_eq_bind, Option.bind_eq_some_iff] at h
  obtain ⟨strides, hstrides, r, hr, h⟩ := h
  obtain ⟨fb, imports, hholds, more, hmore, hdone⟩ := DRM.createFrameBuffer_handles (length_le_of_strides hstrides) hr
  obtain ⟨hnodup, hmem⟩ := DRM.handles_of_holds hholds
  refine ⟨fb.handles, hnodup, hmem, ?_⟩
  have hadded : ∀ handles, DRM.openHandles handles (imports ++ more) = some (handles ∪ fb.handles.toFinset) := by
    intro handles
    rw [DRM.openHandles, List.filterMap_append, hmore, List.append_nil]
    exact DRM.openHandles_imports hholds fb.id_ handles
  have hdropped : ∀ handles, DRM.openHandles handles (imports ++ more ++ fb.destructor calls) =
      if fb.handles.Nodup then some (handles \ fb.handles.toFinset) else none := by
    intro handles
    rw [DRM.openHandles_append, hadded, Option.bind_some, DRM.openHandles, DRM.entries_destructor,
      HandleTable.replay_releases, Finset.union_sdiff_right]
    have hin : ∀ handle ∈ fb.handles, handle ∈ handles ∪ fb.handles.toFinset :=
      fun handle hhandle => Finset.mem_union_right _ (List.mem_toFinset.2 hhandle)
    simp only [Releasable, and_iff_left hin]
  rcases hdone with ⟨hfb, hcalls⟩ | ⟨hfb, hcalls⟩
  · rw [hfb] at h
    cases hlookup : sink.buffers_.lookup buffer with
    | none =>
      rw [hlookup] at h
      obtain ⟨rfl, rfl⟩ := Prod.mk.inj (Option.some.inj h)
      left
      rw [hcalls]
      exact ⟨by simp [handles], hadded⟩
    | some old =>
      -- the new framebuffer is dropped, and its handles are closed
      rw [hlookup] at h
      obtain ⟨rfl, rfl⟩ := Prod.mk.inj (Option.some.inj h)
      right
      rw [CreateResult.lifetime, hfb, hcalls]
      exact ⟨rfl, hdropped⟩
  · rw [hfb] at h
    obtain ⟨rfl, rfl⟩ := Prod.mk.inj (Option.some.inj h)
    right
    rw [hcalls]
    exact ⟨rfl, hdropped⟩

/-! ### What a step does to `buffers_` -/

private theorem buffers_processRequest (sink : KMSSink) (calls : DRM.AtomicCalls) (camRequest : Libcamera.Request) :
    (sink.processRequest calls camRequest).sink.buffers_ = sink.buffers_ := by
  cases hd : sink.displays camRequest with
  | none => rw [processRequest_dropped hd]
  | some drmBuffer =>
    cases hq : sink.queued_ with
    | none => rw [processRequest_queued hd hq]
    | some queued => rw [processRequest_pending hd hq]

private theorem buffers_configure {sink : KMSSink} {cfg : Libcamera.StreamConfiguration} {r : Int × KMSSink}
    (h : sink.configure cfg = some r) : r.2.buffers_ = sink.buffers_ := by
  have hselect : ∀ (sink : KMSSink) format, (sink.selectPipeline format).2.buffers_ = sink.buffers_ := by
    intro sink format
    unfold selectPipeline
    dsimp only
    split <;> rfl
  unfold configure at h
  split at h
  · obtain rfl := Option.some.inj h
    rfl
  · dsimp only [configurePipeline] at h
    have hsel := hselect { sink with crtc_ := none, plane_ := none, mode_ := none } cfg.pixelFormat
    split at h
    · obtain rfl := Option.some.inj h
      exact hsel
    · split at h
      · cases h
      · obtain rfl := Option.some.inj h
        exact hsel

end KMSSink

/-! ### The life of the sink -/

/-- The life of a sink and the calls for its framebuffers so far. -/
structure KmsBuffers where
  life : KmsLife
  calls : List DrmCall

/-- A step of the sink, and how often closing a handle is interrupted in it. -/
structure KmsBuffersEvent where
  event : KmsLifeEvent
  closing : PrimeCalls

namespace KmsBuffers

def step (s : KmsBuffers) (e : KmsBuffersEvent) : Option KmsBuffers :=
  (s.life.step e.event).map fun life => ⟨life, s.calls ++ s.life.sink.bufferCalls e.closing e.event⟩

/-- A sink that was just constructed. -/
def machine : Machine KmsBuffers KmsBuffersEvent where
  init s := KmsLife.machine.init s.life ∧ s.life.sink.buffers_ = [] ∧ s.calls = []
  step := step

/-- A `mapBuffer` imports no handle twice and none that a framebuffer of the sink keeps. -/
def ImportsNew (s : KmsBuffers) (e : KmsBuffersEvent) : Prop :=
  match e.event with
  | .mapBuffer calls _ planes => OneFdPerHandle calls (importedPlanes calls planes) ∧
      ∀ plane ∈ importedPlanes calls planes, ∀ handle ∈ s.life.sink.handles,
        calls.drmPrimeFDToHandle plane.fd ≠ some handle
  | .frame .. | .flip .. | .configure _ | .stop _ => True

/-- The open handles are those that the framebuffers keep, each for one of them. -/
def Balanced (s : KmsBuffers) : Prop :=
  s.life.sink.handles.Nodup ∧ DRM.openHandles ∅ s.calls = some s.life.sink.handles.toFinset

/-- A handle was closed that was not open, or one of the framebuffers will close such a handle. -/
def Broken (s : KmsBuffers) : Prop :=
  ∀ handles, DRM.openHandles ∅ s.calls = some handles → ¬Releasable s.life.sink.handles handles

/-- What a step does to the framebuffers. -/
private theorem step_cases {s s' : KmsBuffers} {e : KmsBuffersEvent} (hs : s.step e = some s') :
    (s'.life.sink.buffers_ = s.life.sink.buffers_ ∧ s'.calls = s.calls ∧ s.ImportsNew e) ∨
    (∃ calls buffer planes log, e.event = .mapBuffer calls buffer planes ∧
      s.life.sink.mapBuffer calls buffer planes = some (s'.life.sink, log) ∧ s'.calls = s.calls ++ log) ∨
    (s'.life.sink.buffers_ = [] ∧ s'.calls = s.calls ++ s.life.sink.clearBuffers e.closing ∧ s.ImportsNew e) := by
  obtain ⟨life, hlife, rfl⟩ := Option.map_eq_some_iff.1 hs
  obtain ⟨event, closing⟩ := e
  cases event with
  | frame calls camRequest =>
    obtain rfl := KmsLife.step_frame_eq hlife
    exact Or.inl ⟨KMSSink.buffers_processRequest _ _ _, List.append_nil _, trivial⟩
  | flip calls addr =>
    obtain rfl := KmsLife.step_flip_eq hlife
    refine Or.inl ⟨?_, List.append_nil _, trivial⟩
    rcases KmsLife.flip_cases s.life.kms calls addr with ⟨hsink, -⟩ | ⟨queued, -, hsink⟩
    · exact congrArg KMSSink.buffers_ hsink
    · have hbuffers := congrArg KMSSink.buffers_ hsink
      exact hbuffers
  | configure cfg =>
    simp only [KmsLife.step] at hlife
    split at hlife
    · cases hlife
    · obtain ⟨r, hr, rfl⟩ := Option.map_eq_some_iff.1 hlife
      exact Or.inl ⟨KMSSink.buffers_configure hr, List.append_nil _, trivial⟩
  | mapBuffer calls buffer planes =>
    simp only [KmsLife.step] at hlife
    split at hlife
    · cases hlife
    · obtain ⟨r, hr, rfl⟩ := Option.map_eq_some_iff.1 hlife
      refine Or.inr (Or.inl ⟨calls, buffer, planes, r.2, rfl, hr, ?_⟩)
      simp [KMSSink.bufferCalls, hr]
  | stop calls =>
    simp only [KmsLife.step] at hlife
    split at hlife
    · cases hlife
    · rcases s.life.sink.stop_eq calls with ⟨-, -, hret, hsink⟩ | ⟨-, hret, hsink⟩
      · -- the pipeline is disabled, and the buffers are freed
        rw [if_pos hret] at hlife
        obtain rfl := Option.some.inj hlife
        refine Or.inr (Or.inr ⟨congrArg KMSSink.buffers_ hsink, ?_, trivial⟩)
        simp [KMSSink.bufferCalls, hret]
      · have hne : ¬(s.life.sink.stop calls).ret = 0 := by omega
        rw [if_neg hne] at hlife
        obtain rfl := Option.some.inj hlife
        refine Or.inl ⟨congrArg KMSSink.buffers_ hsink, ?_, trivial⟩
        simp [KMSSink.bufferCalls, hne]

private theorem handles_eq {sink sink' : KMSSink} (h : sink'.buffers_ = sink.buffers_) : sink'.handles =
    sink.handles := by
  rw [KMSSink.handles, KMSSink.handles, h]

private theorem Broken.step {s s' : KmsBuffers} {e : KmsBuffersEvent} (h : s.Broken) (hs : s.step e = some s') :
    s'.Broken := by
  rcases step_cases hs with ⟨hbuffers, hcalls, -⟩ | ⟨calls, buffer, planes, log, -, hmap, hcalls⟩ | ⟨-, hcalls, -⟩
  · rw [Broken, hcalls, handles_eq hbuffers]
    exact h
  · intro handles hopen hreleasable
    rw [hcalls, DRM.openHandles_append] at hopen
    obtain ⟨before, hbefore, hlog⟩ := Option.bind_eq_some_iff.1 hopen
    obtain ⟨new, -, -, ⟨hkeeps, hopened⟩ | ⟨hkeeps, hopened⟩⟩ := KMSSink.mapBuffer_handles hmap
    · rw [hopened, Option.some.injEq] at hlog
      rw [hkeeps, ← hlog] at hreleasable
      exact h before hbefore hreleasable.of_append
    · rw [hopened, Option.ite_none_right_eq_some, Option.some.injEq] at hlog
      rw [hkeeps, ← hlog.2] at hreleasable
      exact h before hbefore (hreleasable.mono Finset.sdiff_subset)
  · intro handles hopen
    rw [hcalls, DRM.openHandles_append] at hopen
    obtain ⟨before, hbefore, hclear⟩ := Option.bind_eq_some_iff.1 hopen
    rw [KMSSink.openHandles_clearBuffers, if_neg (h before hbefore)] at hclear
    cases hclear

private theorem importsNew_iff {s : KmsBuffers} {e : KmsBuffersEvent} {calls : PrimeCalls} {buffer : FrameBufferPtr}
    {planes : List FrameBufferPlane} (he : e.event = .mapBuffer calls buffer planes) {new : List UInt32}
    (hnodup : new.Nodup ↔ OneFdPerHandle calls (importedPlanes calls planes))
    (hmem : ∀ handle, handle ∈ new ↔
      ∃ plane ∈ importedPlanes calls planes, calls.drmPrimeFDToHandle plane.fd = some handle) :
    s.ImportsNew e ↔ new.Nodup ∧ s.life.sink.handles.Disjoint new := by
  rw [ImportsNew, he, hnodup]
  refine and_congr_right fun _ => ?_
  constructor
  · intro h handle hheld hnew
    obtain ⟨plane, hplane, hhandle⟩ := (hmem handle).1 hnew
    exact h plane hplane handle hheld hhandle
  · intro h plane hplane handle hheld hhandle
    exact h hheld ((hmem handle).2 ⟨plane, hplane, hhandle⟩)

/-- A framebuffer with new handles keeps the balance, whether the sink keeps it or not; any other one ends it. -/
private theorem Balanced.mapBuffer {s s' : KmsBuffers} {e : KmsBuffersEvent} (h : s.Balanced) {calls : PrimeCalls}
    {buffer : FrameBufferPtr} {planes : List FrameBufferPlane} {log : List DrmCall}
    (he : e.event = .mapBuffer calls buffer planes)
    (hmap : s.life.sink.mapBuffer calls buffer planes = some (s'.life.sink, log)) (hcalls : s'.calls = s.calls ++ log) :
    (s.ImportsNew e ∧ s'.Balanced) ∨ (¬s.ImportsNew e ∧ s'.Broken) := by
  obtain ⟨hheld, hopen⟩ := h
  obtain ⟨new, hnodup, hmem, hdone⟩ := KMSSink.mapBuffer_handles hmap
  have hafter : DRM.openHandles ∅ s'.calls = DRM.openHandles s.life.sink.handles.toFinset log := by
    rw [hcalls, DRM.openHandles_append, hopen, Option.bind_some]
  rw [importsNew_iff he hnodup hmem]
  rcases hdone with ⟨hkeeps, hopened⟩ | ⟨hkeeps, hopened⟩
  · -- the sink keeps the framebuffer
    rw [hopened, ← List.toFinset_append, ← hkeeps] at hafter
    by_cases hnew : new.Nodup ∧ s.life.sink.handles.Disjoint new
    · refine Or.inl ⟨hnew, ?_, hafter⟩
      rw [hkeeps]
      exact hheld.append hnew.1 hnew.2
    · refine Or.inr ⟨hnew, fun handles _ hreleasable => hnew ?_⟩
      have happend := hreleasable.1
      rw [hkeeps] at happend
      exact ⟨happend.of_append_right, List.disjoint_of_nodup_append happend⟩
  · -- the handles are closed again
    rw [hopened] at hafter
    by_cases hnew : new.Nodup ∧ s.life.sink.handles.Disjoint new
    · refine Or.inl ⟨hnew, ?_, ?_⟩
      · rw [hkeeps]
        exact hheld
      · rw [hafter, if_pos hnew.1, hkeeps, Option.some.injEq, Finset.sdiff_eq_self_iff_disjoint,
          List.disjoint_toFinset_iff_disjoint]
        exact hnew.2
    · refine Or.inr ⟨hnew, fun handles hsome hreleasable => ?_⟩
      rw [hafter, Option.ite_none_right_eq_some, Option.some.injEq] at hsome
      refine hnew ⟨hsome.1, fun handle hin hin' => ?_⟩
      have hleft := hreleasable.2 handle (hkeeps ▸ hin)
      rw [← hsome.2, Finset.mem_sdiff, List.mem_toFinset, List.mem_toFinset] at hleft
      exact hleft.2 hin'

private theorem openHandles_clear {s : KmsBuffers} (h : s.Balanced) (closing : PrimeCalls) :
    DRM.openHandles ∅ (s.calls ++ s.life.sink.clearBuffers closing) = some ∅ := by
  have hreleasable : Releasable s.life.sink.handles s.life.sink.handles.toFinset :=
    ⟨h.1, fun _ => List.mem_toFinset.2⟩
  rw [DRM.openHandles_append, h.2, Option.bind_some, KMSSink.openHandles_clearBuffers, if_pos hreleasable,
    Finset.sdiff_self]

private theorem Balanced.step {s s' : KmsBuffers} {e : KmsBuffersEvent} (h : s.Balanced) (hs : s.step e = some s') :
    (s.ImportsNew e ∧ s'.Balanced) ∨ (¬s.ImportsNew e ∧ s'.Broken) := by
  rcases step_cases hs with ⟨hbuffers, hcalls, hnew⟩ | ⟨calls, buffer, planes, log, he, hmap, hcalls⟩ |
    ⟨hbuffers, hcalls, hnew⟩
  · refine Or.inl ⟨hnew, ?_⟩
    rw [Balanced, hcalls, handles_eq hbuffers]
    exact h
  · exact h.mapBuffer he hmap hcalls
  · have hnil : s'.life.sink.handles = [] := by rw [KMSSink.handles, hbuffers, List.flatMap_nil]
    refine Or.inl ⟨hnew, ?_, ?_⟩
    · rw [hnil]
      exact List.nodup_nil
    · rw [hcalls, openHandles_clear h, hnil, List.toFinset_nil]

/-- Over any run of a sink and its destructor, whatever the kernel answers: the handles that are closed are open if and
only if every `mapBuffer` imports no handle twice and none that a framebuffer of the sink keeps.  Then none is left open
at the end. -/
theorem handles_balanced_iff {s t : KmsBuffers} {es : List KmsBuffersEvent} (hs : machine.init s)
    (hr : machine.Run s es t) (closing : PrimeCalls) :
    (DRM.openHandles ∅ (t.calls ++ t.life.sink.clearBuffers closing) = some ∅ ↔ machine.AllSteps ImportsNew s es) ∧
      (¬machine.AllSteps ImportsNew s es →
        DRM.openHandles ∅ (t.calls ++ t.life.sink.clearBuffers closing) = none) := by
  obtain ⟨-, hbuffers, hcalls⟩ := hs
  have hnil : s.life.sink.handles = [] := by rw [KMSSink.handles, hbuffers, List.flatMap_nil]
  have hbalanced : s.Balanced := by
    rw [Balanced, hnil, hcalls]
    exact ⟨List.nodup_nil, rfl⟩
  rcases hr.allSteps_or (fun _ _ _ => Balanced.step) (fun _ _ _ => Broken.step) hbalanced with ⟨hall, ht⟩ | ⟨hnot, ht⟩
  · exact ⟨iff_of_true (openHandles_clear ht closing) hall, fun h => absurd hall h⟩
  · have hnone : DRM.openHandles ∅ (t.calls ++ t.life.sink.clearBuffers closing) = none := by
      rw [DRM.openHandles_append]
      cases hopen : DRM.openHandles ∅ t.calls with
      | none => rfl
      | some handles =>
        rw [Option.bind_some, KMSSink.openHandles_clearBuffers, if_neg (ht handles hopen)]
    rw [hnone]
    exact ⟨iff_of_false nofun hnot, fun _ => rfl⟩

/-- A sink without framebuffers. -/
def unmapped : KmsBuffers :=
  ⟨⟨{ KmsState.stoppable with sink := { KmsState.stoppable.sink with buffers_ := [] } }, [], []⟩, []⟩

/-- Every descriptor is a dmabuf of its own, and closing is interrupted once. -/
def dmabufs : PrimeCalls := ⟨fun fd => some (UInt32.ofNat fd.toNat), (0, 31), fun _ => 1⟩

/-- Two buffers, one of them with two planes in a dmabuf, and a `stop`. -/
def twoMapped : List KmsBuffersEvent :=
  [⟨.mapBuffer dmabufs 1 [⟨5, 0, 64⟩, ⟨5, 64, 32⟩], dmabufs⟩, ⟨.mapBuffer dmabufs 2 [⟨6, 0, 64⟩], dmabufs⟩,
    ⟨.stop (KmsState.committing 100 0), dmabufs⟩]

theorem handles_balanced_iff_two :
    ∃ t, machine.replay unmapped twoMapped = some t ∧ t.calls.length = 10 ∧
      machine.AllSteps ImportsNew unmapped twoMapped := by
  have hrun : (machine.replay unmapped twoMapped).map (fun t =>
      (t.calls.length, DRM.openHandles ∅ (t.calls ++ t.life.sink.clearBuffers dmabufs))) = some (10, some ∅) := rfl
  obtain ⟨t, ht, hopen⟩ := Option.map_eq_some_iff.1 hrun
  rw [Prod.mk.injEq] at hopen
  have hinit : machine.init unmapped := ⟨⟨⟨rfl, rfl, rfl, rfl, rfl, rfl, rfl⟩, rfl, rfl⟩, rfl, rfl⟩
  exact ⟨t, ht, hopen.1, (handles_balanced_iff hinit (Machine.run_of_replay ht) dmabufs).1.1 hopen.2⟩

end KmsBuffers

end Twincam
