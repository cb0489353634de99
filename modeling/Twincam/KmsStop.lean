import Twincam.KmsRun

/-!
# Stopping the KMS sink (`KMSSink::stop` in `kms_sink.cpp`)

A frame sink that is stopped releases the requests it holds.  `KMSSink::stop` disables the display pipeline first and
releases them only when the commit succeeds; `stop_releases_iff` says what that means after a run.
-/

namespace Twincam

open DRM (AtomicCalls AtomicRequest KernelCommit)
open DRM.AtomicRequest (Change)

namespace KMSSink

/-- The properties that `stop` adds to disable the display pipeline. -/
def stopChanges (sink : KMSSink) : List Change :=
  [(sink.connectorObject, "CRTC_ID", 0), (sink.crtcObject, "ACTIVE", 0), (sink.crtcObject, "MODE_ID", 0),
    (sink.planeObject, "CRTC_ID", 0), (sink.planeObject, "FB_ID", 0)]

/-- The result of `stop`, the sink after it and the kernel commit it made. -/
structure StopResult where
  ret : Int
  sink : KMSSink
  committed : Option KernelCommit

/-- `KMSSink::stop`. -/
def stop (sink : KMSSink) (calls : AtomicCalls) : StopResult :=
  let request := (AtomicRequest.new calls).addProperties sink.dev_ calls sink.stopChanges
  let (ret, committed) := request.commit calls AtomicRequest.FlagAllowModeset
  if ret < 0 then ⟨ret, sink, committed⟩
  else ⟨0, { sink with pending_ := none, queued_ := none, active_ := none, buffers_ := [] }, committed⟩

/-- The sink holds no camera request and no mapped framebuffer. -/
structure Released (sink : KMSSink) : Prop where
  pending : sink.pending_ = none
  queued : sink.queued_ = none
  active : sink.active_ = none
  buffers : sink.buffers_ = []

/-- `stop` succeeds exactly when libdrm accepts the request and the kernel takes it. -/
theorem stop_eq (sink : KMSSink) (calls : AtomicCalls) :
    (AtomicRequest.Accepts sink.dev_ calls sink.stopChanges ∧ 0 ≤ calls.commit ∧ (sink.stop calls).ret = 0 ∧
        (sink.stop calls).sink = { sink with pending_ := none, queued_ := none, active_ := none, buffers_ := [] }) ∨
      (¬(AtomicRequest.Accepts sink.dev_ calls sink.stopChanges ∧ 0 ≤ calls.commit) ∧ (sink.stop calls).ret < 0 ∧
        (sink.stop calls).sink = sink) := by
  have hvalid : ((AtomicRequest.new calls).addProperties sink.dev_ calls sink.stopChanges).valid_ = true ↔
      AtomicRequest.Accepts sink.dev_ calls sink.stopChanges := AtomicRequest.addProperties_valid _ _ _
  by_cases haccepts : AtomicRequest.Accepts sink.dev_ calls sink.stopChanges
  · have hv := hvalid.2 haccepts
    by_cases hcommit : 0 ≤ calls.commit
    · have hnot : ¬calls.commit < 0 := by omega
      left
      simp [stop, AtomicRequest.commit, hv, hnot, haccepts, hcommit]
    · have hlt : calls.commit < 0 := by omega
      right
      simp [stop, AtomicRequest.commit, hv, hlt]
  · have hv : ((AtomicRequest.new calls).addProperties sink.dev_ calls sink.stopChanges).valid_ = false := by
      rw [← Bool.not_eq_true, hvalid]
      exact haccepts
    right
    simp [stop, AtomicRequest.commit, hv, haccepts, EINVAL]

end KMSSink

namespace KmsState

open KMSSink (Released)

/-- The slots are empty exactly when every accepted request was given back. -/
private theorem slots_eq_nil_iff {s : KmsState} (h : machine.Reachable s) : s.sink.slots = [] ↔ s.emitted =
    s.accepted := by
  have hhist := (slots_fifo h).2.2.2.1.1
  constructor
  · intro hnil
    rw [hhist, hnil, List.append_nil]
  · intro heq
    rw [heq] at hhist
    simpa using hhist

private theorem released_iff {s : KmsState} (h : machine.Reachable s) :
    Released s.sink ↔ s.emitted = s.accepted ∧ s.sink.buffers_ = [] := by
  rw [← slots_eq_nil_iff h]
  constructor
  · rintro ⟨hp, hq, ha, hb⟩
    refine ⟨?_, hb⟩
    simp [KMSSink.slots, hp, hq, ha]
  · rintro ⟨hslots, hb⟩
    simp only [KMSSink.slots, List.map_eq_nil_iff, List.append_eq_nil_iff, Option.toList_eq_nil_iff] at hslots
    obtain ⟨⟨ha, hq⟩, hp⟩ := hslots
    exact ⟨hp, hq, ha, hb⟩

/-- Stopping the sink after any frames and page flips releases all it holds if and only if libdrm and the kernel accept
the disabling commit, or every request was given back before and no buffer is mapped. -/
theorem stop_releases_iff {s : KmsState} (h : machine.Reachable s) (calls : AtomicCalls) :
    Released (s.sink.stop calls).sink ↔
      (AtomicRequest.Accepts s.sink.dev_ calls s.sink.stopChanges ∧ 0 ≤ calls.commit) ∨
        (s.emitted = s.accepted ∧ s.sink.buffers_ = []) := by
  rw [← released_iff h]
  rcases s.sink.stop_eq calls with ⟨haccepts, hcommit, -, hsink⟩ | ⟨hfails, -, hsink⟩
  · rw [hsink]
    exact iff_of_true ⟨rfl, rfl, rfl, rfl⟩ (Or.inl ⟨haccepts, hcommit⟩)
  · rw [hsink]
    exact (or_iff_right hfails).symm

/-- The one display with the properties of the CRTC that `stop` sets. -/
def stoppable : KmsState :=
  let dev := oneDisplay.sink.dev_
  { oneDisplay with
    sink := { oneDisplay.sink with
      dev_ := { dev with
        crtcs_ := [⟨⟨1, [⟨20, 0⟩, ⟨21, 0⟩]⟩, 0, [0]⟩]
        properties_ := dev.properties_ ++ [⟨⟨20, []⟩, "ACTIVE"⟩, ⟨⟨21, []⟩, "MODE_ID"⟩]
        objects_ := (dev.objects_.insert 20 (.property 10)).insert 21 (.property 11) } } }

/-- A sink that is stopped with one frame on its way to the screen and one behind it. -/
theorem stop_releases_iff_two :
    ∃ t, machine.replay stoppable [.frame (committing 100 0) (oneBuffer 50), .frame (committing 200 0) (oneBuffer 60)] =
        some t ∧ t.sink.slots = [oneBuffer 50, oneBuffer 60] ∧ Released (t.sink.stop (committing 300 0)).sink := by
  have hrun : machine.replay stoppable
      [.frame (committing 100 0) (oneBuffer 50), .frame (committing 200 0) (oneBuffer 60)] = some _ := rfl
  have hinit : machine.init stoppable := ⟨rfl, rfl, rfl, rfl, rfl, rfl, rfl⟩
  have hreach := Machine.reachable_of_replay hinit hrun
  exact ⟨_, hrun, rfl, (stop_releases_iff hreach (committing 300 0)).2 (Or.inl ⟨by decide, by decide⟩)⟩

/-- A sink that is stopped with one frame on its way to the screen: libdrm accepts the request but the kernel refuses
it with `EACCES`, and the sink keeps the camera request and the framebuffer. -/
theorem refused_stop_keeps_request :
    ∃ t, machine.Reachable t ∧ t.sink.queued_.map (·.camRequest_) = some (oneBuffer 50) ∧
      AtomicRequest.Accepts t.sink.dev_ (committing 200 (-13)) t.sink.stopChanges ∧
      (t.sink.stop (committing 200 (-13))).ret = -13 ∧
      (t.sink.stop (committing 200 (-13))).sink.queued_.map (·.camRequest_) = some (oneBuffer 50) ∧
      ¬Released (t.sink.stop (committing 200 (-13))).sink := by
  have hrun : machine.replay stoppable [.frame (committing 100 0) (oneBuffer 50)] = some _ := rfl
  refine ⟨_, Machine.reachable_of_replay ⟨rfl, rfl, rfl, rfl, rfl, rfl, rfl⟩ hrun, rfl, by decide, by decide, rfl, ?_⟩
  intro h
  exact absurd h.queued (by decide)

end KmsState

end Twincam
