import Twincam.CaptureDrain
import Twincam.StartCapture
import Mathlib.Data.List.Pairwise
import Twincam.DrmAtomic

/-!
# What the display reads while the camera writes

The sink keeps a request until a later frame has taken its place on the screen, so that the camera never writes a buffer
that the display is reading.  `Scanout` is the display: the request on the screen and the one that the kernel has taken
for the next flip.  `Viewfinder` runs it next to a session; the session does not look at it.

* `Scans` relates it to the slots of the sink, and `Built` the request in a slot to the frame that it shows.
* `screen_is_not_written`: while the display reads a buffer, its frame is in a slot of the sink, so no request with a
  buffer of that frame is in the camera or on its way back to it.
-/

namespace Twincam

open DRM (AtomicCalls AtomicRequest KernelCommit)
open DRM.AtomicRequest (Change)
open Libcamera (Request)

/-- The atomic requests that the display hardware works on: the one whose page flip completed last, and the one that the
kernel has taken and not flipped to yet. -/
structure Scanout where
  shown : Option AtomicRequest
  next : Option AtomicRequest

namespace Scanout

/-- The kernel takes a commit that it does not refuse, unless it only tests it. -/
def commit (d : Scanout) (c : KernelCommit) : Scanout :=
  if 0 ≤ c.ret ∧ c.drmFlags &&& DRM.DRM_MODE_ATOMIC_TEST_ONLY = 0 then { d with next := some c.request } else d

/-- A page flip completes. -/
def flip (d : Scanout) : Scanout := ⟨d.next, none⟩

/-- The requests whose framebuffers the display reads, now or from the next flip on. -/
def reads (d : Scanout) : List AtomicRequest := d.shown.toList ++ d.next.toList

/-- The display after a step of the sink that made the commit `committed`: the kernel sends a page-flip event after the
flip. -/
def after (d : Scanout) (e : KmsEvent) (committed : Option KernelCommit) : Scanout :=
  let d := match e with
    | .frame .. => d
    | .flip .. => d.flip
  committed.elim d d.commit

/-- An asynchronous commit of a request replaces the next frame, unless it fails. -/
private theorem elim_commit (d : Scanout) (r : AtomicRequest) (calls : AtomicCalls) :
    (r.commit calls AtomicRequest.FlagAsync).2.elim d d.commit =
      if r.valid_ = true ∧ 0 ≤ calls.commit then { d with next := some r } else d := by
  cases hv : r.valid_ with
  | false => simp [AtomicRequest.commit, hv]
  | true =>
    have hflag : AtomicRequest.drmFlags AtomicRequest.FlagAsync &&& DRM.DRM_MODE_ATOMIC_TEST_ONLY = 0 := by decide
    simp [AtomicRequest.commit, hv, commit, hflag]

end Scanout

namespace KmsState

/-! ### The sink and its display -/

/-- The commit that the sink makes in a step. -/
def committed (s : KmsState) : KmsEvent → Option KernelCommit
  | .frame calls camRequest => (s.sink.processRequest calls camRequest).committed
  | .flip calls addr => (s.sink.requestComplete calls addr).bind (·.committed)

/-- The request shows the framebuffer: its entries stand for changes of which exactly one is to the property `FB_ID`. -/
def Shows (sink : KMSSink) (r : AtomicRequest) (drmBuffer : DRM.FrameBuffer) : Prop :=
  ∃ changes entries, r.request_ = some entries ∧ List.Forall₂ (AtomicRequest.Records sink.dev_) changes entries ∧
    changes.filter (fun c => c.2.1 = "FB_ID") = [(sink.planeObject, "FB_ID", drmBuffer.id_.toUInt64)]

/-- The atomic request of a slot shows the first buffer of its camera request, if libdrm accepts it at all. -/
def Built (sink : KMSSink) (slot : KMSSink.Request) : Prop :=
  slot.drmRequest_.valid_ = true → ∃ drmBuffer, sink.buffers_.lookup slot.camRequest_.firstBuffer = some drmBuffer ∧
    Shows sink slot.drmRequest_ drmBuffer

/-- The frame on the screen is that of `active_`, and the next one that of `queued_` while its page flip is due. -/
structure Scans (s : KmsState) (d : Scanout) : Prop where
  shown : d.shown = s.sink.active_.map (·.drmRequest_)
  next : d.next = if s.flips = [] then none else s.sink.queued_.map (·.drmRequest_)
  valid : ∀ r ∈ d.reads, r.valid_ = true
  built : ∀ slot ∈ s.sink.active_.toList ++ s.sink.queued_.toList ++ s.sink.pending_.toList, Built s.sink slot

private theorem filter_frameChanges (sink : KMSSink) (drmBuffer : DRM.FrameBuffer) :
    (sink.frameChanges drmBuffer).filter (fun c => c.2.1 = "FB_ID") =
      [(sink.planeObject, "FB_ID", drmBuffer.id_.toUInt64)] := by
  unfold KMSSink.frameChanges
  split <;> simp

private theorem built_newRequest {sink : KMSSink} {camRequest : Request} {drmBuffer : DRM.FrameBuffer}
    (h : sink.displays camRequest = some drmBuffer) (calls : AtomicCalls) :
    Built sink (sink.newRequest calls drmBuffer camRequest) := by
  intro hvalid
  obtain ⟨entries, hentries, hrecords⟩ := AtomicRequest.addProperties_records hvalid
  exact ⟨drmBuffer, KMSSink.lookup_of_displays h, _, entries, hentries, hrecords, filter_frameChanges sink drmBuffer⟩

private theorem Initial.scans {s : KmsState} (h : s.Initial) : Scans s ⟨none, none⟩ := by
  obtain ⟨hp, hq, ha, hf, -⟩ := h
  refine ⟨by simp [ha], by simp [hf], by simp [Scanout.reads], by simp [hp, hq, ha]⟩

section Steps

variable {s : KmsState} {d : Scanout} {calls : AtomicCalls} {camRequest : Request} {addr : Nat}

/-- A frame that finds no flip outstanding becomes the next one, if its commit succeeds. -/
private theorem Scans.frame_queued {drmBuffer : DRM.FrameBuffer} (ht : s.Tracks) (h : Scans s d)
    (hd : s.sink.displays camRequest = some drmBuffer) (hq : s.sink.queued_ = none) :
    Scans (s.processRequest calls camRequest).2
      (d.after (.frame calls camRequest) (s.committed (.frame calls camRequest))) := by
  have hflips := ht.flips_eq_nil hq
  have hbuilt : ∀ slot ∈ s.sink.active_.toList ++ [s.sink.newRequest calls drmBuffer camRequest] ++
      s.sink.pending_.toList, Built s.sink slot := by
    intro slot hmem
    rcases List.mem_append.1 hmem with hleft | hright
    · rcases List.mem_append.1 hleft with hactive | hnew
      · exact h.built slot (by simp [hactive])
      · rw [List.mem_singleton.1 hnew]
        exact built_newRequest hd calls
    · exact h.built slot (List.mem_append_right _ hright)
  have hafter : d.after (.frame calls camRequest) (s.committed (.frame calls camRequest)) =
      ((s.sink.newRequest calls drmBuffer camRequest).drmRequest_.commit calls AtomicRequest.FlagAsync).2.elim d
        d.commit := by
    rw [committed, KMSSink.processRequest_queued hd hq]
    rfl
  rw [hafter, Scanout.elim_commit, processRequest_queued hd hq, AtomicRequest.commitFlips_async, hflips]
  split
  · rename_i hok
    refine ⟨h.shown, by simp, ?_, hbuilt⟩
    intro r hr
    rcases List.mem_append.1 hr with hshown | hnext
    · exact h.valid r (List.mem_append_left _ hshown)
    · obtain rfl := Option.some.inj (Option.mem_toList.1 hnext)
      exact hok.1
  · have hnext : d.next = none := by rw [h.next, if_pos hflips]
    exact ⟨h.shown, by simp [hnext], h.valid, hbuilt⟩

private theorem Scans.frame (ht : s.Tracks) (h : Scans s d) :
    Scans (s.processRequest calls camRequest).2
      (d.after (.frame calls camRequest) (s.committed (.frame calls camRequest))) := by
  cases hd : s.sink.displays camRequest with
  | none =>
    have hcommit : s.committed (.frame calls camRequest) = none := by
      rw [committed, KMSSink.processRequest_dropped hd]
    rw [processRequest_dropped hd, hcommit]
    exact h
  | some drmBuffer =>
    cases hq : s.sink.queued_ with
    | none => exact h.frame_queued ht hd hq
    | some queued =>
      have hcommit : s.committed (.frame calls camRequest) = none := by
        rw [committed, KMSSink.processRequest_pending hd hq]
      rw [processRequest_pending hd hq, hcommit]
      refine ⟨h.shown, h.next, h.valid, ?_⟩
      intro slot hmem
      rcases List.mem_append.1 hmem with hold | hnew
      · exact h.built slot (List.mem_append_left _ hold)
      · obtain rfl := Option.some.inj (Option.mem_toList.1 hnew)
        exact built_newRequest hd calls

/-- The next frame is the one on the screen after the flip, and the pending one is the next, if its commit succeeds. -/
private theorem Scans.flip (ht : s.Tracks) (h : Scans s d) (hm : addr ∈ s.flips) :
    Scans (s.pageFlipComplete calls addr).2 (d.after (.flip calls addr) (s.committed (.flip calls addr))) := by
  obtain ⟨queued, hq, rfl, hflip⟩ := pageFlipComplete_eq calls ht hm
  have hnext : d.next = some queued.drmRequest_ := by
    rw [h.next, if_neg (List.ne_nil_of_mem hm), hq]
    rfl
  have hvalid : queued.drmRequest_.valid_ = true :=
    h.valid _ (List.mem_append_right _ (by simp [hnext]))
  have hbuilt : ∀ slot ∈ [queued] ++ s.sink.pending_.toList ++ [], Built s.sink slot := by
    intro slot hmem
    refine h.built slot ?_
    rw [hq]
    simp only [List.append_nil, List.mem_append] at hmem
    rcases hmem with hmem | hmem
    · exact List.mem_append_left _ (List.mem_append_right _ hmem)
    · exact List.mem_append_right _ hmem
  have hafter : d.after (.flip calls queued.drmRequest_.addr) (s.committed (.flip calls queued.drmRequest_.addr)) =
      s.sink.pending_.elim d.flip fun p =>
        (p.drmRequest_.commit calls AtomicRequest.FlagAsync).2.elim d.flip d.flip.commit := by
    rw [committed, KMSSink.requestComplete_eq hq]
    cases s.sink.pending_ <;> rfl
  rw [hafter, hflip]
  cases hp : s.sink.pending_ with
  | none =>
    rw [hp] at hbuilt
    refine ⟨hnext, rfl, ?_, hbuilt⟩
    intro r hr
    simp only [Option.elim_none, Scanout.reads, Scanout.flip, hnext, Option.toList_some, Option.toList_none,
      List.append_nil, List.mem_singleton] at hr
    rw [hr]
    exact hvalid
  | some p =>
    rw [hp] at hbuilt
    simp only [Option.elim_some, Scanout.elim_commit, AtomicRequest.commitFlips_async]
    split
    · rename_i hok
      refine ⟨hnext, by simp, ?_, hbuilt⟩
      intro r hr
      simp only [Scanout.reads, Scanout.flip, hnext, Option.toList_some, List.cons_append, List.nil_append,
        List.mem_cons, List.not_mem_nil, or_false] at hr
      rcases hr with rfl | rfl
      · exact hvalid
      · exact hok.1
    · refine ⟨hnext, by simp [Scanout.flip], ?_, hbuilt⟩
      intro r hr
      simp only [Scanout.reads, Scanout.flip, hnext, Option.toList_some, Option.toList_none, List.append_nil,
        List.mem_singleton] at hr
      rw [hr]
      exact hvalid

private theorem Scans.step {s' : KmsState} {e : KmsEvent} (ht : s.Tracks) (h : Scans s d) (hs : s.step e = some s') :
    Scans s' (d.after e (s.committed e)) := by
  rcases step_eq_some hs with ⟨calls, camRequest, rfl, rfl⟩ | ⟨calls, addr, rfl, hm, rfl⟩
  · exact h.frame ht
  · exact h.flip ht hm

/-- The sink never commits a frame while the kernel has one that it has not flipped to. -/
private theorem Scans.next_of_committed (ht : s.Tracks) (h : Scans s d) {c : KernelCommit}
    (hc : s.committed (.frame calls camRequest) = some c) : d.next = none := by
  cases hd : s.sink.displays camRequest with
  | none =>
    rw [committed, KMSSink.processRequest_dropped hd] at hc
    cases hc
  | some drmBuffer =>
    cases hq : s.sink.queued_ with
    | none => rw [h.next, if_pos (ht.flips_eq_nil hq)]
    | some queued =>
      rw [committed, KMSSink.processRequest_pending hd hq] at hc
      cases hc

/-- What the display reads is shown for a frame in a slot of the sink. -/
private theorem Scans.exists_slot (h : Scans s d) {r : AtomicRequest} (hr : r ∈ d.reads) :
    ∃ camRequest ∈ s.sink.slots, ∃ drmBuffer, s.sink.buffers_.lookup camRequest.firstBuffer = some drmBuffer ∧
      Shows s.sink r drmBuffer := by
  have hslot : ∃ slot ∈ s.sink.active_.toList ++ s.sink.queued_.toList ++ s.sink.pending_.toList,
      slot.drmRequest_ = r := by
    rcases List.mem_append.1 hr with hshown | hnext
    · rw [h.shown, Option.mem_toList, Option.map_eq_some_iff] at hshown
      obtain ⟨slot, hslot, heq⟩ := hshown
      exact ⟨slot, by simp [hslot], heq⟩
    · rw [h.next, Option.mem_toList] at hnext
      split at hnext
      · cases hnext
      · obtain ⟨slot, hslot, heq⟩ := Option.map_eq_some_iff.1 hnext
        exact ⟨slot, by simp [hslot], heq⟩
  obtain ⟨slot, hmem, rfl⟩ := hslot
  obtain ⟨drmBuffer, hlookup, hshows⟩ := h.built slot hmem (h.valid _ hr)
  exact ⟨slot.camRequest_, List.mem_map_of_mem hmem, drmBuffer, hlookup, hshows⟩

end Steps

end KmsState

namespace Session

/-- The step that a step of the session is for its sink, if it is one. -/
def kmsEvent (s : Session) : SessionEvent → Option KmsEvent
  | .dispatch _ calls => s.calls.loop.calls_.head?.map (.frame calls)
  | .flip calls addr => some (.flip calls addr)
  | .start | .complete .. | .once .. => none

/-- No buffer belongs to two requests. -/
def DisjointBuffers (s : Session) : Prop :=
  s.requests_.Pairwise fun request request' => ∀ p ∈ request.buffers, ∀ p' ∈ request'.buffers, p.2 ≠ p'.2

private theorem kmsEvent_step {s s' : Session} {e : SessionEvent} (hb : s.calls.Balanced) (h : s.step e = some s') :
    (s.kmsEvent e).elim (s'.kms = s.kms) fun k => s.kms.step k = some s'.kms := by
  have halive := (act_of_step h).1
  cases e with
  | start =>
    obtain ⟨_, _, -, rfl⟩ := step_start h
    rfl
  | complete thread request status =>
    cases status with
    | RequestComplete =>
      obtain ⟨-, _, -, rfl⟩ := step_complete rfl h
      rfl
    | RequestCancelled =>
      obtain ⟨-, rfl⟩ := step_cancelled h
      rfl
  | once thread ok =>
    obtain ⟨_, -, rfl⟩ := step_once h
    rfl
  | dispatch timestamp calls =>
    obtain ⟨-, request, rest, fired, -, hcalls, -, rfl⟩ := step_dispatch hb h
    rw [kms_processRequest]
    simp [kmsEvent, hcalls, KmsState.step, halive]
  | flip calls addr =>
    obtain ⟨-, hm, rfl⟩ := step_flip h
    obtain ⟨count, heq⟩ := flip_eq s calls addr
    rw [heq]
    simp [kmsEvent, KmsState.step, halive, hm]

private theorem Remaining.mem_requests {s : Session} (h : s.Remaining) {r : Request}
    (hr : r ∈ s.camera.queued ++ s.calls.loop.calls_ ++ s.kms.sink.slots) : r ∈ s.requests_ := by
  obtain ⟨requests, hsub, ha⟩ := h
  have hcount := ha.conserved r
  have hpos := List.count_pos_iff.2 hr
  simp only [having] at hcount
  rw [List.count_append, List.count_append] at hpos
  exact hsub.mem (List.count_pos_iff.1 (by omega))

/-- A request in a slot is not in the camera, and not deferred either. -/
private theorem Remaining.ne_of_slot {s : Session} (h : s.Remaining) {r other : Request} (hr : r ∈ s.kms.sink.slots)
    (hother : other ∈ s.camera.queued ++ s.calls.loop.calls_) : r ≠ other := by
  rintro rfl
  obtain ⟨requests, -, ha⟩ := h
  have hcount := ha.conserved r
  have hle := ha.count_le_one r
  have hslot := List.count_pos_iff.2 hr
  have hpos := List.count_pos_iff.2 hother
  simp only [having] at hcount hle
  rw [List.count_append] at hpos
  omega

/-- The buffers of different requests are different. -/
private theorem DisjointBuffers.ne {s : Session} (h : s.DisjointBuffers) {r other : Request} (hr : r ∈ s.requests_)
    (hother : other ∈ s.requests_) (hne : r ≠ other) : ∀ p ∈ r.buffers, ∀ p' ∈ other.buffers, p.2 ≠ p'.2 := by
  have hsymm : Std.Symm fun a b : Request => ∀ p ∈ a.buffers, ∀ p' ∈ b.buffers, p.2 ≠ p'.2 :=
    ⟨fun a b hab p hp p' hp' => (hab p' hp' p hp).symm⟩
  exact List.Pairwise.forall h hr hother hne

end Session

/-! ### A session and its display -/

structure Viewfinder where
  session : Session
  scanout : Scanout

namespace Viewfinder

/-- A step of the session, which is seen by the display if the sink commits or completes a frame in it. -/
def step (v : Viewfinder) (e : SessionEvent) : Option Viewfinder :=
  (v.session.step e).map fun session =>
    ⟨session, (v.session.kmsEvent e).elim v.scanout fun k => v.scanout.after k (v.session.kms.committed k)⟩

/-- In the beginning the display shows nothing of the session. -/
def machine : Machine Viewfinder SessionEvent where
  init v := v.session.Initial ∧ v.scanout = ⟨none, none⟩
  step := step

private theorem scans_of_reachable {v : Viewfinder} (h : machine.Reachable v) :
    v.session.Remaining ∧ KmsState.Scans v.session.kms v.scanout := by
  refine Machine.ReachableVia.invariant (M := machine)
    (P := fun v => v.session.Remaining ∧ KmsState.Scans v.session.kms v.scanout) ?_ ?_ h
  · rintro ⟨s, d⟩ ⟨hs, rfl⟩
    exact ⟨hs.remaining, KmsState.Initial.scans hs.2.2.2.2.1⟩
  · rintro ⟨s, d⟩ e v' ⟨hr, hscans⟩ - hstep
    obtain ⟨s', hs', rfl⟩ := Option.map_eq_some_iff.1 hstep
    have hkms := Session.kmsEvent_step hr.balanced hs'
    refine ⟨hr.step hs', ?_⟩
    show KmsState.Scans s'.kms ((s.kmsEvent e).elim d fun k => d.after k (s.kms.committed k))
    cases hk : s.kmsEvent e with
    | none =>
      rw [hk] at hkms
      rw [Option.elim_none] at hkms ⊢
      rw [hkms]
      exact hscans
    | some k =>
      rw [hk] at hkms
      exact hscans.step hr.tracks hkms

/-- The camera never writes a buffer that the display reads, whatever the interleaving and the outcome of the commits,
and also after the camera has cancelled requests: what is on the screen, and what the kernel flips to next, shows the
framebuffer of a frame that a slot of the sink keeps, and no buffer of that frame belongs to a request that is in the
camera or deferred.  The sink also commits no frame from `processRequest` while the kernel has one that it has not
flipped to. -/
theorem screen_is_not_written {v : Viewfinder} (h : machine.Reachable v)
    (hbuffers : v.session.DisjointBuffers) :
    (∀ r ∈ v.scanout.reads, ∃ camRequest ∈ v.session.kms.sink.slots,
      (∃ drmBuffer, v.session.kms.sink.buffers_.lookup camRequest.firstBuffer = some drmBuffer ∧
        KmsState.Shows v.session.kms.sink r drmBuffer) ∧
      ∀ other ∈ v.session.camera.queued ++ v.session.calls.loop.calls_,
        ∀ p ∈ camRequest.buffers, ∀ p' ∈ other.buffers, p.2 ≠ p'.2) ∧
    ∀ calls camRequest c, v.session.kms.committed (.frame calls camRequest) = some c → v.scanout.next = none := by
  obtain ⟨hremaining, hscans⟩ := scans_of_reachable h
  refine ⟨?_, fun calls camRequest c hc => hscans.next_of_committed hremaining.tracks hc⟩
  intro r hr
  obtain ⟨camRequest, hslot, hshows⟩ := hscans.exists_slot hr
  refine ⟨camRequest, hslot, hshows, ?_⟩
  intro other hother
  have hmem := hremaining.mem_requests (List.mem_append_right _ hslot)
  have hmem' := hremaining.mem_requests (List.mem_append_left _ hother)
  exact hbuffers.ne hmem hmem' (hremaining.ne_of_slot hslot hother)

/-- A session with two requests, each with a buffer of its own that the sink has a framebuffer for. -/
def twoBuffers : Session :=
  { Session.twoRequests with
    requests_ := [⟨50, [(0, 7)], by decide⟩, ⟨60, [(0, 8)], by decide⟩]
    starting := [⟨50, [(0, 7)], by decide⟩, ⟨60, [(0, 8)], by decide⟩]
    kms := { KmsState.oneDisplay with
      sink := { KmsState.oneDisplay.sink with buffers_ := [(7, ⟨30, ∅⟩), (8, ⟨31, ∅⟩)] } } }

/-- Its first frame is shown and its second one is committed. -/
def bothCaptured : List SessionEvent :=
  [.start, .start, .complete 0 ⟨50, [(0, 7)], by decide⟩ .RequestComplete, .once 0 true,
    .dispatch 1000 (KmsState.committing 100 0), .flip (KmsState.committing 0 0) 100,
    .complete 0 ⟨60, [(0, 8)], by decide⟩ .RequestComplete, .once 0 true,
    .dispatch 2000 (KmsState.committing 200 0)]

theorem screen_is_not_written_two :
    ∃ v, machine.replay ⟨twoBuffers, ⟨none, none⟩⟩ bothCaptured = some v ∧ v.scanout.reads.length = 2 ∧
      ∀ r ∈ v.scanout.reads, ∃ camRequest ∈ v.session.kms.sink.slots,
        ∀ other ∈ v.session.camera.queued ++ v.session.calls.loop.calls_,
          ∀ p ∈ camRequest.buffers, ∀ p' ∈ other.buffers, p.2 ≠ p'.2 := by
  have hreads : (machine.replay ⟨twoBuffers, ⟨none, none⟩⟩ bothCaptured).map (·.scanout.reads.length) = some 2 := rfl
  have hsame : (machine.replay ⟨twoBuffers, ⟨none, none⟩⟩ bothCaptured).map (·.session.requests_) =
      some twoBuffers.requests_ := rfl
  obtain ⟨v, hv, hlen⟩ := Option.map_eq_some_iff.1 hreads
  have hrequests : v.session.requests_ = twoBuffers.requests_ := by
    rw [hv] at hsame
    exact Option.some.inj hsame
  have hinit : machine.init ⟨twoBuffers, ⟨none, none⟩⟩ :=
    ⟨⟨by decide, rfl, rfl, ⟨rfl, rfl, rfl, rfl, rfl, rfl⟩, ⟨rfl, rfl, rfl, rfl, rfl, rfl, rfl⟩, rfl⟩, rfl⟩
  have hreach := Machine.reachable_of_replay hinit hv
  have hbuffers : v.session.DisjointBuffers := by
    rw [Session.DisjointBuffers, hrequests]
    decide
  refine ⟨v, hv, hlen, fun r hr => ?_⟩
  obtain ⟨camRequest, hslot, -, hother⟩ := (screen_is_not_written hreach hbuffers).1 r hr
  exact ⟨camRequest, hslot, hother⟩

end Viewfinder

/-- The requests of `startCapture` have no buffer in common. -/
theorem StartCapture.Captured.disjointBuffers {answers : CaptureAnswers}
    {config : List Libcamera.StreamConfiguration} {c : CaptureState} (h : Captured answers config c) {s : Session}
    (hrequests : s.requests_.map (fun r => CaptureRequest.mk r.addr r.buffers) = c.requests_) : s.DisjointBuffers := by
  have hdisjoint := h.disjoint
  rw [← hrequests, List.pairwise_map] at hdisjoint
  exact hdisjoint

end Twincam
