import Twincam.CaptureDrain

/-!
# The history of a session

Where every frame that the camera ever completed has gone, and what the counters of the session say about it.

* `History`: the event loop runs the completed frames in the order of their completion; each of them is accepted by the
  sink or handed back to the camera, and the sink emits the accepted ones in order.
* `frames_in_order` and `counters_eq` read the result off it for a whole run.
-/

namespace Twincam

open DRM (AtomicCalls)
open Libcamera (Request RequestStatus)

namespace Session

/-- What happened so far, in a session whose counters started at `queueCount` and `captureCount`: `started` are the
requests that `startCapture` has queued, `ran` the frames that `processRequest` ran on, and `dropped` those of them
that the sink handed back. -/
structure History (queueCount captureCount : UInt32) (started ran dropped : List Request) (s : Session) : Prop where
  requests : s.requests_ = started ++ s.starting
  invoked : s.calls.invoked = ran.map some
  pushed : s.calls.pushed = ran ++ s.calls.loop.calls_
  accepted_ran : s.kms.accepted.Sublist ran
  dropped_ran : dropped.Sublist ran
  split : ran.Perm (s.kms.accepted ++ dropped)
  emitted : s.kms.accepted = s.kms.emitted ++ s.kms.sink.slots
  log : s.camera.log.Perm (started ++ s.kms.emitted ++ dropped)
  queued : s.queueCount_ = queueCount + UInt32.ofNat (started.length + s.kms.emitted.length)
  captured : s.captureCount_ = captureCount + UInt32.ofNat ran.length

private theorem Initial.history {s : Session} (h : s.Initial) : History s.queueCount_ s.captureCount_ [] [] [] s := by
  obtain ⟨-, hstart, hcam, ⟨hcalls, -, -, -, hpushed, hinvoked⟩, ⟨hp, hq, ha, -, hacc, hemit, -⟩, -⟩ := h
  refine ⟨by simp [hstart], by simp [hinvoked], by simp [hpushed, hcalls], by simp [hacc], by simp, by simp [hacc],
    by simp [hacc, hemit, KMSSink.slots, hp, hq, ha], by simp [hcam, hemit], by simp [hemit], by simp⟩

section Steps

variable {queueCount captureCount : UInt32} {started ran dropped : List Request} {s s' : Session}

private theorem ofNat_succ (n : Nat) : UInt32.ofNat (n + 1) = UInt32.ofNat n + 1 := by
  rw [UInt32.ofNat_add]
  rfl

private theorem History.start (h : History queueCount captureCount started ran dropped s)
    (hs : s.step .start = some s') :
    ∃ request, History queueCount captureCount (started ++ [request]) ran dropped s' := by
  obtain ⟨request, rest, hstart, rfl⟩ := step_start hs
  refine ⟨request, ?_, h.invoked, h.pushed, h.accepted_ran, h.dropped_ran, h.split, h.emitted, ?_, ?_, h.captured⟩
  · show s.requests_ = _
    rw [h.requests, hstart]
    simp [queueRequest]
  · show (s.camera.log ++ [request]).Perm (started ++ [request] ++ s.kms.emitted ++ dropped)
    refine (h.log.append_right [request]).trans ?_
    rw [List.perm_iff_count]
    intro r
    simp only [List.count_append]
    omega
  · show s.queueCount_ + 1 = queueCount + UInt32.ofNat ((started ++ [request]).length + s.kms.emitted.length)
    have hlen : (started ++ [request]).length + s.kms.emitted.length = started.length + s.kms.emitted.length + 1 := by
      rw [List.length_append, List.length_singleton]
      omega
    rw [h.queued, hlen, ofNat_succ, UInt32.add_assoc]

private theorem History.complete {thread : Nat} {request : Request} {status : RequestStatus}
    (h : History queueCount captureCount started ran dropped s)
    (hs : s.step (.complete thread request status) = some s') :
    History queueCount captureCount started ran dropped s' := by
  cases status with
  | RequestComplete =>
    obtain ⟨-, calls, hpush, rfl⟩ := step_complete rfl hs
    obtain ⟨-, rfl⟩ := CallState.push_eq_some hpush
    refine ⟨h.requests, h.invoked, ?_, h.accepted_ran, h.dropped_ran, h.split, h.emitted, h.log, h.queued, h.captured⟩
    show s.calls.pushed ++ [request] = ran ++ (s.calls.loop.calls_ ++ [request])
    rw [h.pushed, List.append_assoc]
  | RequestCancelled =>
    obtain ⟨-, rfl⟩ := step_cancelled hs
    exact ⟨h.requests, h.invoked, h.pushed, h.accepted_ran, h.dropped_ran, h.split, h.emitted, h.log, h.queued,
      h.captured⟩

private theorem History.once {thread : Nat} {ok : Bool} (h : History queueCount captureCount started ran dropped s)
    (hs : s.step (.once thread ok) = some s') : History queueCount captureCount started ran dropped s' := by
  obtain ⟨calls, honce, rfl⟩ := step_once hs
  obtain ⟨-, rfl⟩ := CallState.once_eq_some honce
  exact ⟨h.requests, h.invoked, h.pushed, h.accepted_ran, h.dropped_ran, h.split, h.emitted, h.log, h.queued,
    h.captured⟩

/-- A dispatched frame is dropped, and back in the camera, or accepted, and the newest one in the slots. -/
private theorem History.dispatch {timestamp : UInt64} {calls : AtomicCalls} (hb : s.calls.Balanced)
    (h : History queueCount captureCount started ran dropped s) (hs : s.step (.dispatch timestamp calls) = some s') :
    ∃ request now, History queueCount captureCount started (ran ++ [request]) (dropped ++ now) s' := by
  obtain ⟨-, request, rest, fired, hfire, hcalls, hrest, rfl⟩ := step_dispatch hb hs
  obtain ⟨-, -, hpushed, hinvoked⟩ := fire_frame hb hfire
  have hran : fired.invoked = (ran ++ [request]).map some := by rw [hinvoked, h.invoked, List.map_append]; rfl
  have hpush : fired.pushed = ran ++ [request] ++ fired.loop.calls_ := by
    rw [hpushed, h.pushed, hcalls, hrest, List.append_assoc]
    rfl
  have hcapture : s.captureCount_ + 1 = captureCount + UInt32.ofNat (ran ++ [request]).length := by
    rw [h.captured, List.length_append, List.length_singleton, ofNat_succ, UInt32.add_assoc]
  cases hd : s.kms.sink.displays request with
  | none =>
    refine ⟨request, [request], ?_⟩
    rw [processRequest_dropped (s := { s with calls := fired }) hd]
    refine ⟨h.requests, hran, hpush, h.accepted_ran.trans (List.sublist_append_left _ _),
      h.dropped_ran.append_right _, ?_, h.emitted, ?_, h.queued, hcapture⟩
    · show (ran ++ [request]).Perm (s.kms.accepted ++ (dropped ++ [request]))
      rw [← List.append_assoc]
      exact h.split.append_right _
    · show (s.camera.log ++ [request]).Perm (started ++ s.kms.emitted ++ (dropped ++ [request]))
      rw [← List.append_assoc]
      exact h.log.append_right _
  | some drmBuffer =>
    obtain ⟨kms, heq, hacc, hemit, hslots⟩ := KmsState.processRequest_accepted calls hd
    refine ⟨request, [], ?_⟩
    rw [processRequest_accepted (s := { s with calls := fired }) hd]
    simp only [heq, List.append_nil]
    refine ⟨h.requests, hran, hpush, ?_, h.dropped_ran.trans (List.sublist_append_left _ _), ?_, ?_, ?_, ?_, hcapture⟩
    · show kms.accepted.Sublist (ran ++ [request])
      rw [hacc]
      exact h.accepted_ran.append_right _
    · show (ran ++ [request]).Perm (kms.accepted ++ dropped)
      refine (h.split.append_right _).trans ?_
      rw [hacc, List.perm_iff_count]
      intro r
      simp only [List.count_append]
      omega
    · show kms.accepted = kms.emitted ++ kms.sink.slots
      rw [hacc, hemit, hslots, h.emitted, List.append_assoc]
    · show s.camera.log.Perm (started ++ kms.emitted ++ dropped)
      rw [hemit]
      exact h.log
    · show s.queueCount_ = queueCount + UInt32.ofNat (started.length + kms.emitted.length)
      rw [hemit]
      exact h.queued

private theorem queueCount_foldl_sinkRelease (emitted : List Request) (s : Session) :
    (emitted.foldl sinkRelease s).queueCount_ = s.queueCount_ + UInt32.ofNat emitted.length := by
  induction emitted generalizing s with
  | nil => simp
  | cons request emitted ih =>
    rw [List.foldl_cons, ih, List.length_cons, ofNat_succ, UInt32.add_comm (UInt32.ofNat _), ← UInt32.add_assoc]
    rfl

/-- A page flip takes the frame on the screen, if there was one, from the slots to the camera. -/
private theorem History.flip {calls : AtomicCalls} {addr : Nat} (ht : s.kms.Tracks)
    (h : History queueCount captureCount started ran dropped s) (hs : s.step (.flip calls addr) = some s') :
    History queueCount captureCount started ran dropped s' := by
  obtain ⟨-, hm, rfl⟩ := step_flip hs
  have hslots := KmsState.slots_pageFlipComplete calls ht hm
  obtain ⟨queued, -, -, hflip⟩ := KmsState.pageFlipComplete_eq calls ht hm
  have hacc : (s.kms.pageFlipComplete calls addr).2.accepted = s.kms.accepted := by rw [hflip]
  have hemit : (s.kms.pageFlipComplete calls addr).2.emitted =
      s.kms.emitted ++ (s.kms.pageFlipComplete calls addr).1 := by rw [hflip]
  have hcount : (s.flip calls addr).queueCount_ =
      s.queueCount_ + UInt32.ofNat (s.kms.pageFlipComplete calls addr).1.length :=
    queueCount_foldl_sinkRelease _ _
  obtain ⟨count, heq⟩ := flip_eq s calls addr
  rw [heq] at hcount ⊢
  refine ⟨h.requests, h.invoked, h.pushed, ?_, h.dropped_ran, ?_, ?_, ?_, ?_, h.captured⟩
  · show (s.kms.pageFlipComplete calls addr).2.accepted.Sublist ran
    rw [hacc]
    exact h.accepted_ran
  · show ran.Perm ((s.kms.pageFlipComplete calls addr).2.accepted ++ dropped)
    rw [hacc]
    exact h.split
  · show (s.kms.pageFlipComplete calls addr).2.accepted = (s.kms.pageFlipComplete calls addr).2.emitted ++ _
    rw [hacc, hemit, h.emitted, hslots, List.append_assoc]
  · show (s.camera.log ++ (s.kms.pageFlipComplete calls addr).1).Perm
      (started ++ (s.kms.pageFlipComplete calls addr).2.emitted ++ dropped)
    rw [hemit]
    refine (h.log.append_right _).trans ?_
    rw [List.perm_iff_count]
    intro r
    simp only [List.count_append]
    omega
  · show count = queueCount + UInt32.ofNat (started.length + (s.kms.pageFlipComplete calls addr).2.emitted.length)
    rw [hemit, List.length_append, ← Nat.add_assoc, UInt32.ofNat_add, ← UInt32.add_assoc, ← h.queued]
    exact hcount

/-- Every step adds to the history, and takes nothing back. -/
private theorem History.step {e : SessionEvent} (hr : s.Remaining)
    (h : History queueCount captureCount started ran dropped s) (hs : s.step e = some s') :
    ∃ started ran dropped, History queueCount captureCount started ran dropped s' := by
  cases e with
  | start =>
    obtain ⟨request, h'⟩ := h.start hs
    exact ⟨_, _, _, h'⟩
  | complete thread request status => exact ⟨_, _, _, h.complete hs⟩
  | once thread ok => exact ⟨_, _, _, h.once hs⟩
  | dispatch timestamp calls =>
    obtain ⟨request, now, h'⟩ := h.dispatch hr.balanced hs
    exact ⟨_, _, _, h'⟩
  | flip calls addr => exact ⟨_, _, _, h.flip hr.tracks hs⟩

end Steps

private theorem history_of_run {s t : Session} {es : List SessionEvent} (hs : s.Initial) (hr : machine.Run s es t) :
    ∃ started ran dropped, History s.queueCount_ s.captureCount_ started ran dropped t := by
  have hboth := hr.invariant (P := fun u => u.Remaining ∧
    ∃ started ran dropped, History s.queueCount_ s.captureCount_ started ran dropped u) ?_ ?_
  · exact hboth.2
  · rintro u e u' ⟨hremaining, started, ran, dropped, h⟩ hstep
    exact ⟨hremaining.step hstep, h.step hremaining hstep⟩
  · exact ⟨hs.remaining, [], [], [], hs.history⟩

/-- Frames keep their order from the camera to the display: in every run, the frames that `processRequest` has run on
are the first ones that the camera completed and did not cancel; the sink has accepted some of them, in that order, and
has emitted the first of these; and every frame that it ran on and that is not in a slot is back in the hands of
`queueRequest`, once: after the requests that `startCapture` queued, the camera was given exactly the emitted and the
dropped ones. -/
theorem frames_in_order {s t : Session} {es : List SessionEvent} (hs : s.Initial) (hr : machine.Run s es t) :
    ∃ started ran dropped, t.requests_ = started ++ t.starting ∧ t.calls.invoked = ran.map some ∧
      t.calls.pushed = ran ++ t.calls.loop.calls_ ∧
      (t.kms.emitted ++ t.kms.sink.slots).Sublist ran ∧ dropped.Sublist ran ∧
      ran.Perm (t.kms.emitted ++ t.kms.sink.slots ++ dropped) ∧
      t.camera.log.Perm (started ++ t.kms.emitted ++ dropped) := by
  obtain ⟨started, ran, dropped, h⟩ := history_of_run hs hr
  refine ⟨started, ran, dropped, h.requests, h.invoked, h.pushed, ?_, h.dropped_ran, ?_, h.log⟩
  · rw [← h.emitted]
    exact h.accepted_ran
  · rw [← h.emitted]
    exact h.split

/-- Three frames, of which the first is committed, the second waits for it and the third is handed back, and a request
that is cancelled. -/
def firstDropped : List SessionEvent :=
  [.start, .start, .start, .start] ++ capture 50 0 ++ [.complete 1 (KmsState.oneBuffer 80) .RequestCancelled] ++
    capture 60 0 ++ capture 70 0

theorem frames_in_order_three :
    ∃ t, machine.replay (startingWith [50, 60, 70, 80]) firstDropped = some t ∧
      ∃ ran, t.calls.invoked = ran.map some ∧ ran.length = 3 ∧ (t.kms.emitted ++ t.kms.sink.slots).Sublist ran := by
  have hinit : (startingWith [50, 60, 70, 80]).Initial := initial_startingWith (by decide)
  have hthree : (machine.replay (startingWith [50, 60, 70, 80]) firstDropped).map (·.calls.invoked.length) = some 3 :=
    rfl
  obtain ⟨t, ht, hlength⟩ := Option.map_eq_some_iff.1 hthree
  obtain ⟨-, ran, -, -, hinvoked, -, hsub, -⟩ := frames_in_order hinit (Machine.run_of_replay ht)
  refine ⟨t, ht, ran, hinvoked, ?_, hsub⟩
  rw [← hlength, hinvoked, List.length_map]

/-- The counters of a run, modulo `2 ^ 32`: `captureCount_` counts the frames that the loop ran `processRequest` on, and
`queueCount_` the calls of `camera_->queueRequest` but those of `processRequest`, which bypasses
`CameraSession::queueRequest`: it lags behind by the frames that the sink handed back. -/
theorem counters_eq {s t : Session} {es : List SessionEvent} (hs : s.Initial) (hr : machine.Run s es t) :
    t.captureCount_ = s.captureCount_ + UInt32.ofNat t.calls.invoked.length ∧
    t.queueCount_ + UInt32.ofNat (t.calls.invoked.length - t.kms.accepted.length) =
      s.queueCount_ + UInt32.ofNat t.camera.log.length := by
  obtain ⟨started, ran, dropped, h⟩ := history_of_run hs hr
  have hran : t.calls.invoked.length = ran.length := by rw [h.invoked, List.length_map]
  have hsplit := h.split.length_eq
  have hlog := h.log.length_eq
  rw [List.length_append] at hsplit
  rw [List.length_append, List.length_append] at hlog
  have hdropped : ran.length - t.kms.accepted.length = dropped.length := by omega
  refine ⟨by rw [hran]; exact h.captured, ?_⟩
  rw [hran, hdropped, h.queued, hlog, UInt32.add_assoc, ← UInt32.ofNat_add]

theorem counters_eq_three :
    ∃ t, machine.replay (startingWith [50, 60, 70, 80]) firstDropped = some t ∧ t.calls.invoked.length = 3 ∧
      t.kms.accepted.length = 2 ∧
        t.queueCount_ + UInt32.ofNat (3 - 2) =
          (startingWith [50, 60, 70, 80]).queueCount_ + UInt32.ofNat t.camera.log.length := by
  have hinit : (startingWith [50, 60, 70, 80]).Initial := initial_startingWith (by decide)
  have hcounts : (machine.replay (startingWith [50, 60, 70, 80]) firstDropped).map
      (fun t => (t.calls.invoked.length, t.kms.accepted.length)) = some (3, 2) := rfl
  obtain ⟨t, ht, hboth⟩ := Option.map_eq_some_iff.1 hcounts
  obtain ⟨hinvoked, haccepted⟩ := Prod.mk.inj hboth
  have hlags := (counters_eq hinit (Machine.run_of_replay ht)).2
  rw [hinvoked, haccepted] at hlags
  exact ⟨t, ht, hinvoked, haccepted, hlags⟩

end Session

end Twincam
