import Twincam.CameraSession
import Mathlib.Data.List.Nodup

/-!
# The capture and display cycle

What holds in every reachable state of a session.  The event loop and the sink inside it take steps of their own
machines (`calls_step`, `kms_step`), so all that is known about them alone holds here; `Conserved` says where the
requests are, and every step keeps it.  `Remaining` says the same of the requests that were not cancelled.
-/

namespace Twincam

open DRM (AtomicCalls)
open Libcamera (Request RequestStatus)

namespace Session

/-! ### The components take steps of their own machines -/

section Components

variable {s s' : Session} {e : SessionEvent}

theorem calls_processRequest (s : Session) (timestamp : UInt64) (calls : AtomicCalls) (request : Request) :
    (s.processRequest timestamp calls request).calls = s.calls := by
  cases hd : s.kms.sink.displays request with
  | none => rw [processRequest_dropped hd]
  | some drmBuffer => rw [processRequest_accepted hd]

theorem kms_processRequest (s : Session) (timestamp : UInt64) (calls : AtomicCalls) (request : Request) :
    (s.processRequest timestamp calls request).kms = (s.kms.processRequest calls request).2 := by
  cases hd : s.kms.sink.displays request with
  | none => rw [processRequest_dropped hd, KmsState.processRequest_dropped hd]
  | some drmBuffer => rw [processRequest_accepted hd]

/-- A step of the session is a step of the event loop, or does not touch it. -/
theorem calls_step (hb : s.calls.Balanced) (hu : s.Uncancelled e) (h : s.step e = some s') :
    s'.calls = s.calls ∨ ∃ e', (CallState.machine Request Nat).step s.calls e' = some s'.calls := by
  cases e with
  | start =>
    obtain ⟨request, rest, -, rfl⟩ := step_start h
    exact Or.inl rfl
  | complete thread request status =>
    obtain ⟨-, calls, hpush, rfl⟩ := step_complete hu h
    exact Or.inr ⟨.push thread request, hpush⟩
  | once thread ok =>
    obtain ⟨calls, honce, rfl⟩ := step_once h
    exact Or.inr ⟨.once thread ok, honce⟩
  | dispatch timestamp calls =>
    obtain ⟨-, request, rest, fired, hfire, -, -, rfl⟩ := step_dispatch hb h
    rw [calls_processRequest]
    exact Or.inr ⟨.fire, by simp [CallState.machine, hfire]⟩
  | flip calls addr =>
    obtain ⟨-, -, rfl⟩ := step_flip h
    obtain ⟨count, heq⟩ := flip_eq s calls addr
    rw [heq]
    exact Or.inl rfl

/-- A step of the session is a step of the sink, or does not touch it; a successful one commits successfully. -/
theorem kms_step (hb : s.calls.Balanced) (hu : s.Uncancelled e) (h : s.step e = some s') :
    s'.kms = s.kms ∨ ∃ e', KmsState.machine.step s.kms e' = some s'.kms ∧
      (s.Succeeds e → s.kms.CommitSucceeds e') := by
  have halive := (act_of_step h).1
  cases e with
  | start =>
    obtain ⟨request, rest, -, rfl⟩ := step_start h
    exact Or.inl rfl
  | complete thread request status =>
    obtain ⟨-, calls, -, rfl⟩ := step_complete hu h
    exact Or.inl rfl
  | once thread ok =>
    obtain ⟨calls, -, rfl⟩ := step_once h
    exact Or.inl rfl
  | dispatch timestamp calls =>
    obtain ⟨-, request, rest, fired, hfire, -, -, rfl⟩ := step_dispatch hb h
    refine Or.inr ⟨.frame calls request, ?_, fun hg => hg request fired hfire⟩
    rw [kms_processRequest]
    simp [KmsState.machine, KmsState.step, halive]
  | flip calls addr =>
    obtain ⟨-, hm, rfl⟩ := step_flip h
    obtain ⟨count, heq⟩ := flip_eq s calls addr
    refine Or.inr ⟨.flip calls addr, ?_, id⟩
    rw [heq]
    simp [KmsState.machine, KmsState.step, halive, hm]

end Components

/-! ### Conservation of requests -/

/-- Every request of the session is still to be queued, in the camera, deferred, or in a slot of the sink, as many
times as it was created. -/
def Conserved (s : Session) : Prop :=
  ∀ r, s.starting.count r + s.camera.queued.count r + s.calls.loop.calls_.count r + s.kms.sink.slots.count r =
    s.requests_.count r

/-- What holds in every reachable state. -/
structure Accounted (s : Session) : Prop where
  nodup : s.requests_.Nodup
  calls : (CallState.machine Request Nat).Reachable s.calls
  kms : KmsState.machine.Reachable s.kms
  conserved : s.Conserved

theorem Initial.accounted {s : Session} (h : s.Initial) : s.Accounted := by
  obtain ⟨hnd, hstart, hcam, hcalls, hkms, -⟩ := h
  have hempty : s.kms.sink.slots = [] := by
    obtain ⟨hp, hq, ha, -⟩ := hkms
    simp [KMSSink.slots, hp, hq, ha]
  refine ⟨hnd, .init hcalls, .init hkms, fun r => ?_⟩
  rw [hstart, hcam, hcalls.1, hempty]
  simp

section Conservation

variable {s s' : Session}

private theorem conserved_start (hc : s.Conserved) (h : s.step .start = some s') : s'.Conserved := by
  obtain ⟨request, rest, hstart, rfl⟩ := step_start h
  intro r
  have hr := hc r
  simp only [hstart, List.count_cons] at hr
  simp only [queueRequest, Camera.queueRequest, List.count_append, List.count_singleton]
  omega

private theorem conserved_complete {thread : Nat} {request : Request} {status : RequestStatus} (hc : s.Conserved)
    (hu : s.Uncancelled (.complete thread request status))
    (h : s.step (.complete thread request status) = some s') : s'.Conserved := by
  obtain ⟨hmem, calls, hpush, rfl⟩ := step_complete hu h
  obtain ⟨-, rfl⟩ := CallState.push_eq_some hpush
  intro r
  have hr := hc r
  have hpos : 0 < s.camera.queued.count request := List.count_pos_iff.2 hmem
  simp only [EventLoop.pushCallList, List.count_append, List.count_singleton, List.count_erase]
  by_cases heq : request = r
  · -- the camera holds the request, so taking it out is not a subtraction from zero
    subst heq
    simp only [beq_self_eq_true, ↓reduceIte]
    omega
  · simp only [beq_iff_eq, heq, ↓reduceIte]
    omega

private theorem conserved_once {thread : Nat} {ok : Bool} (hc : s.Conserved)
    (h : s.step (.once thread ok) = some s') : s'.Conserved := by
  obtain ⟨calls, honce, rfl⟩ := step_once h
  obtain ⟨-, rfl⟩ := CallState.once_eq_some honce
  exact hc

private theorem conserved_dispatch {timestamp : UInt64} {calls : AtomicCalls} (hb : s.calls.Balanced) (hc : s.Conserved)
    (h : s.step (.dispatch timestamp calls) = some s') : s'.Conserved := by
  obtain ⟨-, request, rest, fired, -, hcalls, hrest, rfl⟩ := step_dispatch hb h
  intro r
  have hr := hc r
  rw [hcalls, List.count_cons] at hr
  cases hd : s.kms.sink.displays request with
  | none =>
    rw [processRequest_dropped (s := { s with calls := fired }) hd]
    simp only [hrest, Camera.queueRequest, List.count_append, List.count_singleton]
    omega
  | some drmBuffer =>
    obtain ⟨kms, heq, -, -, hslots⟩ := KmsState.processRequest_accepted calls hd
    rw [processRequest_accepted (s := { s with calls := fired }) hd]
    simp only [hrest, heq, hslots, List.count_append, List.count_singleton]
    omega

private theorem conserved_flip {calls : AtomicCalls} {addr : Nat} (ht : s.kms.Tracks) (hc : s.Conserved)
    (h : s.step (.flip calls addr) = some s') : s'.Conserved := by
  obtain ⟨-, hm, rfl⟩ := step_flip h
  obtain ⟨count, heq⟩ := flip_eq s calls addr
  intro r
  have hr := hc r
  rw [KmsState.slots_pageFlipComplete calls ht hm, List.count_append] at hr
  rw [heq]
  simp only [List.count_append]
  omega

private theorem requests_step {e : SessionEvent} (hb : s.calls.Balanced) (hu : s.Uncancelled e)
    (h : s.step e = some s') :
    s'.requests_ = s.requests_ := by
  cases e with
  | start =>
    obtain ⟨_, _, -, rfl⟩ := step_start h
    rfl
  | complete thread request status =>
    obtain ⟨-, _, -, rfl⟩ := step_complete hu h
    rfl
  | once thread ok =>
    obtain ⟨_, -, rfl⟩ := step_once h
    rfl
  | dispatch timestamp calls =>
    obtain ⟨-, request, _, fired, -, -, -, rfl⟩ := step_dispatch hb h
    cases hd : s.kms.sink.displays request with
    | none => rw [processRequest_dropped (s := { s with calls := fired }) hd]
    | some drmBuffer => rw [processRequest_accepted (s := { s with calls := fired }) hd]
  | flip calls addr =>
    obtain ⟨-, -, rfl⟩ := step_flip h
    obtain ⟨count, heq⟩ := flip_eq s calls addr
    rw [heq]

private theorem conserved_step {e : SessionEvent} (hb : s.calls.Balanced) (ht : s.kms.Tracks) (hc : s.Conserved)
    (hu : s.Uncancelled e) (h : s.step e = some s') : s'.Conserved := by
  cases e with
  | start => exact conserved_start hc h
  | complete thread request status => exact conserved_complete hc hu h
  | once thread ok => exact conserved_once hc h
  | dispatch timestamp calls => exact conserved_dispatch hb hc h
  | flip calls addr => exact conserved_flip ht hc h

theorem Accounted.balanced (ha : s.Accounted) : s.calls.Balanced := CallState.calls_length_eq ha.calls

theorem Accounted.tracks (ha : s.Accounted) : s.kms.Tracks := KmsState.tracks_of_reachable ha.kms

theorem Accounted.step {e : SessionEvent} (ha : s.Accounted) (hu : s.Uncancelled e) (h : s.step e = some s') :
    s'.Accounted := by
  refine ⟨?_, ?_, ?_, ?_⟩
  · rw [requests_step ha.balanced hu h]
    exact ha.nodup
  · rcases calls_step ha.balanced hu h with heq | ⟨e', he'⟩
    · rw [heq]
      exact ha.calls
    · exact ha.calls.of_step he'
  · rcases kms_step ha.balanced hu h with heq | ⟨e', he', -⟩
    · rw [heq]
      exact ha.kms
    · exact ha.kms.of_step he'
  · exact conserved_step ha.balanced ha.tracks ha.conserved hu h

end Conservation

theorem accounted_of_reachable {s : Session} (h : machine.ReachableVia Uncancelled s) : s.Accounted :=
  Machine.ReachableVia.invariant (M := machine) (fun _ hi => Initial.accounted hi)
    (fun _ _ _ ha hu hs => ha.step hu hs) h

/-! ### Cancelled requests -/

/-- The session with other requests for its own. -/
def having (s : Session) (requests : List Request) : Session := { s with requests_ := requests }

private theorem foldl_sinkRelease_having (emitted requests : List Request) (s : Session) :
    emitted.foldl sinkRelease (s.having requests) = (emitted.foldl sinkRelease s).having requests := by
  induction emitted generalizing s with
  | nil => rfl
  | cons request emitted ih => exact ih (s.sinkRelease request)

private theorem requestComplete_having (s : Session) (requests : List Request) (thread : Nat) (request : Request)
    (status : RequestStatus) : (s.having requests).requestComplete thread request status =
      (s.requestComplete thread request status).map (·.having requests) := by
  unfold requestComplete
  split
  · rfl
  · rw [Option.map_map]
    rfl

private theorem processRequest_having (s : Session) (requests : List Request) (timestamp : UInt64) (calls : AtomicCalls)
    (request : Request) : (s.having requests).processRequest timestamp calls request =
      (s.processRequest timestamp calls request).having requests := by
  cases hd : s.kms.sink.displays request with
  | none => rw [processRequest_dropped hd, processRequest_dropped (s := s.having requests) hd]; rfl
  | some drmBuffer => rw [processRequest_accepted hd, processRequest_accepted (s := s.having requests) hd]; rfl

private theorem dispatch_having (s : Session) (requests : List Request) (timestamp : UInt64) (calls : AtomicCalls) :
    (s.having requests).dispatch timestamp calls = (s.dispatch timestamp calls).map (·.having requests) := by
  have hfire : (s.having requests).calls.fire = s.calls.fire := rfl
  unfold dispatch
  rw [hfire]
  match s.calls.fire with
  | none => rfl
  | some (none, fired) => rfl
  | some (some request, fired) =>
    exact congrArg some (processRequest_having { s with calls := fired } requests timestamp calls request)

/-- A guarded step of both sessions. -/
private theorem ite_having {c : Prop} [Decidable c] {o o' : Option Session} {requests : List Request}
    (h : o' = o.map (·.having requests)) :
    (if c then o' else none) = (if c then o else none).map (·.having requests) := by
  rw [h]
  split <;> rfl

private theorem act_having (s : Session) (requests : List Request) (e : SessionEvent) :
    (s.having requests).act e = (s.act e).map (·.having requests) := by
  cases e with
  | start =>
    obtain ⟨_, _, _, _, starting, _, _, _, _⟩ := s
    cases starting <;> rfl
  | complete thread request status =>
    exact ite_having (requestComplete_having
      { s with camera := { s.camera with queued := s.camera.queued.erase request } } requests thread request status)
  | once thread ok =>
    show (s.calls.once thread ok).map _ = ((s.calls.once thread ok).map _).map _
    rw [Option.map_map]
    rfl
  | dispatch timestamp calls => exact ite_having (dispatch_having s requests timestamp calls)
  | flip calls addr =>
    exact ite_having (congrArg some
      (foldl_sinkRelease_having _ requests { s with kms := (s.kms.pageFlipComplete calls addr).2 }))

/-- No step looks at `requests_`. -/
private theorem step_having (s : Session) (requests : List Request) (e : SessionEvent) :
    (s.having requests).step e = (s.step e).map (·.having requests) := by
  show (if s.kms.aborted || s.badCall then none else (s.having requests).act e) = _
  rw [act_having, step]
  split <;> rfl

private theorem requests_of_step {s s' : Session} {e : SessionEvent} (h : s.step e = some s') : s'.requests_ =
    s.requests_ := by
  have hsame := step_having s s.requests_ e
  rw [show s.having s.requests_ = s from rfl, h, Option.map_some, Option.some.injEq] at hsame
  rw [hsame]
  rfl

/-- All that is known of a session without the requests that were cancelled. -/
def Remaining (s : Session) : Prop := ∃ requests, requests.Sublist s.requests_ ∧ (s.having requests).Accounted

theorem Remaining.balanced {s : Session} (h : s.Remaining) : s.calls.Balanced := by
  obtain ⟨requests, -, ha⟩ := h
  exact ha.balanced

theorem Remaining.tracks {s : Session} (h : s.Remaining) : s.kms.Tracks := by
  obtain ⟨requests, -, ha⟩ := h
  exact ha.tracks

/-- A cancelled request is out of the game: the camera keeps nothing of it. -/
theorem step_cancelled {s s' : Session} {thread : Nat} {request : Request}
    (h : s.step (.complete thread request .RequestCancelled) = some s') :
    request ∈ s.camera.queued ∧
      s' = { s with camera := { s.camera with queued := s.camera.queued.erase request } } := by
  have hact := (act_of_step h).2
  simp only [act, requestComplete, ↓reduceIte, Option.ite_none_right_eq_some] at hact
  exact ⟨hact.1, (Option.some.inj hact.2).symm⟩

private theorem Remaining.cancelled {s s' : Session} {thread : Nat} {request : Request} (h : s.Remaining)
    (hs : s.step (.complete thread request .RequestCancelled) = some s') : s'.Remaining := by
  obtain ⟨requests, hsub, hnodup, hcalls, hkms, hconserved⟩ := h
  obtain ⟨hmem, rfl⟩ := step_cancelled hs
  refine ⟨requests.erase request, List.erase_sublist.trans hsub, hnodup.erase _, hcalls, hkms, fun r => ?_⟩
  have hr := hconserved r
  have hpos := List.count_pos_iff.2 hmem
  simp only [having, List.count_erase] at hr ⊢
  by_cases heq : request = r
  · subst heq
    simp only [beq_self_eq_true, ↓reduceIte]
    omega
  · simp only [beq_iff_eq, heq, ↓reduceIte]
    omega

theorem Remaining.step {s s' : Session} {e : SessionEvent} (h : s.Remaining) (hs : s.step e = some s') :
    s'.Remaining := by
  by_cases hu : s.Uncancelled e
  · obtain ⟨requests, hsub, ha⟩ := h
    refine ⟨requests, ?_, ha.step hu ?_⟩
    · rw [requests_of_step hs]
      exact hsub
    · rw [step_having, hs, Option.map_some]
  · cases e with
    | complete thread request status =>
      cases status with
      | RequestComplete => exact absurd rfl hu
      | RequestCancelled => exact h.cancelled hs
    | _ => exact absurd trivial hu

theorem Initial.remaining {s : Session} (h : s.Initial) : s.Remaining := ⟨_, .refl _, h.accounted⟩

theorem remaining_of_reachable {s : Session} (h : machine.Reachable s) : s.Remaining :=
  Machine.ReachableVia.invariant (M := machine) (fun _ hi => Initial.remaining hi) (fun _ _ _ hr _ hs => hr.step hs) h

/-! ### Unique ownership -/

/-- The places where a request of a running session can be, with the number of times it is there. -/
def places (s : Session) (r : Request) : List Nat :=
  [s.camera.queued.count r, s.calls.loop.calls_.count r,
    (s.kms.sink.pending_.toList.map (·.camRequest_)).count r,
    (s.kms.sink.queued_.toList.map (·.camRequest_)).count r,
    (s.kms.sink.active_.toList.map (·.camRequest_)).count r]

private theorem Accounted.places_sum {s : Session} (h : s.Accounted) (hrun : s.Running) (r : Request) :
    (s.places r).sum = s.requests_.count r := by
  have hr := h.conserved r
  rw [hrun] at hr
  simp only [KMSSink.slots, List.map_append, List.count_append, List.count_nil] at hr
  simp only [places, List.sum_cons, List.sum_nil]
  omega

theorem Accounted.count_le_one {s : Session} (h : s.Accounted) (r : Request) : s.requests_.count r ≤ 1 :=
  List.nodup_iff_count.1 h.nodup r

/-- A deferred request is neither in the camera nor in a slot. -/
private theorem Accounted.free_of_deferred {s : Session} (h : s.Accounted) {request : Request} {rest : List Request}
    (hcalls : s.calls.loop.calls_ = request :: rest) :
    request ∉ s.camera.queued ∧ request ∉ s.kms.sink.slots := by
  have hr := h.conserved request
  have hle := h.count_le_one request
  rw [hcalls, List.count_cons_self] at hr
  rw [← List.count_eq_zero, ← List.count_eq_zero]
  omega

/-- A request that the sink emits on a flip is neither in the camera nor in a slot any more. -/
private theorem Accounted.free_of_emitted {s : Session} (h : s.Accounted) {calls : AtomicCalls} {addr : Nat}
    (hm : addr ∈ s.kms.flips) {r : Request} (hmem : r ∈ (s.kms.pageFlipComplete calls addr).1) :
    r ∉ s.camera.queued ∧ r ∉ (s.kms.pageFlipComplete calls addr).2.sink.slots := by
  have hr := h.conserved r
  have hle := h.count_le_one r
  have hpos := List.count_pos_iff.2 hmem
  rw [KmsState.slots_pageFlipComplete calls h.tracks hm, List.count_append] at hr
  rw [← List.count_eq_zero, ← List.count_eq_zero]
  omega

/-- The calls of `camera_->queueRequest` made by a step of a running session: at most one, of a request that the
camera does not hold and that no slot holds after the step. -/
private theorem Accounted.queueRequest_free {s s' : Session} {e : SessionEvent} (h : s.Accounted) (hrun : s.Running)
    (hu : s.Uncancelled e) (hs : s.step e = some s') :
    ∃ now, s'.camera.log = s.camera.log ++ now ∧ now.length ≤ 1 ∧
      ∀ r ∈ now, r ∉ s.camera.queued ∧ r ∉ s'.kms.sink.slots := by
  cases e with
  | start =>
    obtain ⟨request, rest, hstart, -⟩ := step_start hs
    rw [hrun] at hstart
    cases hstart
  | complete thread request status =>
    obtain ⟨-, _, -, rfl⟩ := step_complete hu hs
    exact ⟨[], by simp⟩
  | once thread ok =>
    obtain ⟨_, -, rfl⟩ := step_once hs
    exact ⟨[], by simp⟩
  | dispatch timestamp calls =>
    obtain ⟨-, request, rest, fired, -, hcalls, -, rfl⟩ := step_dispatch h.balanced hs
    cases hd : s.kms.sink.displays request with
    | none =>
      rw [processRequest_dropped (s := { s with calls := fired }) hd]
      refine ⟨[request], rfl, le_rfl, fun r hr => ?_⟩
      rw [List.mem_singleton.1 hr]
      exact h.free_of_deferred hcalls
    | some drmBuffer =>
      rw [processRequest_accepted (s := { s with calls := fired }) hd]
      exact ⟨[], by simp⟩
  | flip calls addr =>
    obtain ⟨-, hm, rfl⟩ := step_flip hs
    obtain ⟨count, heq⟩ := flip_eq s calls addr
    obtain ⟨queued, -, -, hflip⟩ := KmsState.pageFlipComplete_eq calls h.tracks hm
    have hone : (s.kms.pageFlipComplete calls addr).1.length ≤ 1 := by
      rw [hflip]
      cases s.kms.sink.active_ <;> simp
    rw [heq]
    exact ⟨_, rfl, hone, fun r hr => h.free_of_emitted hm hr⟩

/-- Conservation and unique ownership, for any number of requests, any interleaving and any outcome of the commits:
while the session runs each of its requests is in exactly one place, nothing else is in any of them, and a step
calls `camera_->queueRequest` at most once, on a request that the camera does not hold and that no slot of the sink
holds when the step ends. -/
theorem requests_in_one_place {s : Session} (h : machine.ReachableVia Uncancelled s) (hrun : s.Running) :
    (∀ r ∈ s.requests_, (s.places r).sum = 1) ∧ (∀ r ∉ s.requests_, (s.places r).sum = 0) ∧
    ∀ e s', s.Uncancelled e → s.step e = some s' → ∃ now, s'.camera.log = s.camera.log ++ now ∧ now.length ≤ 1 ∧
      ∀ r ∈ now, r ∉ s.camera.queued ∧ r ∉ s'.kms.sink.slots := by
  have ha := accounted_of_reachable h
  refine ⟨?_, ?_, ?_⟩
  · intro r hr
    rw [ha.places_sum hrun]
    exact List.count_eq_one_of_mem ha.nodup hr
  · intro r hr
    rw [ha.places_sum hrun]
    exact List.count_eq_zero_of_not_mem hr
  · intro e s' hu hs
    exact ha.queueRequest_free hrun hu hs

/-- A session with two requests for the buffer of a display. -/
def twoRequests : Session :=
  { requests_ := [KmsState.oneBuffer 50, KmsState.oneBuffer 60], queueCount_ := 0, captureCount_ := 0, last_ := 0,
    starting := [KmsState.oneBuffer 50, KmsState.oneBuffer 60], camera := ⟨[], []⟩,
    calls := ⟨⟨⟨0, true, false⟩, -1, []⟩, [], 0, [], []⟩, kms := KmsState.oneDisplay, badCall := false }

theorem initial_twoRequests : machine.init twoRequests :=
  ⟨by decide, rfl, rfl, ⟨rfl, rfl, rfl, rfl, rfl, rfl⟩, KmsState.initial_oneDisplay, rfl⟩

/-- Both requests are queued to the camera, and the first comes back and goes to the display. -/
def oneCapture : List SessionEvent :=
  [.start, .start, .complete 0 (KmsState.oneBuffer 50) .RequestComplete, .once 0 true,
    .dispatch 1000 (KmsState.committing 100 0)]

theorem requests_in_one_place_two :
    ∃ s, machine.replay twoRequests oneCapture = some s ∧ (s.places (KmsState.oneBuffer 50)).sum = 1 := by
  refine ⟨_, rfl, ?_⟩
  have hrun : machine.replay twoRequests oneCapture = some _ := rfl
  have hun : ∀ s, ∀ e ∈ oneCapture, Uncancelled s e := by
    intro s e he
    simp only [oneCapture, List.mem_cons, List.not_mem_nil, or_false] at he
    rcases he with rfl | rfl | rfl | rfl | rfl <;> trivial
  have hreach := (Machine.run_of_replay hrun).reachableVia hun (.init initial_twoRequests)
  exact (requests_in_one_place hreach rfl).1 (KmsState.oneBuffer 50) (by decide)

/-! ### Deadlock freedom -/

theorem awaitsFlip_of_reachable {s : Session} (h : machine.ReachableVia Succeeds s) : s.kms.AwaitsFlip := by
  have hboth : s.Accounted ∧ KmsState.machine.ReachableVia KmsState.CommitSucceeds s.kms := by
    refine Machine.ReachableVia.invariant (M := machine)
      (P := fun s => s.Accounted ∧ KmsState.machine.ReachableVia KmsState.CommitSucceeds s.kms) ?_ ?_ h
    · intro s hi
      exact ⟨Initial.accounted hi, .init hi.2.2.2.2.1⟩
    · rintro s e s' ⟨ha, hk⟩ hg hs
      refine ⟨ha.step hg.uncancelled hs, ?_⟩
      rcases kms_step ha.balanced hg.uncancelled hs with heq | ⟨e', he', hcommit⟩
      · rw [heq]; exact hk
      · exact .step hk (hcommit hg) he'
  exact KmsState.awaitsFlip_of_reachable hboth.2

private theorem queued_of_two_slots {s : KmsState} (ht : s.Tracks) (h : 2 ≤ s.sink.slots.length) :
    ∃ queued, s.sink.queued_ = some queued := by
  cases hq : s.sink.queued_ with
  | some queued => exact ⟨queued, rfl⟩
  | none =>
    have hp : s.sink.pending_ = none := by
      have hpq := ht.pending_queued
      rw [hq] at hpq
      simpa using hpq
    cases ha : s.sink.active_ <;> simp [KMSSink.slots, hq, hp, ha] at h

/-- The cycle never starves: with two or more requests, successful commits and no cancelled request, a running
session always has a request in the camera, a deferred call, or a page flip to come; and a deferred call has its
once-event scheduled or about to be, unless an `event_base_once` failed. -/
theorem capture_never_starves {s : Session} (h : machine.ReachableVia Succeeds s) (hrun : s.Running)
    (hN : 2 ≤ s.requests_.length) :
    (s.camera.queued ≠ [] ∨ s.calls.loop.calls_ ≠ [] ∨ s.kms.flips ≠ []) ∧
    (s.calls.failed = 0 → s.calls.loop.calls_ ≠ [] → 0 < s.calls.loop.base_.once ∨ s.calls.inFlight ≠ []) := by
  have ha := accounted_of_reachable (h.mono fun _ _ hg => hg.uncancelled)
  have hb := ha.balanced
  constructor
  · by_contra hnone
    simp only [ne_eq, not_or, not_not] at hnone
    obtain ⟨hcam, hcalls, hflips⟩ := hnone
    have hperm : s.kms.sink.slots.Perm s.requests_ := by
      rw [List.perm_iff_count]
      intro r
      have hr := ha.conserved r
      rw [hrun, hcam, hcalls] at hr
      simpa using hr
    have hlen : 2 ≤ s.kms.sink.slots.length := by rw [hperm.length_eq]; exact hN
    obtain ⟨queued, hq⟩ := queued_of_two_slots ha.tracks hlen
    have hflip := awaitsFlip_of_reachable h queued hq
    rw [hflips] at hflip
    cases hflip
  · intro hf hne
    have hpos : 0 < s.calls.loop.calls_.length := List.length_pos_of_ne_nil hne
    rw [CallState.Balanced, hf] at hb
    by_cases hi : s.calls.inFlight = []
    · rw [hi, List.length_nil] at hb
      exact Or.inl (by omega)
    · exact Or.inr hi

theorem succeeds_start (s : Session) : s.Succeeds .start := trivial

theorem succeeds_complete (s : Session) (thread : Nat) (request : Request) :
    s.Succeeds (.complete thread request .RequestComplete) := rfl

theorem succeeds_once (s : Session) (thread : Nat) (ok : Bool) : s.Succeeds (.once thread ok) := trivial

/-- A frame that is committed, and whose commit succeeds. -/
theorem succeeds_dispatch {s : Session} {timestamp : UInt64} {calls : AtomicCalls} {request : Request}
    {fired : CallState Request Nat} {drmBuffer : DRM.FrameBuffer} (hfire : s.calls.fire = some (some request, fired))
    (hdisplays : s.kms.sink.displays request = some drmBuffer)
    (hvalid : ((DRM.AtomicRequest.new calls).addProperties s.kms.sink.dev_ calls
      (s.kms.sink.frameChanges drmBuffer)).valid_ = true)
    (hcommit : 0 ≤ calls.commit) : s.Succeeds (.dispatch timestamp calls) := by
  rintro request' fired' hfire' drmBuffer' hdisplays' -
  obtain ⟨hrequest, -⟩ := Prod.mk.inj (Option.some.inj (hfire'.symm.trans hfire))
  obtain rfl := Option.some.inj hrequest
  obtain rfl := Option.some.inj (hdisplays'.symm.trans hdisplays)
  exact ⟨(DRM.AtomicRequest.addProperties_valid _ _ _).1 hvalid, hcommit⟩

/-- A frame that has to wait for the one before it is not committed. -/
theorem succeeds_dispatch_of_queued {s : Session} {timestamp : UInt64} {calls : AtomicCalls}
    (h : s.kms.sink.queued_.isSome = true) : s.Succeeds (.dispatch timestamp calls) := by
  rintro request fired - drmBuffer - hqueued
  rw [hqueued] at h
  cases h

/-- Both frames are captured: the commit of the first succeeds, and the second waits for its page flip. -/
def twoCaptured : List SessionEvent :=
  oneCapture ++ [.complete 0 (KmsState.oneBuffer 60) .RequestComplete, .once 0 true,
    .dispatch 2000 (KmsState.committing 200 0)]

theorem capture_never_starves_two :
    ∃ s, machine.replay twoRequests twoCaptured = some s ∧ s.camera.queued = [] ∧ s.calls.loop.calls_ = [] ∧
      s.kms.flips ≠ [] := by
  have hinit : machine.ReachableVia Succeeds twoRequests := .init initial_twoRequests
  have hstart := (hinit.step (succeeds_start _) rfl).step (succeeds_start _) rfl
  have hcomplete := hstart.step (succeeds_complete _ 0 (KmsState.oneBuffer 50)) rfl
  have honce := hcomplete.step (succeeds_once _ 0 true) rfl
  have hfirst := honce.step (e := .dispatch 1000 (KmsState.committing 100 0))
    (succeeds_dispatch rfl rfl rfl (by decide)) rfl
  have hcomplete := hfirst.step (succeeds_complete _ 0 (KmsState.oneBuffer 60)) rfl
  have honce := hcomplete.step (succeeds_once _ 0 true) rfl
  have hsecond := honce.step (e := .dispatch 2000 (KmsState.committing 200 0)) (succeeds_dispatch_of_queued rfl) rfl
  have hnever := (capture_never_starves hsecond rfl (by decide)).1
  have hflips := (hnever.resolve_left fun hcamera => hcamera rfl).resolve_left fun hcalls => hcalls rfl
  exact ⟨_, rfl, rfl, rfl, hflips⟩

end Session

end Twincam
