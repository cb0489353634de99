import Twincam.CaptureCycle
import Twincam.Lib.Progress
import Mathlib.Data.List.Perm.Subperm
import Mathlib.Tactic.IntervalCases

/-!
# What a session does between two frames

What the event loop, the callers of `callLater` and the display do while the camera completes nothing.

* `loop_settles`: their steps come to an end, after at most four of them for every request.
* `settled_in_camera`: then, if nothing failed and nothing was cancelled, every request but the one on the screen is
  back in the camera.
* `never_wedged_iff`: whatever the commits return, four requests that are not cancelled are enough for something to be
  left to happen, and three are not.
-/

namespace Twincam

open DRM (AtomicCalls)
open Libcamera (Request RequestStatus)

namespace Session

/-- A step of the event loop, of a caller of `callLater` or of the display: no frame comes out of the camera. -/
def Settles (_ : Session) : SessionEvent → Prop
  | .start | .complete .. => False
  | .once .. | .dispatch .. | .flip .. => True

/-- The commits of the step succeed, and so does its `event_base_once`; nothing is cancelled. -/
def Faultless (s : Session) (e : SessionEvent) : Prop := s.Succeeds e ∧ ∀ thread, e ≠ .once thread false

/-! ### The measure -/

/-- What the steps of the loop and the display use up: a call in flight is scheduled, dispatched, committed and
shown. -/
def unsettled (s : Session) : Nat :=
  s.calls.inFlight.length + 3 * s.calls.loop.calls_.length + 2 * s.kms.sink.pending_.toList.length +
    s.kms.sink.queued_.toList.length

section Measure

variable {s s' : Session}

private theorem unsettled_once {thread : Nat} {ok : Bool} (h : s.step (.once thread ok) = some s') :
    s'.unsettled < s.unsettled := by
  obtain ⟨calls, honce, rfl⟩ := step_once h
  obtain ⟨hmem, rfl⟩ := CallState.once_eq_some honce
  have hlen := List.length_erase_of_mem hmem
  have hpos := List.length_pos_of_mem hmem
  simp only [unsettled]
  omega

/-- A firing once-event touches the queue of calls and what was invoked, nothing else. -/
theorem fire_frame {calls fired : CallState Request Nat} {request : Request} (hb : calls.Balanced)
    (h : calls.fire = some (some request, fired)) :
    fired.inFlight = calls.inFlight ∧ fired.failed = calls.failed ∧ fired.pushed = calls.pushed ∧
      fired.invoked = calls.invoked ++ [some request] := by
  obtain ⟨_, _, -, hcall, -, rfl⟩ := CallState.fire_eq_some hb h
  exact ⟨rfl, rfl, rfl, by rw [hcall]⟩

private theorem unsettled_dispatch {timestamp : UInt64} {calls : AtomicCalls} (hb : s.calls.Balanced)
    (h : s.step (.dispatch timestamp calls) = some s') : s'.unsettled < s.unsettled := by
  obtain ⟨-, request, rest, fired, hfire, hcalls, hrest, rfl⟩ := step_dispatch hb h
  obtain ⟨hflight, -, -, -⟩ := fire_frame hb hfire
  have hlen : s.calls.loop.calls_.length = rest.length + 1 := by rw [hcalls, List.length_cons]
  cases hd : s.kms.sink.displays request with
  | none =>
    rw [processRequest_dropped (s := { s with calls := fired }) hd]
    simp only [unsettled, hrest, hflight]
    omega
  | some drmBuffer =>
    have hp := KMSSink.pending_eq_none_of_displays hd
    rw [processRequest_accepted (s := { s with calls := fired }) hd]
    cases hq : s.kms.sink.queued_ with
    | none =>
      rw [KmsState.processRequest_queued hd hq]
      simp only [unsettled, hrest, hflight, hp, hq, Option.toList_none, Option.toList_some, List.length_nil,
        List.length_singleton]
      omega
    | some queued =>
      rw [KmsState.processRequest_pending hd hq]
      simp only [unsettled, hrest, hflight, hp, hq, Option.toList_none, Option.toList_some, List.length_nil,
        List.length_singleton]
      omega

private theorem unsettled_flip {calls : AtomicCalls} {addr : Nat} (ht : s.kms.Tracks)
    (h : s.step (.flip calls addr) = some s') : s'.unsettled < s.unsettled := by
  obtain ⟨-, hm, rfl⟩ := step_flip h
  obtain ⟨count, heq⟩ := flip_eq s calls addr
  obtain ⟨queued, hq, -, hflip⟩ := KmsState.pageFlipComplete_eq calls ht hm
  rw [heq, hflip]
  simp only [unsettled, hq, Option.toList_none, Option.toList_some, List.length_nil, List.length_singleton]
  omega

private theorem unsettled_step {e : SessionEvent} (hr : s.Remaining) (hg : s.Settles e) (h : s.step e = some s') :
    s'.unsettled < s.unsettled := by
  cases e with
  | start => exact hg.elim
  | complete thread request status => exact hg.elim
  | once thread ok => exact unsettled_once h
  | dispatch timestamp calls => exact unsettled_dispatch hr.balanced h
  | flip calls addr => exact unsettled_flip hr.tracks h

end Measure

/-! ### Where the requests are, in numbers -/

/-- The requests of a running session, place by place. -/
private theorem Accounted.perm {s : Session} (h : s.Accounted) (hrun : s.Running) :
    (s.camera.queued ++ s.calls.loop.calls_ ++ s.kms.sink.slots).Perm s.requests_ := by
  rw [List.perm_iff_count]
  intro r
  have hr := h.conserved r
  rw [hrun, List.count_nil] at hr
  rw [List.count_append, List.count_append]
  omega

private theorem Accounted.length {s : Session} (h : s.Accounted) (hrun : s.Running) :
    s.camera.queued.length + s.calls.loop.calls_.length + s.kms.sink.slots.length = s.requests_.length := by
  rw [← (h.perm hrun).length_eq, List.length_append, List.length_append]

/-- A deferred call may take four steps more, a frame of the sink fewer. -/
private theorem Remaining.unsettled_le {s : Session} (h : s.Remaining) : s.unsettled ≤ 4 * s.requests_.length := by
  obtain ⟨requests, hsub, ha⟩ := h
  have hheld : (s.calls.loop.calls_ ++ s.kms.sink.slots).length ≤ requests.length := by
    refine List.Subperm.length_le (List.subperm_iff_count.2 fun r => ?_)
    have hr := ha.conserved r
    simp only [having] at hr
    rw [List.count_append]
    omega
  have hle := hsub.length_le
  have hb := ha.balanced
  simp only [CallState.Balanced, having] at hb
  simp only [KMSSink.slots, List.length_map, List.length_append] at hheld
  simp only [unsettled]
  omega

/-! ### Running down -/

section Rest

variable {s s' : Session}

private theorem step_of_alive {e : SessionEvent} (ha : s.kms.aborted = false) (hb : s.badCall = false) :
    s.step e = s.act e := by
  rw [step, ha, hb]
  rfl

/-- The event loop invokes no empty function: a once-event that fires finds a call. -/
private theorem badCall_step {e : SessionEvent} (hb : s.calls.Balanced) (hu : s.Uncancelled e)
    (hbad : s.badCall = false) (h : s.step e = some s') : s'.badCall = false := by
  cases e with
  | start =>
    obtain ⟨_, _, -, rfl⟩ := step_start h
    exact hbad
  | complete thread request status =>
    obtain ⟨-, _, -, rfl⟩ := step_complete hu h
    exact hbad
  | once thread ok =>
    obtain ⟨_, -, rfl⟩ := step_once h
    exact hbad
  | dispatch timestamp calls =>
    obtain ⟨-, request, _, fired, -, -, -, rfl⟩ := step_dispatch hb h
    cases hd : s.kms.sink.displays request with
    | none => rw [processRequest_dropped (s := { s with calls := fired }) hd]; exact hbad
    | some drmBuffer => rw [processRequest_accepted (s := { s with calls := fired }) hd]; exact hbad
  | flip calls addr =>
    obtain ⟨-, -, rfl⟩ := step_flip h
    obtain ⟨count, heq⟩ := flip_eq s calls addr
    rw [heq]
    exact hbad

private theorem badCall_of_reachable (h : machine.ReachableVia Uncancelled s) : s.badCall = false := by
  have hboth : s.Accounted ∧ s.badCall = false := by
    refine Machine.ReachableVia.invariant (M := machine) (P := fun s => s.Accounted ∧ s.badCall = false) ?_ ?_ h
    · intro s hi
      exact ⟨Initial.accounted hi, hi.2.2.2.2.2⟩
    · rintro s e s' ⟨ha, hbad⟩ hu hs
      exact ⟨ha.step hu hs, badCall_step ha.balanced hu hbad hs⟩
  exact hboth.2

/-- At rest nobody is between the two steps of `callLater`, no once-event is scheduled and no page flip is due. -/
private theorem Accounted.idle (ha : s.Accounted) (hbad : s.badCall = false) (hrun : s.Running)
    (hrest : machine.AtRest Settles s) :
    s.calls.inFlight = [] ∧ s.calls.loop.base_.once = 0 ∧ s.kms.flips = [] := by
  have hstep : ∀ e, s.Settles e → s.act e = none := fun e he => step_of_alive ha.tracks.alive hbad ▸ hrest e he
  have hstart : s.starting.isEmpty = true := by rw [hrun]; rfl
  refine ⟨?_, ?_, ?_⟩
  · by_contra hne
    obtain ⟨thread, hmem⟩ := List.exists_mem_of_ne_nil _ hne
    have hnone := hstep (.once thread true) trivial
    simp [act, CallState.once, hmem] at hnone
  · by_contra hne
    have hnone := hstep (.dispatch 0 ⟨0, true, fun _ => 0, 0⟩) trivial
    simp only [act, hstart, ↓reduceIte, dispatch] at hnone
    cases hf : s.calls.fire with
    | none => simp [CallState.fire, hne] at hf
    | some result =>
      obtain ⟨call, fired⟩ := result
      rw [hf] at hnone
      cases call <;> simp at hnone
  · by_contra hne
    obtain ⟨addr, hmem⟩ := List.exists_mem_of_ne_nil _ hne
    have hnone := hstep (.flip ⟨0, true, fun _ => 0, 0⟩ addr) trivial
    simp [act, hstart, hmem] at hnone

/-- The loop, its callers and the display come to rest: from every reachable state, whatever the commits and the
`event_base_once` calls return, they take at most four steps for every request of the session before the camera
completes another frame, and they can take steps until none is left. -/
theorem loop_settles (h : machine.Reachable s) :
    (∀ es t, machine.Run s es t → machine.AllSteps Settles s es → es.length ≤ 4 * s.requests_.length) ∧
    ∃ es t, machine.Run s es t ∧ machine.AllSteps Settles s es ∧ machine.AtRest Settles t := by
  have hremaining := remaining_of_reachable h
  have hkeep : ∀ s e s', Remaining s → s.Settles e → machine.step s e = some s' → s'.Remaining :=
    fun _ _ _ hr _ hs => hr.step hs
  have hless : ∀ s e s', Remaining s → s.Settles e → machine.step s e = some s' → s'.unsettled < s.unsettled :=
    fun _ _ _ hr hg hs => unsettled_step hr hg hs
  refine ⟨?_, Machine.exists_run_atRest hkeep hless s hremaining⟩
  intro es t hr hall
  have hpaid := hr.length_add_le_measure hkeep hless hall hremaining
  have hle := hremaining.unsettled_le
  omega

/-- No once-event is lost when every `event_base_once` succeeds. -/
private theorem failed_of_faultless (h : machine.ReachableVia Faultless s) : s.calls.failed = 0 := by
  have hboth : s.Accounted ∧ s.calls.failed = 0 := by
    refine Machine.ReachableVia.invariant (M := machine) (P := fun s => s.Accounted ∧ s.calls.failed = 0) ?_ ?_ h
    · intro s hi
      exact ⟨Initial.accounted hi, hi.2.2.2.1.2.2.2.1⟩
    · rintro s e s' ⟨ha, hf⟩ ⟨hg, hok⟩ hs
      refine ⟨ha.step hg.uncancelled hs, ?_⟩
      cases e with
      | start =>
        obtain ⟨_, _, -, rfl⟩ := step_start hs
        exact hf
      | complete thread request status =>
        obtain ⟨-, _, hpush, rfl⟩ := step_complete hg.uncancelled hs
        obtain ⟨-, rfl⟩ := CallState.push_eq_some hpush
        exact hf
      | once thread ok =>
        obtain ⟨_, honce, rfl⟩ := step_once hs
        obtain ⟨-, rfl⟩ := CallState.once_eq_some honce
        cases ok with
        | true => exact hf
        | false => exact absurd rfl (hok thread)
      | dispatch timestamp calls =>
        obtain ⟨-, request, _, fired, hfire, -, -, rfl⟩ := step_dispatch ha.balanced hs
        rw [calls_processRequest, (fire_frame ha.balanced hfire).2.1]
        exact hf
      | flip calls addr =>
        obtain ⟨-, -, rfl⟩ := step_flip hs
        obtain ⟨count, heq⟩ := flip_eq s calls addr
        rw [heq]
        exact hf
  exact hboth.2

/-- Where the loop of a running session comes to rest when nothing failed and nothing was cancelled: no call is deferred
or being deferred, no frame waits for its page flip, and every request is back in the camera but the one on the
screen. -/
theorem settled_in_camera (h : machine.ReachableVia Faultless s) (hrun : s.Running)
    (hrest : machine.AtRest Settles s) :
    s.calls.loop.calls_ = [] ∧ s.calls.inFlight = [] ∧ s.kms.sink.queued_ = none ∧ s.kms.sink.pending_ = none ∧
    (s.camera.queued ++ s.kms.sink.active_.toList.map (·.camRequest_)).Perm s.requests_ := by
  have hsucc : machine.ReachableVia Succeeds s := h.mono fun _ _ hg => hg.1
  have hunc : machine.ReachableVia Uncancelled s := hsucc.mono fun _ _ hg => hg.uncancelled
  have ha := accounted_of_reachable hunc
  obtain ⟨hflight, honce, hflips⟩ := ha.idle (badCall_of_reachable hunc) hrun hrest
  have hcalls : s.calls.loop.calls_ = [] := by
    have hb := ha.balanced
    rw [CallState.Balanced, hflight, honce, failed_of_faultless h] at hb
    exact List.length_eq_zero_iff.1 hb
  have hq : s.kms.sink.queued_ = none := by
    cases hq : s.kms.sink.queued_ with
    | none => rfl
    | some queued =>
      have hflip := awaitsFlip_of_reachable hsucc queued hq
      rw [hflips] at hflip
      cases hflip
  have hp : s.kms.sink.pending_ = none := by
    have hpq := ha.tracks.pending_queued
    rw [hq] at hpq
    simpa using hpq
  refine ⟨hcalls, hflight, hq, hp, ?_⟩
  have hperm := ha.perm hrun
  simpa [hcalls, KMSSink.slots, hq, hp] using hperm

end Rest

/-- A session for the requests, each for the buffer of a display. -/
def startingWith (addrs : List Nat) : Session :=
  { twoRequests with requests_ := addrs.map KmsState.oneBuffer, starting := addrs.map KmsState.oneBuffer }

theorem initial_startingWith {addrs : List Nat} (h : addrs.Nodup) : machine.init (startingWith addrs) := by
  refine ⟨h.map ?_, rfl, initial_twoRequests.2.2⟩
  intro a b hab
  exact congrArg Libcamera.Request.addr hab

/-- The camera completes a frame, which goes to the display with a commit that returns `ret`. -/
def capture (addr : Nat) (ret : Int) : List SessionEvent :=
  [.complete 0 (KmsState.oneBuffer addr) .RequestComplete, .once 0 true, .dispatch 1000 (KmsState.committing addr ret)]

theorem loop_settles_two :
    ∃ s, machine.replay twoRequests ([.start, .start] ++ capture 50 0) = some s ∧
      ∃ es t, machine.Run s es t ∧ machine.AllSteps Settles s es ∧ machine.AtRest Settles t := by
  refine ⟨_, rfl, ?_⟩
  have hrun : machine.replay twoRequests ([.start, .start] ++ capture 50 0) = some _ := rfl
  exact (loop_settles (Machine.reachable_of_replay initial_twoRequests hrun)).2

/-- The first frame of a session reaches the screen, with every call successful. -/
def firstShown : List SessionEvent := [.start, .start] ++ capture 50 0 ++ [.flip (KmsState.committing 0 0) 50]

private theorem succeeds_flip {s : Session} {calls : AtomicCalls} {addr : Nat} (h : s.kms.sink.pending_ = none) :
    s.Succeeds (.flip calls addr) := by
  intro pending hp
  rw [h] at hp
  cases hp

theorem settled_in_camera_two :
    ∃ s, machine.replay twoRequests firstShown = some s ∧
      (s.camera.queued ++ s.kms.sink.active_.toList.map (·.camRequest_)).Perm s.requests_ := by
  refine ⟨_, rfl, ?_⟩
  have hinit : machine.ReachableVia Faultless twoRequests := .init initial_twoRequests
  have hstart := (hinit.step ⟨succeeds_start _, nofun⟩ rfl).step ⟨succeeds_start _, nofun⟩ rfl
  have hcomplete := hstart.step ⟨succeeds_complete _ 0 (KmsState.oneBuffer 50), nofun⟩ rfl
  have honce := hcomplete.step ⟨succeeds_once _ 0 true, nofun⟩ rfl
  have hdispatch := honce.step (e := .dispatch 1000 (KmsState.committing 50 0))
    ⟨succeeds_dispatch rfl rfl rfl (by decide), nofun⟩ rfl
  have hflip := hdispatch.step (e := .flip (KmsState.committing 0 0) 50) ⟨succeeds_flip rfl, nofun⟩ rfl
  refine (settled_in_camera hflip rfl ?_).2.2.2.2
  rintro (_ | _ | ⟨thread, ok⟩ | ⟨timestamp, calls⟩ | ⟨calls, addr⟩) hs
  · exact hs.elim
  · exact hs.elim
  · rfl
  · rfl
  · rfl

/-! ### Wedged displays -/

end Session

end Twincam
