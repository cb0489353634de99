import Twincam.KmsSink
import Twincam.Lib.Fifo

/-!
# Runs of the KMS sink

`KmsState` is the sink together with the page-flip events outstanding in the kernel; its machine takes frames and
delivers page flips in any order, with any outcome of every call of libdrm.

* `Tracks` is the invariant: the kernel owes at most one event, and owes it to `queued_`.  So the assertion of
  `requestComplete` holds whenever it runs.
* `refines_fifo`: the sink is a queue of capacity three; `slots_fifo` collects what follows from it.
* `queued_awaits_flip_iff`: a run keeps the promise that every queued request still has its event coming exactly
  when every commit made in it succeeds.
-/

namespace Twincam

open DRM (AtomicCalls AtomicRequest)

/-- The sink, the addresses carried by the page-flip events outstanding in the kernel, the requests for which
`processRequest` returned false and those emitted through `requestProcessed`, both in order; `aborted` when the
assertion of `requestComplete` failed. -/
structure KmsState where
  sink : KMSSink
  flips : List Nat
  accepted : List Libcamera.Request
  emitted : List Libcamera.Request
  aborted : Bool

/-- A frame is given to the sink, or the kernel delivers the page-flip event that carries `addr`. -/
inductive KmsEvent
  | frame (calls : AtomicCalls) (camRequest : Libcamera.Request)
  | flip (calls : AtomicCalls) (addr : Nat)

namespace KmsState

/-- `KMSSink::processRequest` and what its commit leaves in the kernel. -/
def processRequest (s : KmsState) (calls : AtomicCalls) (camRequest : Libcamera.Request) : Bool × KmsState :=
  let result := s.sink.processRequest calls camRequest
  (result.ret, { s with
    sink := result.sink
    flips := s.flips ++ result.committed.elim [] (·.flips)
    accepted := if result.ret then s.accepted else s.accepted ++ [camRequest] })

/-- `Device::drmEvent` and `Device::pageFlipComplete`: the event that carries `addr` is consumed and its request
goes to `KMSSink::requestComplete`.  Also the camera requests emitted on the way. -/
def pageFlipComplete (s : KmsState) (calls : AtomicCalls) (addr : Nat) : List Libcamera.Request × KmsState :=
  match s.sink.requestComplete calls addr with
  | none => ([], { s with flips := s.flips.erase addr, aborted := true })
  | some result => (result.emitted, { s with
      sink := result.sink
      flips := s.flips.erase addr ++ result.committed.elim [] (·.flips)
      emitted := s.emitted ++ result.emitted })

/-- A sink that was just configured: its slots are empty and the kernel owes it nothing. -/
def Initial (s : KmsState) : Prop :=
  s.sink.pending_ = none ∧ s.sink.queued_ = none ∧ s.sink.active_ = none ∧ s.flips = [] ∧
    s.accepted = [] ∧ s.emitted = [] ∧ s.aborted = false

/-- One step; only an outstanding event is delivered, and nothing runs after an abort. -/
def step (s : KmsState) (e : KmsEvent) : Option KmsState :=
  if s.aborted then none
  else
    match e with
    | .frame calls camRequest => some (s.processRequest calls camRequest).2
    | .flip calls addr => if addr ∈ s.flips then some (s.pageFlipComplete calls addr).2 else none

def machine : Machine KmsState KmsEvent where
  init := Initial
  step := step

/-! ### The slots and the outstanding flip -/

/-- `pending_` waits behind `queued_`, the kernel owes at most one event and owes it to `queued_`, and the
assertion has held. -/
structure Tracks (s : KmsState) : Prop where
  pending_queued : s.sink.pending_.isSome → s.sink.queued_.isSome
  flips : s.flips = [] ∨ ∃ queued, s.sink.queued_ = some queued ∧ s.flips = [queued.drmRequest_.addr]
  alive : s.aborted = false

theorem Initial.tracks {s : KmsState} (h : s.Initial) : s.Tracks := by
  obtain ⟨hp, -, -, hf, -, -, ha⟩ := h
  exact ⟨by simp [hp], Or.inl hf, ha⟩

theorem Tracks.flips_eq_nil {s : KmsState} (h : s.Tracks) (hq : s.sink.queued_ = none) : s.flips = [] := by
  rcases h.flips with hf | ⟨queued, hqs, -⟩
  · exact hf
  · rw [hq] at hqs; cases hqs

/-- The request of an outstanding event is the queued one. -/
private theorem Tracks.queued_of_mem_flips {s : KmsState} {addr : Nat} (h : s.Tracks) (hm : addr ∈ s.flips) :
    ∃ queued, s.sink.queued_ = some queued ∧ queued.drmRequest_.addr = addr ∧ s.flips = [addr] := by
  rcases h.flips with hf | ⟨queued, hq, hf⟩
  · rw [hf] at hm; cases hm
  · rw [hf, List.mem_singleton] at hm
    exact ⟨queued, hq, hm.symm, hm ▸ hf⟩

section Frame

variable {s : KmsState} {calls : AtomicCalls} {camRequest : Libcamera.Request} {drmBuffer : DRM.FrameBuffer}

theorem processRequest_dropped (h : s.sink.displays camRequest = none) :
    s.processRequest calls camRequest = (true, s) := by
  simp [processRequest, KMSSink.processRequest_dropped h]

theorem processRequest_queued (h : s.sink.displays camRequest = some drmBuffer) (hq : s.sink.queued_ = none) :
    s.processRequest calls camRequest =
      (false, { s with
        sink := { s.sink with queued_ := some (s.sink.newRequest calls drmBuffer camRequest) }
        flips := s.flips ++
          (s.sink.newRequest calls drmBuffer camRequest).drmRequest_.commitFlips calls AtomicRequest.FlagAsync
        accepted := s.accepted ++ [camRequest] }) := by
  simp [processRequest, KMSSink.processRequest_queued h hq, AtomicRequest.commitFlips]

theorem processRequest_pending {queued : KMSSink.Request} (h : s.sink.displays camRequest = some drmBuffer)
    (hq : s.sink.queued_ = some queued) :
    s.processRequest calls camRequest =
      (false, { s with
        sink := { s.sink with pending_ := some (s.sink.newRequest calls drmBuffer camRequest) }
        accepted := s.accepted ++ [camRequest] }) := by
  simp [processRequest, KMSSink.processRequest_pending h hq]

variable (calls) in
/-- Whichever way a frame is accepted, it is the newest one in the slots and in the history. -/
theorem processRequest_accepted (h : s.sink.displays camRequest = some drmBuffer) :
    ∃ s', s.processRequest calls camRequest = (false, s') ∧ s'.accepted = s.accepted ++ [camRequest] ∧
      s'.emitted = s.emitted ∧ s'.sink.slots = s.sink.slots ++ [camRequest] := by
  have hslots := KMSSink.slots_processRequest calls h
  cases hq : s.sink.queued_ with
  | none =>
    rw [KMSSink.processRequest_queued h hq] at hslots
    exact ⟨_, processRequest_queued h hq, rfl, rfl, hslots⟩
  | some queued =>
    rw [KMSSink.processRequest_pending h hq] at hslots
    exact ⟨_, processRequest_pending h hq, rfl, rfl, hslots⟩

private theorem Tracks.processRequest (h : s.Tracks) : (s.processRequest calls camRequest).2.Tracks := by
  cases hd : s.sink.displays camRequest with
  | none => rw [processRequest_dropped hd]; exact h
  | some drmBuffer =>
    cases hq : s.sink.queued_ with
    | none =>
      rw [processRequest_queued hd hq, AtomicRequest.commitFlips_async, h.flips_eq_nil hq]
      refine ⟨fun _ => rfl, ?_, h.alive⟩
      split
      · exact Or.inr ⟨_, rfl, rfl⟩
      · exact Or.inl rfl
    | some queued =>
      rw [processRequest_pending hd hq]
      exact ⟨fun _ => by simp [hq], h.flips, h.alive⟩

end Frame

section Flip

variable {s : KmsState} {calls : AtomicCalls} {addr : Nat}

variable (calls) in
/-- The delivery of an outstanding event: the assertion holds and every request moves one slot on. -/
theorem pageFlipComplete_eq (h : s.Tracks) (hm : addr ∈ s.flips) :
    ∃ queued, s.sink.queued_ = some queued ∧ queued.drmRequest_.addr = addr ∧
      s.pageFlipComplete calls addr =
        (s.sink.active_.toList.map (·.camRequest_),
          { s with
            sink := { s.sink with active_ := some queued, queued_ := s.sink.pending_, pending_ := none }
            flips := s.sink.pending_.elim [] (·.drmRequest_.commitFlips calls AtomicRequest.FlagAsync)
            emitted := s.emitted ++ s.sink.active_.toList.map (·.camRequest_) }) := by
  obtain ⟨queued, hq, rfl, hf⟩ := h.queued_of_mem_flips hm
  refine ⟨queued, hq, rfl, ?_⟩
  rw [pageFlipComplete, KMSSink.requestComplete_eq hq, hf]
  cases hp : s.sink.pending_ with
  | none => simp
  | some p => simp [AtomicRequest.commitFlips]

private theorem Tracks.pageFlipComplete (h : s.Tracks) (hm : addr ∈ s.flips) :
    (s.pageFlipComplete calls addr).2.Tracks := by
  obtain ⟨queued, -, -, heq⟩ := pageFlipComplete_eq calls h hm
  rw [heq]
  refine ⟨by simp, ?_, h.alive⟩
  cases hp : s.sink.pending_ with
  | none => exact Or.inl rfl
  | some p =>
    simp only [Option.elim, AtomicRequest.commitFlips_async]
    split
    · exact Or.inr ⟨p, rfl, rfl⟩
    · exact Or.inl rfl

variable (calls) in
/-- A flip takes the oldest request out of the slots if one was on the screen, and no request otherwise. -/
theorem slots_pageFlipComplete (h : s.Tracks) (hm : addr ∈ s.flips) :
    s.sink.slots = (s.pageFlipComplete calls addr).1 ++ (s.pageFlipComplete calls addr).2.sink.slots := by
  obtain ⟨queued, hq, -, heq⟩ := pageFlipComplete_eq calls h hm
  rw [heq]
  simp [KMSSink.slots, hq]

end Flip

theorem step_eq_some {s s' : KmsState} {e : KmsEvent} (h : s.step e = some s') :
    (∃ calls camRequest, e = .frame calls camRequest ∧ s' = (s.processRequest calls camRequest).2) ∨
    (∃ calls addr, e = .flip calls addr ∧ addr ∈ s.flips ∧ s' = (s.pageFlipComplete calls addr).2) := by
  unfold step at h
  split at h
  · cases h
  · cases e with
    | frame calls camRequest => exact Or.inl ⟨calls, camRequest, rfl, (Option.some.inj h).symm⟩
    | flip calls addr =>
      simp only at h
      split at h
      · exact Or.inr ⟨calls, addr, rfl, ‹_›, (Option.some.inj h).symm⟩
      · cases h

theorem Tracks.step {s s' : KmsState} {e : KmsEvent} (h : s.Tracks) (hs : s.step e = some s') : s'.Tracks := by
  rcases step_eq_some hs with ⟨calls, camRequest, rfl, rfl⟩ | ⟨calls, addr, rfl, hm, rfl⟩
  · exact h.processRequest
  · exact h.pageFlipComplete hm

theorem tracks_of_reachable {s : KmsState} (h : machine.Reachable s) : s.Tracks :=
  Machine.ReachableVia.invariant (M := machine) (fun _ hi => Initial.tracks hi) (fun _ _ _ ht _ hs => ht.step hs) h

/-! ### The sink is a queue of capacity three -/

/-- The sink seen as a queue: accepted frames go in, emitted requests come out. -/
def Refines (s : KmsState) (q : Fifo.State Libcamera.Request) : Prop :=
  q.accepted = s.accepted ∧ q.emitted = s.emitted ∧ q.contents = s.sink.slots

/-- Every step of the sink is a step of the queue, or does not touch it. -/
private theorem refines_step {s s' : KmsState} {q : Fifo.State Libcamera.Request} {e : KmsEvent} (ht : s.Tracks)
    (hR : s.Refines q) (hs : s.step e = some s') :
    s'.Refines q ∨ ∃ op q', (Fifo.machine 3).step q op = some q' ∧ s'.Refines q' := by
  obtain ⟨hacc, hemit, hcon⟩ := hR
  rcases step_eq_some hs with ⟨calls, camRequest, rfl, rfl⟩ | ⟨calls, addr, rfl, hm, rfl⟩
  · cases hd : s.sink.displays camRequest with
    | none => rw [processRequest_dropped hd]; exact Or.inl ⟨hacc, hemit, hcon⟩
    | some drmBuffer =>
      obtain ⟨s₁, heq, hacc₁, hemit₁, hslots₁⟩ := processRequest_accepted calls hd
      have hroom : (q.contents.length : ℕ∞) < 3 := by
        rw [hcon]; exact_mod_cast KMSSink.slots_length_lt hd
      rw [heq]
      refine Or.inr ⟨_, _, Fifo.step_enqueue hroom camRequest, ?_, ?_, ?_⟩
      · rw [hacc, hacc₁]
      · rw [hemit, hemit₁]
      · rw [hcon, hslots₁]
  · have hslots := slots_pageFlipComplete calls ht hm
    obtain ⟨queued, -, -, heq⟩ := pageFlipComplete_eq calls ht hm
    rw [heq] at hslots ⊢
    cases ha : s.sink.active_ with
    | none =>
      -- the first frame reaches the screen: nothing comes out
      rw [ha] at hslots
      exact Or.inl ⟨hacc, by simp [hemit], hcon.trans hslots⟩
    | some active =>
      rw [ha] at hslots
      refine Or.inr ⟨_, _, Fifo.step_dequeue (hcon.trans hslots), hacc, ?_, rfl⟩
      simp [hemit]

theorem refines_fifo {s : KmsState} (h : machine.Reachable s) :
    ∃ q, (Fifo.machine (α := Libcamera.Request) 3).Reachable q ∧ s.Tracks ∧ s.Refines q := by
  refine Machine.ReachableVia.simulation (fun s q => s.Tracks ∧ s.Refines q) ?_ ?_ h
  · intro s hi
    have ht := Initial.tracks hi
    obtain ⟨hp, hq, ha, -, hacc, hemit, -⟩ := hi
    exact ⟨⟨[], [], []⟩, rfl, ht, hacc.symm, hemit.symm, by simp [KMSSink.slots, hp, hq, ha]⟩
  · rintro s q e s' ⟨ht, hR⟩ - hs
    have ht' := ht.step hs
    rcases refines_step ht hR hs with hR' | ⟨op, q', hop, hR'⟩
    · exact Or.inl ⟨ht', hR'⟩
    · exact Or.inr ⟨op, q', trivial, hop, ht', hR'⟩

/-- The sink is a queue of capacity three, whatever the frames, the page flips and the outcomes of the commits:
`pending_` waits behind `queued_`; the assertion of `requestComplete` holds whenever an event is delivered; the
emitted requests are a prefix of the accepted ones; the slots hold, oldest first, the accepted requests that were
not emitted yet, so the difference of the counts is the number of full slots and at most three; and a frame that
is handed back leaves the sink as it was. -/
theorem slots_fifo {s : KmsState} (h : machine.Reachable s) :
    (s.sink.pending_.isSome → s.sink.queued_.isSome) ∧
    (s.aborted = false ∧ ∀ calls, ∀ addr ∈ s.flips, (s.sink.requestComplete calls addr).isSome ∧
      ∃ queued, s.sink.queued_ = some queued ∧ queued.drmRequest_.addr = addr) ∧
    s.emitted <+: s.accepted ∧
    (s.accepted = s.emitted ++ s.sink.slots ∧ s.accepted.length - s.emitted.length = s.sink.slots.length ∧
      s.sink.slots.length ≤ 3) ∧
    ∀ calls camRequest, (s.sink.processRequest calls camRequest).ret = true →
      (s.sink.processRequest calls camRequest).sink = s.sink := by
  obtain ⟨q, hq, ht, hacc, hemit, hcon⟩ := refines_fifo h
  have hhist : s.accepted = s.emitted ++ s.sink.slots := by
    rw [← hacc, ← hemit, ← hcon]; exact (Fifo.accepted_eq hq).1
  refine ⟨ht.pending_queued, ⟨ht.alive, ?_⟩, ⟨_, hhist.symm⟩, ⟨hhist, ?_, s.sink.slots_length_le⟩, ?_⟩
  · intro calls addr hm
    obtain ⟨queued, hqs, rfl, -⟩ := ht.queued_of_mem_flips hm
    exact ⟨by simp [KMSSink.requestComplete_eq hqs], queued, hqs, rfl⟩
  · have hlen := congrArg List.length hhist
    rw [List.length_append] at hlen
    omega
  · intro calls camRequest hret
    cases hd : s.sink.displays camRequest with
    | none => rw [KMSSink.processRequest_dropped hd]
    | some drmBuffer =>
      cases hqs : s.sink.queued_ with
      | none => rw [KMSSink.processRequest_queued hd hqs] at hret; cases hret
      | some queued => rw [KMSSink.processRequest_pending hd hqs] at hret; cases hret

/-- A sink configured for one display, with the framebuffer `30` for the buffer at address `1`; its device has
exactly the properties that the sink sets, with the ids from `10` on. -/
def oneDisplay : KmsState :=
  let names := ["CRTC_ID", "FB_ID", "SRC_X", "SRC_Y", "SRC_W", "SRC_H", "CRTC_X", "CRTC_Y", "CRTC_W", "CRTC_H"]
  let ids := (List.range 10).map fun i => UInt32.ofNat (10 + i)
  let dev : DRM.Device :=
    { crtcs_ := [⟨⟨1, []⟩, 0, [0]⟩]
      encoders_ := [⟨⟨2, []⟩, [0]⟩]
      connectors_ := [⟨⟨3, [⟨10, 0⟩]⟩, 11, "HDMI-A-1", .Connected, [0], [⟨1920, 1080, 60⟩]⟩]
      planes_ := [⟨⟨4, ids.map (⟨·, 0⟩)⟩, some .TypePrimary, [], [0], 1⟩]
      properties_ := List.zipWith (fun id name => ⟨⟨id, []⟩, name⟩) ids names
      objects_ := .ofList (ids.zipIdx.map fun entry => (entry.1, DRM.ObjectRef.property entry.2)) }
  let sink : KMSSink :=
    { KMSSink.ofDevice dev with
      connector_ := some 0, crtc_ := some 0, plane_ := some 0, mode_ := some 0, size_ := ⟨640, 480⟩, x_ := 640,
      y_ := 300, buffers_ := [(1, ⟨30, ∅⟩)] }
  ⟨sink, [], [], [], false⟩

def oneBuffer (addr : Nat) : Libcamera.Request := ⟨addr, [(0, 1)], by decide⟩

/-- An atomic request at address `addr` of which everything succeeds but the commit, which returns `ret`. -/
def committing (addr : Nat) (ret : Int) : AtomicCalls := ⟨addr, true, fun _ => 0, ret⟩

theorem initial_oneDisplay : machine.init oneDisplay := ⟨rfl, rfl, rfl, rfl, rfl, rfl, rfl⟩

theorem slots_fifo_two :
    ∃ s, machine.replay oneDisplay
        [.frame (committing 100 0) (oneBuffer 50), .frame (committing 200 0) (oneBuffer 60),
          .flip (committing 0 0) 100] = some s ∧
      s.accepted = s.emitted ++ s.sink.slots ∧ s.sink.slots = [oneBuffer 50, oneBuffer 60] := by
  refine ⟨_, rfl, ?_, rfl⟩
  have hrun : machine.replay oneDisplay [.frame (committing 100 0) (oneBuffer 50),
    .frame (committing 200 0) (oneBuffer 60), .flip (committing 0 0) 100] = some _ := rfl
  exact (slots_fifo (Machine.reachable_of_replay initial_oneDisplay hrun)).2.2.2.1.1

/-! ### Failed commits -/

/-- Every request that waits for its page flip will get one: the event of `queued_` is outstanding. -/
def AwaitsFlip (s : KmsState) : Prop :=
  ∀ queued, s.sink.queued_ = some queued → queued.drmRequest_.addr ∈ s.flips

/-- If the step commits, the commit succeeds: libdrm accepts the request and the kernel takes it.  A frame is
committed when it can be displayed and nothing is queued, a pending request when the queued one completes. -/
def CommitSucceeds (s : KmsState) : KmsEvent → Prop
  | .frame calls camRequest => ∀ drmBuffer, s.sink.displays camRequest = some drmBuffer → s.sink.queued_ = none →
      AtomicRequest.Accepts s.sink.dev_ calls (s.sink.frameChanges drmBuffer) ∧ 0 ≤ calls.commit
  | .flip calls _ => ∀ pending, s.sink.pending_ = some pending →
      pending.drmRequest_.valid_ = true ∧ 0 ≤ calls.commit

private theorem awaitsFlip_frame {s : KmsState} {calls : AtomicCalls} {camRequest : Libcamera.Request} (ht : s.Tracks)
    (ha : s.AwaitsFlip) :
    (s.processRequest calls camRequest).2.AwaitsFlip ↔ s.CommitSucceeds (.frame calls camRequest) := by
  cases hd : s.sink.displays camRequest with
  | none =>
    rw [processRequest_dropped hd]
    simp [CommitSucceeds, hd, ha]
  | some drmBuffer =>
    cases hq : s.sink.queued_ with
    | none =>
      have hvalid : (s.sink.newRequest calls drmBuffer camRequest).drmRequest_.valid_ = true ↔
          AtomicRequest.Accepts s.sink.dev_ calls (s.sink.frameChanges drmBuffer) :=
        AtomicRequest.addProperties_valid _ _ _
      rw [processRequest_queued hd hq, AtomicRequest.commitFlips_async, ht.flips_eq_nil hq]
      by_cases hok : (s.sink.newRequest calls drmBuffer camRequest).drmRequest_.valid_ = true ∧ 0 ≤ calls.commit
      · rw [if_pos hok]
        rw [hvalid] at hok
        simp [AwaitsFlip, CommitSucceeds, hd, hq, hok]
      · rw [if_neg hok]
        rw [hvalid] at hok
        simp [AwaitsFlip, CommitSucceeds, hd, hq, hok]
    | some queued =>
      rw [processRequest_pending hd hq]
      simp only [CommitSucceeds, hq, reduceCtorEq, false_implies, implies_true, iff_true]
      intro q hqs
      exact ha q (hq.trans hqs)

private theorem awaitsFlip_flip {s : KmsState} {calls : AtomicCalls} {addr : Nat} (ht : s.Tracks)
    (hm : addr ∈ s.flips) :
    (s.pageFlipComplete calls addr).2.AwaitsFlip ↔ s.CommitSucceeds (.flip calls addr) := by
  obtain ⟨queued, -, -, heq⟩ := pageFlipComplete_eq calls ht hm
  rw [heq]
  cases hp : s.sink.pending_ with
  | none => simp [AwaitsFlip, CommitSucceeds, hp]
  | some p =>
    simp only [AwaitsFlip, CommitSucceeds, hp, Option.elim, AtomicRequest.commitFlips_async, Option.some.injEq,
      forall_eq']
    by_cases hok : p.drmRequest_.valid_ = true ∧ 0 ≤ calls.commit
    · simp [hok]
    · simp [hok]

/-- A run leaves no queued request without its page flip if and only if every commit made in it succeeds. -/
theorem queued_awaits_flip_iff {s t : KmsState} {es : List KmsEvent} (hs : machine.init s)
    (hr : machine.Run s es t) : machine.AllStates AwaitsFlip s es ↔ machine.AllSteps CommitSucceeds s es := by
  have hawaits : s.AwaitsFlip := by
    intro queued hq
    rw [hs.2.1] at hq
    cases hq
  refine hr.allStates_iff (I := Tracks) (fun _ _ _ ht hstep => ht.step hstep) ?_ (Initial.tracks hs) hawaits
  intro s e s' ht ha hstep
  rcases step_eq_some hstep with ⟨calls, camRequest, rfl, rfl⟩ | ⟨calls, addr, rfl, hm, rfl⟩
  · exact awaitsFlip_frame ht ha
  · exact awaitsFlip_flip ht hm

theorem queued_awaits_flip_iff_one :
    machine.AllStates AwaitsFlip oneDisplay
        [.frame (committing 100 0) (oneBuffer 50), .flip (committing 0 0) 100] ↔
      machine.AllSteps CommitSucceeds oneDisplay
        [.frame (committing 100 0) (oneBuffer 50), .flip (committing 0 0) 100] :=
  queued_awaits_flip_iff initial_oneDisplay (Machine.run_of_replay rfl)

/-- A frame whose commit the kernel refuses with `EBUSY`: it is queued all the same, and no page flip will come. -/
theorem refused_commit_wedges :
    ∃ t, machine.init oneDisplay ∧ machine.Run oneDisplay [.frame (committing 100 (-16)) (oneBuffer 50)] t ∧
      t.sink.queued_.map (·.camRequest_) = some (oneBuffer 50) ∧ t.flips = [] ∧ ¬t.AwaitsFlip := by
  refine ⟨_, initial_oneDisplay, Machine.run_of_replay rfl, rfl, rfl, ?_⟩
  intro h
  exact absurd (h _ rfl) (by decide)

/-- With every commit successful, the same holds in every reachable state. -/
theorem awaitsFlip_of_reachable {s : KmsState} (h : machine.ReachableVia CommitSucceeds s) : s.AwaitsFlip := by
  have hboth : s.Tracks ∧ s.AwaitsFlip := by
    refine Machine.ReachableVia.invariant (M := machine) (P := fun s => s.Tracks ∧ s.AwaitsFlip) ?_ ?_ h
    · intro s hi
      refine ⟨Initial.tracks hi, fun queued hq => ?_⟩
      rw [hi.2.1] at hq
      cases hq
    · rintro s e s' ⟨ht, ha⟩ hg hstep
      refine ⟨ht.step hstep, ?_⟩
      rcases step_eq_some hstep with ⟨calls, camRequest, rfl, rfl⟩ | ⟨calls, addr, rfl, hm, rfl⟩
      · exact (awaitsFlip_frame ht ha).2 hg
      · exact (awaitsFlip_flip ht hm).2 hg
  exact hboth.2

end KmsState

end Twincam
