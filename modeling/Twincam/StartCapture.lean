import Std.Tactic.Do
import Twincam.CameraSession
import Twincam.Errno
import Twincam.Lib.CallLog
import Mathlib.Algebra.Order.BigOperators.Group.List
import Mathlib.Data.List.Pairwise
import Mathlib.Data.List.Sort

/-!
# Starting the capture (`CameraSession::startCapture` in `camera_session.cpp`)

`startCapture` allocates the buffers of the streams, makes as many requests as the scarcest stream has buffers, starts
the sink and the camera and queues the requests.  It can fail at every call.

* `startCapture_spec` says what it leaves behind: a set of disjoint requests that are queued when it returns 0, and
  otherwise no camera and no sink that it started and did not stop.
* `Captured.initial`: with these requests the session starts in an initial state of its machine.
-/

namespace Twincam

open Libcamera (StreamPtr FrameBufferPtr StreamConfiguration)
open CallLog
open Std.Do

set_option mvcgen.warning false

/-- A request of `startCapture`: its address and its `BufferMap`, which is sorted by the streams. -/
structure CaptureRequest where
  addr : Nat
  buffers : List (StreamPtr × FrameBufferPtr)
deriving DecidableEq

/-- The calls of `startCapture`, with the request that a call yields or what it returns. -/
inductive CaptureCall
  | allocate (stream : StreamPtr) (ret : Int32)
  | createRequest (request : Option Nat)
  | addBuffer (request : Nat) (stream : StreamPtr) (buffer : FrameBufferPtr) (ret : Int)
  | mapBuffer (buffer : FrameBufferPtr)
  | sinkStart (ret : Int)
  | cameraStart (ret : Int)
  | queueRequest (request : Nat) (ret : Int)
  | cameraStop
  | sinkStop
deriving DecidableEq

/-- How libcamera and the sink, if there is one, answer after the calls so far.  As documented, the allocator returns
the number of buffers it then holds for the stream.  No two buffers are one object, and neither are two requests, all
of which live on. -/
structure CaptureAnswers where
  allocate : List CaptureCall → StreamPtr → Int32
  buffers : StreamPtr → List FrameBufferPtr
  createRequest : List CaptureCall → Option Nat
  addBuffer : List CaptureCall → Nat → StreamPtr → FrameBufferPtr → Int
  hasSink : Bool
  sinkStart : List CaptureCall → Int
  cameraStart : List CaptureCall → Int
  queueRequest : List CaptureCall → Nat → Int
  allocate_eq : ∀ calls stream, 0 ≤ (allocate calls stream).toInt →
    (allocate calls stream).toInt = (buffers stream).length
  buffers_nodup : ∀ stream, (buffers stream).Nodup
  buffers_disjoint : ∀ stream stream', stream ≠ stream' → (buffers stream).Disjoint (buffers stream')
  createRequest_new : ∀ calls addr, createRequest calls = some addr → .createRequest (some addr) ∉ calls

/-- What `startCapture` changes: two members of the session, and the calls so far. -/
structure CaptureState where
  requests_ : List CaptureRequest
  queueCount_ : UInt32
  calls : List CaptureCall

/-- How `startCapture` ends before its last line: with a `return`, or with an access past the end of a vector. -/
inductive CaptureExit
  | ret (ret : Int)
  | outOfRange
deriving DecidableEq

/-- A part of `startCapture`, which may return from it. -/
abbrev CaptureM := EStateM CaptureExit CaptureState

namespace StartCapture

section Model

variable (answers : CaptureAnswers)

/-! ### The calls -/

def call (c : CaptureCall) : CaptureM Unit := modify fun s => { s with calls := s.calls ++ [c] }

def allocate (stream : StreamPtr) : CaptureM Int32 := do
  let ret := answers.allocate (← get).calls stream
  call (.allocate stream ret)
  return ret

def createRequest : CaptureM (Option Nat) := do
  let request := answers.createRequest (← get).calls
  call (.createRequest request)
  return request

def addBuffer (request : Nat) (stream : StreamPtr) (buffer : FrameBufferPtr) : CaptureM Int := do
  let ret := answers.addBuffer (← get).calls request stream buffer
  call (.addBuffer request stream buffer ret)
  return ret

def sinkStart : CaptureM Int := do
  let ret := answers.sinkStart (← get).calls
  call (.sinkStart ret)
  return ret

def cameraStart : CaptureM Int := do
  let ret := answers.cameraStart (← get).calls
  call (.cameraStart ret)
  return ret

/-- `CameraSession::queueRequest`. -/
def queueRequest (request : Nat) : CaptureM Int := do
  modify fun s => { s with queueCount_ := s.queueCount_ + 1 }
  let ret := answers.queueRequest (← get).calls request
  call (.queueRequest request ret)
  return ret

/-! ### The loops -/

/-- The loop over the streams that allocates their buffers; it yields `nbuffers`. -/
def allocateBuffers (config : List StreamConfiguration) : CaptureM Nat := do
  let mut nbuffers := 2 ^ 32 - 1
  for cfg in config do
    let ret ← allocate answers cfg.stream
    if ret < 0 then
      throw (.ret (-ENOMEM))
    nbuffers := min nbuffers (answers.buffers cfg.stream).length
  return nbuffers

/-- The body of the loop that makes the requests: a request with buffer `i` of every stream. -/
def makeRequest (config : List StreamConfiguration) (i : Nat) : CaptureM Unit := do
  let some addr ← createRequest answers | throw (.ret (-ENOMEM))
  let mut request : CaptureRequest := ⟨addr, []⟩
  for cfg in config do
    let some buffer := (answers.buffers cfg.stream)[i]? | throw .outOfRange
    let ret ← addBuffer answers addr cfg.stream buffer
    if ret < 0 then
      throw (.ret ret)
    request := { request with buffers := request.buffers.orderedInsert (·.1 ≤ ·.1) (cfg.stream, buffer) }
    if answers.hasSink then
      call (.mapBuffer buffer)
  modify fun s => { s with requests_ := s.requests_ ++ [request] }

def startSink : CaptureM Unit := do
  if answers.hasSink then
    let ret ← sinkStart answers
    if ret ≠ 0 then
      throw (.ret ret)

def startCamera : CaptureM Unit := do
  let ret ← cameraStart answers
  if ret ≠ 0 then
    if answers.hasSink then
      call .sinkStop
    throw (.ret ret)

/-- The loop that queues the requests. -/
def queueRequests (requests : List CaptureRequest) : CaptureM Unit := do
  for request in requests do
    let ret ← queueRequest answers request.addr
    if ret < 0 then
      call .cameraStop
      if answers.hasSink then
        call .sinkStop
      throw (.ret ret)

end Model

end StartCapture

open StartCapture in
/-- `CameraSession::startCapture`. -/
def startCapture (answers : CaptureAnswers) (config : List StreamConfiguration) : CaptureM Unit := do
  let nbuffers ← allocateBuffers answers config
  for i in List.range nbuffers do
    makeRequest answers config i
  startSink answers
  startCamera answers
  queueRequests answers (← get).requests_

namespace StartCapture

variable {answers : CaptureAnswers} {config : List StreamConfiguration}

/-! ### What holds between the parts -/

/-- The calls before the sink and the camera are started. -/
def IsSetup : CaptureCall → Prop
  | .allocate .. | .createRequest .. | .addBuffer .. | .mapBuffer .. => True
  | .sinkStart .. | .cameraStart .. | .queueRequest .. | .cameraStop | .sinkStop => False

/-- What was started has been stopped. -/
structure Unwound (calls : List CaptureCall) : Prop where
  camera : FollowedBy (.cameraStart 0) .cameraStop calls
  sink : FollowedBy (.sinkStart 0) .sinkStop calls

/-- The function has returned an error and has stopped what it started. -/
def Failed (e : CaptureExit) (s : CaptureState) : Prop := (∃ ret, e = .ret ret ∧ ret ≠ 0) ∧ Unwound s.calls

/-- The numbers of buffers of the streams. -/
def bufferCounts (answers : CaptureAnswers) (config : List StreamConfiguration) : List Nat :=
  config.map fun cfg => (answers.buffers cfg.stream).length

/-- The request holds buffer `i` of every stream, and nothing else. -/
def Holds (answers : CaptureAnswers) (config : List StreamConfiguration) (i : Nat) (request : CaptureRequest) : Prop :=
  (request.buffers.map some).Perm
    (config.map fun cfg => (answers.buffers cfg.stream)[i]?.map fun buffer => (cfg.stream, buffer))

/-- The first `n` requests are made, and nothing is started. -/
structure Made (answers : CaptureAnswers) (config : List StreamConfiguration) (n : Nat) (s : CaptureState) : Prop where
  length : s.requests_.length = n
  holds : ∀ i request, s.requests_[i]? = some request → Holds answers config i request
  created : ∀ request ∈ s.requests_, .createRequest (some request.addr) ∈ s.calls
  nodup : (s.requests_.map (·.addr)).Nodup
  mapped : answers.hasSink = true → ∀ request ∈ s.requests_, ∀ p ∈ request.buffers, .mapBuffer p.2 ∈ s.calls
  setup : ∀ c ∈ s.calls, IsSetup c

/-- The next request has the buffers of the streams `streams` so far. -/
structure Filling (answers : CaptureAnswers) (config : List StreamConfiguration) (n : Nat)
    (streams : List StreamConfiguration) (request : CaptureRequest) (s : CaptureState) : Prop where
  made : Made answers config n s
  holds : Holds answers streams n request
  created : .createRequest (some request.addr) ∈ s.calls
  new : ∀ r ∈ s.requests_, r.addr ≠ request.addr
  mapped : answers.hasSink = true → ∀ p ∈ request.buffers, .mapBuffer p.2 ∈ s.calls

/-- The requests are made, and the calls `started` come after the ones that made them. -/
def MadeThen (answers : CaptureAnswers) (config : List StreamConfiguration) (n : Nat) (started : List CaptureCall)
    (s : CaptureState) : Prop :=
  ∃ setup, s.calls = setup ++ started ∧ Made answers config n { s with calls := setup }

private theorem Unwound.of_setup {calls : List CaptureCall} (h : ∀ c ∈ calls, IsSetup c) : Unwound calls :=
  ⟨followedBy_of_notMem fun hmem => h _ hmem, followedBy_of_notMem fun hmem => h _ hmem⟩

private theorem Made.failed {n : Nat} {s : CaptureState} (h : Made answers config n s) {ret : Int} (hret : ret ≠ 0) :
    Failed (.ret ret) s :=
  ⟨⟨ret, rfl, hret⟩, Unwound.of_setup h.setup⟩

private theorem Made.call {n : Nat} {s : CaptureState} (h : Made answers config n s) (c : CaptureCall)
    (hc : IsSetup c) :
    Made answers config n { s with calls := s.calls ++ [c] } where
  length := h.length
  holds := h.holds
  created request hmem := List.mem_append_left _ (h.created request hmem)
  nodup := h.nodup
  mapped hsink request hmem p hp := List.mem_append_left _ (h.mapped hsink request hmem p hp)
  setup c' hmem := by
    rcases List.mem_append.1 hmem with hold | hnew
    · exact h.setup c' hold
    · rw [List.mem_singleton.1 hnew]
      exact hc

/-! ### The allocation -/

private theorem min?_bufferCounts {n : Nat} (hn : n = (bufferCounts answers config).foldl min (2 ^ 32 - 1))
    (hle : ∀ count ∈ bufferCounts answers config, count ≤ 2 ^ 32 - 1) (hne : config ≠ []) :
    (bufferCounts answers config).min? = some n := by
  cases hcounts : bufferCounts answers config with
  | nil => exact absurd (List.map_eq_nil_iff.1 hcounts) hne
  | cons count counts =>
    rw [hcounts] at hn hle
    have hmin : min (2 ^ 32 - 1) count = count := min_eq_right (hle count List.mem_cons_self)
    rw [hn, List.foldl_cons, hmin, List.min?_cons']

/-- A successful `allocate` leaves no more buffers than an `int` can count. -/
private theorem length_buffers_le {calls : List CaptureCall} {stream : StreamPtr}
    (h : ¬answers.allocate calls stream < 0) :
    (answers.buffers stream).length ≤ 2 ^ 32 - 1 := by
  have hnonneg : 0 ≤ (answers.allocate calls stream).toInt := by
    rw [Int32.lt_iff_toInt_lt] at h
    simpa using h
  have heq := answers.allocate_eq calls stream hnonneg
  have hlt := (answers.allocate calls stream).toInt_lt
  omega

/-- The allocation yields the least number of buffers, for no number that the allocator returns reaches the start value
of the minimum. -/
private theorem allocateBuffers_spec (hne : config ≠ []) :
    ⦃fun s => ⌜Made answers config 0 s⌝⦄ allocateBuffers answers config
    ⦃post⟨fun n s => ⌜Made answers config 0 s ∧ (bufferCounts answers config).min? = some n⌝,
      fun e s => ⌜Failed e s⌝⟩⦄ := by
  mvcgen [allocateBuffers, allocate, call]
  case inv1 =>
    exact post⟨fun ⟨⟨streams, _, _⟩, n⟩ s => ⌜Made answers config 0 s ∧
        n = (bufferCounts answers streams).foldl min (2 ^ 32 - 1) ∧
        ∀ count ∈ bufferCounts answers streams, count ≤ 2 ^ 32 - 1⌝,
      fun e s => ⌜Failed e s⌝⟩
  case vc1.step.isTrue streams cfg rest hsplit n s hinv ret _ _ hret =>
    exact (hinv.1.call (.allocate cfg.stream ret) trivial).failed (by decide)
  case vc2.step.isFalse streams cfg rest hsplit n s hinv ret _ _ hret _ =>
    obtain ⟨hmade, hn, hle⟩ := hinv
    have hcounts : bufferCounts answers (streams ++ [cfg]) =
        bufferCounts answers streams ++ [(answers.buffers cfg.stream).length] := by
      simp [bufferCounts]
    refine ⟨hmade.call (.allocate cfg.stream ret) trivial, ?_, ?_⟩
    · rw [hcounts, List.foldl_append, ← hn]
      rfl
    · rw [hcounts]
      intro count hmem
      rcases List.mem_append.1 hmem with hold | hnew
      · exact hle count hold
      · rw [List.mem_singleton.1 hnew]
        exact length_buffers_le hret
  case vc3.pre hmade => exact ⟨hmade, rfl, by simp [bufferCounts]⟩
  case vc4.post.success n s hinv => exact ⟨hinv.1, min?_bufferCounts hinv.2.1 hinv.2.2 hne⟩
  case vc5.post.except => exact ExceptConds.entails.rfl

/-! ### The requests -/

private theorem Filling.call {n : Nat} {streams : List StreamConfiguration} {request : CaptureRequest}
    {s : CaptureState} (h : Filling answers config n streams request s) (c : CaptureCall) (hc : IsSetup c) :
    Filling answers config n streams request { s with calls := s.calls ++ [c] } where
  made := h.made.call c hc
  holds := h.holds
  created := List.mem_append_left _ h.created
  new := h.new
  mapped hsink p hp := List.mem_append_left _ (h.mapped hsink p hp)

/-- A new request is a different object than those in `requests_`. -/
private theorem Filling.init {n : Nat} {s : CaptureState} (h : Made answers config n s) {addr : Nat}
    (haddr : answers.createRequest s.calls = some addr) :
    Filling answers config n [] ⟨addr, []⟩
      { s with calls := s.calls ++ [.createRequest (answers.createRequest s.calls)] } where
  made := h.call (.createRequest _) trivial
  holds := List.Perm.refl _
  created := by simp [haddr]
  new r hmem heq := by
    have hcreated := h.created r hmem
    rw [heq] at hcreated
    exact answers.createRequest_new s.calls addr haddr hcreated
  mapped _ p hp := by cases hp

private theorem Filling.insert {n : Nat} {streams : List StreamConfiguration} {request : CaptureRequest}
    {s : CaptureState}
    (h : Filling answers config n streams request s) {cfg : StreamConfiguration} {buffer : FrameBufferPtr}
    (hbuffer : (answers.buffers cfg.stream)[n]? = some buffer)
    (hmapped : answers.hasSink = true → .mapBuffer buffer ∈ s.calls) :
    Filling answers config n (streams ++ [cfg])
      { request with buffers := request.buffers.orderedInsert (·.1 ≤ ·.1) (cfg.stream, buffer) } s where
  made := h.made
  holds := by
    have hperm := (List.perm_orderedInsert (fun p q : StreamPtr × FrameBufferPtr => p.1 ≤ q.1) (cfg.stream, buffer)
      request.buffers).map some
    unfold Holds
    rw [List.map_append, List.map_singleton, hbuffer]
    refine hperm.trans (List.Perm.trans ?_ (List.perm_append_singleton _ _).symm)
    exact h.holds.cons _
  created := h.created
  new := h.new
  mapped hsink p hp := by
    rcases List.mem_cons.1 ((List.perm_orderedInsert _ _ _).mem_iff.1 hp) with hnew | hold
    · rw [hnew]
      exact hmapped hsink
    · exact h.mapped hsink p hold

private theorem Filling.push {n : Nat} {request : CaptureRequest} {s : CaptureState}
    (h : Filling answers config n config request s) :
    Made answers config (n + 1) { s with requests_ := s.requests_ ++ [request] } where
  length := by
    rw [List.length_append, h.made.length]
    rfl
  holds i r hr := by
    have hlt : i < (s.requests_ ++ [request]).length := (List.getElem?_eq_some_iff.1 hr).1
    rw [List.length_append, List.length_singleton, h.made.length] at hlt
    rcases Nat.lt_succ_iff_lt_or_eq.1 hlt with hold | hnew
    · rw [List.getElem?_append_left (by rwa [h.made.length])] at hr
      exact h.made.holds i r hr
    · rw [hnew, ← h.made.length, List.getElem?_concat_length, Option.some.injEq] at hr
      rw [hnew, ← hr]
      exact h.holds
  created r hmem := by
    rcases List.mem_append.1 hmem with hold | hnew
    · exact h.made.created r hold
    · rw [List.mem_singleton.1 hnew]
      exact h.created
  nodup := by
    rw [List.map_append, List.map_singleton]
    refine h.made.nodup.append (List.nodup_singleton _) (List.disjoint_singleton.2 fun hmem => ?_)
    obtain ⟨r, hr, heq⟩ := List.mem_map.1 hmem
    exact h.new r hr heq
  mapped hsink r hmem p hp := by
    rcases List.mem_append.1 hmem with hold | hnew
    · exact h.made.mapped hsink r hold p hp
    · rw [List.mem_singleton.1 hnew] at hp
      exact h.mapped hsink p hp
  setup := h.made.setup

private theorem makeRequest_spec {i : Nat} (hi : ∀ count ∈ bufferCounts answers config, i < count) :
    ⦃fun s => ⌜Made answers config i s⌝⦄ makeRequest answers config i
    ⦃post⟨fun _ s => ⌜Made answers config (i + 1) s⌝, fun e s => ⌜Failed e s⌝⟩⦄ := by
  mvcgen [makeRequest, createRequest, addBuffer, call]
  case inv1 =>
    exact post⟨fun ⟨⟨streams, _, _⟩, request⟩ s => ⌜Filling answers config i streams request s⌝,
      fun e s => ⌜Failed e s⌝⟩
  case vc1.step.h_1.isTrue cfg _ _ _ buffer _ s hinv ret _ _ hret =>
    -- `addBuffer` fails
    exact (hinv.call (.addBuffer _ cfg.stream buffer ret) trivial).made.failed (ne_of_lt hret)
  case vc2.step.h_1.isFalse.isTrue cfg _ _ _ buffer hbuffer s hinv ret _ _ _ _ _ _ =>
    exact ((hinv.call (.addBuffer _ cfg.stream buffer ret) trivial).call (.mapBuffer buffer) trivial).insert hbuffer
      fun _ => List.mem_append_right _ (List.mem_singleton_self _)
  case vc3.step.h_1.isFalse.isFalse cfg _ _ _ buffer hbuffer s hinv ret _ _ _ _ hsink =>
    exact (hinv.call (.addBuffer _ cfg.stream buffer ret) trivial).insert hbuffer fun h => absurd h hsink
  case vc4.step.h_2 cfg rest hsplit _ buffer hnone hbuffer s _ =>
    -- every stream has a buffer `i`
    have hmem : (answers.buffers cfg.stream).length ∈ bufferCounts answers config := by
      rw [hsplit]
      simp [bufferCounts]
    have hsome := List.getElem?_eq_getElem (hi _ hmem)
    exact (hnone _ (hbuffer.symm.trans hsome)).elim
  case vc5.h_1.pre s hmade _ _ addr haddr _ => exact Filling.init hmade haddr
  case vc6.h_1.post.success hinv _ => exact hinv.push
  case vc7.h_1.post.except => exact ExceptConds.entails.rfl
  case vc8.h_2 s hmade request _ _ _ _ => exact (hmade.call (.createRequest request) trivial).failed (by decide)

/-! ### Starting and stopping -/

/-- The start of the sink, if there is one. -/
def sinkStarts (answers : CaptureAnswers) : List CaptureCall := if answers.hasSink then [.sinkStart 0] else []

/-- The request that is queued by a call, if one is. -/
def queued? : CaptureCall → Option Nat
  | .queueRequest request _ => some request
  | _ => none

private theorem MadeThen.call {n : Nat} {started : List CaptureCall} {s : CaptureState}
    (h : MadeThen answers config n started s) (c : CaptureCall) :
    MadeThen answers config n (started ++ [c]) { s with calls := s.calls ++ [c] } := by
  obtain ⟨setup, hcalls, hmade⟩ := h
  exact ⟨setup, by rw [hcalls, List.append_assoc], hmade⟩

/-- A call that does not belong to the setup comes after it. -/
private theorem MadeThen.mem {n : Nat} {started : List CaptureCall} {s : CaptureState}
    (h : MadeThen answers config n started s) {c : CaptureCall} (hmem : c ∈ s.calls) (hc : IsSetup c → False) :
    c ∈ started := by
  obtain ⟨setup, hcalls, hmade⟩ := h
  rw [hcalls] at hmem
  exact (List.mem_append.1 hmem).resolve_left fun hin => hc (hmade.setup c hin)

private theorem hasSink_of_sinkStarts {c : CaptureCall} (h : c ∈ sinkStarts answers) : answers.hasSink = true := by
  unfold sinkStarts at h
  split at h
  · assumption
  · cases h

/-- The requests `done` are queued, in this order, to the camera that was started. -/
def Queued (answers : CaptureAnswers) (config : List StreamConfiguration) (n : Nat) (done : List CaptureRequest)
    (s : CaptureState) : Prop :=
  ∃ queue, MadeThen answers config n (sinkStarts answers ++ [.cameraStart 0] ++ queue) s ∧
    queue.map queued? = done.map (some ·.addr)

private theorem Queued.notMem {n : Nat} {done : List CaptureRequest} {s : CaptureState}
    (h : Queued answers config n done s) (hsink : answers.hasSink ≠ true) : .sinkStart 0 ∉ s.calls := by
  obtain ⟨queue, hmade, hqueue⟩ := h
  intro hmem
  rcases List.mem_append.1 (hmade.mem hmem id) with hstart | hin
  · rcases List.mem_append.1 hstart with hs | hs
    · exact hsink (hasSink_of_sinkStarts hs)
    · exact absurd (List.mem_singleton.1 hs) (by simp)
  · -- a call of the loop queues a request
    have hnone : none ∈ queue.map queued? := List.mem_map.2 ⟨_, hin, rfl⟩
    rw [hqueue] at hnone
    simp at hnone

private theorem Queued.call {n : Nat} {done : List CaptureRequest} {s : CaptureState}
    (h : Queued answers config n done s) (request : CaptureRequest) (ret : Int) (queueCount : UInt32) :
    Queued answers config n (done ++ [request])
      ⟨s.requests_, queueCount, s.calls ++ [.queueRequest request.addr ret]⟩ := by
  obtain ⟨queue, hmade, hqueue⟩ := h
  refine ⟨queue ++ [.queueRequest request.addr ret], ?_, ?_⟩
  · obtain ⟨setup, hcalls, hsetup⟩ := hmade.call (.queueRequest request.addr ret)
    rw [List.append_assoc] at hcalls
    exact ⟨setup, hcalls, hsetup.length, hsetup.holds, hsetup.created, hsetup.nodup, hsetup.mapped, hsetup.setup⟩
  · rw [List.map_append, List.map_append, hqueue]
    rfl

private theorem startSink_spec {n : Nat} :
    ⦃fun s => ⌜Made answers config n s⌝⦄ startSink answers
    ⦃post⟨fun _ s => ⌜MadeThen answers config n (sinkStarts answers) s⌝, fun e s => ⌜Failed e s⌝⟩⦄ := by
  mvcgen [startSink, sinkStart, call]
  case vc1.isTrue.isTrue hsink s hmade ret _ hret =>
    have hcalls : MadeThen answers config n [.sinkStart ret] { s with calls := s.calls ++ [.sinkStart ret] } :=
      ⟨s.calls, rfl, hmade⟩
    refine ⟨⟨ret, rfl, hret⟩, followedBy_of_notMem fun hmem => ?_, followedBy_of_notMem fun hmem => ?_⟩
    · exact absurd (List.mem_singleton.1 (hcalls.mem hmem id)) (by simp)
    · have heq := List.mem_singleton.1 (hcalls.mem hmem id)
      rw [CaptureCall.sinkStart.injEq] at heq
      exact hret heq.symm
  case vc2.isTrue.isFalse hsink s hmade ret _ hret =>
    refine ⟨s.calls, ?_, hmade⟩
    rw [sinkStarts, if_pos hsink, ← not_not.1 hret]
  case vc3.isFalse hsink s hmade =>
    refine ⟨s.calls, ?_, hmade⟩
    rw [sinkStarts, if_neg hsink, List.append_nil]

private theorem startCamera_spec {n : Nat} :
    ⦃fun s => ⌜MadeThen answers config n (sinkStarts answers) s⌝⦄ startCamera answers
    ⦃post⟨fun _ s => ⌜Queued answers config n [] s⌝, fun e s => ⌜Failed e s⌝⟩⦄ := by
  mvcgen [startCamera, cameraStart, call]
  case vc1.isTrue.isTrue s hmade ret _ hret _ hsink _ =>
    have hcalls := (hmade.call (.cameraStart ret)).call .sinkStop
    refine ⟨⟨ret, rfl, hret⟩, followedBy_of_notMem fun hmem => ?_, followedBy_concat (by simp)⟩
    have hin := hcalls.mem hmem id
    simp [sinkStarts, hsink, hret.symm] at hin
  case vc2.isTrue.isFalse s hmade ret _ hret _ hsink =>
    have hcalls := hmade.call (.cameraStart ret)
    refine ⟨⟨ret, rfl, hret⟩, followedBy_of_notMem fun hmem => ?_, followedBy_of_notMem fun hmem => ?_⟩
    · have hin := hcalls.mem hmem id
      simp [sinkStarts, hsink, hret.symm] at hin
    · have hin := hcalls.mem hmem id
      simp [sinkStarts, hsink] at hin
  case vc3.isFalse s hmade ret _ hret =>
    refine ⟨[], ?_, rfl⟩
    rw [List.append_nil, ← not_not.1 hret]
    exact hmade.call (.cameraStart ret)

private theorem queueRequests_spec {n : Nat} {requests : List CaptureRequest} :
    ⦃fun s => ⌜Queued answers config n [] s ∧ s.requests_ = requests⌝⦄ queueRequests answers requests
    ⦃post⟨fun _ s => ⌜Queued answers config n requests s ∧ s.requests_ = requests⌝, fun e s => ⌜Failed e s⌝⟩⦄ := by
  mvcgen [queueRequests, queueRequest, call]
  case inv1 =>
    exact post⟨fun ⟨⟨done, _, _⟩, _⟩ s => ⌜Queued answers config n done s ∧ s.requests_ = requests⌝,
      fun e s => ⌜Failed e s⌝⟩
  case vc1.step.isTrue.isTrue ret _ hret _ _ _ _ =>
    refine ⟨⟨ret, rfl, ne_of_lt hret⟩, ?_, followedBy_concat (by simp)⟩
    exact (followedBy_concat (by simp)).append (by simp)
  case vc2.step.isTrue.isFalse request _ _ _ s hinv _ ret _ hret _ _ hsink =>
    have hqueued := hinv.1.call request ret s.queueCount_
    refine ⟨⟨ret, rfl, ne_of_lt hret⟩, followedBy_concat (by simp), followedBy_of_notMem fun hmem => ?_⟩
    rcases List.mem_append.1 hmem with hold | hstop
    · exact hqueued.notMem hsink hold
    · exact absurd (List.mem_singleton.1 hstop) (by simp)
  case vc3.step.isFalse request _ _ _ s hinv _ ret _ _ => exact ⟨hinv.1.call request ret _, hinv.2⟩
  case vc4.pre hqueued => exact hqueued
  case vc5.post.success hinv => exact hinv
  case vc6.post.except => exact ExceptConds.entails.rfl

/-! ### The whole function -/

/-- What `startCapture` has done when it returns 0.  There are as many requests as the scarcest stream has buffers, and
request `i` holds buffer `i` of every stream; no buffer is in two of them, each was offered to the sink before the
camera was started, and each request was queued once, in the order of `requests_`. -/
structure Captured (answers : CaptureAnswers) (config : List StreamConfiguration) (s : CaptureState) : Prop where
  length : (bufferCounts answers config).min? = some s.requests_.length
  holds : ∀ i request, s.requests_[i]? = some request → Holds answers config i request
  disjoint : s.requests_.Pairwise fun request request' =>
    ∀ p ∈ request.buffers, ∀ p' ∈ request'.buffers, p.2 ≠ p'.2
  started : .cameraStart 0 ∈ s.calls
  mapped : answers.hasSink = true → ∀ request ∈ s.requests_, ∀ p ∈ request.buffers,
    Before (.mapBuffer p.2) (.cameraStart 0) s.calls
  queued : s.calls.filterMap queued? = s.requests_.map (·.addr)
  nodup : (s.requests_.map (·.addr)).Nodup

private theorem Holds.buffer {i : Nat} {request : CaptureRequest} (h : Holds answers config i request)
    {p : StreamPtr × FrameBufferPtr} (hp : p ∈ request.buffers) : (answers.buffers p.1)[i]? = some p.2 := by
  have hmem := h.mem_iff.1 (List.mem_map_of_mem hp)
  obtain ⟨cfg, -, hcfg⟩ := List.mem_map.1 hmem
  obtain ⟨buffer, hbuffer, heq⟩ := Option.map_eq_some_iff.1 hcfg
  rw [← heq]
  exact hbuffer

/-- Different indices give different buffers, of one stream or of two. -/
private theorem Holds.disjoint {i j : Nat} (hij : i ≠ j) {request request' : CaptureRequest}
    (h : Holds answers config i request) (h' : Holds answers config j request')
    {p p' : StreamPtr × FrameBufferPtr} (hp : p ∈ request.buffers) (hp' : p' ∈ request'.buffers) : p.2 ≠ p'.2 := by
  intro heq
  have hget := h.buffer hp
  have hget' := h'.buffer hp'
  by_cases hstream : p.1 = p'.1
  · rw [← hstream, ← heq] at hget'
    obtain ⟨hi, hbi⟩ := List.getElem?_eq_some_iff.1 hget
    obtain ⟨hj, hbj⟩ := List.getElem?_eq_some_iff.1 hget'
    exact hij ((answers.buffers_nodup p.1).getElem_inj_iff.1 (hbi.trans hbj.symm))
  · rw [← heq] at hget'
    exact answers.buffers_disjoint p.1 p'.1 hstream (List.mem_of_getElem? hget) (List.mem_of_getElem? hget')

/-- After the last loop everything is as it should be. -/
private theorem Queued.captured {n : Nat} {s : CaptureState} (h : Queued answers config n s.requests_ s)
    (hn : (bufferCounts answers config).min? = some n) : Captured answers config s := by
  obtain ⟨queue, ⟨setup, hcalls, hmade⟩, hqueue⟩ := h
  have hsplit : s.calls = (setup ++ sinkStarts answers) ++ .cameraStart 0 :: queue := by
    rw [hcalls]
    simp
  refine ⟨?_, hmade.holds, ?_, ?_, ?_, ?_, hmade.nodup⟩
  · rw [hn, ← hmade.length]
  · rw [List.pairwise_iff_getElem]
    intro i j hi hj hij p hp p' hp'
    exact (hmade.holds i _ (List.getElem?_eq_getElem hi)).disjoint (ne_of_lt hij)
      (hmade.holds j _ (List.getElem?_eq_getElem hj)) hp hp'
  · rw [hsplit]
    simp
  · intro hsink request hmem p hp
    rw [hsplit]
    refine before_of_single (List.mem_append_left _ (hmade.mapped hsink request hmem p hp)) ?_ ?_
    · intro hin
      rcases List.mem_append.1 hin with hs | hs
      · exact hmade.setup _ hs
      · simp [sinkStarts, hsink] at hs
    · intro hin
      have hnone : none ∈ queue.map queued? := List.mem_map.2 ⟨_, hin, rfl⟩
      rw [hqueue] at hnone
      simp at hnone
  · have hsetup : setup.filterMap queued? = [] := by
      rw [List.filterMap_eq_nil_iff]
      intro c hc
      have hset := hmade.setup c hc
      cases c <;> first | rfl | exact hset.elim
    have hsink : (sinkStarts answers).filterMap queued? = [] := by
      unfold sinkStarts
      split <;> rfl
    have hqueued : queue.filterMap queued? = s.requests_.map (·.addr) := by
      calc queue.filterMap queued? = (queue.map queued?).filterMap id := by rw [List.filterMap_map, Function.id_comp]
        _ = (s.requests_.map (some ·.addr)).filterMap id := by rw [hqueue]
        _ = s.requests_.map (·.addr) := by
          rw [List.filterMap_map, ← List.filterMap_eq_map]
          rfl
    rw [hsplit, List.filterMap_append, List.filterMap_append, hsetup, hsink, List.filterMap_cons]
    exact hqueued

/-- The index in a turn of the loop is the number of turns before. -/
private theorem index_eq {n i : Nat} {indices rest : List Nat} (h : List.range n = indices ++ i :: rest) :
    i = indices.length := by
  rw [List.range_eq_range'] at h
  have hi := List.eq_of_range'_eq_append_cons h
  rwa [Nat.one_mul, Nat.zero_add] at hi

theorem startCapture_triple (hne : config ≠ []) :
    ⦃fun s => ⌜s.requests_ = [] ∧ s.calls = []⌝⦄ startCapture answers config
    ⦃post⟨fun _ s => ⌜Captured answers config s⌝, fun e s => ⌜Failed e s⌝⟩⦄ := by
  mvcgen [startCapture, allocateBuffers_spec, makeRequest_spec, startSink_spec, startCamera_spec, queueRequests_spec]
  case inv1 =>
    exact post⟨fun ⟨⟨indices, _, _⟩, _⟩ s => ⌜Made answers config indices.length s⌝, fun e s => ⌜Failed e s⌝⟩
  case vc2.pre s hentry =>
    obtain ⟨hrequests, hcalls⟩ := hentry
    refine ⟨?_, ?_, ?_, ?_, ?_, ?_⟩
    all_goals simp [hrequests, hcalls]
  case vc3.hi n _ hn indices i _ hsplit _ _ _ =>
    -- the indices of the loop are below the least number of buffers
    intro count hcount
    have hi : i ∈ List.range n := by
      rw [hsplit]
      simp
    exact lt_of_lt_of_le (List.mem_range.1 hi) ((List.min?_eq_some_iff.1 hn.2).2 count hcount)
  case vc4.step.pre indices i _ hsplit _ _ hmade =>
    rw [index_eq hsplit]
    exact hmade
  case vc5.step.post.success indices i _ hsplit _ _ _ _ _ hmade =>
    rw [index_eq hsplit] at hmade
    simpa using hmade
  case vc6.step.post.except.handle => exact fun _ h => h
  case vc7.post.success.pre hmade => exact hmade.1
  case vc10.post.success.post.success.pre hmade => simpa using hmade
  case vc17.post.success.post.success.post.success.post.success.post.success n _ hn _ _ _ _ _ _ _ _ _ _ _ =>
    intro hqueued hrequests
    rw [← hrequests] at hqueued
    exact hqueued.captured hn.2
  case vc18.post.success.post.except => exact ExceptConds.entails.rfl

/-- What a run returns, if it returns, and the state it leaves behind. -/
def outcome : EStateM.Result CaptureExit CaptureState Unit → Option Int × CaptureState
  | .ok _ s => (some 0, s)
  | .error (.ret ret) s => (some ret, s)
  | .error .outOfRange s => (none, s)

/-- With no requests at the start, `startCapture` returns.  If it returns 0, it has made disjoint requests and queued
them; otherwise it has stopped what it started. -/
theorem startCapture_spec (answers : CaptureAnswers) {config : List StreamConfiguration} (hne : config ≠ [])
    (queueCount_ : UInt32) :
    ∃ ret s, outcome ((startCapture answers config).run ⟨[], queueCount_, []⟩) = (some ret, s) ∧
      (ret = 0 → Captured answers config s) ∧ (ret ≠ 0 → Unwound s.calls) := by
  have hspec := @startCapture_triple answers config hne
  refine EStateM.of_wp_run_eq rfl (fun r : EStateM.Result CaptureExit CaptureState Unit =>
    ∃ ret s, outcome r = (some ret, s) ∧ (ret = 0 → Captured answers config s) ∧ (ret ≠ 0 → Unwound s.calls)) ?_
  mvcgen [hspec]
  case vc1.post.success s =>
    intro hcaptured
    exact ⟨0, s, rfl, fun _ => hcaptured, fun h => absurd rfl h⟩
  case vc2.post.except.handle s =>
    rintro ⟨⟨ret, rfl, hret⟩, hunwound⟩
    exact ⟨ret, s, rfl, fun h => absurd h hret, fun _ => hunwound⟩

/-- The address of a request that was created. -/
def createdAddr : CaptureCall → Nat
  | .createRequest (some addr) => addr
  | _ => 0

/-- The buffers of two streams: two of the first one and one of the second one. -/
def twoStreamBuffers (stream : StreamPtr) : List FrameBufferPtr :=
  if stream = 0 then [10, 11] else if stream = 1 then [20] else []

private theorem stream_of_mem {stream : StreamPtr} {buffer : FrameBufferPtr} (h : buffer ∈ twoStreamBuffers stream) :
    stream = if buffer = 20 then 1 else 0 := by
  unfold twoStreamBuffers at h
  by_cases h0 : stream = 0
  · rw [if_pos h0] at h
    rcases List.mem_pair.1 h with rfl | rfl
    · exact h0
    · exact h0
  · by_cases h1 : stream = 1
    · rw [if_neg h0, if_pos h1, List.mem_singleton] at h
      rw [if_pos h, h1]
    · rw [if_neg h0, if_neg h1] at h
      cases h

/-- An allocator of these buffers, and no failure. -/
def twoStreams : CaptureAnswers where
  allocate _ stream := if stream = 0 then 2 else if stream = 1 then 1 else -22
  buffers := twoStreamBuffers
  createRequest calls := some ((calls.map createdAddr).sum + 1)
  addBuffer _ _ _ _ := 0
  hasSink := true
  sinkStart _ := 0
  cameraStart _ := 0
  queueRequest _ _ := 0
  allocate_eq _ stream h := by
    unfold twoStreamBuffers
    by_cases h0 : stream = 0
    · simp [h0]
    · by_cases h1 : stream = 1
      · simp [h1]
      · simp [h0, h1] at h
  buffers_nodup stream := by
    unfold twoStreamBuffers
    by_cases h0 : stream = 0
    · simp [h0]
    · by_cases h1 : stream = 1
      · simp [h1]
      · simp [h0, h1]
  buffers_disjoint stream stream' hne := by
    intro buffer hmem hmem'
    exact hne ((stream_of_mem hmem).trans (stream_of_mem hmem').symm)
  createRequest_new calls addr h hmem := by
    have hle : addr ≤ (calls.map createdAddr).sum := List.le_sum_of_mem (List.mem_map.2 ⟨_, hmem, rfl⟩)
    rw [Option.some.injEq] at h
    omega

/-- The configuration of two streams. -/
def twoStreamConfig : List StreamConfiguration :=
  [⟨0, Libcamera.formats.NV12, ⟨640, 480⟩, 640⟩, ⟨1, Libcamera.formats.NV12, ⟨640, 480⟩, 640⟩]

theorem startCapture_spec_two :
    ∃ s, outcome ((startCapture twoStreams twoStreamConfig).run ⟨[], 0, []⟩) = (some 0, s) ∧
      Captured twoStreams twoStreamConfig s := by
  obtain ⟨ret, s, hrun, hok, -⟩ := startCapture_spec twoStreams (show twoStreamConfig ≠ [] by decide) 0
  have hzero : (outcome ((startCapture twoStreams twoStreamConfig).run ⟨[], 0, []⟩)).1 = some 0 := by decide
  rw [hrun, Option.some.injEq] at hzero
  exact ⟨s, hzero ▸ hrun, hok hzero⟩

/-! ### The session -/

private theorem Holds.ne_nil {i : Nat} {request : CaptureRequest} (h : Holds answers config i request)
    (hne : config ≠ []) :
    request.buffers ≠ [] := by
  intro hnil
  have hlength := h.length_eq
  rw [hnil, List.length_map, List.length_map] at hlength
  exact hne (List.length_eq_zero_iff.1 hlength.symm)

/-- The requests of `startCapture` as libcamera has them: different ones, without a buffer in common. -/
theorem Captured.exists_requests (hne : config ≠ []) {s : CaptureState} (h : Captured answers config s) :
    ∃ requests : List Libcamera.Request,
      requests.map (fun r => CaptureRequest.mk r.addr r.buffers) = s.requests_ ∧ requests.Nodup ∧
      ∀ r ∈ requests, ∀ r' ∈ requests, r ≠ r' → ∀ p ∈ r.buffers, ∀ p' ∈ r'.buffers, p.2 ≠ p'.2 := by
  have hall : ∀ request ∈ s.requests_, request.buffers ≠ [] := by
    intro request hmem
    obtain ⟨i, hi, hget⟩ := List.getElem_of_mem hmem
    exact (h.holds i request (by rw [List.getElem?_eq_getElem hi, hget])).ne_nil hne
  have hmap : (s.requests_.pmap (fun request hr => (⟨request.addr, request.buffers, hr⟩ : Libcamera.Request)) hall).map
      (fun r => CaptureRequest.mk r.addr r.buffers) = s.requests_ := by
    rw [List.map_pmap]
    exact (List.pmap_eq_map _).trans (List.map_id _)
  refine ⟨_, hmap, ?_, ?_⟩
  · refine List.Nodup.of_map (·.addr) ?_
    rw [List.map_pmap, List.pmap_eq_map]
    exact h.nodup
  · have hdisjoint := h.disjoint
    rw [← hmap, List.pairwise_map] at hdisjoint
    have hsymm : Std.Symm fun a b : Libcamera.Request => ∀ p ∈ a.buffers, ∀ p' ∈ b.buffers, p.2 ≠ p'.2 :=
      ⟨fun a b hab p hp p' hp' => (hab p' hp' p hp).symm⟩
    exact fun r hr r' hr' => List.Pairwise.forall hdisjoint hr hr'

/-- The requests of `startCapture` are ones that a session can start with. -/
theorem Captured.initial (hne : config ≠ []) {s : CaptureState} (h : Captured answers config s) {session : Session}
    (hsession : session.Initial) :
    ∃ requests : List Libcamera.Request, requests.map (fun r => CaptureRequest.mk r.addr r.buffers) = s.requests_ ∧
      { session with requests_ := requests, starting := requests }.Initial := by
  obtain ⟨requests, hrequests, hnodup, -⟩ := h.exists_requests hne
  exact ⟨requests, hrequests, hnodup, rfl, hsession.2.2⟩

end StartCapture

end Twincam
