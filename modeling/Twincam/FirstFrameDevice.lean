import Std.Tactic.Do
import Twincam.FirstFrame
import Twincam.Lib.CountLoop
import Twincam.Lib.Progress

/-!
# The device of the first-frame grabber (`open_device`, `init_device`, `uninit_device` and `close_device` in
`first_frame.c`)

`init_device` picks the size of the buffers from the format of the device and allocates or maps them, and
`uninit_device` gives them back.  Whatever fails in between ends the program.  `DeviceUse` is the protocol that the
device and the memory have to be used by.

* `grabber_releases`: what `init_device` sets up is a program for the loop of `FirstFrame`, or for that of
  `IO_METHOD_READ`, whose images all start in the memory that is held, and after which everything is given back.
* `picture_fits_iff`: when the buffers of `init_read` and `init_userp` hold all the lines of a picture.
-/

namespace Twincam

namespace FirstFrame

open Std.Do

set_option mvcgen.warning false

/-! ### The program -/

/-- `enum io_method`. -/
inductive Method
  | READ
  | streaming (io : IoMethod)
deriving DecidableEq

/-- The fields of `struct v4l2_pix_format` that `init_device` reads. -/
structure PixFormat where
  width : UInt32
  height : UInt32
  bytesperline : UInt32
  sizeimage : UInt32
deriving DecidableEq

/-- The calls, with what they return; an `ioctl` that was interrupted is made again and appears once. -/
inductive DeviceCall
  | stat (isChr : Option Bool)
  | openDevice (fd : Int)
  | querycap (capabilities : Option UInt32)
  | cropcap (ok : Bool)
  | s_crop
  | fmt (fmt : Option PixFormat)
  | reqbufs (memory : IoMethod) (count : Option UInt32)
  | calloc (n : UInt32) (ok : Bool)
  | malloc (size : UInt32) (start : Option UInt64)
  | querybuf (index : UInt32) (buf : Option (UInt32 × UInt32))
  | mmap (length offset : UInt32) (start : Option UInt64)
  | streamoff (ok : Bool)
  | munmap (start length : UInt64) (ok : Bool)
  | free (start : UInt64)
  | freeBuffers
  | close (ok : Bool)
deriving DecidableEq

/-- How the device and the system answer: whether the name is that of a character device, the capabilities, whether
`VIDIOC_CROPCAP` works, the format, the number of buffers granted, and for every buffer its length and offset, where it
is mapped and where it is allocated. -/
structure DeviceAnswers where
  stat : Option Bool
  openDevice : Int
  querycap : Option UInt32
  cropcap : Bool
  fmt : Option PixFormat
  reqbufs : Option UInt32
  calloc : Bool
  malloc : Nat → Option UInt64
  querybuf : Nat → Option (UInt32 × UInt32)
  mmap : Nat → Option UInt64
  streamoff : Bool
  munmap : Nat → Bool
  close : Bool

/-- The global variables that change, and the calls so far. -/
structure Globals where
  buffers : List Buffer
  n_buffers : UInt32
  calls : List DeviceCall

/-- The program ends with an error, or accesses an array past its end. -/
inductive Exit
  | failure
  | outOfRange
deriving DecidableEq

abbrev DeviceM := EStateM Exit Globals

def V4L2_CAP_VIDEO_CAPTURE : UInt32 := 0x00000001
def V4L2_CAP_READWRITE : UInt32 := 0x01000000
def V4L2_CAP_STREAMING : UInt32 := 0x04000000

/-- A buffer whose length is an `unsigned int`. -/
def Buffer.ofLength (start : UInt64) (length : UInt32) : Buffer :=
  ⟨start, length.toUInt64, by rw [UInt32.toNat_toUInt64]; exact length.toNat_lt⟩

/-- The size of a picture, after the corrections for buggy drivers. -/
def sizeimage (fmt : PixFormat) : UInt32 :=
  let min := fmt.width * 2
  let bytesperline := if fmt.bytesperline < min then min else fmt.bytesperline
  let min := bytesperline * fmt.height
  if fmt.sizeimage < min then min else fmt.sizeimage

section Model

variable (answers : DeviceAnswers)

def call (c : DeviceCall) : DeviceM Unit := modify fun s => { s with calls := s.calls ++ [c] }

def open_device : DeviceM Unit := do
  call (.stat answers.stat)
  if answers.stat ≠ some true then
    throw .failure
  call (.openDevice answers.openDevice)
  if answers.openDevice = -1 then
    throw .failure

/-- `calloc` for the array `buffers`. -/
def callocBuffers (n : UInt32) : DeviceM Unit := do
  call (.calloc n answers.calloc)
  if !answers.calloc then
    throw .failure

/-- `malloc` for buffer `i`. -/
def mallocBuffer (buffer_size : UInt32) (i : Nat) : DeviceM Unit := do
  call (.malloc buffer_size (answers.malloc i))
  let some start := answers.malloc i | throw .failure
  modify fun s => { s with buffers := s.buffers ++ [Buffer.ofLength start buffer_size] }

def init_read (buffer_size : UInt32) : DeviceM Unit := do
  callocBuffers answers 1
  mallocBuffer answers buffer_size 0

/-- `VIDIOC_REQBUFS` for four buffers; the number of buffers that are granted. -/
def requestBuffers (memory : IoMethod) : DeviceM UInt32 := do
  call (.reqbufs memory answers.reqbufs)
  let some count := answers.reqbufs | throw .failure
  return count

/-- The body of the loop of `init_mmap`. -/
def mapBuffer (i : Nat) : DeviceM Unit := do
  call (.querybuf (UInt32.ofNat i) (answers.querybuf i))
  let some (length, offset) := answers.querybuf i | throw .failure
  call (.mmap length offset (answers.mmap i))
  let some start := answers.mmap i | throw .failure
  modify fun s => { s with buffers := s.buffers ++ [Buffer.ofLength start length], n_buffers := s.n_buffers + 1 }

def init_mmap : DeviceM Unit := do
  let count ← requestBuffers answers .MMAP
  if count < 2 then
    throw .failure
  callocBuffers answers count
  CountLoop.run count.toNat (mapBuffer answers)

/-- The body of the loop of `init_userp`. -/
def userBuffer (buffer_size : UInt32) (i : Nat) : DeviceM Unit := do
  mallocBuffer answers buffer_size i
  modify fun s => { s with n_buffers := s.n_buffers + 1 }

def init_userp (buffer_size : UInt32) : DeviceM Unit := do
  let _ ← requestBuffers answers .USERPTR
  callocBuffers answers 4
  CountLoop.run 4 (userBuffer answers buffer_size)

/-- The capability that a method needs besides `V4L2_CAP_VIDEO_CAPTURE`. -/
def Method.capability : Method → UInt32
  | .READ => V4L2_CAP_READWRITE
  | .streaming _ => V4L2_CAP_STREAMING

/-- The beginning of `init_device`. -/
def checkCapabilities (method : Method) : DeviceM Unit := do
  call (.querycap answers.querycap)
  let some capabilities := answers.querycap | throw .failure
  if capabilities &&& V4L2_CAP_VIDEO_CAPTURE = 0 then
    throw .failure
  if capabilities &&& method.capability = 0 then
    throw .failure

/-- The crop rectangle is reset if the device has one; whether that works is ignored. -/
def resetCrop : DeviceM Unit := do
  call (.cropcap answers.cropcap)
  if answers.cropcap then
    call .s_crop

/-- `VIDIOC_S_FMT` or `VIDIOC_G_FMT`. -/
def pixFormat : DeviceM PixFormat := do
  call (.fmt answers.fmt)
  let some fmt := answers.fmt | throw .failure
  return fmt

def init_device (method : Method) : DeviceM Unit := do
  checkCapabilities answers method
  resetCrop answers
  let fmt ← pixFormat answers
  match method with
  | .READ => init_read answers (sizeimage fmt)
  | .streaming .MMAP => init_mmap answers
  | .streaming .USERPTR => init_userp answers (sizeimage fmt)

def stop_capturing (method : Method) : DeviceM Unit := do
  match method with
  | .READ => pure ()
  | .streaming _ =>
    call (.streamoff answers.streamoff)
    if !answers.streamoff then
      throw .failure

/-- `buffers[i]`. -/
def bufferAt (i : Nat) : DeviceM Buffer := do
  let some b := (← get).buffers[i]? | throw .outOfRange
  return b

/-- `free` for buffer `i`. -/
def freeBuffer (i : Nat) : DeviceM Unit := do
  let b ← bufferAt i
  call (.free b.start)

def unmapBuffer (i : Nat) : DeviceM Unit := do
  let b ← bufferAt i
  call (.munmap b.start b.length (answers.munmap i))
  if !answers.munmap i then
    throw .failure

def uninit_device (method : Method) : DeviceM Unit := do
  match method with
  | .READ => freeBuffer 0
  | .streaming .MMAP => CountLoop.run (← get).n_buffers.toNat (unmapBuffer answers)
  | .streaming .USERPTR => CountLoop.run (← get).n_buffers.toNat freeBuffer
  call .freeBuffers

def close_device : DeviceM Unit := do
  call (.close answers.close)
  if !answers.close then
    throw .failure

/-- `main` up to `start_capturing`. -/
def setUp (method : Method) : DeviceM Unit := do
  open_device answers
  init_device answers method

/-- `main` from `stop_capturing` on. -/
def tearDown (method : Method) : DeviceM Unit := do
  stop_capturing answers method
  uninit_device answers method
  close_device answers

end Model

/-! ### The protocol -/

/-- What an entry of `buffers` holds: memory that was mapped or allocated. -/
structure Region where
  mapped : Bool
  start : UInt64
  length : UInt64
deriving DecidableEq

/-- What is in use: the device, the buffers that it granted for mapping, its answer about the next of them, the size of
the array `buffers`, and the memory. -/
structure DeviceUse where
  opened : Bool
  granted : UInt32
  queried : Option (UInt32 × UInt32)
  array : Option UInt32
  regions : List Region
deriving DecidableEq

namespace DeviceUse

def idle : DeviceUse := ⟨false, 0, none, none, []⟩

/-- A call that is made when it may be: the device is open, buffers are mapped as the device describes them, the array
has room for what is mapped or allocated, only what is held is given back, the array after its entries, and the device
is closed last. -/
def step (u : DeviceUse) : DeviceCall → Option DeviceUse
  | .stat _ => if u.opened then none else some u
  | .openDevice fd => if u.opened then none else some { u with opened := fd ≠ -1 }
  | .querycap _ | .cropcap _ | .s_crop | .fmt _ | .streamoff _ => if u.opened then some u else none
  | .reqbufs memory count =>
    if u.opened ∧ u.regions = [] then some { u with granted := if memory = .MMAP then count.getD 0 else 0 } else none
  | .calloc n ok => if u.array = none then some { u with array := if ok then some n else none } else none
  | .malloc size start =>
    match u.array with
    | none => none
    | some n =>
      if u.regions.length < n.toNat then
        some { u with regions := u.regions ++ (start.map (⟨false, ·, size.toUInt64⟩)).toList }
      else none
  | .querybuf index buf => if u.opened ∧ index < u.granted then some { u with queried := buf } else none
  | .mmap length offset start =>
    match u.array with
    | none => none
    | some n =>
      if u.queried = some (length, offset) ∧ u.regions.length < n.toNat then
        some { u with queried := none, regions := u.regions ++ (start.map (⟨true, ·, length.toUInt64⟩)).toList }
      else none
  | .munmap start length ok =>
    if ⟨true, start, length⟩ ∈ u.regions then
      some (if ok then { u with regions := u.regions.erase ⟨true, start, length⟩ } else u)
    else none
  | .free start =>
    if u.regions.any fun r => !r.mapped && r.start == start then
      some { u with regions := u.regions.eraseP fun r => !r.mapped && r.start == start }
    else none
  | .freeBuffers => if u.array.isSome ∧ u.regions = [] then some { u with array := none } else none
  | .close ok => if u.opened ∧ u.array = none ∧ u.regions = [] then some (if ok then idle else u) else none

def machine : Machine DeviceUse DeviceCall where
  init u := u = idle
  step := step

end DeviceUse

namespace Method

/-- The memory of a buffer. -/
def region (method : Method) (b : Buffer) : Region := ⟨method = .streaming .MMAP, b.start, b.length⟩

end Method

/-! ### The set-up -/

variable {answers : DeviceAnswers} {method : Method}

/-- The calls so far follow the protocol, and this is in use. -/
def Using (u : DeviceUse) (s : Globals) : Prop := DeviceUse.machine.replay .idle s.calls = some u

/-- The program ended with an error, and its calls follow the protocol. -/
def Failed (e : Exit) (s : Globals) : Prop := e = .failure ∧ ∃ u, Using u s

private theorem Using.call {u u' : DeviceUse} {s : Globals} (h : Using u s) {c : DeviceCall} (hc : u.step c = some u')
    (buffers : List Buffer) (n_buffers : UInt32) : Using u' ⟨buffers, n_buffers, s.calls ++ [c]⟩ :=
  Machine.replay_concat h hc

private theorem Using.failed {u u' : DeviceUse} {s : Globals} (h : Using u s) {c : DeviceCall}
    (hc : u.step c = some u') :
    Failed .failure { s with calls := s.calls ++ [c] } :=
  ⟨rfl, u', h.call hc _ _⟩

private theorem Using.exit {u : DeviceUse} {s : Globals} (h : Using u s) : Failed .failure s := ⟨rfl, u, h⟩

/-- The device is open and granted so many buffers, and there is no memory yet. -/
def Opened (granted : UInt32) (array : Option UInt32) (s : Globals) : Prop :=
  Using ⟨true, granted, none, array, []⟩ s ∧ s.buffers = [] ∧ s.n_buffers = 0

/-- What is in use when the array of `array` entries holds these buffers. -/
def holding (method : Method) (array : UInt32) (buffers : List Buffer) : DeviceUse :=
  ⟨true, if method = .streaming .MMAP then array else 0, none, some array, buffers.map method.region⟩

/-- The array has room for `array` buffers and holds `length` of them, of which `n_buffers` counts `n`; what is
allocated has the size `size`. -/
structure Holding (method : Method) (size array : UInt32) (length n : Nat) (s : Globals) : Prop where
  use : Using (holding method array s.buffers) s
  length_eq : s.buffers.length = length
  n_buffers : s.n_buffers.toNat = n
  size_eq : method ≠ .streaming .MMAP → ∀ b ∈ s.buffers, b.length = size.toUInt64

/-- Another buffer, whether it is counted or not. -/
private theorem Holding.push {size array n_buffers : UInt32} {length n m : Nat} {s : Globals}
    (h : Holding method size array length n s) {calls : List DeviceCall} {b : Buffer}
    (huse : Using (holding method array (s.buffers ++ [b])) ⟨s.buffers ++ [b], n_buffers, calls⟩)
    (hb : method ≠ .streaming .MMAP → b.length = size.toUInt64) (hm : n_buffers.toNat = m) :
    Holding method size array (length + 1) m ⟨s.buffers ++ [b], n_buffers, calls⟩ := by
  refine ⟨huse, ?_, hm, ?_⟩
  · rw [List.length_append, h.length_eq, List.length_singleton]
  · intro hmethod b' hb'
    rcases List.mem_append.1 hb' with hold | hnew
    · exact h.size_eq hmethod b' hold
    · rw [List.mem_singleton.1 hnew]
      exact hb hmethod

private theorem open_device_spec :
    ⦃fun s => ⌜s = ⟨[], 0, []⟩⌝⦄ open_device answers ⦃post⟨fun _ s => ⌜Opened 0 none s⌝, fun e s => ⌜Failed e s⌝⟩⦄ := by
  have hidle : Using .idle ⟨[], 0, []⟩ := rfl
  have hstat : ∀ answer, DeviceUse.idle.step (.stat answer) = some .idle := fun _ => rfl
  have hopen : ∀ fd, DeviceUse.idle.step (.openDevice fd) = some ⟨fd ≠ -1, 0, none, none, []⟩ := fun _ => rfl
  mvcgen [open_device, call]
  case vc1.isTrue s hs _ _ _ =>
    subst hs
    exact hidle.failed (hstat _)
  case vc2.isFalse.isTrue s hs _ _ _ _ _ =>
    subst hs
    exact (hidle.call (hstat answers.stat) [] 0).failed (hopen _)
  case vc3.isFalse.isFalse s hs _ _ _ _ hfd =>
    subst hs
    have huse := (hidle.call (hstat answers.stat) [] 0).call (hopen answers.openDevice) [] 0
    rw [decide_eq_true hfd] at huse
    exact ⟨huse, rfl, rfl⟩

private theorem callocBuffers_spec (granted n : UInt32) :
    ⦃fun s => ⌜Opened granted none s⌝⦄ callocBuffers answers n
    ⦃post⟨fun _ s => ⌜Opened granted (some n) s⌝, fun e s => ⌜Failed e s⌝⟩⦄ := by
  have hcall : ∀ ok, DeviceUse.step ⟨true, granted, none, none, []⟩ (.calloc n ok) =
      some ⟨true, granted, none, if ok then some n else none, []⟩ := fun _ => rfl
  mvcgen [callocBuffers, call]
  case vc1.isTrue h _ _ => exact h.1.failed (hcall _)
  case vc2.isFalse s h _ hok =>
    have huse := h.1.call (hcall answers.calloc) s.buffers s.n_buffers
    rw [if_pos (by simpa using hok)] at huse
    exact ⟨huse, h.2⟩

/-- Memory of the heap for the next entry of the array. -/
private theorem step_malloc (hmethod : method ≠ .streaming .MMAP) {array : UInt32} {buffers : List Buffer}
    (hroom : buffers.length < array.toNat) (size : UInt32) (start : Option UInt64) :
    (holding method array buffers).step (.malloc size start) =
      some (holding method array (buffers ++ (start.map (Buffer.ofLength · size)).toList)) := by
  have hregion : ∀ start, method.region (Buffer.ofLength start size) = ⟨false, start, size.toUInt64⟩ := by
    intro start
    rw [Method.region, decide_eq_false hmethod]
    rfl
  have hstep : (holding method array buffers).step (.malloc size start) =
      some { holding method array buffers with
        regions := buffers.map method.region ++ (start.map (⟨false, ·, size.toUInt64⟩)).toList } := by
    refine if_pos ?_
    rw [holding, List.length_map]
    exact hroom
  rw [hstep, holding, holding, List.map_append]
  cases start with
  | none => rfl
  | some start => simp [hregion]

private theorem mallocBuffer_spec (hmethod : method ≠ .streaming .MMAP) {size array : UInt32} {i n : Nat}
    (hi : i < array.toNat) :
    ⦃fun s => ⌜Holding method size array i n s⌝⦄ mallocBuffer answers size i
    ⦃post⟨fun _ s => ⌜Holding method size array (i + 1) n s⌝, fun e s => ⌜Failed e s⌝⟩⦄ := by
  have hcall : ∀ start (s : Globals), Holding method size array i n s →
      (holding method array s.buffers).step (.malloc size start) =
        some (holding method array (s.buffers ++ (start.map (Buffer.ofLength · size)).toList)) :=
    fun start s h => step_malloc hmethod (by rw [h.length_eq]; exact hi) size start
  mvcgen [mallocBuffer, call]
  case vc1.h_1 s h _ start hstart _ =>
    have hnext : (holding method array s.buffers).step (.malloc size (answers.malloc i)) =
        some (holding method array (s.buffers ++ [Buffer.ofLength start size])) := by
      rw [hcall _ s h, hstart]
      rfl
    exact h.push (h.use.call hnext _ _) (fun _ => rfl) h.n_buffers
  case vc2.h_2 s h _ _ _ _ => exact h.use.failed (hcall _ s h)

private theorem step_querybuf {count index : UInt32} (hindex : index < count) (buffers : List Buffer)
    (buf : Option (UInt32 × UInt32)) :
    (holding (.streaming .MMAP) count buffers).step (.querybuf index buf) =
      some { holding (.streaming .MMAP) count buffers with queried := buf } :=
  if_pos ⟨rfl, hindex⟩

/-- The device is mapped for the next entry of the array, as it answered. -/
private theorem step_mmap {count : UInt32} {buffers : List Buffer} (hroom : buffers.length < count.toNat)
    (length offset : UInt32) (start : Option UInt64) :
    DeviceUse.step { holding (.streaming .MMAP) count buffers with queried := some (length, offset) }
        (.mmap length offset start) =
      some (holding (.streaming .MMAP) count (buffers ++ (start.map (Buffer.ofLength · length)).toList)) := by
  have hroom' : (holding (.streaming .MMAP) count buffers).regions.length < count.toNat := by
    rw [holding, List.length_map]
    exact hroom
  refine (if_pos ⟨rfl, hroom'⟩).trans ?_
  rw [holding, holding, List.map_append]
  cases start with
  | none => rfl
  | some start => rfl

/-- The counter does not overflow, as it is compared with a number of the same type. -/
private theorem count_succ {n limit : UInt32} {i : Nat} (hn : n.toNat = i) (hi : i < limit.toNat) :
    (n + 1).toNat = i + 1 := by
  have hlt := limit.toNat_lt
  rw [UInt32.toNat_add, hn]
  exact Nat.mod_eq_of_lt (by rw [UInt32.toNat_one]; omega)

private theorem mapBuffer_spec {size count : UInt32} {i : Nat} (hi : i < count.toNat) :
    ⦃fun s => ⌜Holding (.streaming .MMAP) size count i i s⌝⦄ mapBuffer answers i
    ⦃post⟨fun _ s => ⌜Holding (.streaming .MMAP) size count (i + 1) (i + 1) s⌝, fun e s => ⌜Failed e s⌝⟩⦄ := by
  have hindex : UInt32.ofNat i < count := by
    rw [UInt32.lt_iff_toNat_lt, UInt32.toNat_ofNat_of_lt' (hi.trans count.toNat_lt)]
    exact hi
  have hroom : ∀ s : Globals, Holding (.streaming .MMAP) size count i i s → s.buffers.length < count.toNat := by
    intro s h
    rw [h.length_eq]
    exact hi
  have hquery : ∀ (s : Globals) {length offset}, answers.querybuf i = some (length, offset) →
      (holding (.streaming .MMAP) count s.buffers).step (.querybuf (UInt32.ofNat i) (answers.querybuf i)) =
        some { holding (.streaming .MMAP) count s.buffers with queried := some (length, offset) } := by
    intro s length offset hanswer
    rw [step_querybuf hindex, hanswer]
  mvcgen [mapBuffer, call]
  case vc1.h_1.h_1 s h _ length offset hanswer _ start hstart _ =>
    have hnext : DeviceUse.step { holding (.streaming .MMAP) count s.buffers with queried := some (length, offset) }
        (.mmap length offset (answers.mmap i)) =
        some (holding (.streaming .MMAP) count (s.buffers ++ [Buffer.ofLength start length])) := by
      rw [step_mmap (hroom s h), hstart]
      rfl
    have huse := (h.use.call (hquery s hanswer) s.buffers s.n_buffers).call hnext
    exact h.push (huse _ _) nofun (count_succ h.n_buffers hi)
  case vc2.h_1.h_2 s h _ length offset hanswer _ _ _ _ =>
    have hqueried := h.use.call (hquery s hanswer) s.buffers s.n_buffers
    exact hqueried.failed (step_mmap (hroom s h) length offset (answers.mmap i))
  case vc3.h_2 s h _ _ _ _ => exact h.use.failed (step_querybuf hindex _ _)

private theorem Opened.holding {size array : UInt32} {s : Globals}
    (h : Opened (if method = .streaming .MMAP then array else 0) (some array) s) :
    Holding method size array 0 0 s := by
  obtain ⟨huse, hbuffers, hn⟩ := h
  refine ⟨?_, ?_, ?_, ?_⟩
  · rw [hbuffers]
    exact huse
  · rw [hbuffers]
    rfl
  · rw [hn]
    rfl
  · intro _ b hb
    rw [hbuffers] at hb
    cases hb

private theorem init_read_spec (size : UInt32) :
    ⦃fun s => ⌜Opened 0 none s⌝⦄ init_read answers size
    ⦃post⟨fun _ s => ⌜Holding .READ size 1 1 0 s⌝, fun e s => ⌜Failed e s⌝⟩⦄ := by
  have hcalloc := @callocBuffers_spec answers 0 1
  have hmalloc := @mallocBuffer_spec answers .READ nofun size 1 0 0 (by decide)
  mvcgen [init_read, hcalloc, hmalloc]
  case vc2.post.success hopened => exact @Opened.holding .READ size 1 _ hopened

private theorem requestBuffers_spec (memory : IoMethod) :
    ⦃fun s => ⌜Opened 0 none s⌝⦄ requestBuffers answers memory
    ⦃post⟨fun count s => ⌜Opened (if memory = .MMAP then count else 0) none s⌝, fun e s => ⌜Failed e s⌝⟩⦄ := by
  have hcall : ∀ count, DeviceUse.step ⟨true, 0, none, none, []⟩ (.reqbufs memory count) =
      some ⟨true, if memory = .MMAP then count.getD 0 else 0, none, none, []⟩ := fun _ => rfl
  mvcgen [requestBuffers, call]
  case vc1.h_1 s h _ count hcount =>
    have hgranted : DeviceUse.step ⟨true, 0, none, none, []⟩ (.reqbufs memory answers.reqbufs) =
        some ⟨true, if memory = .MMAP then count else 0, none, none, []⟩ := by
      rw [hcall, hcount]
      rfl
    exact ⟨h.1.call hgranted _ _, h.2⟩
  case vc2.h_2 s h _ _ _ _ => exact h.1.failed (hcall _)

private theorem init_mmap_spec :
    ⦃fun s => ⌜Opened 0 none s⌝⦄ init_mmap answers
    ⦃post⟨fun _ s => ⌜∃ count, ¬count < 2 ∧ Holding (.streaming .MMAP) 0 count count.toNat count.toNat s⌝,
      fun e s => ⌜Failed e s⌝⟩⦄ := by
  have hrequest : ⦃fun s => ⌜Opened 0 none s⌝⦄ requestBuffers answers .MMAP
      ⦃post⟨fun count s => ⌜Opened count none s⌝, fun e s => ⌜Failed e s⌝⟩⦄ := requestBuffers_spec .MMAP
  have hcalloc := fun count => @callocBuffers_spec answers count count
  have hloop := fun count => CountLoop.run_triple fun i hi => @mapBuffer_spec answers 0 count i hi
  mvcgen [init_mmap, hrequest, hcalloc, hloop]
  case vc2.post.success.isTrue hopened => exact hopened.1.exit
  case vc4.post.success.isFalse.post.success.pre hopened => exact @Opened.holding (.streaming .MMAP) 0 _ _ hopened
  case vc5.post.success.isFalse.post.success.post.success htwo _ _ _ _ _ _ _ =>
    exact fun hdone => ⟨_, htwo, hdone⟩

private theorem userBuffer_spec {size : UInt32} {i : Nat} (hi : i < 4) :
    ⦃fun s => ⌜Holding (.streaming .USERPTR) size 4 i i s⌝⦄ userBuffer answers size i
    ⦃post⟨fun _ s => ⌜Holding (.streaming .USERPTR) size 4 (i + 1) (i + 1) s⌝, fun e s => ⌜Failed e s⌝⟩⦄ := by
  have hmalloc := @mallocBuffer_spec answers (.streaming .USERPTR) nofun size 4 i i hi
  have hlimit : i < (4 : UInt32).toNat := hi
  mvcgen [userBuffer, hmalloc]
  case vc2.post.success h _ => exact ⟨h.use, h.length_eq, count_succ h.n_buffers hlimit, h.size_eq⟩

private theorem init_userp_spec (size : UInt32) :
    ⦃fun s => ⌜Opened 0 none s⌝⦄ init_userp answers size
    ⦃post⟨fun _ s => ⌜Holding (.streaming .USERPTR) size 4 4 4 s⌝, fun e s => ⌜Failed e s⌝⟩⦄ := by
  have hrequest : ⦃fun s => ⌜Opened 0 none s⌝⦄ requestBuffers answers .USERPTR
      ⦃post⟨fun _ s => ⌜Opened 0 none s⌝, fun e s => ⌜Failed e s⌝⟩⦄ := requestBuffers_spec .USERPTR
  have hcalloc := @callocBuffers_spec answers 0 4
  have hloop := CountLoop.run_triple fun i hi => @userBuffer_spec answers size i hi
  mvcgen [init_userp, hrequest, hcalloc, hloop]
  case vc3.post.success.post.success hopened => exact @Opened.holding (.streaming .USERPTR) size _ _ hopened

/-- The device is only asked. -/
private theorem Opened.call {granted : UInt32} {s : Globals} (h : Opened granted none s) {c : DeviceCall}
    (hc : DeviceUse.step ⟨true, granted, none, none, []⟩ c = some ⟨true, granted, none, none, []⟩) :
    Opened granted none { s with calls := s.calls ++ [c] } :=
  ⟨h.1.call hc _ _, h.2⟩

private theorem checkCapabilities_spec :
    ⦃fun s => ⌜Opened 0 none s⌝⦄ checkCapabilities answers method
    ⦃post⟨fun _ s => ⌜Opened 0 none s⌝, fun e s => ⌜Failed e s⌝⟩⦄ := by
  mvcgen [checkCapabilities, FirstFrame.call]
  case vc1.h_1.isTrue h _ _ _ _ _ => exact (h.call rfl).1.exit
  case vc2.h_1.isFalse.isTrue h _ _ _ _ _ _ => exact (h.call rfl).1.exit
  case vc3.h_1.isFalse.isFalse h _ _ _ _ _ _ => exact h.call rfl
  case vc4.h_2 h _ _ _ _ => exact (h.call rfl).1.exit

private theorem resetCrop_spec :
    ⦃fun s => ⌜Opened 0 none s⌝⦄ resetCrop answers
    ⦃post⟨fun _ s => ⌜Opened 0 none s⌝, fun e s => ⌜Failed e s⌝⟩⦄ := by
  mvcgen [resetCrop, FirstFrame.call]
  case vc1.isTrue h _ _ _ => exact Opened.call (h.call rfl) rfl
  case vc2.isFalse h _ _ => exact h.call rfl

private theorem pixFormat_spec :
    ⦃fun s => ⌜Opened 0 none s⌝⦄ pixFormat answers
    ⦃post⟨fun fmt s => ⌜answers.fmt = some fmt ∧ Opened 0 none s⌝, fun e s => ⌜Failed e s⌝⟩⦄ := by
  mvcgen [pixFormat, FirstFrame.call]
  case vc1.h_1 h _ _ hfmt => exact ⟨hfmt, h.call rfl⟩
  case vc2.h_2 h _ _ _ _ => exact (h.call rfl).1.exit

/-- What `init_device` sets up: a buffer for `read`, the buffers that the device granted, or four buffers. -/
def SetUp (answers : DeviceAnswers) (method : Method) (s : Globals) : Prop :=
  ∃ fmt, answers.fmt = some fmt ∧
    match method with
    | .READ => Holding .READ (sizeimage fmt) 1 1 0 s
    | .streaming .MMAP => ∃ count, ¬count < 2 ∧ Holding (.streaming .MMAP) 0 count count.toNat count.toNat s
    | .streaming .USERPTR => Holding (.streaming .USERPTR) (sizeimage fmt) 4 4 4 s

private theorem setUp_spec :
    ⦃fun s => ⌜s = ⟨[], 0, []⟩⌝⦄ setUp answers method
    ⦃post⟨fun _ s => ⌜SetUp answers method s⌝, fun e s => ⌜Failed e s⌝⟩⦄ := by
  have hopen := @open_device_spec answers
  have hcapabilities := @checkCapabilities_spec answers method
  have hcrop := @resetCrop_spec answers
  have hfmt := @pixFormat_spec answers
  have hread := @init_read_spec answers
  have hmmap := @init_mmap_spec answers
  have huserp := @init_userp_spec answers
  mvcgen [setUp, init_device, hopen, hcapabilities, hcrop, hfmt, hread, hmmap, huserp]
  case vc5.post.success.post.success.post.success.post.success.h_1.pre h => exact h.2
  case vc6.post.success.post.success.post.success.post.success.h_1.post.success hfmt' _ _ =>
    exact fun hdone => ⟨_, hfmt'.1, hdone⟩
  case vc7.post.success.post.success.post.success.post.success.h_2.pre h => exact h.2
  case vc8.post.success.post.success.post.success.post.success.h_2.post.success hfmt' _ _ =>
    exact fun hdone => ⟨_, hfmt'.1, hdone⟩
  case vc9.post.success.post.success.post.success.post.success.h_3.pre h => exact h.2
  case vc10.post.success.post.success.post.success.post.success.h_3.post.success hfmt' _ _ =>
    exact fun hdone => ⟨_, hfmt'.1, hdone⟩

/-! ### The release -/

/-- What is in use when the regions from entry `i` on are left. -/
def releasing (method : Method) (granted array : UInt32) (buffers : List Buffer) (i : Nat) : DeviceUse :=
  ⟨true, granted, none, some array, (buffers.drop i).map method.region⟩

private theorem regions_releasing (granted array : UInt32) {buffers : List Buffer} {i : Nat} {b : Buffer}
    (hb : buffers[i]? = some b) :
    (releasing method granted array buffers i).regions =
      method.region b :: (releasing method granted array buffers (i + 1)).regions := by
  obtain ⟨hi, rfl⟩ := List.getElem?_eq_some_iff.1 hb
  rw [releasing, List.drop_eq_getElem_cons hi]
  rfl

private theorem step_munmap (granted array : UInt32) {buffers : List Buffer} {i : Nat} {b : Buffer}
    (hb : buffers[i]? = some b) (ok : Bool) :
    (releasing (.streaming .MMAP) granted array buffers i).step (.munmap b.start b.length ok) =
      some (releasing (.streaming .MMAP) granted array buffers (if ok then i + 1 else i)) := by
  have hregions := @regions_releasing (.streaming .MMAP) granted array buffers i b hb
  have hregion : Method.region (.streaming .MMAP) b = ⟨true, b.start, b.length⟩ := rfl
  rw [hregion] at hregions
  rw [DeviceUse.step, hregions, if_pos List.mem_cons_self]
  cases ok with
  | true => rw [if_pos rfl, List.erase_cons_head]; rfl
  | false => rfl

private theorem step_free (hmethod : method ≠ .streaming .MMAP) (granted array : UInt32) {buffers : List Buffer}
    {i : Nat} {b : Buffer} (hb : buffers[i]? = some b) :
    (releasing method granted array buffers i).step (.free b.start) =
      some (releasing method granted array buffers (i + 1)) := by
  have hregions := @regions_releasing method granted array buffers i b hb
  have hregion : method.region b = ⟨false, b.start, b.length⟩ := by
    rw [Method.region, decide_eq_false hmethod]
  rw [hregion] at hregions
  rw [DeviceUse.step, hregions]
  simp only [List.any_cons, List.eraseP_cons]
  simp
  rfl

/-- There are `n` buffers, and the regions from entry `i` on are left. -/
def Releasing (method : Method) (n i : Nat) (s : Globals) : Prop :=
  s.buffers.length = n ∧ ∃ granted array, Using (releasing method granted array s.buffers i) s

private theorem unmapBuffer_spec {n i : Nat} (hi : i < n) :
    ⦃fun s => ⌜Releasing (.streaming .MMAP) n i s⌝⦄ unmapBuffer answers i
    ⦃post⟨fun _ s => ⌜Releasing (.streaming .MMAP) n (i + 1) s⌝, fun e s => ⌜Failed e s⌝⟩⦄ := by
  mvcgen [unmapBuffer, bufferAt, FirstFrame.call]
  case vc1.h_1.isTrue s h b hb _ hok =>
    obtain ⟨-, granted, array, huse⟩ := h
    exact huse.failed (step_munmap granted array hb _)
  case vc2.h_1.isFalse s h b hb _ hok =>
    obtain ⟨hn, granted, array, huse⟩ := h
    have hnext := huse.call (step_munmap granted array hb (answers.munmap i)) s.buffers s.n_buffers
    rw [if_pos (by simpa using hok)] at hnext
    exact ⟨hn, granted, array, hnext⟩
  case vc3.h_2 s h _ hnone hb =>
    rw [← h.1] at hi
    rw [List.getElem?_eq_getElem hi] at hb
    exact (hnone _ hb.symm).elim

private theorem freeBuffer_spec (hmethod : method ≠ .streaming .MMAP) {n i : Nat} (hi : i < n) :
    ⦃fun s => ⌜Releasing method n i s⌝⦄ freeBuffer i
    ⦃post⟨fun _ s => ⌜Releasing method n (i + 1) s⌝, fun e s => ⌜Failed e s⌝⟩⦄ := by
  mvcgen [freeBuffer, bufferAt, FirstFrame.call]
  case vc1.h_1 s h b hb _ =>
    obtain ⟨hn, granted, array, huse⟩ := h
    exact ⟨hn, granted, array, huse.call (step_free hmethod granted array hb) _ _⟩
  case vc2.h_2 s h _ hnone hb =>
    rw [← h.1] at hi
    rw [List.getElem?_eq_getElem hi] at hb
    exact (hnone _ hb.symm).elim

/-- Nothing but the device is in use. -/
def Drained (s : Globals) : Prop := ∃ granted, Using ⟨true, granted, none, none, []⟩ s

/-- The array can be freed when all regions are given back. -/
private theorem Releasing.freeBuffers {n : Nat} {s : Globals} (h : Releasing method n n s) :
    Drained { s with calls := s.calls ++ [.freeBuffers] } := by
  obtain ⟨rfl, granted, array, huse⟩ := h
  refine ⟨granted, huse.call ?_ _ _⟩
  rw [releasing, List.drop_length]
  rfl

/-- Every buffer of the method is to be released. -/
def ToRelease (method : Method) (s : Globals) : Prop :=
  Releasing method (if method = .READ then 1 else s.n_buffers.toNat) 0 s

private theorem stop_capturing_spec :
    ⦃fun s => ⌜ToRelease method s⌝⦄ stop_capturing answers method
    ⦃post⟨fun _ s => ⌜ToRelease method s⌝, fun e s => ⌜Failed e s⌝⟩⦄ := by
  mvcgen [stop_capturing, FirstFrame.call]
  case vc2.h_2.isTrue h _ _ =>
    obtain ⟨-, granted, array, huse⟩ := h
    exact huse.failed rfl
  case vc3.h_2.isFalse h _ _ =>
    obtain ⟨hn, granted, array, huse⟩ := h
    exact ⟨hn, granted, array, huse.call rfl _ _⟩

private theorem uninit_device_spec :
    ⦃fun s => ⌜ToRelease method s⌝⦄ uninit_device answers method
    ⦃post⟨fun _ s => ⌜Drained s⌝, fun e s => ⌜Failed e s⌝⟩⦄ := by
  have hread := @freeBuffer_spec .READ nofun 1 0 (by decide)
  have hmmap := fun n => CountLoop.run_triple fun i hi => @unmapBuffer_spec answers n i hi
  have huserp := fun n => CountLoop.run_triple fun i hi => @freeBuffer_spec (.streaming .USERPTR) nofun n i hi
  mvcgen [uninit_device, hread, hmmap, huserp, FirstFrame.call]
  case vc2.h_1.post.success h _ => exact h.freeBuffers
  case vc4.h_2.post.success h _ => exact h.freeBuffers
  case vc6.h_3.post.success h _ => exact h.freeBuffers

private theorem step_close (granted : UInt32) (ok : Bool) :
    DeviceUse.step ⟨true, granted, none, none, []⟩ (.close ok) =
      some (if ok then .idle else ⟨true, granted, none, none, []⟩) := rfl

private theorem close_device_spec :
    ⦃fun s => ⌜Drained s⌝⦄ close_device answers ⦃post⟨fun _ s => ⌜Using .idle s⌝, fun e s => ⌜Failed e s⌝⟩⦄ := by
  mvcgen [close_device, FirstFrame.call]
  case vc1.isTrue h _ _ =>
    obtain ⟨granted, huse⟩ := h
    exact huse.failed (step_close granted _)
  case vc2.isFalse s h _ hok =>
    obtain ⟨granted, huse⟩ := h
    have hclosed := huse.call (step_close granted answers.close) s.buffers s.n_buffers
    rw [if_pos (by simpa using hok)] at hclosed
    exact hclosed

/-- What was set up can be released. -/
private theorem SetUp.toRelease {s : Globals} (h : SetUp answers method s) : ToRelease method s := by
  have hall : ∀ {size array length n}, Holding method size array length n s → Releasing method length 0 s :=
    fun h => ⟨h.length_eq, _, _, h.use⟩
  obtain ⟨fmt, -, h⟩ := h
  match method, h with
  | .READ, h => exact hall h
  | .streaming .MMAP, h =>
    obtain ⟨count, -, h⟩ := h
    have hrelease := hall h
    rw [← h.n_buffers] at hrelease
    exact hrelease
  | .streaming .USERPTR, h =>
    have hrelease := hall h
    rw [← h.n_buffers] at hrelease
    exact hrelease

private theorem tearDown_spec :
    ⦃fun s => ⌜ToRelease method s⌝⦄ tearDown answers method
    ⦃post⟨fun _ s => ⌜Using .idle s⌝, fun e s => ⌜Failed e s⌝⟩⦄ := by
  have hstop := @stop_capturing_spec answers method
  have huninit := @uninit_device_spec answers method
  have hclose := @close_device_spec answers
  mvcgen [tearDown, hstop, huninit, hclose]

/-! ### The size of a picture -/

/-- The length of all lines of a picture. -/
def lines (fmt : PixFormat) : Nat := max fmt.bytesperline.toNat (fmt.width.toNat * 2) * fmt.height.toNat

private theorem toNat_raise (a b : UInt32) : (if a < b then b else a).toNat = max a.toNat b.toNat := by
  by_cases hlt : a < b
  · rw [if_pos hlt, Nat.max_eq_right (Nat.le_of_lt (UInt32.lt_iff_toNat_lt.1 hlt))]
  · rw [if_neg hlt, Nat.max_eq_left (Nat.le_of_not_lt fun h => hlt (UInt32.lt_iff_toNat_lt.2 h))]

/-- The 32 bits of the computation are enough exactly for the pictures that fit into them. -/
private theorem sizeimage_covers_iff (fmt : PixFormat) : lines fmt ≤ (sizeimage fmt).toNat ↔ lines fmt < 2 ^ 32 := by
  constructor
  · intro h
    exact Nat.lt_of_le_of_lt h (sizeimage fmt).toNat_lt
  · intro h
    unfold sizeimage
    dsimp only
    rw [toNat_raise]
    refine le_trans (le_of_eq ?_) (le_max_right _ _)
    rw [UInt32.toNat_mul, toNat_raise, UInt32.toNat_mul]
    have htwo : (2 : UInt32).toNat = 2 := rfl
    rw [htwo]
    rcases Nat.eq_zero_or_pos fmt.height.toNat with hzero | hpos
    · rw [lines, hzero, Nat.mul_zero, Nat.mul_zero, Nat.zero_mod]
    · -- one line is no longer than all of them
      have hline : max fmt.bytesperline.toNat (fmt.width.toNat * 2) < 2 ^ 32 :=
        Nat.lt_of_le_of_lt (Nat.le_mul_of_pos_right _ hpos) h
      rw [Nat.mod_eq_of_lt (Nat.lt_of_le_of_lt (Nat.le_max_right _ _) hline)]
      exact (Nat.mod_eq_of_lt h).symm

/-! ### The images of the streaming loop -/

/-- What a step of the loop writes out. -/
private theorem step_images {p : Program} {s s' : State} {answer : Answer} (hs : p.step s answer = some s') :
    s'.images = s.images ∨ ∃ buf start size, s.pc = .dequeue ∧ p.key buf ∈ s.held ∧ p.image buf = some start ∧
      s'.images = s.images ++ [⟨start, size⟩] := by
  cases answer with
  | interrupted | error | timeout | again =>
    left
    cases hpc : s.pc <;> simp only [Program.step, hpc, Option.some.injEq, reduceCtorEq] at hs <;> rw [← hs]
  | ok =>
    left
    cases hpc : s.pc <;> simp only [Program.step, hpc, Option.some.injEq, Option.map_eq_some_iff, reduceCtorEq] at hs
    case queue i =>
      obtain ⟨b, -, rfl⟩ := hs
      rfl
    case streamOn | select | requeue =>
      subst hs
      rfl
  | dequeued buf =>
    cases hpc : s.pc <;> simp only [Program.step, hpc, Option.ite_none_right_eq_some, reduceCtorEq] at hs
    obtain ⟨hheld, hprocess⟩ := hs
    obtain rfl := Option.some.inj hprocess
    unfold Program.processFrame
    cases himage : p.image buf with
    | none => exact Or.inl rfl
    | some start => exact Or.inr ⟨buf, start, _, rfl, hheld, himage, rfl⟩

private theorem images_own {p : Program} {s : State} (h : p.machine.Reachable s) :
    ∀ image ∈ s.images, ∃ b ∈ p.buffers, image.p = b.start := by
  induction h with
  | init hinit =>
    rw [hinit.2.2]
    simp
  | step hreach _ hs ih =>
    rcases step_images hs with hsame | ⟨buf, start, size, hpc, hheld, himage, hnew⟩
    · rw [hsame]
      exact ih
    · have hinv := Program.inv_of_reachable hreach
      unfold Program.Inv at hinv
      rw [hpc] at hinv
      obtain ⟨b, hb, hown⟩ := Program.image_of_mem_keys (hinv.1.mem_iff.1 hheld)
      rw [himage, Option.some.injEq] at hown
      rw [hnew, List.forall_mem_append, List.forall_mem_singleton]
      exact ⟨ih, b, hb, hown⟩

/-! ### The loop with `read` -/

/-- The call that the program is about to make in `mainloop` with `IO_METHOD_READ`, or where it ended. -/
inductive ReadPc
  | select
  | read
  | returned
  | exited
deriving DecidableEq

/-- `count` is the local variable of `mainloop`, and `images` are the calls of `process_image` so far. -/
structure ReadState where
  pc : ReadPc
  count : UInt32
  images : List ProcessImage

namespace ReadState

/-- The loop condition of `mainloop`, with its decrement. -/
def whileCount (s : ReadState) : ReadState :=
  { s with pc := if 0 < s.count then .select else .returned, count := s.count - 1 }

/-- `mainloop` with `IO_METHOD_READ`.  The `read` is not made again when it is interrupted, and one that succeeds is
taken for a frame that fills `buffers[0]`. -/
def step (b : Buffer) (s : ReadState) (answer : Answer) : Option ReadState :=
  match s.pc, answer with
  | .select, .ok => some { s with pc := .read }
  | .select, .interrupted => some s
  | .read, .again => some { s with pc := .select }
  | .read, .ok => some (whileCount { s with images := s.images ++ [⟨b.start, b.length.toUInt32.toInt32⟩] })
  | .select, .timeout | .select, .error | .read, .interrupted | .read, .error => some { s with pc := .exited }
  | _, _ => none

/-- `start_capturing` has nothing to do. -/
def machine (b : Buffer) (frame_count : Int32) : Machine ReadState Answer where
  init s := s = whileCount ⟨.select, frame_count.toUInt32, []⟩
  step := step b

/-- The images that were written, and how many are to come. -/
def Inv (b : Buffer) (frame_count : Int32) (s : ReadState) : Prop :=
  (∀ image ∈ s.images, image.p = b.start) ∧
    match s.pc with
    | .select | .read => s.images.length + (s.count.toNat + 1) = frame_count.toUInt32.toNat
    | .returned => s.images.length = frame_count.toUInt32.toNat
    | .exited => True

variable {b : Buffer} {frame_count : Int32} {s s' : ReadState}

private theorem inv_whileCount (hown : ∀ image ∈ s.images, image.p = b.start)
    (hleft : s.images.length + s.count.toNat = frame_count.toUInt32.toNat) : Inv b frame_count (whileCount s) := by
  refine ⟨hown, ?_⟩
  unfold whileCount
  by_cases hpos : 0 < s.count
  · have hnat := Program.toNat_sub_one hpos
    simp only [if_pos hpos]
    omega
  · have hzero : s.count.toNat = 0 := by
      by_contra hne
      exact hpos (UInt32.lt_iff_toNat_lt.2 (Nat.pos_of_ne_zero hne))
    simp only [if_neg hpos]
    omega

private theorem inv_step {answer : Answer} (h : Inv b frame_count s) (hs : step b s answer = some s') :
    Inv b frame_count s' := by
  obtain ⟨hown, hleft⟩ := h
  cases hpc : s.pc with
  | select =>
    rw [hpc] at hleft
    cases answer <;> simp only [step, hpc, Option.some.injEq, reduceCtorEq] at hs <;> subst hs
    case interrupted =>
      refine ⟨hown, ?_⟩
      rw [hpc]
      exact hleft
    case ok => exact ⟨hown, hleft⟩
    case error | timeout => exact ⟨hown, trivial⟩
  | read =>
    rw [hpc] at hleft
    cases answer <;> simp only [step, hpc, Option.some.injEq, reduceCtorEq] at hs <;> subst hs
    case ok =>
      -- another frame is written
      refine inv_whileCount ?_ ?_
      · rw [List.forall_mem_append, List.forall_mem_singleton]
        exact ⟨hown, rfl⟩
      · simp only [List.length_append, List.length_singleton]
        omega
    case again => exact ⟨hown, hleft⟩
    case interrupted | error => exact ⟨hown, trivial⟩
  | returned => simp [step, hpc] at hs
  | exited => simp [step, hpc] at hs

private theorem inv_of_reachable (h : (machine b frame_count).Reachable s) : Inv b frame_count s := by
  refine Machine.ReachableVia.invariant (M := machine b frame_count) ?_ (fun _ _ _ hi _ hs => inv_step hi hs) h
  rintro s rfl
  exact inv_whileCount nofun (Nat.zero_add _)

end ReadState

/-- `P` holds when the program goes on; otherwise it ended with an error, and its calls follow the protocol. -/
def Ends (r : EStateM.Result Exit Globals Unit) (P : Globals → Prop) : Prop :=
  match r with
  | .ok _ s => P s
  | .error e s => Failed e s

private theorem setUp_ends (answers : DeviceAnswers) (method : Method) :
    Ends ((setUp answers method).run ⟨[], 0, []⟩) (SetUp answers method) := by
  have hspec := @setUp_spec answers method
  refine EStateM.of_wp_run_eq rfl (fun r => Ends r (SetUp answers method)) ?_
  mvcgen [hspec]

private theorem tearDown_ends {s : Globals} (h : SetUp answers method s) :
    Ends ((tearDown answers method).run s) (Using .idle) := by
  have hspec := @tearDown_spec answers method
  have hrelease := h.toRelease
  refine EStateM.of_wp_run_eq rfl (fun r => Ends r (Using .idle)) ?_
  mvcgen [hspec]

/-- The images of a loop start in memory that is in use, and when it returns there are as many as `frame_count` says,
which is taken as an unsigned number. -/
def Grabs (u : DeviceUse) (frame_count : Int32) (images : List ProcessImage) (returned : Prop) : Prop :=
  (∀ image ∈ images, ∃ r ∈ u.regions, image.p = r.start) ∧ (returned → images.length = frame_count.toUInt32.toNat)

private theorem grabs_streaming {u : DeviceUse} {p : Program} (hu : u.regions = p.buffers.map method.region)
    {loop : State} (h : p.machine.Reachable loop) : Grabs u p.frame_count loop.images (loop.pc = .returned) := by
  refine ⟨fun image himage => ?_, fun hpc => ?_⟩
  · obtain ⟨b, hb, hown⟩ := images_own h image himage
    rw [hu]
    exact ⟨method.region b, List.mem_map_of_mem hb, hown⟩
  · have hinv := Program.inv_of_reachable h
    unfold Program.Inv at hinv
    rw [hpc] at hinv
    exact hinv.2.1

private theorem grabs_read {u : DeviceUse} {b : Buffer} {frame_count : Int32} (hu : u.regions = [method.region b])
    {loop : ReadState} (h : (ReadState.machine b frame_count).Reachable loop) :
    Grabs u frame_count loop.images (loop.pc = .returned) := by
  obtain ⟨hown, hleft⟩ := ReadState.inv_of_reachable h
  refine ⟨fun image himage => ?_, fun hpc => ?_⟩
  · rw [hu]
    exact ⟨method.region b, List.mem_singleton_self _, hown image himage⟩
  · rw [hpc] at hleft
    exact hleft

/-- Whatever the device, the driver and the system answer, the calls before and after the loop follow the protocol, also
where the program exits.  What `init_device` sets up is a program for the loop, for any number of frames: its images all
start in memory that is held, and when it returns there are `frame_count` of them.  At the end everything is given
back. -/
theorem grabber_releases (answers : DeviceAnswers) (method : Method) (frame_count : Int32) :
    Ends ((setUp answers method).run ⟨[], 0, []⟩) fun s =>
      (∃ u, Using u s ∧
        match method with
        | .READ => ∃ b, s.buffers = [b] ∧ ∀ loop, (ReadState.machine b frame_count).Reachable loop →
            Grabs u frame_count loop.images (loop.pc = .returned)
        | .streaming io => ∃ p : Program, p.io = io ∧ p.buffers = s.buffers ∧ p.n_buffers = s.n_buffers ∧
            p.frame_count = frame_count ∧
              ∀ loop, p.machine.Reachable loop → Grabs u frame_count loop.images (loop.pc = .returned)) ∧
      Ends ((tearDown answers method).run s) (Using .idle) := by
  have hsetUp := setUp_ends answers method
  cases hrun : (setUp answers method).run ⟨[], 0, []⟩ with
  | error e s =>
    rw [hrun] at hsetUp
    exact hsetUp
  | ok value s =>
    rw [hrun] at hsetUp
    have hdone : SetUp answers method s := hsetUp
    obtain ⟨hlength, granted, array, huse⟩ := hdone.toRelease
    refine ⟨⟨_, huse, ?_⟩, tearDown_ends hdone⟩
    match method, hlength with
    | .READ, hlength =>
      obtain ⟨b, hb⟩ := List.length_eq_one_iff.1 hlength
      have hregions : (releasing .READ granted array s.buffers 0).regions = [Method.READ.region b] := by
        rw [hb]
        rfl
      exact ⟨b, hb, fun loop => grabs_read hregions⟩
    | .streaming io, hlength =>
      exact ⟨⟨io, s.buffers, s.n_buffers, hlength, frame_count⟩, rfl, rfl, rfl, rfl, fun loop => grabs_streaming rfl⟩

/-- Two buffers that are mapped, or memory for pictures of 640 to 480. -/
def answering : DeviceAnswers where
  stat := some true
  openDevice := 7
  querycap := some 0x05000001
  cropcap := true
  fmt := some ⟨640, 480, 0, 0⟩
  reqbufs := some 2
  calloc := true
  malloc i := some (UInt64.ofNat (0x20000000 + 614400 * i))
  querybuf i := some (614400, UInt32.ofNat (i * 614400))
  mmap i := some (UInt64.ofNat (0x10000000 * (i + 1)))
  streamoff := true
  munmap _ := true
  close := true

example : Ends ((setUp answering (.streaming .MMAP)).run ⟨[], 0, []⟩) fun s =>
    s.n_buffers = 2 ∧ Ends ((tearDown answering (.streaming .MMAP)).run s) fun t => t.calls.length = 17 :=
  ⟨rfl, (rfl : _ = _)⟩

/-- With `read` and user buffers, all lines of a picture fit into every buffer if and only if they fit into 32 bits. -/
theorem picture_fits_iff (hmethod : method ≠ .streaming .MMAP) {s : Globals}
    (hs : (setUp answers method).run ⟨[], 0, []⟩ = .ok () s) {fmt : PixFormat} (hfmt : answers.fmt = some fmt) :
    (∀ b ∈ s.buffers, lines fmt ≤ b.length.toNat) ↔ lines fmt < 2 ^ 32 := by
  have hsetUp := setUp_ends answers method
  rw [hs] at hsetUp
  have hdone : SetUp answers method s := hsetUp
  have hsize : 0 < s.buffers.length ∧ ∀ b ∈ s.buffers, b.length = (sizeimage fmt).toUInt64 := by
    obtain ⟨fmt', hfmt', h⟩ := hdone
    obtain rfl := Option.some.inj (hfmt'.symm.trans hfmt)
    match method, h with
    | .READ, h => exact ⟨by rw [h.length_eq]; decide, h.size_eq hmethod⟩
    | .streaming .USERPTR, h => exact ⟨by rw [h.length_eq]; decide, h.size_eq hmethod⟩
  obtain ⟨hpos, hlength⟩ := hsize
  have hone : ∀ b ∈ s.buffers, (lines fmt ≤ b.length.toNat ↔ lines fmt < 2 ^ 32) := by
    intro b hb
    rw [hlength b hb, UInt32.toNat_toUInt64]
    exact sizeimage_covers_iff fmt
  constructor
  · intro h
    exact (hone _ (List.getElem_mem hpos)).1 (h _ (List.getElem_mem hpos))
  · intro h b hb
    exact (hone b hb).2 h

theorem picture_fits_iff_userp :
    ∃ s, (setUp answering (.streaming .USERPTR)).run ⟨[], 0, []⟩ = .ok () s ∧
      ∀ b ∈ s.buffers, lines ⟨640, 480, 0, 0⟩ ≤ b.length.toNat := by
  have hmethod : Method.streaming .USERPTR ≠ .streaming .MMAP := by decide
  have hrun : (setUp answering (.streaming .USERPTR)).run ⟨[], 0, []⟩ = .ok () _ := rfl
  have hfmt : answering.fmt = some ⟨640, 480, 0, 0⟩ := rfl
  exact ⟨_, hrun, (picture_fits_iff hmethod hrun hfmt).2 (by decide)⟩

end FirstFrame

end Twincam
