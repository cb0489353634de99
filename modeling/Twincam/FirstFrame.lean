import Twincam.Lib.Machine
import Mathlib.Algebra.Group.Nat.Defs
import Mathlib.Data.List.Basic

/-!
# The first-frame grabber (`first_frame.c`)

`start_capturing` queues every buffer with the driver; `mainloop` waits for a frame, takes the buffer it is in out of
the driver, writes it out and queues the buffer again, until `frame_count` frames were written.  The machine stops at
every call into the kernel; its events are the answers: the calls wrapped by `xioctl` and the `select` are tried again
when they are interrupted, and a `VIDIOC_DQBUF` with `EAGAIN` leads back to the `select`.

`buffers_circulate`: at each `select` the driver holds every buffer exactly once, and when `mainloop` returns it has
written exactly `frame_count` frames.
-/

namespace Twincam

namespace FirstFrame

/-- The streaming methods of `enum io_method`. -/
inductive IoMethod
  | MMAP
  | USERPTR
deriving DecidableEq

/-- `struct buffer`; whatever the method, the length comes from a 32-bit field of the driver. -/
structure Buffer where
  start : UInt64
  length : UInt64
  length_lt : length.toNat < 2 ^ 32

/-- The global variables. -/
structure Program where
  io : IoMethod
  buffers : List Buffer
  n_buffers : UInt32
  length_eq : buffers.length = n_buffers.toNat
  frame_count : Int32

/-- The fields of `struct v4l2_buffer` that identify a buffer, and how much of it the driver filled. -/
structure V4l2Buffer where
  index : UInt32
  userptr : UInt64
  length : UInt32
  bytesused : UInt32
deriving DecidableEq

/-- How the driver knows a buffer that was queued. -/
inductive Queued
  | index (index : UInt32)
  | userptr (userptr : UInt64) (length : UInt32)
deriving DecidableEq

/-- A call of `process_image`. -/
structure ProcessImage where
  p : UInt64
  size : Int32
deriving DecidableEq

/-- The call that the program is about to make: a `VIDIOC_QBUF` for buffer `i` or the `VIDIOC_STREAMON` of
`start_capturing`, the `select` of `mainloop`, the `VIDIOC_DQBUF` or the `VIDIOC_QBUF` of `read_frame`.  Or where it
ended: `mainloop` returned, the program exited with an error, or an assertion failed. -/
inductive Pc
  | queue (i : Nat)
  | streamOn
  | select
  | dequeue
  | requeue (buf : V4l2Buffer)
  | returned
  | exited
  | aborted
deriving DecidableEq

/-- The answer to the call: it is interrupted, it fails, it times out, no frame is there, it succeeds, or it succeeds
with a buffer. -/
inductive Answer
  | interrupted
  | error
  | timeout
  | again
  | ok
  | dequeued (buf : V4l2Buffer)

/-- `count` is the local variable of `mainloop`; `held` are the buffers in the driver, and `images` the calls of
`process_image` so far. -/
structure State where
  pc : Pc
  count : UInt32
  held : List Queued
  images : List ProcessImage

namespace Program

variable (p : Program)

def key (buf : V4l2Buffer) : Queued :=
  match p.io with
  | .MMAP => .index buf.index
  | .USERPTR => .userptr buf.userptr buf.length

/-- What `start_capturing` fills in for buffer `i`. -/
def startBuffer (i : Nat) (b : Buffer) : V4l2Buffer :=
  match p.io with
  | .MMAP => ⟨UInt32.ofNat i, 0, 0, 0⟩
  | .USERPTR => ⟨UInt32.ofNat i, b.start, b.length.toUInt32, 0⟩

/-- The loop condition of `start_capturing`. -/
def queueFrom (i : Nat) : Pc := if i < p.n_buffers.toNat then .queue i else .streamOn

/-- The loop condition of `mainloop`, with its decrement. -/
def whileCount (s : State) : State :=
  { s with pc := if 0 < s.count then .select else .returned, count := s.count - 1 }

/-- What `read_frame` hands to `process_image`; `none` when its assertion fails. -/
def image (buf : V4l2Buffer) : Option UInt64 :=
  match p.io with
  | .MMAP => if buf.index < p.n_buffers then (p.buffers[buf.index.toNat]?).map (·.start) else none
  | .USERPTR =>
    let i := p.buffers.findIdx fun b => buf.userptr == b.start && buf.length.toUInt64 == b.length
    if i < p.n_buffers.toNat then some buf.userptr else none

/-- `read_frame` after a `VIDIOC_DQBUF` that succeeded. -/
def processFrame (s : State) (buf : V4l2Buffer) : State :=
  let s := { s with held := s.held.erase (p.key buf) }
  match p.image buf with
  | none => { s with pc := .aborted }
  | some start => { s with pc := .requeue buf, images := s.images ++ [⟨start, buf.bytesused.toInt32⟩] }

/-- The answer to the call that the program is about to make.  The driver dequeues only buffers it holds, as they were
queued. -/
def step (s : State) (answer : Answer) : Option State :=
  match s.pc, answer with
  | .queue i, .ok =>
    (p.buffers[i]?).map fun b =>
      { s with pc := p.queueFrom (i + 1), held := s.held ++ [p.key (p.startBuffer i b)] }
  | .streamOn, .ok => some (whileCount { s with count := p.frame_count.toUInt32 })
  | .select, .ok => some { s with pc := .dequeue }
  | .select, .timeout => some { s with pc := .exited }
  | .dequeue, .again => some { s with pc := .select }
  | .dequeue, .dequeued buf => if p.key buf ∈ s.held then some (p.processFrame s buf) else none
  | .requeue buf, .ok => some (whileCount { s with held := s.held ++ [p.key buf] })
  | .queue _, .interrupted | .streamOn, .interrupted | .select, .interrupted | .dequeue, .interrupted
  | .requeue _, .interrupted => some s
  | .queue _, .error | .streamOn, .error | .select, .error | .dequeue, .error | .requeue _, .error =>
    some { s with pc := .exited }
  | _, _ => none

/-- The program from `start_capturing` on, with a driver that holds no buffer yet. -/
def machine : Machine State Answer where
  init s := s.pc = p.queueFrom 0 ∧ s.held = [] ∧ s.images = []
  step := p.step

/-- Every buffer of the program once, by the index that the driver gave it or by its memory. -/
def keys : List Queued :=
  match p.io with
  | .MMAP => (List.range p.n_buffers.toNat).map fun i => .index (UInt32.ofNat i)
  | .USERPTR => p.buffers.map fun b => .userptr b.start b.length.toUInt32

end Program

namespace Program

variable {p : Program}

/-! ### The buffers of the program -/

private theorem length_keys (p : Program) : p.keys.length = p.n_buffers.toNat := by
  unfold keys
  cases p.io with
  | MMAP => rw [List.length_map, List.length_range]
  | USERPTR => rw [List.length_map, p.length_eq]

private theorem key_startBuffer (p : Program) (i : Nat) (b : Buffer) :
    p.key (p.startBuffer i b) =
      match p.io with
      | .MMAP => .index (UInt32.ofNat i)
      | .USERPTR => .userptr b.start b.length.toUInt32 := by
  unfold key startBuffer
  cases p.io <;> rfl

/-- What `start_capturing` queues for buffer `i` is that buffer, and no other one. -/
private theorem getElem?_keys {i : Nat} {b : Buffer} (hb : p.buffers[i]? = some b) :
    p.keys[i]? = some (p.key (p.startBuffer i b)) := by
  have hi : i < p.n_buffers.toNat := by
    rw [← p.length_eq]
    exact (List.getElem?_eq_some_iff.1 hb).1
  rw [key_startBuffer]
  unfold keys
  cases p.io with
  | MMAP =>
    dsimp only
    rw [List.getElem?_map, List.getElem?_range hi, Option.map_some]
  | USERPTR =>
    dsimp only
    rw [List.getElem?_map, hb, Option.map_some]

private theorem take_keys_succ {i : Nat} {b : Buffer} (hb : p.buffers[i]? = some b) :
    p.keys.take (i + 1) = p.keys.take i ++ [p.key (p.startBuffer i b)] := by
  rw [List.take_add_one, getElem?_keys hb, Option.toList_some]

/-- The buffer with the index that was queued. -/
private theorem image_mmap {buf : V4l2Buffer} (hio : p.io = .MMAP) {i : Nat} (hi : i < p.buffers.length)
    (hindex : buf.index = UInt32.ofNat i) : p.image buf = some p.buffers[i].start := by
  have hlt := p.n_buffers.toNat_lt
  have hn := p.length_eq
  have hnat : buf.index.toNat = i := by
    have hsize : i < UInt32.size := by
      show i < 2 ^ 32
      omega
    rw [hindex]
    exact UInt32.toNat_ofNat_of_lt hsize
  have hassert : buf.index < p.n_buffers := by
    rw [UInt32.lt_iff_toNat_lt]
    omega
  unfold image
  rw [hio]
  dsimp only
  rw [if_pos hassert, hnat, List.getElem?_eq_getElem hi, Option.map_some]

/-- The search finds a buffer with the pointer and the length that were queued. -/
private theorem image_userptr {buf : V4l2Buffer} (hio : p.io = .USERPTR) {b : Buffer} (hb : b ∈ p.buffers)
    (hptr : buf.userptr = b.start) (hlen : buf.length = b.length.toUInt32) : p.image buf = some b.start := by
  have hn := p.length_eq
  have hback : b.length.toUInt32.toUInt64 = b.length := by
    have hsize := b.length_lt
    apply UInt64.toNat.inj
    rw [UInt32.toNat_toUInt64, UInt64.toNat_toUInt32]
    omega
  have hmatch : (buf.userptr == b.start && buf.length.toUInt64 == b.length) = true := by
    rw [hptr, hlen, hback]
    simp
  have hfound : p.buffers.findIdx (fun b => buf.userptr == b.start && buf.length.toUInt64 == b.length) <
      p.n_buffers.toNat := by
    rw [← hn, List.findIdx_lt_length]
    exact ⟨b, hb, hmatch⟩
  unfold image
  rw [hio]
  dsimp only
  rw [if_pos hfound, hptr]

/-- A buffer that was queued by the program passes the assertion of `read_frame`, and its address is that of a buffer
of the program. -/
theorem image_of_mem_keys {buf : V4l2Buffer} (h : p.key buf ∈ p.keys) :
    ∃ b ∈ p.buffers, p.image buf = some b.start := by
  unfold key keys at h
  cases hio : p.io with
  | MMAP =>
    simp only [hio, List.mem_map, List.mem_range] at h
    obtain ⟨i, hi, hindex⟩ := h
    rw [← p.length_eq] at hi
    exact ⟨p.buffers[i], List.getElem_mem hi, image_mmap hio hi (Queued.index.inj hindex).symm⟩
  | USERPTR =>
    simp only [hio, List.mem_map] at h
    obtain ⟨b, hb, hkey⟩ := h
    obtain ⟨hptr, hlen⟩ := Queued.userptr.inj hkey
    exact ⟨b, hb, image_userptr hio hb hptr.symm hlen.symm⟩

/-! ### The invariant -/

/-- The images written so far are those of buffers of the program, and `left` frames are to come; `mainloop` counts
them in an `unsigned int`. -/
def Written (p : Program) (s : State) (left : Nat) : Prop :=
  s.images.length + left = p.frame_count.toUInt32.toNat ∧ ∀ image ∈ s.images, ∃ b ∈ p.buffers, image.p = b.start

/-- What the driver holds, and how many frames are to come, at each call. -/
def Inv (p : Program) (s : State) : Prop :=
  match s.pc with
  | .queue i => i < p.n_buffers.toNat ∧ s.held = p.keys.take i ∧ s.images = []
  | .streamOn => s.held = p.keys ∧ s.images = []
  | .select | .dequeue => s.held.Perm p.keys ∧ p.Written s (s.count.toNat + 1)
  | .requeue buf => (p.key buf :: s.held).Perm p.keys ∧ p.Written s s.count.toNat
  | .returned => s.held.Perm p.keys ∧ p.Written s 0
  | .exited => True
  | .aborted => False

private theorem inv_queueFrom {s : State} {i : Nat} (hi : i ≤ p.n_buffers.toNat) (hpc : s.pc = p.queueFrom i)
    (hheld : s.held = p.keys.take i) (himages : s.images = []) : p.Inv s := by
  unfold Inv
  rw [hpc]
  unfold queueFrom
  by_cases hlt : i < p.n_buffers.toNat
  · rw [if_pos hlt]
    exact ⟨hlt, hheld, himages⟩
  · rw [if_neg hlt]
    refine ⟨?_, himages⟩
    rw [hheld, List.take_of_length_le]
    rw [length_keys]
    omega

/-- The count of `mainloop` goes down by one. -/
theorem toNat_sub_one {count : UInt32} (hpos : 0 < count) : (count - 1).toNat + 1 = count.toNat := by
  have hlt := UInt32.lt_iff_toNat_lt.1 hpos
  have hone : (1 : UInt32).toNat = 1 := rfl
  have hzero : (0 : UInt32).toNat = 0 := rfl
  rw [UInt32.toNat_sub_of_le _ _ (UInt32.le_iff_toNat_le.2 (by omega))]
  omega

/-- The loop of `mainloop` starts another frame, or ends when none is left. -/
private theorem inv_whileCount {s : State} (hheld : s.held.Perm p.keys) (hwritten : p.Written s s.count.toNat) :
    p.Inv (whileCount s) := by
  unfold Inv whileCount
  by_cases hpos : 0 < s.count
  · have hnat := toNat_sub_one hpos
    simp only [if_pos hpos]
    refine ⟨hheld, ?_⟩
    rw [hnat]
    exact hwritten
  · have hzero : s.count.toNat = 0 := by
      by_contra hne
      exact hpos (UInt32.lt_iff_toNat_lt.2 (Nat.pos_of_ne_zero hne))
    simp only [if_neg hpos]
    refine ⟨hheld, ?_⟩
    rw [← hzero]
    exact hwritten

private theorem inv_processFrame {s : State} {buf : V4l2Buffer} (hheld : s.held.Perm p.keys)
    (hwritten : p.Written s (s.count.toNat + 1)) (hbuf : p.key buf ∈ s.held) : p.Inv (p.processFrame s buf) := by
  obtain ⟨b, hb, himage⟩ := image_of_mem_keys (hheld.mem_iff.1 hbuf)
  obtain ⟨hleft, hown⟩ := hwritten
  unfold Inv processFrame
  rw [himage]
  refine ⟨(List.perm_cons_erase hbuf).symm.trans hheld, ?_, ?_⟩
  · simp only [List.length_append, List.length_singleton]
    omega
  · intro image hmem
    rcases List.mem_append.1 hmem with hold | hnew
    · exact hown image hold
    · rw [List.mem_singleton.1 hnew]
      exact ⟨b, hb, rfl⟩

/-! ### The answers -/

/-- An interrupted call is made again. -/
private theorem step_interrupted {s s' : State} (hs : p.step s .interrupted = some s') : s' = s := by
  cases hpc : s.pc <;> simp only [step, hpc, Option.some.injEq, reduceCtorEq] at hs <;> exact hs.symm

/-- The program exits after any call that fails. -/
private theorem step_error {s s' : State} (hs : p.step s .error = some s') : s'.pc = .exited := by
  cases hpc : s.pc <;> simp only [step, hpc, Option.some.injEq, reduceCtorEq] at hs <;> rw [← hs]

private theorem step_timeout {s s' : State} (hs : p.step s .timeout = some s') : s'.pc = .exited := by
  cases hpc : s.pc <;> simp only [step, hpc, Option.some.injEq, reduceCtorEq] at hs
  rw [← hs]

private theorem inv_exited {s : State} (hpc : s.pc = .exited) : p.Inv s := by
  unfold Inv
  rw [hpc]
  trivial

/-- No frame is there: the `select` is made again. -/
private theorem inv_again {s s' : State} (h : p.Inv s) (hs : p.step s .again = some s') : p.Inv s' := by
  cases hpc : s.pc <;> simp only [step, hpc, Option.some.injEq, reduceCtorEq] at hs
  subst hs
  unfold Inv at h
  rw [hpc] at h
  exact h

/-- The driver hands out a buffer it holds. -/
private theorem inv_dequeued {s s' : State} {buf : V4l2Buffer} (h : p.Inv s) (hs : p.step s (.dequeued buf) = some s') :
    p.Inv s' := by
  cases hpc : s.pc <;> simp only [step, hpc, reduceCtorEq] at hs
  unfold Inv at h
  rw [hpc] at h
  obtain ⟨hheld, hwritten⟩ := h
  split at hs
  · rename_i hbuf
    obtain rfl := Option.some.inj hs
    exact inv_processFrame hheld hwritten hbuf
  · cases hs

/-- A call that succeeds, for each call the program may be about to make. -/
private theorem inv_ok {s s' : State} (h : p.Inv s) (hs : p.step s .ok = some s') : p.Inv s' := by
  unfold Inv at h
  cases hpc : s.pc with
  | queue i =>
    -- `start_capturing` queued a buffer
    simp only [step, hpc] at hs
    rw [hpc] at h
    obtain ⟨hi, hheld, himages⟩ := h
    obtain ⟨b, hb, rfl⟩ := Option.map_eq_some_iff.1 hs
    refine inv_queueFrom hi rfl ?_ himages
    rw [take_keys_succ hb, hheld]
  | streamOn =>
    -- the stream is on, and `mainloop` starts
    simp only [step, hpc, Option.some.injEq] at hs
    rw [hpc] at h
    obtain ⟨hheld, himages⟩ := h
    subst hs
    refine inv_whileCount (.of_eq hheld) ⟨?_, by simp [himages]⟩
    rw [himages, List.length_nil, Nat.zero_add]
  | select =>
    simp only [step, hpc, Option.some.injEq] at hs
    rw [hpc] at h
    subst hs
    exact h
  | requeue buf =>
    -- the buffer goes back to the driver
    simp only [step, hpc, Option.some.injEq] at hs
    rw [hpc] at h
    obtain ⟨hheld, hwritten⟩ := h
    subst hs
    have hback : (s.held ++ [p.key buf]).Perm p.keys := (List.perm_append_singleton _ _).trans hheld
    exact inv_whileCount hback hwritten
  | dequeue => simp [step, hpc] at hs
  | returned => simp [step, hpc] at hs
  | exited => simp [step, hpc] at hs
  | aborted => simp [step, hpc] at hs

private theorem inv_step {s s' : State} {answer : Answer} (h : p.Inv s)
    (hs : p.step s answer = some s') : p.Inv s' := by
  cases answer with
  | interrupted =>
    rw [step_interrupted hs]
    exact h
  | error => exact inv_exited (step_error hs)
  | timeout => exact inv_exited (step_timeout hs)
  | again => exact inv_again h hs
  | ok => exact inv_ok h hs
  | dequeued buf => exact inv_dequeued h hs

theorem inv_of_reachable {s : State} (h : p.machine.Reachable s) : p.Inv s := by
  refine Machine.ReachableVia.invariant (M := p.machine) ?_ (fun _ _ _ hi _ hs => inv_step hi hs) h
  rintro s ⟨hpc, hheld, himages⟩
  exact inv_queueFrom (Nat.zero_le _) hpc hheld himages

/-- For both streaming methods, any number of buffers, any count of frames and any answers of the driver: at each
`select` the driver holds every buffer exactly once, no assertion fails, and when `mainloop` returns, `process_image`
was called exactly `frame_count` times, each time on a buffer of the program. -/
theorem buffers_circulate (hcount : 0 ≤ p.frame_count) {s : State} (h : p.machine.Reachable s) :
    (s.pc = .select → s.held.Perm p.keys) ∧
      (s.pc = .returned → (s.images.length : Int) = p.frame_count.toInt ∧
        ∀ image ∈ s.images, ∃ b ∈ p.buffers, image.p = b.start) ∧
      s.pc ≠ .aborted := by
  have hinv := inv_of_reachable h
  have hnat : (p.frame_count.toUInt32.toNat : Int) = p.frame_count.toInt := by
    rw [Int32.toNat_toUInt32_of_le hcount, Int32.toNatClampNeg]
    exact Int.toNat_of_nonneg (Int32.le_iff_toInt_le.1 hcount)
  unfold Inv at hinv
  refine ⟨?_, ?_, ?_⟩
  · intro hpc
    rw [hpc] at hinv
    exact hinv.1
  · intro hpc
    rw [hpc] at hinv
    obtain ⟨-, hleft, hown⟩ := hinv
    exact ⟨by omega, hown⟩
  · intro hpc
    rw [hpc] at hinv
    exact hinv

/-- Two user buffers, and two frames to grab. -/
def twoBuffers : Program where
  io := .USERPTR
  buffers := [⟨4096, 600, by decide⟩, ⟨8192, 600, by decide⟩]
  n_buffers := 2
  length_eq := rfl
  frame_count := 2

/-- The second buffer is filled first, then the `select` is interrupted and wakes up without a frame. -/
def twoFrames : List Answer :=
  [.ok, .interrupted, .ok, .ok, .ok, .dequeued ⟨1, 8192, 600, 600⟩, .ok, .interrupted, .ok, .again, .ok,
    .dequeued ⟨0, 4096, 600, 300⟩, .ok]

theorem buffers_circulate_two :
    ∃ s, twoBuffers.machine.replay ⟨twoBuffers.queueFrom 0, 0, [], []⟩ twoFrames = some s ∧
      s.pc = .returned ∧ (s.images.length : Int) = 2 := by
  have hrun : twoBuffers.machine.replay ⟨twoBuffers.queueFrom 0, 0, [], []⟩ twoFrames = some _ := rfl
  have hinit : twoBuffers.machine.init ⟨twoBuffers.queueFrom 0, 0, [], []⟩ := ⟨rfl, rfl, rfl⟩
  have hreach := Machine.reachable_of_replay hinit hrun
  exact ⟨_, hrun, rfl, ((buffers_circulate (by decide) hreach).2.1 rfl).1⟩

end Program

end FirstFrame

end Twincam
