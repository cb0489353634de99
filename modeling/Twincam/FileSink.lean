import Twincam.Lib.Machine
import Twincam.Lib.OpenFile
import Twincam.Image

/-!
# The file sink (`file_sink.h`, `file_sink.cpp`)

`writeBuffer` opens the file without truncating it and writes the planes of one frame from its beginning.  What an
older, longer frame left behind the new one stays.  `whole_frames_iff` says which sequences of frames keep the file made
of whole frames.
-/

namespace Twincam

open Libcamera (FrameBufferPtr FrameBufferPlane Request)

/-- A byte of the file, and the number of the frame that wrote it, if one did. -/
structure Cell where
  byte : UInt8
  frame : Option Nat
deriving DecidableEq

/-- What a buffer comes back with: the `bytesused` of its planes, the memory at that time, and how the kernel answers
`open` and each `write`, with the number of bytes it takes. -/
structure Completed where
  bytesused : List UInt32
  mem : Nat → UInt8
  openOk : Bool
  write : Nat → UInt32 → Option Nat

/-- The first `n` bytes of a span. -/
def Span.bytes (span : Span) (mem : Nat → UInt8) (n : Nat) : List UInt8 :=
  (List.range n).map fun j => mem (span.data + j)

structure FileSink where
  mappedBuffers_ : Std.TreeMap FrameBufferPtr Image

namespace FileSink

-- The planes of the frame buffers, which never change.
variable (planes : FrameBufferPtr → List FrameBufferPlane)

/-- `FileSink::mapBuffer`; `none` when one of the assertions fails. -/
def mapBuffer (sink : FileSink) (k : Dmabufs) (buffer : FrameBufferPtr) : Option FileSink :=
  match Image.fromFrameBuffer k .ReadOnly (planes buffer) with
  | some ⟨some image, _, _⟩ => some ⟨sink.mappedBuffers_.insert buffer image⟩
  | _ => none

/-- The loop of `writeBuffer` from the plane `i` on: the file, and whether the loop ends without a write error; `none`
when the null image is used or a plane outside of the image or of the metadata is read. -/
def writePlanes (image : Option Image) (done : Completed) (frame : Nat) :
    Nat → List FrameBufferPlane → OpenFile Cell → Option (OpenFile Cell × Bool)
  | _, [], file => some (file, true)
  | i, _ :: rest, file =>
    match done.bytesused[i]?, image.map fun image : Image => image.data i with
    | some bytesused, some (.ok data) =>
      let length := min bytesused (UInt32.ofNat data.size)
      match done.write i length with
      | none => some (file, false)
      | some n =>
        let file' := file.write ((data.bytes done.mem (min n length.toNat)).map (⟨·, some frame⟩))
        -- the result of `write` is stored in an `int`
        let ret := (n : Int).bmod (2 ^ 32)
        if ret < 0 ∨ ret ≠ (length.toNat : Int).bmod (2 ^ 32) then some (file', false)
        else writePlanes image done frame (i + 1) rest file'
    | _, _ => none

/-- The sink, the file that `filename_` names, if there is one, and the payloads of the frames written so far. -/
structure State where
  sink : FileSink
  file : Option (List Cell)
  frames : List (List UInt8)

/-- The first `min(bytesused, length)` bytes of every plane, one plane after the other. -/
def payload (mem : Nat → UInt8) : List Span → List FrameBufferPlane → List UInt32 → List UInt8
  | data :: spans, plane :: planes, bytesused :: used =>
    data.bytes mem (min bytesused.toNat plane.length.toNat) ++ payload mem spans planes used
  | _, _, _ => []

/-- The payload of a buffer that comes back. -/
def State.payload (s : State) (buffer : FrameBufferPtr) (done : Completed) : List UInt8 :=
  match s.sink.mappedBuffers_[buffer]? with
  | none => []
  | some image => FileSink.payload done.mem image.planes_ (planes buffer) done.bytesused

/-- `FileSink::writeBuffer`: the state after it, and whether opening the file and all writes succeeded in full. -/
def writeBuffer (s : State) (buffer : FrameBufferPtr) (done : Completed) : Option (State × Bool) :=
  if !done.openOk then some (s, false)
  else
    let fd := OpenFile.ofContents (s.file.getD [])
    (writePlanes s.sink.mappedBuffers_[buffer]? done s.frames.length 0 (planes buffer) fd).map fun (fd, complete) =>
      ({ s with file := some fd.contents, frames := s.frames ++ [s.payload planes buffer done] }, complete)

/-- `FileSink::processRequest`, which always returns `true`. -/
def processRequest (s : State) (request : Request) (done : FrameBufferPtr → Completed) : Option (State × Bool) :=
  (request.buffers.foldlM (fun s b => (writeBuffer planes s b.2 (done b.2)).map Prod.fst) s).map fun s => (s, true)

inductive Event
  | mapBuffer (k : Dmabufs) (buffer : FrameBufferPtr)
  | writeBuffer (buffer : FrameBufferPtr) (done : Completed)

def step (s : State) : Event → Option State
  | .mapBuffer k buffer => (s.sink.mapBuffer planes k buffer).map fun sink => { s with sink := sink }
  | .writeBuffer buffer done =>
    match writeBuffer planes s buffer done with
    | some (s', true) => some s'
    | _ => none

/-- The sink in front of any file, with all opens and writes succeeding in full. -/
def machine : Machine State Event where
  init s := s.sink.mappedBuffers_ = ∅ ∧ s.frames = [] ∧ ∀ c ∈ s.file.getD [], c.frame = none
  step := step planes

variable {planes}

/-! ### One frame -/

private theorem drop_eq_cons {α : Type} {xs : List α} {i : Nat} {a : α} (h : xs[i]? = some a) :
    xs.drop i = a :: xs.drop (i + 1) := by
  obtain ⟨hi, rfl⟩ := List.getElem?_eq_some_iff.1 h
  exact List.drop_eq_getElem_cons hi

theorem toNat_min (a b : UInt32) : (min a b).toNat = min a.toNat b.toNat := by
  show (if a ≤ b then a else b).toNat = _
  by_cases h : a ≤ b
  · have hle := UInt32.le_iff_toNat_le.1 h
    rw [if_pos h]
    omega
  · have hle : ¬a.toNat ≤ b.toNat := fun hle => h (UInt32.le_iff_toNat_le.2 hle)
    rw [if_neg h]
    omega

/-- The image has the planes of the buffer, with their lengths. -/
def SizesOf (image : List Span) (planes : List FrameBufferPlane) : Prop :=
  image.map (·.size) = planes.map (·.length.toNat)

/-- A write that is not reported took all its bytes. -/
private theorem taken_all {n : Nat} {length : UInt32}
    (h : (n : Int).bmod (2 ^ 32) = (length.toNat : Int).bmod (2 ^ 32)) : min n length.toNat = length.toNat := by
  have hlt := length.toNat_lt
  rw [Int.bmod_def, Int.bmod_def] at h
  omega

/-- When the loop ends without a write error, it wrote the payload. -/
private theorem writePlanes_complete {image : Image} {done : Completed} {frame i : Nat} {rest : List FrameBufferPlane}
    {file file' : OpenFile Cell} (hsizes : SizesOf (image.planes_.drop i) rest)
    (h : writePlanes (some image) done frame i rest file = some (file', true)) :
    file' = file.write
      ((payload done.mem (image.planes_.drop i) rest (done.bytesused.drop i)).map (⟨·, some frame⟩)) := by
  induction rest generalizing i file with
  | nil =>
    simp only [writePlanes, Option.some.injEq, Prod.mk.injEq, and_true] at h
    rw [payload, List.map_nil, OpenFile.write_nil, h]
    simp
  | cons plane rest ih =>
    cases hdata : image.planes_[i]? with
    | none =>
      have hnil : image.planes_.drop i = [] := List.drop_eq_nil_iff.2 (List.getElem?_eq_none_iff.1 hdata)
      rw [hnil] at hsizes
      cases hsizes
    | some data =>
      rw [drop_eq_cons hdata] at hsizes
      obtain ⟨hsize, hrest⟩ : data.size = plane.length.toNat ∧ SizesOf (image.planes_.drop (i + 1)) rest :=
        List.cons.inj hsizes
      have hok : image.data i = .ok data := by
        have hlt := (List.getElem?_eq_some_iff.1 hdata).1
        rw [Image.data, if_pos hlt.le, hdata]
      rw [writePlanes, Option.map_some, hok] at h
      cases hused : done.bytesused[i]? with
      | none => simp only [hused, reduceCtorEq] at h
      | some bytesused =>
        have hlen : (min bytesused (UInt32.ofNat data.size)).toNat = min bytesused.toNat plane.length.toNat := by
          rw [hsize, UInt32.ofNat_toNat, toNat_min]
        rw [drop_eq_cons hdata, drop_eq_cons hused, payload, List.map_append, ← OpenFile.write_write]
        simp only [hused] at h
        cases hn : done.write i (min bytesused (UInt32.ofNat data.size)) with
        | none => simp only [hn, Option.some.injEq, Prod.mk.injEq, Bool.false_eq_true, and_false] at h
        | some n =>
          simp only [hn] at h
          by_cases hret : (n : Int).bmod (2 ^ 32) < 0 ∨
              (n : Int).bmod (2 ^ 32) ≠ ((min bytesused (UInt32.ofNat data.size)).toNat : Int).bmod (2 ^ 32)
          · simp only [if_pos hret, Option.some.injEq, Prod.mk.injEq, Bool.false_eq_true, and_false] at h
          · rw [if_neg hret] at h
            rw [not_or, not_not] at hret
            rw [taken_all hret.2, hlen] at h
            exact ih hrest h

/-- What a frame written in full leaves in the file. -/
private theorem writeBuffer_complete {s s' : State} {buffer : FrameBufferPtr} {done : Completed}
    (hsizes : ∀ image, s.sink.mappedBuffers_[buffer]? = some image → SizesOf image.planes_ (planes buffer))
    (h : writeBuffer planes s buffer done = some (s', true)) :
    s' = { s with
      file := some ((s.payload planes buffer done).map (⟨·, some s.frames.length⟩) ++
        (s.file.getD []).drop (s.payload planes buffer done).length)
      frames := s.frames ++ [s.payload planes buffer done] } := by
  unfold writeBuffer at h
  split at h
  · simp at h
  · obtain ⟨⟨fd, complete⟩, hloop, heq⟩ := Option.map_eq_some_iff.1 h
    obtain ⟨rfl, rfl⟩ := Prod.mk.inj heq
    cases himage : s.sink.mappedBuffers_[buffer]? with
    | none =>
      have hnil : s.payload planes buffer done = [] := by rw [State.payload, himage]
      rw [himage] at hloop
      cases hplanes : planes buffer with
      | nil =>
        rw [hplanes, writePlanes, Option.some.injEq] at hloop
        obtain ⟨rfl, -⟩ := Prod.mk.inj hloop
        simp [hnil, OpenFile.contents_ofContents]
      | cons plane rest =>
        simp [hplanes, writePlanes] at hloop
    | some image =>
      have hpayload : s.payload planes buffer done = payload done.mem image.planes_ (planes buffer) done.bytesused := by
        rw [State.payload, himage]
      rw [himage] at hloop
      have hwrite := writePlanes_complete (i := 0) (by simpa using hsizes image himage) hloop
      rw [List.drop_zero, List.drop_zero] at hwrite
      rw [hwrite, ← hpayload, OpenFile.contents_write_ofContents, List.length_map]

/-! ### The file over a run -/

/-- The bytes of the frame number `i`, as they stand in the file. -/
def frameCells (frames : List (List UInt8)) (i : Nat) : List Cell := (frames.getD i []).map (⟨·, some i⟩)

/-- Once a frame was written, the file is a sequence of complete frames that ends with the last one. -/
def WholeFrames (s : State) : Prop :=
  s.frames ≠ [] → ∃ earlier : List Nat, (∀ i ∈ earlier, i < s.frames.length) ∧
    s.file = some ((earlier ++ [s.frames.length - 1]).flatMap (frameCells s.frames))

variable (planes) in
/-- The frame is at least as long as the file, or it is empty and not the first one. -/
def Covers (s : State) : Event → Prop
  | .mapBuffer _ _ => True
  | .writeBuffer buffer done =>
    (s.file.getD []).length ≤ (s.payload planes buffer done).length ∨
      (s.payload planes buffer done = [] ∧ s.frames ≠ [])

variable (planes) in
/-- No byte is of a frame to come, and the mapped images have the planes of their buffers. -/
structure Inv (s : State) : Prop where
  older : ∀ c ∈ s.file.getD [], ∀ i, c.frame = some i → i < s.frames.length
  sizes : ∀ buffer image, s.sink.mappedBuffers_[buffer]? = some image → SizesOf image.planes_ (planes buffer)

private theorem frameCells_append {frames : List (List UInt8)} {i : Nat} (h : i < frames.length) (p : List UInt8) :
    frameCells (frames ++ [p]) i = frameCells frames i := by
  unfold frameCells
  rw [List.getD_eq_getElem?_getD, List.getElem?_append_left h, ← List.getD_eq_getElem?_getD]

private theorem frameCells_last (frames : List (List UInt8)) (p : List UInt8) :
    frameCells (frames ++ [p]) frames.length = p.map (⟨·, some frames.length⟩) := by
  unfold frameCells
  rw [List.getD_eq_getElem?_getD, List.getElem?_concat_length, Option.getD_some]

private theorem flatMap_frameCells_append {frames : List (List UInt8)} {is : List Nat} (h : ∀ i ∈ is, i < frames.length)
    (p : List UInt8) : is.flatMap (frameCells (frames ++ [p])) = is.flatMap (frameCells frames) := by
  rw [List.flatMap_def, List.flatMap_def, List.map_congr_left fun i hi => frameCells_append (h i hi) p]

private theorem step_mapBuffer {s s' : State} {k : Dmabufs} {buffer : FrameBufferPtr}
    (h : (machine planes).step s (.mapBuffer k buffer) = some s') :
    ∃ image, SizesOf image.planes_ (planes buffer) ∧
      s' = { s with sink := ⟨s.sink.mappedBuffers_.insert buffer image⟩ } := by
  obtain ⟨sink, hsink, rfl⟩ := Option.map_eq_some_iff.1 h
  have hne : planes buffer ≠ [] := by
    intro hnil
    rw [mapBuffer, hnil] at hsink
    cases hsink
  obtain ⟨⟨image, mmaps, munmaps⟩, hr, -, hspans⟩ := Image.fromFrameBuffer_spec (k := k) hne .ReadOnly
  rw [mapBuffer, hr] at hsink
  cases image with
  | none => cases hsink
  | some image =>
    simp only [Option.some.injEq] at hsink
    refine ⟨image, ?_, by rw [← hsink]⟩
    rw [SizesOf, (hspans image rfl).1, List.map_map]
    rfl

private theorem writeBuffer_of_step {s s' : State} {buffer : FrameBufferPtr} {done : Completed}
    (h : (machine planes).step s (.writeBuffer buffer done) = some s') :
    writeBuffer planes s buffer done = some (s', true) := by
  simp only [machine, step] at h
  split at h
  · rename_i s'' heq
    rw [heq, Option.some.inj h]
  · cases h

/-- What one frame does to the file. -/
private theorem step_writeBuffer {s s' : State} {buffer : FrameBufferPtr} {done : Completed} (hinv : Inv planes s)
    (h : (machine planes).step s (.writeBuffer buffer done) = some s') :
    s' = { s with
      file := some (frameCells (s.frames ++ [s.payload planes buffer done]) s.frames.length ++
        (s.file.getD []).drop (s.payload planes buffer done).length)
      frames := s.frames ++ [s.payload planes buffer done] } := by
  rw [frameCells_last]
  exact writeBuffer_complete (hinv.sizes buffer) (writeBuffer_of_step h)

private theorem Inv.step {s s' : State} {e : Event} (hinv : Inv planes s) (h : (machine planes).step s e = some s') :
    Inv planes s' := by
  cases e with
  | mapBuffer k buffer =>
    obtain ⟨image, hsize, rfl⟩ := step_mapBuffer h
    refine ⟨hinv.older, ?_⟩
    intro b image' hget
    rw [Std.TreeMap.getElem?_insert] at hget
    by_cases heq : buffer = b
    · subst heq
      simp only [Std.compare_self, if_true, Option.some.injEq] at hget
      exact hget ▸ hsize
    · simp only [Nat.compare_eq_eq, heq, if_false] at hget
      exact hinv.sizes b image' hget
  | writeBuffer buffer done =>
    have hs' := step_writeBuffer hinv h
    subst hs'
    refine ⟨?_, hinv.sizes⟩
    intro c hc i hi
    simp only [Option.getD_some, List.mem_append, List.length_append, List.length_singleton] at hc ⊢
    rcases hc with hnew | hold
    · rw [frameCells_last] at hnew
      obtain ⟨b, -, rfl⟩ := List.mem_map.1 hnew
      cases hi
      omega
    · have hlt := hinv.older c (List.mem_of_mem_drop hold) i hi
      omega

/-- Behind a frame that is not empty, only nothing can be left. -/
private theorem nothing_left {frames : List (List UInt8)} {p : List UInt8} (hp : p ≠ []) {rest : List Cell}
    (hrest : ∀ c ∈ rest, ∀ i, c.frame = some i → i < frames.length) {earlier : List Nat}
    (h : frameCells (frames ++ [p]) frames.length ++ rest =
      (earlier ++ [frames.length]).flatMap (frameCells (frames ++ [p]))) : rest = [] := by
  by_contra hne
  have hcells : frameCells (frames ++ [p]) frames.length ≠ [] := by
    rw [frameCells_last]
    simpa using hp
  rw [List.flatMap_append, List.flatMap_singleton] at h
  have hlast : rest.getLast hne = (frameCells (frames ++ [p]) frames.length).getLast hcells := by
    have heq := congrArg List.getLast? h
    rw [List.getLast?_append_of_ne_nil _ hne, List.getLast?_append_of_ne_nil _ hcells,
      List.getLast?_eq_some_getLast hne, List.getLast?_eq_some_getLast hcells] at heq
    exact Option.some.inj heq
  have hmem := List.getLast_mem hcells
  rw [← hlast, frameCells_last] at hmem
  obtain ⟨b, -, hb⟩ := List.mem_map.1 hmem
  have hlt := hrest _ (List.getLast_mem hne) frames.length (by rw [← hb])
  exact absurd hlt (lt_irrefl _)

section OneMoreFrame

variable {frames : List (List UInt8)} {p : List UInt8} {rest : List Cell}

/-- A frame in front of the rest of the file, when all of it is made of whole frames: nothing is left of the rest, or
the frame is empty and not the first one. -/
private theorem nothing_left_or_empty (hrest : ∀ c ∈ rest, ∀ i, c.frame = some i → i < frames.length)
    {earlier : List Nat} (hlt : ∀ i ∈ earlier, i < frames.length + 1)
    (h : frameCells (frames ++ [p]) frames.length ++ rest =
      (earlier ++ [frames.length]).flatMap (frameCells (frames ++ [p]))) :
    rest = [] ∨ (p = [] ∧ frames ≠ []) := by
  by_cases hp : p = []
  · by_cases hframes : frames = []
    · -- the first frame is empty, and then so is all that the file can consist of
      left
      have hzero : ∀ i ∈ earlier ++ [frames.length], frameCells (frames ++ [p]) i = [] := by
        intro i hi
        have hi' : i = frames.length := by
          rcases List.mem_append.1 hi with hi | hi
          · have hi' := hlt i hi
            simp only [hframes, List.length_nil] at hi' ⊢
            omega
          · exact List.mem_singleton.1 hi
        rw [hi', frameCells_last, hp, List.map_nil]
      rw [List.flatMap_eq_nil_iff.2 hzero, List.append_eq_nil_iff] at h
      exact h.2
    · exact Or.inr ⟨hp, hframes⟩
  · exact Or.inl (nothing_left hp hrest h)

/-- An empty frame behind whole frames: the last one that is not empty stays the last one of the file. -/
private theorem flatMap_frameCells_empty {earlier : List Nat} (hlt : ∀ i ∈ earlier, i < frames.length)
    (hframes : frames ≠ []) :
    (earlier ++ [frames.length - 1] ++ [frames.length]).flatMap (frameCells (frames ++ [[]])) =
      (earlier ++ [frames.length - 1]).flatMap (frameCells frames) := by
  have hpos := List.length_pos_iff.2 hframes
  have hold : ∀ i ∈ earlier ++ [frames.length - 1], i < frames.length := by
    intro i hi
    rcases List.mem_append.1 hi with hi | hi
    · exact hlt i hi
    · rw [List.mem_singleton] at hi
      omega
  rw [List.flatMap_append, flatMap_frameCells_append hold, List.flatMap_singleton, frameCells_last, List.map_nil,
    List.append_nil]

end OneMoreFrame

/-- One frame keeps the file made of whole frames if and only if it covers the file. -/
private theorem wholeFrames_step {s s' : State} {e : Event} (hinv : Inv planes s) (hwhole : WholeFrames s)
    (h : (machine planes).step s e = some s') : WholeFrames s' ↔ Covers planes s e := by
  cases e with
  | mapBuffer k buffer =>
    obtain ⟨image, -, rfl⟩ := step_mapBuffer h
    exact iff_of_true hwhole trivial
  | writeBuffer buffer done =>
    have hs' := step_writeBuffer hinv h
    subst hs'
    simp only [WholeFrames, Covers, List.length_append, List.length_singleton, Nat.add_sub_cancel, Option.some.injEq]
    constructor
    · intro hw
      obtain ⟨earlier, hlt, hfile⟩ := hw (by simp)
      rcases nothing_left_or_empty (fun c hc => hinv.older c (List.mem_of_mem_drop hc)) hlt hfile with hnil | hempty
      · exact Or.inl (List.drop_eq_nil_iff.1 hnil)
      · exact Or.inr hempty
    · intro hcov _
      rcases hcov with hlen | ⟨hp, hframes⟩
      · refine ⟨[], by simp, ?_⟩
        rw [List.drop_eq_nil_iff.2 hlen]
        simp
      · obtain ⟨earlier, hlt, hfile⟩ := hwhole hframes
        have hpos := List.length_pos_iff.2 hframes
        refine ⟨earlier ++ [s.frames.length - 1], ?_, ?_⟩
        · intro i hi
          rcases List.mem_append.1 hi with hi | hi
          · have := hlt i hi
            omega
          · rw [List.mem_singleton] at hi
            omega
        · rw [hp, flatMap_frameCells_empty hlt hframes, frameCells_last, hfile]
          simp

private theorem inv_init {s : State} (h : (machine planes).init s) : Inv planes s := by
  obtain ⟨hmapped, hframes, hfile⟩ := h
  refine ⟨?_, ?_⟩
  · intro c hc i hi
    rw [hfile c hc] at hi
    cases hi
  · intro buffer image hget
    rw [hmapped] at hget
    simp at hget

/-- The file is made of whole frames after every frame of a run if and only if every frame covers what is in the file
when it is written, or is empty and not the first one. -/
theorem whole_frames_iff {s t : State} {es : List Event} (hinit : (machine planes).init s)
    (h : (machine planes).Run s es t) :
    (machine planes).AllStates WholeFrames s es ↔ (machine planes).AllSteps (Covers planes) s es := by
  have hwhole : WholeFrames s := fun hne => absurd hinit.2.1 hne
  exact h.allStates_iff (I := Inv planes) (fun _ _ _ hinv hs => hinv.step hs)
    (fun _ _ _ hinv hp hs => wholeFrames_step hinv hp hs) (inv_init hinit) hwhole

/-- A kernel that takes every write in full, and the first four bytes at the address `0x1000`. -/
def completedWith (bytesused : UInt32) (bytes : List UInt8) : Completed :=
  ⟨[bytesused], fun a => bytes.getD (a - 0x1000) 0, true, fun _ length => some length.toNat⟩

/-- A buffer of one plane of four bytes. -/
def smallBuffer : FrameBufferPtr → List FrameBufferPlane := fun _ => [⟨5, 0, 4⟩]

def smallDmabufs : Dmabufs := ⟨fun _ => 4, fun _ => by decide, fun _ => true, fun _ => some 0x1000⟩

/-- The sink after mapping the buffer. -/
def smallSink : FileSink := ⟨Std.TreeMap.insert ∅ 1 ⟨[⟨0x1000, 4⟩], [⟨0x1000, 4⟩]⟩⟩

/-- The file after a frame of three bytes. -/
def smallFile : List Cell := [⟨1, some 0⟩, ⟨2, some 0⟩, ⟨3, some 0⟩]

private theorem step_mapBuffer_small :
    (machine smallBuffer).step ⟨⟨∅⟩, none, []⟩ (.mapBuffer smallDmabufs 1) = some ⟨smallSink, none, []⟩ := rfl

private theorem step_writeBuffer_small :
    (machine smallBuffer).step ⟨smallSink, none, []⟩ (.writeBuffer 1 (completedWith 3 [1, 2, 3, 9])) =
      some ⟨smallSink, some smallFile, [[1, 2, 3]]⟩ := rfl

/-- A frame of three bytes, and one of four that covers it. -/
def coveringFrames : List Event :=
  [.mapBuffer smallDmabufs 1, .writeBuffer 1 (completedWith 3 [1, 2, 3, 9]),
    .writeBuffer 1 (completedWith 4 [4, 5, 6, 7])]

theorem whole_frames_iff_two : (machine smallBuffer).AllStates WholeFrames ⟨⟨∅⟩, none, []⟩ coveringFrames := by
  have hsecond : (machine smallBuffer).step ⟨smallSink, some smallFile, [[1, 2, 3]]⟩
      (.writeBuffer 1 (completedWith 4 [4, 5, 6, 7])) = some _ := rfl
  have hrun := Machine.Run.cons step_mapBuffer_small (.cons step_writeBuffer_small (.cons hsecond (.nil _)))
  refine (whole_frames_iff ⟨rfl, rfl, by simp⟩ hrun).2 ?_
  rw [Machine.allSteps_cons step_mapBuffer_small, Machine.allSteps_cons step_writeBuffer_small,
    Machine.allSteps_cons hsecond]
  exact ⟨trivial, Or.inl (by decide), Or.inl (by decide), Machine.allSteps_nil⟩

/-- A frame of one byte after a frame of three: the last two bytes of the first one follow it. -/
theorem shorter_frame_keeps_tail :
    ∃ (s t : State) (es : List Event), (machine smallBuffer).init s ∧ (machine smallBuffer).Run s es t ∧
      t.frames = [[1, 2, 3], [4]] ∧ (t.file.getD []).map (·.byte) = [4, 2, 3] ∧
      (∀ earlier : List (List UInt8), (t.file.getD []).map (·.byte) ≠ (earlier ++ [[4]]).flatten) ∧ ¬WholeFrames t := by
  have hsecond : (machine smallBuffer).step ⟨smallSink, some smallFile, [[1, 2, 3]]⟩
      (.writeBuffer 1 (completedWith 1 [4, 8, 8, 8])) =
      some ⟨smallSink, some [⟨4, some 1⟩, ⟨2, some 0⟩, ⟨3, some 0⟩], [[1, 2, 3], [4]]⟩ := rfl
  refine ⟨_, _, _, ⟨rfl, rfl, by simp⟩,
    .cons step_mapBuffer_small (.cons step_writeBuffer_small (.cons hsecond (.nil _))), rfl, rfl, ?_, ?_⟩
  · intro earlier h
    have hlast := congrArg List.getLast? h
    rw [List.flatten_append, List.flatten_singleton, List.getLast?_concat] at hlast
    exact absurd hlast (by decide)
  · intro h
    obtain ⟨earlier, -, hfile⟩ := h (by simp)
    have hlast := congrArg List.getLast? (Option.some.inj hfile)
    rw [List.flatMap_append, List.getLast?_append_of_ne_nil _ (by decide)] at hlast
    exact absurd hlast (by decide)

/-! ### Requests -/

/-- Where opening and writing succeed for all buffers of a request, `processRequest` writes them one after the other. -/
theorem processRequest_of_run {s t : State} {request : Request} {done : FrameBufferPtr → Completed}
    (h : (machine planes).Run s (request.buffers.map fun b => .writeBuffer b.2 (done b.2)) t) :
    processRequest planes s request done = some (t, true) := by
  have hfold : ∀ (bufs : List (Libcamera.StreamPtr × FrameBufferPtr)) (s : State),
      (machine planes).Run s (bufs.map fun b => .writeBuffer b.2 (done b.2)) t →
        bufs.foldlM (fun s b => (writeBuffer planes s b.2 (done b.2)).map Prod.fst) s = some t := by
    intro bufs
    induction bufs with
    | nil =>
      intro s h
      rw [List.map_nil, Machine.run_nil_iff] at h
      rw [h]
      rfl
    | cons b bufs ih =>
      intro s h
      rw [List.map_cons, Machine.run_cons_iff] at h
      obtain ⟨s', hstep, hrest⟩ := h
      rw [List.foldlM_cons, writeBuffer_of_step hstep]
      exact ih s' hrest
  rw [processRequest, hfold _ _ h]
  rfl

end FileSink

end Twincam
