import Twincam.Errno
import Twincam.Libcamera
import Mathlib.Tactic.Common
import Mathlib.Algebra.Order.Ring.Int

/-!
# Decoding MJPEG frames (`sdl_texture_mjpg.h`, `sdl_texture_mjpg.cpp`)

The constructor allocates `rgb_` for a picture of the configured size.  `decompress` has libjpeg write the rows of
whatever picture the frame holds into it, `stride_` bytes apart, and compares neither the number of rows nor their
length with the buffer.  `decompress_in_bounds_iff` says which pairs of sizes stay inside.
-/

namespace Twincam

open Libcamera (Size)

/-- `SDL_Rect`, without its corner. -/
structure SDLRect where
  w : Int32
  h : Int32

/-- The rectangle `SDLSink::configure` sets for a stream: two `unsigned int` converted to `int`. -/
def SDLRect.ofSize (size : Size) : SDLRect := ⟨size.width.toInt32, size.height.toInt32⟩

/-- The product of two `int`; `none` where it overflows, which is undefined. -/
def intMul (a b : Int) : Option Int := if -2 ^ 31 ≤ a * b ∧ a * b < 2 ^ 31 then some (a * b) else none

/-- Where libjpeg gives up on a stream. -/
inductive JpegError
  | header
  | start
  | scanline (row : Nat)
  | finish
deriving DecidableEq

/-- What libjpeg makes of a stream: the size of the picture, its bytes by row, and the error it raises, if any. -/
structure Jpeg where
  output_width : Nat
  output_height : Nat
  output_components : Nat
  sample : Nat → Nat → UInt8
  error : Option JpegError

def Jpeg.scanline (jpeg : Jpeg) (row : Nat) : List UInt8 :=
  (List.range (jpeg.output_width * jpeg.output_components)).map (jpeg.sample row)

/-- Bytes libjpeg is asked to write, from `offset` on in `rgb_`. -/
structure RowWrite where
  offset : Int
  bytes : List UInt8
deriving DecidableEq

/-- `class SDLTextureMJPG`, with the size of `rgb_`. -/
structure SDLTextureMJPG where
  rect_ : SDLRect
  stride_ : Int
  size : Nat

def RowWrite.InBounds (size : Int) (write : RowWrite) : Prop :=
  ∀ i < write.bytes.length, 0 ≤ write.offset + i ∧ write.offset + i < size

namespace SDLTextureMJPG

inductive Constructed
  | undefined
  | badAlloc
  | texture (t : SDLTextureMJPG)

def new (rect : SDLRect) : Constructed :=
  match intMul rect.w.toInt 3 with
  | none => .undefined
  | some stride =>
    match intMul stride rect.h.toInt with
    | none => .undefined
    -- a negative `int` becomes a `size_t` no allocation can have
    | some size => if size < 0 then .badAlloc else .texture ⟨rect, stride, size.toNat⟩

/-- The pointer and row of the `k`-th `jpeg_read_scanlines`. -/
def rowWrite (stride : Int) (jpeg : Jpeg) (k : Nat) : RowWrite := ⟨k * stride, jpeg.scanline k⟩

/-- The loop of `decompress` over the `rows` rows left from row `i` on; false when libjpeg raises an error. -/
def readScanlines (stride : Int) (jpeg : Jpeg) : (rows i : Nat) → List RowWrite × Bool
  | 0, _ => ([], true)
  | rows + 1, i =>
    let write := rowWrite stride jpeg i
    if jpeg.error = some (.scanline i) then ([write], false)
    else
      let (writes, ok) := readScanlines stride jpeg rows (i + 1)
      (write :: writes, ok)

/-- `SDLTextureMJPG::decompress`: its result, and what it asks libjpeg to write. -/
def decompress (t : SDLTextureMJPG) (jpeg : Jpeg) : Int × List RowWrite :=
  if jpeg.error = some .header ∨ jpeg.error = some .start then (-EINVAL, [])
  else
    let (writes, ok) := readScanlines t.stride_ jpeg jpeg.output_height 0
    if ok = false ∨ jpeg.error = some .finish then (-EINVAL, writes) else (0, writes)

/-! ### The rows that are written -/

/-- The number of rows libjpeg is asked for. -/
def rowsRead (jpeg : Jpeg) : Nat :=
  match jpeg.error with
  | some .header => 0
  | some .start => 0
  | some (.scanline row) => min (row + 1) jpeg.output_height
  | _ => jpeg.output_height

/-- From row `i` on, the loop asks for every row up to the end or the one that fails. -/
private theorem mem_readScanlines {stride : Int} {jpeg : Jpeg} {rows i : Nat} {write : RowWrite} :
    write ∈ (readScanlines stride jpeg rows i).1 ↔
      ∃ k, i ≤ k ∧ k < i + rows ∧ (∀ row, jpeg.error = some (.scanline row) → i ≤ row → k ≤ row) ∧
        write = rowWrite stride jpeg k := by
  induction rows generalizing i with
  | zero =>
    simp only [readScanlines, List.not_mem_nil, false_iff]
    intro h
    obtain ⟨k, hi, hk, -⟩ := h
    omega
  | succ rows ih =>
    by_cases herr : jpeg.error = some (.scanline i)
    · simp only [readScanlines, herr, if_true, List.mem_singleton]
      constructor
      · intro h
        refine ⟨i, by omega, by omega, fun row hrow hle => hle, h⟩
      · intro h
        obtain ⟨k, hi, -, hall, h⟩ := h
        have hle := hall i rfl (by omega)
        have hk : k = i := by omega
        rw [h, hk]
    · simp only [readScanlines, herr, if_false, List.mem_cons, ih]
      constructor
      · intro h
        rcases h with h | ⟨k, hi, hk, hall, h⟩
        · exact ⟨i, by omega, by omega, fun row _ hle => hle, h⟩
        · refine ⟨k, by omega, by omega, fun row hrow hle => ?_, h⟩
          by_cases heq : row = i
          · rw [heq] at hrow
            exact absurd hrow herr
          · exact hall row hrow (by omega)
      · intro h
        obtain ⟨k, hi, hk, hall, h⟩ := h
        by_cases heq : k = i
        · left
          rw [h, heq]
        · right
          exact ⟨k, by omega, by omega, fun row hrow hle => hall row hrow (by omega), h⟩

private theorem mem_decompress {t : SDLTextureMJPG} {jpeg : Jpeg} {write : RowWrite} :
    write ∈ (t.decompress jpeg).2 ↔ ∃ k, k < rowsRead jpeg ∧ write = rowWrite t.stride_ jpeg k := by
  have hwrites : ¬(jpeg.error = some .header ∨ jpeg.error = some .start) →
      (t.decompress jpeg).2 = (readScanlines t.stride_ jpeg jpeg.output_height 0).1 := by
    intro h
    simp only [decompress, h, if_false]
    split <;> rfl
  cases herr : jpeg.error with
  | none =>
    rw [hwrites (by simp [herr]), mem_readScanlines]
    simp [rowsRead, herr]
  | some e =>
    cases e with
    | header => simp [decompress, rowsRead, herr]
    | start => simp [decompress, rowsRead, herr]
    | scanline row =>
      rw [hwrites (by simp [herr]), mem_readScanlines]
      simp only [rowsRead, herr, Nat.zero_le, Nat.zero_add, true_and, Option.some.injEq, JpegError.scanline.injEq,
        forall_eq', forall_const, Nat.lt_min, ← and_assoc]
      constructor
      · intro h
        obtain ⟨k, ⟨hk, hle⟩, h⟩ := h
        exact ⟨k, ⟨by omega, hk⟩, h⟩
      · intro h
        obtain ⟨k, ⟨hle, hk⟩, h⟩ := h
        exact ⟨k, ⟨hk, by omega⟩, h⟩
    | finish =>
      rw [hwrites (by simp [herr]), mem_readScanlines]
      simp [rowsRead, herr]

/-! ### In bounds -/

/-- `rows` rows of `bytes` bytes, `stride` bytes apart, lie in a buffer of `size` bytes: the first and the last do. -/
def RowsFit (stride size : Int) (rows bytes : Nat) : Prop :=
  rows = 0 ∨ bytes = 0 ∨
    (bytes ≤ size ∧ 0 ≤ ((rows : Int) - 1) * stride ∧ ((rows : Int) - 1) * stride + bytes ≤ size)

theorem rowsFit_iff {stride size : Int} {rows bytes : Nat} :
    (∀ k < rows, ∀ i < bytes, 0 ≤ (k : Int) * stride + i ∧ (k : Int) * stride + i < size) ↔
      RowsFit stride size rows bytes := by
  by_cases hrows : rows = 0
  · simp [RowsFit, hrows]
  by_cases hbytes : bytes = 0
  · simp [RowsFit, hbytes]
  have hlast : ((rows - 1 : Nat) : Int) = (rows : Int) - 1 := by omega
  constructor
  · intro h
    have hfirst := h 0 (by omega) (bytes - 1) (by omega)
    have hstart := h (rows - 1) (by omega) 0 (by omega)
    have hend := h (rows - 1) (by omega) (bytes - 1) (by omega)
    rw [hlast] at hstart hend
    refine Or.inr (Or.inr ⟨by omega, by omega, by omega⟩)
  · rintro (h | h | ⟨hfirst, hstart, hend⟩) k hk i hi
    · exact absurd h hrows
    · exact absurd h hbytes
    · -- the offset of row `k` lies between that of the first row and that of the last
      have hk' : (k : Int) ≤ (rows : Int) - 1 := by omega
      by_cases hs : 0 ≤ stride
      · have hlow : 0 ≤ (k : Int) * stride := Int.mul_nonneg (by omega) hs
        have hhigh : (k : Int) * stride ≤ ((rows : Int) - 1) * stride := Int.mul_le_mul_of_nonneg_right hk' hs
        omega
      · have hlow : (k : Int) * stride ≤ 0 := Int.mul_nonpos_of_nonneg_of_nonpos (by omega) (by omega)
        have hhigh : ((rows : Int) - 1) * stride ≤ (k : Int) * stride := Int.mul_le_mul_of_nonpos_right hk' (by omega)
        omega

private theorem decompress_inBounds_iff {t : SDLTextureMJPG} {jpeg : Jpeg} :
    (∀ write ∈ (t.decompress jpeg).2, write.InBounds t.size) ↔
      RowsFit t.stride_ t.size (rowsRead jpeg) (jpeg.output_width * jpeg.output_components) := by
  rw [← rowsFit_iff]
  have hlen : ∀ k, (jpeg.scanline k).length = jpeg.output_width * jpeg.output_components := by
    intro k
    rw [Jpeg.scanline, List.length_map, List.length_range]
  constructor
  · intro h k hk i hi
    have hwrite := h (rowWrite t.stride_ jpeg k) (mem_decompress.2 ⟨k, hk, rfl⟩)
    exact hwrite i (by rw [rowWrite, hlen]; exact hi)
  · intro h write hwrite i hi
    obtain ⟨k, hk, rfl⟩ := mem_decompress.1 hwrite
    rw [rowWrite, hlen] at hi
    exact h k hk i hi

/-- The texture of the rectangle is constructed without overflow, and the stream is decoded inside its buffer. -/
def DecodesInBounds (rect : SDLRect) (jpeg : Jpeg) : Prop :=
  match new rect with
  | .undefined => False
  | .badAlloc => True
  | .texture t => ∀ write ∈ (t.decompress jpeg).2, write.InBounds t.size

/-- The stride and the size of the buffer are in the range of `int`. -/
def NoOverflow (rect : SDLRect) : Prop :=
  (-2 ^ 31 ≤ rect.w.toInt * 3 ∧ rect.w.toInt * 3 < 2 ^ 31) ∧
    (-2 ^ 31 ≤ rect.w.toInt * 3 * rect.h.toInt ∧ rect.w.toInt * 3 * rect.h.toInt < 2 ^ 31)

theorem new_of_overflow {rect : SDLRect} (h : ¬NoOverflow rect) : new rect = .undefined := by
  unfold new intMul
  by_cases hstride : -2 ^ 31 ≤ rect.w.toInt * 3 ∧ rect.w.toInt * 3 < 2 ^ 31
  · have hsize : ¬(-2 ^ 31 ≤ rect.w.toInt * 3 * rect.h.toInt ∧ rect.w.toInt * 3 * rect.h.toInt < 2 ^ 31) :=
      fun hsize => h ⟨hstride, hsize⟩
    rw [if_pos hstride]
    simp only
    rw [if_neg hsize]
  · rw [if_neg hstride]

theorem new_of_noOverflow {rect : SDLRect} (h : NoOverflow rect) :
    new rect =
      if rect.w.toInt * 3 * rect.h.toInt < 0 then .badAlloc
      else .texture ⟨rect, rect.w.toInt * 3, (rect.w.toInt * 3 * rect.h.toInt).toNat⟩ := by
  unfold new intMul
  rw [if_pos h.1]
  simp only
  rw [if_pos h.2]

/-- Every byte `decompress` has written for a stream of the configured size lies in `rgb_` if and only if the sizes
the constructor computes do not overflow and either there is no buffer, because its size is negative, or the first
and the last row libjpeg is asked for lie in it. -/
theorem decompress_in_bounds_iff (size : Size) (jpeg : Jpeg) :
    let rect := SDLRect.ofSize size
    let stride := rect.w.toInt * 3
    DecodesInBounds rect jpeg ↔
      NoOverflow rect ∧
        (stride * rect.h.toInt < 0 ∨
          RowsFit stride (stride * rect.h.toInt) (rowsRead jpeg) (jpeg.output_width * jpeg.output_components)) := by
  intro rect stride
  unfold DecodesInBounds
  by_cases hover : NoOverflow rect
  · rw [new_of_noOverflow hover]
    by_cases hneg : stride * rect.h.toInt < 0
    · rw [if_pos hneg]
      simp only [hover, hneg, true_or, and_self]
    · have hnat : ((stride * rect.h.toInt).toNat : Int) = stride * rect.h.toInt := by omega
      rw [if_neg hneg]
      simp only [decompress_inBounds_iff, hover, hneg, false_or, true_and]
      rw [hnat]
  · rw [new_of_overflow hover]
    simp only [hover, false_and]

/-- A stream configured for one pixel, and a frame of one row of two. -/
theorem wider_frame_out_of_bounds :
    ∃ jpeg : Jpeg, jpeg.output_width = 2 ∧ jpeg.output_height = 1 ∧ jpeg.output_components = 3 ∧
      jpeg.error = none ∧ ¬DecodesInBounds (SDLRect.ofSize ⟨1, 1⟩) jpeg := by
  refine ⟨⟨2, 1, 3, fun _ _ => 0, none⟩, rfl, rfl, rfl, rfl, ?_⟩
  intro h
  have hlast := h ⟨0, List.replicate 6 0⟩ (by decide) 5 (by decide)
  exact absurd hlast.2 (by decide)

end SDLTextureMJPG

end Twincam
