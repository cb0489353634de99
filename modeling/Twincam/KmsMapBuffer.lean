import Twincam.KmsSink
import Twincam.DrmFrameBuffer
import Mathlib.Algebra.Group.Nat.Defs

/-!
# Framebuffers of the KMS sink (`KMSSink::mapBuffer` in `kms_sink.cpp`)

`mapBuffer` derives the strides of the chroma planes from the stride of the first plane: by a factor that a `switch`
over the pixel format picks, in halves.  `chroma_strides_iff` compares them with the strides that the layouts of the
planar YUV formats call for.
-/

namespace Twincam

open DRM (CreateResult DrmCall PrimeCalls createFrameBuffer)
open Libcamera

namespace KMSSink

/-- The `switch` over `format_`, which compares the codes of the formats. -/
def uvStrideMultiplier (format : PixelFormat) : UInt32 :=
  if format.fourcc = formats.NV24.fourcc ∨ format.fourcc = formats.NV42.fourcc then 4
  else if format.fourcc = formats.YUV420.fourcc ∨ format.fourcc = formats.YVU420.fourcc ∨
      format.fourcc = formats.YUV422.fourcc then 1
  else 2

/-- One turn of the loop over the chroma planes; `none` when it writes behind the array. -/
def setStride (sink : KMSSink) (strides : Vector UInt32 4) (i : Nat) : Option (Vector UInt32 4) :=
  if h : i < 4 then some (strides.set i (sink.stride_ * uvStrideMultiplier sink.format_ / 2)) else none

/-- The strides of a buffer with the given number of planes. -/
def strides (sink : KMSSink) (planes : Nat) : Option (Vector UInt32 4) :=
  (List.range' 1 (planes - 1)).foldlM sink.setStride ((Vector.replicate 4 0).set 0 sink.stride_)

/-- `KMSSink::mapBuffer`: the sink after it, and the calls of DRM; `none` when an array is too short. -/
def mapBuffer (sink : KMSSink) (calls : PrimeCalls) (buffer : FrameBufferPtr) (planes : List FrameBufferPlane) :
    Option (KMSSink × List DrmCall) := do
  let strides ← sink.strides planes.length
  let drmBuffer ← createFrameBuffer calls planes sink.format_ sink.size_ strides
  match drmBuffer.fb, sink.buffers_.lookup buffer with
  | none, _ => some (sink, drmBuffer.calls)
  | some fb, none => some ({ sink with buffers_ := sink.buffers_ ++ [(buffer, fb)] }, drmBuffer.calls)
  -- `emplace` keeps the framebuffer that is there and drops the new one
  | some _, some _ => some (sink, drmBuffer.lifetime calls)

/-! ### Layouts -/

/-- The semi-planar and the fully planar YUV formats. -/
inductive YuvFormat
  | NV12
  | NV21
  | NV16
  | NV61
  | NV24
  | NV42
  | YUV420
  | YVU420
  | YUV422
  | YVU422
  | YUV444
  | YVU444
deriving DecidableEq

namespace YuvFormat

def pixelFormat : YuvFormat → PixelFormat
  | NV12 => formats.NV12
  | NV21 => formats.NV21
  | NV16 => formats.NV16
  | NV61 => formats.NV61
  | NV24 => formats.NV24
  | NV42 => formats.NV42
  | YUV420 => formats.YUV420
  | YVU420 => formats.YVU420
  | YUV422 => formats.YUV422
  | YVU422 => formats.YVU422
  | YUV444 => formats.YUV444
  | YVU444 => formats.YVU444

/-- The number of chroma components in a plane that stores chroma. -/
def components : YuvFormat → Nat
  | NV12 | NV21 | NV16 | NV61 | NV24 | NV42 => 2
  | YUV420 | YVU420 | YUV422 | YVU422 | YUV444 | YVU444 => 1

/-- How many luma samples of a row share a chroma sample. -/
def subsampling : YuvFormat → Nat
  | NV12 | NV21 | NV16 | NV61 | YUV420 | YVU420 | YUV422 | YVU422 => 2
  | NV24 | NV42 | YUV444 | YVU444 => 1

end YuvFormat

/-! ### The strides -/

/-- The stride of a chroma plane. -/
def uvStride (sink : KMSSink) : UInt32 := sink.stride_ * uvStrideMultiplier sink.format_ / 2

/-- The loop sets the strides of the planes from `i` on, and leaves those in front of them. -/
private theorem foldlM_setStride (sink : KMSSink) (strides : Vector UInt32 4) (i n : Nat) (h : i + n ≤ 4) :
    ∃ strides', (List.range' i n).foldlM sink.setStride strides = some strides' ∧
      (∀ j, j < i → strides'[j]? = strides[j]?) ∧ ∀ j, i ≤ j → j < i + n → strides'[j]? = some sink.uvStride := by
  induction n generalizing i strides with
  | zero => exact ⟨strides, rfl, fun _ _ => rfl, fun j _ _ => by omega⟩
  | succ n ih =>
    have hi : i < 4 := by omega
    obtain ⟨strides', heq, hbefore, hset⟩ := ih (strides.set i sink.uvStride) (i + 1) (by omega)
    refine ⟨strides', ?_, ?_, ?_⟩
    · rw [List.range'_succ, List.foldlM_cons, setStride, dif_pos hi]
      exact heq
    · intro j hj
      rw [hbefore j (by omega), Vector.getElem?_set_ne hi (by omega)]
    · intro j hj hlt
      by_cases hji : j = i
      · subst hji
        rw [hbefore j (by omega), Vector.getElem?_set_self hi]
      · exact hset j (by omega) (by omega)

/-- With at most four planes no array is too short, and every chroma plane has the same stride. -/
private theorem strides_spec (sink : KMSSink) {n : Nat} (h : n ≤ 4) :
    ∃ strides, sink.strides n = some strides ∧ strides[0]? = some sink.stride_ ∧
      ∀ i, 1 ≤ i → i < n → strides[i]? = some sink.uvStride := by
  obtain ⟨strides, heq, hzero, hset⟩ := foldlM_setStride sink ((Vector.replicate 4 0).set 0 sink.stride_) 1
    (n - 1) (by omega)
  refine ⟨strides, heq, ?_, ?_⟩
  · rw [hzero 0 (by omega), Vector.getElem?_set_self (by omega)]
  · intro i hi hlt
    exact hset i hi (by omega)

/-- What `mapBuffer` passes to `createFrameBuffer` are these strides: an added framebuffer has them. -/
theorem mapBuffer_strides {sink sink' : KMSSink} {calls : PrimeCalls} {buffer : FrameBufferPtr}
    {planes : List FrameBufferPlane} {log : List DrmCall} (h : sink.mapBuffer calls buffer planes = some (sink', log))
    (hlen : planes.length ≤ 4) {size : Size} {format : UInt32} {handles strides offsets : Vector UInt32 4} {ret : Int}
    (hadd : .modeAddFB2 size format handles strides offsets ret ∈ log) : sink.strides planes.length = some strides := by
  obtain ⟨strides', hstrides, h⟩ := Option.bind_eq_some_iff.1 h
  obtain ⟨r, hr, h⟩ := Option.bind_eq_some_iff.1 h
  have hlog : .modeAddFB2 size format handles strides offsets ret ∈ r.lifetime calls := by
    unfold CreateResult.lifetime
    cases hfb : r.fb with
    | none =>
      simp only [hfb, Option.some.injEq, Prod.mk.injEq] at h
      rw [h.2]
      exact hadd
    | some fb =>
      cases hget : sink.buffers_.lookup buffer with
      | none =>
        simp only [hfb, hget, Option.some.injEq, Prod.mk.injEq] at h
        rw [h.2]
        exact List.mem_append_left _ hadd
      | some old =>
        simp only [hfb, hget, Option.some.injEq, Prod.mk.injEq, CreateResult.lifetime] at h
        show _ ∈ r.calls ++ fb.destructor calls
        rw [h.2]
        exact hadd
  rw [hstrides, DRM.strides_of_modeAddFB2 hlen hr hlog]

/-- The factor that the `switch` picks, in halves: that of the layout for every format but one. -/
private theorem uvStrideMultiplier_eq {format : PixelFormat} {f : YuvFormat}
    (h : format.fourcc = f.pixelFormat.fourcc) :
    (uvStrideMultiplier format).toNat = if f = .YVU422 then 2 else 2 * f.components / f.subsampling := by
  unfold uvStrideMultiplier
  rw [h]
  cases f <;> decide

/-- The strides that the layout of the format calls for. -/
def FollowsLayout (sink : KMSSink) (f : YuvFormat) (planes : Nat) : Prop :=
  ∃ strides, sink.strides planes = some strides ∧ strides[0]? = some sink.stride_ ∧
    ∀ i, 1 ≤ i → i < planes →
      (strides[i]?).map UInt32.toNat = some (sink.stride_.toNat * f.components / f.subsampling)

/-- For an even stride whose double fits in 32 bits, and two to four planes, the strides follow the layout of a planar
YUV format if and only if the format is not YVU422, unless the stride is 0, and for NV24 and NV42 four times the
stride fits as well. -/
theorem chroma_strides_iff {sink : KMSSink} {f : YuvFormat} {planes : Nat}
    (hformat : sink.format_.fourcc = f.pixelFormat.fourcc) (heven : sink.stride_.toNat % 2 = 0)
    (hfits : 2 * sink.stride_.toNat < 2 ^ 32) (hmin : 2 ≤ planes) (hmax : planes ≤ 4) :
    FollowsLayout sink f planes ↔
      (f = .YVU422 → sink.stride_ = 0) ∧ (f = .NV24 ∨ f = .NV42 → 4 * sink.stride_.toNat < 2 ^ 32) := by
  have huv : sink.uvStride.toNat =
      sink.stride_.toNat * (if f = .YVU422 then 2 else 2 * f.components / f.subsampling) % 2 ^ 32 / 2 := by
    rw [uvStride, UInt32.toNat_div, UInt32.toNat_mul, uvStrideMultiplier_eq hformat]
    rfl
  obtain ⟨strides, heq, hzero, hchroma⟩ := strides_spec sink hmax
  have hiff : FollowsLayout sink f planes ↔
      sink.uvStride.toNat = sink.stride_.toNat * f.components / f.subsampling := by
    constructor
    · rintro ⟨strides', heq', -, hlayout⟩
      rw [heq, Option.some.injEq] at heq'
      subst heq'
      have hone := hlayout 1 (by omega) (by omega)
      rw [hchroma 1 (by omega) (by omega)] at hone
      exact Option.some.inj hone
    · intro hlaw
      refine ⟨strides, heq, hzero, ?_⟩
      intro i hi hlt
      rw [hchroma i hi hlt, Option.map_some, hlaw]
  have hstride : sink.stride_ = 0 ↔ sink.stride_.toNat = 0 := by
    rw [← UInt32.toNat_inj]
    rfl
  rw [hiff, huv, hstride]
  cases f <;> simp [YuvFormat.components, YuvFormat.subsampling] <;> omega

/-- A sink with the format and the stride of the first plane. -/
def withFormat (format : PixelFormat) (stride : UInt32) : KMSSink :=
  { ofDevice DRM.Device.empty with format_ := format, stride_ := stride }

/-- NV12 with a stride of 640 bytes. -/
theorem chroma_strides_iff_nv12 :
    FollowsLayout (withFormat formats.NV12 640) .NV12 2 ↔
      (YuvFormat.NV12 = .YVU422 → (640 : UInt32) = 0) ∧
        (YuvFormat.NV12 = .NV24 ∨ YuvFormat.NV12 = .NV42 → 4 * (640 : UInt32).toNat < 2 ^ 32) :=
  chroma_strides_iff rfl (by decide) (by decide) (by decide) (by decide)

/-- YVU422 with a stride of 640 bytes: the chroma planes get the stride 640 and not 320. -/
theorem yvu422_stride_not_halved :
    (withFormat formats.YVU422 640).strides 3 = some #v[640, 640, 640, 0] ∧
      ¬FollowsLayout (withFormat formats.YVU422 640) .YVU422 3 := by
  have hstrides : (withFormat formats.YVU422 640).strides 3 = some #v[640, 640, 640, 0] := by decide
  refine ⟨hstrides, ?_⟩
  rintro ⟨strides, heq, -, hlayout⟩
  rw [hstrides, Option.some.injEq] at heq
  subst heq
  exact absurd (hlayout 1 (by decide) (by decide)) (by decide)

end KMSSink

end Twincam
