import Twincam.MappedBuffers
import Twincam.SdlLife

/-!
# The memory that SDL reads (`SDLSink`, `sdl_texture_nv12.cpp`, `sdl_texture_yuyv.cpp`, `sdl_texture_mjpg.cpp`)

To show a frame, the sink passes the start of its planes to SDL with the stride of the stream, and SDL reads as many
rows as the texture has.  Nobody compares the two: the size of the texture and the stride come from the configuration,
the planes from the frame buffer.  `SdlDisplay` is the sink with its SDL objects and its images.

* `uploads_in_bounds_iff`: over any run, what SDL reads lies in the planes of the frames if and only if, for every frame
  that is shown, the rows of the texture fit into the planes of its buffer.
* In such a run SDL reads nothing but memory that is mapped at that time, and `rgb_`.
-/

namespace Twincam

open Libcamera (FrameBufferPtr FrameBufferPlane StreamConfiguration formats.NV12)

/-! ### Pixels -/

/-- Where pixels are: a plane of a frame, or the buffer `rgb_` of an `SDLTextureMJPG`. -/
inductive PixelSource
  | plane (span : Span)
  | rgb (size : Nat)
deriving DecidableEq

def PixelSource.size : PixelSource → Nat
  | .plane span => span.size
  | .rgb size => size

/-- Rows of `bytes` bytes, `pitch` apart. -/
structure PixelRows where
  source : PixelSource
  pitch : Int
  rows : Nat
  bytes : Nat
deriving DecidableEq

namespace PixelRows

/-- Every byte lies in the source. -/
def InBounds (p : PixelRows) : Prop :=
  ∀ k < p.rows, ∀ i < p.bytes, 0 ≤ (k : Int) * p.pitch + i ∧ (k : Int) * p.pitch + i < p.source.size

instance (p : PixelRows) : Decidable p.InBounds := inferInstanceAs (Decidable (∀ k < p.rows, _))

private theorem inBounds_iff {p : PixelRows} : p.InBounds ↔
    SDLTextureMJPG.RowsFit p.pitch p.source.size p.rows p.bytes :=
  SDLTextureMJPG.rowsFit_iff

/-- Every byte lies in one of the regions, or in `rgb_`. -/
def Mapped (regions : List Span) (p : PixelRows) : Prop :=
  match p.source with
  | .plane span => ∀ k < p.rows, ∀ i < p.bytes, ∃ r ∈ regions,
      (r.data : Int) ≤ span.data + k * p.pitch + i ∧ span.data + k * p.pitch + i < r.data + r.size
  | .rgb _ => p.InBounds

end PixelRows

/-! ### The textures -/

namespace SDLTexture

/-- The rows and the bytes of a row that SDL reads of every plane: YUY2 has four bytes for two pixels, NV12 a plane of
bytes and a plane of pairs for two pixels and two rows. -/
def pixels (t : SDLTexture) : List (Nat × Nat) :=
  let w := t.rect_.w.toInt.toNat
  let h := t.rect_.h.toInt.toNat
  match t.pixelFormat_ with
  | .RGB24 => [(h, 3 * w)]
  | .NV12 => [(h, w), ((h + 1) / 2, 2 * ((w + 1) / 2))]
  | .YUY2 => [(h, 4 * ((w + 1) / 2))]

/-- `SDL_UpdateTexture` and `SDL_UpdateNVTexture` for the whole texture: SDL refuses a null pointer. -/
def sdlUpdate (t : SDLTexture) (sources : List PixelSource) : List PixelRows :=
  match t.ptr_ with
  | none => []
  | some _ => List.zipWith (fun source p => ⟨source, t.stride_, p.1, p.2⟩) sources t.pixels

/-- `SDLTextureYUYV::update`; `none` when `data` has no such element. -/
def updateYUYV (t : SDLTexture) (data : List Span) : Option (List PixelRows) :=
  data[0]?.map fun yuyv => t.sdlUpdate [.plane yuyv]

/-- `SDLTextureNV12::update`. -/
def updateNV12 (t : SDLTexture) (data : List Span) : Option (List PixelRows) :=
  data[0]?.bind fun y => data[1]?.map fun uv => t.sdlUpdate [.plane y, .plane uv]

/-- `SDLTextureMJPG::update`, after `decompress(data[0])`. -/
def updateMJPG (t : SDLTexture) (data : List Span) : Option (List PixelRows) :=
  data[0]?.map fun _ => t.sdlUpdate [.rgb (t.stride_ * t.rect_.h.toInt).toNat]

def update (t : SDLTexture) (data : List Span) : Option (List PixelRows) :=
  match t.pixelFormat_ with
  | .RGB24 => t.updateMJPG data
  | .NV12 => t.updateNV12 data
  | .YUY2 => t.updateYUYV data

end SDLTexture

/-! ### The sink -/

/-- `class SDLSink` with its SDL objects and its images, and what SDL read for the frames so far, each with the regions
that were mapped at that time. -/
structure SdlDisplay where
  objects : SDLSink
  mapping : MappingSink
  uploads : List (List PixelRows × List Span)

inductive SdlDisplayEvent
  | configure (config : List StreamConfiguration)
  | start (answers : SdlAnswers)
  | mapBuffer (k : Dmabufs) (buffer : FrameBufferPtr)
  | renderBuffer (buffer : FrameBufferPtr) (bytesused : List UInt32)
  | stop

namespace SdlDisplay

/-- The planes that the loop of `renderBuffer` collects; `none` when the image does not have one of them. -/
def framePlanes (s : SdlDisplay) (buffer : FrameBufferPtr) (bytesused : List UInt32) : Option (List Span) :=
  match s.mapping.mappedBuffers_[buffer]? with
  | none => if bytesused.isEmpty then some [] else none
  | some image =>
    let accesses := (SDLSink.renderPlanes image 0 bytesused []).accesses
    if accesses.all Except.isOk then some (accesses.filterMap Except.toOption) else none

/-- `SDLSink::renderBuffer`; `none`, where a run ends, when it reads past the planes of the image or of the frame, and
when an assertion fails. -/
def renderBuffer (s : SdlDisplay) (buffer : FrameBufferPtr) (bytesused : List UInt32) : Option SdlDisplay := do
  let mapping ← s.mapping.renderBuffer buffer bytesused
  let data ← s.framePlanes buffer bytesused
  let texture ← s.objects.texture_
  let reads ← texture.update data
  let objects ← s.objects.present
  some ⟨objects, mapping, s.uploads ++ [(reads, s.mapping.regions)]⟩

-- What the build has, and the planes of the frame buffers, which never change.
variable (build : SdlBuild) (planes : FrameBufferPtr → List FrameBufferPlane)

def step (s : SdlDisplay) : SdlDisplayEvent → Option SdlDisplay
  | .configure config => (s.objects.configure build config).map fun r => { s with objects := r.2 }
  | .start answers => (s.objects.start answers).map fun r => { s with objects := r.2 }
  | .mapBuffer k buffer => (s.mapping.mapBuffer planes k buffer).map fun mapping => { s with mapping := mapping }
  | .renderBuffer buffer bytesused => s.renderBuffer buffer bytesused
  | .stop => some { s with objects := s.objects.stop }

def constructed : SdlDisplay := ⟨SDLSink.constructed, ⟨∅, []⟩, []⟩

def machine : Machine SdlDisplay SdlDisplayEvent where
  init s := s = constructed
  step := step build planes

/-- The rows of the texture fit into the planes of the buffer that is shown; an `SDLTextureMJPG` shows `rgb_`. -/
def FrameFits (s : SdlDisplay) : SdlDisplayEvent → Prop
  | .renderBuffer buffer _ => ∀ texture, s.objects.texture_ = some texture → texture.ptr_.isSome →
      texture.pixelFormat_ ≠ .RGB24 → ∀ (i : Nat) (plane : FrameBufferPlane) (p : Nat × Nat),
        (planes buffer)[i]? = some plane → texture.pixels[i]? = some p →
          SDLTextureMJPG.RowsFit texture.stride_ plane.length.toNat p.1 p.2
  | _ => True

/-- The planes that are mapped end within 32 bits. -/
def MapsFit : SdlDisplayEvent → Prop
  | .mapBuffer _ buffer => ∀ plane ∈ planes buffer, plane.offset.toNat + plane.length.toNat < 2 ^ 32
  | _ => True

/-! ### What is uploaded -/

variable {build : SdlBuild} {planes : FrameBufferPtr → List FrameBufferPlane}

/-- The stride of an `SDLTextureMJPG` is that of `rgb_`. -/
def RgbStride (t : SDLTexture) : Prop := t.pixelFormat_ = .RGB24 → t.stride_ = t.rect_.w.toInt * 3

/-- `rgb_` has room for the rows of its texture. -/
private theorem rgb_inBounds {t : SDLTexture} (h : t.stride_ = t.rect_.w.toInt * 3) :
    (⟨.rgb (t.stride_ * t.rect_.h.toInt).toNat, t.stride_, t.rect_.h.toInt.toNat, 3 * t.rect_.w.toInt.toNat⟩ :
      PixelRows).InBounds := by
  rw [PixelRows.inBounds_iff, h]
  dsimp only [PixelSource.size]
  rcases Nat.eq_zero_or_pos t.rect_.h.toInt.toNat with hh | hh
  · exact Or.inl hh
  · rcases Nat.eq_zero_or_pos t.rect_.w.toInt.toNat with hw | hw
    · exact Or.inr (Or.inl (by omega))
    · right
      right
      -- both sides are positive, and the last row ends where `rgb_` does
      have hsize : 0 ≤ t.rect_.w.toInt * 3 * t.rect_.h.toInt := Int.mul_nonneg (by omega) (by omega)
      have hrows : 0 ≤ (t.rect_.h.toInt - 1) * (t.rect_.w.toInt * 3) := Int.mul_nonneg (by omega) (by omega)
      have hlast : (t.rect_.h.toInt - 1) * (t.rect_.w.toInt * 3) + t.rect_.w.toInt * 3 =
          t.rect_.w.toInt * 3 * t.rect_.h.toInt := by
        rw [Int.sub_mul, Int.one_mul, Int.sub_add_cancel, Int.mul_comm]
      have hheight : ((t.rect_.h.toInt.toNat : Nat) : Int) = t.rect_.h.toInt := by omega
      rw [hheight]
      refine ⟨by omega, by omega, by omega⟩

/-- Without a texture there is nothing to read. -/
private theorem sdlUpdate_none {t : SDLTexture} (h : t.ptr_ = none) (sources : List PixelSource) :
    t.sdlUpdate sources = [] := by
  rw [SDLTexture.sdlUpdate, h]

private theorem update_none {t : SDLTexture} {data : List Span} {reads : List PixelRows} (hptr : t.ptr_ = none)
    (h : t.update data = some reads) : reads = [] := by
  cases hpixel : t.pixelFormat_ with
  | RGB24 =>
    rw [SDLTexture.update, hpixel] at h
    obtain ⟨jpeg, -, rfl⟩ := Option.map_eq_some_iff.1 h
    exact sdlUpdate_none hptr _
  | YUY2 =>
    rw [SDLTexture.update, hpixel] at h
    obtain ⟨yuyv, -, rfl⟩ := Option.map_eq_some_iff.1 h
    exact sdlUpdate_none hptr _
  | NV12 =>
    rw [SDLTexture.update, hpixel] at h
    obtain ⟨y, -, h⟩ := Option.bind_eq_some_iff.1 h
    obtain ⟨uv, -, rfl⟩ := Option.map_eq_some_iff.1 h
    exact sdlUpdate_none hptr _

private theorem sdlUpdate_some {t : SDLTexture} (h : t.ptr_.isSome) (sources : List PixelSource) :
    t.sdlUpdate sources = List.zipWith (fun source p => ⟨source, t.stride_, p.1, p.2⟩) sources t.pixels := by
  obtain ⟨ptr, hptr⟩ := Option.isSome_iff_exists.1 h
  rw [SDLTexture.sdlUpdate, hptr]

/-- The planes of a frame, by their sizes, as far as the texture has use for them. -/
private theorem update_planes {t : SDLTexture} {data : List Span} {reads : List PixelRows} (hptr : t.ptr_.isSome)
    (hformat : t.pixelFormat_ ≠ .RGB24) (h : t.update data = some reads) (rows : PixelRows) :
    rows ∈ reads ↔ ∃ (i : Nat) (span : Span) (p : Nat × Nat), data[i]? = some span ∧ t.pixels[i]? = some p ∧
      rows = ⟨.plane span, t.stride_, p.1, p.2⟩ := by
  cases hpixel : t.pixelFormat_ with
  | RGB24 => exact absurd hpixel hformat
  | YUY2 =>
    rw [SDLTexture.update, hpixel] at h
    obtain ⟨yuyv, hyuyv, rfl⟩ := Option.map_eq_some_iff.1 h
    rw [sdlUpdate_some hptr, SDLTexture.pixels, hpixel]
    constructor
    · intro hmem
      exact ⟨0, yuyv, _, hyuyv, rfl, List.mem_singleton.1 hmem⟩
    · rintro ⟨i, span, p, hspan, hp, rfl⟩
      cases i with
      | zero =>
        obtain rfl := Option.some.inj (hyuyv.symm.trans hspan)
        obtain rfl := Option.some.inj hp
        exact List.mem_singleton_self _
      | succ i => cases hp
  | NV12 =>
    rw [SDLTexture.update, hpixel] at h
    obtain ⟨y, hy, h⟩ := Option.bind_eq_some_iff.1 h
    obtain ⟨uv, huv, rfl⟩ := Option.map_eq_some_iff.1 h
    rw [sdlUpdate_some hptr, SDLTexture.pixels, hpixel]
    constructor
    · intro hmem
      rcases List.mem_cons.1 hmem with rfl | hmem
      · exact ⟨0, y, _, hy, rfl, rfl⟩
      · exact ⟨1, uv, _, huv, rfl, List.mem_singleton.1 hmem⟩
    · rintro ⟨i, span, p, hspan, hp, rfl⟩
      match i with
      | 0 =>
        obtain rfl := Option.some.inj (hy.symm.trans hspan)
        obtain rfl := Option.some.inj hp
        exact List.mem_cons_self
      | 1 =>
        obtain rfl := Option.some.inj (huv.symm.trans hspan)
        obtain rfl := Option.some.inj hp
        exact List.mem_cons_of_mem _ (List.mem_singleton_self _)
      | i + 2 => cases hp

/-- An `SDLTextureMJPG` uploads `rgb_`, which has room for it. -/
private theorem update_rgb {t : SDLTexture} {data : List Span} {reads : List PixelRows} (hstride : RgbStride t)
    (hformat : t.pixelFormat_ = .RGB24) (h : t.update data = some reads) :
    ∀ rows ∈ reads, (∃ size, rows.source = .rgb size) ∧ rows.InBounds := by
  rw [SDLTexture.update, hformat] at h
  obtain ⟨jpeg, -, rfl⟩ := Option.map_eq_some_iff.1 h
  intro rows hrows
  cases hptr : t.ptr_ with
  | none =>
    rw [sdlUpdate_none hptr] at hrows
    cases hrows
  | some ptr =>
    rw [sdlUpdate_some (by rw [hptr]; rfl), SDLTexture.pixels, hformat] at hrows
    obtain rfl := List.mem_singleton.1 hrows
    exact ⟨⟨_, rfl⟩, rgb_inBounds (hstride hformat)⟩

private theorem pixels_length_le {t : SDLTexture} {data : List Span} {reads : List PixelRows}
    (h : t.update data = some reads) :
    t.pixels.length ≤ data.length := by
  cases hpixel : t.pixelFormat_ with
  | RGB24 =>
    rw [SDLTexture.update, hpixel] at h
    obtain ⟨jpeg, hjpeg, -⟩ := Option.map_eq_some_iff.1 h
    rw [SDLTexture.pixels, hpixel]
    exact (List.getElem?_eq_some_iff.1 hjpeg).1
  | YUY2 =>
    rw [SDLTexture.update, hpixel] at h
    obtain ⟨yuyv, hyuyv, -⟩ := Option.map_eq_some_iff.1 h
    rw [SDLTexture.pixels, hpixel]
    exact (List.getElem?_eq_some_iff.1 hyuyv).1
  | NV12 =>
    rw [SDLTexture.update, hpixel] at h
    obtain ⟨y, -, h⟩ := Option.bind_eq_some_iff.1 h
    obtain ⟨uv, huv, -⟩ := Option.map_eq_some_iff.1 h
    rw [SDLTexture.pixels, hpixel]
    exact (List.getElem?_eq_some_iff.1 huv).1

/-! ### The planes of a frame -/

/-- What the configurations and the mappings leave in the sink. -/
structure Inv (planes : FrameBufferPtr → List FrameBufferPlane) (s : SdlDisplay) : Prop where
  rgb : ∀ texture, s.objects.texture_ = some texture → RgbStride texture
  sizes : ∀ (buffer : FrameBufferPtr) (image : Image), s.mapping.mappedBuffers_[buffer]? = some image →
    image.planes_.map (·.size) = (planes buffer).map (·.length.toNat)

/-- The planes of a frame are planes that the sink keeps, with the sizes of those of the buffer. -/
private theorem Inv.framePlanes {s : SdlDisplay} (h : s.Inv planes) {buffer : FrameBufferPtr} {bytesused : List UInt32}
    {data : List Span} (hdata : s.framePlanes buffer bytesused = some data) {i : Nat} {span : Span}
    (hspan : data[i]? = some span) :
    (∃ plane, (planes buffer)[i]? = some plane ∧ plane.length.toNat = span.size) ∧ s.mapping.Kept span := by
  unfold SdlDisplay.framePlanes at hdata
  split at hdata
  · rw [Option.ite_none_right_eq_some] at hdata
    obtain rfl := Option.some.inj hdata.2
    cases hspan
  · rename_i image himage
    have htaken : data = image.planes_.take bytesused.length := by
      rw [Option.ite_none_right_eq_some, List.all_eq_true] at hdata
      obtain ⟨hok, hdata⟩ := hdata
      rcases Nat.lt_or_ge image.planes_.length bytesused.length with hlt | hle
      · cases hok _ (SDLSink.pastTheEnd_mem_renderPlanes [] (Nat.zero_le _) (by omega))
      · rw [SDLSink.renderPlanes_of_le [] (by omega), List.drop_zero, List.filterMap_map] at hdata
        exact (Option.some.inj hdata).symm.trans (List.filterMap_some ..)
    have hkept : image.planes_[i]? = some span := by
      rw [htaken, List.getElem?_take, Option.ite_none_right_eq_some] at hspan
      exact hspan.2
    refine ⟨?_, buffer, image, himage, List.mem_of_getElem? hkept⟩
    have hsize : ((planes buffer).map (·.length.toNat))[i]? = some span.size := by
      rw [← h.sizes buffer image himage, List.getElem?_map, hkept]
      rfl
    rw [List.getElem?_map] at hsize
    exact Option.map_eq_some_iff.1 hsize

/-- SDL stays in the planes of a frame exactly when they have room for the rows of the texture. -/
private theorem Inv.inBounds_iff {s : SdlDisplay} (h : s.Inv planes) {buffer : FrameBufferPtr} {bytesused : List UInt32}
    {data : List Span} {texture : SDLTexture} {reads : List PixelRows}
    (hdata : s.framePlanes buffer bytesused = some data) (htexture : s.objects.texture_ = some texture)
    (hreads : texture.update data = some reads) :
    (∀ rows ∈ reads, rows.InBounds) ↔ FrameFits planes s (.renderBuffer buffer bytesused) := by
  have hfits : FrameFits planes s (.renderBuffer buffer bytesused) ↔ (texture.ptr_.isSome →
      texture.pixelFormat_ ≠ .RGB24 → ∀ (i : Nat) (plane : FrameBufferPlane) (p : Nat × Nat),
        (planes buffer)[i]? = some plane → texture.pixels[i]? = some p →
          SDLTextureMJPG.RowsFit texture.stride_ plane.length.toNat p.1 p.2) := by
    constructor
    · exact fun hall => hall texture htexture
    · intro hall texture' htexture'
      obtain rfl := Option.some.inj (htexture.symm.trans htexture')
      exact hall
  rw [hfits]
  by_cases hptr : texture.ptr_.isSome
  · by_cases hformat : texture.pixelFormat_ = .RGB24
    · exact iff_of_true (fun rows hrows => (update_rgb (h.rgb texture htexture) hformat hreads rows hrows).2)
        fun _ hne => absurd hformat hne
    · constructor
      · intro hall _ _ i plane p hplane hp
        have hlt : i < data.length :=
          (List.getElem?_eq_some_iff.1 hp).1.trans_le (pixels_length_le hreads)
        have hspan : data[i]? = some data[i] := List.getElem?_eq_getElem hlt
        obtain ⟨⟨plane', hplane', hsize⟩, -⟩ := h.framePlanes hdata hspan
        obtain rfl := Option.some.inj (hplane.symm.trans hplane')
        have hrows := hall _ ((update_planes hptr hformat hreads _).2 ⟨i, data[i], p, hspan, hp, rfl⟩)
        rw [PixelRows.inBounds_iff] at hrows
        rw [hsize]
        exact hrows
      · intro hall rows hrows
        obtain ⟨i, span, p, hspan, hp, rfl⟩ := (update_planes hptr hformat hreads rows).1 hrows
        obtain ⟨⟨plane, hplane, hsize⟩, -⟩ := h.framePlanes hdata hspan
        rw [PixelRows.inBounds_iff]
        have hfit := hall hptr hformat i plane p hplane hp
        rw [hsize] at hfit
        exact hfit
  · have hempty := update_none (by simpa using hptr) hreads
    rw [hempty]
    exact iff_of_true nofun fun hsome => absurd hsome hptr

/-- What is read of a plane in bounds is mapped when the plane is. -/
private theorem mapped_of_covered {regions : List Span} {span : Span} (hcovered : MappingSink.covered regions span)
    {pitch : Int} {rows bytes : Nat} (h : (⟨.plane span, pitch, rows, bytes⟩ : PixelRows).InBounds) :
    (⟨.plane span, pitch, rows, bytes⟩ : PixelRows).Mapped regions := by
  rw [MappingSink.covered, List.any_eq_true] at hcovered
  obtain ⟨r, hr, hin⟩ := hcovered
  simp only [decide_eq_true_eq] at hin
  intro k hk i hi
  obtain ⟨hlow, hhigh⟩ := h k hk i hi
  dsimp only [PixelSource.size] at hlow hhigh ⊢
  exact ⟨r, hr, by omega, by omega⟩

/-! ### The steps -/

private theorem stride_of_new {rect : SDLRect} {t : SDLTextureMJPG} (h : SDLTextureMJPG.new rect = .texture t) :
    t.stride_ = rect.w.toInt * 3 := by
  by_cases hover : SDLTextureMJPG.NoOverflow rect
  · rw [SDLTextureMJPG.new_of_noOverflow hover] at h
    split at h
    · cases h
    · exact (congrArg (·.stride_) (SDLTextureMJPG.Constructed.texture.inj h)).symm
  · rw [SDLTextureMJPG.new_of_overflow hover] at h
    cases h

/-- The texture that a configuration leaves is the one before, or a new one. -/
private theorem configure_rgbStride {s s' : SDLSink} {config : List StreamConfiguration} {ret : Int}
    (h : ∀ texture, s.texture_ = some texture → RgbStride texture) (hs : s.configure build config = some (ret, s')) :
    ∀ texture, s'.texture_ = some texture → RgbStride texture := by
  cases config with
  | nil =>
    obtain ⟨-, rfl⟩ := Prod.mk.inj (Option.some.inj hs)
    exact h
  | cons cfg config =>
    simp only [SDLSink.configure] at hs
    split at hs
    · split at hs
      · rename_i t hnew
        obtain ⟨-, rfl⟩ := Prod.mk.inj (Option.some.inj hs)
        rintro texture htexture -
        obtain rfl := Option.some.inj htexture
        exact stride_of_new hnew
      · cases hs
      · cases hs
    · split at hs
      · obtain ⟨-, rfl⟩ := Prod.mk.inj (Option.some.inj hs)
        intro texture htexture hformat
        obtain rfl := Option.some.inj htexture
        cases hformat
      · split at hs
        · obtain ⟨-, rfl⟩ := Prod.mk.inj (Option.some.inj hs)
          intro texture htexture hformat
          obtain rfl := Option.some.inj htexture
          cases hformat
        · obtain ⟨-, rfl⟩ := Prod.mk.inj (Option.some.inj hs)
          exact h

/-- `start` gives the texture its pointer and changes nothing else of it. -/
private theorem start_rgbStride {s s' : SDLSink} {answers : SdlAnswers} {ret : Int}
    (h : ∀ texture, s.texture_ = some texture → RgbStride texture) (hs : s.start answers = some (ret, s')) :
    ∀ texture, s'.texture_ = some texture → RgbStride texture := by
  simp only [SDLSink.start] at hs
  split at hs
  · obtain ⟨-, rfl⟩ := Prod.mk.inj (Option.some.inj hs)
    exact h
  · split at hs
    · obtain ⟨-, rfl⟩ := Prod.mk.inj (Option.some.inj hs)
      exact h
    · simp only [SDLSink.startRenderer] at hs
      split at hs
      · obtain ⟨-, rfl⟩ := Prod.mk.inj (Option.some.inj hs)
        exact h
      · obtain ⟨⟨ret', t⟩, ht, hdone⟩ := Option.map_eq_some_iff.1 hs
        obtain ⟨texture, htexture, hcreate⟩ := Option.map_eq_some_iff.1 ht
        have hstride : ∀ texture', t.texture_ = some texture' → RgbStride texture' := by
          dsimp only at hcreate
          split at hcreate
          all_goals
            obtain ⟨-, rfl⟩ := Prod.mk.inj hcreate
            rintro texture' ⟨⟩
            exact h texture htexture
        dsimp only at hdone
        split at hdone
        all_goals
          obtain ⟨-, rfl⟩ := Prod.mk.inj hdone
          exact hstride

private theorem stop_texture (s : SDLSink) : s.stop.texture_ = none := by
  unfold SDLSink.stop SDLSink.quit SDLSink.dropWindow SDLSink.dropRenderer
  have hnone := SDLSink.dropTexture_texture s
  split <;> split <;> split <;> exact hnone

private theorem present_texture {s s' : SDLSink} (hs : s.present = some s') : s'.texture_ = s.texture_ := by
  obtain ⟨texture, -, rfl⟩ := Option.map_eq_some_iff.1 hs
  rfl

private theorem sizes_step {mapping mapping' : MappingSink} {e : MappingEvent}
    (h : ∀ (buffer : FrameBufferPtr) (image : Image), mapping.mappedBuffers_[buffer]? = some image →
      image.planes_.map (·.size) = (planes buffer).map (·.length.toNat))
    (hs : MappingSink.step planes mapping e = some mapping') :
    ∀ (buffer : FrameBufferPtr) (image : Image), mapping'.mappedBuffers_[buffer]? = some image →
      image.planes_.map (·.size) = (planes buffer).map (·.length.toNat) := by
  intro buffer image hget
  rcases MappingSink.step_cases hs with ⟨k, buffer', r, image', -, hr, hi, hmapped, -⟩ | ⟨hmapped, -⟩
  · rw [hmapped, Std.TreeMap.getElem?_insert] at hget
    split at hget
    · rename_i heq
      obtain rfl := Option.some.inj hget
      obtain rfl : buffer' = buffer := Std.compare_eq_iff_eq.1 heq
      have hne : planes buffer' ≠ [] := by
        intro hnil
        rw [hnil] at hr
        cases hr
      obtain ⟨r', hr', -, himage⟩ := Image.fromFrameBuffer_spec hne (k := k) .ReadOnly
      obtain rfl := Option.some.inj (hr.symm.trans hr')
      rw [(himage image' hi).1, List.map_map]
      rfl
    · exact h buffer image hget
  · rw [hmapped] at hget
    exact h buffer image hget

/-- The parts of a step: the objects, the mapping and what is uploaded. -/
structure StepParts (planes : FrameBufferPtr → List FrameBufferPlane) (s s' : SdlDisplay) (e : SdlDisplayEvent) :
    Prop where
  objects : (∀ texture, s.objects.texture_ = some texture → RgbStride texture) →
    ∀ texture, s'.objects.texture_ = some texture → RgbStride texture
  mapping : s'.mapping = s.mapping ∨ ∃ m, MappingSink.step planes s.mapping m = some s'.mapping ∧
    (MapsFit planes e → MappingSink.PlanesFit planes m)
  uploads : (s'.uploads = s.uploads ∧ FrameFits planes s e) ∨
    ∃ buffer bytesused data texture reads, e = .renderBuffer buffer bytesused ∧
      s.framePlanes buffer bytesused = some data ∧ s.objects.texture_ = some texture ∧
      texture.update data = some reads ∧ s'.uploads = s.uploads ++ [(reads, s.mapping.regions)]

private theorem step_parts {s s' : SdlDisplay} {e : SdlDisplayEvent} (hs : step build planes s e = some s') :
    StepParts planes s s' e := by
  cases e with
  | configure config =>
    obtain ⟨⟨ret, t⟩, ht, rfl⟩ := Option.map_eq_some_iff.1 hs
    exact ⟨fun h => configure_rgbStride h ht, Or.inl rfl, Or.inl ⟨rfl, trivial⟩⟩
  | start answers =>
    obtain ⟨⟨ret, t⟩, ht, rfl⟩ := Option.map_eq_some_iff.1 hs
    exact ⟨fun h => start_rgbStride h ht, Or.inl rfl, Or.inl ⟨rfl, trivial⟩⟩
  | mapBuffer k buffer =>
    obtain ⟨mapping, hmapping, rfl⟩ := Option.map_eq_some_iff.1 hs
    exact ⟨id, Or.inr ⟨.mapBuffer k buffer, hmapping, id⟩, Or.inl ⟨rfl, trivial⟩⟩
  | renderBuffer buffer bytesused =>
    obtain ⟨mapping, hmapping, hs⟩ := Option.bind_eq_some_iff.1 hs
    obtain ⟨data, hdata, hs⟩ := Option.bind_eq_some_iff.1 hs
    obtain ⟨texture, htexture, hs⟩ := Option.bind_eq_some_iff.1 hs
    obtain ⟨reads, hreads, hs⟩ := Option.bind_eq_some_iff.1 hs
    obtain ⟨objects, hobjects, hs⟩ := Option.bind_eq_some_iff.1 hs
    obtain rfl := Option.some.inj hs
    refine ⟨fun h => ?_, Or.inr ⟨.renderBuffer buffer bytesused, hmapping, fun _ => trivial⟩, Or.inr ?_⟩
    · rw [present_texture hobjects]
      exact h
    · exact ⟨buffer, bytesused, data, texture, reads, rfl, hdata, htexture, hreads, rfl⟩
  | stop =>
    obtain rfl := Option.some.inj hs
    refine ⟨fun _ texture htexture => ?_, Or.inl rfl, Or.inl ⟨rfl, trivial⟩⟩
    rw [stop_texture] at htexture
    cases htexture

private theorem Inv.step {s s' : SdlDisplay} {e : SdlDisplayEvent} (h : s.Inv planes)
    (hs : step build planes s e = some s') :
    s'.Inv planes := by
  obtain ⟨hobjects, hmapping, -⟩ := step_parts hs
  refine ⟨hobjects h.rgb, ?_⟩
  rcases hmapping with hsame | ⟨m, hm, -⟩
  · rw [hsame]
    exact h.sizes
  · exact sizes_step h.sizes hm

/-- Everything that SDL read lay in its source. -/
def AllInBounds (s : SdlDisplay) : Prop := ∀ u ∈ s.uploads, ∀ rows ∈ u.1, rows.InBounds

private theorem Inv.step_or {s s' : SdlDisplay} {e : SdlDisplayEvent} (h : s.Inv planes ∧ s.AllInBounds)
    (hs : SdlDisplay.step build planes s e = some s') :
    (FrameFits planes s e ∧ s'.Inv planes ∧ s'.AllInBounds) ∨ (¬FrameFits planes s e ∧ ¬s'.AllInBounds) := by
  have hinv := h.1.step hs
  rcases (step_parts hs).uploads with ⟨hsame, hfits⟩ |
    ⟨buffer, bytesused, data, texture, reads, rfl, hdata, htexture, hreads, huploads⟩
  · refine Or.inl ⟨hfits, hinv, ?_⟩
    rw [AllInBounds, hsame]
    exact h.2
  · have hiff := h.1.inBounds_iff hdata htexture hreads
    have hall : s'.AllInBounds ↔ ∀ rows ∈ reads, rows.InBounds := by
      rw [AllInBounds, huploads]
      constructor
      · exact fun hall => hall _ (List.mem_append_right _ (List.mem_singleton_self _))
      · intro hnew u hu
        rcases List.mem_append.1 hu with hold | hlast
        · exact h.2 u hold
        · obtain rfl := List.mem_singleton.1 hlast
          exact hnew
    rw [← hiff, hall]
    by_cases hfits : ∀ rows ∈ reads, rows.InBounds
    · exact Or.inl ⟨hfits, hinv, hfits⟩
    · exact Or.inr ⟨hfits, hfits⟩

private theorem not_allInBounds_step {s s' : SdlDisplay} {e : SdlDisplayEvent} (h : ¬s.AllInBounds)
    (hs : step build planes s e = some s') : ¬s'.AllInBounds := by
  have hkept : ∀ u ∈ s.uploads, u ∈ s'.uploads := by
    intro u hu
    rcases (step_parts hs).uploads with ⟨hsame, -⟩ | ⟨buffer, bytesused, data, texture, reads, -, -, -, -, huploads⟩
    · rw [hsame]
      exact hu
    · rw [huploads]
      exact List.mem_append_left _ hu
  exact fun hall => h fun u hu => hall u (hkept u hu)

/-- What SDL reads in bounds of its source is mapped, as long as the planes lie in their regions. -/
def MappedInBounds (s : SdlDisplay) : Prop := ∀ u ∈ s.uploads, ∀ rows ∈ u.1, rows.InBounds → rows.Mapped u.2

private theorem MappedInBounds.step {s s' : SdlDisplay} {e : SdlDisplayEvent}
    (h : s.Inv planes ∧ s.mapping.Covers ∧ s.MappedInBounds) (hfits : MapsFit planes e)
    (hs : step build planes s e = some s') : s'.Inv planes ∧ s'.mapping.Covers ∧ s'.MappedInBounds := by
  obtain ⟨hinv, hcovers, hmapped⟩ := h
  obtain ⟨-, hmapping, huploads⟩ := step_parts hs
  refine ⟨hinv.step hs, ?_, ?_⟩
  · rcases hmapping with hsame | ⟨m, hm, hplanes⟩
    · rw [hsame]
      exact hcovers
    · exact hcovers.step (hplanes hfits) hm
  · rcases huploads with ⟨hsame, -⟩ | ⟨buffer, bytesused, data, texture, reads, -, hdata, htexture, hreads, hnew⟩
    · rw [MappedInBounds, hsame]
      exact hmapped
    · rw [MappedInBounds, hnew]
      intro u hu
      rcases List.mem_append.1 hu with hold | hlast
      · exact hmapped u hold
      · obtain rfl := List.mem_singleton.1 hlast
        intro rows hrows hbounds
        by_cases hformat : texture.pixelFormat_ = .RGB24
        · obtain ⟨⟨size, hsource⟩, -⟩ := update_rgb (hinv.rgb texture htexture) hformat hreads rows hrows
          rw [PixelRows.Mapped, hsource]
          exact hbounds
        · have hptr : texture.ptr_.isSome := by
            by_contra hnone
            rw [update_none (by simpa using hnone) hreads] at hrows
            cases hrows
          obtain ⟨i, span, p, hspan, -, rfl⟩ := (update_planes hptr hformat hreads rows).1 hrows
          have hkept := (hinv.framePlanes hdata hspan).2
          exact mapped_of_covered (hcovers.covered (List.Perm.refl _) hkept) hbounds

/-- Over any run of an SDL sink, whatever SDL and the kernel answer, SDL reads only the planes of the frames and `rgb_`
if and only if the rows of the texture fit into the planes of the buffer for every frame that is shown.  If the planes
that are mapped end within 32 bits as well, then all that SDL reads of a plane is mapped at that time.  A run ends where
an assertion fails or a texture cannot be constructed, and where the sink itself reads past a vector: at a frame whose
metadata has more planes than the image, or fewer than the texture takes. -/
theorem uploads_in_bounds_iff {s t : SdlDisplay} {es : List SdlDisplayEvent} (hs : (machine build planes).init s)
    (hr : (machine build planes).Run s es t) :
    (t.AllInBounds ↔ (machine build planes).AllSteps (FrameFits planes) s es) ∧
      ((∀ e ∈ es, MapsFit planes e) → (machine build planes).AllSteps (FrameFits planes) s es →
        ∀ u ∈ t.uploads, ∀ rows ∈ u.1, rows.Mapped u.2) := by
  obtain rfl : s = constructed := hs
  have hinv : constructed.Inv planes := by
    refine ⟨nofun, fun buffer image hget => ?_⟩
    simp [constructed] at hget
  have hiff : t.AllInBounds ↔ (machine build planes).AllSteps (FrameFits planes) constructed es := by
    rcases hr.allSteps_or (fun _ _ _ => Inv.step_or) (fun _ _ _ => not_allInBounds_step) ⟨hinv, nofun⟩ with
      ⟨hall, -, hbounds⟩ | ⟨hnot, hbounds⟩
    · exact iff_of_true hbounds hall
    · exact iff_of_false hbounds hnot
  refine ⟨hiff, fun hmaps hframes u hu rows hrows => ?_⟩
  have hcovers : constructed.mapping.Covers := by
    intro buffer image hget
    simp [constructed] at hget
  obtain ⟨-, -, hmapped⟩ := hr.invariantVia (G := fun _ => MapsFit planes) (fun _ _ _ => MappedInBounds.step)
    (Machine.allSteps_of_forall fun _ => hmaps) ⟨hinv, hcovers, nofun⟩
  exact hmapped u hu rows hrows (hiff.2 hframes u hu rows hrows)

/-- The planes of a small NV12 picture, in one dmabuf. -/
def smallPlanes : FrameBufferPtr → List FrameBufferPlane := fun _ => [⟨5, 0, 12⟩, ⟨5, 12, 6⟩]

/-- A picture of four by two pixels is shown, with six bytes from row to row. -/
def smallSession : List SdlDisplayEvent :=
  [.configure [⟨0, formats.NV12, ⟨4, 2⟩, 6⟩], .mapBuffer (MappingSink.mappedAt 0x7000) 1, .start ⟨0, true, true, true⟩,
    .renderBuffer 1 [12, 6], .stop]

theorem uploads_in_bounds_iff_small : ∃ t, (machine ⟨true, true⟩ smallPlanes).replay constructed smallSession = some t ∧
    (∀ u ∈ t.uploads, ∀ rows ∈ u.1, rows.Mapped u.2) ∧
      t.uploads = [([⟨.plane ⟨0x7000, 12⟩, 6, 2, 4⟩, ⟨.plane ⟨0x700c, 6⟩, 6, 1, 4⟩], [⟨0x7000, 18⟩])] := by
  have hrun : ((machine ⟨true, true⟩ smallPlanes).replay constructed smallSession).map (·.uploads) =
      some [([⟨.plane ⟨0x7000, 12⟩, 6, 2, 4⟩, ⟨.plane ⟨0x700c, 6⟩, 6, 1, 4⟩], [⟨0x7000, 18⟩])] := rfl
  obtain ⟨t, ht, huploads⟩ := Option.map_eq_some_iff.1 hrun
  obtain ⟨hiff, hmapped⟩ := uploads_in_bounds_iff rfl (Machine.run_of_replay ht)
  have hbounds : t.AllInBounds := by
    rw [AllInBounds, huploads]
    decide
  have hmaps : ∀ e ∈ smallSession, MapsFit smallPlanes e := by
    simp [smallSession, MapsFit, smallPlanes]
  exact ⟨t, ht, hmapped hmaps (hiff.1 hbounds), huploads⟩

end SdlDisplay

end Twincam
