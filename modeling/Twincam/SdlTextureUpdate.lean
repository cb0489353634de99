import Twincam.Lib.Machine
import Twincam.SdlTextureMjpg

/-!
# Showing MJPEG frames (`SDLTextureMJPG::update` in `sdl_texture_mjpg.cpp`, `jpeg_error_manager.cpp`)

`update` decodes a frame into `rgb_` and uploads `rgb_` to the texture, whatever `decompress` returns.  An error of
libjpeg leaves `decompress` by a `longjmp`, after the rows that were decoded so far have been stored; so a frame that
fails in the middle is shown, mixed with the frame before it.

`picture_kept_iff` says which sequences of frames never show anything but the last frame that decoded: in them, every
frame that decodes has the size of the texture, and every frame that fails leaves the picture as it is (`Harmless`).
-/

namespace Twincam

/-- The byte that a write puts at `a`, if it covers it. -/
def RowWrite.at (write : RowWrite) (a : Nat) : Option UInt8 :=
  if write.offset ≤ a then write.bytes[(a - write.offset).toNat]? else none

instance (size : Int) (write : RowWrite) : Decidable (write.InBounds size) :=
  inferInstanceAs (Decidable (∀ i < write.bytes.length, _))

/-- The byte that the writes put at `a`: that of the last one that covers it. -/
def RowWrite.lastAt (writes : List RowWrite) (a : Nat) : Option UInt8 := writes.reverse.findSome? (·.at a)

/-- A picture: the bytes of a row, the number of rows, and the rows one after the other. -/
structure Picture where
  rowBytes : Int
  rows : Int
  bytes : List UInt8
deriving DecidableEq, Repr

namespace Jpeg

/-- The rows that libjpeg decodes before it is done or raises its error. -/
def decodedRows (jpeg : Jpeg) : Nat :=
  match jpeg.error with
  | some .header => 0
  | some .start => 0
  | some (.scanline row) => min row jpeg.output_height
  | _ => jpeg.output_height

/-- The row at which libjpeg raises its error, if it does so while it decodes the rows. -/
def failedRow (jpeg : Jpeg) : Option Nat :=
  match jpeg.error with
  | some (.scanline row) => if row < jpeg.output_height then some row else none
  | _ => none

/-- The frame decodes without error. -/
def decodes (jpeg : Jpeg) : Bool :=
  match jpeg.error with
  | none => true
  | some (.scanline row) => decide (jpeg.output_height ≤ row)
  | _ => false

/-- The complete decoding of a frame. -/
def picture (jpeg : Jpeg) : Picture where
  rowBytes := (jpeg.output_width * jpeg.output_components : Nat)
  rows := jpeg.output_height
  bytes := (List.range jpeg.output_height).flatMap jpeg.scanline

private theorem length_scanline (jpeg : Jpeg) (row : Nat) :
    (jpeg.scanline row).length = jpeg.output_width * jpeg.output_components := by
  rw [scanline, List.length_map, List.length_range]

private theorem length_flatMap_scanline (jpeg : Jpeg) (n : Nat) :
    ((List.range n).flatMap jpeg.scanline).length = n * (jpeg.output_width * jpeg.output_components) := by
  induction n with
  | zero => simp
  | succ n ih =>
    rw [List.range_succ, List.flatMap_append, List.length_append, ih, List.flatMap_singleton, length_scanline]
    exact (Nat.succ_mul _ _).symm

end Jpeg

namespace SDLTextureMJPG

/-- The rows that libjpeg stores in `rgb_`. -/
def decodedWrites (t : SDLTextureMJPG) (jpeg : Jpeg) : List RowWrite :=
  (List.range jpeg.decodedRows).map (rowWrite t.stride_ jpeg)

/-- A row stored in `rgb_`; `none` when it leaves the buffer. -/
def store (rgb : List UInt8) (write : RowWrite) : Option (List UInt8) :=
  if write.InBounds rgb.length then some (rgb.mapIdx fun a old => (write.at a).getD old) else none

/-- The contents of `rgb_` and of the texture, undefined once a row was stored outside of the buffer, and the picture
that is to be seen: the complete decoding of the last frame that decoded, or the initial contents of the texture. -/
structure State where
  rgb : Option (List UInt8)
  texture : Option (List UInt8)
  expected : Picture

/-- What a texture with these contents shows. -/
def pictureOf (t : SDLTextureMJPG) (contents : List UInt8) : Picture := ⟨t.stride_, t.rect_.h.toInt, contents⟩

/-- The frame has the size of the texture. -/
def Configured (t : SDLTextureMJPG) (jpeg : Jpeg) : Prop :=
  ((jpeg.output_width * jpeg.output_components : Nat) : Int) = t.stride_ ∧ (jpeg.output_height : Int) = t.rect_.h.toInt

instance (t : SDLTextureMJPG) (jpeg : Jpeg) : Decidable (t.Configured jpeg) := inferInstanceAs (Decidable (_ ∧ _))

/-- `SDLTextureMJPG::update`; the result of `decompress` is not used. -/
def update (t : SDLTextureMJPG) (s : State) (jpeg : Jpeg) : State :=
  let rgb := s.rgb.bind fun rgb => (t.decodedWrites jpeg).foldlM store rgb
  ⟨rgb, rgb, if (t.decompress jpeg).1 = 0 then jpeg.picture else s.expected⟩

/-- The texture, which has contents of its own at first, and `rgb_`, which is all zero. -/
def machine (t : SDLTextureMJPG) : Machine State Jpeg where
  init s := ∃ contents, contents.length = t.size ∧
    s = ⟨some (List.replicate t.size 0), some contents, t.pictureOf contents⟩
  step s jpeg := some (t.update s jpeg)

/-! ### What `decompress` does -/

private theorem readScanlines_ok {stride : Int} {jpeg : Jpeg} {rows i : Nat}
    (h : ∀ row, jpeg.error = some (.scanline row) → i + rows ≤ row) :
    readScanlines stride jpeg rows i = ((List.range' i rows).map (rowWrite stride jpeg), true) := by
  induction rows generalizing i with
  | zero => rfl
  | succ rows ih =>
    have hne : jpeg.error ≠ some (.scanline i) := by
      intro herr
      have := h i herr
      omega
    have hrest : ∀ row, jpeg.error = some (.scanline row) → i + 1 + rows ≤ row := by
      intro row herr
      have := h row herr
      omega
    rw [readScanlines, if_neg hne, ih hrest, List.range'_succ, List.map_cons]

private theorem readScanlines_failed {stride : Int} {jpeg : Jpeg} {row rows i : Nat}
    (herr : jpeg.error = some (.scanline row)) (hi : i ≤ row) (hlt : row < i + rows) :
    readScanlines stride jpeg rows i = ((List.range' i (row + 1 - i)).map (rowWrite stride jpeg), false) := by
  induction rows generalizing i with
  | zero => omega
  | succ rows ih =>
    rw [readScanlines, herr]
    by_cases heq : row = i
    · subst heq
      rw [if_pos rfl, show row + 1 - row = 1 by omega]
      rfl
    · have hne : some (JpegError.scanline row) ≠ some (JpegError.scanline i) := by simpa using heq
      rw [if_neg hne, ih (by omega) (by omega), show row + 1 - i = row + 1 - (i + 1) + 1 by omega, List.range'_succ,
        List.map_cons]

/-- `decompress` returns an error unless the frame decodes, and asks for the rows that are decoded and the one that
fails. -/
private theorem decompress_eq (t : SDLTextureMJPG) (jpeg : Jpeg) :
    t.decompress jpeg = (if jpeg.decodes then 0 else -EINVAL,
      t.decodedWrites jpeg ++ (jpeg.failedRow.map (rowWrite t.stride_ jpeg)).toList) := by
  unfold decompress decodedWrites Jpeg.decodes Jpeg.decodedRows Jpeg.failedRow
  cases herr : jpeg.error with
  | none =>
    rw [readScanlines_ok (by simp [herr])]
    simp [List.range_eq_range']
  | some e =>
    cases e with
    | header => simp
    | start => simp
    | scanline row =>
      by_cases hlt : row < jpeg.output_height
      · rw [readScanlines_failed herr (Nat.zero_le _) (by omega)]
        simp [hlt, Nat.not_le.2 hlt, Nat.min_eq_left (Nat.le_of_lt hlt), ← List.range_eq_range', List.range_succ]
      · have hle : jpeg.output_height ≤ row := Nat.le_of_not_lt hlt
        rw [readScanlines_ok (by intro row' h; rw [herr] at h; cases h; omega)]
        simp [hlt, hle, List.range_eq_range']
    | finish =>
      rw [readScanlines_ok (by simp [herr])]
      simp [List.range_eq_range']

private theorem decompress_fst (t : SDLTextureMJPG) (jpeg : Jpeg) : (t.decompress jpeg).1 = 0 ↔ jpeg.decodes =
    true := by
  rw [decompress_eq]
  cases jpeg.decodes <;> simp [EINVAL]

/-! ### What ends up in the buffer -/

private theorem lastAt_cons (write : RowWrite) (writes : List RowWrite) (a : Nat) :
    RowWrite.lastAt (write :: writes) a = (RowWrite.lastAt writes a).or (write.at a) := by
  rw [RowWrite.lastAt, List.reverse_cons, List.findSome?_append, RowWrite.lastAt]
  simp

/-- Rows stored one after the other: they all lie in the buffer, and each byte is that of the last row over it. -/
private theorem foldlM_store (writes : List RowWrite) (rgb : List UInt8) :
    writes.foldlM store rgb =
      if ∀ write ∈ writes, write.InBounds rgb.length then
        some (rgb.mapIdx fun a old => (RowWrite.lastAt writes a).getD old)
      else none := by
  induction writes generalizing rgb with
  | nil =>
    rw [if_pos (by simp)]
    show some rgb = some (rgb.mapIdx fun _ old => old)
    exact congrArg some (List.ext_getElem? fun a => by simp)
  | cons write writes ih =>
    rw [List.foldlM_cons, store]
    by_cases hin : write.InBounds rgb.length
    · rw [if_pos hin]
      simp only [Option.bind_eq_bind, Option.bind_some, ih, List.length_mapIdx, List.forall_mem_cons, hin, true_and,
        List.mapIdx_mapIdx, lastAt_cons]
      split
      · congr 2
        funext a old
        cases RowWrite.lastAt writes a <;> rfl
      · rfl
    · rw [if_neg hin, if_neg fun h => hin (h write List.mem_cons_self)]
      rfl

private theorem at_of_lt {write : RowWrite} {a : Nat} (h : (a : Int) < write.offset) : write.at a = none :=
  if_neg (Int.not_le.2 h)

private theorem at_add {start : Nat} (bytes : List UInt8) (j : Nat) :
    RowWrite.at ⟨start, bytes⟩ (start + j) = bytes[j]? := by
  have hle : (start : Int) ≤ (start + j : Nat) := by omega
  have hsub : (((start + j : Nat) : Int) - start).toNat = j := by omega
  rw [RowWrite.at, if_pos hle, hsub]

/-- A row that continues what was stored before it. -/
private theorem store_append {stored rest bytes : List UInt8} (h : bytes.length ≤ rest.length) :
    store (stored ++ rest) ⟨stored.length, bytes⟩ = some (stored ++ bytes ++ rest.drop bytes.length) := by
  have hin : RowWrite.InBounds (stored ++ rest).length ⟨stored.length, bytes⟩ := by
    intro i hi
    rw [List.length_append]
    dsimp only at hi ⊢
    omega
  rw [store, if_pos hin, Option.some.injEq]
  apply List.ext_getElem?
  intro a
  rw [List.getElem?_mapIdx, List.append_assoc]
  rcases Nat.lt_or_ge a stored.length with hlt | hge
  · have hat : RowWrite.at ⟨stored.length, bytes⟩ a = none := at_of_lt (Int.ofNat_lt.2 hlt)
    rw [List.getElem?_append_left hlt, List.getElem?_append_left hlt, hat]
    simp
  · obtain ⟨j, rfl⟩ := Nat.exists_eq_add_of_le hge
    have hsub : stored.length + j - stored.length = j := by omega
    rw [at_add, List.getElem?_append_right hge, List.getElem?_append_right hge, hsub]
    by_cases hj : j < bytes.length
    · rw [List.getElem?_append_left hj, List.getElem?_eq_getElem hj, List.getElem?_eq_getElem (by omega)]
      rfl
    · rw [List.getElem?_append_right (by omega), List.getElem?_drop, List.getElem?_eq_none (by omega),
        show bytes.length + (j - bytes.length) = j by omega]
      simp

/-- The rows of a frame whose rows are as long as those of the buffer. -/
private theorem foldlM_rows {t : SDLTextureMJPG} {jpeg : Jpeg} {rgb : List UInt8}
    (hstride : ((jpeg.output_width * jpeg.output_components : Nat) : Int) = t.stride_) {n : Nat}
    (hn : n * (jpeg.output_width * jpeg.output_components) ≤ rgb.length) :
    ((List.range n).map (rowWrite t.stride_ jpeg)).foldlM store rgb =
      some ((List.range n).flatMap jpeg.scanline ++ rgb.drop (n * (jpeg.output_width * jpeg.output_components))) := by
  induction n with
  | zero => simp
  | succ n ih =>
    rw [Nat.succ_mul] at hn
    have hlen := jpeg.length_flatMap_scanline n
    have hwrite : rowWrite t.stride_ jpeg n =
        ⟨((List.range n).flatMap jpeg.scanline).length, jpeg.scanline n⟩ := by
      rw [rowWrite, ← hstride, hlen]
      push_cast
      rfl
    have hroom : (jpeg.scanline n).length ≤
        (rgb.drop (n * (jpeg.output_width * jpeg.output_components))).length := by
      rw [jpeg.length_scanline, List.length_drop]
      omega
    rw [List.range_succ, List.map_append, List.foldlM_append, ih (by omega), List.map_singleton, hwrite]
    simp only [Option.bind_eq_bind, Option.bind_some, List.foldlM_cons, List.foldlM_nil, store_append hroom]
    rw [List.flatMap_append, List.flatMap_singleton, List.drop_drop, jpeg.length_scanline, Nat.succ_mul]
    rfl

/-! ### The picture -/

/-- The texture shows the picture that is to be seen. -/
def ShowsExpected (t : SDLTextureMJPG) (s : State) : Prop :=
  ∃ contents, s.texture = some contents ∧ s.expected = t.pictureOf contents

/-- A frame that decodes has the size of the texture.  Of one that fails, the rows decoded before lie in the buffer, and
the buffer with these rows is what the texture shows already. -/
def Harmless (t : SDLTextureMJPG) (s : State) (jpeg : Jpeg) : Prop :=
  if jpeg.decodes then t.Configured jpeg
  else
    (∀ write ∈ t.decodedWrites jpeg, write.InBounds t.size) ∧
      ∀ a < t.size, (RowWrite.lastAt (t.decodedWrites jpeg) a).or (s.rgb.bind (·[a]?)) = s.texture.bind (·[a]?)

/-- The buffer and the texture have their size, and the buffer is as defined as the texture. -/
structure Sized (t : SDLTextureMJPG) (s : State) : Prop where
  rgb : ∀ rgb, s.rgb = some rgb → rgb.length = t.size
  texture : ∀ contents, s.texture = some contents → contents.length = t.size ∧ s.rgb.isSome

private theorem size_of_new {rect : SDLRect} {t : SDLTextureMJPG} (h : new rect = .texture t) :
    (t.size : Int) = t.stride_ * t.rect_.h.toInt := by
  by_cases hover : NoOverflow rect
  · rw [new_of_noOverflow hover] at h
    split at h
    · cases h
    · cases h
      dsimp only
      omega
  · rw [new_of_overflow hover] at h
    cases h

private theorem Sized.update {t : SDLTextureMJPG} {s : State} (h : Sized t s) (jpeg : Jpeg) : Sized t
    (t.update s jpeg) := by
  have hlen : ∀ rgb', (s.rgb.bind fun rgb => (t.decodedWrites jpeg).foldlM store rgb) = some rgb' →
      rgb'.length = t.size := by
    intro rgb' heq
    obtain ⟨rgb, hrgb, hstored⟩ := Option.bind_eq_some_iff.1 heq
    rw [foldlM_store] at hstored
    split at hstored
    · rw [← Option.some.inj hstored, List.length_mapIdx, h.rgb rgb hrgb]
    · cases hstored
  refine ⟨hlen, fun contents hcontents => ⟨hlen contents hcontents, ?_⟩⟩
  have hrgb : (t.update s jpeg).rgb = some contents := hcontents
  rw [hrgb]
  rfl

/-- A frame of the size of the texture that decodes is shown completely. -/
private theorem update_of_configured {t : SDLTextureMJPG} (hsize : (t.size : Int) = t.stride_ * t.rect_.h.toInt)
    {s : State} {rgb : List UInt8} (hrgb : s.rgb = some rgb) (hlen : rgb.length = t.size) {jpeg : Jpeg}
    (hdecodes : jpeg.decodes = true) (hconf : t.Configured jpeg) :
    (t.update s jpeg).texture = some jpeg.picture.bytes := by
  have hrows : jpeg.decodedRows = jpeg.output_height := by
    unfold Jpeg.decodes at hdecodes
    unfold Jpeg.decodedRows
    split at hdecodes <;> simp_all
  have hfull : jpeg.output_height * (jpeg.output_width * jpeg.output_components) = rgb.length := by
    rw [hlen]
    apply Int.ofNat.inj
    show ((jpeg.output_height * (jpeg.output_width * jpeg.output_components) : Nat) : Int) = t.size
    rw [hsize, ← hconf.1, ← hconf.2, Nat.mul_comm, Int.natCast_mul]
  show (s.rgb.bind fun rgb => (t.decodedWrites jpeg).foldlM store rgb) = some jpeg.picture.bytes
  rw [hrgb, Option.bind_some, decodedWrites, hrows, foldlM_rows hconf.1 hfull.le, hfull, List.drop_length,
    List.append_nil]
  rfl

/-- The buffer with some of its bytes replaced, compared with other contents byte by byte. -/
private theorem mapIdx_getD_eq_iff {rgb contents : List UInt8} (hlen : contents.length = rgb.length)
    (stored : Nat → Option UInt8) :
    (rgb.mapIdx fun a old => (stored a).getD old) = contents ↔
      ∀ a < rgb.length, (stored a).or rgb[a]? = contents[a]? := by
  have hbyte : ∀ a < rgb.length, (rgb.mapIdx fun a old => (stored a).getD old)[a]? = (stored a).or rgb[a]? := by
    intro a ha
    rw [List.getElem?_mapIdx, List.getElem?_eq_getElem ha]
    cases stored a <;> rfl
  constructor
  · rintro rfl a ha
    exact (hbyte a ha).symm
  · intro h
    apply List.ext_getElem?
    intro a
    rcases Nat.lt_or_ge a rgb.length with ha | ha
    · rw [hbyte a ha, h a ha]
    · have hleft : (rgb.mapIdx fun a old => (stored a).getD old).length ≤ a := by
        rw [List.length_mapIdx]
        omega
      rw [List.getElem?_eq_none hleft, List.getElem?_eq_none (by omega)]

section Update

variable {t : SDLTextureMJPG} {s : State} {jpeg : Jpeg} {rgb contents : List UInt8}

/-- A frame that decodes is shown exactly when it has the size of the texture. -/
private theorem showsExpected_of_decodes (hsize : (t.size : Int) = t.stride_ * t.rect_.h.toInt)
    (hrgb : s.rgb = some rgb) (hlen : rgb.length = t.size) (hdecodes : jpeg.decodes = true) :
    ShowsExpected t (t.update s jpeg) ↔ t.Configured jpeg := by
  have hpicture : (t.update s jpeg).expected = jpeg.picture := if_pos ((decompress_fst t jpeg).2 hdecodes)
  constructor
  · rintro ⟨shown, -, hshown⟩
    obtain ⟨hrow, hrows, -⟩ := Picture.mk.inj (hpicture.symm.trans hshown)
    exact ⟨hrow, hrows⟩
  · intro hconf
    refine ⟨_, update_of_configured hsize hrgb hlen hdecodes hconf, ?_⟩
    rw [hpicture, pictureOf, ← hconf.1, ← hconf.2]
    rfl

/-- After a frame that fails, the texture still shows what it did exactly when the rows decoded before the error leave
the buffer with these contents. -/
private theorem showsExpected_of_fails (hrgb : s.rgb = some rgb) (hexpected : s.expected = t.pictureOf contents)
    (hfails : ¬jpeg.decodes = true) :
    ShowsExpected t (t.update s jpeg) ↔ (t.decodedWrites jpeg).foldlM store rgb = some contents := by
  have hret : ¬(t.decompress jpeg).1 = 0 := fun h => hfails ((decompress_fst t jpeg).1 h)
  have hkept : (t.update s jpeg).expected = t.pictureOf contents := (if_neg hret).trans hexpected
  have hshown : (t.update s jpeg).texture = (t.decodedWrites jpeg).foldlM store rgb := by simp [update, hrgb]
  unfold ShowsExpected
  rw [hkept, hshown]
  constructor
  · rintro ⟨shown, hstored, heq⟩
    rw [hstored, (Picture.mk.inj heq).2.2]
  · intro h
    exact ⟨contents, h, rfl⟩

end Update

/-- One frame keeps the picture right exactly when it is harmless. -/
private theorem showsExpected_update_iff {t : SDLTextureMJPG} (hsize : (t.size : Int) = t.stride_ * t.rect_.h.toInt)
    {s : State} (hsized : Sized t s) (hshows : ShowsExpected t s) (jpeg : Jpeg) :
    ShowsExpected t (t.update s jpeg) ↔ Harmless t s jpeg := by
  obtain ⟨contents, htexture, hexpected⟩ := hshows
  obtain ⟨hcontents, hsome⟩ := hsized.texture contents htexture
  obtain ⟨rgb, hrgb⟩ := Option.isSome_iff_exists.1 hsome
  have hlen := hsized.rgb rgb hrgb
  unfold Harmless
  by_cases hdecodes : jpeg.decodes = true
  · rw [if_pos hdecodes]
    exact showsExpected_of_decodes hsize hrgb hlen hdecodes
  · rw [if_neg hdecodes, showsExpected_of_fails hrgb hexpected hdecodes, foldlM_store, hlen, hrgb, htexture]
    by_cases hin : ∀ write ∈ t.decodedWrites jpeg, write.InBounds t.size
    · have hsame := mapIdx_getD_eq_iff (hcontents.trans hlen.symm) (RowWrite.lastAt (t.decodedWrites jpeg))
      rw [if_pos hin, Option.some.injEq, hsame, hlen]
      exact (and_iff_right hin).symm
    · rw [if_neg hin]
      exact iff_of_false (by simp) fun h => hin h.1

/-- For any sequence of frames, with any errors of libjpeg: after each update the texture shows the last frame that
decoded, or its initial contents, if and only if all the frames are harmless. -/
theorem picture_kept_iff {rect : SDLRect} {t : SDLTextureMJPG} (ht : new rect = .texture t) {s s' : State}
    {es : List Jpeg} (hs : t.machine.init s) (hr : t.machine.Run s es s') :
    t.machine.AllStates (ShowsExpected t) s es ↔ t.machine.AllSteps (Harmless t) s es := by
  obtain ⟨contents, hlen, rfl⟩ := hs
  have hsized : Sized t ⟨some (List.replicate t.size 0), some contents, t.pictureOf contents⟩ := by
    constructor
    · rintro rgb ⟨⟩
      exact List.length_replicate
    · rintro _ ⟨⟩
      exact ⟨hlen, rfl⟩
  refine hr.allStates_iff (I := Sized t) ?_ ?_ hsized ⟨contents, rfl, rfl⟩
  · intro s jpeg s' h hstep
    obtain rfl := Option.some.inj hstep
    exact h.update jpeg
  · intro s jpeg s' h hshows hstep
    obtain rfl := Option.some.inj hstep
    exact showsExpected_update_iff (size_of_new ht) h hshows jpeg

/-- A texture of two rows of one pixel. -/
def twoRows : SDLTextureMJPG := ⟨⟨1, 2⟩, 3, 6⟩

/-- A frame of two rows of one pixel, all of whose bytes are `b`. -/
def twoRowFrame (b : UInt8) (error : Option JpegError) : Jpeg := ⟨1, 2, 3, fun _ _ => b, error⟩

private theorem new_twoRows : new ⟨1, 2⟩ = .texture twoRows := rfl

/-- Before any frame. -/
def twoRowsBlack : State :=
  ⟨some (List.replicate twoRows.size 0), some (List.replicate 6 0), ⟨3, 2, List.replicate 6 0⟩⟩

private theorem init_twoRows : twoRows.machine.init twoRowsBlack := ⟨List.replicate 6 0, rfl, rfl⟩

/-- A frame that decodes, one that fails after a row that is on the texture already, and one without a header. -/
def harmlessFrames : List Jpeg :=
  [twoRowFrame 1 none, twoRowFrame 1 (some (.scanline 1)), twoRowFrame 2 (some .header)]

theorem picture_kept_iff_three : twoRows.machine.AllStates (ShowsExpected twoRows) twoRowsBlack harmlessFrames := by
  refine (picture_kept_iff new_twoRows init_twoRows (Machine.run_of_replay rfl)).2 ?_
  have hstep : ∀ s jpeg, twoRows.machine.step s jpeg = some (twoRows.update s jpeg) := fun _ _ => rfl
  rw [harmlessFrames, Machine.allSteps_cons (hstep _ _), Machine.allSteps_cons (hstep _ _),
    Machine.allSteps_cons (hstep _ _)]
  refine ⟨?_, ?_, ?_, Machine.allSteps_nil⟩
  · rw [Harmless, if_pos (by decide)]
    decide
  · rw [Harmless, if_neg (by decide)]
    exact ⟨by decide, by decide⟩
  · rw [Harmless, if_neg (by decide)]
    exact ⟨by decide, by decide⟩

/-- After a frame that decodes and one whose second row fails. -/
def twoRowsMixed : State :=
  twoRows.update (twoRows.update twoRowsBlack (twoRowFrame 1 none)) (twoRowFrame 2 (some (.scanline 1)))

/-- The texture shows the first row of the second frame above the second row of the first. -/
theorem two_frames_mixed :
    twoRows.machine.init twoRowsBlack ∧
      twoRows.machine.Run twoRowsBlack [twoRowFrame 1 none, twoRowFrame 2 (some (.scanline 1))] twoRowsMixed ∧
      twoRowsMixed.expected = ⟨3, 2, [1, 1, 1, 1, 1, 1]⟩ ∧ twoRowsMixed.texture = some [2, 2, 2, 1, 1, 1] ∧
      ¬ShowsExpected twoRows twoRowsMixed := by
  have hexpected : twoRowsMixed.expected = ⟨3, 2, [1, 1, 1, 1, 1, 1]⟩ := by decide
  have htexture : twoRowsMixed.texture = some [2, 2, 2, 1, 1, 1] := by decide
  refine ⟨init_twoRows, Machine.run_of_replay rfl, hexpected, htexture, ?_⟩
  rintro ⟨contents, hcontents, hpicture⟩
  have hbytes := (Picture.mk.inj (hexpected.symm.trans hpicture)).2.2
  rw [htexture, ← hbytes] at hcontents
  exact absurd hcontents (by decide)

end SDLTextureMJPG

end Twincam
