import Twincam.Drm
import Twincam.Libcamera
import Mathlib.Data.Finset.Card

/-!
# Framebuffers of the display (`Device::createFrameBuffer` and `FrameBuffer::~FrameBuffer` in `drm.cpp`)

Every dmabuf of a camera buffer is imported as a GEM handle, and the destructor closes the handles.  They are kept by
file descriptor, while the kernel knows a dmabuf by its handle: two descriptors of one dmabuf yield the same handle,
which is then closed twice.  `handles_closed_once_iff` says that nothing else goes wrong, at whatever point importing
or adding the framebuffer fails.
-/

namespace Twincam

namespace DRM

open Libcamera (FrameBufferPlane PixelFormat Size)

/-- The answers of the kernel: the GEM handle of the dmabuf behind a descriptor, if it can be imported; the result of
`drmModeAddFB2` and the id it stores; and how often closing a handle is interrupted. -/
structure PrimeCalls where
  drmPrimeFDToHandle : Int → Option UInt32
  drmModeAddFB2 : Int × UInt32
  interrupted : UInt32 → Nat

inductive DrmCall
  | primeFDToHandle (fd : Int) (handle : Option UInt32)
  | modeAddFB2 (size : Size) (format : UInt32) (handles strides offsets : Vector UInt32 4) (ret : Int)
  | gemClose (handle : UInt32) (interrupted : Bool)
  | modeRmFB (id : UInt32)
deriving DecidableEq

/-- The `do` loop around the `ioctl` that closes a handle. -/
def gemClose (calls : PrimeCalls) (handle : UInt32) : List DrmCall :=
  List.replicate (calls.interrupted handle) (.gemClose handle true) ++ [.gemClose handle false]

/-- `FrameBuffer::~FrameBuffer`. -/
def FrameBuffer.destructor (calls : PrimeCalls) (fb : FrameBuffer) : List DrmCall :=
  (fb.planes_.toList.flatMap fun (_, handle) => gemClose calls handle) ++ [.modeRmFB fb.id_]

/-- The variables of `createFrameBuffer`, and the calls so far. -/
structure ImportState where
  i : Nat
  planes_ : Std.TreeMap Int UInt32
  handles : Vector UInt32 4
  offsets : Vector UInt32 4
  log : List DrmCall

/-- Why the loop over the planes ends early: a write behind the arrays, or an import that failed. -/
inductive ImportError
  | overrun
  | failed (st : ImportState)

/-- The end of the loop's body. -/
def ImportState.store (st : ImportState) (handle offset : UInt32) : Except ImportError ImportState :=
  if h : st.i < 4 then
    .ok { st with handles := st.handles.set st.i handle, offsets := st.offsets.set st.i offset, i := st.i + 1 }
  else .error .overrun

def importPlane (calls : PrimeCalls) (st : ImportState) (plane : FrameBufferPlane) : Except ImportError ImportState :=
  match st.planes_[plane.fd]? with
  | some handle => st.store handle plane.offset
  | none =>
    let handle := calls.drmPrimeFDToHandle plane.fd
    let st := { st with log := st.log ++ [.primeFDToHandle plane.fd handle] }
    match handle with
    | none => .error (.failed st)
    | some handle => { st with planes_ := st.planes_.insert plane.fd handle }.store handle plane.offset

/-- The framebuffer that is returned, `none` for `nullptr`, and the calls made. -/
structure CreateResult where
  fb : Option FrameBuffer
  calls : List DrmCall

/-- `Device::createFrameBuffer`; `none` when it writes behind its arrays. -/
def createFrameBuffer (calls : PrimeCalls) (planes : List FrameBufferPlane) (format : PixelFormat) (size : Size)
    (strides : Vector UInt32 4) : Option CreateResult :=
  match planes.foldlM (importPlane calls) ⟨0, ∅, Vector.replicate 4 0, Vector.replicate 4 0, []⟩ with
  | .error .overrun => none
  | .error (.failed st) => some ⟨none, st.log ++ FrameBuffer.destructor calls ⟨0, st.planes_⟩⟩
  | .ok st =>
    let (ret, id) := calls.drmModeAddFB2
    let log := st.log ++ [.modeAddFB2 size format.fourcc st.handles strides st.offsets ret]
    if ret < 0 then some ⟨none, log ++ FrameBuffer.destructor calls ⟨0, st.planes_⟩⟩
    else some ⟨some ⟨id, st.planes_⟩, log⟩

/-- The calls up to the end of the returned framebuffer's life. -/
def CreateResult.lifetime (calls : PrimeCalls) (r : CreateResult) : List DrmCall :=
  match r.fb with
  | none => r.calls
  | some fb => r.calls ++ fb.destructor calls

/-! ### Importing -/

/-- The planes `done` are imported: the table has their handles, and the log the imports that yielded them. -/
structure Holds (calls : PrimeCalls) (done : List FrameBufferPlane) (planes_ : Std.TreeMap Int UInt32)
    (log : List DrmCall) : Prop where
  handle : ∀ fd, planes_[fd]? = if fd ∈ done.map (·.fd) then calls.drmPrimeFDToHandle fd else none
  ok : ∀ plane ∈ done, (calls.drmPrimeFDToHandle plane.fd).isSome
  imported : ∀ handle, (∃ fd, .primeFDToHandle fd (some handle) ∈ log) ↔
    ∃ plane ∈ done, calls.drmPrimeFDToHandle plane.fd = some handle
  imports : ∀ call ∈ log, ∃ fd handle, call = .primeFDToHandle fd handle

/-- The loop after the planes `done`: the arrays have their handles and offsets as well. -/
structure Imported (calls : PrimeCalls) (done : List FrameBufferPlane) (st : ImportState) : Prop where
  holds : Holds calls done st.planes_ st.log
  index : st.i = done.length
  arrays : ∀ (i : Nat) (plane : FrameBufferPlane), done[i]? = some plane →
    st.handles[i]? = calls.drmPrimeFDToHandle plane.fd ∧ st.offsets[i]? = some plane.offset

theorem imported_nil (calls : PrimeCalls) :
    Imported calls [] ⟨0, ∅, Vector.replicate 4 0, Vector.replicate 4 0, []⟩ :=
  ⟨⟨by simp, by simp, by simp, by simp⟩, rfl, by simp⟩

/-- Storing the handle and the offset of the next plane. -/
private theorem Imported.store {calls : PrimeCalls} {done : List FrameBufferPlane} {st : ImportState}
    (h : Imported calls done st) {plane : FrameBufferPlane} {handle : UInt32}
    (hhandle : calls.drmPrimeFDToHandle plane.fd = some handle) (hlen : done.length < 4)
    {planes_ : Std.TreeMap Int UInt32} {log : List DrmCall} (hholds : Holds calls (done ++ [plane]) planes_ log) :
    ∃ st', ImportState.store { st with planes_ := planes_, log := log } handle plane.offset = .ok st' ∧
      Imported calls (done ++ [plane]) st' := by
  have hi : st.i < 4 := by
    rw [h.index]
    exact hlen
  refine ⟨_, dif_pos hi, hholds, by simp [h.index], ?_⟩
  intro i p hp
  by_cases hlast : i = done.length
  · rw [hlast, List.getElem?_concat_length, Option.some.injEq] at hp
    subst hp
    simp [hlast, h.index, hhandle]
  · have hlt : i < done.length := by
      have hlt := (List.getElem?_eq_some_iff.1 hp).1
      rw [List.length_append, List.length_singleton] at hlt
      omega
    rw [List.getElem?_append_left hlt] at hp
    have hne : st.i ≠ i := by
      rw [h.index]
      omega
    rw [Vector.getElem?_set_ne _ hne, Vector.getElem?_set_ne _ hne]
    exact h.arrays i p hp

/-- A plane of a descriptor that is in the table. -/
private theorem Holds.again {calls : PrimeCalls} {done : List FrameBufferPlane} {planes_ : Std.TreeMap Int UInt32}
    {log : List DrmCall} (h : Holds calls done planes_ log) {plane : FrameBufferPlane}
    (hmem : plane.fd ∈ done.map (·.fd)) : Holds calls (done ++ [plane]) planes_ log := by
  obtain ⟨p, hp, hfd⟩ := List.mem_map.1 hmem
  refine ⟨?_, ?_, ?_, h.imports⟩
  · intro fd
    rw [h.handle fd]
    by_cases heq : fd = plane.fd
    · subst heq
      simp [hmem]
    · simp [heq]
  · intro q hq
    rcases List.mem_append.1 hq with hq | hq
    · exact h.ok q hq
    · rw [List.mem_singleton.1 hq, ← hfd]
      exact h.ok p hp
  · intro handle
    rw [h.imported handle]
    constructor
    · rintro ⟨q, hq, hhandle⟩
      exact ⟨q, List.mem_append_left _ hq, hhandle⟩
    · rintro ⟨q, hq, hhandle⟩
      rcases List.mem_append.1 hq with hq | hq
      · exact ⟨q, hq, hhandle⟩
      · rw [List.mem_singleton.1 hq, ← hfd] at hhandle
        exact ⟨p, hp, hhandle⟩

/-- A plane of a new descriptor, which is imported. -/
private theorem Holds.insert {calls : PrimeCalls} {done : List FrameBufferPlane} {planes_ : Std.TreeMap Int UInt32}
    {log : List DrmCall} (h : Holds calls done planes_ log) {plane : FrameBufferPlane} {handle : UInt32}
    (hhandle : calls.drmPrimeFDToHandle plane.fd = some handle) :
    Holds calls (done ++ [plane]) (planes_.insert plane.fd handle)
      (log ++ [.primeFDToHandle plane.fd (some handle)]) := by
  refine ⟨?_, ?_, ?_, ?_⟩
  · intro fd
    rw [Std.TreeMap.getElem?_insert, h.handle fd]
    by_cases heq : plane.fd = fd
    · subst heq
      simp [hhandle]
    · have hne : fd ≠ plane.fd := fun h => heq h.symm
      simp [heq, hne]
  · intro q hq
    rcases List.mem_append.1 hq with hq | hq
    · exact h.ok q hq
    · rw [List.mem_singleton.1 hq, hhandle]
      rfl
  · intro handle'
    have hold := h.imported handle'
    constructor
    · rintro ⟨fd, hfd⟩
      rcases List.mem_append.1 hfd with hfd | hfd
      · obtain ⟨q, hq, hq'⟩ := hold.1 ⟨fd, hfd⟩
        exact ⟨q, List.mem_append_left _ hq, hq'⟩
      · cases List.mem_singleton.1 hfd
        exact ⟨plane, by simp, hhandle⟩
    · rintro ⟨q, hq, hq'⟩
      rcases List.mem_append.1 hq with hq | hq
      · obtain ⟨fd, hfd⟩ := hold.2 ⟨q, hq, hq'⟩
        exact ⟨fd, List.mem_append_left _ hfd⟩
      · rw [List.mem_singleton.1 hq, hhandle] at hq'
        cases hq'
        exact ⟨plane.fd, by simp⟩
  · intro call hcall
    rcases List.mem_append.1 hcall with hcall | hcall
    · exact h.imports call hcall
    · exact ⟨_, _, List.mem_singleton.1 hcall⟩

/-- One turn of the loop. -/
private theorem importPlane_spec {calls : PrimeCalls} {done : List FrameBufferPlane} {st : ImportState}
    (h : Imported calls done st) (hlen : done.length < 4) (plane : FrameBufferPlane) :
    if (calls.drmPrimeFDToHandle plane.fd).isSome then
      ∃ st', importPlane calls st plane = .ok st' ∧ Imported calls (done ++ [plane]) st'
    else ∃ st', importPlane calls st plane = .error (.failed st') ∧ Holds calls done st'.planes_ st'.log := by
  have hget := h.holds.handle plane.fd
  unfold importPlane
  by_cases hmem : plane.fd ∈ done.map (·.fd)
  · obtain ⟨p, hp, hfd⟩ := List.mem_map.1 hmem
    have hsome := h.holds.ok p hp
    rw [hfd] at hsome
    obtain ⟨handle, hhandle⟩ := Option.isSome_iff_exists.1 hsome
    rw [if_pos hmem, hhandle] at hget
    rw [if_pos hsome, hget]
    exact h.store hhandle hlen (h.holds.again hmem)
  · rw [if_neg hmem] at hget
    rw [hget]
    cases hhandle : calls.drmPrimeFDToHandle plane.fd with
    | none =>
      refine ⟨_, rfl, h.holds.handle, h.holds.ok, ?_, ?_⟩
      · intro handle
        rw [← h.holds.imported handle]
        simp
      · intro call hcall
        rcases List.mem_append.1 hcall with hcall | hcall
        · exact h.holds.imports call hcall
        · exact ⟨_, _, List.mem_singleton.1 hcall⟩
    | some handle => exact h.store hhandle hlen (h.holds.insert hhandle)

/-- The planes that are imported: those in front of the first one that cannot be. -/
def importedPlanes (calls : PrimeCalls) (planes : List FrameBufferPlane) : List FrameBufferPlane :=
  planes.takeWhile fun plane => (calls.drmPrimeFDToHandle plane.fd).isSome

private theorem importedPlanes_cons (calls : PrimeCalls) (plane : FrameBufferPlane) (planes : List FrameBufferPlane) :
    importedPlanes calls (plane :: planes) =
      if (calls.drmPrimeFDToHandle plane.fd).isSome then plane :: importedPlanes calls planes else [] := by
  rw [importedPlanes, List.takeWhile_cons]
  rfl

/-- The loop ends at the first plane that cannot be imported, if there is one. -/
theorem foldlM_importPlane {calls : PrimeCalls} {done : List FrameBufferPlane} {st : ImportState}
    (h : Imported calls done st) (planes : List FrameBufferPlane) (hlen : done.length + planes.length ≤ 4) :
    (importedPlanes calls planes = planes ∧
      ∃ st', planes.foldlM (importPlane calls) st = .ok st' ∧ Imported calls (done ++ planes) st') ∨
    ∃ st', planes.foldlM (importPlane calls) st = .error (.failed st') ∧
      Holds calls (done ++ importedPlanes calls planes) st'.planes_ st'.log := by
  induction planes generalizing done st with
  | nil => exact Or.inl ⟨rfl, st, rfl, by simpa using h⟩
  | cons plane planes ih =>
    rw [List.length_cons] at hlen
    have hplane := importPlane_spec h (by omega) plane
    rw [List.foldlM_cons, importedPlanes_cons]
    by_cases hsome : (calls.drmPrimeFDToHandle plane.fd).isSome = true
    · rw [if_pos hsome] at hplane
      obtain ⟨st', heq, himp⟩ := hplane
      have hrest := ih himp (by rw [List.length_append, List.length_singleton]; omega)
      rw [if_pos hsome, heq]
      rw [List.append_assoc, List.append_assoc] at hrest
      rcases hrest with ⟨hall, hok⟩ | hfailed
      · exact Or.inl ⟨by rw [hall], hok⟩
      · exact Or.inr hfailed
    · rw [if_neg hsome] at hplane
      obtain ⟨st', heq, hholds⟩ := hplane
      rw [if_neg hsome, heq]
      exact Or.inr ⟨st', rfl, by simpa using hholds⟩

/-! ### Closing -/

/-- Closing handle after handle closes each of them as often as it is in the list. -/
private theorem count_gemClose (calls : PrimeCalls) (entries : List (Int × UInt32)) (handle : UInt32) :
    (entries.flatMap fun (_, handle) => gemClose calls handle).count (.gemClose handle false) =
      (entries.map (·.2)).count handle := by
  induction entries with
  | nil => rfl
  | cons entry entries ih =>
    obtain ⟨fd, h⟩ := entry
    have hinterrupted : (List.replicate (calls.interrupted h) (DrmCall.gemClose h true)).count
        (.gemClose handle false) = 0 := List.count_eq_zero.2 fun hmem => by cases (List.mem_replicate.1 hmem).2
    have hone : (gemClose calls h).count (.gemClose handle false) = if h == handle then 1 else 0 := by
      rw [gemClose, List.count_append, hinterrupted, List.count_singleton, Nat.zero_add]
      by_cases heq : h = handle
      · simp [heq]
      · simp [heq]
    rw [List.flatMap_cons, List.count_append, ih, hone, List.map_cons, List.count_cons, Nat.add_comm]

/-- In a table with a single entry for every key, a value occurs at most once if and only if no two keys have it. -/
private theorem DrmFrameBuffer.count_values_le_one {entries : List (Int × UInt32)}
    (hkeys : entries.Pairwise fun p q => p.1 ≠ q.1) (handle : UInt32) :
    (entries.map (·.2)).count handle ≤ 1 ↔
      ∀ p ∈ entries, ∀ q ∈ entries, p.2 = handle → q.2 = handle → p.1 = q.1 := by
  induction entries with
  | nil => simp
  | cons entry entries ih =>
    obtain ⟨hentry, hrest⟩ := List.pairwise_cons.1 hkeys
    rw [List.map_cons, List.count_cons]
    by_cases heq : entry.2 = handle
    · rw [if_pos (by simpa using heq)]
      constructor
      · intro hle
        have hnone : handle ∉ entries.map (·.2) := List.count_eq_zero.1 (by omega)
        have hmem : ∀ q ∈ entries, q.2 ≠ handle := fun q hq h => hnone (List.mem_map.2 ⟨q, hq, h⟩)
        intro p hp q hq hp2 hq2
        rcases List.mem_cons.1 hp with rfl | hp
        · rcases List.mem_cons.1 hq with rfl | hq
          · rfl
          · exact absurd hq2 (hmem q hq)
        · exact absurd hp2 (hmem p hp)
      · intro hall
        have hzero : (entries.map (·.2)).count handle = 0 := by
          rw [List.count_eq_zero]
          intro hmem
          obtain ⟨q, hq, hq2⟩ := List.mem_map.1 hmem
          exact hentry q hq (hall entry List.mem_cons_self q (List.mem_cons_of_mem _ hq) heq hq2)
        omega
    · rw [if_neg (by simpa using heq), Nat.add_zero, ih hrest]
      constructor
      · intro hall p hp q hq hp2 hq2
        rcases List.mem_cons.1 hp with rfl | hp
        · exact absurd hp2 heq
        · rcases List.mem_cons.1 hq with rfl | hq
          · exact absurd hq2 heq
          · exact hall p hp q hq hp2 hq2
      · intro hall p hp q hq
        exact hall p (List.mem_cons_of_mem _ hp) q (List.mem_cons_of_mem _ hq)

/-- Every handle that was imported is closed exactly once, and no other one is closed. -/
def ClosedOnce (log : List DrmCall) : Prop :=
  ∀ handle, ((∃ fd, .primeFDToHandle fd (some handle) ∈ log) → log.count (.gemClose handle false) = 1) ∧
    ((¬∃ fd, .primeFDToHandle fd (some handle) ∈ log) → log.count (.gemClose handle false) = 0)

/-- Different descriptors among the planes have different handles. -/
def OneFdPerHandle (calls : PrimeCalls) (planes : List FrameBufferPlane) : Prop :=
  ∀ p ∈ planes, ∀ q ∈ planes, calls.drmPrimeFDToHandle p.fd = calls.drmPrimeFDToHandle q.fd → p.fd = q.fd

/-- Calls that import and close nothing. -/
def Neutral (log : List DrmCall) : Prop :=
  ∀ call ∈ log, (∀ handle, call ≠ .gemClose handle false) ∧ ∀ fd handle, call ≠ .primeFDToHandle fd handle

theorem mem_toList_iff {calls : PrimeCalls} {done : List FrameBufferPlane} {planes_ : Std.TreeMap Int UInt32}
    {log : List DrmCall} (h : Holds calls done planes_ log) (fd : Int) (handle : UInt32) :
    (fd, handle) ∈ planes_.toList ↔ ∃ plane ∈ done, plane.fd = fd ∧ calls.drmPrimeFDToHandle fd = some handle := by
  rw [Std.TreeMap.mem_toList_iff_getElem?_eq_some, h.handle]
  by_cases hmem : fd ∈ done.map (·.fd)
  · obtain ⟨plane, hplane, hfd⟩ := List.mem_map.1 hmem
    rw [if_pos hmem]
    constructor
    · intro hhandle
      exact ⟨plane, hplane, hfd, hhandle⟩
    · rintro ⟨-, -, -, hhandle⟩
      exact hhandle
  · rw [if_neg hmem]
    constructor
    · intro hnone
      cases hnone
    · rintro ⟨plane, hplane, hfd, -⟩
      exact absurd (List.mem_map.2 ⟨plane, hplane, hfd⟩) hmem

section Destructor

variable {calls : PrimeCalls} {done : List FrameBufferPlane} {planes_ : Std.TreeMap Int UInt32} {log : List DrmCall}

/-- The handles that are closed are those that the framebuffer keeps. -/
private theorem count_gemClose_lifetime (h : Holds calls done planes_ log) {more : List DrmCall} (hmore : Neutral more)
    (id handle : UInt32) :
    (log ++ more ++ FrameBuffer.destructor calls ⟨id, planes_⟩).count (.gemClose handle false) =
      (planes_.toList.map (·.2)).count handle := by
  have hlog : log.count (.gemClose handle false) = 0 := by
    rw [List.count_eq_zero]
    intro hmem
    obtain ⟨fd, got, heq⟩ := h.imports _ hmem
    cases heq
  have hnone : more.count (.gemClose handle false) = 0 :=
    List.count_eq_zero.2 fun hmem => (hmore _ hmem).1 handle rfl
  rw [List.count_append, List.count_append, hlog, hnone, FrameBuffer.destructor, List.count_append, count_gemClose]
  simp

/-- And so are the handles that were imported. -/
private theorem imported_lifetime (h : Holds calls done planes_ log) {more : List DrmCall} (hmore : Neutral more)
    (id handle : UInt32) :
    (∃ fd, .primeFDToHandle fd (some handle) ∈ log ++ more ++ FrameBuffer.destructor calls ⟨id, planes_⟩) ↔
      ∃ fd, (fd, handle) ∈ planes_.toList := by
  have hlog : ∀ fd, .primeFDToHandle fd (some handle) ∈ log ++ more ++ FrameBuffer.destructor calls ⟨id, planes_⟩ ↔
      .primeFDToHandle fd (some handle) ∈ log := by
    intro fd
    have hnone : DrmCall.primeFDToHandle fd (some handle) ∉ more := fun hmem => (hmore _ hmem).2 fd _ rfl
    simp [FrameBuffer.destructor, gemClose, hnone]
  simp only [hlog, h.imported, mem_toList_iff h]
  constructor
  · rintro ⟨plane, hplane, hhandle⟩
    exact ⟨plane.fd, plane, hplane, rfl, hhandle⟩
  · rintro ⟨fd, plane, hplane, rfl, hhandle⟩
    exact ⟨plane, hplane, hhandle⟩

/-- The framebuffer keeps no handle twice if and only if no two descriptors share one. -/
theorem count_le_one_iff (h : Holds calls done planes_ log) :
    (∀ handle, (planes_.toList.map (·.2)).count handle ≤ 1) ↔ OneFdPerHandle calls done := by
  have hkeys : planes_.toList.Pairwise fun p q => p.1 ≠ q.1 := by
    refine planes_.distinct_keys_toList.imp ?_
    intro p q hpq heq
    exact hpq (by rw [heq]; exact Std.compare_self)
  simp only [DrmFrameBuffer.count_values_le_one hkeys]
  constructor
  · intro hall p hp q hq heq
    obtain ⟨handle, hhandle⟩ := Option.isSome_iff_exists.1 (h.ok p hp)
    have hpmem : (p.fd, handle) ∈ planes_.toList := (mem_toList_iff h _ _).2 ⟨p, hp, rfl, hhandle⟩
    have hqmem : (q.fd, handle) ∈ planes_.toList :=
      (mem_toList_iff h _ _).2 ⟨q, hq, rfl, by rw [← heq, hhandle]⟩
    exact hall handle (p.fd, handle) hpmem (q.fd, handle) hqmem rfl rfl
  · intro hone handle entry hentry entry' hentry' hhandle hhandle'
    obtain ⟨p, hp, hfd, hp'⟩ := (mem_toList_iff h entry.1 entry.2).1 hentry
    obtain ⟨q, hq, hfd', hq'⟩ := (mem_toList_iff h entry'.1 entry'.2).1 hentry'
    rw [← hfd, ← hfd']
    exact hone p hp q hq (by rw [hfd, hfd', hp', hq', hhandle, hhandle'])

/-- The destructor closes every imported handle exactly once if and only if no two descriptors share one. -/
private theorem closedOnce_destructor (h : Holds calls done planes_ log) {more : List DrmCall} (hmore : Neutral more)
    (id : UInt32) :
    ClosedOnce (log ++ more ++ FrameBuffer.destructor calls ⟨id, planes_⟩) ↔ OneFdPerHandle calls done := by
  unfold ClosedOnce
  simp only [count_gemClose_lifetime h hmore, imported_lifetime h hmore]
  rw [← count_le_one_iff h]
  constructor
  · intro hall handle
    by_cases hex : ∃ fd, (fd, handle) ∈ planes_.toList
    · exact ((hall handle).1 hex).le
    · rw [(hall handle).2 hex]
      exact Nat.zero_le 1
  · intro hall handle
    constructor
    · rintro ⟨fd, hfd⟩
      have hmem : handle ∈ planes_.toList.map (·.2) := List.mem_map.2 ⟨(fd, handle), hfd, rfl⟩
      have hpos := List.count_pos_iff.2 hmem
      have hone := hall handle
      omega
    · intro hno
      rw [List.count_eq_zero]
      intro hmem
      obtain ⟨⟨fd, _⟩, hfd, rfl⟩ := List.mem_map.1 hmem
      exact hno ⟨fd, hfd⟩

end Destructor

/-! ### The life of a framebuffer -/

/-- A framebuffer was added with the handle and the offset of every plane in its place. -/
def PlaneByPlane (calls : PrimeCalls) (planes : List FrameBufferPlane) (format : PixelFormat) (size : Size)
    (strides : Vector UInt32 4) (r : CreateResult) : Prop :=
  r.fb.isSome → ∃ log handles offsets ret,
    r.calls = log ++ [.modeAddFB2 size format.fourcc handles strides offsets ret] ∧ 0 ≤ ret ∧
    ∀ (i : Nat) (plane : FrameBufferPlane), planes[i]? = some plane → ∃ handle,
      calls.drmPrimeFDToHandle plane.fd = some handle ∧ handles[i]? = some handle ∧ offsets[i]? = some plane.offset

/-- A framebuffer's life consists of the imports, of an attempt to add it when they all succeeded, and of the
destructor. -/
private theorem createFrameBuffer_cases (calls : PrimeCalls) {planes : List FrameBufferPlane} (hlen : planes.length ≤ 4)
    (format : PixelFormat) (size : Size) (strides : Vector UInt32 4) :
    ∃ r st id more, createFrameBuffer calls planes format size strides = some r ∧
      Holds calls (importedPlanes calls planes) st.planes_ st.log ∧
      r.lifetime calls = st.log ++ more ++ FrameBuffer.destructor calls ⟨id, st.planes_⟩ ∧
      ((more = [] ∧ r.fb = none) ∨
        ∃ ret, more = [.modeAddFB2 size format.fourcc st.handles strides st.offsets ret] ∧ Imported calls planes st ∧
          (r.fb.isSome → r.calls = st.log ++ more ∧ 0 ≤ ret)) := by
  have hloop := foldlM_importPlane (imported_nil calls) planes (by simpa using hlen)
  rw [List.nil_append, List.nil_append] at hloop
  unfold createFrameBuffer
  rcases hloop with ⟨hall, st, heq, himp⟩ | ⟨st, heq, hholds⟩
  · rw [heq, hall]
    by_cases hret : calls.drmModeAddFB2.1 < 0
    · -- the kernel refuses the framebuffer
      exact ⟨_, st, 0, _, if_pos hret, himp.holds, rfl, Or.inr ⟨_, rfl, himp, nofun⟩⟩
    · exact ⟨_, st, _, _, if_neg hret, himp.holds, rfl, Or.inr ⟨_, rfl, himp, fun _ => ⟨rfl, not_lt.1 hret⟩⟩⟩
  · -- an import fails
    rw [heq]
    refine ⟨_, st, 0, [], rfl, hholds, ?_, Or.inl ⟨rfl, rfl⟩⟩
    rw [List.append_nil]
    rfl

private theorem createFrameBuffer_spec (calls : PrimeCalls) {planes : List FrameBufferPlane} (hlen : planes.length ≤ 4)
    (format : PixelFormat) (size : Size) (strides : Vector UInt32 4) :
    ∃ r, createFrameBuffer calls planes format size strides = some r ∧
      PlaneByPlane calls planes format size strides r ∧
      (ClosedOnce (r.lifetime calls) ↔ OneFdPerHandle calls (importedPlanes calls planes)) := by
  obtain ⟨r, st, id, more, hr, hholds, hlife, hmore⟩ := createFrameBuffer_cases calls hlen format size strides
  have hneutral : Neutral more := by
    intro call hcall
    rcases hmore with ⟨rfl, -⟩ | ⟨ret, rfl, -⟩
    · cases hcall
    · rw [List.mem_singleton.1 hcall]
      exact ⟨nofun, nofun⟩
  refine ⟨r, hr, ?_, ?_⟩
  · intro hsome
    rcases hmore with ⟨-, hnone⟩ | ⟨ret, rfl, himp, hadded⟩
    · rw [hnone] at hsome
      cases hsome
    · obtain ⟨hcalls, hret⟩ := hadded hsome
      refine ⟨st.log, st.handles, st.offsets, ret, hcalls, hret, ?_⟩
      intro i plane hplane
      obtain ⟨handle, hhandle⟩ := Option.isSome_iff_exists.1 (himp.holds.ok plane (List.mem_of_getElem? hplane))
      obtain ⟨hhandles, hoffsets⟩ := himp.arrays i plane hplane
      exact ⟨handle, hhandle, by rw [hhandles, hhandle], hoffsets⟩
  · rw [hlife]
    exact closedOnce_destructor hholds hneutral id

/-- The strides that the kernel gets are those of the caller. -/
theorem strides_of_modeAddFB2 {calls : PrimeCalls} {planes : List FrameBufferPlane} (hlen : planes.length ≤ 4)
    {format : PixelFormat} {size : Size} {strides : Vector UInt32 4} {r : CreateResult}
    (hr : createFrameBuffer calls planes format size strides = some r) {size' : Size} {format' : UInt32}
    {handles strides' offsets : Vector UInt32 4} {ret : Int}
    (h : .modeAddFB2 size' format' handles strides' offsets ret ∈ r.lifetime calls) : strides' = strides := by
  obtain ⟨r', st, id, more, hr', hholds, hlife, hmore⟩ := createFrameBuffer_cases calls hlen format size strides
  obtain rfl : r = r' := Option.some.inj (hr.symm.trans hr')
  rw [hlife] at h
  rcases List.mem_append.1 h with hcalls | hdestructor
  · rcases List.mem_append.1 hcalls with hlog | hin
    · obtain ⟨fd, handle, heq⟩ := hholds.imports _ hlog
      cases heq
    · rcases hmore with ⟨rfl, -⟩ | ⟨ret', rfl, -⟩
      · cases hin
      · cases List.mem_singleton.1 hin
        rfl
  · simp [FrameBuffer.destructor, gemClose] at hdestructor

/-- With at most four planes, every imported handle is closed exactly once, whatever fails, and a framebuffer is added
with the handles and offsets of its planes, if and only if no two descriptors that are imported share a handle. -/
theorem handles_closed_once_iff (calls : PrimeCalls) {planes : List FrameBufferPlane} (hlen : planes.length ≤ 4)
    (format : PixelFormat) (size : Size) (strides : Vector UInt32 4) :
    (∃ r, createFrameBuffer calls planes format size strides = some r ∧ ClosedOnce (r.lifetime calls) ∧
      PlaneByPlane calls planes format size strides r) ↔ OneFdPerHandle calls (importedPlanes calls planes) := by
  obtain ⟨r, hr, hplanes, hiff⟩ := createFrameBuffer_spec calls hlen format size strides
  constructor
  · rintro ⟨r', hr', hclosed, -⟩
    rw [hr, Option.some.injEq] at hr'
    exact hiff.1 (hr' ▸ hclosed)
  · intro hone
    exact ⟨r, hr, hiff.2 hone, hplanes⟩

/-- A kernel that knows the dmabuf behind the descriptors 5 and 6 as the handle 1. -/
def sharedDmabuf : PrimeCalls := ⟨fun fd => if fd = 5 ∨ fd = 6 then some 1 else none, (0, 30), fun _ => 0⟩

/-- Two planes that name one dmabuf through the same descriptor. -/
theorem handles_closed_once_iff_two :
    (∃ r, createFrameBuffer sharedDmabuf [⟨5, 0, 64⟩, ⟨5, 64, 32⟩] ⟨0, 0⟩ ⟨8, 8⟩ (Vector.replicate 4 8) = some r ∧
      ClosedOnce (r.lifetime sharedDmabuf) ∧
      PlaneByPlane sharedDmabuf [⟨5, 0, 64⟩, ⟨5, 64, 32⟩] ⟨0, 0⟩ ⟨8, 8⟩ (Vector.replicate 4 8) r) ↔
      OneFdPerHandle sharedDmabuf (importedPlanes sharedDmabuf [⟨5, 0, 64⟩, ⟨5, 64, 32⟩]) :=
  handles_closed_once_iff sharedDmabuf (by decide) ⟨0, 0⟩ ⟨8, 8⟩ (Vector.replicate 4 8)

/-- Two planes that name one dmabuf through two descriptors: its handle is closed twice. -/
theorem shared_dmabuf_closed_twice :
    ∃ r, createFrameBuffer sharedDmabuf [⟨5, 0, 64⟩, ⟨6, 64, 32⟩] ⟨0, 0⟩ ⟨8, 8⟩ (Vector.replicate 4 8) = some r ∧
      .primeFDToHandle 5 (some 1) ∈ r.calls ∧ (r.lifetime sharedDmabuf).count (.gemClose 1 false) = 2 ∧
      ¬ClosedOnce (r.lifetime sharedDmabuf) := by
  have htwice : ∃ r, createFrameBuffer sharedDmabuf [⟨5, 0, 64⟩, ⟨6, 64, 32⟩] ⟨0, 0⟩ ⟨8, 8⟩ (Vector.replicate 4 8) =
      some r ∧ .primeFDToHandle 5 (some 1) ∈ r.calls ∧ .primeFDToHandle 5 (some 1) ∈ r.lifetime sharedDmabuf ∧
      (r.lifetime sharedDmabuf).count (.gemClose 1 false) = 2 := ⟨_, rfl, by decide, by decide, by decide⟩
  obtain ⟨r, hr, hmem, hlife, hcount⟩ := htwice
  refine ⟨r, hr, hmem, hcount, ?_⟩
  intro hclosed
  rw [(hclosed 1).1 ⟨5, hlife⟩] at hcount
  cases hcount

end DRM

end Twincam
