import Twincam.Libcamera
import Mathlib.Algebra.Group.Int.Defs
import Mathlib.Algebra.Group.Nat.Defs
import Mathlib.Data.List.Basic
import Mathlib.Tactic.Common
import Std.Data.TreeMap

/-!
# Mapping the planes of a frame buffer (`image.h`, `image.cpp`)

`Image::fromFrameBuffer` goes over the planes twice.  The first loop checks every plane against the length of its
dmabuf and computes how much of each dmabuf to map; the second maps each dmabuf once and records the span of every
plane.

The end of a plane is computed in 32 bits, and a failed `lseek` becomes the largest `size_t`.  So the check is exact
only where neither happens: `mapped_in_bounds_iff` says when the planes of an image lie inside what was mapped for
them and inside their dmabuf.
-/

namespace Twincam

open Libcamera (FrameBufferPlane)

/-- What the kernel answers about dmabufs: the real length of each, whether `lseek` to its end succeeds, and the
address where `mmap` puts it, if it does. -/
structure Dmabufs where
  size : Int → Nat
  size_lt : ∀ fd, size fd < 2 ^ 63
  seekable : Int → Bool
  mmap : Int → Option Nat

def Dmabufs.lseek (k : Dmabufs) (fd : Int) : Int := if k.seekable fd then k.size fd else -1

/-- The result of `lseek` converted to `size_t`. -/
def Dmabufs.lseekLength (k : Dmabufs) (fd : Int) : Nat := (k.lseek fd % 2 ^ 64).toNat

structure Span where
  data : Nat
  size : Nat
deriving DecidableEq

structure Image where
  maps_ : List Span
  planes_ : List Span
deriving DecidableEq

/-- A call of `mmap`: the dmabuf, the length, the protection and the address it returned. -/
structure Mmap where
  fd : Int
  length : Nat
  prot : UInt32
  result : Option Nat
deriving DecidableEq

/-- `struct MappedBufferInfo`; the null address is `0`. -/
structure MappedBufferInfo where
  address : Nat
  mapLength : Nat
  dmabufLength : Nat
deriving DecidableEq, Inhabited

namespace Image

def PROT_READ : UInt32 := 1
def PROT_WRITE : UInt32 := 2

inductive MapMode
  | ReadOnly
  | WriteOnly
  | ReadWrite
deriving DecidableEq

def MapMode.bits : MapMode → UInt32
  | .ReadOnly => 1
  | .WriteOnly => 2
  | .ReadWrite => 3

def mmapFlags (mode : MapMode) : UInt32 :=
  (if mode.bits &&& MapMode.ReadOnly.bits ≠ 0 then PROT_READ else 0) |||
    (if mode.bits &&& MapMode.WriteOnly.bits ≠ 0 then PROT_WRITE else 0)

/-- `plane.offset + plane.length`, an addition of two `unsigned int`. -/
def planeEnd (plane : FrameBufferPlane) : Nat := (plane.offset + plane.length).toNat

/-- The check of the first loop. -/
def outOfBuffer (plane : FrameBufferPlane) (length : Nat) : Bool :=
  decide (length < plane.offset.toNat) || decide (length < planeEnd plane)

/-- One turn of the first loop; `none` when the plane is out of its buffer. -/
def checkPlane (k : Dmabufs) (mappedBuffers : Std.TreeMap Int MappedBufferInfo) (plane : FrameBufferPlane) :
    Option (Std.TreeMap Int MappedBufferInfo) :=
  let info := mappedBuffers[plane.fd]?.getD ⟨0, 0, k.lseekLength plane.fd⟩
  if outOfBuffer plane info.dmabufLength then none
  else some (mappedBuffers.insert plane.fd { info with mapLength := max info.mapLength (planeEnd plane) })

/-- The variables of the second loop, and the calls of `mmap` so far. -/
structure MapState where
  mappedBuffers : Std.TreeMap Int MappedBufferInfo
  image : Image
  mmaps : List Mmap

/-- One turn of the second loop; an error when `mmap` fails. -/
def mapPlane (k : Dmabufs) (prot : UInt32) (st : MapState) (plane : FrameBufferPlane) : Except MapState MapState :=
  let info := st.mappedBuffers[plane.fd]?.getD default
  if info.address = 0 then
    let mmaps := st.mmaps ++ [⟨plane.fd, info.mapLength, prot, k.mmap plane.fd⟩]
    match k.mmap plane.fd with
    | none => .error { st with mmaps := mmaps }
    | some address =>
      .ok {
        mappedBuffers := st.mappedBuffers.insert plane.fd { info with address := address }
        image := ⟨st.image.maps_ ++ [⟨address, info.mapLength⟩],
          st.image.planes_ ++ [⟨address + plane.offset.toNat, plane.length.toNat⟩]⟩
        mmaps := mmaps }
  else
    .ok { st with
      image := { st.image with
        planes_ := st.image.planes_ ++ [⟨info.address + plane.offset.toNat, plane.length.toNat⟩] } }

/-- `Image::~Image`: the regions it unmaps. -/
def destructor (image : Image) : List Span := image.maps_

/-- The result of `fromFrameBuffer`, `none` for `nullptr`, and the calls of `mmap` and `munmap` made on the way. -/
structure MapResult where
  image : Option Image
  mmaps : List Mmap
  munmaps : List Span

/-- `Image::fromFrameBuffer`; `none` when its assertion fails. -/
def fromFrameBuffer (k : Dmabufs) (mode : MapMode) (planes : List FrameBufferPlane) : Option MapResult :=
  if planes.isEmpty then none
  else
    match planes.foldlM (checkPlane k) ∅ with
    | none => some ⟨none, [], []⟩
    | some mappedBuffers =>
      match planes.foldlM (mapPlane k (mmapFlags mode)) ⟨mappedBuffers, ⟨[], []⟩, []⟩ with
      | .error st => some ⟨none, st.mmaps, st.image.destructor⟩
      | .ok st => some ⟨some st.image, st.mmaps, []⟩

inductive DataFault
  | assertion
  | pastTheEnd
deriving DecidableEq

def data (image : Image) (plane : Nat) : Except DataFault Span :=
  if plane ≤ image.planes_.length then
    match image.planes_[plane]? with
    | some span => .ok span
    | none => .error .pastTheEnd
  else .error .assertion

/-! ### Lengths -/

private theorem lseekLength_of_seekable {k : Dmabufs} {fd : Int} (h : k.seekable fd = true) : k.lseekLength fd =
    k.size fd := by
  have hlt := k.size_lt fd
  unfold Dmabufs.lseekLength Dmabufs.lseek
  rw [if_pos h]
  omega

private theorem planeEnd_lt (plane : FrameBufferPlane) : planeEnd plane < 2 ^ 32 :=
    (plane.offset + plane.length).toNat_lt

theorem planeEnd_eq {plane : FrameBufferPlane} (h : plane.offset.toNat + plane.length.toNat < 2 ^ 32) :
    planeEnd plane = plane.offset.toNat + plane.length.toNat := by
  unfold planeEnd
  rw [UInt32.toNat_add]
  exact Nat.mod_eq_of_lt h

/-- The length to map for a dmabuf: the largest end of its planes. -/
def regionLength (planes : List FrameBufferPlane) (fd : Int) : Nat :=
  ((planes.filter (·.fd = fd)).map planeEnd).foldl max 0

private theorem regionLength_append (planes : List FrameBufferPlane) (plane : FrameBufferPlane) (fd : Int) :
    regionLength (planes ++ [plane]) fd =
      if plane.fd = fd then max (regionLength planes fd) (planeEnd plane) else regionLength planes fd := by
  by_cases h : plane.fd = fd
  · simp [regionLength, List.filter_append, h]
  · simp [regionLength, List.filter_append, h]

private theorem foldl_max_lt {l : List Nat} {b n : Nat} (hb : b < n) (h : ∀ x ∈ l, x < n) : l.foldl max b < n := by
  induction l generalizing b with
  | nil => exact hb
  | cons x l ih =>
    have hx := h x (by simp)
    exact ih (by omega) fun y hy => h y (by simp [hy])

private theorem le_foldl_max {l : List Nat} (b : Nat) : b ≤ l.foldl max b ∧ ∀ x ∈ l, x ≤ l.foldl max b := by
  induction l generalizing b with
  | nil => simp
  | cons x l ih =>
    obtain ⟨hb, hall⟩ := ih (max b x)
    simp only [List.foldl_cons, List.mem_cons, forall_eq_or_imp]
    exact ⟨by omega, by omega, hall⟩

private theorem regionLength_lt (planes : List FrameBufferPlane) (fd : Int) : regionLength planes fd < 2 ^ 32 := by
  apply foldl_max_lt (Nat.two_pow_pos 32)
  intro x hx
  obtain ⟨plane, -, rfl⟩ := List.mem_map.1 hx
  exact planeEnd_lt plane

theorem planeEnd_le_regionLength {planes : List FrameBufferPlane} {plane : FrameBufferPlane} (h : plane ∈ planes) :
    planeEnd plane ≤ regionLength planes plane.fd := by
  apply (le_foldl_max 0).2
  exact List.mem_map.2 ⟨plane, by simp [h], rfl⟩

/-! ### The first loop -/

/-- Some plane starts, or ends in the arithmetic of `unsigned int`, behind the end of its buffer. -/
def Rejected (k : Dmabufs) (planes : List FrameBufferPlane) : Prop :=
  ∃ plane ∈ planes, k.lseekLength plane.fd < plane.offset.toNat ∨
    k.lseekLength plane.fd < (plane.offset.toNat + plane.length.toNat) % 2 ^ 32

instance (k : Dmabufs) (planes : List FrameBufferPlane) : Decidable (Rejected k planes) :=
  inferInstanceAs (Decidable (∃ plane ∈ planes, _))

private theorem outOfBuffer_iff {plane : FrameBufferPlane} {length : Nat} : outOfBuffer plane length = true ↔
    length < plane.offset.toNat ∨ length < (plane.offset.toNat + plane.length.toNat) % 2 ^ 32 := by
  rw [outOfBuffer, planeEnd, UInt32.toNat_add, Bool.or_eq_true, decide_eq_true_iff, decide_eq_true_iff]

/-- The check of the first loop finds a plane that is rejected. -/
private theorem rejected_iff {k : Dmabufs} {planes : List FrameBufferPlane} :
    Rejected k planes ↔ ∃ plane ∈ planes, outOfBuffer plane (k.lseekLength plane.fd) = true := by
  simp only [Rejected, outOfBuffer_iff]

/-- The table after the planes `done`: the length to map and the length of each of their dmabufs. -/
def Recorded (k : Dmabufs) (done : List FrameBufferPlane) (m : Std.TreeMap Int MappedBufferInfo) : Prop :=
  ∀ fd, m[fd]? = if fd ∈ done.map (·.fd) then some ⟨0, regionLength done fd, k.lseekLength fd⟩ else none

theorem recorded_nil (k : Dmabufs) : Recorded k [] ∅ := by
  intro fd
  simp

private theorem checkPlane_eq {k : Dmabufs} {done : List FrameBufferPlane} {m : Std.TreeMap Int MappedBufferInfo}
    (h : Recorded k done m) (plane : FrameBufferPlane) :
    checkPlane k m plane =
      if outOfBuffer plane (k.lseekLength plane.fd) then none
      else some (m.insert plane.fd
        ⟨0, max (regionLength done plane.fd) (planeEnd plane), k.lseekLength plane.fd⟩) := by
  have hfd := h plane.fd
  unfold checkPlane
  by_cases hmem : plane.fd ∈ done.map (·.fd)
  · rw [if_pos hmem] at hfd
    rw [hfd]
    rfl
  · have hzero : regionLength done plane.fd = 0 := by
      have hnil : done.filter (·.fd = plane.fd) = [] := by
        rw [List.filter_eq_nil_iff]
        intro p hp heq
        exact hmem (List.mem_map.2 ⟨p, hp, by simpa using heq⟩)
      rw [regionLength, hnil]
      rfl
    rw [if_neg hmem] at hfd
    rw [hfd, hzero]
    rfl

private theorem Recorded.insert {k : Dmabufs} {done : List FrameBufferPlane} {m : Std.TreeMap Int MappedBufferInfo}
    (h : Recorded k done m) (plane : FrameBufferPlane) :
    Recorded k (done ++ [plane]) (m.insert plane.fd
      ⟨0, max (regionLength done plane.fd) (planeEnd plane), k.lseekLength plane.fd⟩) := by
  intro fd
  rw [Std.TreeMap.getElem?_insert, regionLength_append]
  by_cases heq : plane.fd = fd
  · subst heq
    simp
  · have hne : fd ≠ plane.fd := fun h => heq h.symm
    simp [heq, hne, h fd]

/-- The first loop fails exactly when some plane is out of its buffer, and otherwise records all of them. -/
theorem foldlM_checkPlane {k : Dmabufs} {done : List FrameBufferPlane} {m : Std.TreeMap Int MappedBufferInfo}
    (h : Recorded k done m) (planes : List FrameBufferPlane) :
    if Rejected k planes then planes.foldlM (checkPlane k) m = none
    else ∃ m', planes.foldlM (checkPlane k) m = some m' ∧ Recorded k (done ++ planes) m' := by
  induction planes generalizing done m with
  | nil => simpa [Rejected] using h
  | cons plane planes ih =>
    rw [List.foldlM_cons, checkPlane_eq h]
    by_cases hout : outOfBuffer plane (k.lseekLength plane.fd) = true
    · simp [rejected_iff, hout]
    · have hrec := ih (h.insert plane)
      have hiff : Rejected k (plane :: planes) ↔ Rejected k planes := by simp [rejected_iff, hout]
      rw [List.append_assoc] at hrec
      rw [if_neg hout]
      by_cases hrej : Rejected k planes
      · rw [if_pos hrej] at hrec
        rw [if_pos (hiff.2 hrej)]
        exact hrec
      · rw [if_neg hrej] at hrec
        rw [if_neg fun hr => hrej (hiff.1 hr)]
        exact hrec

/-! ### The second loop -/

def MapFails (k : Dmabufs) (planes : List FrameBufferPlane) : Prop := ∃ plane ∈ planes, k.mmap plane.fd = none

instance (k : Dmabufs) (planes : List FrameBufferPlane) : Decidable (MapFails k planes) :=
  inferInstanceAs (Decidable (∃ plane ∈ planes, _))

def planeSpan (k : Dmabufs) (plane : FrameBufferPlane) : Span :=
  ⟨(k.mmap plane.fd).getD 0 + plane.offset.toNat, plane.length.toNat⟩

/-- The second loop after the planes `done` of `planes`: every dmabuf is mapped over the length recorded for it, at
the address its table entry has if it was mapped at all, and the spans of `done` lie at those addresses. -/
structure Mapped (k : Dmabufs) (planes done : List FrameBufferPlane) (st : MapState) : Prop where
  entry : ∀ plane ∈ planes, ∃ info, st.mappedBuffers[plane.fd]? = some info ∧
    info.mapLength = regionLength planes plane.fd ∧
    (info.address = 0 ∨ k.mmap plane.fd = some info.address ∧ ∃ c ∈ st.mmaps, c.fd = plane.fd)
  spans : st.image.planes_ = done.map (planeSpan k)
  call : ∀ plane ∈ done, ∃ c ∈ st.mmaps, c.fd = plane.fd
  calls : ∀ c ∈ st.mmaps, c.length = regionLength planes c.fd ∧ c.result = k.mmap c.fd ∧ c.result.isSome

theorem Recorded.mapped {k : Dmabufs} {planes : List FrameBufferPlane} {m : Std.TreeMap Int MappedBufferInfo}
    (h : Recorded k planes m) : Mapped k planes [] ⟨m, ⟨[], []⟩, []⟩ := by
  refine ⟨?_, rfl, by simp, by simp⟩
  intro plane hp
  have hmem : plane.fd ∈ planes.map (·.fd) := List.mem_map_of_mem hp
  have hfd := h plane.fd
  rw [if_pos hmem] at hfd
  exact ⟨_, hfd, rfl, Or.inl rfl⟩

section MapPlane

variable {k : Dmabufs} {prot : UInt32} {st : MapState} {plane : FrameBufferPlane} {info : MappedBufferInfo}

theorem mapPlane_of_failed (hget : st.mappedBuffers[plane.fd]? = some info) (hzero : info.address = 0)
    (hm : k.mmap plane.fd = none) :
    mapPlane k prot st plane =
      .error { st with mmaps := st.mmaps ++ [⟨plane.fd, info.mapLength, prot, none⟩] } := by
  simp [mapPlane, hget, hzero, hm]

theorem mapPlane_of_new (hget : st.mappedBuffers[plane.fd]? = some info) (hzero : info.address = 0) {address : Nat}
    (hm : k.mmap plane.fd = some address) :
    mapPlane k prot st plane = .ok ⟨st.mappedBuffers.insert plane.fd { info with address := address },
      ⟨st.image.maps_ ++ [⟨address, info.mapLength⟩],
        st.image.planes_ ++ [⟨address + plane.offset.toNat, plane.length.toNat⟩]⟩,
      st.mmaps ++ [⟨plane.fd, info.mapLength, prot, some address⟩]⟩ := by
  simp [mapPlane, hget, hzero, hm]

theorem mapPlane_of_mapped (hget : st.mappedBuffers[plane.fd]? = some info) (hmapped : ¬info.address = 0) :
    mapPlane k prot st plane = .ok { st with
      image := { st.image with
        planes_ := st.image.planes_ ++ [⟨info.address + plane.offset.toNat, plane.length.toNat⟩] } } := by
  simp [mapPlane, hget, hmapped]

end MapPlane

/-- A plane whose dmabuf cannot be mapped ends the loop, any other one is recorded. -/
theorem mapPlane_spec {k : Dmabufs} (prot : UInt32) {planes done : List FrameBufferPlane} {st : MapState}
    (h : Mapped k planes done st) {plane : FrameBufferPlane} (hp : plane ∈ planes) :
    if k.mmap plane.fd = none then ∃ st', mapPlane k prot st plane = .error st'
    else ∃ st', mapPlane k prot st plane = .ok st' ∧ Mapped k planes (done ++ [plane]) st' := by
  obtain ⟨info, hget, hlen, haddr⟩ := h.entry plane hp
  by_cases hzero : info.address = 0
  · cases hm : k.mmap plane.fd with
    | none =>
      rw [if_pos rfl]
      exact ⟨_, mapPlane_of_failed hget hzero hm⟩
    | some address =>
      rw [if_neg (by simp)]
      refine ⟨_, mapPlane_of_new hget hzero hm, ?_, ?_, ?_, ?_⟩
      · intro p hp'
        rw [Std.TreeMap.getElem?_insert]
        by_cases heq : plane.fd = p.fd
        · rw [← heq]
          simp [hlen, hm]
        · obtain ⟨info', hget', hlen', haddr'⟩ := h.entry p hp'
          refine ⟨info', by simp [heq, hget'], hlen', ?_⟩
          rcases haddr' with hz | ⟨hma, c, hc, hcf⟩
          · exact Or.inl hz
          · exact Or.inr ⟨hma, c, by simp [hc], hcf⟩
      · simp [h.spans, planeSpan, hm]
      · intro p hp'
        rcases List.mem_append.1 hp' with hd | hd
        · obtain ⟨c, hc, hcf⟩ := h.call p hd
          exact ⟨c, by simp [hc], hcf⟩
        · rw [List.mem_singleton] at hd
          exact ⟨_, List.mem_append_right _ (List.mem_singleton_self _), by rw [hd]⟩
      · intro c hc
        rcases List.mem_append.1 hc with hd | hd
        · exact h.calls c hd
        · rw [List.mem_singleton] at hd
          subst hd
          simp [hlen, hm]
  · rcases haddr with hz | ⟨hma, c, hc, hcf⟩
    · exact absurd hz hzero
    · rw [if_neg (by simp [hma])]
      refine ⟨_, mapPlane_of_mapped hget hzero, h.entry, by simp [h.spans, planeSpan, hma], ?_, h.calls⟩
      intro p hp'
      rcases List.mem_append.1 hp' with hd | hd
      · exact h.call p hd
      · rw [List.mem_singleton] at hd
        exact ⟨c, hc, by rw [hd]; exact hcf⟩

/-- The second loop fails exactly when the mapping of some plane's dmabuf does. -/
private theorem foldlM_mapPlane {k : Dmabufs} (prot : UInt32) {planes done rest : List FrameBufferPlane} {st : MapState}
    (h : Mapped k planes done st) (hrest : ∀ plane ∈ rest, plane ∈ planes) :
    if MapFails k rest then ∃ st', rest.foldlM (mapPlane k prot) st = .error st'
    else ∃ st', rest.foldlM (mapPlane k prot) st = .ok st' ∧ Mapped k planes (done ++ rest) st' := by
  induction rest generalizing done st with
  | nil => simpa [MapFails] using ⟨st, rfl, h⟩
  | cons plane rest ih =>
    rw [List.foldlM_cons]
    have hplane := mapPlane_spec prot h (hrest plane (by simp))
    by_cases hm : k.mmap plane.fd = none
    · rw [if_pos hm] at hplane
      obtain ⟨st', heq⟩ := hplane
      rw [heq]
      simp only [MapFails, List.mem_cons, exists_eq_or_imp, hm, true_or, ↓reduceIte]
      exact ⟨st', rfl⟩
    · rw [if_neg hm] at hplane
      obtain ⟨st', heq, hmapped⟩ := hplane
      have hloop := ih hmapped fun p hp => hrest p (by simp [hp])
      rw [heq]
      simp only [MapFails, List.mem_cons, exists_eq_or_imp, hm, false_or]
      rw [List.append_assoc] at hloop
      exact hloop

/-! ### Planes in bounds -/

/-- An image is returned exactly when no plane is rejected and no mapping fails; its spans then lie in mappings as
long as the largest end of a plane of their dmabuf. -/
theorem fromFrameBuffer_spec {k : Dmabufs} {planes : List FrameBufferPlane} (hne : planes ≠ []) (mode : MapMode) :
    ∃ r, fromFrameBuffer k mode planes = some r ∧
      (r.image = none ↔ Rejected k planes ∨ MapFails k planes) ∧
      ∀ image, r.image = some image → image.planes_ = planes.map (planeSpan k) ∧
        (∀ plane ∈ planes, ∃ c ∈ r.mmaps, c.fd = plane.fd) ∧
        ∀ c ∈ r.mmaps, c.length = regionLength planes c.fd ∧ c.result = k.mmap c.fd ∧ c.result.isSome := by
  have hcheck := foldlM_checkPlane (recorded_nil k) planes
  have hempty : planes.isEmpty = false := by simpa using hne
  unfold fromFrameBuffer
  rw [hempty]
  by_cases hrej : Rejected k planes
  · rw [if_pos hrej] at hcheck
    rw [hcheck]
    exact ⟨_, rfl, by simp [hrej], by simp⟩
  · rw [if_neg hrej] at hcheck
    obtain ⟨m, hm, hrec⟩ := hcheck
    rw [List.nil_append] at hrec
    have hmap := foldlM_mapPlane (mmapFlags mode) hrec.mapped fun plane hp => hp
    rw [hm]
    by_cases hfail : MapFails k planes
    · rw [if_pos hfail] at hmap
      obtain ⟨st, hst⟩ := hmap
      simp only [Bool.false_eq_true, ↓reduceIte, hst]
      exact ⟨_, rfl, by simp [hfail], by simp⟩
    · rw [if_neg hfail] at hmap
      obtain ⟨st, hst, hmapped⟩ := hmap
      rw [List.nil_append] at hmapped
      simp only [Bool.false_eq_true, ↓reduceIte, hst]
      refine ⟨_, rfl, by simp [hrej, hfail], ?_⟩
      rintro image ⟨⟩
      exact ⟨hmapped.spans, hmapped.call, hmapped.calls⟩

/-- Every plane of the image is where its dmabuf was mapped, inside that mapping and inside the dmabuf. -/
def InBounds (k : Dmabufs) (planes : List FrameBufferPlane) (r : MapResult) (image : Image) : Prop :=
  ∀ i, ∀ plane ∈ planes[i]?, ∃ c ∈ r.mmaps, ∃ address, c.fd = plane.fd ∧ c.result = some address ∧
    image.data i = .ok ⟨address + plane.offset.toNat, plane.length.toNat⟩ ∧
    plane.offset.toNat + plane.length.toNat ≤ c.length ∧
    plane.offset.toNat + plane.length.toNat ≤ k.size plane.fd

/-- The end of the plane fits in 32 bits, and where `lseek` failed the plane lies in its dmabuf anyway. -/
def Fits (k : Dmabufs) (plane : FrameBufferPlane) : Prop :=
  plane.offset.toNat + plane.length.toNat < 2 ^ 32 ∧
    (k.seekable plane.fd = false → plane.offset.toNat + plane.length.toNat ≤ k.size plane.fd)

private theorem Fits.le_size {k : Dmabufs} {plane : FrameBufferPlane} (h : Fits k plane)
    (hok : ¬outOfBuffer plane (k.lseekLength plane.fd)) :
    plane.offset.toNat + plane.length.toNat ≤ k.size plane.fd := by
  cases hs : k.seekable plane.fd with
  | false => exact h.2 hs
  | true =>
    rw [lseekLength_of_seekable hs] at hok
    simp only [outOfBuffer, planeEnd_eq h.1, Bool.or_eq_true, decide_eq_true_eq, not_or] at hok
    omega

private theorem inBounds_iff {k : Dmabufs} {planes : List FrameBufferPlane} {r : MapResult} {image : Image}
    (hok : ¬Rejected k planes) (hspans : image.planes_ = planes.map (planeSpan k))
    (hcall : ∀ plane ∈ planes, ∃ c ∈ r.mmaps, c.fd = plane.fd)
    (hcalls : ∀ c ∈ r.mmaps, c.length = regionLength planes c.fd ∧ c.result = k.mmap c.fd ∧ c.result.isSome) :
    InBounds k planes r image ↔ ∀ plane ∈ planes, Fits k plane := by
  constructor
  · intro h plane hp
    obtain ⟨i, hi⟩ := List.mem_iff_getElem?.1 hp
    obtain ⟨c, hc, -, -, -, -, hle, hsize⟩ := h i plane hi
    have hlt := regionLength_lt planes c.fd
    rw [(hcalls c hc).1] at hle
    exact ⟨by omega, fun _ => hsize⟩
  · intro h i plane hi
    have hp : plane ∈ planes := List.mem_of_getElem? hi
    have hfits := h plane hp
    obtain ⟨c, hc, hcf⟩ := hcall plane hp
    obtain ⟨hcl, hcr, hsome⟩ := hcalls c hc
    rw [hcf] at hcl hcr
    obtain ⟨address, haddr⟩ := Option.isSome_iff_exists.1 hsome
    have hend := planeEnd_le_regionLength hp
    have hlt : i < planes.length := (List.getElem?_eq_some_iff.1 hi).1
    rw [planeEnd_eq hfits.1] at hend
    refine ⟨c, hc, address, hcf, haddr, ?_, by omega, hfits.le_size fun hout => hok ⟨plane, hp, outOfBuffer_iff.1 hout⟩⟩
    have hget : image.planes_[i]? = some (planeSpan k plane) := by rw [hspans, List.getElem?_map, hi]; rfl
    have hle : i ≤ image.planes_.length := by rw [hspans, List.length_map]; omega
    rw [hcr] at haddr
    simp [data, hget, hle, planeSpan, haddr]

/-- The planes of every image that is returned are in bounds if and only if nothing is returned, because the list
is empty, a plane is rejected or a mapping fails, or every plane ends within 32 bits and lies in its dmabuf where
`lseek` failed. -/
theorem mapped_in_bounds_iff (k : Dmabufs) (mode : MapMode) (planes : List FrameBufferPlane) :
    (∀ r image, fromFrameBuffer k mode planes = some r → r.image = some image → InBounds k planes r image) ↔
      planes = [] ∨ Rejected k planes ∨ MapFails k planes ∨ ∀ plane ∈ planes, Fits k plane := by
  by_cases hne : planes = []
  · subst hne
    simp [fromFrameBuffer]
  · obtain ⟨r, hr, hnone, himage⟩ := fromFrameBuffer_spec hne (k := k) mode
    by_cases hreturns : Rejected k planes ∨ MapFails k planes
    · have hnil : r.image = none := hnone.2 hreturns
      constructor
      · intro _
        exact Or.inr (or_assoc.1 (Or.inl hreturns))
      · intro _ r' image hr' hi
        rw [hr, Option.some.injEq] at hr'
        rw [← hr', hnil] at hi
        cases hi
    · have hsome : r.image ≠ none := fun h => hreturns (hnone.1 h)
      obtain ⟨image, hi⟩ := Option.ne_none_iff_exists'.1 hsome
      obtain ⟨hspans, hcall, hcalls⟩ := himage image hi
      rw [not_or] at hreturns
      have hiff := inBounds_iff hreturns.1 hspans hcall hcalls
      simp only [hr, Option.some.injEq, hne, hreturns.1, hreturns.2, false_or, ← hiff]
      constructor
      · intro h; exact h r image rfl hi
      · rintro h r' image' rfl hi'
        rw [hi, Option.some.injEq] at hi'
        exact hi' ▸ h

/-- A dmabuf of 4 GiB, and a plane of it whose end wraps around to the end of the first page. -/
theorem wrapped_plane_out_of_bounds :
    ∃ (k : Dmabufs) (r : MapResult) (image : Image),
      k.size 3 = 0x100000000 ∧ k.lseek 3 = 0x100000000 ∧
      fromFrameBuffer k .ReadOnly [⟨3, 0xFFFFF000, 0x2000⟩] = some r ∧ r.image = some image ∧
      ¬InBounds k [⟨3, 0xFFFFF000, 0x2000⟩] r image := by
  refine ⟨⟨fun _ => 0x100000000, fun _ => by decide, fun _ => true, fun _ => some 0x1000⟩, _, _, rfl, rfl, rfl, rfl, ?_⟩
  intro h
  obtain ⟨c, hc, -, -, -, -, hle, -⟩ := h 0 ⟨3, 0xFFFFF000, 0x2000⟩ rfl
  have hlen : c.length = 0x1000 := by
    simp only [List.nil_append, List.mem_singleton] at hc
    rw [hc]
    rfl
  rw [hlen] at hle
  exact absurd hle (by decide)

end Image

end Twincam
