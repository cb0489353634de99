import Twincam.Image

/-!
# One mapping for every dmabuf (`Image::fromFrameBuffer`, `~Image` and `numPlanes` in `image.cpp`)

The table of the first loop tells the second one how much of a dmabuf to map, and in it the second loop marks what it
has mapped.  `Once` is its invariant on top of `Mapped`: a dmabuf has an address in the table exactly when it was
mapped, which therefore happens once, and the image keeps the regions in the order of the calls.
`one_map_per_fd` collects what follows, for the failures on the way as well.
-/

namespace Twincam

open Libcamera (FrameBufferPlane)

/-- The region that a call of `mmap` mapped, if it succeeded. -/
def Mmap.region (c : Mmap) : Option Span := c.result.map fun address => ⟨address, c.length⟩

namespace Image

def numPlanes (image : Image) : UInt32 := UInt32.ofNat image.planes_.length

/-- The regions unmapped by the end of the life of the image, if there is one. -/
def MapResult.unmapped (r : MapResult) : List Span := r.munmaps ++ r.image.elim [] destructor

/-- The second loop after the planes `done`: each dmabuf was mapped at most once, the table has an address for those
that were, and the image keeps the regions. -/
structure Once (k : Dmabufs) (planes done : List FrameBufferPlane) (st : MapState) : Prop where
  mapped : Mapped k planes done st
  fresh : ∀ plane ∈ planes, ∀ info, st.mappedBuffers[plane.fd]? = some info →
    (info.address = 0 ↔ plane.fd ∉ st.mmaps.map (·.fd))
  nodup : (st.mmaps.map (·.fd)).Nodup
  fds : ∀ c ∈ st.mmaps, c.fd ∈ planes.map (·.fd)
  regions : st.image.maps_ = st.mmaps.filterMap Mmap.region

private theorem Recorded.once {k : Dmabufs} {planes : List FrameBufferPlane} {m : Std.TreeMap Int MappedBufferInfo}
    (h : Recorded k planes m) : Once k planes [] ⟨m, ⟨[], []⟩, []⟩ := by
  refine ⟨h.mapped, ?_, List.nodup_nil, by simp, rfl⟩
  intro plane hp info hinfo
  have hmem : plane.fd ∈ planes.map (·.fd) := List.mem_map_of_mem hp
  have hfd := h plane.fd
  rw [if_pos hmem] at hfd
  obtain rfl := Option.some.inj (hinfo.symm.trans hfd)
  simp

/-- The loop stopped at a failed `mmap`, and the image keeps what was mapped before. -/
structure Failed (k : Dmabufs) (st : MapState) : Prop where
  failed : ∃ c ∈ st.mmaps, c.result = none
  regions : st.image.maps_ = st.mmaps.filterMap Mmap.region

section OnePlane

variable {k : Dmabufs} {prot : UInt32} {planes done : List FrameBufferPlane} {st : MapState}
  {plane : FrameBufferPlane} {info : MappedBufferInfo}

/-- A dmabuf that was mapped before: the call of `mmap` for it succeeded. -/
private theorem Once.mmap_ne_none (h : Once k planes done st) (hp : plane ∈ planes)
    (hget : st.mappedBuffers[plane.fd]? = some info) (hmapped : ¬info.address = 0) : k.mmap plane.fd ≠ none := by
  intro hm
  have hmem : plane.fd ∈ st.mmaps.map (·.fd) :=
    not_not.1 fun hnot => hmapped ((h.fresh plane hp info hget).2 hnot)
  obtain ⟨c, hc, hcf⟩ := List.mem_map.1 hmem
  obtain ⟨-, hres, hok⟩ := h.mapped.calls c hc
  rw [hres, hcf, hm] at hok
  cases hok

/-- A dmabuf that is mapped now: the table has its address from here on. -/
private theorem Once.map_new (hnull : ∀ fd, k.mmap fd ≠ some 0) (h : Once k planes done st) (hp : plane ∈ planes)
    (hget : st.mappedBuffers[plane.fd]? = some info) (hzero : info.address = 0) {address : Nat}
    (hm : k.mmap plane.fd = some address) :
    ∃ st', mapPlane k prot st plane = .ok st' ∧ Once k planes (done ++ [plane]) st' := by
  have hnew := (h.fresh plane hp info hget).1 hzero
  have haddr : address ≠ 0 := fun heq => hnull plane.fd (by rw [hm, heq])
  have hspec := mapPlane_spec prot h.mapped hp
  rw [if_neg (by simp [hm]), mapPlane_of_new hget hzero hm] at hspec
  obtain ⟨_, ⟨⟩, hmapped⟩ := hspec
  refine ⟨_, mapPlane_of_new hget hzero hm, hmapped, ?_, ?_, ?_, ?_⟩
  · intro p hp' info' hinfo'
    rw [Std.TreeMap.getElem?_insert] at hinfo'
    by_cases hfd : plane.fd = p.fd
    · rw [if_pos (by simpa using hfd)] at hinfo'
      obtain rfl := Option.some.inj hinfo'
      simp [haddr, hfd]
    · rw [if_neg (by simpa using hfd)] at hinfo'
      rw [h.fresh p hp' info' hinfo']
      simp [Ne.symm hfd]
  · rw [List.map_append, List.nodup_append]
    refine ⟨h.nodup, by simp, ?_⟩
    rintro fd hfd fd' hfd' rfl
    have heq : fd = plane.fd := by simpa using hfd'
    exact hnew (heq ▸ hfd)
  · intro c hc
    rcases List.mem_append.1 hc with hold | hlast
    · exact h.fds c hold
    · rw [List.mem_singleton.1 hlast]
      exact List.mem_map_of_mem hp
  · simp [List.filterMap_append, Mmap.region, h.regions]

end OnePlane

/-- One plane: its dmabuf cannot be mapped, or the loop goes on. -/
private theorem mapPlane_once {k : Dmabufs} (hnull : ∀ fd, k.mmap fd ≠ some 0) (prot : UInt32)
    {planes done : List FrameBufferPlane} {st : MapState} (h : Once k planes done st) {plane : FrameBufferPlane}
    (hp : plane ∈ planes) :
    (∃ st', mapPlane k prot st plane = .error st' ∧ Failed k st') ∨
      ∃ st', mapPlane k prot st plane = .ok st' ∧ Once k planes (done ++ [plane]) st' := by
  obtain ⟨info, hget, -, -⟩ := h.mapped.entry plane hp
  by_cases hzero : info.address = 0
  · cases hm : k.mmap plane.fd with
    | none =>
      left
      refine ⟨_, mapPlane_of_failed hget hzero hm, ⟨_, List.mem_append_right _ (List.mem_singleton_self _), rfl⟩, ?_⟩
      simp [List.filterMap_append, Mmap.region, h.regions]
    | some address => exact Or.inr (h.map_new hnull hp hget hzero hm)
  · right
    have hspec := mapPlane_spec prot h.mapped hp
    rw [if_neg (h.mmap_ne_none hp hget hzero), mapPlane_of_mapped hget hzero] at hspec
    obtain ⟨_, ⟨⟩, hmapped⟩ := hspec
    exact ⟨_, mapPlane_of_mapped hget hzero, hmapped, h.fresh, h.nodup, h.fds, h.regions⟩

/-- The second loop, whichever prefix of the planes it gets through. -/
private theorem foldlM_mapPlane_once {k : Dmabufs} (hnull : ∀ fd, k.mmap fd ≠ some 0) (prot : UInt32)
    {planes done rest : List FrameBufferPlane} {st : MapState} (h : Once k planes done st)
    (hrest : ∀ plane ∈ rest, plane ∈ planes) :
    (∃ st', rest.foldlM (mapPlane k prot) st = .error st' ∧ Failed k st') ∨
      ∃ st', rest.foldlM (mapPlane k prot) st = .ok st' ∧ Once k planes (done ++ rest) st' := by
  induction rest generalizing done st with
  | nil => exact Or.inr ⟨st, rfl, by simpa using h⟩
  | cons plane rest ih =>
    rw [List.foldlM_cons]
    rcases mapPlane_once hnull prot h (hrest plane (by simp)) with ⟨st', heq, hfailed⟩ | ⟨st', heq, honce⟩
    · rw [heq]
      exact Or.inl ⟨st', rfl, hfailed⟩
    · rw [heq]
      have hloop := ih honce fun p hp => hrest p (by simp [hp])
      rw [List.append_assoc] at hloop
      exact hloop

private theorem foldl_max_mem (l : List Nat) (b : Nat) : l.foldl max b = b ∨ l.foldl max b ∈ l := by
  induction l generalizing b with
  | nil => exact Or.inl rfl
  | cons x l ih =>
    rw [List.foldl_cons]
    rcases ih (max b x) with h | h
    · rw [h]
      rcases Nat.le_total x b with hle | hle
      · exact Or.inl (Nat.max_eq_left hle)
      · exact Or.inr (by simp [Nat.max_eq_right hle])
    · exact Or.inr (List.mem_cons_of_mem _ h)

/-- The length to map is the end of a plane of the dmabuf. -/
private theorem regionLength_mem {planes : List FrameBufferPlane} {fd : Int} (h : fd ∈ planes.map (·.fd)) :
    ∃ plane ∈ planes, plane.fd = fd ∧ planeEnd plane = regionLength planes fd := by
  obtain ⟨first, hfirst, hfd⟩ := List.mem_map.1 h
  have hle := planeEnd_le_regionLength hfirst
  rw [hfd] at hle
  rcases foldl_max_mem ((planes.filter (·.fd = fd)).map planeEnd) 0 with hzero | hmem
  · have hregion : regionLength planes fd = 0 := hzero
    exact ⟨first, hfirst, hfd, by omega⟩
  · obtain ⟨plane, hplane, heq⟩ := List.mem_map.1 hmem
    obtain ⟨hp, hpfd⟩ := List.mem_filter.1 hplane
    exact ⟨plane, hp, by simpa using hpfd, heq⟩

/-- The image has the planes in order, each in the region of its dmabuf, and one region for every dmabuf, as long as the
largest end of a plane in it. -/
structure OneMapPerFd (planes : List FrameBufferPlane) (r : MapResult) (image : Image) : Prop where
  numPlanes : image.planes_.length = planes.length ∧ image.numPlanes = UInt32.ofNat planes.length
  data : ∀ i, ∀ plane ∈ planes[i]?, ∃ c ∈ r.mmaps, ∃ address, c.fd = plane.fd ∧ c.result = some address ∧
    image.data i = .ok ⟨address + plane.offset.toNat, plane.length.toNat⟩
  nodup : (r.mmaps.map (·.fd)).Nodup
  fds : ∀ fd, fd ∈ r.mmaps.map (·.fd) ↔ fd ∈ planes.map (·.fd)
  length : ∀ c ∈ r.mmaps, (∃ plane ∈ planes, plane.fd = c.fd ∧ planeEnd plane = c.length) ∧
    ∀ plane ∈ planes, plane.fd = c.fd → planeEnd plane ≤ c.length

private theorem Once.oneMapPerFd {k : Dmabufs} {planes : List FrameBufferPlane} {st : MapState}
    (h : Once k planes planes st) :
    OneMapPerFd planes ⟨some st.image, st.mmaps, []⟩ st.image where
  numPlanes := by simp [Image.numPlanes, h.mapped.spans]
  data := by
    intro i plane hi
    have hp : plane ∈ planes := List.mem_of_getElem? hi
    obtain ⟨c, hc, hcf⟩ := h.mapped.call plane hp
    obtain ⟨-, hres, hok⟩ := h.mapped.calls c hc
    obtain ⟨address, haddr⟩ := Option.isSome_iff_exists.1 hok
    have hget : st.image.planes_[i]? = some (planeSpan k plane) := by
      rw [h.mapped.spans, List.getElem?_map, hi]
      rfl
    have hlt : i < st.image.planes_.length := (List.getElem?_eq_some_iff.1 hget).1
    refine ⟨c, hc, address, hcf, haddr, ?_⟩
    rw [Image.data, if_pos (Nat.le_of_lt hlt), hget, planeSpan, ← hcf, ← hres, haddr, Option.getD_some]
  nodup := h.nodup
  fds := by
    intro fd
    constructor
    · intro hmem
      obtain ⟨c, hc, rfl⟩ := List.mem_map.1 hmem
      exact h.fds c hc
    · intro hmem
      obtain ⟨plane, hp, rfl⟩ := List.mem_map.1 hmem
      obtain ⟨c, hc, hcf⟩ := h.mapped.call plane hp
      exact List.mem_map.2 ⟨c, hc, hcf⟩
  length := by
    intro c hc
    rw [(h.mapped.calls c hc).1]
    refine ⟨regionLength_mem (h.fds c hc), ?_⟩
    intro plane hp hfd
    rw [← hfd]
    exact planeEnd_le_regionLength hp

/-- For any planes over any dmabufs and any pattern of failures of `mmap`, which never maps at the null address: there
is no image exactly when a plane fails the check or a call of `mmap` failed; an image has one mapping for every dmabuf,
and its planes in order; and the regions unmapped by the end are exactly the ones mapped. -/
theorem one_map_per_fd {k : Dmabufs} {planes : List FrameBufferPlane} (hne : planes ≠ [])
    (hnull : ∀ fd, k.mmap fd ≠ some 0) (mode : MapMode) :
    ∃ r, fromFrameBuffer k mode planes = some r ∧
      (r.image = none ↔ Rejected k planes ∨ ∃ c ∈ r.mmaps, c.result = none) ∧
      (∀ image, r.image = some image → OneMapPerFd planes r image) ∧
      r.unmapped = r.mmaps.filterMap Mmap.region := by
  have hcheck := foldlM_checkPlane (recorded_nil k) planes
  have hempty : ¬planes.isEmpty = true := by simpa using hne
  unfold fromFrameBuffer
  rw [if_neg hempty]
  by_cases hrej : Rejected k planes
  · rw [if_pos hrej] at hcheck
    rw [hcheck]
    exact ⟨_, rfl, by simp [hrej], by simp, rfl⟩
  · rw [if_neg hrej] at hcheck
    obtain ⟨m, hm, hrec⟩ := hcheck
    rw [List.nil_append] at hrec
    rw [hm]
    dsimp only
    rcases foldlM_mapPlane_once hnull (mmapFlags mode) hrec.once fun plane hp => hp with
      ⟨st, hst, hfailed⟩ | ⟨st, hst, honce⟩
    · rw [hst]
      refine ⟨_, rfl, by simpa using Or.inr hfailed.failed, by simp, ?_⟩
      show st.image.maps_ ++ [] = _
      rw [List.append_nil, hfailed.regions]
    · rw [List.nil_append] at honce
      rw [hst]
      refine ⟨_, rfl, ?_, ?_, ?_⟩
      · have hok : ¬∃ c ∈ st.mmaps, c.result = none := by
          rintro ⟨c, hc, hnone⟩
          have hsome := (honce.mapped.calls c hc).2.2
          rw [hnone] at hsome
          cases hsome
        simp only [reduceCtorEq, false_iff, not_or]
        exact ⟨hrej, hok⟩
      · rintro image ⟨⟩
        exact honce.oneMapPerFd
      · exact honce.regions

/-- Dmabufs of two pages, of which only one can be mapped. -/
def secondFails : Dmabufs where
  size := fun _ => 8192
  size_lt := fun _ => by decide
  seekable := fun _ => true
  mmap := fun fd => if fd = 3 then some 0x1000 else none

theorem one_map_per_fd_second :
    ∃ r, fromFrameBuffer secondFails .ReadOnly [⟨3, 0, 1024⟩, ⟨3, 1024, 1024⟩, ⟨4, 0, 512⟩] = some r ∧ r.image = none ∧
      r.unmapped = [⟨0x1000, 2048⟩] ∧ r.unmapped = r.mmaps.filterMap Mmap.region := by
  have hnull : ∀ fd, secondFails.mmap fd ≠ some 0 := by
    intro fd
    show (if fd = 3 then some 0x1000 else none) ≠ some 0
    split <;> simp
  obtain ⟨r, hr, -, -, hunmapped⟩ :=
    @one_map_per_fd _ [⟨3, 0, 1024⟩, ⟨3, 1024, 1024⟩, ⟨4, 0, 512⟩] (by simp) hnull .ReadOnly
  have hrun : fromFrameBuffer secondFails .ReadOnly [⟨3, 0, 1024⟩, ⟨3, 1024, 1024⟩, ⟨4, 0, 512⟩] = some _ := rfl
  obtain rfl := Option.some.inj (hrun.symm.trans hr)
  exact ⟨_, rfl, rfl, rfl, hunmapped⟩

end Image

end Twincam
