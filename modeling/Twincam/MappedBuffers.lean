import Twincam.Lib.Custody
import Twincam.Lib.Progress
import Twincam.ImageMaps
import Twincam.SdlSink

/-!
# The memory that a sink maps, over its life (`mapBuffer` and the destructors of `FileSink` and `SDLSink`)

Both sinks keep an image for every buffer in `mappedBuffers_`, where a new image of a buffer destroys the old one, and
take the planes of the image from it whenever the buffer comes back with a frame.

`regions_unmapped`: over any run of a sink and its destructor, every region that was mapped is unmapped once; and as
long as the planes that are mapped end within 32 bits, every plane that a sink takes lies in a region that is mapped
then.
-/

namespace Twincam

open Libcamera (FrameBufferPtr FrameBufferPlane)

/-- A sink with the images of its buffers, the regions it mapped and unmapped so far and the planes it took. -/
structure MappingSink where
  mappedBuffers_ : Std.TreeMap FrameBufferPtr Image
  calls : List (Custody.Entry Span Span)

/-- What happens to the buffers: `FileSink::writeBuffer` with the results of `open`, of the reads of the metadata and of
`write`, and `SDLSink::renderBuffer` with the metadata. -/
inductive MappingEvent
  | mapBuffer (k : Dmabufs) (buffer : FrameBufferPtr)
  | writeBuffer (buffer : FrameBufferPtr) (openOk : Bool) (bytesused : Nat → UInt32) (write : Nat → UInt32 → Option Nat)
  | renderBuffer (buffer : FrameBufferPtr) (bytesused : List UInt32)

namespace MappingSink

-- The planes of the frame buffers, which never change.
variable (planes : FrameBufferPtr → List FrameBufferPlane)

/-- `FileSink::mapBuffer` and `SDLSink::mapBuffer`; `none` when an assertion fails. -/
def mapBuffer (sink : MappingSink) (k : Dmabufs) (buffer : FrameBufferPtr) : Option MappingSink :=
  match Image.fromFrameBuffer k .ReadOnly (planes buffer) with
  | some ⟨some image, mmaps, _⟩ =>
    let old := sink.mappedBuffers_[buffer]?.elim [] Image.destructor
    some ⟨sink.mappedBuffers_.insert buffer image,
      sink.calls ++ (mmaps.filterMap Mmap.region).map .acquire ++ old.map .release⟩
  | _ => none

/-- The planes that a loop takes from an image; `none`, where a run ends, when it reads past the last plane or an
assertion fails. -/
def take (sink : MappingSink) (accesses : List (Except Image.DataFault Span)) : Option MappingSink :=
  if accesses.all Except.isOk then
    some { sink with calls := sink.calls ++ (accesses.filterMap Except.toOption).map .use }
  else none

/-- `FileSink::writeBuffer`; a null image is only used for a plane. -/
def writeBuffer (sink : MappingSink) (buffer : FrameBufferPtr) (openOk : Bool) (bytesused : Nat → UInt32)
    (write : Nat → UInt32 → Option Nat) : Option MappingSink :=
  if !openOk then some sink
  else
    match sink.mappedBuffers_[buffer]? with
    | none => if (planes buffer).isEmpty then some sink else none
    | some image => sink.take (FileSink.writeAccesses image bytesused write 0 (planes buffer))

/-- `SDLSink::renderBuffer`. -/
def renderBuffer (sink : MappingSink) (buffer : FrameBufferPtr) (bytesused : List UInt32) : Option MappingSink :=
  match sink.mappedBuffers_[buffer]? with
  | none => if bytesused.isEmpty then some sink else none
  | some image => sink.take (SDLSink.renderPlanes image 0 bytesused []).accesses

def step (sink : MappingSink) : MappingEvent → Option MappingSink
  | .mapBuffer k buffer => sink.mapBuffer planes k buffer
  | .writeBuffer buffer openOk bytesused write => sink.writeBuffer planes buffer openOk bytesused write
  | .renderBuffer buffer bytesused => sink.renderBuffer buffer bytesused

/-- A sink that was just constructed. -/
def machine : Machine MappingSink MappingEvent where
  init sink := sink.mappedBuffers_ = ∅ ∧ sink.calls = []
  step := step planes

/-- The regions that the images of the sink keep. -/
def regions (sink : MappingSink) : List Span := sink.mappedBuffers_.toList.flatMap (·.2.maps_)

/-- `FileSink::~FileSink` and `SDLSink::~SDLSink` destroy `mappedBuffers_`. -/
def destructor (sink : MappingSink) : List (Custody.Entry Span Span) :=
  (sink.mappedBuffers_.toList.flatMap (·.2.destructor)).map .release

/-- The span lies in one of the regions. -/
def covered (regions : List Span) (span : Span) : Bool :=
  regions.any fun r => r.data ≤ span.data ∧ span.data + span.size ≤ r.data + r.size

/-- The planes that are mapped end within 32 bits. -/
def PlanesFit : MappingEvent → Prop
  | .mapBuffer _ buffer => ∀ plane ∈ planes buffer, plane.offset.toNat + plane.length.toNat < 2 ^ 32
  | .writeBuffer .. | .renderBuffer .. => True

variable {planes}

/-- The image that `FileSink::mapBuffer` puts into `mappedBuffers_`. -/
theorem mapBuffer_fileSink (sink : MappingSink) (k : Dmabufs) (buffer : FrameBufferPtr) :
    (sink.mapBuffer planes k buffer).map (fun s => ⟨s.mappedBuffers_⟩) =
      (⟨sink.mappedBuffers_⟩ : FileSink).mapBuffer planes k buffer := by
  unfold mapBuffer FileSink.mapBuffer
  match Image.fromFrameBuffer k .ReadOnly (planes buffer) with
  | none => rfl
  | some ⟨none, _, _⟩ => rfl
  | some ⟨some _, _, _⟩ => rfl

/-! ### One image -/

private theorem mapPlane_maps {k : Dmabufs} {prot : UInt32} {st st' : Image.MapState} {plane : FrameBufferPlane}
    (h : Image.mapPlane k prot st plane = .ok st') (hst : st.image.maps_ = st.mmaps.filterMap Mmap.region) :
    st'.image.maps_ = st'.mmaps.filterMap Mmap.region := by
  unfold Image.mapPlane at h
  dsimp only at h
  split at h
  · split at h
    · cases h
    · rename_i hmap
      obtain rfl := Except.ok.inj h
      rw [List.filterMap_append, ← hst, hmap]
      rfl
  · obtain rfl := Except.ok.inj h
    exact hst

private theorem foldlM_mapPlane_maps {k : Dmabufs} {prot : UInt32} {st st' : Image.MapState}
    {rest : List FrameBufferPlane} (h : rest.foldlM (Image.mapPlane k prot) st = .ok st')
    (hst : st.image.maps_ = st.mmaps.filterMap Mmap.region) :
    st'.image.maps_ = st'.mmaps.filterMap Mmap.region := by
  induction rest generalizing st with
  | nil =>
    obtain rfl := Except.ok.inj h
    exact hst
  | cons plane rest ih =>
    rw [List.foldlM_cons] at h
    cases hplane : Image.mapPlane k prot st plane with
    | error st' =>
      rw [hplane] at h
      cases h
    | ok st' =>
      rw [hplane] at h
      exact ih h (mapPlane_maps hplane hst)

/-- An image keeps the regions that were mapped for it, whatever the addresses are. -/
private theorem maps_of_mapped {k : Dmabufs} {mode : Image.MapMode} {bufferPlanes : List FrameBufferPlane}
    {r : Image.MapResult} {image : Image} (hr : Image.fromFrameBuffer k mode bufferPlanes = some r)
    (hi : r.image = some image) : image.maps_ = r.mmaps.filterMap Mmap.region := by
  unfold Image.fromFrameBuffer at hr
  split at hr
  · cases hr
  · split at hr
    · obtain rfl := Option.some.inj hr
      cases hi
    · split at hr
      · obtain rfl := Option.some.inj hr
        cases hi
      · rename_i hmaps
        obtain rfl := Option.some.inj hr
        obtain rfl := Option.some.inj hi
        exact foldlM_mapPlane_maps hmaps rfl

/-- Planes that end within 32 bits lie in the regions of their image. -/
private theorem covered_of_mapped {k : Dmabufs} {mode : Image.MapMode} {bufferPlanes : List FrameBufferPlane}
    {r : Image.MapResult} {image : Image} (hr : Image.fromFrameBuffer k mode bufferPlanes = some r)
    (hi : r.image = some image)
    (hfits : ∀ plane ∈ bufferPlanes, plane.offset.toNat + plane.length.toNat < 2 ^ 32) :
    ∀ span ∈ image.planes_, covered image.maps_ span := by
  have hne : bufferPlanes ≠ [] := by
    rintro rfl
    cases hr
  obtain ⟨r', hr', -, himage⟩ := Image.fromFrameBuffer_spec hne (k := k) mode
  obtain rfl := Option.some.inj (hr.symm.trans hr')
  obtain ⟨hspans, hcall, hcalls⟩ := himage image hi
  intro span hspan
  rw [hspans] at hspan
  obtain ⟨plane, hplane, rfl⟩ := List.mem_map.1 hspan
  obtain ⟨c, hc, hfd⟩ := hcall plane hplane
  obtain ⟨hlength, hresult, hsome⟩ := hcalls c hc
  obtain ⟨address, haddress⟩ := Option.isSome_iff_exists.1 hsome
  have hend := Image.planeEnd_le_regionLength hplane
  rw [Image.planeEnd_eq (hfits plane hplane), ← hfd, ← hlength] at hend
  have hregion : c.region = some ⟨address, c.length⟩ := by rw [Mmap.region, haddress]; rfl
  rw [covered, List.any_eq_true, maps_of_mapped hr hi]
  refine ⟨⟨address, c.length⟩, List.mem_filterMap.2 ⟨c, hc, hregion⟩, ?_⟩
  rw [hresult, hfd] at haddress
  simp only [Image.planeSpan, haddress, Option.getD_some, decide_eq_true_eq]
  omega

/-! ### The accesses -/

private theorem mem_planes_of_data {image : Image} {i : Nat} {span : Span} (h : image.data i = .ok span) :
    span ∈ image.planes_ := List.mem_of_getElem? (Image.data_eq_ok h)

private theorem mem_planes_of_writeAccesses {image : Image} {bytesused : Nat → UInt32}
    {write : Nat → UInt32 → Option Nat} {i : Nat} {rest : List FrameBufferPlane} {span : Span}
    (h : .ok span ∈ FileSink.writeAccesses image bytesused write i rest) : span ∈ image.planes_ := by
  induction rest generalizing i with
  | nil => cases h
  | cons plane rest ih =>
    rw [FileSink.writeAccesses] at h
    cases hdata : image.data i with
    | error fault =>
      rw [hdata] at h
      simp at h
    | ok data =>
      rw [hdata] at h
      rcases List.mem_cons.1 h with hhere | hmore
      · obtain rfl := Except.ok.inj hhere
        exact mem_planes_of_data hdata
      · split at hmore
        · cases hmore
        · dsimp only at hmore
          split at hmore
          · cases hmore
          · exact ih hmore

private theorem mem_planes_of_renderPlanes {image : Image} {i : Nat} {rest : List UInt32} {done : List (Option Span)}
    {span : Span} (h : .ok span ∈ (SDLSink.renderPlanes image i rest done).accesses) : span ∈ image.planes_ := by
  induction rest generalizing i done with
  | nil => cases h
  | cons used rest ih =>
    rw [SDLSink.renderPlanes] at h
    cases hdata : image.data i with
    | error fault =>
      rw [hdata] at h
      cases fault with
      | assertion => simp at h
      | pastTheEnd =>
        rcases List.mem_cons.1 h with hhere | hmore
        · cases hhere
        · exact ih hmore
    | ok data =>
      rw [hdata] at h
      rcases List.mem_cons.1 h with hhere | hmore
      · obtain rfl := Except.ok.inj hhere
        exact mem_planes_of_data hdata
      · exact ih hmore

/-! ### The regions of the sink -/

/-- An assoc list with distinct keys, with the entry of one key in front. -/
private theorem perm_filter_key {l : List (FrameBufferPtr × Image)} (h : l.Pairwise fun a b => ¬compare a.1 b.1 = .eq)
    {buffer : FrameBufferPtr} {image : Image} (hmem : (buffer, image) ∈ l) :
    l.Perm ((buffer, image) :: l.filter (¬buffer == ·.1)) := by
  induction l with
  | nil => cases hmem
  | cons p l ih =>
    obtain ⟨hhead, htail⟩ := List.pairwise_cons.1 h
    rcases List.mem_cons.1 hmem with rfl | hmem
    · -- the other keys are different
      have hkeep : l.filter (¬buffer == ·.1) = l := by
        rw [List.filter_eq_self]
        intro p hp
        have hne := hhead p hp
        rw [Std.compare_eq_iff_eq] at hne
        simpa using hne
      rw [List.filter_cons_of_neg (by simp), hkeep]
    · have hne := hhead _ hmem
      rw [Std.compare_eq_iff_eq] at hne
      rw [List.filter_cons_of_pos (by simpa using Ne.symm hne)]
      exact ((ih htail hmem).cons p).trans (List.Perm.swap _ _ _)

private theorem regions_insert (mappedBuffers_ : Std.TreeMap FrameBufferPtr Image) (buffer : FrameBufferPtr)
    (image : Image) :
    ∃ rest : List Span,
      (mappedBuffers_.toList.flatMap (·.2.maps_)).Perm (mappedBuffers_[buffer]?.elim [] Image.destructor ++ rest) ∧
      ((mappedBuffers_.insert buffer image).toList.flatMap (·.2.maps_)).Perm (image.maps_ ++ rest) := by
  refine ⟨(mappedBuffers_.toList.filter (¬buffer == ·.1)).flatMap (·.2.maps_), ?_, ?_⟩
  · cases hold : mappedBuffers_[buffer]? with
    | none =>
      have hkeep : mappedBuffers_.toList.filter (¬buffer == ·.1) = mappedBuffers_.toList := by
        rw [List.filter_eq_self]
        intro p hp
        have hget := Std.TreeMap.mem_toList_iff_getElem?_eq_some.1 hp
        have hne : buffer ≠ p.1 := by
          rintro rfl
          rw [hold] at hget
          cases hget
        simpa using hne
      rw [hkeep]
      rfl
    | some old =>
      have hmem := Std.TreeMap.mem_toList_iff_getElem?_eq_some.2 hold
      exact (perm_filter_key Std.TreeMap.distinct_keys_toList hmem).flatMap_right _
  · exact Std.TreeMap.toList_insert_perm.flatMap_right _

/-- A plane of an image that the sink keeps. -/
def Kept (sink : MappingSink) (span : Span) : Prop :=
  ∃ (buffer : FrameBufferPtr) (image : Image), sink.mappedBuffers_[buffer]? = some image ∧ span ∈ image.planes_

/-- What a step does: it puts an image in the place of another one, or takes planes. -/
theorem step_cases {s s' : MappingSink} {e : MappingEvent} (hs : step planes s e = some s') :
    (∃ (k : Dmabufs) (buffer : FrameBufferPtr) (r : Image.MapResult) (image : Image), e = .mapBuffer k buffer ∧
      Image.fromFrameBuffer k .ReadOnly (planes buffer) = some r ∧ r.image = some image ∧
      s'.mappedBuffers_ = s.mappedBuffers_.insert buffer image ∧
      s'.calls = s.calls ++ image.maps_.map .acquire ++
        (s.mappedBuffers_[buffer]?.elim [] Image.destructor).map .release) ∨
    (s'.mappedBuffers_ = s.mappedBuffers_ ∧ ∃ spans : List Span, s'.calls = s.calls ++ spans.map .use ∧
      ∀ span ∈ spans, s.Kept span) := by
  have htake : ∀ {buffer : FrameBufferPtr} {image : Image} {accesses}, s.mappedBuffers_[buffer]? = some image →
      (∀ span, .ok span ∈ accesses → span ∈ image.planes_) → s.take accesses = some s' →
      s'.mappedBuffers_ = s.mappedBuffers_ ∧ ∃ spans : List Span, s'.calls = s.calls ++ spans.map .use ∧
        ∀ span ∈ spans, s.Kept span := by
    intro buffer image accesses himage hplanes htake
    rw [take, Option.ite_none_right_eq_some, Option.some.injEq] at htake
    obtain ⟨-, rfl⟩ := htake
    refine ⟨rfl, _, rfl, fun span hspan => ⟨buffer, image, himage, hplanes span ?_⟩⟩
    obtain ⟨access, haccess, hok⟩ := List.mem_filterMap.1 hspan
    cases access with
    | error fault => cases hok
    | ok data =>
      obtain rfl := Option.some.inj hok
      exact haccess
  have hsame : s' = s → s'.mappedBuffers_ = s.mappedBuffers_ ∧ ∃ spans : List Span,
      s'.calls = s.calls ++ spans.map .use ∧ ∀ span ∈ spans, s.Kept span := by
    rintro rfl
    exact ⟨rfl, [], by simp, nofun⟩
  cases e with
  | mapBuffer k buffer =>
    left
    simp only [step, mapBuffer] at hs
    split at hs
    · rename_i image mmaps munmaps hr
      obtain rfl := Option.some.inj hs
      refine ⟨k, buffer, _, image, rfl, hr, rfl, rfl, ?_⟩
      rw [maps_of_mapped hr rfl]
    · cases hs
  | writeBuffer buffer openOk bytesused write =>
    right
    simp only [step, writeBuffer] at hs
    split at hs
    · exact hsame (Option.some.inj hs).symm
    · split at hs
      · rw [Option.ite_none_right_eq_some] at hs
        exact hsame (Option.some.inj hs.2).symm
      · rename_i image himage
        exact htake himage (fun _ => mem_planes_of_writeAccesses) hs
  | renderBuffer buffer bytesused =>
    right
    simp only [step, renderBuffer] at hs
    split at hs
    · rw [Option.ite_none_right_eq_some] at hs
      exact hsame (Option.some.inj hs.2).symm
    · rename_i image himage
      exact htake himage (fun _ => mem_planes_of_renderPlanes) hs

/-! ### The life of the sink -/

/-- The calls keep to what is mapped, and what is mapped is what the images keep. -/
def Tracks (ok : List Span → Span → Bool) (sink : MappingSink) : Prop :=
  ∃ held, (Custody.machine ok).replay [] sink.calls = some held ∧ held.Perm sink.regions

/-- The planes of the images lie in their regions. -/
def Covers (sink : MappingSink) : Prop :=
  ∀ (buffer : FrameBufferPtr) (image : Image), sink.mappedBuffers_[buffer]? = some image →
    ∀ span ∈ image.planes_, covered image.maps_ span

private theorem Tracks.step {ok : List Span → Span → Bool} {s s' : MappingSink} {e : MappingEvent} (h : s.Tracks ok)
    (hok : ∀ held, held.Perm s.regions → ∀ span, s.Kept span → ok held span) (hs : step planes s e = some s') :
    s'.Tracks ok := by
  obtain ⟨held, hreplay, hperm⟩ := h
  rcases step_cases hs with ⟨k, buffer, r, image, -, -, -, hmapped, hcalls⟩ | ⟨hmapped, spans, hcalls, hkept⟩
  · obtain ⟨rest, hbefore, hafter⟩ := regions_insert s.mappedBuffers_ buffer image
    obtain ⟨more, hacquire, hmore⟩ := @Custody.replay_acquires Span Span _ ok image.maps_ held
    have hleft : more.Perm ((s.mappedBuffers_[buffer]?.elim [] Image.destructor) ++ (rest ++ image.maps_)) := by
      rw [← List.append_assoc]
      exact hmore.trans ((hperm.trans hbefore).append_right _)
    obtain ⟨held', hrelease, hheld'⟩ := @Custody.replay_releases Span Span _ ok _ _ _ hleft
    refine ⟨held', ?_, ?_⟩
    · rw [hcalls, Machine.replay_append, Machine.replay_append, hreplay, Option.bind_some, hacquire, Option.bind_some,
        hrelease]
    · rw [regions, hmapped]
      exact hheld'.trans (List.perm_append_comm.trans hafter.symm)
  · refine ⟨held, ?_, ?_⟩
    · rw [hcalls, Machine.replay_append, hreplay, Option.bind_some,
        Custody.replay_uses fun span hspan => hok held hperm span (hkept span hspan)]
    · rw [regions, hmapped]
      exact hperm

theorem Covers.step {s s' : MappingSink} {e : MappingEvent} (h : s.Covers) (hfits : PlanesFit planes e)
    (hs : step planes s e = some s') : s'.Covers := by
  rcases step_cases hs with ⟨k, buffer, r, image, rfl, hr, hi, hmapped, -⟩ | ⟨hmapped, -⟩
  · intro buffer' image' hget
    rw [hmapped, Std.TreeMap.getElem?_insert] at hget
    split at hget
    · obtain rfl := Option.some.inj hget
      exact covered_of_mapped hr hi hfits
    · exact h buffer' image' hget
  · intro buffer image hget
    rw [hmapped] at hget
    exact h buffer image hget

/-- The planes of the images lie in what the sink keeps mapped. -/
theorem Covers.covered {s : MappingSink} (h : s.Covers) {held : List Span} (hheld : held.Perm s.regions) {span : Span}
    (hspan : s.Kept span) : covered held span := by
  obtain ⟨buffer, image, hget, hplane⟩ := hspan
  have hcovered := h buffer image hget span hplane
  rw [MappingSink.covered, List.any_eq_true] at hcovered ⊢
  obtain ⟨r, hr, hin⟩ := hcovered
  refine ⟨r, hheld.mem_iff.2 (List.mem_flatMap.2 ⟨(buffer, image), ?_, hr⟩), hin⟩
  exact Std.TreeMap.mem_toList_iff_getElem?_eq_some.2 hget

private theorem Tracks.destructor {ok : List Span → Span → Bool} {s : MappingSink} (h : s.Tracks ok) :
    (Custody.machine ok).replay [] (s.calls ++ s.destructor) = some [] := by
  obtain ⟨held, hreplay, hperm⟩ := h
  have hall : held.Perm (s.regions ++ []) := by
    rw [List.append_nil]
    exact hperm
  obtain ⟨held', hrelease, hnil⟩ := @Custody.replay_releases Span Span _ ok _ _ _ hall
  rw [List.perm_nil.1 hnil] at hrelease
  rw [Machine.replay_append, hreplay]
  exact hrelease

private theorem tracks_init (ok : List Span → Span → Bool) {s : MappingSink} (hs : (machine planes).init s) :
    s.Tracks ok := by
  obtain ⟨hmapped, hcalls⟩ := hs
  refine ⟨[], ?_, ?_⟩
  · rw [hcalls]
    rfl
  · rw [regions, hmapped]
    exact List.Perm.refl _

/-- Over any run of a sink and its destructor, whatever the kernel answers: every region that was mapped is unmapped
once, and no other one.  When the planes that are mapped end within 32 bits, every plane that the sink takes of a frame
lies in a region that is mapped at that time.  A run ends where an assertion fails, and where the sink uses a null image
or asks for a plane that the image does not have. -/
theorem regions_unmapped {s t : MappingSink} {es : List MappingEvent} (hs : (machine planes).init s)
    (hr : (machine planes).Run s es t) :
    (Custody.machine fun _ _ => true).replay [] (t.calls ++ t.destructor) = some [] ∧
      ((machine planes).AllSteps (fun _ => PlanesFit planes) s es →
        (Custody.machine covered).replay [] (t.calls ++ t.destructor) = some []) := by
  constructor
  · exact (hr.invariant (fun _ _ _ h => h.step fun _ _ _ _ => rfl) (tracks_init _ hs)).destructor
  · intro hfits
    have hcovers : s.Covers := by
      intro buffer image hget
      rw [hs.1] at hget
      simp at hget
    have hboth := hr.invariantVia (I := fun s => s.Tracks covered ∧ s.Covers) (G := fun _ => PlanesFit planes)
      (fun _ _ _ h hfits hstep =>
        ⟨h.1.step (fun _ hheld _ hkept => h.2.covered hheld hkept) hstep, h.2.step hfits hstep⟩)
      hfits ⟨tracks_init _ hs, hcovers⟩
    exact hboth.1.destructor

/-- A buffer whose two planes are in one dmabuf, and other buffers with one plane. -/
def somePlanes : FrameBufferPtr → List FrameBufferPlane
  | 1 => [⟨5, 0, 64⟩, ⟨5, 64, 32⟩]
  | _ => [⟨6, 0, 16⟩]

/-- Dmabufs of three pages that are mapped at `address`. -/
def mappedAt (address : Nat) : Dmabufs := ⟨fun _ => 12288, fun _ => by decide, fun _ => true, fun _ => some address⟩

/-- Two buffers are mapped and written, one of them is mapped again in between. -/
def someFrames : List MappingEvent :=
  [.mapBuffer (mappedAt 0x1000) 1, .mapBuffer (mappedAt 0x3000) 2, .writeBuffer 1 true (fun _ => 32) fun _ n => n.toNat,
    .mapBuffer (mappedAt 0x5000) 1, .writeBuffer 1 true (fun _ => 32) fun _ n => n.toNat,
    .writeBuffer 2 true (fun _ => 16) fun _ n => n.toNat]

theorem regions_unmapped_some :
    ∃ t, (machine somePlanes).replay ⟨∅, []⟩ someFrames = some t ∧ t.calls.length = 9 ∧
      (Custody.machine covered).replay [] (t.calls ++ t.destructor) = some [] := by
  have hrun : ((machine somePlanes).replay ⟨∅, []⟩ someFrames).map (·.calls.length) = some 9 := rfl
  obtain ⟨t, ht, hlength⟩ := Option.map_eq_some_iff.1 hrun
  have hfits : ∀ buffer, ∀ plane ∈ somePlanes buffer, plane.offset.toNat + plane.length.toNat < 2 ^ 32 := by
    intro buffer plane hplane
    unfold somePlanes at hplane
    split at hplane
    · simp only [List.mem_cons, List.not_mem_nil, or_false] at hplane
      rcases hplane with rfl | rfl <;> decide
    · rw [List.mem_singleton.1 hplane]
      decide
  have hinit : (machine somePlanes).init ⟨∅, []⟩ := ⟨rfl, rfl⟩
  refine ⟨t, ht, hlength, (regions_unmapped hinit (Machine.run_of_replay ht)).2 ?_⟩
  refine Machine.allSteps_of_forall fun _ e _ => ?_
  cases e with
  | mapBuffer k buffer => exact hfits buffer
  | writeBuffer => trivial
  | renderBuffer => trivial

end MappingSink

end Twincam
