import Twincam.Lib.Search
import Twincam.DrmListing
import Twincam.KmsSink
import Mathlib.Data.List.Nodup

/-!
# Selecting the display pipeline (`kms_sink.cpp`)

The sink picks a connector by name or by status, and then the first encoder of it, CRTC of the encoder and primary
plane of the CRTC that can show the format.  `pipeline_selection` says what these loops over the objects of the device
come to in terms of the listing the kernel gave.
-/

namespace Twincam

open DRM (DrmModeConnector Kernel Listing)
open DRM.Device (Represents hasBit typeValue)
open Libcamera (PixelFormat)
open Libcamera.formats
open Search

namespace KMSSink

/-! ### The loops of the sink -/

/-- The loop of `findRequestedConnector` over the connectors from position `i` on. -/
def findConnector (connectorName : String) : List DRM.Connector → Nat → Option Nat → Option Nat
  | [], _, connector_ => connector_
  | conn :: rest, i, connector_ =>
    if connectorName ≠ "" then
      if conn.name_ ≠ connectorName then findConnector connectorName rest (i + 1) connector_ else some i
    else if conn.status_ = .Connected then some i
    else if connector_.isNone ∧ conn.status_ = .Unknown then findConnector connectorName rest (i + 1) (some i)
    else findConnector connectorName rest (i + 1) connector_

def findRequestedConnector (sink : KMSSink) (connectorName : String) : KMSSink :=
  { sink with connector_ := findConnector connectorName sink.dev_.connectors_ 0 sink.connector_ }

/-- The X variant of a format with an alpha channel, the invalid format for any other; the `switch` compares the
codes of the formats only. -/
def xFormat (format : PixelFormat) : PixelFormat :=
  if format.fourcc = ABGR8888.fourcc then XBGR8888
  else if format.fourcc = ARGB8888.fourcc then XRGB8888
  else if format.fourcc = BGRA8888.fourcc then BGRX8888
  else if format.fourcc = RGBA8888.fourcc then RGBX8888
  else ⟨0, 0⟩

/-- The body of the innermost loop of `selectPipeline`: the CRTC, plane and format it returns with. -/
def tryPlane (dev : DRM.Device) (format : PixelFormat) (crtc plane : Nat) : Option (Nat × Nat × PixelFormat) :=
  match dev.planes_[plane]? with
  | none => none
  | some obj =>
    if obj.type_ ≠ some .TypePrimary then none
    else if obj.supportsFormat format then some (crtc, plane, format)
    else if obj.supportsFormat (xFormat format) then some (crtc, plane, xFormat format)
    else none

/-- The three nested loops of `selectPipeline`. -/
def searchPipeline (dev : DRM.Device) (encoders : List Nat) (format : PixelFormat) :
    Option (Nat × Nat × PixelFormat) :=
  encoders.findSome? fun encoder =>
    ((dev.encoders_[encoder]?).elim [] (·.possibleCrtcs_)).findSome? fun crtc =>
      ((dev.crtcs_[crtc]?).elim [] (·.planes_)).findSome? fun plane => tryPlane dev format crtc plane

/-- `KMSSink::selectPipeline`, which runs with a connector only. -/
def selectPipeline (sink : KMSSink) (format : PixelFormat) : Int × KMSSink :=
  let encoders := (sink.connector_.bind (sink.dev_.connectors_[·]?)).elim [] (·.encoders_)
  match searchPipeline sink.dev_ encoders format with
  | some (crtc, plane, format) => (0, { sink with crtc_ := some crtc, plane_ := some plane, format_ := format })
  | none => (-EPIPE, sink)

def configurePipeline (sink : KMSSink) (format : PixelFormat) : Int × KMSSink := sink.selectPipeline format

/-! ### The connector -/

/-- The connector to pick from a listing: the first with the name, if there is a name, otherwise the first that is
connected, otherwise the first of which it is not known. -/
def requestedConnector (l : Listing) (connectorName : String) : Option Nat :=
  if connectorName ≠ "" then l.connectors.findIdx? fun conn => DRM.connectorName conn = connectorName
  else
    (l.connectors.findIdx? (·.connection = .DRM_MODE_CONNECTED)).or <|
      l.connectors.findIdx? fun conn =>
        conn.connection ≠ .DRM_MODE_CONNECTED ∧ conn.connection ≠ .DRM_MODE_DISCONNECTED

theorem findConnector_name {connectorName : String} (h : connectorName ≠ "") (conns : List DRM.Connector) (i : Nat)
    (connector_ : Option Nat) :
    findConnector connectorName conns i connector_ =
      ((conns.findIdx? (·.name_ = connectorName)).map (· + i)).or connector_ := by
  induction conns generalizing i with
  | nil => rfl
  | cons conn conns ih =>
    rw [findConnector, if_pos h, List.findIdx?_cons]
    by_cases hname : conn.name_ = connectorName
    · simp [hname]
    · simp [hname, ih, Option.map_map, Function.comp_def, Nat.add_assoc, Nat.add_comm 1 i]

theorem findConnector_status (conns : List DRM.Connector) (i : Nat) (connector_ : Option Nat) :
    findConnector "" conns i connector_ =
      ((conns.findIdx? (·.status_ = .Connected)).map (· + i)).or
        (connector_.or ((conns.findIdx? (·.status_ = .Unknown)).map (· + i))) := by
  induction conns generalizing i connector_ with
  | nil => simp [findConnector]
  | cons conn conns ih =>
    have hshift : ∀ o : Option Nat, (o.map (· + 1)).map (· + i) = o.map (· + (i + 1)) := by
      intro o
      rw [Option.map_map]
      congr 1
      funext n
      simp only [Function.comp_apply]
      omega
    rw [findConnector, if_neg (by simp), List.findIdx?_cons, List.findIdx?_cons]
    cases hstatus : conn.status_ with
    | Connected => simp
    | Disconnected =>
      simp only [reduceCtorEq, decide_false, Bool.false_eq_true, if_false, and_false]
      rw [ih, hshift, hshift]
    | Unknown =>
      simp only [reduceCtorEq, decide_false, decide_true, Bool.false_eq_true, if_false, if_true, and_true]
      cases connector_ with
      | none =>
        rw [if_pos Option.isNone_none, ih, hshift]
        simp
      | some c =>
        rw [if_neg (by simp), ih, hshift]
        simp

/-- On a device that represents the listing, the loop picks the requested connector. -/
private theorem findRequestedConnector_eq {k : Kernel} {l : Listing} {sink : KMSSink} (hrep : Represents k l sink.dev_)
    (hnull : sink.connector_ = none) (connectorName : String) :
    (sink.findRequestedConnector connectorName).connector_ = requestedConnector l connectorName := by
  have hzero : ∀ o : Option Nat, o.map (· + 0) = o := by
    intro o
    cases o <;> rfl
  unfold findRequestedConnector requestedConnector
  rw [hrep.connectors, hnull]
  by_cases hname : connectorName = ""
  · subst hname
    have hconn : ∀ conn : DrmModeConnector, DRM.connectorStatus conn.connection = .Connected ↔
        conn.connection = .DRM_MODE_CONNECTED := by
      intro conn
      cases conn.connection <;> simp [DRM.connectorStatus]
    have hunknown : ∀ conn : DrmModeConnector, DRM.connectorStatus conn.connection = .Unknown ↔
        conn.connection ≠ .DRM_MODE_CONNECTED ∧ conn.connection ≠ .DRM_MODE_DISCONNECTED := by
      intro conn
      cases conn.connection <;> simp [DRM.connectorStatus]
    rw [findConnector_status, hzero, hzero, List.findIdx?_map, List.findIdx?_map]
    simp only [DRM.Connector.new, Function.comp_def, hconn, hunknown]
    rfl
  · rw [findConnector_name hname, hzero, List.findIdx?_map, if_pos hname, Option.or_none]
    rfl

/-! ### The pipeline -/

structure Choice where
  encoder : UInt32
  crtc : Nat
  plane : Nat
  format : PixelFormat
deriving DecidableEq

/-- The formats to look for, in order: the requested one, and the X variant of one with an alpha channel. -/
def formats (format : PixelFormat) : List PixelFormat :=
  if format.fourcc = ABGR8888.fourcc then [format, XBGR8888]
  else if format.fourcc = ARGB8888.fourcc then [format, XRGB8888]
  else if format.fourcc = BGRA8888.fourcc then [format, BGRX8888]
  else if format.fourcc = RGBA8888.fourcc then [format, RGBX8888]
  else [format]

/-- All choices for a connector: encoders of the connector, then CRTCs, then planes, then formats. -/
def choices (l : Listing) (conn : DrmModeConnector) (format : PixelFormat) : List Choice :=
  conn.encoders.flatMap fun encoder =>
    (List.range l.crtcs.length).flatMap fun crtc =>
      (List.range l.planes.length).flatMap fun plane =>
        (formats format).map fun format => ⟨encoder, crtc, plane, format⟩

private theorem mem_choices {l : Listing} {conn : DrmModeConnector} {format : PixelFormat} {c : Choice} :
    c ∈ choices l conn format ↔
      c.encoder ∈ conn.encoders ∧ c.crtc < l.crtcs.length ∧ c.plane < l.planes.length ∧ c.format ∈ formats format := by
  unfold choices
  simp only [List.mem_flatMap, List.mem_range, List.mem_map]
  constructor
  · intro h
    obtain ⟨encoder, he, crtc, hc, plane, hp, f, hf, rfl⟩ := h
    exact ⟨he, hc, hp, hf⟩
  · intro h
    obtain ⟨he, hc, hp, hf⟩ := h
    exact ⟨_, he, _, hc, _, hp, _, hf, rfl⟩

/-- The encoder is in the listing and can drive the CRTC, and the plane is primary, can be on the CRTC and lists the
format. -/
def Suitable (k : Kernel) (l : Listing) (c : Choice) : Prop :=
  (∃ encoder ∈ l.encoders, encoder.encoder_id = c.encoder ∧ hasBit encoder.possible_crtcs c.crtc) ∧
    ∃ plane, l.planes[c.plane]? = some plane ∧ typeValue k plane = some DRM.DRM_PLANE_TYPE_PRIMARY ∧
      hasBit plane.possible_crtcs c.crtc ∧ c.format.fourcc ∈ plane.formats

/-- A plane that does not list the format `0` is asked for the formats to look for, in order. -/
private theorem find?_formats {supported : List UInt32} (hzero : 0 ∉ supported) (format : PixelFormat) :
    (formats format).find? (fun f => supported.contains f.fourcc) =
      if supported.contains format.fourcc then some format
      else if supported.contains (xFormat format).fourcc then some (xFormat format)
      else none := by
  have hnone : supported.contains 0 = false := by simpa using hzero
  have htwo : ∀ x : PixelFormat, [format, x].find? (fun f => supported.contains f.fourcc) =
      if supported.contains format.fourcc then some format
      else if supported.contains x.fourcc then some x
      else none := by
    intro x
    simp only [List.find?_cons, List.find?_nil]
    cases supported.contains format.fourcc <;> cases supported.contains x.fourcc <;> rfl
  unfold formats xFormat
  by_cases h₁ : format.fourcc = ABGR8888.fourcc
  · simp only [if_pos h₁, htwo]
  by_cases h₂ : format.fourcc = ARGB8888.fourcc
  · simp only [if_neg h₁, if_pos h₂, htwo]
  by_cases h₃ : format.fourcc = BGRA8888.fourcc
  · simp only [if_neg h₁, if_neg h₂, if_pos h₃, htwo]
  by_cases h₄ : format.fourcc = RGBA8888.fourcc
  · simp only [if_neg h₁, if_neg h₂, if_neg h₃, if_pos h₄, htwo]
  · simp only [if_neg h₁, if_neg h₂, if_neg h₃, if_neg h₄, hnone, List.find?_cons, List.find?_nil]
    cases supported.contains format.fourcc <;> rfl

private theorem tryPlane_eq {k : Kernel} {dev : DRM.Device} {plane : DRM.DrmModePlane} {obj : DRM.Plane} {j : Nat}
    (hobj : dev.planes_[j]? = some obj) (hformats : obj.formats_ = plane.formats) (hzero : 0 ∉ plane.formats)
    (htype : obj.type_ = some .TypePrimary ↔ typeValue k plane = some DRM.DRM_PLANE_TYPE_PRIMARY)
    (format : PixelFormat) (i : Nat) :
    tryPlane dev format i j =
      if typeValue k plane = some DRM.DRM_PLANE_TYPE_PRIMARY then
        ((formats format).find? fun f => plane.formats.contains f.fourcc).map fun f => (i, j, f)
      else none := by
  unfold tryPlane
  simp only [hobj, ne_eq, htype, DRM.Plane.supportsFormat, hformats, find?_formats hzero]
  by_cases hprimary : typeValue k plane = some DRM.DRM_PLANE_TYPE_PRIMARY
  · simp only [hprimary, not_true_eq_false, if_false, if_true]
    cases plane.formats.contains format.fourcc <;> cases plane.formats.contains (xFormat format).fourcc <;> rfl
  · simp only [hprimary, not_false_eq_true, if_true, if_false]

private theorem suitable_iff {k : Kernel} {l : Listing} {encoder : DRM.DrmModeEncoder} {plane : DRM.DrmModePlane}
    {i j : Nat}
    (hencoder : encoder ∈ l.encoders) (hi : hasBit encoder.possible_crtcs i) (hplane : l.planes[j]? = some plane)
    (hj : hasBit plane.possible_crtcs i) (f : PixelFormat) :
    Suitable k l ⟨encoder.encoder_id, i, j, f⟩ ↔
      typeValue k plane = some DRM.DRM_PLANE_TYPE_PRIMARY ∧ plane.formats.contains f.fourcc := by
  rw [List.contains_iff_mem]
  constructor
  · intro h
    obtain ⟨-, plane', hplane', htype, -, hf⟩ := h
    rw [hplane, Option.some.injEq] at hplane'
    subst hplane'
    exact ⟨htype, hf⟩
  · intro h
    obtain ⟨htype, hf⟩ := h
    exact ⟨⟨encoder, hencoder, rfl, hi⟩, plane, hplane, htype, hj, hf⟩

section

variable {k : Kernel} {l : Listing} [DecidablePred (Suitable k l)]

def firstFormat (k : Kernel) (l : Listing) [DecidablePred (Suitable k l)] (format : PixelFormat) (id : UInt32)
    (i j : Nat) : Option (Nat × Nat × PixelFormat) :=
  (((formats format).map fun f => (⟨id, i, j, f⟩ : Choice)).find? fun c => decide (Suitable k l c)).map fun c =>
    (c.crtc, c.plane, c.format)

private theorem firstFormat_eq_none {format : PixelFormat} {id : UInt32} {i j : Nat}
    (h : ∀ f, ¬Suitable k l ⟨id, i, j, f⟩) :
    firstFormat k l format id i j = none := by
  unfold firstFormat
  rw [Option.map_eq_none_iff, List.find?_eq_none]
  intro c hc
  obtain ⟨f, -, rfl⟩ := List.mem_map.1 hc
  simpa using h f

private theorem tryPlane_eq_firstFormat {dev : DRM.Device} (hrep : Represents k l dev) (hw : k.WellFormed l)
    {encoder : DRM.DrmModeEncoder} {plane : DRM.DrmModePlane} {i j : Nat} (hencoder : encoder ∈ l.encoders)
    (hi : hasBit encoder.possible_crtcs i) (hplane : l.planes[j]? = some plane) (hj : hasBit plane.possible_crtcs i)
    (format : PixelFormat) :
    tryPlane dev format i j = firstFormat k l format encoder.encoder_id i j := by
  obtain ⟨obj, hobj, hformats, htype⟩ := hrep.plane j plane hplane
  have hzero := hw.formats_ne plane (List.mem_of_getElem? hplane)
  have hsuit := suitable_iff (k := k) hencoder hi hplane hj
  rw [tryPlane_eq hobj hformats hzero htype]
  by_cases hprimary : typeValue k plane = some DRM.DRM_PLANE_TYPE_PRIMARY
  · rw [if_pos hprimary, firstFormat, List.find?_map, Option.map_map]
    simp only [Function.comp_def, hsuit, hprimary, true_and, Bool.decide_eq_true]
  · rw [if_neg hprimary, firstFormat_eq_none]
    intro f hf
    exact hprimary ((hsuit f).1 hf).1

/-- The two inner loops, over the CRTCs of an encoder and the planes of a CRTC. -/
private theorem crtcs_loop_eq {dev : DRM.Device} (hrep : Represents k l dev) (hw : k.WellFormed l)
    {encoder : DRM.DrmModeEncoder} (hencoder : encoder ∈ l.encoders) (format : PixelFormat) :
    ((List.range l.crtcs.length).filter (hasBit encoder.possible_crtcs)).findSome? (fun i =>
        ((dev.crtcs_[i]?).elim [] (·.planes_)).findSome? fun j => tryPlane dev format i j) =
      (List.range l.crtcs.length).findSome? fun i =>
        (List.range l.planes.length).findSome? fun j => firstFormat k l format encoder.encoder_id i j := by
  have hunique : ∀ e ∈ l.encoders, e.encoder_id = encoder.encoder_id → e = encoder := by
    have hnodup : (l.encoders.map (·.encoder_id)).Nodup := by
      have hids := hw.ids_nodup
      unfold DRM.Listing.ids at hids
      exact (List.nodup_append.1 (List.nodup_append.1 hids).2.1).1
    intro e he heq
    exact List.inj_on_of_nodup_map hnodup he hencoder heq
  rw [findSome?_filter]
  apply findSome?_congr
  intro i hi
  rw [List.mem_range] at hi
  by_cases hbit : hasBit encoder.possible_crtcs i = true
  · obtain ⟨crtc, hcrtc, hplanes⟩ := hrep.crtc i hi
    rw [if_pos hbit, hcrtc, Option.elim_some, hplanes, findSome?_filter]
    apply findSome?_congr
    intro j hj
    rw [List.mem_range] at hj
    have hplane : l.planes[j]? = some l.planes[j] := List.getElem?_eq_getElem hj
    rw [hplane, Option.any_some]
    by_cases hmask : hasBit l.planes[j].possible_crtcs i = true
    · rw [if_pos hmask]
      exact tryPlane_eq_firstFormat hrep hw hencoder hbit hplane hmask format
    · rw [if_neg hmask, firstFormat_eq_none]
      rintro f ⟨-, plane, hplane', -, hmask', -⟩
      rw [hplane, Option.some.injEq] at hplane'
      rw [← hplane'] at hmask'
      exact hmask hmask'
  · -- no encoder with this id can drive the CRTC
    rw [if_neg hbit, eq_comm, List.findSome?_eq_none_iff]
    intro j _
    apply firstFormat_eq_none
    rintro f ⟨⟨e, he, hid, hbit'⟩, -⟩
    rw [hunique e he hid] at hbit'
    exact hbit hbit'

/-- The loops over the objects find the first suitable choice. -/
private theorem searchPipeline_eq {dev : DRM.Device} (hrep : Represents k l dev) (hw : k.WellFormed l)
    (conn : DrmModeConnector) (format : PixelFormat) :
    searchPipeline dev (conn.encoders.filterMap fun id => l.encoders.findIdx? (·.encoder_id = id)) format =
      ((choices l conn format).find? fun c => decide (Suitable k l c)).map fun c => (c.crtc, c.plane, c.format) := by
  have hchoices : ((choices l conn format).find? fun c => decide (Suitable k l c)).map
        (fun c => (c.crtc, c.plane, c.format)) =
      conn.encoders.findSome? fun id => (List.range l.crtcs.length).findSome? fun i =>
        (List.range l.planes.length).findSome? fun j => firstFormat k l format id i j := by
    simp only [choices, List.find?_flatMap, List.map_findSome?, Function.comp_def]
    rfl
  rw [hchoices, searchPipeline, findSome?_filterMap]
  apply findSome?_congr
  intro id _
  cases hfind : l.encoders.findIdx? (·.encoder_id = id) with
  | none =>
    have hnone : ∀ e ∈ l.encoders, e.encoder_id ≠ id := by simpa using hfind
    rw [Option.bind_none, eq_comm, List.findSome?_eq_none_iff]
    intro i _
    rw [List.findSome?_eq_none_iff]
    intro j _
    apply firstFormat_eq_none
    rintro f ⟨⟨e, he, hid, -⟩, -⟩
    exact hnone e he hid
  | some x =>
    obtain ⟨hx, hid, -⟩ := List.findIdx?_eq_some_iff_getElem.1 hfind
    obtain ⟨obj, hobj, hcrtcs⟩ := hrep.encoder x l.encoders[x] (List.getElem?_eq_getElem hx)
    have hencoder : l.encoders[x] ∈ l.encoders := List.getElem_mem hx
    rw [Option.bind_some, hobj, Option.elim_some, hcrtcs, crtcs_loop_eq hrep hw hencoder, of_decide_eq_true hid]

end

private theorem requestedConnector_lt {l : Listing} {connectorName : String} {n : Nat}
    (h : requestedConnector l connectorName = some n) : n < l.connectors.length := by
  have hlt : ∀ {p : DrmModeConnector → Bool}, l.connectors.findIdx? p = some n → n < l.connectors.length := by
    intro p hp
    exact (List.findIdx?_eq_some_iff_getElem.1 hp).1
  unfold requestedConnector at h
  by_cases hname : connectorName = ""
  · rw [if_neg (by simpa using hname), Option.or_eq_some_iff] at h
    rcases h with h | ⟨-, h⟩
    · exact hlt h
    · exact hlt h
  · rw [if_pos hname] at h
    exact hlt h

/-- The first suitable choice for the connector is selected, and the sink stays as it is if there is none. -/
private theorem selectPipeline_eq {k : Kernel} {l : Listing} {sink : KMSSink} (hrep : Represents k l sink.dev_)
    (hw : k.WellFormed l) {n : Nat} (hn : sink.connector_ = some n) {conn : DrmModeConnector}
    (hconn : l.connectors[n]? = some conn) (format : PixelFormat) :
    (∃ c, First (Suitable k l) (choices l conn format) c ∧ sink.selectPipeline format =
        (0, { sink with crtc_ := some c.crtc, plane_ := some c.plane, format_ := c.format })) ∨
      (∀ c ∈ choices l conn format, ¬Suitable k l c) ∧ sink.selectPipeline format = (-EPIPE, sink) := by
  classical
  have hencoders : (sink.connector_.bind (sink.dev_.connectors_[·]?)).elim [] (·.encoders_) =
      conn.encoders.filterMap fun id => l.encoders.findIdx? (·.encoder_id = id) := by
    have hget : sink.dev_.connectors_[n]? = some (DRM.Connector.new k sink.dev_.encoders_ conn) := by
      rw [hrep.connectors, List.getElem?_map, hconn, Option.map_some]
    have hids : ∀ id, sink.dev_.encoders_.findIdx? (·.id_ = id) = l.encoders.findIdx? (·.encoder_id = id) := by
      intro id
      have hmap := congrArg (List.findIdx? fun id' => decide (id' = id)) hrep.encoder_ids
      rw [List.findIdx?_map, List.findIdx?_map] at hmap
      exact hmap
    rw [hn, Option.bind_some, hget, Option.elim_some]
    simp only [DRM.Connector.new, hids]
  unfold selectPipeline
  dsimp only
  rw [hencoders, searchPipeline_eq hrep hw]
  cases hfind : (choices l conn format).find? fun c => decide (Suitable k l c) with
  | none =>
    right
    exact ⟨by simpa using hfind, rfl⟩
  | some c =>
    left
    exact ⟨c, find?_eq_some_iff_first.1 hfind, rfl⟩

/-- For a well-formed listing, the sink picks the requested connector, and selects a pipeline exactly when there is a
suitable choice for it, then the first one. -/
theorem pipeline_selection {k : Kernel} {l : Listing} (hl : k.listing = .ok l) (hw : k.WellFormed l) {sink : KMSSink}
    (hget : DRM.Device.getResources k = .ok sink.dev_) (hnull : sink.connector_ = none) (connectorName : String)
    (format : PixelFormat) :
    let sink' := sink.findRequestedConnector connectorName
    sink'.connector_ = requestedConnector l connectorName ∧
      ∀ n, sink'.connector_ = some n → ∃ conn, l.connectors[n]? = some conn ∧
        ((sink'.selectPipeline format).1 = 0 ↔ ∃ c ∈ choices l conn format, Suitable k l c) ∧
        ((sink'.selectPipeline format).1 = 0 → ∃ c, First (Suitable k l) (choices l conn format) c ∧
          (sink'.selectPipeline format).2 =
            { sink' with crtc_ := some c.crtc, plane_ := some c.plane, format_ := c.format }) ∧
        ((sink'.selectPipeline format).1 ≠ 0 → sink'.selectPipeline format = (-EPIPE, sink')) := by
  intro sink'
  have hrep := DRM.Device.represents_of_getResources hl hw hget
  have hpicked := findRequestedConnector_eq hrep hnull connectorName
  refine ⟨hpicked, ?_⟩
  intro n hn
  have hlt := requestedConnector_lt (hpicked.symm.trans hn)
  refine ⟨l.connectors[n], List.getElem?_eq_getElem hlt, ?_⟩
  have hrep' : Represents k l sink'.dev_ := hrep
  rcases selectPipeline_eq hrep' hw hn (List.getElem?_eq_getElem hlt) format with ⟨c, hfirst, hsel⟩ | ⟨hno, hsel⟩
  · obtain ⟨before, after, hsplit, hc, -⟩ := id hfirst
    have hmem : c ∈ choices l l.connectors[n] format := by
      rw [hsplit]
      exact List.mem_append_right _ List.mem_cons_self
    rw [hsel]
    exact ⟨⟨fun _ => ⟨c, hmem, hc⟩, fun _ => rfl⟩, fun _ => ⟨c, hfirst, rfl⟩, fun hne => absurd rfl hne⟩
  · have hne : (-EPIPE : Int) ≠ 0 := by decide
    rw [hsel]
    refine ⟨⟨fun h => absurd h hne, ?_⟩, fun h => absurd h hne, fun _ => rfl⟩
    intro h
    obtain ⟨c, hc, hsuit⟩ := h
    exact absurd hsuit (hno c hc)

/-- A display behind one encoder and one CRTC, with one primary plane that knows a format without alpha. -/
def oneDisplayKernel : Kernel where
  drmModeGetResources := .ok ⟨[1], [2], [3]⟩
  drmModeGetCrtc id := if id = 1 then .ok ⟨1⟩ else .error ⟨2, by decide⟩
  drmModeGetEncoder id := if id = 2 then .ok ⟨2, 1⟩ else .error ⟨2, by decide⟩
  drmModeGetConnector id :=
    if id = 3 then .ok ⟨3, 11, 1, .DRM_MODE_CONNECTED, [2], []⟩ else .error ⟨2, by decide⟩
  drmModeGetPlaneResources := .ok [4]
  drmModeGetPlane id := if id = 4 then .ok ⟨4, 1, [XRGB8888.fourcc]⟩ else .error ⟨2, by decide⟩
  drmModeObjectGetProperties id _ := if id = 4 then some [⟨5, DRM.DRM_PLANE_TYPE_PRIMARY⟩] else none
  drmModeGetProperty id := if id = 5 then .ok ⟨5, "type"⟩ else .error ⟨2, by decide⟩

def oneDisplayListing : Listing :=
  ⟨[⟨1⟩], [⟨2, 1⟩], [⟨3, 11, 1, .DRM_MODE_CONNECTED, [2], []⟩], [⟨4, 1, [XRGB8888.fourcc]⟩]⟩

private theorem wellFormed_oneDisplay : oneDisplayKernel.WellFormed oneDisplayListing := by
  have hproperty : ∀ id property, oneDisplayKernel.drmModeGetProperty id = .ok property →
      id = 5 ∧ property = ⟨5, "type"⟩ := by
    intro id property h
    simp only [oneDisplayKernel] at h
    split at h
    · exact ⟨‹_›, (Except.ok.inj h).symm⟩
    · cases h
  refine ⟨by decide, ?_, ?_, by decide, ?_⟩
  · intro id property h
    obtain ⟨rfl, rfl⟩ := hproperty id property h
    rfl
  · intro id property h
    obtain ⟨rfl, -⟩ := hproperty id property h
    decide
  · intro plane hplane
    rw [oneDisplayListing, List.mem_singleton] at hplane
    subst hplane
    decide

/-- For an alpha format, the X variant is found on the one display. -/
theorem pipeline_selection_oneDisplay :
    ∃ dev, DRM.Device.getResources oneDisplayKernel = .ok dev ∧
      (((ofDevice dev).findRequestedConnector "").selectPipeline ARGB8888).1 = 0 := by
  refine ⟨_, rfl, ?_⟩
  have hget : DRM.Device.getResources oneDisplayKernel = .ok (ofDevice _).dev_ := rfl
  obtain ⟨-, hsel⟩ := pipeline_selection rfl wellFormed_oneDisplay hget rfl "" ARGB8888
  obtain ⟨conn, hconn, hzero, -⟩ := hsel 0 rfl
  have hconn' : conn = ⟨3, 11, 1, .DRM_MODE_CONNECTED, [2], []⟩ := (Option.some.inj hconn).symm
  subst hconn'
  have hmem : ⟨2, 0, 0, XRGB8888⟩ ∈ choices oneDisplayListing ⟨3, 11, 1, .DRM_MODE_CONNECTED, [2], []⟩ ARGB8888 :=
    mem_choices.2 ⟨List.mem_singleton_self _, by decide, by decide, by decide⟩
  refine hzero.2 ⟨⟨2, 0, 0, XRGB8888⟩, hmem, ⟨⟨2, 1⟩, ?_, rfl, rfl⟩, ?_⟩
  · exact List.mem_singleton_self _
  · exact ⟨⟨4, 1, [XRGB8888.fourcc]⟩, rfl, rfl, rfl, List.mem_singleton_self _⟩

end KMSSink

end Twincam
