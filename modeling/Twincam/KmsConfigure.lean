import Twincam.KmsPipeline
import Twincam.KmsRun

/-!
# Configuring the KMS sink (the constructor and `KMSSink::configure` in `kms_sink.cpp`)

The constructor picks a connector of the device, and `configure` a pipeline and the first mode of the connector.

* `configured_mode_iff`: no selection path looks at the modes before the first one is taken, so a connector without
  modes is used all the same.
* `rectangles_exact_iff`: the offsets are computed in 32 bits without a sign, so the rectangle is right exactly when
  the stream is no larger than the mode.
-/

namespace Twincam

open DRM (Mode)
open DRM.AtomicRequest (Change)
open Libcamera (PixelFormat Size StreamConfiguration FrameBufferPtr)
open Search

namespace KMSSink

/-- `KMSSink::KMSSink`, with what `dev_.init()` came to. -/
def new (init : Except Int DRM.Device) (connectorName : String) : KMSSink :=
  match init with
  | .error _ => ofDevice DRM.Device.empty
  | .ok dev => (ofDevice dev).findRequestedConnector connectorName

/-- `KMSSink::configure` with the first stream of the configuration; `none` when it takes the first mode of an empty
list. -/
def configure (sink : KMSSink) (cfg : StreamConfiguration) : Option (Int × KMSSink) :=
  match sink.connector_ with
  | none => some (-EINVAL, sink)
  | some connector =>
    let sink := { sink with crtc_ := none, plane_ := none, mode_ := none }
    let modes := (sink.dev_.connectors_[connector]?).elim [] (·.modes_)
    let (ret, sink) := sink.configurePipeline cfg.pixelFormat
    if ret < 0 then some (ret, sink)
    else
      match modes with
      | [] => none
      | mode :: _ =>
        some (0, { sink with
          mode_ := some 0
          size_ := cfg.size
          x_ := (mode.hdisplay.toUInt32 - cfg.size.width) / 2
          y_ := (mode.vdisplay.toUInt32 - cfg.size.height) / 2
          stride_ := cfg.stride })

/-! ### The path to a mode -/

/-- The connector is the one to pick: the first with the name, if there is a name, otherwise the first that is
connected, otherwise the first of unknown status. -/
def Requested (connectorName : String) (conns : List DRM.Connector) (conn : DRM.Connector) : Prop :=
  if connectorName ≠ "" then First (·.name_ = connectorName) conns conn
  else First (·.status_ = .Connected) conns conn ∨
    (∀ c ∈ conns, c.status_ ≠ .Connected) ∧ First (·.status_ = .Unknown) conns conn

/-- The plane is primary and knows the format or its X variant. -/
def Shows (dev : DRM.Device) (format : PixelFormat) (plane : Nat) : Prop :=
  ∃ obj, dev.planes_[plane]? = some obj ∧ obj.type_ = some .TypePrimary ∧
    (obj.supportsFormat format = true ∨ obj.supportsFormat (xFormat format) = true)

/-- An encoder of the connector leads over a CRTC to a plane that shows the format. -/
def Displayable (dev : DRM.Device) (conn : DRM.Connector) (format : PixelFormat) : Prop :=
  ∃ encoder ∈ conn.encoders_, ∃ e, dev.encoders_[encoder]? = some e ∧ ∃ crtc ∈ e.possibleCrtcs_,
    ∃ c, dev.crtcs_[crtc]? = some c ∧ ∃ plane ∈ c.planes_, Shows dev format plane

private theorem tryPlane_isSome {dev : DRM.Device} {format : PixelFormat} {crtc plane : Nat} :
    (tryPlane dev format crtc plane).isSome = true ↔ Shows dev format plane := by
  unfold tryPlane Shows
  cases hobj : dev.planes_[plane]? with
  | none => simp
  | some obj =>
    by_cases htype : obj.type_ = some .TypePrimary
    · by_cases hformat : obj.supportsFormat format = true
      · simp [htype, hformat]
      · by_cases hx : obj.supportsFormat (xFormat format) = true
        · simp [htype, hformat, hx]
        · simp [htype, hformat, hx]
    · simp [htype]

private theorem searchPipeline_isSome {dev : DRM.Device} {conn : DRM.Connector} {format : PixelFormat} :
    (searchPipeline dev conn.encoders_ format).isSome = true ↔ Displayable dev conn format := by
  have helim : ∀ {α : Type} (o : Option α) (f : α → List Nat) (i : Nat),
      i ∈ o.elim [] f ↔ ∃ a, o = some a ∧ i ∈ f a := by
    intro α o f i
    cases o <;> simp
  unfold searchPipeline Displayable
  simp only [List.findSome?_isSome_iff, helim, tryPlane_isSome]
  constructor
  · rintro ⟨encoder, hencoder, crtc, ⟨e, he, hcrtc⟩, plane, ⟨c, hc, hplane⟩, hshows⟩
    exact ⟨encoder, hencoder, e, he, crtc, hcrtc, c, hc, plane, hplane, hshows⟩
  · rintro ⟨encoder, hencoder, e, he, crtc, hcrtc, c, hc, plane, hplane, hshows⟩
    exact ⟨encoder, hencoder, crtc, ⟨e, he, hcrtc⟩, plane, ⟨c, hc, hplane⟩, hshows⟩

/-- The constructor picks the requested connector, if there is one. -/
private theorem connector_new (dev : DRM.Device) (connectorName : String) :
    (∃ n conn, (new (.ok dev) connectorName).connector_ = some n ∧ dev.connectors_[n]? = some conn ∧
        ∀ c, Requested connectorName dev.connectors_ c ↔ c = conn) ∨
      ((new (.ok dev) connectorName).connector_ = none ∧ ∀ c, ¬Requested connectorName dev.connectors_ c) := by
  have hzero : ∀ o : Option Nat, o.map (· + 0) = o := by
    intro o
    cases o <;> rfl
  have hpicked : (new (.ok dev) connectorName).connector_ = findConnector connectorName dev.connectors_ 0 none := rfl
  rw [hpicked]
  unfold Requested
  by_cases hname : connectorName = ""
  · subst hname
    rw [findConnector_status, hzero, hzero, Option.none_or]
    simp only [ne_eq, not_true_eq_false, if_false]
    rcases findIdx?_cases (fun c : DRM.Connector => c.status_ = .Connected) dev.connectors_ with
      ⟨n, conn, hidx, hconn, hfirst⟩ | ⟨hidx, hfirst, hno⟩
    · -- a connector is connected
      obtain ⟨before, after, hsplit, hstatus, -⟩ := (hfirst conn).2 rfl
      have hmem : conn ∈ dev.connectors_ := by
        rw [hsplit]
        simp
      left
      refine ⟨n, conn, by rw [hidx, Option.some_or], hconn, ?_⟩
      intro c
      rw [hfirst]
      exact or_iff_left fun h => h.1 conn hmem hstatus
    · simp only [hidx, Option.none_or, hfirst, false_or, and_iff_right hno]
      rcases findIdx?_cases (fun c : DRM.Connector => c.status_ = .Unknown) dev.connectors_ with
        ⟨n, conn, hidx', hconn, hfirst'⟩ | ⟨hidx', hfirst', -⟩
      · exact Or.inl ⟨n, conn, hidx', hconn, hfirst'⟩
      · exact Or.inr ⟨hidx', hfirst'⟩
  · rw [findConnector_name hname, hzero, Option.or_none]
    simp only [ne_eq, hname, not_false_eq_true, if_true]
    rcases findIdx?_cases (fun c : DRM.Connector => c.name_ = connectorName) dev.connectors_ with
      ⟨n, conn, hidx, hconn, hfirst⟩ | ⟨hidx, hfirst, -⟩
    · exact Or.inl ⟨n, conn, hidx, hconn, hfirst⟩
    · exact Or.inr ⟨hidx, hfirst⟩

/-- `selectPipeline` fails exactly when the connector cannot display the format. -/
private theorem selectPipeline_cases (sink : KMSSink) {n : Nat} (hn : sink.connector_ = some n) {conn : DRM.Connector}
    (hconn : sink.dev_.connectors_[n]? = some conn) (format : PixelFormat) :
    (Displayable sink.dev_ conn format ∧ ∃ crtc plane f, sink.selectPipeline format =
        (0, { sink with crtc_ := some crtc, plane_ := some plane, format_ := f })) ∨
      (¬Displayable sink.dev_ conn format ∧ sink.selectPipeline format = (-EPIPE, sink)) := by
  unfold selectPipeline
  dsimp only
  rw [hn, Option.bind_some, hconn, Option.elim_some, ← searchPipeline_isSome]
  cases searchPipeline sink.dev_ conn.encoders_ format with
  | none => exact Or.inr ⟨nofun, rfl⟩
  | some found =>
    obtain ⟨crtc, plane, f⟩ := found
    exact Or.inl ⟨rfl, crtc, plane, f, rfl⟩

/-- All that `configure` can do with a connector: fail, use the first mode, or take a mode that is not there. -/
private theorem configure_cases (sink : KMSSink) {n : Nat} (hn : sink.connector_ = some n) {conn : DRM.Connector}
    (hconn : sink.dev_.connectors_[n]? = some conn) (cfg : StreamConfiguration) :
    (¬Displayable sink.dev_ conn cfg.pixelFormat ∧ ∃ sink', sink.configure cfg = some (-EPIPE, sink')) ∨
      (Displayable sink.dev_ conn cfg.pixelFormat ∧ conn.modes_ = [] ∧ sink.configure cfg = none) ∨
      ∃ mode modes crtc plane f, Displayable sink.dev_ conn cfg.pixelFormat ∧ conn.modes_ = mode :: modes ∧
        sink.configure cfg = some (0, { sink with
          crtc_ := some crtc
          plane_ := some plane
          format_ := f
          mode_ := some 0
          size_ := cfg.size
          x_ := (mode.hdisplay.toUInt32 - cfg.size.width) / 2
          y_ := (mode.vdisplay.toUInt32 - cfg.size.height) / 2
          stride_ := cfg.stride }) := by
  unfold configure configurePipeline
  rw [hn]
  dsimp only
  rw [hconn, Option.elim_some]
  rcases selectPipeline_cases { sink with crtc_ := none, plane_ := none, mode_ := none } hn hconn cfg.pixelFormat with
    ⟨hdisp, crtc, plane, f, hsel⟩ | ⟨hdisp, hsel⟩
  · have hneg : ¬(0 : Int) < 0 := by omega
    rw [hn] at hsel
    rw [hsel]
    dsimp only
    rw [if_neg hneg]
    cases hmodes : conn.modes_ with
    | nil => exact Or.inr (Or.inl ⟨hdisp, rfl, rfl⟩)
    | cons mode modes => exact Or.inr (Or.inr ⟨mode, modes, crtc, plane, f, hdisp, rfl, rfl⟩)
  · left
    have hneg : -EPIPE < 0 := by decide
    rw [hn] at hsel
    rw [hsel]
    dsimp only
    rw [if_pos hneg]
    exact ⟨hdisp, _, rfl⟩

/-- The sink is refused with a negative error, or refers to a mode of its connector. -/
def RefusedOrHasMode (result : Option (Int × KMSSink)) : Prop :=
  ∃ ret sink, result = some (ret, sink) ∧ (ret < 0 ∨ ∃ n conn i mode, sink.connector_ = some n ∧
    sink.dev_.connectors_[n]? = some conn ∧ sink.mode_ = some i ∧ conn.modes_[i]? = some mode)

/-- A sink is refused or has a real mode if and only if the device could not be listed, or the requested connector, if
there is one, has a mode or cannot display the format. -/
theorem configured_mode_iff (init : Except Int DRM.Device) (connectorName : String) (cfg : StreamConfiguration) :
    RefusedOrHasMode ((new init connectorName).configure cfg) ↔
      ∀ dev conn, init = .ok dev → Requested connectorName dev.connectors_ conn →
        Displayable dev conn cfg.pixelFormat → conn.modes_ ≠ [] := by
  cases init with
  | error e =>
    refine iff_of_true ⟨-EINVAL, _, rfl, Or.inl (by decide)⟩ ?_
    intro dev conn hdev
    cases hdev
  | ok dev =>
    rcases connector_new dev connectorName with ⟨n, conn, hn, hconn, hreq⟩ | ⟨hnone, hreq⟩
    · have hdev : (new (.ok dev) connectorName).dev_ = dev := rfl
      have hcases := configure_cases (new (.ok dev) connectorName) hn hconn cfg
      rw [hdev] at hcases
      have hright : (∀ dev' c, Except.ok dev = Except.ok (ε := Int) dev' →
          Requested connectorName dev'.connectors_ c → Displayable dev' c cfg.pixelFormat → c.modes_ ≠ []) ↔
          (Displayable dev conn cfg.pixelFormat → conn.modes_ ≠ []) := by
        constructor
        · intro h
          exact h dev conn rfl ((hreq conn).2 rfl)
        · rintro h dev' c hdev' hc
          cases hdev'
          rw [(hreq c).1 hc]
          exact h
      rw [hright]
      rcases hcases with ⟨hdisp, sink', heq⟩ | ⟨hdisp, hmodes, heq⟩ | ⟨mode, modes, crtc, plane, f, -, hmodes, heq⟩
      · rw [heq]
        exact iff_of_true ⟨_, _, rfl, Or.inl (by decide)⟩ fun h => absurd h hdisp
      · -- the first mode of an empty list
        rw [heq]
        refine iff_of_false ?_ fun h => h hdisp hmodes
        rintro ⟨ret, sink, h, -⟩
        cases h
      · rw [heq]
        refine iff_of_true ⟨0, _, rfl, Or.inr ⟨n, conn, 0, mode, hn, hconn, rfl, ?_⟩⟩ fun _ => ?_
        · rw [hmodes]
          rfl
        · rw [hmodes]
          exact List.cons_ne_nil mode modes
    · have hconfigure : (new (.ok dev) connectorName).configure cfg = some (-EINVAL, new (.ok dev) connectorName) := by
        rw [configure, hnone]
      rw [hconfigure]
      refine iff_of_true ⟨_, _, rfl, Or.inl (by decide)⟩ ?_
      rintro dev' c hdev' hc
      cases hdev'
      exact absurd hc (hreq c)

/-- The display of `oneDisplayKernel` is connected and lists no mode: the sink is configured with the first one. -/
theorem connector_without_modes :
    ∃ (card : DRM.Device.Card) (dev : DRM.Device) (conn : DRM.Connector) (cfg : StreamConfiguration),
      DRM.Device.init card = .ok dev ∧ Requested "" dev.connectors_ conn ∧ conn.modes_ = [] ∧
      (new (DRM.Device.init card) "").configure cfg = none ∧
      ¬RefusedOrHasMode ((new (DRM.Device.init card) "").configure cfg) := by
  have hconfigure : (new (DRM.Device.init ⟨3, .ok (), oneDisplayKernel⟩) "").configure
      ⟨0, Libcamera.formats.XRGB8888, ⟨640, 480⟩, 2560⟩ = none := rfl
  refine ⟨⟨3, .ok (), oneDisplayKernel⟩, _, DRM.Connector.new oneDisplayKernel [⟨⟨2, []⟩, [0]⟩]
    ⟨3, 11, 1, .DRM_MODE_CONNECTED, [2], []⟩, _, rfl, ?_, rfl, hconfigure, ?_⟩
  · exact Or.inl ⟨[], [], rfl, rfl, by simp⟩
  · rw [hconfigure]
    rintro ⟨ret, sink, h, -⟩
    cases h

/-! ### The rectangle on the display -/

/-- A 32-bit property value, read as a signed 64-bit one. -/
private theorem toInt_widened (x : UInt32) : x.toUInt64.toInt64.toInt = x.toNat := by
  have hlt := x.toNat_lt
  rw [Int64.toInt, UInt64.toBitVec_toInt64, BitVec.toInt_eq_toNat_bmod, UInt64.toNat_toBitVec, UInt32.toNat_toUInt64,
    Int.bmod_def]
  omega

/-- Half of the difference centres the stream exactly when the difference does not wrap around. -/
private theorem offset_exact_iff (display : UInt16) (size : UInt32) :
    (2 * ((display.toUInt32 - size) / 2).toUInt64.toInt64.toInt + size.toNat - display.toNat).natAbs ≤ 1 ↔
      size.toNat ≤ display.toNat := by
  have hdisplay := display.toNat_lt
  have hsize := size.toNat_lt
  have htwo : (2 : UInt32).toNat = 2 := rfl
  rw [toInt_widened, UInt32.toNat_div, UInt32.toNat_sub, UInt16.toNat_toUInt32, htwo]
  omega

private theorem source_exact {size : UInt32} (h : size.toNat < 2 ^ 16) :
    (size <<< 16).toUInt64.toNat = size.toNat * 65536 := by
  have hsixteen : (16 : UInt32).toNat = 16 := rfl
  have hpow : 2 ^ (16 % 32) = 65536 := rfl
  rw [UInt32.toNat_toUInt64, UInt32.toNat_shiftLeft, hsixteen, Nat.shiftLeft_eq, hpow]
  omega

/-- The rectangle that the changes program is centred on the mode, and shows the whole stream. -/
structure Exact (mode : Mode) (size : Size) (changes : List Change) : Prop where
  crtc_x : ∀ object value, (object, "CRTC_X", value) ∈ changes →
    (2 * value.toInt64.toInt + size.width.toNat - mode.hdisplay.toNat).natAbs ≤ 1
  crtc_y : ∀ object value, (object, "CRTC_Y", value) ∈ changes →
    (2 * value.toInt64.toInt + size.height.toNat - mode.vdisplay.toNat).natAbs ≤ 1
  src_w : ∀ object value, (object, "SRC_W", value) ∈ changes → value.toNat = size.width.toNat * 65536
  src_h : ∀ object value, (object, "SRC_H", value) ∈ changes → value.toNat = size.height.toNat * 65536

/-- The members of the sink that the rectangle is made of, as `configure` sets them for a mode and a size. -/
def Placed (mode : Mode) (size : Size) (sink : KMSSink) : Prop :=
  sink.size_ = size ∧ sink.x_ = (mode.hdisplay.toUInt32 - size.width) / 2 ∧
    sink.y_ = (mode.vdisplay.toUInt32 - size.height) / 2

/-- The values that a frame can add for the rectangle. -/
private theorem rectangle_values {sink : KMSSink} {drmBuffer : DRM.FrameBuffer} {c : Change}
    (h : c ∈ sink.frameChanges drmBuffer) :
    (c.2.1 = "CRTC_X" → c.2.2 = sink.x_.toUInt64) ∧ (c.2.1 = "CRTC_Y" → c.2.2 = sink.y_.toUInt64) ∧
      (c.2.1 = "SRC_W" → c.2.2 = (sink.size_.width <<< 16).toUInt64) ∧
      (c.2.1 = "SRC_H" → c.2.2 = (sink.size_.height <<< 16).toUInt64) := by
  unfold frameChanges at h
  rcases List.mem_cons.1 h with rfl | h
  · simp
  · by_cases hfirst : (sink.active_.isNone && sink.queued_.isNone) = true
    · rw [if_pos hfirst] at h
      simp only [List.mem_cons, List.not_mem_nil, or_false] at h
      rcases h with rfl | rfl | rfl | rfl | rfl | rfl | rfl | rfl | rfl
      all_goals simp
    · rw [if_neg hfirst] at h
      cases h

/-- The first frame adds the offsets. -/
private theorem mem_frameChanges {sink : KMSSink} (ha : sink.active_ = none) (hq : sink.queued_ = none)
    (drmBuffer : DRM.FrameBuffer) :
    (sink.planeObject, "CRTC_X", sink.x_.toUInt64) ∈ sink.frameChanges drmBuffer ∧
      (sink.planeObject, "CRTC_Y", sink.y_.toUInt64) ∈ sink.frameChanges drmBuffer := by
  simp [frameChanges, ha, hq]

/-- A stream no larger than the mode is placed exactly by every frame. -/
private theorem Placed.exact {mode : Mode} {size : Size} {sink : KMSSink} (h : Placed mode size sink)
    (hwidth : size.width.toNat ≤ mode.hdisplay.toNat) (hheight : size.height.toNat ≤ mode.vdisplay.toNat)
    (drmBuffer : DRM.FrameBuffer) : Exact mode size (sink.frameChanges drmBuffer) := by
  obtain ⟨hsize, hx, hy⟩ := h
  have hhdisplay := mode.hdisplay.toNat_lt
  have hvdisplay := mode.vdisplay.toNat_lt
  refine ⟨?_, ?_, ?_, ?_⟩
  · intro object value hmem
    have hvalue : value = sink.x_.toUInt64 := (rectangle_values hmem).1 rfl
    rw [hvalue, hx]
    exact (offset_exact_iff _ _).2 hwidth
  · intro object value hmem
    have hvalue : value = sink.y_.toUInt64 := (rectangle_values hmem).2.1 rfl
    rw [hvalue, hy]
    exact (offset_exact_iff _ _).2 hheight
  · intro object value hmem
    have hvalue : value = (sink.size_.width <<< 16).toUInt64 := (rectangle_values hmem).2.2.1 rfl
    rw [hvalue, hsize]
    exact source_exact (by omega)
  · intro object value hmem
    have hvalue : value = (sink.size_.height <<< 16).toUInt64 := (rectangle_values hmem).2.2.2 rfl
    rw [hvalue, hsize]
    exact source_exact (by omega)

end KMSSink

namespace KmsState

open KMSSink (Placed)

/-- The sink at the start of a run. -/
def ofSink (sink : KMSSink) : KmsState := ⟨sink, [], [], [], false⟩

/-- Frames and page flips do not touch the rectangle. -/
private theorem placed_step {mode : Mode} {size : Size} {s s' : KmsState} {e : KmsEvent} (ht : s.Tracks)
    (hp : Placed mode size s.sink) (h : s.step e = some s') : Placed mode size s'.sink := by
  rcases step_eq_some h with ⟨calls, camRequest, rfl, rfl⟩ | ⟨calls, addr, rfl, hm, rfl⟩
  · cases hd : s.sink.displays camRequest with
    | none =>
      rw [processRequest_dropped hd]
      exact hp
    | some drmBuffer =>
      cases hq : s.sink.queued_ with
      | none =>
        rw [processRequest_queued hd hq]
        exact hp
      | some queued =>
        rw [processRequest_pending hd hq]
        exact hp
  · obtain ⟨queued, -, -, heq⟩ := pageFlipComplete_eq calls ht hm
    rw [heq]
    exact hp

private theorem placed_run {mode : Mode} {size : Size} {s t : KmsState} {es : List KmsEvent} (ht : s.Tracks)
    (hp : Placed mode size s.sink) (h : machine.Run s es t) : Placed mode size t.sink := by
  have hboth : t.Tracks ∧ Placed mode size t.sink := by
    refine h.invariant (P := fun s => s.Tracks ∧ Placed mode size s.sink) ?_ ⟨ht, hp⟩
    rintro s e s' ⟨ht, hp⟩ hs
    exact ⟨ht.step hs, placed_step ht hp hs⟩
  exact hboth.2

end KmsState

namespace KMSSink

/-- The mode that `mode_` refers to. -/
def mode (sink : KMSSink) : Option Mode :=
  (sink.connector_.bind (sink.dev_.connectors_[·]?)).bind fun conn => sink.mode_.bind (conn.modes_[·]?)

/-- A sink that was configured: it has a mode, its slots are empty, and the rectangle is placed for the mode. -/
private theorem configured {init : Except Int DRM.Device} {connectorName : String} {cfg : StreamConfiguration}
    {sink : KMSSink} (h : (new init connectorName).configure cfg = some (0, sink)) :
    ∃ mode, sink.mode = some mode ∧ Placed mode cfg.size sink ∧ sink.pending_ = none ∧ sink.queued_ = none ∧
      sink.active_ = none := by
  cases init with
  | error e =>
    rw [show (new (.error e) connectorName).configure cfg = some (-EINVAL, _) from rfl] at h
    cases h
  | ok dev =>
    rcases connector_new dev connectorName with ⟨n, conn, hn, hconn, -⟩ | ⟨hnone, -⟩
    · rcases configure_cases (new (.ok dev) connectorName) hn hconn cfg with
        ⟨-, sink', heq⟩ | ⟨-, -, heq⟩ | ⟨mode, modes, crtc, plane, f, -, hmodes, heq⟩
      · rw [heq] at h
        cases h
      · rw [heq] at h
        cases h
      · rw [heq, Option.some.injEq, Prod.mk.injEq] at h
        obtain ⟨-, rfl⟩ := h
        refine ⟨mode, ?_, ⟨rfl, rfl, rfl⟩, rfl, rfl, rfl⟩
        have hdev : (new (.ok dev) connectorName).dev_ = dev := rfl
        simp [KMSSink.mode, hn, hdev, hconn, hmodes]
    · rw [configure, hnone] at h
      cases h

/-- Of a sink that was configured, the rectangles that the frames of all runs program are exact if and only if the
stream is no larger than the mode. -/
theorem rectangles_exact_iff {init : Except Int DRM.Device} {connectorName : String} {cfg : StreamConfiguration}
    {sink : KMSSink} (h : (new init connectorName).configure cfg = some (0, sink)) :
    ∃ mode, sink.mode = some mode ∧
      ((∀ buffers es t, KmsState.machine.Run (.ofSink { sink with buffers_ := buffers }) es t →
          ∀ drmBuffer, Exact mode cfg.size (t.sink.frameChanges drmBuffer)) ↔
        cfg.size.width.toNat ≤ mode.hdisplay.toNat ∧ cfg.size.height.toNat ≤ mode.vdisplay.toNat) := by
  obtain ⟨mode, hmode, hplaced, hp, hq, ha⟩ := configured h
  refine ⟨mode, hmode, ?_⟩
  constructor
  · intro hall
    have hexact := hall sink.buffers_ [] (.ofSink sink) (.nil _) ⟨0, ∅⟩
    obtain ⟨hx, hy⟩ := mem_frameChanges ha hq ⟨0, ∅⟩
    have hwidth := hexact.crtc_x _ _ hx
    have hheight := hexact.crtc_y _ _ hy
    rw [hplaced.2.1, offset_exact_iff] at hwidth
    rw [hplaced.2.2, offset_exact_iff] at hheight
    exact ⟨hwidth, hheight⟩
  · rintro ⟨hwidth, hheight⟩ buffers es t hrun drmBuffer
    have htracks : (KmsState.ofSink { sink with buffers_ := buffers }).Tracks :=
      KmsState.Initial.tracks ⟨hp, hq, ha, rfl, rfl, rfl, rfl⟩
    exact (KmsState.placed_run htracks hplaced hrun).exact hwidth hheight drmBuffer

private theorem enoent_pos : (0 : Int) < 2 := by decide

/-- The display of `oneDisplayKernel` with one mode. -/
def fullHdKernel : DRM.Kernel :=
  { oneDisplayKernel with
    drmModeGetConnector := fun id =>
      if id = 3 then .ok ⟨3, 11, 1, .DRM_MODE_CONNECTED, [2], [⟨1920, 1080, 60⟩]⟩ else .error ⟨2, enoent_pos⟩ }

def fullHdCard : DRM.Device.Card := ⟨3, .ok (), fullHdKernel⟩

/-- A stream of 640 times 480 pixels on it. -/
theorem rectangles_exact_iff_vga :
    ∃ sink mode, (new (DRM.Device.init fullHdCard) "").configure
        ⟨0, Libcamera.formats.XRGB8888, ⟨640, 480⟩, 2560⟩ = some (0, sink) ∧ sink.mode = some mode ∧
      ((∀ buffers es t, KmsState.machine.Run (.ofSink { sink with buffers_ := buffers }) es t →
          ∀ drmBuffer, Exact mode ⟨640, 480⟩ (t.sink.frameChanges drmBuffer)) ↔
        (640 : UInt32).toNat ≤ mode.hdisplay.toNat ∧ (480 : UInt32).toNat ≤ mode.vdisplay.toNat) := by
  have hconfigure : (new (DRM.Device.init fullHdCard) "").configure
      ⟨0, Libcamera.formats.XRGB8888, ⟨640, 480⟩, 2560⟩ = some (0, _) := rfl
  obtain ⟨mode, hmode, hiff⟩ := rectangles_exact_iff hconfigure
  exact ⟨_, mode, hconfigure, hmode, hiff⟩

/-- A stream of 2560 times 1440 pixels on it: the horizontal offset is about two thousand million pixels. -/
theorem larger_stream_misplaced :
    ∃ sink mode, (new (DRM.Device.init fullHdCard) "").configure
        ⟨0, Libcamera.formats.XRGB8888, ⟨2560, 1440⟩, 10240⟩ = some (0, sink) ∧ sink.mode = some mode ∧
      mode.hdisplay = 1920 ∧ (sink.planeObject, "CRTC_X", 2147483328) ∈ sink.frameChanges ⟨30, ∅⟩ ∧
      ¬Exact mode ⟨2560, 1440⟩ (sink.frameChanges ⟨30, ∅⟩) := by
  have hconfigure : ∃ sink, (new (DRM.Device.init fullHdCard) "").configure
      ⟨0, Libcamera.formats.XRGB8888, ⟨2560, 1440⟩, 10240⟩ = some (0, sink) ∧
      sink.mode = some ⟨1920, 1080, 60⟩ ∧ sink.x_ = 2147483328 := ⟨_, rfl, rfl, rfl⟩
  obtain ⟨sink, hsink, hmode, hx⟩ := hconfigure
  obtain ⟨-, -, -, -, hq, ha⟩ := configured hsink
  have hmem := (mem_frameChanges ha hq ⟨30, ∅⟩).1
  rw [hx] at hmem
  refine ⟨sink, ⟨1920, 1080, 60⟩, hsink, hmode, rfl, hmem, ?_⟩
  intro h
  exact absurd (h.crtc_x _ _ hmem) (by decide)

end KMSSink

end Twincam
