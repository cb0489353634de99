import Twincam.Lib.Progress
import Twincam.SdlTextureMjpg

/-!
# The SDL objects of an SDL sink over its life (`sdl_sink.cpp`, `sdl_texture.cpp`)

`start` initialises SDL and creates a window, a renderer for it and a texture for the renderer, and returns at the first
of them that fails.  `stop`, which the destructor calls as well, undoes whatever is there, in the opposite order.

`Sdl` is the side of SDL: an object is used and destroyed while it is there, after what was created from it.
`objects_released_iff`: over any run of a sink and its destructor, the calls keep to this and leave nothing behind if
and only if no window is there when `start` creates one.
-/

namespace Twincam

open Libcamera (Size StreamConfiguration formats.MJPEG formats.NV12 formats.YUYV)

/-! ### SDL -/

/-- The formats of the textures. -/
inductive SdlPixelFormat
  | RGB24
  | NV12
  | YUY2
deriving DecidableEq

/-- The calls of the sink, with the object that a call yields; a null pointer is `none`. -/
inductive SdlCall
  | init (ret : Int)
  | createWindow (rect : SDLRect) (window : Option Nat)
  | createRenderer (window : Nat) (renderer : Option Nat)
  | renderSetLogicalSize (renderer : Nat) (rect : SDLRect)
  | createTexture (renderer : Nat) (format : SdlPixelFormat) (rect : SDLRect) (texture : Option Nat)
  | showCursor
  | updateTexture (texture : Option Nat) (stride : Int)
  | renderClear (renderer : Option Nat)
  | renderCopy (renderer texture : Option Nat)
  | renderPresent (renderer : Option Nat)
  | destroyTexture (texture : Nat)
  | destroyRenderer (renderer : Nat)
  | destroyWindow (window : Nat)
  | quit

/-- The objects that are there: the windows, the renderers with their windows, the textures with their renderers. -/
structure Sdl where
  inited : Bool
  windows : List Nat
  renderers : List (Nat × Nat)
  textures : List (Nat × Nat)
deriving DecidableEq

namespace Sdl

def idle : Sdl := ⟨false, [], [], []⟩

/-- SDL refuses a null pointer with an error; any other pointer has to be that of an object. -/
def usable (objects : List (Nat × Nat)) (object : Option Nat) : Bool := object.all fun o => (objects.lookup o).isSome

/-- A call on objects that are there.  What a window, a renderer or SDL itself is gone with is not there any more, so
that it has to be destroyed before. -/
def step (sdl : Sdl) : SdlCall → Option Sdl
  | .init ret => some { sdl with inited := sdl.inited || decide (ret = 0) }
  | .createWindow _ window => if sdl.inited then some { sdl with windows := window.toList ++ sdl.windows } else none
  | .createRenderer window renderer =>
    if window ∈ sdl.windows then
      some { sdl with renderers := renderer.toList.map (·, window) ++ sdl.renderers }
    else none
  | .renderSetLogicalSize renderer _ => if usable sdl.renderers (some renderer) then some sdl else none
  | .createTexture renderer _ _ texture =>
    if usable sdl.renderers (some renderer) then
      some { sdl with textures := texture.toList.map (·, renderer) ++ sdl.textures }
    else none
  | .showCursor => if sdl.inited then some sdl else none
  | .updateTexture texture _ => if usable sdl.textures texture then some sdl else none
  | .renderClear renderer | .renderPresent renderer => if usable sdl.renderers renderer then some sdl else none
  | .renderCopy renderer texture =>
    if usable sdl.renderers renderer && usable sdl.textures texture then some sdl else none
  | .destroyTexture texture =>
    if usable sdl.textures (some texture) then
      some { sdl with textures := sdl.textures.filter (·.1 ≠ texture) }
    else none
  | .destroyRenderer renderer =>
    if usable sdl.renderers (some renderer) && sdl.textures.all (·.2 ≠ renderer) then
      some { sdl with renderers := sdl.renderers.filter (·.1 ≠ renderer) }
    else none
  | .destroyWindow window =>
    if window ∈ sdl.windows && sdl.renderers.all (·.2 ≠ window) then
      some { sdl with windows := sdl.windows.filter (· ≠ window) }
    else none
  | .quit => if sdl.windows = [] ∧ sdl.renderers = [] ∧ sdl.textures = [] then some idle else none

def machine : Machine Sdl SdlCall where
  init sdl := sdl = idle
  step := step

/-- The window was created by one of these calls, and not destroyed by a later one. -/
def Leaves (calls : List SdlCall) (window : Nat) : Prop :=
  ∃ before rect after, calls = before ++ .createWindow rect (some window) :: after ∧ .destroyWindow window ∉ after

/-- SDL is shut down while a window is there. -/
def QuitsWithWindow (calls : List SdlCall) : Prop :=
  ∃ before after window, calls = before ++ .quit :: after ∧ Leaves before window

private theorem leaves_concat_iff {calls : List SdlCall} {c : SdlCall} {window : Nat} :
    Leaves (calls ++ [c]) window ↔
      (Leaves calls window ∧ c ≠ .destroyWindow window) ∨ ∃ rect, c = .createWindow rect (some window) := by
  constructor
  · rintro ⟨before, rect, after, hcalls, hkept⟩
    rcases List.eq_nil_or_concat after with rfl | ⟨after, last, rfl⟩
    · obtain ⟨-, hlast⟩ := List.append_inj' hcalls rfl
      exact Or.inr ⟨rect, List.head_eq_of_cons_eq hlast⟩
    · rw [List.concat_eq_append] at hcalls hkept
      rw [← List.cons_append, ← List.append_assoc] at hcalls
      obtain ⟨hbefore, hlast⟩ := List.append_inj' hcalls rfl
      obtain rfl := List.head_eq_of_cons_eq hlast
      rw [List.mem_append, not_or, List.mem_singleton] at hkept
      exact Or.inl ⟨⟨before, rect, after, hbefore, hkept.1⟩, Ne.symm hkept.2⟩
  · rintro (⟨⟨before, rect, after, rfl, hkept⟩, hc⟩ | ⟨rect, rfl⟩)
    · refine ⟨before, rect, after ++ [c], by simp, ?_⟩
      rw [List.mem_append, not_or, List.mem_singleton]
      exact ⟨hkept, Ne.symm hc⟩
    · exact ⟨calls, rect, [], rfl, List.not_mem_nil⟩

private theorem mem_windows_step {sdl sdl' : Sdl} {c : SdlCall} {window : Nat} (hs : sdl.step c = some sdl') :
    window ∈ sdl'.windows ↔
      (window ∈ sdl.windows ∧ c ≠ .destroyWindow window) ∨ ∃ rect, c = .createWindow rect (some window) := by
  cases c with
  | createWindow rect new =>
    simp only [Sdl.step, Option.ite_none_right_eq_some, Option.some.injEq] at hs
    rw [← hs.2]
    simp [or_comm]
  | destroyWindow other =>
    simp only [Sdl.step, Option.ite_none_right_eq_some, Option.some.injEq] at hs
    rw [← hs.2]
    simp only [List.mem_filter, decide_eq_true_eq, ne_eq, SdlCall.destroyWindow.injEq, reduceCtorEq, exists_false,
      or_false]
    exact and_congr_right fun _ => not_congr eq_comm
  | quit =>
    simp only [Sdl.step, Option.ite_none_right_eq_some, Option.some.injEq] at hs
    rw [← hs.2, hs.1.1]
    simp [idle]
  | init ret =>
    obtain rfl := Option.some.inj hs
    simp
  | _ =>
    simp only [Sdl.step, Option.ite_none_right_eq_some, Option.some.injEq] at hs
    rw [← hs.2]
    simp

/-- The windows that are there are those that were created and not destroyed. -/
private theorem mem_windows_iff {calls : List SdlCall} {sdl : Sdl} (hr : machine.replay idle calls = some sdl)
    (window : Nat) : window ∈ sdl.windows ↔ Leaves calls window := by
  induction calls using List.reverseRecOn generalizing sdl with
  | nil =>
    obtain rfl := Option.some.inj hr
    simp [idle, Leaves]
  | append_singleton calls c ih =>
    rw [Machine.replay_append] at hr
    obtain ⟨sdl₁, hcalls, hlast⟩ := Option.bind_eq_some_iff.1 hr
    rw [Machine.replay] at hlast
    obtain ⟨after, hstep, hend⟩ := Option.bind_eq_some_iff.1 hlast
    obtain rfl := Option.some.inj hend
    rw [mem_windows_step hstep, leaves_concat_iff, ih hcalls]

/-- SDL does not let itself be shut down with a window. -/
private theorem QuitsWithWindow.replay {calls : List SdlCall} (h : QuitsWithWindow calls) :
    machine.replay idle calls = none := by
  obtain ⟨before, after, window, rfl, hwindow⟩ := h
  rw [Machine.replay_append, Option.bind_eq_none_iff]
  intro sdl hbefore
  have hmem := (mem_windows_iff hbefore window).2 hwindow
  have hquit : machine.step sdl .quit = none := if_neg fun hidle => List.ne_nil_of_mem hmem hidle.1
  rw [Machine.replay, hquit, Option.bind_none]

end Sdl

/-! ### The sink -/

/-- `class SDLTexture`. -/
structure SDLTexture where
  ptr_ : Option Nat
  rect_ : SDLRect
  pixelFormat_ : SdlPixelFormat
  stride_ : Int

/-- How SDL answers in `start`: the result of `SDL_Init`, and whether the objects can be created. -/
structure SdlAnswers where
  init : Int
  window : Bool
  renderer : Bool
  texture : Bool

/-- `class SDLSink`, and its calls so far. -/
structure SDLSink where
  texture_ : Option SDLTexture
  window_ : Option Nat
  renderer_ : Option Nat
  rect_ : SDLRect
  init_ : Bool
  calls : List SdlCall

/-- What the build has: libjpeg, and an SDL of at least version 2.0.16. -/
structure SdlBuild where
  HAVE_LIBJPEG : Bool
  SDL_2_0_16 : Bool

namespace SDLSink

/-- `SDLSink::SDLSink`. -/
def constructed : SDLSink := ⟨none, none, none, ⟨0, 0⟩, false, []⟩

def call (s : SDLSink) (c : SdlCall) : SDLSink := { s with calls := s.calls ++ [c] }

/-- The object that a call creates, if it can; it is named by the number of calls before. -/
def create (s : SDLSink) (ok : Bool) : Option Nat := if ok then some s.calls.length else none

/-- `SDLTexture::~SDLTexture` for the texture of the sink, if there is one. -/
def dropTexture (s : SDLSink) : SDLSink :=
  match s.texture_.bind (·.ptr_) with
  | none => { s with texture_ := none }
  | some texture => { s with texture_ := none }.call (.destroyTexture texture)

/-- The assignment of a new texture to `texture_`. -/
def resetTexture (s : SDLSink) (format : SdlPixelFormat) (stride : Int) : SDLSink :=
  { s.dropTexture with texture_ := some ⟨none, s.rect_, format, stride⟩ }

/-- `SDLSink::configure`; `none` when the constructor of a texture throws or is undefined. -/
def configure (build : SdlBuild) (config : List StreamConfiguration) (s : SDLSink) : Option (Int × SDLSink) :=
  match config with
  | [] => some (-EINVAL, s)
  | cfg :: _ =>
    let s := { s with rect_ := SDLRect.ofSize cfg.size }
    if build.HAVE_LIBJPEG ∧ cfg.pixelFormat.fourcc = formats.MJPEG.fourcc then
      match SDLTextureMJPG.new s.rect_ with
      | .texture t => some (0, s.resetTexture .RGB24 t.stride_)
      | .undefined | .badAlloc => none
    else if build.SDL_2_0_16 ∧ cfg.pixelFormat.fourcc = formats.NV12.fourcc then
      some (0, s.resetTexture .NV12 cfg.stride.toInt32.toInt)
    else if cfg.pixelFormat.fourcc = formats.YUYV.fourcc then
      some (0, s.resetTexture .YUY2 cfg.stride.toInt32.toInt)
    else some (-EINVAL, s)

/-- `SDLTexture::create` for the texture of the sink; `none` when there is none. -/
def createTexture (s : SDLSink) (renderer : Nat) (ok : Bool) : Option (Int × SDLSink) :=
  s.texture_.map fun texture =>
    let ptr := s.create ok
    let s := { s with texture_ := some { texture with ptr_ := ptr } }.call
      (.createTexture renderer texture.pixelFormat_ texture.rect_ ptr)
    if ptr.isNone then (-ENOMEM, s) else (0, s)

/-- `SDLSink::start` once there is a window. -/
def startRenderer (answers : SdlAnswers) (window : Nat) (s : SDLSink) : Option (Int × SDLSink) :=
  let renderer_ := s.create answers.renderer
  let s := { s with renderer_ := renderer_ }.call (.createRenderer window renderer_)
  match renderer_ with
  | none => some (-EINVAL, s)
  | some renderer =>
    let s := s.call (.renderSetLogicalSize renderer s.rect_)
    (s.createTexture renderer answers.texture).map fun (ret, s) =>
      if ret ≠ 0 then (ret, s) else (0, s.call .showCursor)

/-- `SDLSink::start`; the timer that it adds to the event loop at the end is left out. -/
def start (answers : SdlAnswers) (s : SDLSink) : Option (Int × SDLSink) :=
  let s := s.call (.init answers.init)
  if answers.init ≠ 0 then some (answers.init, s)
  else
    let window_ := s.create answers.window
    let s := { s with init_ := true, window_ := window_ }.call (.createWindow s.rect_ window_)
    match window_ with
    | none => some (-EINVAL, s)
    | some window => s.startRenderer answers window

def dropRenderer (s : SDLSink) : SDLSink :=
  match s.renderer_ with
  | none => s
  | some renderer => { s with renderer_ := none }.call (.destroyRenderer renderer)

def dropWindow (s : SDLSink) : SDLSink :=
  match s.window_ with
  | none => s
  | some window => { s with window_ := none }.call (.destroyWindow window)

def quit (s : SDLSink) : SDLSink := if s.init_ then { s with init_ := false }.call .quit else s

/-- `SDLSink::stop`, in its four parts. -/
def stop (s : SDLSink) : SDLSink := s.dropTexture.dropRenderer.dropWindow.quit

/-- The end of `SDLSink::renderBuffer`; `none` when there is no texture. -/
def present (s : SDLSink) : Option SDLSink :=
  s.texture_.map fun texture =>
    (((s.call (.updateTexture texture.ptr_ texture.stride_)).call (.renderClear s.renderer_)).call
      (.renderCopy s.renderer_ texture.ptr_)).call (.renderPresent s.renderer_)

end SDLSink

inductive SdlEvent
  | configure (config : List StreamConfiguration)
  | start (answers : SdlAnswers)
  | frame
  | stop

namespace SDLSink

open Sdl (Leaves QuitsWithWindow leaves_concat_iff mem_windows_iff)

variable {build : SdlBuild}

variable (build) in
def step (s : SDLSink) : SdlEvent → Option SDLSink
  | .configure config => (s.configure build config).map (·.2)
  | .start answers => (s.start answers).map (·.2)
  | .frame => s.present
  | .stop => some s.stop

variable (build) in
def machine : Machine SDLSink SdlEvent where
  init s := s = constructed
  step := step build

/-! ### What a sink has -/

/-- The objects that the sink has pointers to. -/
def objects (s : SDLSink) : Sdl :=
  ⟨s.init_, s.window_.toList, (s.renderer_.toList.zip s.window_.toList),
    ((s.texture_.bind (·.ptr_)).toList.zip s.renderer_.toList)⟩

/-- A texture has a renderer, a renderer a window, and SDL was initialised before. -/
structure Nested (s : SDLSink) : Prop where
  texture : (s.texture_.bind (·.ptr_)).isSome → s.renderer_.isSome
  renderer : s.renderer_.isSome → s.window_.isSome
  window : s.window_.isSome → s.init_ = true

/-- The calls were right, and what is there is what the sink has pointers to. -/
structure Tracks (s : SDLSink) : Prop where
  nested : s.Nested
  named : ∀ window, s.window_ = some window → window < s.calls.length
  replay : Sdl.machine.replay Sdl.idle s.calls = some s.objects

/-- SDL has been shut down while a window was there, or there is one that the sink has no pointer to any more. -/
def Lost (s : SDLSink) : Prop :=
  QuitsWithWindow s.calls ∨
    s.init_ = true ∧ ∃ window, Leaves s.calls window ∧ s.window_ ≠ some window ∧ window < s.calls.length

/-- `start` creates a window only when there is none. -/
def StartsFresh (s : SDLSink) : SdlEvent → Prop
  | .start answers => s.window_ = none ∨ answers.init ≠ 0
  | .configure _ | .frame | .stop => True

/-! ### Nothing is lost -/

private theorem Tracks.call {s s' : SDLSink} {c : SdlCall} (h : s.Tracks) (hcalls : s'.calls = s.calls ++ [c])
    (hstep : Sdl.step s.objects c = some s'.objects) (hnested : s'.Nested)
    (hnamed : ∀ window, s'.window_ = some window → s.window_ = some window ∨ window = s.calls.length) : s'.Tracks := by
  refine ⟨hnested, ?_, ?_⟩
  · intro window hwindow
    have hlt : s.calls.length < s'.calls.length := by simp [hcalls]
    rcases hnamed window hwindow with hold | rfl
    · exact (h.named window hold).trans hlt
    · exact hlt
  · rw [hcalls]
    exact Machine.replay_concat h.replay hstep

/-- A call that only uses what is there. -/
private theorem Tracks.use {s : SDLSink} {c : SdlCall} (h : s.Tracks) (hstep : Sdl.step s.objects c = some s.objects) :
    (s.call c).Tracks :=
  h.call rfl hstep ⟨h.nested.texture, h.nested.renderer, h.nested.window⟩ fun _ hwindow => Or.inl hwindow

private theorem Tracks.dropTexture {s : SDLSink} (h : s.Tracks) : s.dropTexture.Tracks := by
  cases hptr : s.texture_.bind (·.ptr_) with
  | none =>
    rw [SDLSink.dropTexture, hptr]
    refine ⟨⟨nofun, h.nested.renderer, h.nested.window⟩, h.named, ?_⟩
    rw [h.replay, objects, hptr]
    rfl
  | some texture =>
    obtain ⟨renderer, hrenderer⟩ := Option.isSome_iff_exists.1 (h.nested.texture (by rw [hptr]; rfl))
    rw [SDLSink.dropTexture, hptr]
    refine h.call rfl ?_ ⟨nofun, h.nested.renderer, h.nested.window⟩ fun window hwindow => Or.inl hwindow
    simp [objects, hptr, hrenderer, Sdl.step, Sdl.usable, SDLSink.call]

theorem dropTexture_texture (s : SDLSink) : s.dropTexture.texture_ = none := by
  unfold dropTexture
  split <;> rfl

private theorem Tracks.resetTexture {s : SDLSink} (h : s.Tracks) (format : SdlPixelFormat) (stride : Int) :
    (s.resetTexture format stride).Tracks := by
  obtain ⟨hnested, hnamed, hreplay⟩ := h.dropTexture
  refine ⟨⟨nofun, hnested.renderer, hnested.window⟩, hnamed, ?_⟩
  have hobjects : (s.resetTexture format stride).objects = s.dropTexture.objects := by
    simp [objects, SDLSink.resetTexture, dropTexture_texture]
  rw [hobjects]
  exact hreplay

/-- A configuration sets the rectangle, and the texture if there is one for the format. -/
private theorem configure_cases {s s' : SDLSink} {config : List StreamConfiguration} {ret : Int}
    (hs : s.configure build config = some (ret, s')) : ∃ rect, s' = { s with rect_ := rect } ∨
      ∃ format stride, s' = ({ s with rect_ := rect } : SDLSink).resetTexture format stride := by
  cases config with
  | nil =>
    obtain ⟨-, rfl⟩ := Prod.mk.inj (Option.some.inj hs)
    exact ⟨s.rect_, Or.inl rfl⟩
  | cons cfg config =>
    refine ⟨SDLRect.ofSize cfg.size, ?_⟩
    simp only [SDLSink.configure] at hs
    split at hs
    · split at hs
      · obtain ⟨-, rfl⟩ := Prod.mk.inj (Option.some.inj hs)
        exact Or.inr ⟨_, _, rfl⟩
      · cases hs
      · cases hs
    · split at hs
      · obtain ⟨-, rfl⟩ := Prod.mk.inj (Option.some.inj hs)
        exact Or.inr ⟨_, _, rfl⟩
      · split at hs
        · obtain ⟨-, rfl⟩ := Prod.mk.inj (Option.some.inj hs)
          exact Or.inr ⟨_, _, rfl⟩
        · obtain ⟨-, rfl⟩ := Prod.mk.inj (Option.some.inj hs)
          exact Or.inl rfl

private theorem Tracks.configure {s s' : SDLSink} (h : s.Tracks) {config : List StreamConfiguration} {ret : Int}
    (hs : s.configure build config = some (ret, s')) : s'.Tracks := by
  obtain ⟨rect, hdone⟩ := configure_cases hs
  have hrect : ({ s with rect_ := rect } : SDLSink).Tracks :=
    ⟨⟨h.nested.texture, h.nested.renderer, h.nested.window⟩, h.named, h.replay⟩
  rcases hdone with rfl | ⟨format, stride, rfl⟩
  · exact hrect
  · exact hrect.resetTexture format stride

private theorem Tracks.dropRenderer {s : SDLSink} (h : s.Tracks) (htexture : s.texture_ = none) :
    s.dropRenderer.Tracks ∧ s.dropRenderer.texture_ = none ∧ s.dropRenderer.renderer_ = none := by
  cases hrenderer : s.renderer_ with
  | none =>
    rw [SDLSink.dropRenderer, hrenderer]
    exact ⟨h, htexture, hrenderer⟩
  | some renderer =>
    obtain ⟨window, hwindow⟩ := Option.isSome_iff_exists.1 (h.nested.renderer (by rw [hrenderer]; rfl))
    rw [SDLSink.dropRenderer, hrenderer]
    refine ⟨h.call rfl ?_ ⟨?_, nofun, h.nested.window⟩ fun window hwindow => Or.inl hwindow, htexture, rfl⟩
    · simp [objects, htexture, hrenderer, hwindow, Sdl.step, Sdl.usable, SDLSink.call]
    · simp [SDLSink.call, htexture]

private theorem Tracks.dropWindow {s : SDLSink} (h : s.Tracks) (htexture : s.texture_ = none)
    (hrenderer : s.renderer_ = none) :
    s.dropWindow.Tracks ∧ s.dropWindow.texture_ = none ∧ s.dropWindow.renderer_ = none ∧
      s.dropWindow.window_ = none := by
  cases hwindow : s.window_ with
  | none =>
    rw [SDLSink.dropWindow, hwindow]
    exact ⟨h, htexture, hrenderer, hwindow⟩
  | some window =>
    rw [SDLSink.dropWindow, hwindow]
    refine ⟨h.call rfl ?_ ⟨?_, ?_, nofun⟩ nofun, htexture, hrenderer, rfl⟩
    · simp [objects, htexture, hrenderer, hwindow, Sdl.step, SDLSink.call]
    · simp [SDLSink.call, htexture]
    · simp [SDLSink.call, hrenderer]

/-- `stop` destroys what is there. -/
private theorem Tracks.stop {s : SDLSink} (h : s.Tracks) : s.stop.Tracks ∧ s.stop.objects = Sdl.idle := by
  obtain ⟨hr, hrt, hrr⟩ := h.dropTexture.dropRenderer (dropTexture_texture s)
  obtain ⟨hw, htexture, hrenderer, hwindow⟩ := hr.dropWindow hrt hrr
  rw [SDLSink.stop, SDLSink.quit]
  cases hinit : s.dropTexture.dropRenderer.dropWindow.init_ with
  | false =>
    refine ⟨hw, ?_⟩
    simp [objects, htexture, hrenderer, hwindow, hinit, Sdl.idle]
  | true =>
    rw [if_pos rfl]
    refine ⟨hw.call rfl ?_ ⟨?_, ?_, ?_⟩ fun window hwindow => Or.inl hwindow, ?_⟩
    · simp [objects, htexture, hrenderer, hwindow, Sdl.step, Sdl.idle, SDLSink.call]
    · simp [SDLSink.call, htexture]
    · simp [SDLSink.call, hrenderer]
    · simp [SDLSink.call, hwindow]
    · simp [objects, htexture, hrenderer, hwindow, Sdl.idle, SDLSink.call]

private theorem Tracks.present {s s' : SDLSink} (h : s.Tracks) (hs : s.present = some s') : s'.Tracks := by
  obtain ⟨texture, htexture, rfl⟩ := Option.map_eq_some_iff.1 hs
  have hrenderers : Sdl.usable s.objects.renderers s.renderer_ = true := by
    cases hrenderer : s.renderer_ with
    | none => rfl
    | some renderer =>
      obtain ⟨window, hwindow⟩ := Option.isSome_iff_exists.1 (h.nested.renderer (by rw [hrenderer]; rfl))
      simp [objects, Sdl.usable, hrenderer, hwindow]
  have htextures : Sdl.usable s.objects.textures texture.ptr_ = true := by
    cases hptr : texture.ptr_ with
    | none => rfl
    | some ptr =>
      obtain ⟨renderer, hrenderer⟩ := Option.isSome_iff_exists.1 (h.nested.texture (by simp [htexture, hptr]))
      simp [objects, Sdl.usable, htexture, hptr, hrenderer]
  have hboth : (Sdl.usable s.objects.renderers s.renderer_ && Sdl.usable s.objects.textures texture.ptr_) = true := by
    rw [hrenderers, htextures]
    rfl
  have hupdate := h.use
    (show Sdl.step s.objects (.updateTexture texture.ptr_ texture.stride_) = _ from if_pos htextures)
  have hclear := hupdate.use (show Sdl.step s.objects (.renderClear s.renderer_) = _ from if_pos hrenderers)
  have hcopy := hclear.use (show Sdl.step s.objects (.renderCopy s.renderer_ texture.ptr_) = _ from if_pos hboth)
  exact hcopy.use (show Sdl.step s.objects (.renderPresent s.renderer_) = _ from if_pos hrenderers)

private theorem Tracks.createTexture {s s' : SDLSink} (h : s.Tracks) {renderer : Nat} {ok : Bool} {ret : Int}
    (hrenderer : s.renderer_ = some renderer) (hptr : s.texture_.bind (·.ptr_) = none)
    (hs : s.createTexture renderer ok = some (ret, s')) : s'.Tracks ∧ s'.window_ = s.window_ := by
  obtain ⟨texture, htexture, hdone⟩ := Option.map_eq_some_iff.1 hs
  obtain ⟨window, hwindow⟩ := Option.isSome_iff_exists.1 (h.nested.renderer (by rw [hrenderer]; rfl))
  rw [htexture] at hptr
  have htracks : ({ s with texture_ := some { texture with ptr_ := s.create ok } }.call
      (.createTexture renderer texture.pixelFormat_ texture.rect_ (s.create ok)) : SDLSink).Tracks := by
    refine h.call rfl ?_ ⟨?_, h.nested.renderer, h.nested.window⟩ fun window hwindow => Or.inl hwindow
    · have hold : (s.texture_.bind (·.ptr_)) = none := by rw [htexture]; exact hptr
      cases s.create ok <;>
        simp [objects, SDLSink.call, hold, hrenderer, hwindow, Sdl.step, Sdl.usable]
    · simp [SDLSink.call, hrenderer]
  dsimp only at hdone
  split at hdone
  · obtain ⟨-, rfl⟩ := Prod.mk.inj hdone
    exact ⟨htracks, rfl⟩
  · obtain ⟨-, rfl⟩ := Prod.mk.inj hdone
    exact ⟨htracks, rfl⟩

private theorem Tracks.startRenderer {s s' : SDLSink} (h : s.Tracks) {answers : SdlAnswers} {window : Nat} {ret : Int}
    (hwindow : s.window_ = some window) (hrenderer : s.renderer_ = none)
    (hs : s.startRenderer answers window = some (ret, s')) : s'.Tracks := by
  have hptr : s.texture_.bind (·.ptr_) = none := by
    by_contra hne
    have hsome := h.nested.texture (Option.isSome_iff_ne_none.2 hne)
    rw [hrenderer] at hsome
    cases hsome
  have hcreated : ({ s with renderer_ := s.create answers.renderer }.call
      (.createRenderer window (s.create answers.renderer)) : SDLSink).Tracks := by
    refine h.call rfl ?_ ⟨?_, ?_, h.nested.window⟩ fun window hwindow => Or.inl hwindow
    · cases s.create answers.renderer <;> simp [objects, SDLSink.call, hptr, hrenderer, hwindow, Sdl.step]
    · simp [SDLSink.call, hptr]
    · simp [SDLSink.call, hwindow]
  simp only [SDLSink.startRenderer] at hs
  cases hcreate : s.create answers.renderer with
  | none =>
    rw [hcreate] at hs hcreated
    obtain ⟨-, rfl⟩ := Prod.mk.inj (Option.some.inj hs)
    exact hcreated
  | some renderer =>
    rw [hcreate] at hs hcreated
    obtain ⟨⟨ret', t⟩, ht, hdone⟩ := Option.map_eq_some_iff.1 hs
    have hsized : (({ s with renderer_ := some renderer }.call (.createRenderer window (some renderer))).call
        (.renderSetLogicalSize renderer s.rect_) : SDLSink).Tracks := by
      refine hcreated.use ?_
      simp [objects, SDLSink.call, hwindow, Sdl.step, Sdl.usable]
    obtain ⟨htracks, hsame⟩ := hsized.createTexture rfl hptr ht
    have hinit : t.init_ = true := htracks.nested.window (by rw [hsame]; simp [SDLSink.call, hwindow])
    dsimp only at hdone
    split at hdone
    · obtain ⟨-, rfl⟩ := Prod.mk.inj hdone
      exact htracks
    · obtain ⟨-, rfl⟩ := Prod.mk.inj hdone
      exact htracks.use (if_pos hinit)

private theorem Tracks.start {s s' : SDLSink} (h : s.Tracks) {answers : SdlAnswers} {ret : Int}
    (hfresh : s.StartsFresh (.start answers)) (hs : s.start answers = some (ret, s')) : s'.Tracks := by
  simp only [SDLSink.start] at hs
  by_cases hret : answers.init ≠ 0
  · rw [if_pos hret] at hs
    obtain ⟨-, rfl⟩ := Prod.mk.inj (Option.some.inj hs)
    refine h.use ?_
    simp [objects, Sdl.step, hret]
  · rw [if_neg hret] at hs
    have hwindow : s.window_ = none := hfresh.resolve_right hret
    have hrenderer : s.renderer_ = none := by
      by_contra hne
      have hsome := h.nested.renderer (Option.isSome_iff_ne_none.2 hne)
      rw [hwindow] at hsome
      cases hsome
    have hinited : ({ s with init_ := true }.call (.init answers.init) : SDLSink).Tracks := by
      refine h.call rfl ?_ ⟨h.nested.texture, h.nested.renderer, fun _ => rfl⟩ fun window hwindow => Or.inl hwindow
      simp [objects, SDLSink.call, Sdl.step, not_not.1 hret]
    have hptr : s.texture_.bind (·.ptr_) = none := by
      by_contra hne
      have hsome := h.nested.texture (Option.isSome_iff_ne_none.2 hne)
      rw [hrenderer] at hsome
      cases hsome
    -- the window, if there is one, is new
    have hcreated : ({ s.call (.init answers.init) with
        init_ := true, window_ := (s.call (.init answers.init)).create answers.window }.call (.createWindow s.rect_
          ((s.call (.init answers.init)).create answers.window)) : SDLSink).Tracks := by
      refine hinited.call rfl ?_ ⟨?_, ?_, fun _ => rfl⟩ ?_
      · simp [objects, SDLSink.call, Sdl.step, hptr, hrenderer, hwindow]
      · simp [SDLSink.call, hptr]
      · simp [SDLSink.call, hrenderer]
      · intro window hnew
        right
        exact (Option.some.inj (Option.ite_none_right_eq_some.1 hnew).2).symm
    cases hcreate : (s.call (.init answers.init)).create answers.window with
    | none =>
      rw [hcreate] at hs hcreated
      obtain ⟨-, rfl⟩ := Prod.mk.inj (Option.some.inj hs)
      exact hcreated
    | some window =>
      rw [hcreate] at hs hcreated
      exact hcreated.startRenderer rfl hrenderer hs

/-! ### A window that is lost stays lost -/

private theorem Lost.call {s s' : SDLSink} {c : SdlCall} (h : s.Lost) (hcalls : s'.calls = s.calls ++ [c])
    (hinit : s.init_ = true → c ≠ .quit → s'.init_ = true)
    (hwindow : ∀ window, s'.window_ = some window → s.window_ = some window ∨ window = s.calls.length)
    (hdestroy : ∀ window, c = .destroyWindow window → s.window_ = some window) : s'.Lost := by
  rcases h with ⟨before, after, window, hsplit, hleft⟩ | ⟨hinited, window, hleft, hne, hlt⟩
  · exact Or.inl ⟨before, after ++ [c], window, by simp [hcalls, hsplit], hleft⟩
  by_cases hquit : c = .quit
  · exact Or.inl ⟨s.calls, [], window, by rw [hcalls, hquit], hleft⟩
  · refine Or.inr ⟨hinit hinited hquit, window, ?_, ?_, ?_⟩
    · rw [hcalls, leaves_concat_iff]
      exact Or.inl ⟨hleft, fun heq => hne (hdestroy window heq)⟩
    · intro hsome
      rcases hwindow window hsome with hold | hnew
      · exact hne hold
      · omega
    · rw [hcalls, List.length_append]
      omega

private theorem Lost.congr {s s' : SDLSink} (h : s.Lost) (hcalls : s'.calls = s.calls) (hinit : s'.init_ = s.init_)
    (hwindow : s'.window_ = s.window_) : s'.Lost := by
  rw [Lost, hcalls, hinit, hwindow]
  exact h

private theorem Lost.dropTexture {s : SDLSink} (h : s.Lost) : s.dropTexture.Lost := by
  unfold SDLSink.dropTexture
  split
  · exact h.congr rfl rfl rfl
  · exact h.call rfl (fun hinit _ => hinit) (fun window hwindow => Or.inl hwindow) nofun

/-- A call that destroys no window. -/
private theorem Lost.use {s : SDLSink} {c : SdlCall} (h : s.Lost) (hc : ∀ window, c ≠ .destroyWindow window) :
    (s.call c).Lost :=
  h.call rfl (fun hinit _ => hinit) (fun _ hwindow => Or.inl hwindow) fun window heq => absurd heq (hc window)

private theorem Lost.configure {s s' : SDLSink} (h : s.Lost) {config : List StreamConfiguration} {ret : Int}
    (hs : s.configure build config = some (ret, s')) : s'.Lost := by
  obtain ⟨rect, hdone⟩ := configure_cases hs
  have hrect : ({ s with rect_ := rect } : SDLSink).Lost := h.congr rfl rfl rfl
  rcases hdone with rfl | ⟨format, stride, rfl⟩
  · exact hrect
  · exact hrect.dropTexture.congr rfl rfl rfl

private theorem Lost.stop {s : SDLSink} (h : s.Lost) : s.stop.Lost := by
  have hrenderer : s.dropTexture.dropRenderer.Lost := by
    unfold SDLSink.dropRenderer
    split
    · exact h.dropTexture
    · exact h.dropTexture.call rfl (fun hinit _ => hinit) (fun window hwindow => Or.inl hwindow) nofun
  have hwindow : s.dropTexture.dropRenderer.dropWindow.Lost := by
    unfold SDLSink.dropWindow
    split
    · exact hrenderer
    · rename_i window hwindow
      refine hrenderer.call rfl (fun hinit _ => hinit) nofun ?_
      intro window' heq
      rw [hwindow, SdlCall.destroyWindow.inj heq]
  unfold SDLSink.stop SDLSink.quit
  split
  · exact hwindow.call rfl (fun _ hquit => absurd rfl hquit) (fun window hwindow => Or.inl hwindow) nofun
  · exact hwindow

private theorem Lost.present {s s' : SDLSink} (h : s.Lost) (hs : s.present = some s') : s'.Lost := by
  obtain ⟨texture, htexture, rfl⟩ := Option.map_eq_some_iff.1 hs
  refine Lost.use (Lost.use (Lost.use (Lost.use h ?_) ?_) ?_) ?_
  all_goals exact nofun

private theorem Lost.startRenderer {s s' : SDLSink} (h : s.Lost) {answers : SdlAnswers} {window : Nat} {ret : Int}
    (hs : s.startRenderer answers window = some (ret, s')) : s'.Lost := by
  simp only [SDLSink.startRenderer] at hs
  have hcreated : ({ s with renderer_ := s.create answers.renderer }.call
      (.createRenderer window (s.create answers.renderer)) : SDLSink).Lost :=
    h.call rfl (fun hinit _ => hinit) (fun window hwindow => Or.inl hwindow) nofun
  cases hcreate : s.create answers.renderer with
  | none =>
    rw [hcreate] at hs hcreated
    obtain ⟨-, rfl⟩ := Prod.mk.inj (Option.some.inj hs)
    exact hcreated
  | some renderer =>
    rw [hcreate] at hs hcreated
    obtain ⟨⟨ret', t⟩, ht, hdone⟩ := Option.map_eq_some_iff.1 hs
    have htexture : t.Lost := by
      obtain ⟨texture, -, hdone⟩ := Option.map_eq_some_iff.1 ht
      dsimp only at hdone
      split at hdone
      all_goals
        obtain ⟨-, rfl⟩ := Prod.mk.inj hdone
        refine Lost.call (Lost.use hcreated ?_) rfl (fun hinit _ => hinit) (fun window hwindow => Or.inl hwindow) ?_
        all_goals exact nofun
    dsimp only at hdone
    split at hdone
    · obtain ⟨-, rfl⟩ := Prod.mk.inj hdone
      exact htexture
    · obtain ⟨-, rfl⟩ := Prod.mk.inj hdone
      exact htexture.use nofun

/-- What `start` does after SDL is initialised, for any window that it creates. -/
private theorem start_of_init {s s' : SDLSink} {answers : SdlAnswers} {ret : Int}
    (hs : s.start answers = some (ret, s')) (hinit : answers.init = 0) (hlost : ∀ window_ : Option Nat,
      (∀ window, window_ = some window → window = s.calls.length + 1) →
      ({ s.call (.init answers.init) with init_ := true, window_ := window_ }.call (.createWindow s.rect_ window_) :
        SDLSink).Lost) : s'.Lost := by
  simp only [SDLSink.start] at hs
  rw [if_neg (not_not.2 hinit)] at hs
  have hnamed : ∀ window, (s.call (.init answers.init)).create answers.window = some window →
      window = s.calls.length + 1 := by
    intro window hnew
    have hname := (Option.some.inj (Option.ite_none_right_eq_some.1 hnew).2).symm
    simpa [SDLSink.call] using hname
  have hcreated := hlost _ hnamed
  cases hcreate : (s.call (.init answers.init)).create answers.window with
  | none =>
    rw [hcreate] at hs hcreated
    obtain ⟨-, rfl⟩ := Prod.mk.inj (Option.some.inj hs)
    exact hcreated
  | some window =>
    rw [hcreate] at hs hcreated
    exact hcreated.startRenderer hs

private theorem Lost.start {s s' : SDLSink} (h : s.Lost) {answers : SdlAnswers} {ret : Int}
    (hs : s.start answers = some (ret, s')) : s'.Lost := by
  have hcalled : (s.call (.init answers.init)).Lost := h.use nofun
  by_cases hinit : answers.init = 0
  · refine start_of_init hs hinit fun window_ hnew => ?_
    refine hcalled.call rfl (fun _ _ => rfl) ?_ nofun
    intro window hwindow
    right
    rw [hnew window hwindow]
    simp [SDLSink.call]
  · simp only [SDLSink.start] at hs
    rw [if_pos hinit] at hs
    obtain ⟨-, rfl⟩ := Prod.mk.inj (Option.some.inj hs)
    exact hcalled

/-- A second window takes the place of the first one in `window_`. -/
private theorem Tracks.start_lost {s s' : SDLSink} (h : s.Tracks) {answers : SdlAnswers} {ret : Int}
    (hfresh : ¬s.StartsFresh (.start answers)) (hs : s.start answers = some (ret, s')) : s'.Lost := by
  simp only [StartsFresh, not_or, not_not] at hfresh
  obtain ⟨window, hwindow⟩ := Option.ne_none_iff_exists'.1 hfresh.1
  have hlt := h.named window hwindow
  have hleft : Leaves s.calls window := (mem_windows_iff h.replay window).1 (by simp [objects, hwindow])
  refine start_of_init hs hfresh.2 fun window_ hnew => Or.inr ⟨rfl, window, ?_, ?_, ?_⟩
  · simp only [SDLSink.call]
    rw [leaves_concat_iff, leaves_concat_iff]
    exact Or.inl ⟨Or.inl ⟨hleft, nofun⟩, nofun⟩
  · intro heq
    have hname := hnew window heq
    omega
  · simp only [SDLSink.call, List.length_append]
    omega

/-! ### Whole runs -/

private theorem Tracks.step {s s' : SDLSink} {e : SdlEvent} (h : s.Tracks) (hs : s.step build e = some s') :
    (s.StartsFresh e ∧ s'.Tracks) ∨ (¬s.StartsFresh e ∧ s'.Lost) := by
  cases e with
  | configure config =>
    obtain ⟨⟨ret, t⟩, ht, rfl⟩ := Option.map_eq_some_iff.1 hs
    exact Or.inl ⟨trivial, h.configure ht⟩
  | start answers =>
    obtain ⟨⟨ret, t⟩, ht, rfl⟩ := Option.map_eq_some_iff.1 hs
    by_cases hfresh : s.StartsFresh (.start answers)
    · exact Or.inl ⟨hfresh, h.start hfresh ht⟩
    · exact Or.inr ⟨hfresh, h.start_lost hfresh ht⟩
  | frame => exact Or.inl ⟨trivial, h.present hs⟩
  | stop =>
    obtain rfl := Option.some.inj hs
    exact Or.inl ⟨trivial, h.stop.1⟩

private theorem Lost.step {s s' : SDLSink} {e : SdlEvent} (h : s.Lost) (hs : s.step build e = some s') : s'.Lost := by
  cases e with
  | configure config =>
    obtain ⟨⟨ret, t⟩, ht, rfl⟩ := Option.map_eq_some_iff.1 hs
    exact h.configure ht
  | start answers =>
    obtain ⟨⟨ret, t⟩, ht, rfl⟩ := Option.map_eq_some_iff.1 hs
    exact h.start ht
  | frame => exact h.present hs
  | stop =>
    obtain rfl := Option.some.inj hs
    exact h.stop

private theorem not_init_stop (s : SDLSink) : s.stop.init_ = false := by
  unfold SDLSink.stop SDLSink.quit
  split
  · rfl
  · rename_i hinit
    simpa using hinit

/-- Over any run of a sink and its destructor, whatever SDL answers: every call is on objects that are there, each
object is destroyed once and after what was created from it, and none is left, if and only if no window is there when
`start` creates one.  Otherwise SDL is shut down while a window is there that was not destroyed. -/
theorem objects_released_iff {s t : SDLSink} {es : List SdlEvent} (hs : (machine build).init s)
    (hr : (machine build).Run s es t) :
    (Sdl.machine.replay Sdl.idle t.stop.calls = some Sdl.idle ↔ (machine build).AllSteps StartsFresh s es) ∧
      (¬(machine build).AllSteps StartsFresh s es →
        Sdl.machine.replay Sdl.idle t.stop.calls = none ∧ QuitsWithWindow t.stop.calls) := by
  have htracks : s.Tracks := by
    obtain rfl : s = constructed := hs
    exact ⟨⟨nofun, nofun, nofun⟩, nofun, rfl⟩
  rcases hr.allSteps_or (fun _ _ _ => Tracks.step) (fun _ _ _ => Lost.step) htracks with ⟨hall, ht⟩ | ⟨hnot, ht⟩
  · obtain ⟨hstopped, hidle⟩ := ht.stop
    have hreplay := hstopped.replay
    rw [hidle] at hreplay
    exact ⟨iff_of_true hreplay hall, fun h => absurd hall h⟩
  · have hquit : QuitsWithWindow t.stop.calls := by
      rcases ht.stop with hquit | ⟨hinit, -⟩
      · exact hquit
      · rw [not_init_stop] at hinit
        cases hinit
    rw [hquit.replay]
    exact ⟨iff_of_false nofun hnot, fun _ => ⟨rfl, hquit⟩⟩

/-- A session of one frame, and a second one for which the renderer cannot be created. -/
def twoSessions : List SdlEvent :=
  [.configure [⟨0, formats.YUYV, ⟨640, 480⟩, 1280⟩], .start ⟨0, true, true, true⟩, .frame, .stop,
    .configure [⟨0, formats.NV12, ⟨640, 480⟩, 640⟩], .start ⟨0, true, false, true⟩]

theorem objects_released_iff_two :
    ∃ t, (machine ⟨true, true⟩).replay constructed twoSessions = some t ∧ t.stop.calls.length = 19 ∧
      (machine ⟨true, true⟩).AllSteps StartsFresh constructed twoSessions := by
  have hrun : ((machine ⟨true, true⟩).replay constructed twoSessions).map (fun t =>
      (t.stop.calls.length, Sdl.machine.replay Sdl.idle t.stop.calls)) = some (19, some Sdl.idle) := rfl
  obtain ⟨t, ht, hdone⟩ := Option.map_eq_some_iff.1 hrun
  rw [Prod.mk.injEq] at hdone
  exact ⟨t, ht, hdone.1, (objects_released_iff rfl (Machine.run_of_replay ht)).1.1 hdone.2⟩

end SDLSink

end Twincam
