import Twincam.Lib.Ledger
import Twincam.Lib.Search
import Mathlib.Algebra.Group.Nat.Defs

/-!
# Acquiring a camera (`CameraSession::init`, `validateConfig` and the destructor in `camera_session.cpp`)

`init` tries the cameras one after the other.  `validateConfig` gives a camera that it acquired back when it cannot be
configured, and clears `camera_` then, but it leaves a camera in `camera_` that it could not acquire.  When that is the
last one tried, the destructor releases it.  `balanced_iff` says when the calls of a session balance.
-/

namespace Twincam

/-- `CameraConfiguration::Status`. -/
inductive ConfigurationStatus
  | Valid
  | Adjusted
  | Invalid
deriving DecidableEq

/-- How the cameras answer: `acquire`, the number of streams of the configuration that `generateConfiguration` yields,
if it yields one, and the result of its `validate`. -/
structure CameraAnswers (C : Type) where
  acquire : C → Int
  generateConfiguration : C → Option Nat
  validate : C → ConfigurationStatus

inductive CameraCall (C : Type)
  | acquire (camera : C) (ret : Int)
  | release (camera : C)
deriving DecidableEq

/-- What a call does to the ledger of held cameras; a failed `acquire` does nothing. -/
def CameraCall.entry? {C : Type} : CameraCall C → Option (Ledger.Entry C)
  | .acquire camera ret => if ret = 0 then some (.acquire camera) else none
  | .release camera => some (.release camera)

/-- The camera of a session and the camera its configuration was made for, and the calls so far. -/
structure CameraHolder (C : Type) where
  camera_ : Option C
  config_ : Option C
  calls : List (CameraCall C)

namespace CameraHolder

variable {C : Type}

def acquire (s : CameraHolder C) (camera : C) (ret : Int) : CameraHolder C :=
  { s with calls := s.calls ++ [.acquire camera ret] }

def release (s : CameraHolder C) (camera : C) : CameraHolder C := { s with calls := s.calls ++ [.release camera] }

/-- The end of the failure exits that give the camera back. -/
def giveBack (s : CameraHolder C) (camera : C) : CameraHolder C := { s.release camera with camera_ := none }

def validateConfig (answers : CameraAnswers C) (s : CameraHolder C) : Int × CameraHolder C :=
  match s.camera_ with
  | none => (1, s)
  | some camera =>
    let s := s.acquire camera (answers.acquire camera)
    if answers.acquire camera ≠ 0 then (2, s)
    else if answers.generateConfiguration camera ≠ some 1 then (3, s.giveBack camera)
    else
      match answers.validate camera with
      | .Invalid => (4, s.giveBack camera)
      | .Valid | .Adjusted => (0, { s with config_ := some camera })

/-- The loop of `init` over the cameras. -/
def tryCameras (answers : CameraAnswers C) : List C → CameraHolder C → Int × CameraHolder C
  | [], s => (1, s)
  | camera :: cameras, s =>
    let (ret, s) := validateConfig answers { s with camera_ := some camera }
    if ret = 0 then (0, s) else tryCameras answers cameras s

/-- `static_cast<int>` of the number of cameras. -/
def intSize (cameras : List C) : Int := (cameras.length : Int).bmod (2 ^ 32)

/-- `CameraSession::init`; the option `camera` is a `long`, but only ever set to an `int`. -/
def init (answers : CameraAnswers C) (cameras : List C) (camera : Int32) (s : CameraHolder C) : Int × CameraHolder C :=
  if camera < 0 then tryCameras answers cameras s
  else if camera.toInt < intSize cameras then
    match cameras[camera.toInt.toNat]? with
    | none => (1, s)
    | some c =>
      let (ret, s) := validateConfig answers { s with camera_ := some c }
      if ret = 0 then (0, s) else (1, s)
  else (1, s)

/-- A session that was just constructed. -/
def constructed : CameraHolder C := ⟨none, none, []⟩

/-- `CameraSession::~CameraSession`. -/
def destructor (s : CameraHolder C) : CameraHolder C :=
  match s.camera_ with
  | none => s
  | some camera => s.release camera

/-! ### One camera -/

/-- The camera can be acquired and configured. -/
def Passes (answers : CameraAnswers C) (camera : C) : Prop :=
  answers.acquire camera = 0 ∧ answers.generateConfiguration camera = some 1 ∧ answers.validate camera ≠ .Invalid

instance (answers : CameraAnswers C) : DecidablePred (Passes answers) := fun _ => inferInstanceAs (Decidable (_ ∧ _))

/-- The three ways in which `validateConfig` leaves the session after trying a camera. -/
private theorem validateConfig_cases (answers : CameraAnswers C) (s : CameraHolder C) (camera : C) :
    (Passes answers camera ∧ validateConfig answers { s with camera_ := some camera } =
      (0, ⟨some camera, some camera, s.calls ++ [.acquire camera 0]⟩)) ∨
    (answers.acquire camera ≠ 0 ∧ validateConfig answers { s with camera_ := some camera } =
      (2, ⟨some camera, s.config_, s.calls ++ [.acquire camera (answers.acquire camera)]⟩)) ∨
    (¬Passes answers camera ∧ answers.acquire camera = 0 ∧ ∃ ret, ret ≠ 0 ∧
      validateConfig answers { s with camera_ := some camera } =
        (ret, ⟨none, s.config_, s.calls ++ [.acquire camera 0, .release camera]⟩)) := by
  by_cases hacquire : answers.acquire camera = 0
  · by_cases hgen : answers.generateConfiguration camera = some 1
    · cases hval : answers.validate camera with
      | Invalid =>
        refine Or.inr (Or.inr ⟨fun h => h.2.2 hval, hacquire, 4, by decide, ?_⟩)
        simp [validateConfig, acquire, giveBack, release, hacquire, hgen, hval]
      | Valid =>
        refine Or.inl ⟨⟨hacquire, hgen, by simp [hval]⟩, ?_⟩
        simp [validateConfig, acquire, hacquire, hgen, hval]
      | Adjusted =>
        refine Or.inl ⟨⟨hacquire, hgen, by simp [hval]⟩, ?_⟩
        simp [validateConfig, acquire, hacquire, hgen, hval]
    · refine Or.inr (Or.inr ⟨fun h => hgen h.2.1, hacquire, 3, by decide, ?_⟩)
      simp [validateConfig, acquire, giveBack, release, hacquire, hgen]
  · refine Or.inr (Or.inl ⟨hacquire, ?_⟩)
    simp [validateConfig, acquire, hacquire]

/-! ### The cameras that are held -/

section Ledger

variable [DecidableEq C]

/-- The cameras held after the calls; `none` when one was released that was not held. -/
def held (calls : List (CameraCall C)) : Option (List C) := Ledger.machine.replay [] (calls.filterMap CameraCall.entry?)

private theorem held_append {xs : List (CameraCall C)} {hs : List C} (h : held xs = some hs)
    (ys : List (CameraCall C)) :
    held (xs ++ ys) = Ledger.machine.replay hs (ys.filterMap CameraCall.entry?) := by
  rw [held] at h
  rw [held, List.filterMap_append, Machine.replay_append, h]
  rfl

private theorem held_acquire {calls : List (CameraCall C)} {hs : List C} (h : held calls = some hs) (camera : C) :
    held (calls ++ [.acquire camera 0]) = some (camera :: hs) := by
  rw [held_append h]
  rfl

/-- A failed `acquire` leaves everything as it is. -/
private theorem held_acquire_failed {calls : List (CameraCall C)} {hs : List C} (h : held calls = some hs) (camera : C)
    {ret : Int} (hret : ret ≠ 0) : held (calls ++ [.acquire camera ret]) = some hs := by
  have hentry : CameraCall.entry? (.acquire camera ret) = none := if_neg hret
  rw [held_append h, List.filterMap_cons_none hentry]
  rfl

private theorem held_release {calls : List (CameraCall C)} {hs : List C} (h : held calls = some hs) (camera : C) :
    held (calls ++ [.release camera]) = if camera ∈ hs then some (hs.erase camera) else none := by
  rw [held_append h]
  show (Ledger.machine.step hs (.release camera)).bind _ = _
  by_cases hmem : camera ∈ hs
  · rw [Ledger.step_release hmem, if_pos hmem]
    rfl
  · rw [if_neg hmem, show Ledger.machine.step hs (.release camera) = none from if_neg hmem]
    rfl

private theorem held_acquire_release {calls : List (CameraCall C)} {hs : List C} (h : held calls = some hs)
    (camera : C) :
    held (calls ++ [.acquire camera 0, .release camera]) = some hs := by
  have hsplit : calls ++ [.acquire camera 0, .release camera] = calls ++ [.acquire camera 0] ++ [.release camera] := by
    simp
  rw [hsplit, held_release (held_acquire h camera), if_pos List.mem_cons_self, List.erase_cons_head]

/-! ### The search -/

/-- What `init` leaves behind after trying the cameras `tried` from the state `s`: the first one that passes, acquired;
or none, and then `camera_` is the last one if it could not be acquired. -/
structure Tried (answers : CameraAnswers C) (tried : List C) (s : CameraHolder C) (r : Int × CameraHolder C) :
    Prop where
  found : (∃ c ∈ tried, Passes answers c) →
    r.1 = 0 ∧ ∃ c, r.2.camera_ = some c ∧ Search.First (Passes answers) tried c ∧ held r.2.calls = some [c]
  failed : (¬∃ c ∈ tried, Passes answers c) → r.1 = 1 ∧ held r.2.calls = some [] ∧
    r.2.camera_ = match tried.getLast? with
      | none => s.camera_
      | some c => if answers.acquire c = 0 then none else some c

/-- One more camera in front that does not pass and leaves `camera_` as `s'` has it. -/
private theorem Tried.cons {answers : CameraAnswers C} {tried : List C} {s s' : CameraHolder C}
    {r : Int × CameraHolder C} (h : Tried answers tried s' r) {camera : C} (hfail : ¬Passes answers camera)
    (hs' : s'.camera_ = if answers.acquire camera = 0 then none else some camera) :
    Tried answers (camera :: tried) s r := by
  have hiff : (∃ c ∈ camera :: tried, Passes answers c) ↔ ∃ c ∈ tried, Passes answers c := by simp [hfail]
  refine ⟨?_, ?_⟩
  · intro hex
    obtain ⟨hret, c, hc, ⟨before, after, hsplit, hp, hbefore⟩, hheld⟩ := h.found (hiff.1 hex)
    refine ⟨hret, c, hc, ⟨camera :: before, after, by rw [hsplit]; rfl, hp, ?_⟩, hheld⟩
    intro b hb
    rcases List.mem_cons.1 hb with rfl | hb
    · exact hfail
    · exact hbefore b hb
  · intro hno
    obtain ⟨hret, hheld, hcamera⟩ := h.failed fun hex => hno (hiff.2 hex)
    refine ⟨hret, hheld, ?_⟩
    rw [hcamera, List.getLast?_cons]
    cases tried.getLast? with
    | none => exact hs'
    | some c => rfl

theorem tryCameras_spec (answers : CameraAnswers C) (cameras : List C) {s : CameraHolder C}
    (hs : held s.calls = some []) : Tried answers cameras s (tryCameras answers cameras s) := by
  induction cameras generalizing s with
  | nil => exact ⟨by simp, fun _ => ⟨rfl, hs, rfl⟩⟩
  | cons camera cameras ih =>
    rcases validateConfig_cases answers s camera with ⟨hpass, heq⟩ | ⟨hacquire, heq⟩ | ⟨hfail, hacquire, ret, hret, heq⟩
    · -- the camera passes and the loop ends
      have htry : tryCameras answers (camera :: cameras) s =
          (0, ⟨some camera, some camera, s.calls ++ [.acquire camera 0]⟩) := by simp [tryCameras, heq]
      rw [htry]
      refine ⟨fun _ => ⟨rfl, camera, rfl, ⟨[], cameras, rfl, hpass, by simp⟩, held_acquire hs camera⟩, ?_⟩
      intro hno
      exact absurd ⟨camera, List.mem_cons_self, hpass⟩ hno
    · -- it cannot be acquired and stays in `camera_`
      have hfail : ¬Passes answers camera := fun h => hacquire h.1
      have htry : tryCameras answers (camera :: cameras) s = tryCameras answers cameras
          ⟨some camera, s.config_, s.calls ++ [.acquire camera (answers.acquire camera)]⟩ := by simp [tryCameras, heq]
      rw [htry]
      exact (ih (held_acquire_failed hs camera hacquire)).cons hfail (by simp [hacquire])
    · -- it is given back and `camera_` is cleared
      have htry : tryCameras answers (camera :: cameras) s = tryCameras answers cameras
          ⟨none, s.config_, s.calls ++ [.acquire camera 0, .release camera]⟩ := by simp [tryCameras, heq, hret]
      rw [htry]
      exact (ih (held_acquire_release hs camera)).cons hfail (by simp [hacquire])

/-! ### The whole life of a session -/

/-- The cameras that the option selects. -/
def selected (cameras : List C) (camera : Int32) : List C :=
  if camera < 0 then cameras else cameras[camera.toInt.toNat]?.toList

/-- The cameras that `init` tries, unless one passes: a selected camera behind the `int` size of the list is not. -/
def tried (cameras : List C) (camera : Int32) : List C :=
  if camera < 0 then cameras
  else if camera.toInt < intSize cameras then cameras[camera.toInt.toNat]?.toList
  else []

omit [DecidableEq C] in
theorem init_eq (answers : CameraAnswers C) (cameras : List C) (camera : Int32) (s : CameraHolder C) :
    init answers cameras camera s = tryCameras answers (tried cameras camera) s := by
  unfold init tried
  by_cases hneg : camera < 0
  · rw [if_pos hneg, if_pos hneg]
  · rw [if_neg hneg, if_neg hneg]
    by_cases hlt : camera.toInt < intSize cameras
    · rw [if_pos hlt, if_pos hlt]
      cases cameras[camera.toInt.toNat]? with
      | none => rfl
      | some c => rfl
    · rw [if_neg hlt, if_neg hlt]
      rfl

omit [DecidableEq C] in
private theorem selected_eq_tried {answers : CameraAnswers C} {cameras : List C} {camera : Int32}
    (h : ∃ c ∈ tried cameras camera, Passes answers c) : selected cameras camera = tried cameras camera := by
  unfold tried at h
  unfold selected tried
  by_cases hneg : camera < 0
  · rw [if_pos hneg, if_pos hneg]
  · rw [if_neg hneg] at h
    rw [if_neg hneg, if_neg hneg]
    by_cases hlt : camera.toInt < intSize cameras
    · rw [if_pos hlt]
    · rw [if_neg hlt] at h
      obtain ⟨c, hc, -⟩ := h
      cases hc

/-- A session acquires the first of the selected cameras that passes and no other one, fails without holding a camera
if there is none, and has released what it acquired in the end. -/
structure Balanced (answers : CameraAnswers C) (cameras : List C) (camera : Int32) : Prop where
  result : (init answers cameras camera constructed).1 = 0 ↔ ∃ c ∈ selected cameras camera, Passes answers c
  success : (init answers cameras camera constructed).1 = 0 →
    ∃ c, (init answers cameras camera constructed).2.camera_ = some c ∧
      Search.First (Passes answers) (selected cameras camera) c ∧
      held (init answers cameras camera constructed).2.calls = some [c]
  failure : (init answers cameras camera constructed).1 ≠ 0 →
    held (init answers cameras camera constructed).2.calls = some []
  released : held (init answers cameras camera constructed).2.destructor.calls = some []

/-- A camera is released exactly as often as it is acquired. -/
theorem Balanced.release_count {answers : CameraAnswers C} {cameras : List C} {camera : Int32}
    (h : Balanced answers cameras camera) (c : C) :
    let entries := (init answers cameras camera constructed).2.destructor.calls.filterMap CameraCall.entry?
    entries.count (.acquire c) = entries.count (.release c) :=
  Ledger.balanced_of_run (Machine.run_of_replay h.released) c

/-- A session is balanced if and only if a selected camera that passes is also tried, and either one of the tried
cameras passes or the last one of them could be acquired. -/
theorem balanced_iff (answers : CameraAnswers C) (cameras : List C) (camera : Int32) :
    Balanced answers cameras camera ↔
      ((∃ c ∈ selected cameras camera, Passes answers c) → ∃ c ∈ tried cameras camera, Passes answers c) ∧
      ((∃ c ∈ tried cameras camera, Passes answers c) ∨
        ∀ c ∈ (tried cameras camera).getLast?, answers.acquire c = 0) := by
  have hspec : Tried answers (tried cameras camera) constructed (init answers cameras camera constructed) := by
    rw [init_eq]
    exact tryCameras_spec answers _ rfl
  by_cases hpass : ∃ c ∈ tried cameras camera, Passes answers c
  · obtain ⟨hret, c, hcamera, hfirst, hheld⟩ := hspec.found hpass
    have hselected := selected_eq_tried hpass
    have hreleased : held (init answers cameras camera constructed).2.destructor.calls = some [] := by
      rw [destructor, hcamera]
      show held (_ ++ [.release c]) = _
      rw [held_release hheld, if_pos List.mem_cons_self, List.erase_cons_head]
    refine iff_of_true ⟨?_, ?_, ?_, hreleased⟩ ⟨fun _ => hpass, Or.inl hpass⟩
    · rw [hselected]
      exact iff_of_true hret hpass
    · rw [hselected]
      exact fun _ => ⟨c, hcamera, hfirst, hheld⟩
    · exact fun hne => absurd hret hne
  · obtain ⟨hret, hheld, hcamera⟩ := hspec.failed hpass
    have hne : (init answers cameras camera constructed).1 ≠ 0 := by
      rw [hret]
      decide
    have hreleased : held (init answers cameras camera constructed).2.destructor.calls = some [] ↔
        ∀ c ∈ (tried cameras camera).getLast?, answers.acquire c = 0 := by
      rw [destructor]
      cases hlast : (tried cameras camera).getLast? with
      | none =>
        have hnone : (init answers cameras camera constructed).2.camera_ = none := by
          rw [hcamera, hlast]
          rfl
        simp [hnone, hheld]
      | some c =>
        rw [hlast] at hcamera
        by_cases hacquire : answers.acquire c = 0
        · simp [hcamera, hacquire, hheld]
        · have hrelease := held_release hheld c
          rw [if_neg (by simp)] at hrelease
          simp [hcamera, hacquire, release, hrelease]
    constructor
    · intro h
      exact ⟨fun hex => absurd (h.result.2 hex) hne, Or.inr (hreleased.1 h.released)⟩
    · rintro ⟨hreach, hor⟩
      refine ⟨?_, fun h => absurd h hne, fun _ => hheld, hreleased.2 (hor.resolve_left hpass)⟩
      exact iff_of_false hne fun hex => hpass (hreach hex)

/-- A camera that another process holds: the session releases it all the same. -/
theorem busy_camera_released :
    let answers : CameraAnswers Nat := ⟨fun _ => -16, fun _ => some 1, fun _ => .Valid⟩
    (init answers [0] 0 constructed).2.destructor.calls = [.acquire 0 (-16), .release 0] ∧
      ¬Balanced answers [0] 0 := by
  refine ⟨rfl, ?_⟩
  intro h
  exact absurd h.released (by decide)

end Ledger

end CameraHolder

end Twincam
