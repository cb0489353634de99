import Twincam.EventLoop

/-!
# Quitting the application (`twincam.cpp`)

The main thread walks from the `sigaction` calls of `main` through `CamApp::exec`, `CamApp::run`, `session.init`,
`session.start` and `EventLoop::exec`; a signal handler can call `CamApp::quit` between any two of its steps.
`quit` records itself only in the break flag of libevent, and `event_base_loop` clears that flag when it starts.

So a quit is kept exactly when it does not come before the loop: `quit_kept_iff` says that a run never dispatches
with a forgotten quit if and only if no quit precedes the start of `event_base_loop` in it.
-/

namespace Twincam

namespace CamApp

/-- What the main thread does next. -/
inductive Pc
  -- `main`, after the first `sigaction`
  | main
  | run
  | sessionInit
  | sessionStart
  -- `EventLoop::exec`, before `exitCode_ = -1`
  | loopExec
  -- `EventLoop::exec`, before `event_base_loop`
  | loopEnter
  -- inside `event_base_loop`
  | dispatching
  | sessionStop
  | cleanup
  | exited
deriving DecidableEq

/-- The application; `ret` is the result of `CamApp::run` and `quitCalled` remembers that `CamApp::quit` ran. -/
structure State (F : Type) where
  pc : Pc
  loop_ : EventLoop F
  ret : Int
  quitCalled : Bool

/-- A step of the main thread with the outcome of the call it makes, or a signal. -/
inductive Event
  -- the remaining `sigaction` calls and the call of `app.exec()`
  | exec
  -- the two early returns of `CamApp::run`
  | run (print_available_cameras camerasEmpty : Bool)
  | sessionInit (ret : Int)
  | sessionStart (ret : Int)
  | setExitCode
  | enterLoop
  -- one turn of `event_base_loop`: it leaves on a pending break and runs a callback otherwise
  | iterate
  | sessionStop
  | cleanup
  -- a signal handler calls `CamApp::quit`
  | quit
deriving DecidableEq

variable {F : Type}

def quit (s : State F) : State F := { s with loop_ := s.loop_.exit 0, quitCalled := true }

/-- `CamApp::run` gives up with the result `ret`; `CamApp::exec` calls `cleanup` next. -/
def returnFromRun (s : State F) (ret : Int) : State F := { s with pc := .cleanup, ret := ret }

def step (s : State F) (e : Event) : Option (State F) :=
  match s.pc, e with
  | .exited, .quit => none
  | _, .quit => some (quit s)
  | .main, .exec => some { s with pc := .run }
  | .run, .run print_available_cameras camerasEmpty =>
    if print_available_cameras || camerasEmpty then some (returnFromRun s 0)
    else some { s with pc := .sessionInit }
  | .sessionInit, .sessionInit ret =>
    if ret ≠ 0 then some (returnFromRun s ret) else some { s with pc := .sessionStart }
  | .sessionStart, .sessionStart ret =>
    if ret ≠ 0 then some (returnFromRun s ret) else some { s with pc := .loopExec }
  | .loopExec, .setExitCode => some { s with pc := .loopEnter, loop_ := { s.loop_ with exitCode_ := -1 } }
  | .loopEnter, .enterLoop =>
    some { s with pc := .dispatching, loop_ := { s.loop_ with base_ := eventBaseLoopEnter s.loop_.base_ } }
  | .dispatching, .iterate =>
    if s.loop_.base_.event_break then
      some { s with pc := .sessionStop, loop_ := { s.loop_ with base_ := eventBaseLoopLeave s.loop_.base_ } }
    else some s
  | .sessionStop, .sessionStop => some (returnFromRun s 0)
  | .cleanup, .cleanup => some { s with pc := .exited }
  | _, _ => none

/-- The application when `main` has installed the first handler: the loop has not run and nothing has quit. -/
def Initial (s : State F) : Prop := s.pc = .main ∧ s.quitCalled = false

def machine (F : Type) : Machine (State F) Event where
  init := Initial
  step := step

/-- A quit that was called is not forgotten: while the loop dispatches, its break is pending. -/
def QuitKept (s : State F) : Prop :=
  s.quitCalled = true → s.pc = .dispatching → s.loop_.base_.event_break = true

/-- The one step that can forget a quit is the start of `event_base_loop`. -/
def Timely (s : State F) (e : Event) : Prop := e = .enterLoop → s.quitCalled = false

private theorem step_quit {s s' : State F} (h : step s .quit = some s') : s' = quit s := by
  cases hpc : s.pc with
  | exited => simp [step, hpc] at h
  | _ =>
    simp only [step, hpc, Option.some.injEq] at h
    exact h.symm

private theorem step_enterLoop {s s' : State F} (h : step s .enterLoop = some s') :
    s' = { s with pc := .dispatching, loop_ := { s.loop_ with base_ := eventBaseLoopEnter s.loop_.base_ } } := by
  cases hpc : s.pc with
  | loopEnter =>
    simp only [step, hpc, Option.some.injEq] at h
    exact h.symm
  | _ => simp [step, hpc] at h

/-- Every other step leaves the quit alone, and if the loop dispatches after it, it changed nothing. -/
private theorem step_other {s s' : State F} {e : Event} (h : step s e = some s') (hq : e ≠ .quit)
    (he : e ≠ .enterLoop) :
    s'.quitCalled = s.quitCalled ∧ (s'.pc = .dispatching → s' = s) := by
  unfold step at h
  split at h
  · cases h
  · exact absurd rfl hq
  · -- `main` calls `app.exec()`
    cases h
    exact ⟨rfl, nofun⟩
  · split at h <;> cases h <;> exact ⟨rfl, nofun⟩
  · split at h <;> cases h <;> exact ⟨rfl, nofun⟩
  · split at h <;> cases h <;> exact ⟨rfl, nofun⟩
  · -- `exitCode_ = -1`
    cases h
    exact ⟨rfl, nofun⟩
  · exact absurd rfl he
  · -- the one step after which the loop still dispatches: no break is pending
    split at h
    · cases h
      exact ⟨rfl, nofun⟩
    · cases h
      exact ⟨rfl, fun _ => rfl⟩
  · cases h
    exact ⟨rfl, nofun⟩
  · cases h
    exact ⟨rfl, nofun⟩
  · cases h

/-- Which steps keep a quit: all but a start of the loop that comes after it. -/
private theorem quitKept_step {s s' : State F} {e : Event} (hk : QuitKept s) (h : step s e = some s') :
    QuitKept s' ↔ Timely s e := by
  by_cases hq : e = .quit
  · subst hq
    rw [step_quit h]
    simp [QuitKept, Timely, quit, EventLoop.exit, eventBaseLoopbreak]
  · by_cases he : e = .enterLoop
    · subst he
      rw [step_enterLoop h]
      simp [QuitKept, Timely, eventBaseLoopEnter]
    · obtain ⟨hcalled, hsame⟩ := step_other h hq he
      constructor
      · intro _ heq; exact absurd heq he
      · intro _ hc hd
        have hs := hsame hd
        subst hs
        exact hk hc hd

/-- `quitCalled` remembers the quits of a run. -/
private theorem quitCalled_run {s t : State F} {es : List Event} (h : (machine F).Run s es t) :
    t.quitCalled = (s.quitCalled || decide (Event.quit ∈ es)) := by
  induction h with
  | nil => simp
  | @cons s s' t e es hs _ ih =>
    rw [ih]
    by_cases hq : e = .quit
    · subst hq
      rw [step_quit hs]
      simp [quit]
    · have hcalled : s'.quitCalled = s.quitCalled := by
        by_cases he : e = .enterLoop
        · subst he; rw [step_enterLoop hs]
        · exact (step_other hs hq he).1
      rw [hcalled]
      simp [Ne.symm hq]

/-- A run never dispatches with a forgotten quit if and only if no quit comes before the start of the loop in it. -/
theorem quit_kept_iff {s t : State F} {es : List Event} (hs : (machine F).init s) (hr : (machine F).Run s es t) :
    (machine F).AllStates QuitKept s es ↔ ∀ pre, pre ++ [.enterLoop] <+: es → Event.quit ∉ pre := by
  have hinit : s.quitCalled = false := hs.2
  have hkept : QuitKept s := by simp [QuitKept, hinit]
  have hiff := hr.allStates_iff (I := fun _ => True) (P := QuitKept) (G := Timely) (fun _ _ _ _ _ => trivial)
    (fun _ _ _ _ hk hstep => quitKept_step hk hstep) trivial hkept
  rw [hiff]
  constructor
  · intro hall pre hpre hmem
    obtain ⟨u, hu⟩ := hr.exists_of_isPrefix ((List.prefix_append pre _).trans hpre)
    have hcalled := hall pre .enterLoop u hpre hu rfl
    rw [quitCalled_run hu] at hcalled
    simp [hmem] at hcalled
  · intro hall pre e u hpre hu he
    subst he
    rw [quitCalled_run hu, hinit]
    simpa using hall pre hpre

def started : State Unit := ⟨.main, ⟨⟨0, false, false⟩, -1, []⟩, 0, false⟩

def lateQuit : List Event :=
  [.exec, .run false false, .sessionInit 0, .sessionStart 0, .setExitCode, .enterLoop, .quit, .iterate]

theorem quit_kept_iff_late :
    (machine Unit).AllStates QuitKept started lateQuit ↔
      ∀ pre, pre ++ [.enterLoop] <+: lateQuit → Event.quit ∉ pre := by
  have hrun : (machine Unit).replay started lateQuit = some _ := rfl
  exact quit_kept_iff ⟨rfl, rfl⟩ (Machine.run_of_replay hrun)

/-- A quit while the session starts: the loop clears it and dispatches as if it had never come. -/
theorem early_quit_forgotten :
    ∃ t, (machine Unit).init started ∧
      (machine Unit).Run started
        [.exec, .run false false, .sessionInit 0, .quit, .sessionStart 0, .setExitCode, .enterLoop] t ∧
      t.quitCalled = true ∧ t.pc = .dispatching ∧ t.loop_.base_.event_break = false ∧ ¬QuitKept t := by
  refine ⟨_, ⟨rfl, rfl⟩, Machine.run_of_replay rfl, rfl, rfl, rfl, ?_⟩
  intro h
  exact absurd (h rfl rfl) (by decide)

end CamApp

end Twincam
