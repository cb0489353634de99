import Mathlib.Data.List.Infix
import Mathlib.Tactic.Common

/-!
# Guarded transition systems

A `Machine` is a set of initial states and an executable guarded step: `step s e` is `some s'` when the event `e`
is enabled in `s` and leads to `s'`, and `none` when it is not.

* `ReachableVia G` are the states reached through steps that all satisfy the side condition `G`; the invariant
  rule and the simulation rule are `ReachableVia.invariant` and `ReachableVia.simulation`.
* `Run s es t` is one run; `AllStates` and `AllSteps` speak about every state it passes through and every step it
  takes.  `Run.allStates_iff` turns an exact one-step condition into an exact condition on whole runs.
-/

/-- A transition system: its initial states and its guarded step. -/
structure Machine (S Ev : Type) where
  init : S → Prop
  step : S → Ev → Option S

namespace Machine

variable {S Ev T Op : Type} {M : Machine S Ev} {N : Machine T Op}

/-! ### Reachable states -/

/-- The states reached from an initial state through steps that satisfy `G`. -/
inductive ReachableVia (M : Machine S Ev) (G : S → Ev → Prop) : S → Prop
  | init {s : S} : M.init s → ReachableVia M G s
  | step {s s' : S} {e : Ev} : ReachableVia M G s → G s e → M.step s e = some s' → ReachableVia M G s'

/-- The states reached from an initial state. -/
def Reachable (M : Machine S Ev) : S → Prop := M.ReachableVia fun _ _ => True

/-- An invariant holds in every reachable state once it holds initially and every admitted step keeps it. -/
theorem ReachableVia.invariant {G : S → Ev → Prop} {P : S → Prop} (hinit : ∀ s, M.init s → P s)
    (hstep : ∀ s e s', P s → G s e → M.step s e = some s' → P s') {s : S} (h : M.ReachableVia G s) : P s := by
  induction h with
  | init hi => exact hinit _ hi
  | step _ hg hs ih => exact hstep _ _ _ ih hg hs

theorem ReachableVia.mono {G G' : S → Ev → Prop} (hG : ∀ s e, G s e → G' s e) {s : S}
    (h : M.ReachableVia G s) : M.ReachableVia G' s := by
  induction h with
  | init hi => exact .init hi
  | step _ hg hs ih => exact .step ih (hG _ _ hg) hs

theorem Reachable.of_step {s s' : S} {e : Ev} (h : M.Reachable s) (hs : M.step s e = some s') :
    M.Reachable s' :=
  ReachableVia.step h trivial hs

/-- Forward simulation: when every admitted step of `M` is matched by a step of `N` or by no step at all, every
reachable state of `M` is related to a reachable state of `N`. -/
theorem ReachableVia.simulation {G : S → Ev → Prop} {H : T → Op → Prop} (R : S → T → Prop)
    (hinit : ∀ s, M.init s → ∃ a, N.init a ∧ R s a)
    (hstep : ∀ s a e s', R s a → G s e → M.step s e = some s' →
      R s' a ∨ ∃ o a', H a o ∧ N.step a o = some a' ∧ R s' a')
    {s : S} (h : M.ReachableVia G s) : ∃ a, N.ReachableVia H a ∧ R s a := by
  induction h with
  | init hi =>
    obtain ⟨a, ha, hR⟩ := hinit _ hi
    exact ⟨a, .init ha, hR⟩
  | step _ hg hs ih =>
    obtain ⟨a, ha, hR⟩ := ih
    rcases hstep _ a _ _ hR hg hs with hR' | ⟨o, a', hg', hs', hR'⟩
    · exact ⟨a, ha, hR'⟩
    · exact ⟨a', .step ha hg' hs', hR'⟩

/-! ### Runs -/

/-- `M.Run s es t`: the events `es` are enabled one after the other from `s` and lead to `t`. -/
inductive Run (M : Machine S Ev) : S → List Ev → S → Prop
  | nil (s : S) : Run M s [] s
  | cons {s s' t : S} {e : Ev} {es : List Ev} : M.step s e = some s' → Run M s' es t → Run M s (e :: es) t

theorem run_nil_iff {s t : S} : M.Run s [] t ↔ t = s := by
  constructor
  · rintro ⟨⟩; rfl
  · rintro rfl; exact .nil _

theorem run_cons_iff {s t : S} {e : Ev} {es : List Ev} :
    M.Run s (e :: es) t ↔ ∃ s', M.step s e = some s' ∧ M.Run s' es t := by
  constructor
  · intro h
    rcases h with _ | ⟨hs, hr⟩
    exact ⟨_, hs, hr⟩
  · intro h
    obtain ⟨s', hs, hr⟩ := h
    exact .cons hs hr

theorem Run.invariant {P : S → Prop} (hstep : ∀ s e s', P s → M.step s e = some s' → P s')
    {s t : S} {es : List Ev} (h : M.Run s es t) (hs : P s) : P t := by
  induction h with
  | nil => exact hs
  | cons he _ ih => exact ih (hstep _ _ _ hs he)

theorem Run.exists_of_isPrefix {s t : S} {es pre : List Ev} (h : M.Run s es t) (hpre : pre <+: es) :
    ∃ u, M.Run s pre u := by
  induction h generalizing pre with
  | nil s =>
    rw [List.prefix_nil] at hpre
    exact ⟨s, hpre ▸ .nil s⟩
  | @cons s s' t e es he _ ih =>
    cases pre with
    | nil => exact ⟨s, .nil s⟩
    | cons d pre =>
      obtain ⟨rfl, htail⟩ := List.cons_prefix_cons.1 hpre
      obtain ⟨u, hu⟩ := ih htail
      exact ⟨u, .cons he hu⟩

/-- `P` holds in every state that a run along `es` from `s` passes through. -/
def AllStates (M : Machine S Ev) (P : S → Prop) (s : S) (es : List Ev) : Prop :=
  ∀ pre t, pre <+: es → M.Run s pre t → P t

/-- `G` holds of every step that a run along `es` from `s` takes: of the state before the step and its event. -/
def AllSteps (M : Machine S Ev) (G : S → Ev → Prop) (s : S) (es : List Ev) : Prop :=
  ∀ pre e t, pre ++ [e] <+: es → M.Run s pre t → G t e

private theorem allStates_nil {P : S → Prop} {s : S} : M.AllStates P s [] ↔ P s := by
  constructor
  · intro h; exact h [] s List.prefix_rfl (.nil s)
  · intro h pre t hpre hr
    rw [List.prefix_nil] at hpre
    subst hpre
    rw [run_nil_iff] at hr
    exact hr ▸ h

private theorem allStates_cons {P : S → Prop} {s s' : S} {e : Ev} {es : List Ev} (hs : M.step s e = some s') :
    M.AllStates P s (e :: es) ↔ P s ∧ M.AllStates P s' es := by
  constructor
  · intro h
    refine ⟨h [] s List.nil_prefix (.nil s), fun pre t hpre hr => ?_⟩
    exact h (e :: pre) t (List.cons_prefix_cons.2 ⟨rfl, hpre⟩) (.cons hs hr)
  · rintro ⟨hP, h⟩ pre t hpre hr
    cases pre with
    | nil => rw [run_nil_iff] at hr; exact hr ▸ hP
    | cons d pre =>
      obtain ⟨rfl, htail⟩ := List.cons_prefix_cons.1 hpre
      obtain ⟨s₁, hs₁, hr⟩ := run_cons_iff.1 hr
      rw [hs, Option.some.injEq] at hs₁
      exact h pre t htail (hs₁ ▸ hr)

theorem allSteps_nil {G : S → Ev → Prop} {s : S} : M.AllSteps G s [] :=
  fun pre e t hpre _ => absurd (List.prefix_nil.1 hpre) (by simp)

theorem allSteps_cons {G : S → Ev → Prop} {s s' : S} {e : Ev} {es : List Ev} (hs : M.step s e = some s') :
    M.AllSteps G s (e :: es) ↔ G s e ∧ M.AllSteps G s' es := by
  constructor
  · intro h
    refine ⟨h [] e s ?_ (.nil s), fun pre d t hpre hr => ?_⟩
    · exact List.cons_prefix_cons.2 ⟨rfl, List.nil_prefix⟩
    · exact h (e :: pre) d t (List.cons_prefix_cons.2 ⟨rfl, hpre⟩) (.cons hs hr)
  · rintro ⟨hG, h⟩ pre d t hpre hr
    cases pre with
    | nil =>
      rw [run_nil_iff] at hr
      obtain ⟨rfl, -⟩ := List.cons_prefix_cons.1 hpre
      exact hr ▸ hG
    | cons c pre =>
      rw [List.cons_append] at hpre
      obtain ⟨rfl, htail⟩ := List.cons_prefix_cons.1 hpre
      obtain ⟨s₁, hs₁, hr⟩ := run_cons_iff.1 hr
      rw [hs, Option.some.injEq] at hs₁
      exact h pre d t htail (hs₁ ▸ hr)

/-- A one-step characterisation lifts to runs: if, under the invariant `I`, a step from a `P`-state ends in a
`P`-state exactly when it satisfies `G`, then a run stays in `P` exactly when all its steps satisfy `G`. -/
theorem Run.allStates_iff {I P : S → Prop} {G : S → Ev → Prop}
    (hI : ∀ s e s', I s → M.step s e = some s' → I s')
    (hP : ∀ s e s', I s → P s → M.step s e = some s' → (P s' ↔ G s e))
    {s t : S} {es : List Ev} (h : M.Run s es t) (hi : I s) (hp : P s) :
    M.AllStates P s es ↔ M.AllSteps G s es := by
  induction h with
  | nil s => exact ⟨fun _ => allSteps_nil, fun _ => allStates_nil.2 hp⟩
  | cons he _ ih =>
    rw [allStates_cons he, allSteps_cons he]
    have hiff := hP _ _ _ hi hp he
    constructor
    · intro h
      obtain ⟨-, hall⟩ := h
      have hp' := hall [] _ List.nil_prefix (.nil _)
      exact ⟨hiff.1 hp', (ih (hI _ _ _ hi he) hp').1 hall⟩
    · intro h
      obtain ⟨hg, hall⟩ := h
      exact ⟨hp, (ih (hI _ _ _ hi he) (hiff.2 hg)).2 hall⟩

/-- A run whose events all satisfy the side condition stays among the states reached through it. -/
theorem Run.reachableVia {G : S → Ev → Prop} {s t : S} {es : List Ev} (h : M.Run s es t) (hG : ∀ s, ∀ e ∈ es, G s e)
    (hs : M.ReachableVia G s) : M.ReachableVia G t := by
  induction h with
  | nil => exact hs
  | cons he _ ih =>
    exact ih (fun s e hmem => hG s e (List.mem_cons_of_mem _ hmem)) (hs.step (hG _ _ List.mem_cons_self) he)

/-! ### Replaying events -/

/-- The state after the events, if they are enabled one after the other. -/
def replay (M : Machine S Ev) : S → List Ev → Option S
  | s, [] => some s
  | s, e :: es => (M.step s e).bind fun s' => M.replay s' es

theorem replay_append (M : Machine S Ev) (s : S) (es fs : List Ev) :
    M.replay s (es ++ fs) = (M.replay s es).bind fun t => M.replay t fs := by
  induction es generalizing s with
  | nil => rfl
  | cons e es ih =>
    rw [List.cons_append, replay, replay, Option.bind_assoc]
    exact congrArg _ (funext ih)

theorem run_of_replay {s t : S} {es : List Ev} (h : M.replay s es = some t) : M.Run s es t := by
  induction es generalizing s with
  | nil => exact run_nil_iff.2 (Option.some.inj h).symm
  | cons e es ih =>
    obtain ⟨s', hs, hrest⟩ := Option.bind_eq_some_iff.1 h
    exact .cons hs (ih hrest)

theorem reachable_of_replay {s t : S} {es : List Ev} (hs : M.init s) (h : M.replay s es = some t) : M.Reachable t :=
  (run_of_replay h).reachableVia (fun _ _ _ => trivial) (.init hs)

end Machine
