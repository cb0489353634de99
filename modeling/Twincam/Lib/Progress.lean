import Twincam.Lib.Machine

/-!
# Progress of guarded transition systems

More about runs.  A measure that every step of a kind decreases bounds the runs made of such steps, and such a run can
always be carried on until no step of the kind is enabled.  The kind is a side condition `G`; the decrease may use an
invariant `I`.  `Run.allSteps_or` is for exact conditions on whole runs.
-/

namespace Machine

variable {S Ev : Type} {M : Machine S Ev} {I : S → Prop} {G : S → Ev → Prop}

/-- No step that satisfies `G` is enabled. -/
def AtRest (M : Machine S Ev) (G : S → Ev → Prop) (s : S) : Prop := ∀ e, G s e → M.step s e = none

theorem allSteps_of_forall {s : S} {es : List Ev} (h : ∀ s, ∀ e ∈ es, G s e) : M.AllSteps G s es :=
  fun _ e t hpre _ => h t e (hpre.subset (List.mem_append_right _ (List.mem_singleton_self e)))

theorem Run.allSteps_iff_forall {P : Ev → Prop} {s t : S} {es : List Ev} (h : M.Run s es t) :
    M.AllSteps (fun _ e => P e) s es ↔ ∀ e ∈ es, P e := by
  induction h with
  | nil => exact iff_of_true allSteps_nil (by simp)
  | cons he _ ih => rw [allSteps_cons he, ih, List.forall_mem_cons]

theorem replay_concat {s t u : S} {es : List Ev} {e : Ev} (h : M.replay s es = some t) (he : M.step t e = some u) :
    M.replay s (es ++ [e]) = some u := by
  rw [replay_append, h, Option.bind_some, replay, he]
  rfl

/-- An invariant of the steps that satisfy `G` holds at the end of a run of such steps. -/
theorem Run.invariantVia (hI : ∀ s e s', I s → G s e → M.step s e = some s' → I s') {s t : S} {es : List Ev}
    (h : M.Run s es t) (hG : M.AllSteps G s es) (hs : I s) : I t := by
  induction h with
  | nil => exact hs
  | cons he _ ih =>
    rw [allSteps_cons he] at hG
    exact ih hG.2 (hI _ _ _ hs hG.1 he)

/-- The first step that does not satisfy `G` decides a run: up to it `P` holds, and from it on `Q` does. -/
theorem Run.allSteps_or {P Q : S → Prop}
    (hP : ∀ s e s', P s → M.step s e = some s' → (G s e ∧ P s') ∨ (¬G s e ∧ Q s'))
    (hQ : ∀ s e s', Q s → M.step s e = some s' → Q s') {s t : S} {es : List Ev} (h : M.Run s es t) (hs : P s) :
    (M.AllSteps G s es ∧ P t) ∨ (¬M.AllSteps G s es ∧ Q t) := by
  induction h with
  | nil => exact Or.inl ⟨allSteps_nil, hs⟩
  | cons he hrest ih =>
    rw [allSteps_cons he]
    rcases hP _ _ _ hs he with ⟨hg, hp⟩ | ⟨hg, hq⟩
    · rcases ih hp with ⟨hall, ht⟩ | ⟨hnot, ht⟩
      · exact Or.inl ⟨⟨hg, hall⟩, ht⟩
      · exact Or.inr ⟨fun hall => hnot hall.2, ht⟩
    · exact Or.inr ⟨fun hall => hg hall.1, hrest.invariant hQ hq⟩

/-- Every step takes at least one from the measure, so the measure pays for the run. -/
theorem Run.length_add_le_measure {μ : S → Nat} (hI : ∀ s e s', I s → G s e → M.step s e = some s' → I s')
    (hμ : ∀ s e s', I s → G s e → M.step s e = some s' → μ s' < μ s) {s t : S} {es : List Ev}
    (h : M.Run s es t) (hG : M.AllSteps G s es) (hs : I s) : es.length + μ t ≤ μ s := by
  induction h with
  | nil => simp
  | cons he _ ih =>
    rw [allSteps_cons he] at hG
    have hrest := ih hG.2 (hI _ _ _ hs hG.1 he)
    have hlt := hμ _ _ _ hs hG.1 he
    rw [List.length_cons]
    omega

/-- From every state a run of steps that decrease a measure leads to a state at rest. -/
theorem exists_run_atRest {μ : S → Nat} (hI : ∀ s e s', I s → G s e → M.step s e = some s' → I s')
    (hμ : ∀ s e s', I s → G s e → M.step s e = some s' → μ s' < μ s) (s : S) (hs : I s) :
    ∃ es t, M.Run s es t ∧ M.AllSteps G s es ∧ M.AtRest G t := by
  induction hn : μ s using Nat.strong_induction_on generalizing s with
  | _ n ih =>
    by_cases hrest : M.AtRest G s
    · exact ⟨[], s, .nil s, allSteps_nil, hrest⟩
    · simp only [AtRest, not_forall] at hrest
      obtain ⟨e, hg, hne⟩ := hrest
      obtain ⟨s', he⟩ := Option.ne_none_iff_exists'.1 hne
      obtain ⟨es, t, hr, hall, hat⟩ := ih _ (hn ▸ hμ _ _ _ hs hg he) s' (hI _ _ _ hs hg he) rfl
      exact ⟨e :: es, t, .cons he hr, (allSteps_cons he).2 ⟨hg, hall⟩, hat⟩

end Machine
