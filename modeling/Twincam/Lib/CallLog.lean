import Mathlib.Data.List.Basic
import Mathlib.Tactic.Common

/-!
# The order of the calls in a log

`Before c d calls` says that whenever `d` was called, `c` had been called, and `FollowedBy c d calls` that whenever `c`
was called, `d` was called later on.  Both are about every occurrence; the rules below cover a log that grows at its
end and a log with a single occurrence.
-/

namespace CallLog

variable {C : Type} {c d : C} {calls : List C}

/-- Every call of `d` comes after a call of `c`. -/
def Before (c d : C) (calls : List C) : Prop := ∀ before after, calls = before ++ d :: after → c ∈ before

/-- Every call of `c` comes before a call of `d`. -/
def FollowedBy (c d : C) (calls : List C) : Prop := ∀ before after, calls = before ++ c :: after → d ∈ after

theorem followedBy_of_notMem (h : c ∉ calls) : FollowedBy c d calls := by
  intro before after heq
  rw [heq] at h
  simp at h

/-- Calls that end with `d` are in order wherever `c` is. -/
theorem followedBy_concat (hne : c ≠ d) : FollowedBy c d (calls ++ [d]) := by
  intro before after heq
  rcases List.eq_nil_or_concat after with hnil | ⟨rest, last, hlast⟩
  · subst hnil
    have hcons := List.append_inj' heq rfl
    simp only [List.cons.injEq, and_true] at hcons
    exact absurd hcons.2.symm hne
  · rw [hlast, List.concat_eq_append, ← List.cons_append, ← List.append_assoc] at heq
    have hcons := List.append_inj' heq rfl
    simp only [List.cons.injEq, and_true] at hcons
    rw [hlast, List.concat_eq_append, hcons.2]
    simp

/-- Further calls keep the order unless `c` is one of them. -/
theorem FollowedBy.append (h : FollowedBy c d calls) {more : List C} (hmore : c ∉ more) :
    FollowedBy c d (calls ++ more) := by
  intro before after heq
  rcases List.append_eq_append_iff.1 heq with ⟨mid, hbefore, hcons⟩ | ⟨mid, hcalls, hcons⟩
  · rw [hcons] at hmore
    simp at hmore
  · cases mid with
    | nil =>
      rw [List.nil_append] at hcons
      rw [← hcons] at hmore
      simp at hmore
    | cons x mid =>
      rw [List.cons_append, List.cons.injEq] at hcons
      rw [← hcons.1] at hcalls
      rw [hcons.2]
      exact List.mem_append_left _ (h before mid hcalls)

/-- A single call of `d`, with `c` before it. -/
theorem before_of_single {before after : List C} (hc : c ∈ before) (hbefore : d ∉ before) (hafter : d ∉ after) :
    Before c d (before ++ d :: after) := by
  intro before' after' heq
  obtain ⟨rfl, -, -⟩ := (List.append_cons_inj_of_notMem hbefore hafter).1 heq
  exact hc

end CallLog
