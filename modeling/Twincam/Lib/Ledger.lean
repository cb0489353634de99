import Twincam.Lib.Machine
import Mathlib.Data.List.Count

/-!
# Ledgers of held resources

A ledger is kept along the calls that acquire and release resources: it holds what was acquired and not released yet,
and refuses to release what it does not hold.
-/

namespace Ledger

variable {α : Type} [DecidableEq α]

inductive Entry (α : Type)
  | acquire (a : α)
  | release (a : α)
deriving DecidableEq

/-- The resources held. -/
def machine : Machine (List α) (Entry α) where
  init held := held = []
  step held
    | .acquire a => some (a :: held)
    | .release a => if a ∈ held then some (held.erase a) else none

theorem step_release {held : List α} {a : α} (h : a ∈ held) :
    machine.step held (.release a) = some (held.erase a) := if_pos h

/-- Acquisitions and releases of a resource match, up to what is held at the beginning and at the end. -/
private theorem count_of_run {held held' : List α} {es : List (Entry α)} (h : machine.Run held es held') (a : α) :
    held.count a + es.count (.acquire a) = held'.count a + es.count (.release a) := by
  induction h with
  | nil held => simp
  | @cons held mid held' e es hstep _ ih =>
    cases e with
    | acquire b =>
      cases hstep
      rw [List.count_cons] at ih
      rw [List.count_cons, List.count_cons_of_ne (by simp)]
      by_cases hb : b = a
      · subst hb
        simp only [beq_self_eq_true, if_true] at ih ⊢
        omega
      · have hne : ¬(Entry.acquire b == Entry.acquire a) = true := by simpa using hb
        have hne' : ¬(b == a) = true := by simpa using hb
        rw [if_neg hne'] at ih
        rw [if_neg hne]
        omega
    | release b =>
      by_cases hmem : b ∈ held
      · rw [step_release hmem, Option.some.injEq] at hstep
        subst hstep
        rw [List.count_cons_of_ne (by simp), List.count_cons]
        by_cases hb : b = a
        · subst hb
          have hpos := List.count_pos_iff.2 hmem
          rw [List.count_erase_self] at ih
          simp only [beq_self_eq_true, if_true]
          omega
        · have hne : ¬(Entry.release b == Entry.release a) = true := by simpa using hb
          rw [List.count_erase_of_ne (Ne.symm hb)] at ih
          rw [if_neg hne]
          omega
      · have hnone : machine.step held (.release b) = none := if_neg hmem
        rw [hnone] at hstep
        cases hstep

/-- When nothing is held at the end, every acquisition was released exactly once. -/
theorem balanced_of_run {es : List (Entry α)} (h : machine.Run [] es []) (a : α) :
    es.count (.acquire a) = es.count (.release a) := by
  have hcount := count_of_run h a
  simpa using hcount

end Ledger
