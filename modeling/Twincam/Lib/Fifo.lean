import Twincam.Lib.Machine
import Mathlib.Data.ENat.Basic

/-!
# Bounded queues with their history

A first-in first-out queue of capacity `cap` (`⊤` for an unbounded one) that remembers everything that was ever
put in and everything that was ever taken out.  In every reachable state what was put in is what was taken out
followed by what is still inside (`Fifo.accepted_eq`), so nothing is lost, repeated or reordered.
-/

namespace Fifo

variable {α : Type}

/-- A queue and its history; the oldest element of `contents` comes first. -/
structure State (α : Type) where
  accepted : List α
  emitted : List α
  contents : List α

/-- The two operations of a queue. -/
inductive Op (α : Type)
  | enqueue (a : α)
  | dequeue

/-- One operation; an element is taken in only while there is room, and taken out only when there is one. -/
def step (cap : ℕ∞) (q : State α) : Op α → Option (State α)
  | .enqueue a =>
    if (q.contents.length : ℕ∞) < cap then
      some { q with accepted := q.accepted ++ [a], contents := q.contents ++ [a] }
    else none
  | .dequeue =>
    match q.contents with
    | [] => none
    | a :: rest => some { q with emitted := q.emitted ++ [a], contents := rest }

/-- The queue of capacity `cap` as a transition system that starts empty. -/
def machine (cap : ℕ∞) : Machine (State α) (Op α) where
  init q := q = ⟨[], [], []⟩
  step := step cap

theorem step_enqueue {cap : ℕ∞} {q : State α} (h : (q.contents.length : ℕ∞) < cap) (a : α) :
    (machine cap).step q (.enqueue a) =
      some { q with accepted := q.accepted ++ [a], contents := q.contents ++ [a] } :=
  if_pos h

theorem step_dequeue {cap : ℕ∞} {q : State α} {a : α} {rest : List α} (h : q.contents = a :: rest) :
    (machine cap).step q .dequeue = some { q with emitted := q.emitted ++ [a], contents := rest } := by
  simp only [machine, step, h]

/-- What was taken in is what was taken out followed by what is inside, and the bound is kept. -/
theorem accepted_eq {cap : ℕ∞} {q : State α} (h : (machine cap).Reachable q) :
    q.accepted = q.emitted ++ q.contents ∧ (q.contents.length : ℕ∞) ≤ cap := by
  refine Machine.ReachableVia.invariant (M := machine cap)
    (P := fun q => q.accepted = q.emitted ++ q.contents ∧ (q.contents.length : ℕ∞) ≤ cap) ?_ ?_ h
  · rintro _ rfl
    simp
  · rintro q (a | _) q' ⟨heq, hle⟩ - hs
    · simp only [machine, step] at hs
      split at hs
      · rename_i hlt
        rw [Option.some.injEq] at hs
        subst hs
        refine ⟨by simp [heq], ?_⟩
        simpa using Order.add_one_le_of_lt hlt
      · cases hs
    · simp only [machine, step] at hs
      split at hs
      · cases hs
      · rename_i a rest hc
        rw [Option.some.injEq] at hs
        subst hs
        rw [hc] at heq hle
        refine ⟨by simp [heq], le_trans ?_ hle⟩
        simp

end Fifo
