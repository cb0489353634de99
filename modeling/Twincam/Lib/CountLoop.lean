import Std.Tactic.Do

/-!
# Counting loops

`CountLoop.run n body` is `for (i = 0; i < n; ++i) body(i)`.  What one iteration does to a property that depends on the
counter gives what the loop does to it (`run_triple`), in any monad with a weakest precondition.
-/

namespace CountLoop

open Std.Do

set_option mvcgen.warning false

universe u

variable {m : Type → Type u} {ps : PostShape} [Monad m]

def run (n : Nat) (body : Nat → m Unit) : m Unit := do
  for i in List.range n do
    body i

/-- The counter stands at the number of iterations that are done. -/
private theorem range_cursor {n i : Nat} {done left : List Nat} (h : List.range n = done ++ i :: left) :
    done.length = i ∧ i < n := by
  have hlength := congrArg List.length h
  rw [List.length_range, List.length_append, List.length_cons] at hlength
  have hget : (List.range n)[done.length]? = some i := by
    rw [h, List.getElem?_append_right (Nat.le_refl _), Nat.sub_self]
    rfl
  rw [List.getElem?_range (by omega), Option.some.injEq] at hget
  exact ⟨hget, by omega⟩

theorem run_triple [WPMonad m ps] {n : Nat} {body : Nat → m Unit} {P : Nat → Assertion ps} {Q : ExceptConds ps}
    (h : ∀ i < n, ⦃P i⦄ body i ⦃(fun _ => P (i + 1), Q)⦄) : ⦃P 0⦄ run n body ⦃(fun _ => P n, Q)⦄ := by
  mvcgen [run, h]
  case inv1 => exact (fun p => P p.1.pos, Q)
  case vc1.a hsplit _ => exact (range_cursor hsplit).2
  case vc2.step.pre pref cur _ hsplit _ =>
    show P pref.length ⊢ₛ P cur
    rw [(range_cursor hsplit).1]
  case vc3.step.post.success pref cur _ hsplit _ _ =>
    show P (cur + 1) ⊢ₛ P (pref ++ [cur]).length
    rw [List.length_append, (range_cursor hsplit).1, List.length_singleton]
  case vc4.step.post.except => exact ExceptConds.entails.rfl
  case vc5.pre => exact SPred.entails.rfl
  case vc6.post.success =>
    show P (List.range n).length ⊢ₛ P n
    rw [List.length_range]
  case vc7.post.except => exact ExceptConds.entails.rfl

end CountLoop
