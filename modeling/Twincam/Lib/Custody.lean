import Twincam.Lib.Machine
import Mathlib.Data.List.Basic
import Mathlib.Data.List.Perm.Basic

/-!
# Resources that are used while they are held

What is acquired is held until it is released, and may be used in between: `ok held b` says whether the use `b` is
covered by what is held.  A resource may be acquired more than once, and then has to be released as often.
-/

namespace Custody

variable {α β : Type} [DecidableEq α] {ok : List α → β → Bool}

inductive Entry (α β : Type)
  | acquire (a : α)
  | release (a : α)
  | use (b : β)
deriving DecidableEq

def machine (ok : List α → β → Bool) : Machine (List α) (Entry α β) where
  init held := held = []
  step held
    | .acquire a => some (a :: held)
    | .release a => if a ∈ held then some (held.erase a) else none
    | .use b => if ok held b then some held else none

theorem replay_acquires (as held : List α) :
    ∃ held', (machine ok).replay held (as.map .acquire) = some held' ∧ held'.Perm (held ++ as) := by
  induction as generalizing held with
  | nil => exact ⟨held, rfl, by rw [List.append_nil]⟩
  | cons a as ih =>
    obtain ⟨held', hreplay, hperm⟩ := ih (a :: held)
    exact ⟨held', hreplay, hperm.trans List.perm_middle.symm⟩

/-- What is held can be released in any order. -/
theorem replay_releases {as held rest : List α} (h : held.Perm (as ++ rest)) :
    ∃ held', (machine ok).replay held (as.map .release) = some held' ∧ held'.Perm rest := by
  induction as generalizing held with
  | nil => exact ⟨held, rfl, h⟩
  | cons a as ih =>
    have hmem : a ∈ held := h.mem_iff.2 (by simp)
    have hstep : (machine ok).step held (.release a) = some (held.erase a) := if_pos hmem
    have hleft : (held.erase a).Perm (as ++ rest) := by
      have herase := h.erase a
      rw [List.cons_append, List.erase_cons_head] at herase
      exact herase
    obtain ⟨held', hreplay, hperm⟩ := ih hleft
    refine ⟨held', ?_, hperm⟩
    rw [List.map_cons, Machine.replay, hstep]
    exact hreplay

theorem replay_uses {bs : List β} {held : List α} (h : ∀ b ∈ bs, ok held b) :
    (machine ok).replay held (bs.map .use) = some held := by
  induction bs with
  | nil => rfl
  | cons b bs ih =>
    rw [List.forall_mem_cons] at h
    have hstep : (machine ok).step held (.use b) = some held := if_pos h.1
    rw [List.map_cons, Machine.replay, hstep]
    exact ih h.2

end Custody
