import Twincam.Lib.Ledger
import Mathlib.Data.Finset.Basic
import Mathlib.Data.Finset.Dedup
import Mathlib.Data.Finset.Lattice.Lemmas

/-!
# Tables of handles

A table holds the handles that are open and does not count how often: to acquire a handle that is open leaves the table
as it is, and to release one takes it away from everyone who acquired it.  Releasing a handle that is not open fails.
So releases go well when no handle is released twice and all are open (`Releasable`).
-/

namespace HandleTable

open Ledger (Entry)

variable {α : Type} [DecidableEq α]

def machine : Machine (Finset α) (Entry α) where
  init handles := handles = ∅
  step handles
    | .acquire a => some (insert a handles)
    | .release a => if a ∈ handles then some (handles.erase a) else none

/-- The handles can be released one after the other. -/
def Releasable (as : List α) (handles : Finset α) : Prop := as.Nodup ∧ ∀ a ∈ as, a ∈ handles

instance (as : List α) (handles : Finset α) : Decidable (Releasable as handles) :=
  inferInstanceAs (Decidable (_ ∧ _))

theorem replay_acquires (as : List α) (handles : Finset α) :
    machine.replay handles (as.map .acquire) = some (handles ∪ as.toFinset) := by
  induction as generalizing handles with
  | nil => simp [Machine.replay]
  | cons a as ih =>
    have hstep : machine.step handles (.acquire a) = some (insert a handles) := rfl
    rw [List.map_cons, Machine.replay, hstep, Option.bind_some, ih, List.toFinset_cons, Finset.union_insert,
      Finset.insert_union]

private theorem releasable_cons (a : α) (as : List α) (handles : Finset α) :
    Releasable (a :: as) handles ↔ a ∈ handles ∧ Releasable as (handles.erase a) := by
  simp only [Releasable, List.nodup_cons, List.forall_mem_cons, Finset.mem_erase]
  constructor
  · rintro ⟨⟨hnew, hnodup⟩, hmem, hall⟩
    exact ⟨hmem, hnodup, fun b hb => ⟨fun heq => hnew (heq ▸ hb), hall b hb⟩⟩
  · rintro ⟨hmem, hnodup, hall⟩
    exact ⟨⟨fun hin => (hall _ hin).1 rfl, hnodup⟩, hmem, fun b hb => (hall b hb).2⟩

theorem replay_releases (as : List α) (handles : Finset α) :
    machine.replay handles (as.map .release) =
      if Releasable as handles then some (handles \ as.toFinset) else none := by
  induction as generalizing handles with
  | nil => simp [Machine.replay, Releasable]
  | cons a as ih =>
    rw [List.map_cons, Machine.replay]
    by_cases hmem : a ∈ handles
    · have hstep : machine.step handles (.release a) = some (handles.erase a) := if_pos hmem
      rw [hstep, Option.bind_some, ih]
      by_cases hrest : Releasable as (handles.erase a)
      · rw [if_pos hrest, if_pos ((releasable_cons a as handles).2 ⟨hmem, hrest⟩), List.toFinset_cons,
          Finset.sdiff_insert, Finset.erase_sdiff_comm]
      · rw [if_neg hrest, if_neg fun h => hrest ((releasable_cons a as handles).1 h).2]
    · have hstep : machine.step handles (.release a) = none := if_neg hmem
      rw [hstep, Option.bind_none, if_neg fun h => hmem ((releasable_cons a as handles).1 h).1]

omit [DecidableEq α] in
theorem Releasable.perm {as bs : List α} {handles : Finset α} (h : as.Perm bs) :
    Releasable as handles ↔ Releasable bs handles := by
  rw [Releasable, Releasable, h.nodup_iff]
  exact and_congr_right fun _ => forall_congr' fun a => by rw [h.mem_iff]

omit [DecidableEq α] in
/-- What is open for others can be released as well. -/
theorem Releasable.mono {as : List α} {handles handles' : Finset α} (h : Releasable as handles)
    (hsub : handles ⊆ handles') : Releasable as handles' :=
  ⟨h.1, fun a ha => hsub (h.2 a ha)⟩

/-- What was open before can be released without what came later. -/
theorem Releasable.of_append {as bs : List α} {handles : Finset α}
    (h : Releasable (as ++ bs) (handles ∪ bs.toFinset)) : Releasable as handles := by
  obtain ⟨hnodup, hall⟩ := h
  obtain ⟨has, -, hdisjoint⟩ := List.nodup_append.1 hnodup
  refine ⟨has, fun a ha => ?_⟩
  rcases Finset.mem_union.1 (hall a (List.mem_append_left _ ha)) with hin | hnew
  · exact hin
  · exact absurd rfl (hdisjoint a ha a (List.mem_toFinset.1 hnew))

end HandleTable
