import Twincam.Lib.Machine
import Mathlib.Logic.Function.Basic

/-!
# Work that is handed over

A producer fills the cells of the jobs that it holds, and hands a job over when it is ready.  A consumer looks at the
jobs later, in the order in which they were handed over, and gives each of them back.  The jobs are looked at in place,
nothing is copied.

`handed_eq`: as long as no two jobs share a cell, the consumer sees every job as it was when it was handed over, and the
jobs that wait are still as they were.
-/

namespace Handoff

variable {J K V : Type} [DecidableEq J] [DecidableEq K]

/-- The jobs of the producer and those that wait for the consumer, the cells, and the history: the jobs that were handed
over and those that the consumer saw, with what was in their cells. -/
structure State (J K V : Type) where
  held : List J
  waiting : List J
  cells : K → V
  handed : List (J × List V)
  seen : List (J × List V)

inductive Op (J K V : Type)
  | write (j : J) (k : K) (v : V)
  | hand (j : J)
  | take

def contents (owns : J → List K) (cells : K → V) (j : J) : List V := (owns j).map cells

variable (owns : J → List K)

def step (s : State J K V) : Op J K V → Option (State J K V)
  | .write j k v =>
    if j ∈ s.held ∧ k ∈ owns j then some { s with cells := Function.update s.cells k v } else none
  | .hand j =>
    if j ∈ s.held then
      some { s with
        held := s.held.erase j
        waiting := s.waiting ++ [j]
        handed := s.handed ++ [(j, contents owns s.cells j)] }
    else none
  | .take =>
    match s.waiting with
    | [] => none
    | j :: rest =>
      some { s with
        held := j :: s.held
        waiting := rest
        seen := s.seen ++ [(j, contents owns s.cells j)] }

/-- Different jobs have no cell in common. -/
def Disjoint (jobs : List J) : Prop := ∀ i ∈ jobs, ∀ j ∈ jobs, i ≠ j → ∀ k ∈ owns i, k ∉ owns j

def machine : Machine (State J K V) (Op J K V) where
  init s := s.held.Nodup ∧ Disjoint owns s.held ∧ s.waiting = [] ∧ s.handed = [] ∧ s.seen = []
  step := step owns

/-- Nobody has touched the jobs that wait. -/
structure Inv (s : State J K V) : Prop where
  nodup : (s.held ++ s.waiting).Nodup
  disjoint : Disjoint owns (s.held ++ s.waiting)
  handed : s.handed = s.seen ++ s.waiting.map fun j => (j, contents owns s.cells j)

variable {owns}

omit [DecidableEq J] [DecidableEq K] in
private theorem Disjoint.perm {jobs jobs' : List J} (h : Disjoint owns jobs) (hp : jobs'.Perm jobs) :
    Disjoint owns jobs' :=
  fun i hi j hj => h i (hp.mem_iff.1 hi) j (hp.mem_iff.1 hj)

omit [DecidableEq J] in
/-- A write to a cell of another job. -/
private theorem contents_update {cells : K → V} {j : J} {k : K} (hk : k ∉ owns j) (v : V) :
    contents owns (Function.update cells k v) j = contents owns cells j := by
  refine List.map_congr_left fun k' hk' => Function.update_of_ne ?_ v cells
  rintro rfl
  exact hk hk'

omit [DecidableEq J] in
private theorem Inv.write {s : State J K V} (h : Inv owns s) {j : J} {k : K} (hj : j ∈ s.held) (hk : k ∈ owns j)
    (v : V) :
    Inv owns { s with cells := Function.update s.cells k v } := by
  refine ⟨h.nodup, h.disjoint, h.handed.trans ?_⟩
  congr 1
  refine List.map_congr_left fun i hi => ?_
  have hne : j ≠ i := fun heq => (List.nodup_append.1 h.nodup).2.2 j hj i hi heq
  have hother := h.disjoint j (List.mem_append_left _ hj) i (List.mem_append_right _ hi) hne k hk
  rw [contents_update hother]

omit [DecidableEq K] in
private theorem Inv.hand {s : State J K V} (h : Inv owns s) {j : J} (hj : j ∈ s.held) :
    Inv owns { s with
      held := s.held.erase j
      waiting := s.waiting ++ [j]
      handed := s.handed ++ [(j, contents owns s.cells j)] } := by
  have hperm : (s.held.erase j ++ (s.waiting ++ [j])).Perm (s.held ++ s.waiting) := by
    have hfront : (s.held.erase j ++ (s.waiting ++ [j])).Perm (j :: s.held.erase j ++ s.waiting) := by
      rw [← List.append_assoc]
      exact List.perm_append_comm
    exact hfront.trans ((List.perm_cons_erase hj).symm.append_right _)
  refine ⟨hperm.nodup_iff.2 h.nodup, h.disjoint.perm hperm, ?_⟩
  dsimp only
  rw [h.handed, List.map_append, List.append_assoc]
  rfl

omit [DecidableEq J] [DecidableEq K] in
private theorem Inv.take {s : State J K V} (h : Inv owns s) {j : J} {rest : List J} (hw : s.waiting = j :: rest) :
    Inv owns { s with
      held := j :: s.held
      waiting := rest
      seen := s.seen ++ [(j, contents owns s.cells j)] } := by
  have hperm : (j :: s.held ++ rest).Perm (s.held ++ s.waiting) := by
    rw [hw]
    exact List.perm_middle.symm
  refine ⟨hperm.nodup_iff.2 h.nodup, h.disjoint.perm hperm, ?_⟩
  dsimp only
  rw [h.handed, hw, List.map_cons, List.append_assoc]
  rfl

private theorem Inv.step {s s' : State J K V} {op : Op J K V} (h : Inv owns s)
    (hs : (machine owns).step s op = some s') :
    Inv owns s' := by
  simp only [machine, Handoff.step] at hs
  split at hs
  · rw [Option.ite_none_right_eq_some] at hs
    obtain ⟨⟨hj, hk⟩, hs⟩ := hs
    obtain rfl := Option.some.inj hs
    exact h.write hj hk _
  · rw [Option.ite_none_right_eq_some] at hs
    obtain ⟨hj, hs⟩ := hs
    obtain rfl := Option.some.inj hs
    exact h.hand hj
  · split at hs
    · cases hs
    · rename_i hw
      obtain rfl := Option.some.inj hs
      exact h.take hw

private theorem inv_init {s : State J K V} (h : (machine owns).init s) : Inv owns s := by
  obtain ⟨hnodup, hdisjoint, hw, hhanded, hseen⟩ := h
  refine ⟨?_, ?_, ?_⟩
  · rw [hw, List.append_nil]
    exact hnodup
  · rw [hw, List.append_nil]
    exact hdisjoint
  · rw [hhanded, hseen, hw]
    rfl

/-- In every state that is reached, the consumer has seen the jobs as they were handed over. -/
theorem handed_eq {s : State J K V} (h : (machine owns).Reachable s) :
    s.handed = s.seen ++ s.waiting.map fun j => (j, contents owns s.cells j) :=
  (Machine.ReachableVia.invariant (fun _ => inv_init) (fun _ _ _ hinv _ hs => Inv.step hinv hs) h).handed

end Handoff
