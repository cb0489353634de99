import Mathlib.Data.List.Basic

/-!
# Searches that stop at the first hit

A loop with an early return is `List.findSome?`, and nested loops are nested ones.  `First` says what such a search
finds, and the lemmas below bring loops over parts of a list to loops over the whole of it.
-/

namespace Search

variable {α β γ : Type}

/-- `a` is the first element of `xs` with the property `p`. -/
def First (p : α → Prop) (xs : List α) (a : α) : Prop :=
  ∃ before after, xs = before ++ a :: after ∧ p a ∧ ∀ b ∈ before, ¬p b

theorem find?_eq_some_iff_first {p : α → Prop} [DecidablePred p] {xs : List α} {a : α} :
    xs.find? (fun x => decide (p x)) = some a ↔ First p xs a := by
  rw [List.find?_eq_some_iff_append]
  constructor
  · intro h
    obtain ⟨ha, before, after, hxs, hbefore⟩ := h
    exact ⟨before, after, hxs, of_decide_eq_true ha, fun b hb => by simpa using hbefore b hb⟩
  · intro h
    obtain ⟨before, after, hxs, ha, hbefore⟩ := h
    exact ⟨decide_eq_true ha, before, after, hxs, fun b hb => by simpa using hbefore b hb⟩

/-- A search by position finds the first element with the property, or there is no element with it. -/
theorem findIdx?_cases (p : α → Prop) [DecidablePred p] (xs : List α) :
    (∃ n a, xs.findIdx? (fun x => decide (p x)) = some n ∧ xs[n]? = some a ∧ ∀ b, First p xs b ↔ b = a) ∨
      (xs.findIdx? (fun x => decide (p x)) = none ∧ (∀ b, ¬First p xs b) ∧ ∀ b ∈ xs, ¬p b) := by
  have hfind : xs.find? (fun x => decide (p x)) =
      (xs.findIdx? fun x => decide (p x)).bind fun n => xs[n]? := List.find?_eq_bind_findIdx?_getElem?
  cases hidx : xs.findIdx? fun x => decide (p x) with
  | none =>
    right
    have hno : ∀ b ∈ xs, ¬p b := by simpa using hidx
    refine ⟨rfl, ?_, hno⟩
    rintro b ⟨before, after, rfl, hb, -⟩
    exact hno b (by simp) hb
  | some n =>
    left
    obtain ⟨hlt, -, -⟩ := List.findIdx?_eq_some_iff_getElem.1 hidx
    have hget : xs[n]? = some xs[n] := List.getElem?_eq_getElem hlt
    refine ⟨n, xs[n], rfl, hget, ?_⟩
    intro b
    rw [← find?_eq_some_iff_first, hfind, hidx, Option.bind_some, hget, Option.some.injEq, eq_comm]

theorem findSome?_congr {f g : α → Option β} {xs : List α} (h : ∀ x ∈ xs, f x = g x) :
    xs.findSome? f = xs.findSome? g := by
  rw [← List.head?_filterMap, ← List.head?_filterMap, List.filterMap_congr h]

theorem findSome?_filterMap (f : α → Option β) (g : β → Option γ) (xs : List α) :
    (xs.filterMap f).findSome? g = xs.findSome? fun x => (f x).bind g := by
  rw [← List.head?_filterMap, List.filterMap_filterMap, List.head?_filterMap]

theorem findSome?_filter (p : α → Bool) (g : α → Option β) (xs : List α) :
    (xs.filter p).findSome? g = xs.findSome? fun x => if p x then g x else none := by
  rw [← List.filterMap_eq_filter, findSome?_filterMap]
  apply findSome?_congr
  intro x _
  by_cases h : p x = true
  · simp [Option.guard, h]
  · simp [Option.guard, h]

/-- A search for a key that occurs once. -/
theorem find?_of_key {key : α → β} {p : α → Bool} {xs : List α} {a : α} (hkeys : (xs.map key).Nodup) (ha : a ∈ xs)
    (hp : ∀ b ∈ xs, p b = true ↔ key b = key a) : xs.find? p = some a := by
  induction xs with
  | nil => cases ha
  | cons first rest ih =>
    rw [List.map_cons, List.nodup_cons] at hkeys
    rcases List.mem_cons.1 ha with rfl | hmem
    · exact List.find?_cons_of_pos ((hp a List.mem_cons_self).2 rfl)
    · have hne : ¬p first = true := by
        rw [hp first List.mem_cons_self]
        exact fun heq => hkeys.1 (heq ▸ List.mem_map_of_mem hmem)
      rw [List.find?_cons_of_neg hne]
      exact ih hkeys.2 hmem fun b hb => hp b (List.mem_cons_of_mem _ hb)

end Search
