import Twincam.Lib.CString
import Mathlib.Algebra.Group.Nat.Defs
import Mathlib.Data.List.Basic

/-!
# `std::string` as a buffer

A string has its characters, one slot behind them for the terminating NUL, and a capacity that may be larger.  `resize`
and `append` allocate a new buffer when the capacity does not suffice, as large as the implementation likes (`Growth`).
`store` is a write through a pointer into the buffer: it may overwrite characters and put a NUL into the slot of the
terminator, and nothing else.

`Appends` says that a computation adds a text to a string, or that the text does not fit into any string; it composes
(`Appends.bind`).
-/

/-- `std::string::max_size()`. -/
def maxSize : Nat := 2 ^ 63 - 1

structure StdString where
  chars : List UInt8
  capacity : Nat
  size_le : chars.length ≤ capacity
  capacity_le : capacity ≤ maxSize

namespace StdString

/-- How much an implementation allocates for `n` characters when the capacity `c` does not suffice. -/
structure Growth where
  capacity : Nat → Nat → Nat
  le_capacity : ∀ c n, n ≤ maxSize → n ≤ capacity c n
  capacity_le : ∀ c n, n ≤ maxSize → capacity c n ≤ maxSize

/-- Twice the old capacity, or as much as is needed if that is more. -/
def Growth.doubling : Growth where
  capacity c n := min (max n (2 * c)) maxSize
  le_capacity _ _ h := le_min (le_max_left _ _) h
  capacity_le _ _ _ := min_le_right _ _

/-- `std::length_error`, or a write that leaves the string. -/
inductive Failure
  | lengthError
  | overrun
deriving DecidableEq

/-- A string without characters, in the buffer inside of the object. -/
def empty : StdString := ⟨[], 15, by decide, by decide⟩

def size (s : StdString) : Nat := s.chars.length

private theorem size_le_maxSize (s : StdString) : s.size ≤ maxSize := s.size_le.trans s.capacity_le

/-- The string with other characters, in the same buffer if they fit. -/
def replace (g : Growth) (s : StdString) (chars : List UInt8) : Except Failure StdString :=
  if h : chars.length ≤ s.capacity then .ok ⟨chars, s.capacity, h, s.capacity_le⟩
  else if hm : chars.length ≤ maxSize then
    .ok ⟨chars, g.capacity s.capacity chars.length, g.le_capacity _ _ hm, g.capacity_le _ _ hm⟩
  else .error .lengthError

/-- `resize(n)`: cut off, or filled up with NULs. -/
def resize (g : Growth) (s : StdString) (n : Nat) : Except Failure StdString :=
  s.replace g (s.chars.take n ++ List.replicate (n - s.size) 0)

/-- `append`. -/
def append (g : Growth) (s : StdString) (text : List UInt8) : Except Failure StdString := s.replace g (s.chars ++ text)

/-- `data` written to `&s[pos]` and the following. -/
def store (s : StdString) (pos : Nat) (data : List UInt8) : Except Failure StdString :=
  if pos + data.length ≤ s.size ∨ (pos + data.length = s.size + 1 ∧ data.getLast? = some 0) then
    .ok ⟨(s.chars.take pos ++ data ++ s.chars.drop (pos + data.length)).take s.size, s.capacity,
      (List.length_take_le _ _).trans s.size_le, s.capacity_le⟩
  else .error .overrun

/-- `c_str()`, as the functions of C read it. -/
def cStr (s : StdString) : List UInt8 := (CString.ofBytes (s.chars ++ [0])).getD []

/-! ### The operations -/

theorem replace_ok (g : Growth) (s : StdString) {chars : List UInt8} (h : chars.length ≤ maxSize) :
    ∃ t, s.replace g chars = .ok t ∧ t.chars = chars ∧ (chars.length ≤ s.capacity → t.capacity = s.capacity) := by
  unfold replace
  by_cases hc : chars.length ≤ s.capacity
  · rw [dif_pos hc]
    exact ⟨_, rfl, rfl, fun _ => rfl⟩
  · rw [dif_neg hc, dif_pos h]
    exact ⟨_, rfl, rfl, fun hle => absurd hle hc⟩

theorem replace_error (g : Growth) (s : StdString) {chars : List UInt8} (h : maxSize < chars.length) :
    s.replace g chars = .error .lengthError := by
  have hc := s.capacity_le
  rw [replace, dif_neg (by omega), dif_neg (by omega)]

theorem length_resized (chars : List UInt8) (n : Nat) :
    (chars.take n ++ List.replicate (n - chars.length) (0 : UInt8)).length = n := by
  rw [List.length_append, List.length_take, List.length_replicate]
  omega

/-- A write behind the characters kept by a `resize` that made room for it and for the NUL. -/
theorem store_terminated {s : StdString} {kept fill text : List UInt8} (hchars : s.chars = kept ++ fill)
    (hlen : fill.length = text.length) :
    ∃ t, s.store kept.length (text ++ [0]) = .ok t ∧ t.chars = kept ++ text := by
  have hsize : s.size = kept.length + text.length := by
    rw [size, hchars, List.length_append, hlen]
  have hcond : kept.length + (text ++ [0]).length ≤ s.size ∨
      (kept.length + (text ++ [0]).length = s.size + 1 ∧ (text ++ [(0 : UInt8)]).getLast? = some 0) := by
    right
    rw [List.length_append, hsize]
    exact ⟨rfl, by simp⟩
  rw [store, if_pos hcond]
  refine ⟨_, rfl, ?_⟩
  have hdrop : s.chars.drop (kept.length + (text ++ [(0 : UInt8)]).length) = [] := by
    rw [List.drop_eq_nil_iff, ← size, hsize, List.length_append]
    omega
  show (s.chars.take kept.length ++ (text ++ [(0 : UInt8)]) ++
    s.chars.drop (kept.length + (text ++ [(0 : UInt8)]).length)).take s.size = kept ++ text
  rw [hdrop, hchars, List.take_append_length, List.append_nil, ← List.append_assoc, hsize, ← List.length_append,
    List.take_append_length]

/-- Nothing is written. -/
theorem store_nil {s : StdString} {pos : Nat} (h : pos ≤ s.size) : s.store pos [] = .ok s := by
  have hcond : pos + ([] : List UInt8).length ≤ s.size ∨
      (pos + ([] : List UInt8).length = s.size + 1 ∧ ([] : List UInt8).getLast? = some 0) := Or.inl h
  rw [store, if_pos hcond]
  simp [size]

theorem cStr_eq {s : StdString} (h : 0 ∉ s.chars) : s.cStr = s.chars := by
  rw [cStr, CString.ofBytes_terminated h, Option.getD_some]

/-! ### Computations that append -/

/-- The text was added to the string, if a string can have that many characters. -/
def Appends (r : Except Failure StdString) (s : StdString) (text : List UInt8) : Prop :=
  if s.size + text.length ≤ maxSize then ∃ t, r = .ok t ∧ t.chars = s.chars ++ text else r = .error .lengthError

theorem appends_pure (s : StdString) : Appends (pure s) s [] := by
  have hfits : s.size + ([] : List UInt8).length ≤ maxSize := s.size_le_maxSize
  rw [Appends, if_pos hfits]
  exact ⟨s, rfl, by simp⟩

theorem appends_append (g : Growth) (s : StdString) (text : List UInt8) : Appends (s.append g text) s text := by
  unfold Appends
  have hlen : (s.chars ++ text).length = s.size + text.length := List.length_append
  by_cases h : s.size + text.length ≤ maxSize
  · rw [if_pos h]
    obtain ⟨t, ht, hchars, -⟩ := s.replace_ok g (hlen ▸ h)
    exact ⟨t, ht, hchars⟩
  · rw [if_neg h]
    exact s.replace_error g (by omega)

/-- One text after the other. -/
theorem Appends.bind {r : Except Failure StdString} {f : StdString → Except Failure StdString} {s : StdString}
    {a b : List UInt8} (h : Appends r s a) (hf : ∀ t, t.chars = s.chars ++ a → Appends (f t) t b) :
    Appends (r >>= f) s (a ++ b) := by
  unfold Appends at h ⊢
  rw [List.length_append]
  by_cases ha : s.size + a.length ≤ maxSize
  · rw [if_pos ha] at h
    obtain ⟨t, rfl, ht⟩ := h
    have hnext := hf t ht
    have hsize : t.size = s.size + a.length := by rw [size, ht, List.length_append, size]
    rw [Appends, hsize, ht, List.append_assoc] at hnext
    rw [← Nat.add_assoc]
    exact hnext
  · rw [if_neg ha] at h
    rw [if_neg (by omega), h]
    rfl

/-- A loop that appends the text of every element. -/
theorem appends_foldlM {α : Type} {f : StdString → α → Except Failure StdString} (text : α → List UInt8) {xs : List α}
    (h : ∀ x ∈ xs, ∀ s, Appends (f s x) s (text x)) (s : StdString) :
    Appends (xs.foldlM f s) s (xs.flatMap text) := by
  induction xs generalizing s with
  | nil => exact appends_pure s
  | cons x xs ih =>
    rw [List.foldlM_cons, List.flatMap_cons]
    exact (h x (by simp) s).bind fun t _ => ih (fun y hy => h y (by simp [hy])) t

end StdString
