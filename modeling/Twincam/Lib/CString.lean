import Mathlib.Data.List.TakeWhile
import Mathlib.Tactic.Common

/-!
# Strings in memory that end at the first NUL

`ofBytes` is the string that a pointer to the beginning of an array of bytes stands for: what comes before the first
NUL, or nothing when the array has no NUL in it.
-/

namespace CString

/-- The bytes in front of the first NUL; `none` when there is no NUL. -/
def ofBytes : List UInt8 → Option (List UInt8)
  | [] => none
  | b :: bytes => if b = 0 then some [] else (ofBytes bytes).map (b :: ·)

theorem ofBytes_eq_none_iff {bytes : List UInt8} : ofBytes bytes = none ↔ 0 ∉ bytes := by
  induction bytes with
  | nil => simp [ofBytes]
  | cons b bytes ih =>
    by_cases hb : b = 0
    · simp [ofBytes, hb]
    · have hne : (0 : UInt8) ≠ b := fun h => hb h.symm
      simp [ofBytes, hb, hne, ih]

/-- Bytes other than NUL in front of an array belong to its string. -/
theorem ofBytes_append {text : List UInt8} (h : 0 ∉ text) (bytes : List UInt8) :
    ofBytes (text ++ bytes) = (ofBytes bytes).map (text ++ ·) := by
  induction text with
  | nil => simp
  | cons b text ih =>
    rw [List.mem_cons, not_or] at h
    have hb : b ≠ 0 := fun hb => h.1 hb.symm
    rw [List.cons_append, ofBytes, if_neg hb, ih h.2, Option.map_map]
    rfl

private theorem ofBytes_zero (bytes : List UInt8) : ofBytes (0 :: bytes) = some [] := rfl

/-- A text and the NUL behind it. -/
theorem ofBytes_terminated {text : List UInt8} (h : 0 ∉ text) (bytes : List UInt8) :
    ofBytes (text ++ 0 :: bytes) = some text := by
  rw [ofBytes_append h, ofBytes_zero, Option.map_some, List.append_nil]

/-- Every array with a string is the text, the NUL and the rest. -/
theorem eq_of_ofBytes {bytes text : List UInt8} (h : ofBytes bytes = some text) :
    0 ∉ text ∧ ∃ rest, bytes = text ++ 0 :: rest := by
  induction bytes generalizing text with
  | nil => cases h
  | cons b bytes ih =>
    by_cases hb : b = 0
    · rw [ofBytes, if_pos hb, Option.some.injEq] at h
      subst h
      exact ⟨by simp, bytes, by simp [hb]⟩
    · rw [ofBytes, if_neg hb] at h
      obtain ⟨tail, htail, rfl⟩ := Option.map_eq_some_iff.1 h
      obtain ⟨hzero, rest, rfl⟩ := ih htail
      have hne : (0 : UInt8) ≠ b := fun h => hb h.symm
      exact ⟨by simp [hzero, hne], rest, rfl⟩

/-- Of an array with a string, the first `n` bytes have a NUL exactly when the string is shorter than `n`. -/
theorem ofBytes_take {bytes text : List UInt8} (h : ofBytes bytes = some text) (n : Nat) :
    ofBytes (bytes.take n) = if text.length < n then some text else none := by
  obtain ⟨hzero, rest, rfl⟩ := eq_of_ofBytes h
  by_cases hlt : text.length < n
  · obtain ⟨k, rfl⟩ := Nat.exists_eq_add_of_lt hlt
    have htake : (text ++ 0 :: rest).take (text.length + k + 1) = text ++ 0 :: rest.take k := by
      rw [List.take_append, List.take_of_length_le (by omega), show text.length + k + 1 - text.length = k + 1 by omega,
        List.take_succ_cons]
    rw [if_pos hlt, htake, ofBytes_terminated hzero]
  · rw [if_neg hlt, ofBytes_eq_none_iff, List.take_append_of_le_length (by omega)]
    exact fun hmem => hzero (List.mem_of_mem_take hmem)

end CString
