import Mathlib.Data.Nat.Digits.Lemmas

/-!
# Decimal numerals in ASCII

A number is printed with its most significant digit first, and the value of a string of digits is read off with
`Nat.ofDigits`.  Reading a numeral gives back the number it was printed from.
-/

namespace Numeral

def isDigit (b : UInt8) : Bool := decide (48 ≤ b) && decide (b ≤ 57)

/-- The value of a string of digits, zero for the empty one. -/
def value (bytes : List UInt8) : Nat := Nat.ofDigits 10 (bytes.reverse.map fun b => b.toNat - 48)

/-- The digits of `n`, none for zero. -/
def digitBytes (n : Nat) : List UInt8 := (Nat.digits 10 n).reverse.map fun d => UInt8.ofNat (48 + d)

/-- The decimal numeral of `n`. -/
def decimal (n : Nat) : List UInt8 := if n = 0 then [48] else digitBytes n

theorem isDigit_iff {b : UInt8} : isDigit b = true ↔ 48 ≤ b.toNat ∧ b.toNat ≤ 57 := by
  simp [isDigit, UInt8.le_iff_toNat_le]

private theorem toNat_digit {d : Nat} (h : d < 10) : (UInt8.ofNat (48 + d)).toNat = 48 + d := by
  apply UInt8.toNat_ofNat_of_lt
  show 48 + d < 256
  omega

private theorem digit_lt {n d : Nat} (h : d ∈ (Nat.digits 10 n).reverse) : d < 10 :=
  Nat.digits_lt_base (by omega) (List.mem_reverse.1 h)

theorem isDigit_of_mem_decimal {n : Nat} {b : UInt8} (h : b ∈ decimal n) : isDigit b = true := by
  rw [isDigit_iff]
  unfold decimal at h
  by_cases hn : n = 0
  · rw [if_pos hn, List.mem_singleton] at h
    subst h
    decide
  · rw [if_neg hn] at h
    obtain ⟨d, hd, rfl⟩ := List.mem_map.1 h
    have hlt := digit_lt hd
    rw [toNat_digit hlt]
    omega

/-- Reading a numeral gives back the number it was printed from. -/
theorem value_decimal (n : Nat) : value (decimal n) = n := by
  unfold decimal
  by_cases hn : n = 0
  · rw [if_pos hn, hn]
    decide
  · have hmap : (digitBytes n).reverse.map (fun b => b.toNat - 48) = Nat.digits 10 n := by
      unfold digitBytes
      rw [← List.map_reverse, List.reverse_reverse, List.map_map]
      have hid : ∀ d ∈ Nat.digits 10 n, ((fun b : UInt8 => b.toNat - 48) ∘ fun d => UInt8.ofNat (48 + d)) d = id d := by
        intro d hd
        have hlt := Nat.digits_lt_base (by omega) hd
        show (UInt8.ofNat (48 + d)).toNat - 48 = d
        rw [toNat_digit hlt]
        omega
      rw [List.map_congr_left hid, List.map_id]
    rw [if_neg hn, value, hmap, Nat.ofDigits_digits]

theorem decimal_ne_nil (n : Nat) : decimal n ≠ [] := by
  unfold decimal
  by_cases hn : n = 0
  · simp [hn]
  · simp [hn, digitBytes, Nat.digits_ne_nil_iff_ne_zero]

theorem length_decimal_le {n k : Nat} (hk : 0 < k) (h : n < 10 ^ k) : (decimal n).length ≤ k := by
  unfold decimal
  by_cases hn : n = 0
  · rw [if_pos hn]
    exact hk
  · simp only [hn, if_false, digitBytes, List.length_map, List.length_reverse]
    exact (Nat.digits_length_le_iff (by omega) n).2 h

end Numeral
