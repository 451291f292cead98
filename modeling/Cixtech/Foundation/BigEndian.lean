import Mathlib.Algebra.Order.Ring.Nat
import Mathlib.Data.List.Induction
import Mathlib.Tactic.Ring

/-! Natural numbers as bytes in base 256, most significant first: of a fixed width, with zeros
in front, or of the least width, where no byte in front is zero.
-/

namespace Cixtech.Foundation.BigEndian

/-- The number that bytes spell. -/
def value (b : List UInt8) : Nat := b.foldl (fun number byte => 256 * number + byte.toNat) 0

/-- The last bytes of a number, as many as the width. -/
def fixed : Nat → Nat → List UInt8
  | 0, _ => []
  | width + 1, number => fixed width (number / 256) ++ [UInt8.ofNat number]

/-- A number in as few bytes as it takes, zero in none. -/
def minimal (number : Nat) : List UInt8 :=
  if number = 0 then [] else minimal (number / 256) ++ [UInt8.ofNat number]

@[simp]
theorem value_nil : value [] = 0 := rfl

@[simp]
theorem value_append_singleton (b : List UInt8) (byte : UInt8)
    : value (b ++ [byte]) = 256 * value b + byte.toNat := by
  simp [value, List.foldl_append]

/-- The number of some bytes is below the power of their count. -/
theorem value_lt (b : List UInt8) : value b < 256 ^ b.length := by
  induction b using List.reverseRecOn with
  | nil => simp
  | append_singleton rest last ih =>
      rw [value_append_singleton, List.length_append, List.length_singleton, pow_succ]
      have small := last.toNat_lt
      omega

@[simp]
theorem length_fixed (width number : Nat) : (fixed width number).length = width := by
  induction width generalizing number with
  | zero => rfl
  | succ width ih => simp [fixed, ih]

theorem toNat_ofNat (number : Nat) : (UInt8.ofNat number).toNat = number % 256 := by simp

theorem value_fixed {width number : Nat} (fits : number < 256 ^ width)
    : value (fixed width number) = number := by
  induction width generalizing number with
  | zero =>
      have zero : number = 0 := by simpa using fits
      simp [fixed, zero]
  | succ width ih =>
      have less : number / 256 < 256 ^ width := by
        rw [pow_succ] at fits
        omega
      rw [fixed, value_append_singleton, ih less, toNat_ofNat]
      omega

@[simp]
theorem minimal_zero : minimal 0 = [] := by
  unfold minimal
  rfl

theorem minimal_of_pos {number : Nat} (positive : 0 < number)
    : minimal number = minimal (number / 256) ++ [UInt8.ofNat number] := by
  rw [minimal, if_neg positive.ne']

@[simp]
theorem value_minimal (number : Nat) : value (minimal number) = number := by
  induction number using Nat.strongRecOn with
  | ind number ih =>
      rcases Nat.eq_zero_or_pos number with rfl | positive
      · simp
      · rw [minimal_of_pos positive, value_append_singleton,
          ih (number / 256) (Nat.div_lt_self positive (by decide)), toNat_ofNat]
        omega

theorem minimal_inj {number other : Nat} : minimal number = minimal other ↔ number = other := by
  refine ⟨fun same => ?_, fun same => by rw [same]⟩
  rw [← value_minimal number, same, value_minimal]

theorem minimal_eq_nil {number : Nat} : minimal number = [] ↔ number = 0 := by
  rw [← minimal_zero, minimal_inj]

/-- No byte in front is zero. -/
theorem head?_minimal (number : Nat) : (minimal number).head? ≠ some 0 := by
  induction number using Nat.strongRecOn with
  | ind number ih =>
      rcases Nat.eq_zero_or_pos number with rfl | positive
      · simp
      · rw [minimal_of_pos positive, List.head?_append]
        have higher := ih (number / 256) (Nat.div_lt_self positive (by decide))
        cases front : (minimal (number / 256)).head? with
        | some byte =>
            rw [front] at higher
            simpa using higher
        | none =>
            have single : number / 256 = 0 := minimal_eq_nil.mp (List.head?_eq_none_iff.mp front)
            intro zero
            have last : (UInt8.ofNat number).toNat = 0 := by
              have byte : UInt8.ofNat number = 0 := by simpa using zero
              rw [byte]
              rfl
            rw [toNat_ofNat] at last
            omega

/-- How many bytes a number takes. -/
theorem length_minimal_le {number width : Nat}
    : (minimal number).length ≤ width ↔ number < 256 ^ width := by
  induction width generalizing number with
  | zero =>
      rw [Nat.le_zero, List.length_eq_zero_iff, minimal_eq_nil]
      simp
  | succ width ih =>
      rcases Nat.eq_zero_or_pos number with rfl | positive
      · simp
      · rw [minimal_of_pos positive, List.length_append, List.length_singleton,
          Nat.add_le_add_iff_right, ih, pow_succ]
        omega

/-- A number in a fixed width is its least bytes behind zeros. -/
theorem fixed_eq {width number : Nat} (fits : number < 256 ^ width)
    : fixed width number
      = List.replicate (width - (minimal number).length) 0 ++ minimal number := by
  induction width generalizing number with
  | zero =>
      have zero : number = 0 := by simpa using fits
      simp [fixed, zero]
  | succ width ih =>
      have less : number / 256 < 256 ^ width := by
        rw [pow_succ] at fits
        omega
      rw [fixed, ih less]
      rcases Nat.eq_zero_or_pos number with rfl | positive
      · simp only [Nat.zero_div, minimal_zero, List.length_nil, Nat.sub_zero, List.append_nil]
        exact List.replicate_succ'.symm
      · rw [minimal_of_pos positive, List.length_append, List.length_singleton,
          Nat.add_sub_add_right, List.append_assoc]

end Cixtech.Foundation.BigEndian
