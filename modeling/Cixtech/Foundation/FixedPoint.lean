import Mathlib.Algebra.Order.Field.Rat
import Mathlib.Data.List.DropRight
import Mathlib.Tactic.FieldSimp
import Mathlib.Tactic.Positivity
import Mathlib.Tactic.Ring

/-! Decimal texts at a scale: the digits of a number of units, cut so many digits from the end.
Zeros in front of the whole and behind the fraction change nothing about the units that a text
stands for.
-/

namespace Cixtech.Foundation.FixedPoint

/-- The number that decimal digits spell. -/
def digitsValue (digits : List Char) : Nat := Nat.ofDigitChars 10 digits 0

theorem digitsValue_append (front back : List Char)
    : digitsValue (front ++ back) = digitsValue front * 10 ^ back.length + digitsValue back := by
  rw [digitsValue, Nat.ofDigitChars_append, Nat.ofDigitChars_eq_ofDigitChars_zero, Nat.mul_comm]
  rfl

@[simp]
theorem digitsValue_zeros (count : Nat) : digitsValue (List.replicate count '0') = 0 := by
  simp [digitsValue]

theorem digitsValue_leftpad (count : Nat) (digits : List Char)
    : digitsValue (digits.leftpad count '0') = digitsValue digits := by
  rw [List.leftpad, digitsValue_append, digitsValue_zeros, Nat.zero_mul, Nat.zero_add]

theorem digitsValue_rightpad (count : Nat) (digits : List Char)
    : digitsValue (digits.rightpad count '0')
      = digitsValue digits * 10 ^ (count - digits.length) := by
  rw [List.rightpad, digitsValue_append, digitsValue_zeros, List.length_replicate, Nat.add_zero]

/-- The digits with a zero in front of the point at least. -/
def padded (scale : Nat) (digits : List Char) : List Char := digits.leftpad (scale + 1) '0'

/-- The digits in front of the point. -/
def wholePart (scale : Nat) (digits : List Char) : List Char :=
  (padded scale digits).take ((padded scale digits).length - scale)

/-- The digits behind the point, all of them. -/
def fractionPart (scale : Nat) (digits : List Char) : List Char :=
  (padded scale digits).drop ((padded scale digits).length - scale)

theorem length_padded (scale : Nat) (digits : List Char)
    : scale < (padded scale digits).length := by
  rw [padded, List.length_leftpad]
  omega

theorem length_fractionPart (scale : Nat) (digits : List Char)
    : (fractionPart scale digits).length = scale := by
  have long := length_padded scale digits
  rw [fractionPart, List.length_drop]
  omega

theorem wholePart_ne_nil (scale : Nat) (digits : List Char) : wholePart scale digits ≠ [] := by
  have long := length_padded scale digits
  rw [wholePart, ← List.length_pos_iff, List.length_take]
  omega

theorem parts_append (scale : Nat) (digits : List Char)
    : wholePart scale digits ++ fractionPart scale digits = padded scale digits :=
  List.take_append_drop _ _

/-- The units are those of the whole, scaled, and of the fraction. -/
theorem digitsValue_parts (scale : Nat) (digits : List Char)
    : digitsValue (wholePart scale digits) * 10 ^ scale
        + digitsValue (fractionPart scale digits)
      = digitsValue digits := by
  have whole := digitsValue_append (wholePart scale digits) (fractionPart scale digits)
  rw [parts_append, length_fractionPart, padded, digitsValue_leftpad] at whole
  exact whole.symm

/-- Both parts are made of digits. -/
theorem parts_all (scale : Nat) {digits : List Char} (all : ∀ c ∈ digits, c.isDigit = true)
    : (∀ c ∈ wholePart scale digits, c.isDigit = true)
      ∧ ∀ c ∈ fractionPart scale digits, c.isDigit = true := by
  have whole : ∀ c ∈ padded scale digits, c.isDigit = true := by
    intro c member
    rcases List.mem_append.mp member with zero | digit
    · rw [List.eq_of_mem_replicate zero]
      decide
    · exact all c digit
  exact ⟨fun c member => whole c (List.mem_of_mem_take member),
    fun c member => whole c (List.mem_of_mem_drop member)⟩

/-- A text without the zeros at its end. -/
def withoutTrailingZeros (digits : List Char) : List Char := digits.rdropWhile (· = '0')

theorem withoutTrailingZeros_append (digits : List Char)
    : ∃ count, digits = withoutTrailingZeros digits ++ List.replicate count '0' := by
  refine ⟨(digits.rtakeWhile (· = '0')).length, ?_⟩
  have zeros : digits.rtakeWhile (· = '0')
      = List.replicate (digits.rtakeWhile (· = '0')).length '0' := by
    refine List.eq_replicate_iff.mpr ⟨rfl, fun c member => ?_⟩
    simpa using List.mem_rtakeWhile_imp member
  rw [← zeros]
  exact List.rdropWhile_append_rtakeWhile.symm

/-- A fraction is told by its digits without the zeros at the end, or with some of them. -/
theorem rightpad_withoutTrailingZeros {scale count : Nat} {fraction : List Char}
    (length : fraction.length = scale) (few : count ≤ scale)
    : ((withoutTrailingZeros fraction).rightpad count '0').rightpad scale '0' = fraction
      ∧ ((withoutTrailingZeros fraction).rightpad count '0').length ≤ scale := by
  obtain ⟨zeros, whole⟩ := withoutTrailingZeros_append fraction
  generalize withoutTrailingZeros fraction = kept at whole
  have total := congrArg List.length whole
  rw [List.length_append, List.length_replicate, length] at total
  refine ⟨?_, ?_⟩
  · rw [whole, List.rightpad, List.rightpad, List.append_assoc, List.replicate_append_replicate,
      List.length_append, List.length_replicate]
    congr 2
    omega
  · rw [List.length_rightpad]
    omega

/-- The value that a whole and a fraction write. -/
def written (whole fraction : List Char) : ℚ :=
  digitsValue whole + digitsValue fraction / 10 ^ fraction.length

/-- The units that a whole and a fraction stand for at a scale. -/
def units (scale : Nat) (whole fraction : List Char) : Nat :=
  digitsValue whole * 10 ^ scale + digitsValue (fraction.rightpad scale '0')

/-- A fraction that is no longer than the scale is not rounded. -/
theorem units_eq_written {scale : Nat} (whole : List Char) {fraction : List Char}
    (short : fraction.length ≤ scale)
    : (units scale whole fraction : ℚ) = written whole fraction * 10 ^ scale := by
  have power : (10 : ℚ) ^ scale = 10 ^ (scale - fraction.length) * 10 ^ fraction.length := by
    rw [← pow_add, Nat.sub_add_cancel short]
  rw [units, digitsValue_rightpad, written, power]
  push_cast
  rw [power]
  field_simp

theorem units_lt_iff {scale : Nat} (whole other : List Char) {fraction later : List Char}
    (short : fraction.length ≤ scale) (laterShort : later.length ≤ scale)
    : units scale whole fraction < units scale other later
      ↔ written whole fraction < written other later := by
  rw [← Nat.cast_lt (α := ℚ), units_eq_written whole short, units_eq_written other laterShort]
  exact mul_lt_mul_iff_left₀ (by positivity)

/-- The parts of a number of units stand for that number. -/
theorem units_parts {scale count : Nat} (digits : List Char) (few : count ≤ scale)
    : units scale (wholePart scale digits)
          ((withoutTrailingZeros (fractionPart scale digits)).rightpad count '0')
        = digitsValue digits
      ∧ ((withoutTrailingZeros (fractionPart scale digits)).rightpad count '0').length
        ≤ scale := by
  obtain ⟨whole, short⟩ :=
    rightpad_withoutTrailingZeros (length_fractionPart scale digits) few
  rw [units, whole]
  exact ⟨digitsValue_parts scale digits, short⟩

end Cixtech.Foundation.FixedPoint
