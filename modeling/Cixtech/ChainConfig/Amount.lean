import Cixtech.ChainConfig.Tokens
import Cixtech.Common.Text
import Cixtech.Foundation.FixedPoint

/-! Amounts of base units as the backend shows them: the digits of the amount, cut at the scale
of its asset, without the zeros at the end.
-/

namespace Cixtech.ChainConfig

open Cixtech.Common Cixtech.Foundation

section Display

variable (casing : Casing) (registry : List AssetInfo)

/-- The decimals of an asset of the registry. -/
def decimalsFor (symbol : String) : Option Nat :=
  let wanted := casing.toUpperCase symbol
  (registry.find? fun asset => asset.symbol = wanted).map (·.decimals)

/-- The text of an amount at a scale, in characters. -/
def scaledText (decimals : Nat) (amount : Int) : List Char :=
  let digits := (toString amount.natAbs).toList
  let sign := if amount < 0 then ['-'] else []
  if decimals = 0 then sign ++ digits
  else
    let padded := digits.leftpad (decimals + 1) '0'
    let whole := padded.take (padded.length - decimals)
    let fraction := FixedPoint.withoutTrailingZeros (padded.drop (padded.length - decimals))
    if fraction = [] then sign ++ whole else sign ++ whole ++ '.' :: fraction

def formatBaseUnits (amount : Int) (symbol : String) : Option String :=
  (decimalsFor casing registry symbol).map fun decimals =>
    String.ofList (scaledText decimals amount)

def describeAmount (amount : Int) (symbol : String) : String :=
  let scaled := formatBaseUnits casing registry amount symbol
  let asset := casing.toUpperCase symbol
  match scaled with
  | none => toString amount ++ " " ++ asset ++ " base units"
  | some text => text ++ " " ++ asset

end Display

-----------------------------------------------------------------------------
-- The digits of an amount

theorem digits_all (amount : Nat) : ∀ c ∈ (toString amount).toList, c.isDigit = true :=
  fun _ => digit_of_mem_toString

theorem digitsValue_toString (amount : Nat)
    : FixedPoint.digitsValue (toString amount).toList = amount := by
  rw [toList_toString]
  exact Nat.ofDigitChars_ten_toDigits

theorem toString_ne_nil (amount : Nat) : (toString amount).toList ≠ [] := by
  obtain ⟨digit, last, -⟩ := getLast?_toString amount
  intro empty
  rw [empty] at last
  cases last

/-- A text of an amount that is not negative: a whole, and behind a point a fraction that has
digits, unless there is none.
-/
theorem scaledText_shape (decimals amount : Nat)
    : ∃ whole fraction,
        scaledText decimals amount = whole ++ (if fraction = [] then [] else '.' :: fraction)
        ∧ whole ≠ []
        ∧ (∀ c ∈ whole, c.isDigit = true)
        ∧ (∀ c ∈ fraction, c.isDigit = true)
        ∧ fraction.length ≤ decimals
        ∧ FixedPoint.units decimals whole fraction = amount := by
  have digits := digits_all amount
  have positive : ¬ (amount : Int) < 0 := by omega
  unfold scaledText
  simp only [Int.natAbs_natCast, positive, if_false, List.nil_append]
  split
  case isTrue unscaled =>
    subst unscaled
    refine ⟨(toString amount).toList, [], by simp, toString_ne_nil amount, digits, by simp, by simp,
      ?_⟩
    simp [FixedPoint.units, FixedPoint.digitsValue]
  case isFalse =>
    obtain ⟨allWhole, allFraction⟩ := FixedPoint.parts_all decimals digits
    obtain ⟨value, short⟩ :=
      FixedPoint.units_parts (toString amount).toList (Nat.zero_le decimals)
    have unpadded : ∀ list : List Char, list.rightpad 0 '0' = list := by simp
    rw [unpadded] at value short
    refine ⟨FixedPoint.wholePart decimals (toString amount).toList,
      FixedPoint.withoutTrailingZeros
        (FixedPoint.fractionPart decimals (toString amount).toList),
      ?_, FixedPoint.wholePart_ne_nil _ _, allWhole, ?_, short,
      value.trans (digitsValue_toString amount)⟩
    · unfold FixedPoint.wholePart FixedPoint.fractionPart FixedPoint.padded
      split <;> simp_all
    · intro c member
      exact allFraction c ((List.rdropWhile_prefix _ _).subset member)

end Cixtech.ChainConfig
