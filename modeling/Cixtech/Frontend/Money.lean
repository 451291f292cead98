import Cixtech.Auth.Totp
import Cixtech.ChainConfig.Amount

/-! Amounts in the frontend. What is shown is grouped by commas and has two digits behind the
point at least; what is typed is read back exactly or not at all. The assets are those that the
backend sends, under the upper case of their symbols.
-/

namespace Cixtech.Frontend

open Cixtech.ChainConfig Cixtech.Common Cixtech.Foundation
open Cixtech.Auth (isWhitespace trim)

section Functions

variable (casing : Casing)

/-- `setAssets`: the entries of the table in the order in which they were set. -/
def setAssets (list : Option (List AssetInfo)) : List (String × AssetInfo) :=
  (list.getD []).map fun asset => (casing.toUpperCase asset.symbol, asset)

/-- The last entry of a symbol counts. -/
def assetInfo (assets : List (String × AssetInfo)) (symbol : Option String) : Option AssetInfo :=
  let key := casing.toUpperCase (symbol.getD "")
  (assets.reverse.find? fun (own, _) => own = key).map (·.2)

/-- The characters that `\w` matches. -/
def isWord (c : Char) : Bool := c.isAlphanum || c = '_'

/-- `digits.replace(/\B(?=(\d{3})+(?!\d))/g, ",")`, behind the character in front: a comma where
the digits up to the next other character are some threes, and no word begins or ends.
-/
def groupFrom : Option Char → List Char → List Char
  | _, [] => []
  | before, c :: rest =>
      let run := ((c :: rest).takeWhile Char.isDigit).length
      let inside := before.any isWord == isWord c
      if inside && 0 < run && run % 3 = 0 then ',' :: c :: groupFrom (some c) rest
      else c :: groupFrom (some c) rest

def group (digits : List Char) : List Char := groupFrom none digits

structure MoneyParts where
  text : String
  raw : Bool
  deriving DecidableEq, Repr

/-- The parts of an amount, whose text is the decimal one of its base units. -/
def moneyParts (assets : List (String × AssetInfo)) (base : Option String) (asset : Option String)
    : MoneyParts :=
  let s := (base.getD "0").toList
  let neg := s.head? = some '-'
  let s := if neg then s.drop 1 else s
  let sign := if neg then ['-'] else []
  if s = [] ∨ !s.all Char.isDigit then { text := base.getD "", raw := true }
  else
    match assetInfo casing assets asset with
    | none => { text := String.ofList (sign ++ group s ++ " base units".toList), raw := true }
    | some info =>
        let d := info.decimals
        if d = 0 then { text := String.ofList (sign ++ group s), raw := false }
        else
          let s := s.leftpad (d + 1) '0'
          let whole := s.take (s.length - d)
          let frac := (FixedPoint.withoutTrailingZeros (s.drop (s.length - d))).rightpad 2 '0'
          { text := String.ofList (sign ++ group whole ++ '.' :: frac), raw := false }

def money (assets : List (String × AssetInfo)) (base : Option String) (asset : Option String)
    : String :=
  (moneyParts casing assets base asset).text

/-- `/^(\d+)(?:\.(\d*))?$/`, with what it captures. -/
def decimalParts (text : List Char) : Option (List Char × List Char) :=
  let whole := text.takeWhile Char.isDigit
  if whole = [] then none
  else
    match text.drop whole.length with
    | [] => some (whole, [])
    | '.' :: frac => if frac.all Char.isDigit then some (whole, frac) else none
    | _ => none

def toBaseUnits (assets : List (String × AssetInfo)) (human asset : String) : Option String :=
  match assetInfo casing assets (some asset) with
  | none => none
  | some info =>
      match decimalParts (trim human).toList with
      | none => none
      | some (whole, frac) =>
          if info.decimals < frac.length then none
          else
            let scaled := FixedPoint.digitsValue whole * 10 ^ info.decimals
            let fracUnits :=
              if frac = [] then 0
              else FixedPoint.digitsValue (frac.rightpad info.decimals '0')
            some (toString (scaled + fracUnits))

end Functions

-----------------------------------------------------------------------------
-- Reading

/-- A point and a fraction, or nothing. -/
def pointed (fraction : Option (List Char)) : List Char := (fraction.map ('.' :: ·)).getD []

theorem decimalParts_eq {whole : List Char} (some_ : whole ≠ [])
    (digits : ∀ c ∈ whole, c.isDigit = true) {fraction : Option (List Char)}
    (fractionDigits : ∀ c ∈ fraction.getD [], c.isDigit = true)
    : decimalParts (whole ++ pointed fraction) = some (whole, fraction.getD []) := by
  have front : (whole ++ pointed fraction).takeWhile Char.isDigit = whole := by
    rw [List.takeWhile_append_of_pos digits]
    cases fraction with
    | none => simp [pointed]
    | some fraction => simp [pointed, Char.isDigit]
  unfold decimalParts
  rw [front]
  simp only [some_, if_false, List.drop_left]
  cases fraction with
  | none => rfl
  | some fraction =>
      have all : fraction.all Char.isDigit = true := List.all_eq_true.mpr fractionDigits
      simp [pointed, all]

theorem isWhitespace_of_isDigit {c : Char} (digit : c.isDigit = true) : isWhitespace c = false := by
  simp only [Char.isDigit, Bool.and_eq_true, decide_eq_true_eq, UInt32.le_iff_toNat_le] at digit
  have code : c.toNat = c.val.toNat := rfl
  have low : ('0' : Char).val.toNat = 48 := rfl
  have high : ('9' : Char).val.toNat = 57 := rfl
  simp only [isWhitespace, Bool.or_eq_false_iff, Bool.and_eq_false_imp, decide_eq_true_eq,
    decide_eq_false_iff_not]
  omega

/-- A text without blanks is not trimmed. -/
theorem trim_of_plain {text : List Char} (plain : ∀ c ∈ text, isWhitespace c = false)
    : trim (String.ofList text) = String.ofList text := by
  have kept : ∀ list : List Char, (∀ c ∈ list, isWhitespace c = false)
      → list.dropWhile isWhitespace = list := by
    intro list none
    cases list with
    | nil => rfl
    | cons c rest => exact List.dropWhile_cons_of_neg (by simp [none c (by simp)])
  rw [trim, String.toList_ofList, kept text plain,
    kept text.reverse (fun c member => plain c (List.mem_reverse.mp member)), List.reverse_reverse]

/-- Digits with an optional fraction are read where the fraction fits the scale, and then as the
units that they stand for, with blanks around them or without.
-/
theorem toBaseUnits_eq {casing : Casing} {assets : List (String × AssetInfo)} {asset : String}
    {info : AssetInfo} (known : assetInfo casing assets (some asset) = some info)
    {whole : List Char} (some_ : whole ≠ []) (digits : ∀ c ∈ whole, c.isDigit = true)
    {fraction : Option (List Char)}
    (fractionDigits : ∀ c ∈ fraction.getD [], c.isDigit = true) {human : String}
    (typed : trim human = String.ofList (whole ++ pointed fraction))
    : toBaseUnits casing assets human asset
      = if (fraction.getD []).length ≤ info.decimals then
          some (toString (FixedPoint.units info.decimals whole (fraction.getD [])))
        else none := by
  unfold toBaseUnits
  simp only [known, typed, String.toList_ofList, decimalParts_eq some_ digits fractionDigits]
  generalize fraction.getD [] = fraction
  by_cases short : fraction.length ≤ info.decimals
  · rw [if_neg (by omega), if_pos short, FixedPoint.units]
    by_cases empty : fraction = []
    · simp [empty]
    · rw [if_neg empty]
  · rw [if_pos (by omega), if_neg short]

end Cixtech.Frontend
