import Cixtech.Foundation.Delimiters
import Mathlib.Data.List.TakeWhile

/-! The string operations of the language that the engine builds its keys with. Upper-casing
follows Unicode tables that are not part of the program, so it is a parameter with the one
law that the key conventions rest on.
-/

namespace Cixtech.Common

open Cixtech.Foundation

/-- `String.prototype.toUpperCase`, of which only idempotence is used. -/
structure Casing where
  toUpperCase : String → String
  toUpperCase_idem : ∀ text, toUpperCase (toUpperCase text) = toUpperCase text

/-- A capital produced by the ASCII mapping lies outside the range the mapping shifts. -/
private theorem charToUpper_idem (c : Char) : c.toUpper.toUpper = c.toUpper := by
  unfold Char.toUpper
  split
  case isTrue lower =>
    have atLeast : 97 ≤ c.val.toNat := UInt32.le_iff_toNat_le.mp lower.1
    have atMost : c.val.toNat ≤ 122 := UInt32.le_iff_toNat_le.mp lower.2
    have shifted : (c.val + ('A'.val - 'a'.val)).toNat = c.val.toNat - 32 := by
      rw [UInt32.toNat_add]
      have gap : ('A'.val - 'a'.val).toNat = 4294967264 := by decide
      omega
    rw [dif_neg]
    intro again
    have tooSmall := UInt32.le_iff_toNat_le.mp again.1
    have bound : 'a'.val.toNat = 97 := rfl
    simp only [shifted, bound] at tooSmall
    omega
  case isFalse => rfl

/-- Upper-casing on the ASCII letters, which is what the Unicode mapping does there. -/
def asciiCasing : Casing where
  toUpperCase text := String.ofList (text.toList.map Char.toUpper)
  toUpperCase_idem text := by
    simp only [String.toList_ofList, List.map_map, Function.comp_def, charToUpper_idem]

/-- `text.startsWith(head)`. -/
def startsWith (text head : String) : Bool := head.toList.isPrefixOf text.toList

/-- `text.endsWith(tail)`. -/
def endsWith (text tail : String) : Bool := tail.toList.isSuffixOf text.toList

/-- `text.split(":", 1)[0]`: the text before the first colon. -/
def beforeColon (text : String) : String := String.ofList (text.toList.takeWhile (· ≠ ':'))

/-- An identifier from `randomUUID()`. Only its alphabet matters to the key conventions. -/
structure Uuid where
  text : String
  alphabet : ∀ c ∈ text.toList, c.isDigit ∨ ('a' ≤ c ∧ c ≤ 'f') ∨ c = '-'
  deriving DecidableEq

def sampleTenant : Uuid := { text := "aa", alphabet := by simp }

def sampleMerchant : Uuid := { text := "bb", alphabet := by simp }

namespace Uuid

@[ext]
theorem ext {left right : Uuid} (same : left.text = right.text) : left = right := by
  cases left
  cases right
  simpa using same

theorem no_colon (id : Uuid) : ':' ∉ id.text.toList := by
  intro member
  have := id.alphabet ':' member
  revert this
  decide

/-- No capital occurs in an identifier. -/
theorem not_upper (id : Uuid) {c : Char} (member : c ∈ id.text.toList) : c.isUpper = false := by
  have allowed := id.alphabet c member
  refine Bool.eq_false_iff.mpr fun upper => ?_
  obtain ⟨low, high⟩ : 65 ≤ c.val ∧ c.val ≤ 90 := of_decide_eq_true upper
  have atLeast : 65 ≤ c.val.toNat := UInt32.le_iff_toNat_le.mp low
  have atMost : c.val.toNat ≤ 90 := UInt32.le_iff_toNat_le.mp high
  rcases allowed with digit | ⟨letter, -⟩ | rfl
  · simp only [Char.isDigit, Bool.and_eq_true, decide_eq_true_eq] at digit
    have below : c.val.toNat ≤ 57 := UInt32.le_iff_toNat_le.mp digit.2
    omega
  · have above : 97 ≤ c.val.toNat := UInt32.le_iff_toNat_le.mp letter
    omega
  · have dash : '-'.val.toNat = 45 := rfl
    omega

end Uuid

/-- A colon ends the part before it, whatever follows. -/
theorem beforeColon_eq {text head : String} {rest : List Char}
    (shape : text.toList = head.toList ++ ':' :: rest) (plain : ':' ∉ head.toList)
    : beforeColon text = head := by
  have everywhere : ∀ c ∈ head.toList, decide (c ≠ ':') = true := by
    intro c member
    exact decide_eq_true fun same => plain (same ▸ member)
  rw [beforeColon, shape, List.takeWhile_append_of_pos everywhere]
  simp

/-- Nothing that is appended behind a colon is in front of the first one. -/
theorem beforeColon_append_colon (text rest : String)
    : beforeColon (text ++ ":" ++ rest) = beforeColon text := by
  have colon : (":" : String).toList = [':'] := rfl
  simp only [beforeColon, String.toList_append, colon, List.append_assoc, List.cons_append,
    List.nil_append]
  congr 1
  induction text.toList with
  | nil => simp
  | cons c rest ih =>
      by_cases stop : c = ':'
      · simp [stop]
      · simpa [stop] using ih

-----------------------------------------------------------------------------
-- Texts joined by colons

/-- What stands in front of the first colon tells itself and the rest. -/
theorem colon_first_inj {front other rest later : String} (plain : ':' ∉ front.toList)
    (otherPlain : ':' ∉ other.toList) (same : front ++ ":" ++ rest = other ++ ":" ++ later)
    : front = other ∧ rest = later := by
  have letters : front.toList ++ ':' :: rest.toList = other.toList ++ ':' :: later.toList := by
    simpa using congrArg String.toList same
  obtain ⟨fronts, rests⟩ := Delimiters.first_inj plain otherPlain letters
  exact ⟨String.toList_inj.mp fronts, String.toList_inj.mp rests⟩

/-- What stands behind the last colon tells itself and the rest. -/
theorem colon_last_inj {front other rest later : String} (plain : ':' ∉ rest.toList)
    (laterPlain : ':' ∉ later.toList) (same : front ++ ":" ++ rest = other ++ ":" ++ later)
    : front = other ∧ rest = later := by
  have letters : front.toList ++ ':' :: rest.toList = other.toList ++ ':' :: later.toList := by
    simpa using congrArg String.toList same
  obtain ⟨fronts, rests⟩ := Delimiters.last_inj plain laterPlain letters
  exact ⟨String.toList_inj.mp fronts, String.toList_inj.mp rests⟩

theorem toList_toString (n : Nat) : (toString n).toList = Nat.toDigits 10 n := by
  simp [toString, Nat.repr]

theorem digit_of_mem_toString {n : Nat} {c : Char} (member : c ∈ (toString n).toList)
    : c.isDigit = true := by
  rw [toList_toString] at member
  exact Nat.isDigit_of_mem_toDigits (by decide) (by decide) member

theorem toString_nat_plain (n : Nat) : ':' ∉ (toString n).toList := fun member =>
  absurd (digit_of_mem_toString member) (by decide)

theorem toString_nat_inj {m n : Nat} (same : toString m = toString n) : m = n := by
  have values := congrArg (fun text => Nat.ofDigitChars 10 text.toList 0) same
  simpa only [toList_toString, Nat.ofDigitChars_ten_toDigits] using values

theorem toList_toString_negSucc (n : Nat)
    : (toString (Int.negSucc n)).toList = '-' :: (toString (n + 1)).toList :=
  String.toList_append

theorem toString_int_plain (n : Int) : ':' ∉ (toString n).toList := by
  cases n with
  | ofNat m => exact toString_nat_plain m
  | negSucc m =>
      rw [toList_toString_negSucc]
      simpa using toString_nat_plain (m + 1)

theorem toString_int_inj {m n : Int} (same : toString m = toString n) : m = n := by
  -- No digit is a minus sign.
  have signed : ∀ {a b : Nat}, toString (Int.ofNat a) ≠ toString (Int.negSucc b) := by
    intro a b same
    have minus : '-' ∈ (toString a).toList := by
      have letters : (toString a).toList = _ := congrArg String.toList same
      rw [letters, toList_toString_negSucc]
      exact List.mem_cons_self
    exact absurd (digit_of_mem_toString minus) (by decide)
  cases m with
  | ofNat a =>
      cases n with
      | ofNat b => exact congrArg Int.ofNat (toString_nat_inj same)
      | negSucc b => exact absurd same signed
  | negSucc a =>
      cases n with
      | ofNat b => exact absurd same.symm signed
      | negSucc b =>
          have letters := congrArg String.toList same
          rw [toList_toString_negSucc, toList_toString_negSucc] at letters
          have digits := String.toList_inj.mp (List.cons.inj letters).2
          rw [Nat.succ.inj (toString_nat_inj digits)]

/-- The text of a number ends with a digit. -/
theorem getLast?_toString (n : Nat)
    : ∃ digit : Char, (toString n).toList.getLast? = some digit ∧ digit.isDigit = true := by
  cases last : (toString n).toList.getLast? with
  | none =>
      have empty := List.getLast?_eq_none_iff.mp last
      simp [toString, Nat.repr] at empty
  | some digit => exact ⟨digit, rfl, digit_of_mem_toString (List.mem_of_getLast? last)⟩

end Cixtech.Common
