import Cixtech.Auth.Totp
import Cixtech.Foundation.Regrouping
import Mathlib.Data.Bool.AllAny

/-! The base-32 text of a secret. Both directions shift through a 32-bit integer that is never
masked, so that its high bits hold what was read long before; the bits that are still pending are
the low ones, and these are right.
-/

namespace Cixtech.Auth

open Cixtech.Foundation

/-- `BASE32[index & 31]`. -/
def base32Letter (index : UInt32) : Char := base32Alphabet.getD (index &&& 31).toNat 'A'

/-- `while (bits >= 5)`: five bits less and a letter more. -/
def base32Emit (value : Int32) (out : List Char) : Nat → Nat × List Char
  | bits + 5 => base32Emit value (out ++ [base32Letter (value.toUInt32 >>> UInt32.ofNat bits)]) bits
  | bits => (bits, out)

/-- The loop over the bytes. The integer is signed, and only its bits are looked at. -/
def base32EncodeStep (state : Nat × Int32 × List Char) (byte : UInt8) : Nat × Int32 × List Char :=
  let (bits, value, out) := state
  let value := value <<< 8 ||| Int32.ofNat byte.toNat
  let (bits, out) := base32Emit value out (bits + 8)
  (bits, value, out)

def base32Encode (buf : List UInt8) : String :=
  let (bits, value, out) := buf.foldl base32EncodeStep (0, 0, [])
  String.ofList
    (if 0 < bits then out ++ [base32Letter (value.toUInt32 <<< UInt32.ofNat (5 - bits))] else out)

/-- The loop over the characters with the integer as the language has it, signed. -/
def base32SignedStep (state : Nat × Int32 × List UInt8) (c : Char) : Nat × Int32 × List UInt8 :=
  let (bits, value, out) := state
  if base32Alphabet.contains c then
    let value := value <<< 5 ||| Int32.ofNat (base32Alphabet.idxOf c)
    let bits := bits + 5
    if 8 ≤ bits then
      (bits - 8, value, out ++ [(value.toUInt32 >>> UInt32.ofNat (bits - 8)).toUInt8])
    else (bits, value, out)
  else (bits, value, out)

def base32DecodeSigned (crypto : Crypto) (text : String) : List UInt8 :=
  let unpadded := ((crypto.toUpperCase text).toList.reverse.dropWhile (· = '=')).reverse
  (unpadded.foldl base32SignedStep (0, 0, [])).2.2

/-- The loop's variables without the sign of the integer. -/
def unsigned (state : Nat × Int32 × List UInt8) : Nat × UInt32 × List UInt8 :=
  (state.1, state.2.1.toUInt32, state.2.2)

theorem base32SignedStep_unsigned (state : Nat × Int32 × List UInt8) (c : Char)
    : unsigned (base32SignedStep state c) = base32Step (unsigned state) c := by
  obtain ⟨bits, value, out⟩ := state
  simp only [base32SignedStep, base32Step, unsigned]
  by_cases letter : base32Alphabet.contains c
  · by_cases enough : 8 ≤ bits + 5
    · simp only [letter, enough, if_true]
      rfl
    · simp only [letter, enough, if_true, if_false]
      rfl
  · simp only [letter, Bool.false_eq_true, if_false]

/-- The sign of the integer makes no difference, character by character. -/
theorem base32Decode_signed (crypto : Crypto) (text : String)
    : base32DecodeSigned crypto text = base32Decode crypto text := by
  have run : ∀ (letters : List Char) (state : Nat × Int32 × List UInt8),
      unsigned (letters.foldl base32SignedStep state)
        = letters.foldl base32Step (unsigned state) := by
    intro letters
    induction letters with
    | nil => exact fun _ => rfl
    | cons c rest ih =>
        intro state
        rw [List.foldl_cons, List.foldl_cons, ih, base32SignedStep_unsigned]
  exact congrArg (fun state => state.2.2) (run _ (0, 0, []))

-----------------------------------------------------------------------------
-- Writing

/-- The letter of a digit below 32. -/
def letterOf (digit : Nat) : Char := base32Alphabet.getD digit 'A'

theorem letterOf_cases
    : ∀ digit < 32,
        base32Alphabet.contains (letterOf digit) = true
          ∧ base32Alphabet.idxOf (letterOf digit) = digit
          ∧ (letterOf digit).toNat < 128
          ∧ (letterOf digit).toUpper = letterOf digit
          ∧ (letterOf digit).toLower.toUpper = letterOf digit
          ∧ (letterOf digit).toLower.toNat < 128 := by
  decide

theorem base32Letter_shiftRight (value : UInt32) {bits : Nat} (short : bits < 32)
    : base32Letter (value >>> UInt32.ofNat bits)
      = letterOf (Regrouping.takeOut 5 (bits + 5) value.toNat) := by
  have low : ((value >>> UInt32.ofNat bits) &&& 31).toNat = value.toNat >>> bits % 32 := by
    simp [Nat.mod_eq_of_lt short, Nat.and_two_pow_sub_one_eq_mod _ 5]
  rw [base32Letter, low, Regrouping.takeOut, Nat.add_sub_cancel]
  rfl

theorem base32Letter_shiftLeft (value : UInt32) {bits : Nat} (some_ : 0 < bits)
    : base32Letter (value <<< UInt32.ofNat (5 - bits))
      = letterOf (Regrouping.fillUp 32 5 bits value.toNat) := by
  have short : 5 - bits < 32 := by omega
  have low : ((value <<< UInt32.ofNat (5 - bits)) &&& 31).toNat
      = value.toNat <<< (5 - bits) % 2 ^ 32 % 32 := by
    simp [Nat.mod_eq_of_lt short, Nat.and_two_pow_sub_one_eq_mod _ 5]
  rw [base32Letter, low]
  rfl

/-- What is known between two bytes: the letters written so far are those of digits, and with
the pending bits they hold the bytes.
-/
structure Encoding (read : List UInt8) (digits : List Nat) (bits : Nat) (value : Int32) : Prop where
  holds : Regrouping.Holds 8 5 (read.map UInt8.toNat) digits bits value.toUInt32.toNat
  small : ∀ digit ∈ digits, digit < 2 ^ 5

/-- The inner loop writes a letter for every five pending bits, by recursion on them. -/
theorem base32Emit_spec {read : List UInt8} {digits : List Nat} {bits : Nat} {value : Int32}
    (encoding : Encoding read digits bits value) (few : bits ≤ 32)
    : ∃ later left,
        base32Emit value (digits.map letterOf) bits = (left, later.map letterOf)
        ∧ Encoding read later left value
        ∧ left < 5 := by
  match bits with
  | bits + 5 =>
      have next : Encoding read (digits ++ [Regrouping.takeOut 5 (bits + 5) value.toUInt32.toNat])
          bits value :=
        { holds := encoding.holds.takenOut (by omega)
          small := by
            intro digit member
            rcases List.mem_append.mp member with old | new
            · exact encoding.small digit old
            · exact List.mem_singleton.mp new ▸ Regrouping.takeOut_lt _ _ _ }
      obtain ⟨later, left, emitted, kept, short⟩ := base32Emit_spec next (by omega)
      refine ⟨later, left, ?_, kept, short⟩
      rw [← emitted, base32Emit, base32Letter_shiftRight _ (by omega), List.map_append]
      rfl
  | 0 | 1 | 2 | 3 | 4 => exact ⟨digits, _, rfl, encoding, by decide⟩

/-- A byte is shifted in behind the pending bits. -/
theorem toNat_shiftIn (value : Int32) {width digit : Nat} (narrow : width < 32)
    (small : digit < 2 ^ 32)
    : (value.toUInt32 <<< UInt32.ofNat width ||| UInt32.ofNat digit).toNat
      = Regrouping.shiftIn 32 width value.toUInt32.toNat digit := by
  have shift : width < 2 ^ 32 := Nat.lt_trans narrow (by decide)
  rw [UInt32.toNat_or, UInt32.toNat_shiftLeft, UInt32.toNat_ofNat_of_lt' small,
    UInt32.toNat_ofNat_of_lt' shift, Nat.mod_eq_of_lt narrow]
  rfl

/-- The bytes are held by the letters and the pending bits, by induction on the bytes read. -/
theorem base32EncodeStep_run (buf : List UInt8)
    : ∃ bits value digits,
        buf.foldl base32EncodeStep (0, 0, []) = (bits, value, digits.map letterOf)
        ∧ Encoding buf digits bits value
        ∧ bits < 5 := by
  induction buf using List.reverseRecOn with
  | nil =>
      exact ⟨0, 0, [], rfl, { holds := Regrouping.holds_start 8 5 _, small := by simp }, by decide⟩
  | append_singleton read byte ih =>
      obtain ⟨bits, value, digits, ran, encoding, few⟩ := ih
      have word : (value <<< 8 ||| Int32.ofNat byte.toNat).toUInt32.toNat
          = Regrouping.shiftIn 32 8 value.toUInt32.toNat byte.toNat :=
        toNat_shiftIn value (by decide) (by have := byte.toNat_lt; omega)
      have shifted : Encoding (read ++ [byte]) digits (bits + 8)
          (value <<< 8 ||| Int32.ofNat byte.toNat) :=
        { holds := by
            rw [List.map_append, List.map_singleton, word]
            exact encoding.holds.shiftedIn (by omega) byte.toNat_lt
          small := encoding.small }
      obtain ⟨later, left, emitted, kept, short⟩ := base32Emit_spec shifted (by omega)
      refine ⟨left, _, later, ?_, kept, short⟩
      rw [List.foldl_append, ran, List.foldl_cons, List.foldl_nil, base32EncodeStep]
      simp only [emitted]

/-- A text encodes bytes by digits that are the bytes with less than a digit of padding. -/
theorem base32Encode_spec (buf : List UInt8)
    : ∃ digits padding,
        (base32Encode buf).toList = digits.map letterOf
        ∧ Regrouping.Padded 8 5 (buf.map UInt8.toNat) digits padding
        ∧ padding < 5
        ∧ ∀ digit ∈ digits, digit < 2 ^ 5 := by
  obtain ⟨bits, value, digits, ran, encoding, few⟩ := base32EncodeStep_run buf
  rw [base32Encode, ran]
  simp only [String.toList_ofList]
  split
  case isTrue some_ =>
    refine ⟨_, 5 - bits, ?_, encoding.holds.filledUp few.le (by decide : 5 ≤ 32), by omega, ?_⟩
    · rw [base32Letter_shiftLeft _ some_, List.map_append]
      rfl
    · intro digit member
      rcases List.mem_append.mp member with old | new
      · exact encoding.small digit old
      · exact List.mem_singleton.mp new ▸ Regrouping.fillUp_lt _ _ _ _
  case isFalse none =>
    obtain rfl : bits = 0 := by omega
    exact ⟨digits, 0, rfl, encoding.holds.padded, by decide, encoding.small⟩

-----------------------------------------------------------------------------
-- Reading

theorem toNat_toUInt8_shiftRight (value : UInt32) {shift : Nat} (narrow : shift < 32)
    : (value >>> UInt32.ofNat shift).toUInt8.toNat = value.toNat >>> shift % 2 ^ 8 := by
  simp [Nat.mod_eq_of_lt narrow]

/-- The digits are held by the bytes and the pending bits, by induction on the letters read. -/
theorem base32Step_run (digits : List Nat) (small : ∀ digit ∈ digits, digit < 2 ^ 5)
    : ∃ bits value out,
        (digits.map letterOf).foldl base32Step (0, 0, []) = (bits, value, out)
        ∧ Regrouping.Holds 5 8 digits (out.map UInt8.toNat) bits value.toNat
        ∧ bits < 8 := by
  induction digits using List.reverseRecOn with
  | nil => exact ⟨0, 0, [], rfl, Regrouping.holds_start 5 8 _, by decide⟩
  | append_singleton read digit ih =>
      obtain ⟨bits, value, out, ran, holds, few⟩ :=
        ih fun other member => small other (by simp [member])
      have below : digit < 2 ^ 5 := small digit (by simp)
      obtain ⟨letter, index, -⟩ := letterOf_cases digit below
      have word : (value <<< 5 ||| UInt32.ofNat digit).toNat
          = Regrouping.shiftIn 32 5 value.toNat digit :=
        toNat_shiftIn value.toInt32 (by decide) (by omega)
      have shifted := holds.shiftedIn (by omega : bits + 5 ≤ 32) below
      rw [← word] at shifted
      simp only [List.map_append, List.map_singleton, List.foldl_append, ran, List.foldl_cons,
        List.foldl_nil, base32Step, letter, index, if_true]
      by_cases enough : 8 ≤ bits + 5
      · have byte := toNat_toUInt8_shiftRight (value <<< 5 ||| UInt32.ofNat digit)
          (by omega : bits + 5 - 8 < 32)
        refine ⟨_, _, _, if_pos enough, ?_, by omega⟩
        rw [List.map_append, List.map_singleton, byte]
        exact shifted.takenOut enough
      · exact ⟨_, _, _, if_neg enough, shifted, by omega⟩

/-- Only the letters of the alphabet count, by induction on the text. -/
theorem foldl_base32Step_filter (letters : List Char) (state : Nat × UInt32 × List UInt8)
    : letters.foldl base32Step state
      = (letters.filter base32Alphabet.contains).foldl base32Step state := by
  induction letters generalizing state with
  | nil => rfl
  | cons c rest ih =>
      by_cases letter : base32Alphabet.contains c
      · rw [List.filter_cons_of_pos letter, List.foldl_cons, List.foldl_cons, ih]
      · have passed : base32Step state c = state := if_neg letter
        rw [List.filter_cons_of_neg letter, List.foldl_cons, passed, ih]

/-- What a text decodes to depends on the letters of its upper case alone. -/
theorem base32Decode_eq (crypto : Crypto) (text : String)
    : base32Decode crypto text
      = (((crypto.toUpperCase text).toList.filter base32Alphabet.contains).foldl base32Step
          (0, 0, [])).2.2 := by
  have unpadded : ∀ letters : List Char,
      ((letters.reverse.dropWhile (· = '=')).reverse).filter base32Alphabet.contains
        = letters.filter base32Alphabet.contains := by
    intro letters
    have pads : (letters.reverse.takeWhile (· = '=')).filter base32Alphabet.contains = [] := by
      refine List.filter_eq_nil_iff.mpr fun c member => ?_
      obtain rfl : c = '=' := by simpa using List.all_eq_true.mp List.all_takeWhile c member
      decide
    have whole : letters.reverse.takeWhile (· = '=') ++ letters.reverse.dropWhile (· = '=')
        = letters.reverse := List.takeWhile_append_dropWhile
    have kept := congrArg (fun list => (List.filter base32Alphabet.contains list).reverse) whole
    simp only [List.filter_append, pads, List.nil_append] at kept
    simpa [List.filter_reverse] using kept
  rw [base32Decode, foldl_base32Step_filter, unpadded]

-----------------------------------------------------------------------------
-- Reading what was written

/-- The letter cases of the language: each character has its own upper case, of one character
or of several, and on ASCII both cases are those of the letters.
-/
structure Crypto.CaseMapped (crypto : Crypto) (upperOf : Char → List Char) : Prop where
  upper : ∀ text, (crypto.toUpperCase text).toList = text.toList.flatMap upperOf
  upper_ascii : ∀ c, c.toNat < 128 → upperOf c = [c.toUpper]
  lower_ascii
    : ∀ text, (∀ c ∈ text.toList, c.toNat < 128)
      → (crypto.toLowerCase text).toList = text.toList.map Char.toLower

/-- A character of which nothing is in the alphabet, in upper case. -/
def Foreign (upperOf : Char → List Char) (c : Char) : Prop :=
  ∀ upper ∈ upperOf c, base32Alphabet.contains upper = false

/-- A text is another one with characters inserted into it anywhere. -/
inductive Inserted (foreign : Char → Prop) : List Char → List Char → Prop
  | nil : Inserted foreign [] []
  | keep {base text} (c : Char) (rest : Inserted foreign base text)
    : Inserted foreign (c :: base) (c :: text)
  | insert {base text} {c : Char} (new : foreign c) (rest : Inserted foreign base text)
    : Inserted foreign base (c :: text)

theorem Inserted.refl (foreign : Char → Prop) (text : List Char) : Inserted foreign text text := by
  induction text with
  | nil => exact .nil
  | cons c rest ih => exact .keep c ih

theorem Inserted.behind {foreign : Char → Prop} (text : List Char) {more : List Char}
    (new : ∀ c ∈ more, foreign c)
    : Inserted foreign text (text ++ more) := by
  induction text with
  | nil =>
      induction more with
      | nil => exact .nil
      | cons c rest ih =>
          exact .insert (new c (by simp)) (ih fun other member => new other (by simp [member]))
  | cons c rest ih => exact .keep c ih

/-- What is inserted is passed over, by induction on the insertions. -/
theorem Inserted.letters {upperOf : Char → List Char} {base text : List Char}
    (inserted : Inserted (Foreign upperOf) base text)
    : (text.flatMap upperOf).filter base32Alphabet.contains
      = (base.flatMap upperOf).filter base32Alphabet.contains := by
  induction inserted with
  | nil => rfl
  | keep c rest ih =>
      rw [List.flatMap_cons, List.flatMap_cons, List.filter_append, List.filter_append, ih]
  | insert new rest ih =>
      have passed : (upperOf _).filter base32Alphabet.contains = [] :=
        List.filter_eq_nil_iff.mpr fun upper member => by
          rw [new upper member]
          exact Bool.false_ne_true
      rw [List.flatMap_cons, List.filter_append, passed, List.nil_append, ih]

/-- A text that is the encoding in any letter case decodes to the bytes, whatever is inserted. -/
theorem base32Decode_of_inserted {crypto : Crypto} {upperOf : Char → List Char}
    (mapped : crypto.CaseMapped upperOf) {buf : List UInt8} {base text : String}
    (ascii : ∀ c ∈ base.toList, c.toNat < 128)
    (spelled : base.toList.map Char.toUpper = (base32Encode buf).toList)
    (inserted : Inserted (Foreign upperOf) base.toList text.toList)
    : base32Decode crypto text = buf := by
  obtain ⟨digits, padding, encoded, padded, short, small⟩ := base32Encode_spec buf
  have capitals : base.toList.flatMap upperOf = digits.map letterOf := by
    rw [← encoded, ← spelled, List.map_eq_flatMap]
    exact List.flatMap_congr fun c member => mapped.upper_ascii c (ascii c member)
  have letters : (digits.map letterOf).filter base32Alphabet.contains = digits.map letterOf := by
    refine List.filter_eq_self.mpr fun c member => ?_
    obtain ⟨digit, among, rfl⟩ := List.mem_map.mp member
    exact (letterOf_cases digit (small digit among)).1
  obtain ⟨bits, value, out, ran, holds, few⟩ := base32Step_run digits small
  rw [base32Decode_eq, mapped.upper, inserted.letters, capitals, letters, ran]
  have bytes : ∀ list : List UInt8, ∀ digit ∈ list.map UInt8.toNat, digit < 2 ^ 8 := by
    intro list digit member
    obtain ⟨byte, -, rfl⟩ := List.mem_map.mp member
    exact byte.toNat_lt
  have same := padded.regrouped_back holds (by omega) few (bytes buf) (bytes out)
  exact List.map_injective_iff.mpr (fun _ _ => UInt8.toNat_inj.mp) same

theorem encoding_letters (buf : List UInt8)
    : ∀ c ∈ (base32Encode buf).toList,
        c.toNat < 128 ∧ c.toUpper = c ∧ c.toLower.toUpper = c ∧ c.toLower.toNat < 128 := by
  obtain ⟨digits, padding, encoded, -, -, small⟩ := base32Encode_spec buf
  intro c member
  rw [encoded] at member
  obtain ⟨digit, among, rfl⟩ := List.mem_map.mp member
  obtain ⟨-, -, ascii, upper, lower, lowerAscii⟩ := letterOf_cases digit (small digit among)
  exact ⟨ascii, upper, lower, lowerAscii⟩

theorem length_base32Encode (buf : List UInt8)
    : (base32Encode buf).length = (8 * buf.length + 4) / 5 := by
  obtain ⟨digits, padding, encoded, padded, short, -⟩ := base32Encode_spec buf
  have count := padded.count
  rw [← String.length_toList, encoded, List.length_map]
  rw [List.length_map] at count
  omega

/-- Bytes of any number are read back from their text, which is as short as it can be, whether
it comes in small letters, with padding or with characters inserted that have no letter of the
alphabet in their upper case; the sign of the integers makes no difference.
-/
theorem base32_round_trip {crypto : Crypto} {upperOf : Char → List Char}
    (mapped : crypto.CaseMapped upperOf) (buf : List UInt8)
    : base32Decode crypto (base32Encode buf) = buf
      ∧ base32DecodeSigned crypto (base32Encode buf) = buf
      ∧ (base32Encode buf).length = (8 * buf.length + 4) / 5
      ∧ base32Decode crypto (crypto.toLowerCase (base32Encode buf)) = buf
      ∧ (∀ count,
          base32Decode crypto (base32Encode buf ++ String.ofList (List.replicate count '=')) = buf)
      ∧ (∀ text : String,
          Inserted (Foreign upperOf) (base32Encode buf).toList text.toList
          → base32Decode crypto text = buf)
      ∧ ∀ base text : String,
          (∀ c ∈ base.toList, c.toNat < 128)
          → base.toList.map Char.toUpper = (base32Encode buf).toList
          → Inserted (Foreign upperOf) base.toList text.toList
          → base32Decode crypto text = buf := by
  have letters := encoding_letters buf
  have ascii : ∀ c ∈ (base32Encode buf).toList, c.toNat < 128 :=
    fun c member => (letters c member).1
  have itself : (base32Encode buf).toList.map Char.toUpper = (base32Encode buf).toList := by
    conv_rhs => rw [← List.map_id (base32Encode buf).toList]
    exact List.map_congr_left fun c member => (letters c member).2.1
  have inserted : ∀ text : String,
      Inserted (Foreign upperOf) (base32Encode buf).toList text.toList
      → base32Decode crypto text = buf :=
    fun text => base32Decode_of_inserted mapped ascii itself
  have back := inserted _ (Inserted.refl _ _)
  refine ⟨back, (base32Decode_signed _ _).trans back, length_base32Encode buf, ?_, ?_, inserted,
    fun base text => base32Decode_of_inserted mapped⟩
  · have small := mapped.lower_ascii (base32Encode buf) ascii
    refine base32Decode_of_inserted mapped ?_ ?_ (Inserted.refl _ _)
    · intro c member
      rw [small] at member
      obtain ⟨capital, among, rfl⟩ := List.mem_map.mp member
      exact (letters capital among).2.2.2
    · rw [small, List.map_map]
      conv_rhs => rw [← List.map_id (base32Encode buf).toList]
      exact List.map_congr_left fun c member => (letters c member).2.2.1
  · intro count
    refine inserted _ ?_
    rw [String.toList_append, String.toList_ofList]
    refine Inserted.behind _ fun c member upper among => ?_
    obtain rfl := List.eq_of_mem_replicate member
    rw [mapped.upper_ascii '=' (by decide), List.mem_singleton] at among
    subst among
    decide

/-- The upper case of the language on the ASCII letters and on the sharp s, which has two. -/
def sharpUpper (c : Char) : List Char := if c = 'ß' then ['S', 'S'] else [c.toUpper]

def sharpCrypto : Crypto :=
  { sampleCrypto with
      toUpperCase := fun text => String.ofList (text.toList.flatMap sharpUpper)
      toLowerCase := fun text => String.ofList (text.toList.map Char.toLower) }

theorem sharpCrypto_mapped : sharpCrypto.CaseMapped sharpUpper where
  upper _ := String.toList_ofList
  upper_ascii c ascii := by
    refine if_neg ?_
    rintro rfl
    exact absurd ascii (by decide)
  lower_ascii _ _ := String.toList_ofList

/-- A secret in small letters, with a blank and padding. -/
theorem base32_round_trip_spaced
    : base32Decode sharpCrypto "gezd gnbv=" = [49, 50, 51, 52, 53] := by
  have blank : Foreign sharpUpper ' ' := List.all_iff_forall_prop.mp (by decide)
  have pad : Foreign sharpUpper '=' := List.all_iff_forall_prop.mp (by decide)
  refine (base32_round_trip sharpCrypto_mapped [49, 50, 51, 52, 53]).2.2.2.2.2.2 "gezdgnbv"
    "gezd gnbv=" (List.all_iff_forall_prop.mp (by decide)) (by decide +kernel) ?_
  exact .keep 'g' <| .keep 'e' <| .keep 'z' <| .keep 'd' <| .insert blank <| .keep 'g' <|
    .keep 'n' <| .keep 'b' <| .keep 'v' <| .insert pad .nil

/-- A sharp s is outside the alphabet in both letter cases, and yet it is read as two letters. -/
theorem inserted_sharp_decoded
    : ¬ ∀ (crypto : Crypto) (upperOf : Char → List Char), crypto.CaseMapped upperOf
        → ∀ (buf : List UInt8) (front back : String) (c : Char),
            c ∉ base32Alphabet
            → c.toUpper ∉ base32Alphabet
            → base32Encode buf = front ++ back
            → base32Decode crypto (front ++ String.singleton c ++ back) = buf := by
  intro ignored
  have read := ignored sharpCrypto sharpUpper sharpCrypto_mapped [0] "AA" "" 'ß' (by decide)
    (by decide) (by decide +kernel)
  revert read
  decide +kernel

end Cixtech.Auth
