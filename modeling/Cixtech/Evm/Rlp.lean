import Cixtech.Foundation.Rlp
import Cixtech.Tron.NetworkReading

/-! The recursive length prefix as the EVM payouts write it: byte strings, integers in their
least bytes, and lists.
-/

namespace Cixtech.Evm

open Cixtech.Common Cixtech.Foundation Cixtech.Foundation.Protobuf
open Cixtech.Tron.TxVerify (hex fromHex hexChar)

/-- `Uint8Array | bigint | RlpInput[]`. -/
inductive RlpInput
  | bytes (b : Bytes)
  | bigint (n : Int)
  | list (items : List RlpInput)

/-- `n.toString(16)` with a zero in front where its digits are odd in number. -/
def evenDigits (n : Nat) : List Char :=
  let digits := Nat.toDigits 16 n
  if digits.length % 2 ≠ 0 then '0' :: digits else digits

def toMinimalBytes (n : Int) : Except AppError Bytes :=
  if n < 0 then .error (.plain "cannot RLP-encode a negative integer")
  else if n = 0 then .ok []
  else .ok (fromHex (evenDigits n.toNat))

/-- A length is not negative, so that its bytes are never refused. -/
def encodeLength (len offset : Nat) : Except AppError Bytes :=
  if len < 56 then .ok [UInt8.ofNat (offset + len)]
  else do
    let lenBytes ← toMinimalBytes len
    return UInt8.ofNat (offset + 55 + lenBytes.length) :: lenBytes

def encodeBytes (b : Bytes) : Except AppError Bytes :=
  if b.length = 1 ∧ b.all (·.toNat < 0x80) then .ok b
  else return (← encodeLength b.length 0x80) ++ b

mutual

def rlpEncode : RlpInput → Except AppError Bytes
  | .bytes b => encodeBytes b
  | .bigint n => do encodeBytes (← toMinimalBytes n)
  | .list items => do
      let payload ← rlpEncodeAll items
      return (← encodeLength payload.length 0xc0) ++ payload

/-- `concatBytes(...input.map(rlpEncode))`. -/
def rlpEncodeAll : List RlpInput → Except AppError Bytes
  | [] => .ok []
  | item :: items => return (← rlpEncode item) ++ (← rlpEncodeAll items)

end

-----------------------------------------------------------------------------
-- Integers

/-- The digits of the language are those of the bytes. -/
theorem digitChar_eq : ∀ digit < 16, Nat.digitChar digit = hexChar digit := by decide

theorem hex_append (b other : Bytes) : hex (b ++ other) = hex b ++ hex other := by simp [hex]

theorem evenDigits_of_large {n : Nat} (large : 256 ≤ n)
    : evenDigits n = evenDigits (n / 256) ++ [hexChar (n / 16 % 16), hexChar (n % 16)] := by
  have digits : Nat.toDigits 16 n
      = Nat.toDigits 16 (n / 256) ++ [hexChar (n / 16 % 16), hexChar (n % 16)] := by
    rw [Nat.toDigits_of_base_le (by decide) (by omega),
      Nat.toDigits_of_base_le (n := n / 16) (by decide) (by omega), Nat.div_div_eq_div_mul,
      digitChar_eq _ (Nat.mod_lt _ (by decide)), digitChar_eq _ (Nat.mod_lt _ (by decide))]
    simp
  unfold evenDigits
  rw [digits]
  simp only [List.length_append, List.length_cons, List.length_nil]
  split
  case isTrue odd => rw [if_pos (by omega), List.cons_append]
  case isFalse even => rw [if_neg (by omega)]

/-- The even digits of a number are those of its least bytes, by induction over its bytes. -/
theorem evenDigits_eq {n : Nat} (positive : 0 < n)
    : evenDigits n = hex (BigEndian.minimal n) := by
  induction n using Nat.strongRecOn with
  | ind n ih =>
      have last : hex [UInt8.ofNat n] = [hexChar (n / 16 % 16), hexChar (n % 16)] := by
        have high : n % 256 / 16 = n / 16 % 16 := by omega
        have low : n % 256 % 16 = n % 16 := by omega
        simp [hex, high, low]
      rw [BigEndian.minimal_of_pos positive, hex_append, last]
      by_cases large : 256 ≤ n
      · rw [evenDigits_of_large large, ih (n / 256) (by omega) (by omega)]
      · have none : n / 256 = 0 := by omega
        rw [none, BigEndian.minimal_zero]
        by_cases two : 16 ≤ n
        · have high : n / 16 % 16 = n / 16 := by omega
          rw [evenDigits, Nat.toDigits_of_base_le (by decide) two,
            Nat.toDigits_of_lt_base (by omega), digitChar_eq _ (by omega),
            digitChar_eq _ (by omega), high]
          simp
        · have high : n / 16 % 16 = 0 := by omega
          have low : n % 16 = n := by omega
          rw [evenDigits, Nat.toDigits_of_lt_base (by omega), digitChar_eq _ (by omega), high, low]
          simp [show hexChar 0 = '0' from rfl]

theorem toMinimalBytes_of_nonneg {n : Int} (sign : 0 ≤ n)
    : toMinimalBytes n = .ok (BigEndian.minimal n.toNat) := by
  unfold toMinimalBytes
  rw [if_neg (by omega)]
  split
  case isTrue zero => simp [zero]
  case isFalse nonzero =>
    rw [evenDigits_eq (by omega), Cixtech.Tron.TxVerify.fromHex_hex]

theorem hex_zeros (count : Nat)
    : hex (List.replicate count 0) = List.replicate (2 * count) '0' := by
  induction count with
  | zero => rfl
  | succ count ih =>
      rw [List.replicate_succ, Cixtech.Tron.TxVerify.hex_cons, ih]
      rfl

/-- Digits behind zeros are the text of a word. -/
theorem leftpad_digits {number : Nat} (positive : 0 < number) (small : number < 256 ^ 32)
    : (Nat.toDigits 16 number).leftpad 64 '0' = hex (BigEndian.fixed 32 number) := by
  have short : (BigEndian.minimal number).length ≤ 32 := BigEndian.length_minimal_le.mpr small
  have digits := evenDigits_eq positive
  have count := congrArg List.length digits
  rw [Cixtech.Tron.TxVerify.length_hex] at count
  rw [BigEndian.fixed_eq small, hex_append, hex_zeros, ← digits, List.leftpad]
  unfold evenDigits at count ⊢
  dsimp only at count ⊢
  split at count
  case isTrue odd =>
    rw [List.length_cons] at count
    have zeros : 64 - (Nat.toDigits 16 number).length
        = 2 * (32 - (BigEndian.minimal number).length) + 1 := by omega
    rw [if_pos odd, zeros, List.replicate_succ', List.append_assoc, List.singleton_append]
  case isFalse even =>
    have zeros : 64 - (Nat.toDigits 16 number).length
        = 2 * (32 - (BigEndian.minimal number).length) := by omega
    rw [if_neg even, zeros]

-----------------------------------------------------------------------------
-- Against the format

theorem encodeLength_eq (len offset : Nat)
    : encodeLength len offset = .ok (Rlp.lengthPrefix offset len) := by
  unfold encodeLength Rlp.lengthPrefix
  split
  case isTrue => rfl
  case isFalse =>
    rw [toMinimalBytes_of_nonneg (Int.natCast_nonneg len), Int.toNat_natCast]
    rfl

theorem encodeBytes_eq (b : Bytes) : encodeBytes b = .ok (Rlp.encodeBytes b) := by
  unfold encodeBytes
  split
  case isTrue small =>
    obtain ⟨byte, rfl⟩ := List.length_eq_one_iff.mp small.1
    rw [Rlp.encodeBytes_of_small (by simpa using small.2)]
  case isFalse prefixed =>
    rw [encodeLength_eq, Rlp.encodeBytes_of_prefixed prefixed]
    rfl

mutual

/-- An input with each integer as its least bytes. -/
def RlpInput.item : RlpInput → Rlp.Item
  | .bytes b => .bytes b
  | .bigint n => .bytes (BigEndian.minimal n.toNat)
  | .list items => .list (RlpInput.items items)

def RlpInput.items : List RlpInput → List Rlp.Item
  | [] => []
  | input :: inputs => input.item :: RlpInput.items inputs

end

mutual

/-- No integer in it is negative. -/
def RlpInput.NonNegative : RlpInput → Prop
  | .bytes _ => True
  | .bigint n => 0 ≤ n
  | .list items => RlpInput.AllNonNegative items

def RlpInput.AllNonNegative : List RlpInput → Prop
  | [] => True
  | input :: inputs => input.NonNegative ∧ RlpInput.AllNonNegative inputs

end

theorem RlpInput.allNonNegative_nil : RlpInput.AllNonNegative [] := trivial

mutual

/-- The encoder writes the format, by induction on the input. -/
theorem rlpEncode_eq (input : RlpInput) (signs : input.NonNegative)
    : rlpEncode input = .ok (Rlp.encode input.item) := by
  cases input with
  | bytes b => rw [rlpEncode, encodeBytes_eq, RlpInput.item, Rlp.encode]
  | bigint n =>
      rw [RlpInput.NonNegative] at signs
      rw [rlpEncode, toMinimalBytes_of_nonneg signs, RlpInput.item, Rlp.encode, ← encodeBytes_eq]
      rfl
  | list items =>
      rw [RlpInput.NonNegative] at signs
      rw [rlpEncode, rlpEncodeAll_eq items signs, RlpInput.item, Rlp.encode]
      simp only [bind, Except.bind, encodeLength_eq]
      rfl

theorem rlpEncodeAll_eq (inputs : List RlpInput) (signs : RlpInput.AllNonNegative inputs)
    : rlpEncodeAll inputs = .ok (Rlp.encodeAll (RlpInput.items inputs)) := by
  cases inputs with
  | nil => rfl
  | cons input inputs =>
      rw [RlpInput.AllNonNegative] at signs
      rw [rlpEncodeAll, rlpEncode_eq input signs.1, rlpEncodeAll_eq inputs signs.2,
        RlpInput.items, Rlp.encodeAll]
      rfl

end

/-- What was written of an input is read back as it, to the last byte. -/
theorem decode_rlpEncode {input : RlpInput} (signs : input.NonNegative)
    (fits : input.item.payload.length < 2 ^ 64)
    : ∃ encoded, rlpEncode input = .ok encoded ∧ Rlp.decode encoded = some (input.item, []) :=
  ⟨_, rlpEncode_eq input signs, Rlp.decode_encode fits⟩

/-- Inputs are written alike exactly where they are one up to the bytes of their integers. -/
theorem rlpEncode_inj {input other : RlpInput} (signs : input.NonNegative)
    (otherSigns : other.NonNegative) (fits : input.item.payload.length < 2 ^ 64)
    (otherFits : other.item.payload.length < 2 ^ 64)
    : rlpEncode input = rlpEncode other ↔ input.item = other.item := by
  rw [rlpEncode_eq input signs, rlpEncode_eq other otherSigns, Except.ok.injEq,
    Rlp.encode_inj fits otherFits]

end Cixtech.Evm
