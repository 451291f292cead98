import Cixtech.Common.Instant
import Mathlib.Data.List.Basic

/-! Time-based one-time codes. A code of the previous, the current or the next 30-second step
is accepted, but never one of a step that is not past the last one accepted.
-/

namespace Cixtech.Auth

open Cixtech.Common

/-- What the module has from the runtime. Hashes are known here by their text or bytes only. -/
structure Crypto where
  toUpperCase : String → String
  toLowerCase : String → String
  /-- `createHmac("sha1", key).update(counter).digest()`. -/
  hmacSha1 : List UInt8 → List UInt8 → List UInt8
  /-- `createHash("sha256").update(token).digest("hex")`. -/
  hashToken : String → String

/-- The characters that `\s` matches and `trim` removes. -/
def isWhitespace (c : Char) : Bool :=
  let code := c.toNat
  (9 ≤ code && code ≤ 13) || code = 0x20 || code = 0xA0 || code = 0x1680
    || (0x2000 ≤ code && code ≤ 0x200A) || code = 0x2028 || code = 0x2029 || code = 0x202F
    || code = 0x205F || code = 0x3000 || code = 0xFEFF

/-- `text.trim()`. -/
def trim (text : String) : String :=
  String.ofList
    ((text.toList.dropWhile isWhitespace).reverse.dropWhile isWhitespace).reverse

-----------------------------------------------------------------------------
-- The code of a step

/-- `BASE32`. -/
def base32Alphabet : List Char := "ABCDEFGHIJKLMNOPQRSTUVWXYZ234567".toList

/-- One character of a base-32 text: the bits read so far, and the bytes they fill. A character
outside the alphabet is passed over.
-/
def base32Step (state : Nat × UInt32 × List UInt8) (c : Char) : Nat × UInt32 × List UInt8 :=
  let (bits, value, out) := state
  if base32Alphabet.contains c then
    let value := value <<< 5 ||| UInt32.ofNat (base32Alphabet.idxOf c)
    let bits := bits + 5
    if 8 ≤ bits then (bits - 8, value, out ++ [(value >>> UInt32.ofNat (bits - 8)).toUInt8])
    else (bits, value, out)
  else (bits, value, out)

def base32Decode (crypto : Crypto) (text : String) : List UInt8 :=
  let unpadded := ((crypto.toUpperCase text).toList.reverse.dropWhile (· = '=')).reverse
  (unpadded.foldl base32Step (0, 0, [])).2.2

/-- `counter.writeBigUInt64BE(BigInt(step))`, of a clock past the epoch. -/
def counterBytes (step : Int) : List UInt8 :=
  (List.range 8).map fun i => UInt8.ofNat (step.toNat >>> (8 * (7 - i)))

def totpCode (crypto : Crypto) (secretBase32 : String) (step : Int) : String :=
  let digest := crypto.hmacSha1 (base32Decode crypto secretBase32) (counterBytes step)
  let byte := fun i => (digest.getD i 0).toNat
  let offset := byte (digest.length - 1) &&& 0x0f
  let binary :=
    (byte offset &&& 0x7f) <<< 24 ||| byte (offset + 1) <<< 16 ||| byte (offset + 2) <<< 8
      ||| byte (offset + 3)
  padded 6 (binary % 1000000 : Nat)

-----------------------------------------------------------------------------
-- The check of a code

/-- The 30-second step of a clock in milliseconds. -/
def currentTotpStep (now : Int) : Int := now / 30000

/-- `code.replace(/\s+/g, "")`. -/
def withoutWhitespace (code : String) : String :=
  String.ofList (code.toList.filter fun c => !isWhitespace c)

/-- `/^\d{6}$/`. -/
def sixDigits (cleaned : String) : Bool :=
  cleaned.toList.length = 6 && cleaned.toList.all fun c => '0' ≤ c && c ≤ '9'

/-- The accepted step, none where the code is refused. -/
def verifyTotp (crypto : Crypto) (secretBase32 code : String) (now : Int)
    (lastStep : Option Int)
    : Option Int :=
  let cleaned := withoutWhitespace code
  if sixDigits cleaned then
    [-1, 0, 1].map (currentTotpStep now + ·) |>.find? fun step =>
      !lastStep.any (step ≤ ·) && totpCode crypto secretBase32 step = cleaned
  else none

/-- Whether a step is past the last one stored. -/
def PastLast (lastStep : Option Int) (step : Int) : Prop :=
  ∀ last, lastStep = some last → last < step

instance (lastStep : Option Int) (step : Int) : Decidable (PastLast lastStep step) :=
  match lastStep with
  | none => isTrue fun _ none => nomatch none
  | some last =>
      if before : last < step then isTrue fun _ same => Option.some.inj same ▸ before
      else isFalse fun past => before (past last rfl)

/-- A step is accepted for a code of its own, within one step of the clock and past the last one.
-/
theorem verifyTotp_accepts {crypto : Crypto} {secret code : String} {now step : Int}
    {lastStep : Option Int} (accepted : verifyTotp crypto secret code now lastStep = some step)
    : totpCode crypto secret step = withoutWhitespace code
      ∧ currentTotpStep now - 1 ≤ step ∧ step ≤ currentTotpStep now + 1
      ∧ PastLast lastStep step := by
  simp only [verifyTotp] at accepted
  split at accepted
  case isTrue =>
    have passes := List.find?_some accepted
    have member := List.mem_of_find?_eq_some accepted
    simp only [Bool.and_eq_true, Bool.not_eq_true', Option.any_eq_false, decide_eq_true_eq,
      decide_eq_false_iff_not] at passes
    simp only [List.map_cons, List.map_nil, List.mem_cons, List.not_mem_nil, or_false] at member
    refine ⟨passes.2, by omega, by omega, fun last same => ?_⟩
    exact Int.not_le.mp (passes.1 last same)
  case isFalse => cases accepted

-----------------------------------------------------------------------------
-- The published values of one secret

/-- The digests of the counters 0 to 3 under the secret of `sampleSecret`. -/
def sampleDigest : List UInt8 → List UInt8
  | [0, 0, 0, 0, 0, 0, 0, 0] =>
      [ 204, 147, 207, 24, 80, 141, 148, 147, 76, 100, 182, 93, 139, 167, 102, 127, 183, 205, 228,
        176 ]
  | [0, 0, 0, 0, 0, 0, 0, 1] =>
      [117, 164, 138, 25, 212, 203, 225, 0, 100, 78, 138, 193, 57, 126, 234, 116, 122, 45, 51, 171]
  | [0, 0, 0, 0, 0, 0, 0, 2] =>
      [11, 172, 183, 250, 8, 47, 239, 48, 120, 34, 17, 147, 139, 193, 197, 231, 4, 22, 255, 68]
  | [0, 0, 0, 0, 0, 0, 0, 3] =>
      [102, 194, 130, 39, 208, 58, 45, 85, 41, 38, 47, 240, 22, 161, 230, 239, 118, 85, 126, 206]
  | _ => List.replicate 20 0

def sampleSecret : String := "GEZDGNBVGY3TQOJQGEZDGNBVGY3TQOJQ"

/-- The functions of the runtime on what the samples give them. -/
def sampleCrypto : Crypto where
  toUpperCase text := text
  toLowerCase text := text
  hmacSha1 _ := sampleDigest
  hashToken token := token

example : base32Decode sampleCrypto sampleSecret = "12345678901234567890".toUTF8.data.toList := by
  decide +kernel

example : verifyTotp sampleCrypto sampleSecret "287 082" 59000 none = some 1 := by decide +kernel

end Cixtech.Auth
