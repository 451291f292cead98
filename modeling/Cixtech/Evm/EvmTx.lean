import Cixtech.Evm.Rlp
import Cixtech.Payout.DestinationSpelling

/-! Type 2 transactions. What is signed and what is sent are lists in the recursive length
prefix, which determine the fields that they were made of.
-/

namespace Cixtech.Evm

open Cixtech.Common Cixtech.Foundation Cixtech.Foundation.Protobuf Cixtech.Payout
open Cixtech.Tron.TxVerify (hex fromHex hexNumber hexChar withoutHexPrefix)

structure Eip1559Tx where
  chainId : Int
  nonce : Int
  maxPriorityFeePerGas : Int
  maxFeePerGas : Int
  gasLimit : Int
  toAddress : String
  value : Int
  data : Bytes
  deriving DecidableEq, Repr

structure SignedTx where
  raw : List Char
  hash : List Char
  deriving DecidableEq, Repr

def txType : UInt8 := 0x02

def addressBytes (address : String) : Except AppError Bytes := do
  return fromHex (← normalizeHexAddress address).toList

def fields (tx : Eip1559Tx) : Except AppError (List RlpInput) := do
  let address ← addressBytes tx.toAddress
  return [ .bigint tx.chainId, .bigint tx.nonce, .bigint tx.maxPriorityFeePerGas,
    .bigint tx.maxFeePerGas, .bigint tx.gasLimit, .bytes address, .bigint tx.value, .bytes tx.data,
    -- The access list is empty.
    .list [] ]

/-- What `signingHash` hashes. -/
def signingPreimage (tx : Eip1559Tx) : Except AppError Bytes := do
  return txType :: (← rlpEncode (.list (← fields tx)))

def signingHash (keccak256 : Bytes → Bytes) (tx : Eip1559Tx) : Except AppError Bytes := do
  return keccak256 (← signingPreimage tx)

def toBigInt (bytes : Bytes) : Int :=
  let h := hex bytes
  if h = [] then 0 else hexNumber h

/-- `yParity`, `r` and `s` of a recoverable signature, as they follow the fields. -/
def signatureFields (signature : Bytes) : List RlpInput :=
  let r := toBigInt (signature.take 32)
  let s := toBigInt ((signature.drop 32).take 32)
  let yParity := (signature.getD 64 0).toNat
  [.bigint yParity, .bigint r, .bigint s]

def serializeSigned (keccak256 : Bytes → Bytes) (tx : Eip1559Tx) (signature : Bytes)
    : Except AppError SignedTx := do
  if signature.length ≠ 65 then throw (.plain "expected a 65-byte recoverable signature")
  let signed ← rlpEncode (.list ((← fields tx) ++ signatureFields signature))
  let raw := txType :: signed
  return { raw := '0' :: 'x' :: hex raw, hash := '0' :: 'x' :: hex (keccak256 raw) }

namespace Eip1559Tx

def NonNegative (tx : Eip1559Tx) : Prop :=
  ∀ n ∈ [tx.chainId, tx.nonce, tx.maxPriorityFeePerGas, tx.maxFeePerGas, tx.gasLimit, tx.value],
    0 ≤ n

instance (tx : Eip1559Tx) : Decidable tx.NonNegative :=
  inferInstanceAs (Decidable (∀ n ∈ _, _))

/-- The fields, and what follows them, take fewer bytes than a prefix can count. -/
def Fits (tx : Eip1559Tx) (more : List RlpInput) : Prop :=
  ∀ inputs, fields tx = .ok inputs → (RlpInput.list (inputs ++ more)).item.payload.length < 2 ^ 64

/-- All fields are equal, and the addresses are spellings of the same twenty bytes. -/
def Same (tx other : Eip1559Tx) : Prop :=
  SameAddress tx.toAddress other.toAddress ∧ { tx with toAddress := other.toAddress } = other

end Eip1559Tx

-----------------------------------------------------------------------------
-- What an address spells

theorem ascii_hexDigit
    : ∀ code < 128, isHexDigit (Char.ofNat code) = true →
      ∃ n < 16, AuthorizationSigner.hexDigit (Char.ofNat code) = some n
        ∧ hexChar n = Char.ofNat code := by
  decide

/-- A small hexadecimal digit is the one that its number is written with. -/
theorem hexChar_hexDigit {digit : Char} (small : isHexDigit digit = true)
    : ∃ n < 16, AuthorizationSigner.hexDigit digit = some n ∧ hexChar n = digit := by
  have ascii : digit.toNat < 128 := by
    simp only [isHexDigit, Char.isDigit, Bool.or_eq_true, Bool.and_eq_true, decide_eq_true_eq,
      Char.le_def, UInt32.le_iff_toNat_le] at small
    have ten : ('9' : Char).val.toNat = 57 := rfl
    have sixteen : ('f' : Char).val.toNat = 102 := rfl
    have code : digit.toNat = digit.val.toNat := rfl
    omega
  have found := ascii_hexDigit digit.toNat ascii
  rw [Char.ofNat_toNat] at found
  exact found small

/-- A text of small hexadecimal digits is that of its bytes, by induction on their count. -/
theorem hex_fromHex {text : List Char} (length : Nat) (long : text.length = 2 * length)
    (small : text.all isHexDigit = true)
    : hex (fromHex text) = text := by
  induction length generalizing text with
  | zero =>
      obtain rfl := List.length_eq_zero_iff.mp long
      rfl
  | succ length ih =>
      match text, long, small with
      | high :: low :: rest, long, small =>
          simp only [List.all_cons, Bool.and_eq_true] at small
          obtain ⟨sixteens, highSmall, highDigit, highChar⟩ := hexChar_hexDigit small.1
          obtain ⟨ones, lowSmall, lowDigit, lowChar⟩ := hexChar_hexDigit small.2.1
          have rests : hex (fromHex rest) = rest :=
            ih (by simpa [Nat.mul_succ] using long) small.2.2
          have byte : (UInt8.ofNat (16 * sixteens + ones)).toNat = 16 * sixteens + ones := by
            rw [BigEndian.toNat_ofNat]
            omega
          have upper : (16 * sixteens + ones) / 16 = sixteens := by omega
          have lower : (16 * sixteens + ones) % 16 = ones := by omega
          have bytes : fromHex (high :: low :: rest)
              = UInt8.ofNat (16 * sixteens + ones) :: fromHex rest := by
            simp [fromHex, AuthorizationSigner.hexBytes, highDigit, lowDigit]
          rw [bytes, Cixtech.Tron.TxVerify.hex_cons, byte, upper, lower, highChar, lowChar, rests]

theorem normalizeHexAddress_eq (address : String)
    : normalizeHexAddress address
      = let clean := withoutHexPrefix (lowerCase address)
        if clean.length = 40 ∧ clean.all isHexDigit then .ok (String.ofList clean)
        else .error (.plain s!"not a 20-byte hex address: {address}") :=
  rfl

/-- The digits of an address are forty small hexadecimal ones. -/
theorem normalizeHexAddress_digits {address digits : String}
    (normal : normalizeHexAddress address = .ok digits)
    : digits.toList.length = 40 ∧ digits.toList.all isHexDigit = true := by
  rw [normalizeHexAddress_eq] at normal
  dsimp only at normal
  split at normal
  case isFalse => cases normal
  case isTrue wellFormed =>
    obtain rfl := Except.ok.inj normal
    rw [String.toList_ofList]
    exact wellFormed

theorem addressBytes_ok {address : String} {b : Bytes} (found : addressBytes address = .ok b)
    : ∃ digits, normalizeHexAddress address = .ok digits ∧ hex b = digits.toList := by
  unfold addressBytes at found
  cases normal : normalizeHexAddress address with
  | error err =>
      rw [normal] at found
      cases found
  | ok digits =>
      rw [normal] at found
      obtain rfl := Except.ok.inj found
      obtain ⟨long, small⟩ := normalizeHexAddress_digits normal
      exact ⟨digits, rfl, hex_fromHex 20 long small⟩

/-- Texts have the same bytes exactly where they spell one address. -/
theorem sameAddress_of_addressBytes {first second : String} {b : Bytes}
    (found : addressBytes first = .ok b) (again : addressBytes second = .ok b)
    : SameAddress first second := by
  obtain ⟨digits, normal, spelled⟩ := addressBytes_ok found
  obtain ⟨others, normalAgain, spelledAgain⟩ := addressBytes_ok again
  obtain rfl : digits = others := String.toList_inj.mp (spelled.symm.trans spelledAgain)
  exact ⟨digits, normal, normalAgain⟩

-----------------------------------------------------------------------------
-- What the bytes determine

theorem fields_ok {tx : Eip1559Tx} {inputs : List RlpInput} (found : fields tx = .ok inputs)
    : ∃ address, addressBytes tx.toAddress = .ok address
      ∧ inputs
        = [ .bigint tx.chainId, .bigint tx.nonce, .bigint tx.maxPriorityFeePerGas,
          .bigint tx.maxFeePerGas, .bigint tx.gasLimit, .bytes address, .bigint tx.value,
          .bytes tx.data, .list [] ] := by
  unfold fields at found
  cases address : addressBytes tx.toAddress with
  | error err =>
      rw [address] at found
      cases found
  | ok b =>
      rw [address] at found
      exact ⟨b, rfl, (Except.ok.inj found).symm⟩

theorem toBigInt_eq (b : Bytes) : toBigInt b = BigEndian.value b := by
  unfold toBigInt
  dsimp only
  split
  case isTrue empty =>
    obtain rfl : b = [] := Cixtech.Tron.TxVerify.hex_inj.mp empty
    rfl
  case isFalse => rw [Cixtech.Tron.TxVerify.hexNumber_hex]; rfl

/-- Integers that are not negative are equal where their least bytes are. -/
theorem eq_of_minimal {n other : Int} (sign : 0 ≤ n) (otherSign : 0 ≤ other)
    (same : BigEndian.minimal n.toNat = BigEndian.minimal other.toNat)
    : n = other := by
  have numbers := BigEndian.minimal_inj.mp same
  omega

theorem nonNegative_fields {tx : Eip1559Tx} {inputs more : List RlpInput}
    (signs : tx.NonNegative) (found : fields tx = .ok inputs)
    (others : RlpInput.AllNonNegative more)
    : (RlpInput.list (inputs ++ more)).NonNegative := by
  obtain ⟨address, -, rfl⟩ := fields_ok found
  simp only [Eip1559Tx.NonNegative, List.forall_mem_cons] at signs
  obtain ⟨chainId, nonce, priority, maxFee, gasLimit, value, -⟩ := signs
  simp only [RlpInput.NonNegative, List.cons_append, List.nil_append, RlpInput.AllNonNegative]
  exact ⟨chainId, nonce, priority, maxFee, gasLimit, trivial, value, trivial, trivial, others⟩

/-- Fields of the same items are those of the same transaction, and so is what follows them. -/
theorem same_of_items {tx other : Eip1559Tx} {inputs otherInputs more otherMore : List RlpInput}
    (signs : tx.NonNegative) (otherSigns : other.NonNegative) (found : fields tx = .ok inputs)
    (otherFound : fields other = .ok otherInputs)
    (same : RlpInput.items (inputs ++ more) = RlpInput.items (otherInputs ++ otherMore))
    : tx.Same other ∧ RlpInput.items more = RlpInput.items otherMore := by
  obtain ⟨address, spelled, rfl⟩ := fields_ok found
  obtain ⟨otherAddress, otherSpelled, rfl⟩ := fields_ok otherFound
  simp only [Eip1559Tx.NonNegative, List.forall_mem_cons] at signs otherSigns
  simp only [List.cons_append, List.nil_append, RlpInput.items, RlpInput.item, List.cons.injEq,
    Rlp.Item.bytes.injEq] at same
  obtain ⟨chainId, nonce, priority, maxFee, gasLimit, bytes, value, data, -, rest⟩ := same
  refine ⟨⟨?_, ?_⟩, rest⟩
  · rw [← bytes] at otherSpelled
    exact sameAddress_of_addressBytes spelled otherSpelled
  · obtain ⟨_, _, _, _, _, _, _, _⟩ := tx
    obtain ⟨_, _, _, _, _, _, _, _⟩ := other
    simp only [Eip1559Tx.mk.injEq, true_and]
    exact ⟨eq_of_minimal signs.1 otherSigns.1 chainId,
      eq_of_minimal signs.2.1 otherSigns.2.1 nonce,
      eq_of_minimal signs.2.2.1 otherSigns.2.2.1 priority,
      eq_of_minimal signs.2.2.2.1 otherSigns.2.2.2.1 maxFee,
      eq_of_minimal signs.2.2.2.2.1 otherSigns.2.2.2.2.1 gasLimit,
      eq_of_minimal signs.2.2.2.2.2.1 otherSigns.2.2.2.2.2.1 value, data⟩

/-- The signature is determined by the numbers that are sent for it. -/
theorem signature_of_items {signature other : Bytes} (long : signature.length = 65)
    (otherLong : other.length = 65)
    (same
      : RlpInput.items (signatureFields signature) = RlpInput.items (signatureFields other))
    : signature = other := by
  simp only [signatureFields, RlpInput.items, RlpInput.item, toBigInt_eq, Int.toNat_natCast,
    List.cons.injEq, Rlp.Item.bytes.injEq, BigEndian.minimal_inj, and_true] at same
  obtain ⟨yParity, r, s⟩ := same
  have split : ∀ b : Bytes, b.length = 65 →
      b = b.take 32 ++ ((b.drop 32).take 32 ++ [b.getD 64 0]) := by
    intro b whole
    have last : (b.drop 32).drop 32 = [b.getD 64 0] := by
      rw [List.drop_drop, List.drop_eq_getElem_cons (by omega), List.drop_of_length_le (by omega),
        List.getD_eq_getElem?_getD, List.getElem?_eq_getElem (by omega), Option.getD_some]
    rw [← last, List.take_append_drop, List.take_append_drop]
  have first : signature.take 32 = other.take 32 :=
    Cixtech.Tron.TxVerify.bigEndian_inj (by simp [long, otherLong]) r
  have second : (signature.drop 32).take 32 = (other.drop 32).take 32 :=
    Cixtech.Tron.TxVerify.bigEndian_inj (by simp [long, otherLong]) s
  rw [split signature long, split other otherLong, first, second, UInt8.toNat_inj.mp yParity]

theorem nonNegative_signatureFields (signature : Bytes)
    : RlpInput.AllNonNegative (signatureFields signature) := by
  simp only [signatureFields, RlpInput.AllNonNegative, RlpInput.NonNegative, toBigInt_eq]
  exact ⟨Int.natCast_nonneg _, Int.natCast_nonneg _, Int.natCast_nonneg _, trivial⟩

/-- Encodings of the fields and of what follows them, behind the type of the transaction. -/
theorem same_of_encoded {tx other : Eip1559Tx} {inputs otherInputs more otherMore : List RlpInput}
    (signs : tx.NonNegative) (otherSigns : other.NonNegative) (found : fields tx = .ok inputs)
    (otherFound : fields other = .ok otherInputs) (moreSigns : RlpInput.AllNonNegative more)
    (otherMoreSigns : RlpInput.AllNonNegative otherMore) (fits : tx.Fits more)
    (otherFits : other.Fits otherMore)
    (same
      : rlpEncode (.list (inputs ++ more)) = rlpEncode (.list (otherInputs ++ otherMore)))
    : tx.Same other ∧ RlpInput.items more = RlpInput.items otherMore := by
  have items := (rlpEncode_inj (nonNegative_fields signs found moreSigns)
    (nonNegative_fields otherSigns otherFound otherMoreSigns) (fits inputs found)
    (otherFits otherInputs otherFound)).mp same
  simp only [RlpInput.item, Rlp.Item.list.injEq] at items
  exact same_of_items signs otherSigns found otherFound items

theorem signingPreimage_ok {tx : Eip1559Tx} {preimage : Bytes}
    (signed : signingPreimage tx = .ok preimage)
    : ∃ inputs encoded, fields tx = .ok inputs ∧ rlpEncode (.list inputs) = .ok encoded
      ∧ preimage = txType :: encoded := by
  unfold signingPreimage at signed
  simp only [bind, Except.bind, pure, Except.pure] at signed
  cases found : fields tx with
  | error err => simp [found] at signed
  | ok inputs =>
      cases written : rlpEncode (.list inputs) with
      | error err => simp [found, written] at signed
      | ok encoded =>
          simp only [found, written, Except.ok.injEq] at signed
          exact ⟨inputs, encoded, rfl, written, signed.symm⟩

theorem serializeSigned_ok {keccak256 : Bytes → Bytes} {tx : Eip1559Tx} {signature : Bytes}
    {signed : SignedTx} (sent : serializeSigned keccak256 tx signature = .ok signed)
    : signature.length = 65
      ∧ ∃ inputs encoded, fields tx = .ok inputs
        ∧ rlpEncode (.list (inputs ++ signatureFields signature)) = .ok encoded
        ∧ signed.raw = '0' :: 'x' :: hex (txType :: encoded) := by
  unfold serializeSigned at sent
  simp only [bind, Except.bind, pure, Except.pure, throw, throwThe, MonadExceptOf.throw] at sent
  split at sent
  case isTrue => cases sent
  case isFalse long =>
    cases found : fields tx with
    | error err => simp [found] at sent
    | ok inputs =>
        cases written : rlpEncode (.list (inputs ++ signatureFields signature)) with
        | error err => simp [found, written] at sent
        | ok encoded =>
            simp only [found, written, Except.ok.injEq] at sent
            exact ⟨not_not.mp long, inputs, encoded, rfl, written, by rw [← sent]⟩

/-- What is signed determines every field. -/
theorem same_of_signingPreimage {tx other : Eip1559Tx} {preimage : Bytes}
    (signs : tx.NonNegative) (otherSigns : other.NonNegative) (fits : tx.Fits [])
    (otherFits : other.Fits []) (signed : signingPreimage tx = .ok preimage)
    (otherSigned : signingPreimage other = .ok preimage)
    : tx.Same other := by
  obtain ⟨inputs, encoded, found, written, rfl⟩ := signingPreimage_ok signed
  obtain ⟨otherInputs, otherEncoded, otherFound, otherWritten, same⟩ :=
    signingPreimage_ok otherSigned
  obtain rfl : encoded = otherEncoded := (List.cons.inj same).2
  have whole : rlpEncode (.list (inputs ++ [])) = rlpEncode (.list (otherInputs ++ [])) := by
    rw [List.append_nil, List.append_nil, written, otherWritten]
  exact (same_of_encoded signs otherSigns found otherFound RlpInput.allNonNegative_nil
    RlpInput.allNonNegative_nil fits otherFits whole).1

/-- What is short enough when it is signed has a payload that is. -/
theorem fits_of_signingPreimage {tx : Eip1559Tx} {preimage : Bytes} (signs : tx.NonNegative)
    (signed : signingPreimage tx = .ok preimage) (short : preimage.length < 2 ^ 64)
    : tx.Fits [] := by
  obtain ⟨inputs, encoded, found, written, rfl⟩ := signingPreimage_ok signed
  intro others again
  obtain rfl := Except.ok.inj (found.symm.trans again)
  have plain := nonNegative_fields signs found RlpInput.allNonNegative_nil
  rw [List.append_nil] at plain ⊢
  rw [rlpEncode_eq _ plain] at written
  have payload := (Rlp.length_encode (RlpInput.list inputs).item).2
  rw [Except.ok.inj written] at payload
  rw [List.length_cons] at short
  omega

/-- What is sent determines every field and the signature. -/
theorem same_of_serializeSigned {keccak256 : Bytes → Bytes} {tx other : Eip1559Tx}
    {signature otherSignature : Bytes} {signed otherSigned : SignedTx}
    (signs : tx.NonNegative) (otherSigns : other.NonNegative)
    (fits : tx.Fits (signatureFields signature))
    (otherFits : other.Fits (signatureFields otherSignature))
    (sent : serializeSigned keccak256 tx signature = .ok signed)
    (otherSent : serializeSigned keccak256 other otherSignature = .ok otherSigned)
    (same : signed.raw = otherSigned.raw)
    : tx.Same other ∧ signature = otherSignature := by
  obtain ⟨long, inputs, encoded, found, written, raw⟩ := serializeSigned_ok sent
  obtain ⟨otherLong, otherInputs, otherEncoded, otherFound, otherWritten, otherRaw⟩ :=
    serializeSigned_ok otherSent
  rw [raw, otherRaw, List.cons.injEq, List.cons.injEq, Cixtech.Tron.TxVerify.hex_inj] at same
  obtain rfl : encoded = otherEncoded := (List.cons.inj same.2.2).2
  obtain ⟨alike, items⟩ := same_of_encoded signs otherSigns found otherFound
    (nonNegative_signatureFields signature) (nonNegative_signatureFields otherSignature) fits
    otherFits (written.trans otherWritten.symm)
  exact ⟨alike, signature_of_items long otherLong items⟩

/-- Every input without a negative integer is written so that it is read back as it, each integer
as its least bytes, and inputs are written alike exactly where they are read alike. So what is
signed for a transfer determines its fields, of the address the twenty bytes that it spells, and
what is sent determines the signature as well.
-/
theorem encodings_determine
    : (∀ input : RlpInput,
        input.NonNegative
        → input.item.payload.length < 2 ^ 64
        → ∃ encoded, rlpEncode input = .ok encoded ∧ Rlp.decode encoded = some (input.item, []))
      ∧ (∀ input other : RlpInput,
          input.NonNegative
          → other.NonNegative
          → input.item.payload.length < 2 ^ 64
          → other.item.payload.length < 2 ^ 64
          → (rlpEncode input = rlpEncode other ↔ input.item = other.item))
      ∧ (∀ (tx other : Eip1559Tx) (preimage : Bytes),
          tx.NonNegative
          → other.NonNegative
          → tx.Fits []
          → other.Fits []
          → signingPreimage tx = .ok preimage
          → signingPreimage other = .ok preimage
          → tx.Same other)
      ∧ ∀ (keccak256 : Bytes → Bytes) (tx other : Eip1559Tx) (signature otherSignature : Bytes)
          (signed otherSigned : SignedTx),
          tx.NonNegative
          → other.NonNegative
          → tx.Fits (signatureFields signature)
          → other.Fits (signatureFields otherSignature)
          → serializeSigned keccak256 tx signature = .ok signed
          → serializeSigned keccak256 other otherSignature = .ok otherSigned
          → signed.raw = otherSigned.raw
          → tx.Same other ∧ signature = otherSignature :=
  ⟨fun _ => decode_rlpEncode, fun _ _ => rlpEncode_inj, fun _ _ _ => same_of_signingPreimage,
    fun _ _ _ _ _ _ _ => same_of_serializeSigned⟩

-----------------------------------------------------------------------------
-- A transaction and its spellings

def sampleTx : Eip1559Tx where
  chainId := 137
  nonce := 3
  maxPriorityFeePerGas := 30000000000
  maxFeePerGas := 100000000000
  gasLimit := 21000
  toAddress := "0xfB6916095ca1df60bB79Ce92cE3Ea74c37c5d359"
  value := 1000000000000000000
  data := []

/-- The same address without its prefix. -/
def sampleTxUnprefixed : Eip1559Tx :=
  { sampleTx with toAddress := "fB6916095ca1df60bB79Ce92cE3Ea74c37c5d359" }

/-- What is signed for either. -/
def samplePreimage : Bytes :=
  [ 0x02, 0xf2, 0x81, 0x89, 0x03, 0x85, 0x06, 0xfc, 0x23, 0xac, 0x00, 0x85, 0x17, 0x48, 0x76,
    0xe8, 0x00, 0x82, 0x52, 0x08, 0x94, 0xfb, 0x69, 0x16, 0x09, 0x5c, 0xa1, 0xdf, 0x60, 0xbb,
    0x79, 0xce, 0x92, 0xce, 0x3e, 0xa7, 0x4c, 0x37, 0xc5, 0xd3, 0x59, 0x88, 0x0d, 0xe0, 0xb6,
    0xb3, 0xa7, 0x64, 0x00, 0x00, 0x80, 0xc0 ]

theorem signingPreimage_sample
    : signingPreimage sampleTx = .ok samplePreimage
      ∧ signingPreimage sampleTxUnprefixed = .ok samplePreimage := by
  decide +kernel

/-- What is signed does not determine whether the address has a prefix, which is more than the
case of its letters.
-/
theorem prefix_not_determined
    : ¬ ∀ (tx other : Eip1559Tx) (preimage : Bytes),
          tx.NonNegative
          → other.NonNegative
          → tx.Fits []
          → other.Fits []
          → signingPreimage tx = .ok preimage
          → signingPreimage other = .ok preimage
          → lowerCase tx.toAddress = lowerCase other.toAddress
            ∧ { tx with toAddress := other.toAddress } = other := by
  intro determined
  obtain ⟨signed, unprefixed⟩ := signingPreimage_sample
  have signs : sampleTx.NonNegative := by decide
  have otherSigns : sampleTxUnprefixed.NonNegative := by decide
  have spelled := (determined sampleTx sampleTxUnprefixed samplePreimage signs otherSigns
    (fits_of_signingPreimage signs signed (by decide))
    (fits_of_signingPreimage otherSigns unprefixed (by decide)) signed unprefixed).1
  revert spelled
  decide +kernel

/-- A transfer of another nonce is not signed by what the sample is. -/
theorem encodings_determine_nonce
    : signingPreimage { sampleTx with nonce := 4 } ≠ .ok samplePreimage := by
  intro signed
  have sample := signingPreimage_sample.1
  have signs : sampleTx.NonNegative := by decide
  have otherSigns : ({ sampleTx with nonce := 4 } : Eip1559Tx).NonNegative := by decide
  have same := encodings_determine.2.2.1 sampleTx { sampleTx with nonce := 4 } samplePreimage signs
    otherSigns (fits_of_signingPreimage signs sample (by decide))
    (fits_of_signingPreimage otherSigns signed (by decide)) sample signed
  have nonce := congrArg Eip1559Tx.nonce same.2
  revert nonce
  decide

end Cixtech.Evm
