import Cixtech.Foundation.Protobuf
import Cixtech.Payout.Authorization

/-! The check of a transaction that a node built, before it is signed: its body is decoded by
a small reader of the wire format and compared with the transfer that was authorized.
-/

namespace Cixtech.Tron

open Cixtech.Common Cixtech.Foundation.Protobuf Cixtech.Payout

/-- `new TronTxMismatchError(message, { context })`. -/
def txMismatch (message : String) (context : List (String × ContextValue)) : AppError :=
  { code := .tronTxMismatch, message, context }

namespace TxVerify

def contractTypeTransfer : Nat := 1

def contractTypeTriggerSmartContract : Nat := 31

def transferSelector : String := "a9059cbb"

/-- A field as the reader records it. -/
structure Field where
  no : Nat
  wire : Nat
  bytes : Option Bytes
  value : Option Nat
  deriving DecidableEq, Repr

/-- The loop over the bytes of a varint. -/
def varint : Nat → Nat → Bytes → Except AppError (Nat × Bytes)
  | _, _, [] => .error (txMismatch "Truncated protobuf varint" [])
  | shift, result, b :: rest =>
      let result := result ||| (b.toNat % 128) <<< shift
      if b.toNat < 128 then .ok (result, rest)
      else if shift + 7 > 70 then .error (txMismatch "Overlong protobuf varint" [])
      else varint (shift + 7) result rest

/-- The loop over the fields of a message. A field takes a byte at least, so the length of the
message is fuel enough; a fixed-width field may end behind the message.
-/
def readFieldsFrom : Nat → Bytes → Except AppError (List Field)
  | _, [] => .ok []
  | 0, _ :: _ => .ok []
  | fuel + 1, byte :: others => do
      let (key, rest) ← varint 0 0 (byte :: others)
      let no := key / 8
      let wire := key % 8
      if wire = 0 then
        let (value, later) ← varint 0 0 rest
        return { no, wire, bytes := none, value := some value } :: (← readFieldsFrom fuel later)
      else if wire = 2 then
        let (length, later) ← varint 0 0 rest
        if later.length < length then
          .error (txMismatch "Truncated protobuf length-delimited field" [])
        else
          return { no, wire, bytes := some (later.take length), value := none }
            :: (← readFieldsFrom fuel (later.drop length))
      else if wire = 5 then
        return { no, wire, bytes := none, value := none } :: (← readFieldsFrom fuel (rest.drop 4))
      else if wire = 1 then
        return { no, wire, bytes := none, value := none } :: (← readFieldsFrom fuel (rest.drop 8))
      else .error (txMismatch s!"Unsupported protobuf wire type {wire}" [])

def readFields (buf : Bytes) : Except AppError (List Field) := readFieldsFrom buf.length buf

/-- A varint takes a byte at least, by induction on the bytes. -/
theorem varint_shortens {shift result value : Nat} {buf rest : Bytes}
    (read : varint shift result buf = .ok (value, rest))
    : rest.length < buf.length := by
  induction buf generalizing shift result with
  | nil => cases read
  | cons b later ih =>
      unfold varint at read
      dsimp only at read
      split at read
      · cases read
        exact Nat.lt_succ_self _
      · split at read
        · cases read
        · exact Nat.lt_succ_of_lt (ih read)

/-- The length of a message is fuel enough: more of it changes nothing, by induction on the
fuel.
-/
theorem readFieldsFrom_of_enough {fuel more : Nat} {buf : Bytes} (enough : buf.length ≤ fuel)
    (plenty : buf.length ≤ more)
    : readFieldsFrom fuel buf = readFieldsFrom more buf := by
  induction fuel generalizing more buf with
  | zero =>
      obtain rfl := List.length_eq_zero_iff.mp (Nat.le_zero.mp enough)
      simp [readFieldsFrom]
  | succ fuel ih =>
      cases buf with
      | nil => simp [readFieldsFrom]
      | cons byte others =>
          cases more with
          | zero => cases plenty
          | succ more =>
              simp only [List.length_cons, Nat.add_le_add_iff_right] at enough plenty
              cases key : varint 0 0 (byte :: others) with
              | error err => simp only [readFieldsFrom, key, bind, Except.bind]
              | ok found =>
                  obtain ⟨tag, rest⟩ := found
                  have shorter := varint_shortens key
                  rw [List.length_cons] at shorter
                  have tail : ∀ later : Bytes, later.length ≤ rest.length →
                      readFieldsFrom fuel later = readFieldsFrom more later :=
                    fun later short => ih (by omega) (by omega)
                  simp only [readFieldsFrom, key, bind, Except.bind]
                  rw [tail (rest.drop 4) (by simp), tail (rest.drop 8) (by simp)]
                  cases number : varint 0 0 rest with
                  | error err => rfl
                  | ok payload =>
                      obtain ⟨value, later⟩ := payload
                      have short := varint_shortens number
                      simp only
                      rw [tail later (by omega), tail (later.drop value) (by simp; omega)]

/-- The first field of a number. -/
def field (fields : List Field) (no : Nat) : Option Field := fields.find? fun f => f.no = no

/-- `field(fields, no)?.bytes ?? new Uint8Array(0)`. -/
def bytesOf (fields : List Field) (no : Nat) : Bytes := ((field fields no).bind Field.bytes).getD []

/-- `field(fields, no)?.value ?? 0n`. -/
def valueOf (fields : List Field) (no : Nat) : Nat := ((field fields no).bind Field.value).getD 0

/-- A digit below sixteen. -/
def hexChar (digit : Nat) : Char :=
  if digit < 10 then Char.ofNat (48 + digit) else Char.ofNat (87 + digit)

/-- `Buffer.from(b).toString("hex")`. -/
def hex (b : Bytes) : List Char :=
  b.flatMap fun byte => [hexChar (byte.toNat / 16), hexChar (byte.toNat % 16)]

structure DecodedTransfer where
  type : Nat
  ownerHex : List Char
  toHex : List Char
  amount : Nat
  contractHex : Option (List Char)
  deriving DecidableEq, Repr

def decodeTransferContract (value : Bytes) : Except AppError DecodedTransfer := do
  let f ← readFields value
  .ok
    { type := contractTypeTransfer, ownerHex := hex (bytesOf f 1), toHex := hex (bytesOf f 2)
      amount := valueOf f 3, contractHex := none }

/-- `BigInt("0x" + digits)`, for a text of hexadecimal digits. -/
def hexNumber (digits : List Char) : Nat :=
  digits.foldl (fun number digit => 16 * number + (AuthorizationSigner.hexDigit digit).getD 0) 0

/-- Whether the text matches `/^[0-9a-f]*$/`. -/
def isLowerHex (text : List Char) : Bool :=
  text.all fun digit => digit.isDigit || ('a' ≤ digit && digit ≤ 'f')

/-- Whether the text matches `/^0{24}[0-9a-f]{40}$/`. -/
def isRecipientWord (word : List Char) : Bool :=
  word.take 24 = List.replicate 24 '0' && (word.drop 24).length = 40 && isLowerHex (word.drop 24)

def decodeTriggerSmartContract (value : Bytes) : Except AppError DecodedTransfer := do
  let f ← readFields value
  let data := hex (bytesOf f 4)
  let callValue := valueOf f 3
  if data.length ≠ 136 ∨ data.take 8 ≠ transferSelector.toList then
    throw
      (txMismatch
        "Node returned a contract call that is not a plain TRC20 transfer(address,uint256)"
        [ ("selector", .text (String.ofList (data.take 8))),
          ("calldataBytes", .number (data.length / 2)) ])
  if callValue ≠ 0 then
    throw
      (txMismatch "Node returned a TRC20 transfer carrying non-zero call_value"
        [("callValue", .text (toString callValue))])
  let addrWord := (data.drop 8).take 64
  if !isRecipientWord addrWord then
    throw (txMismatch "TRC20 recipient word is not a right-aligned 20-byte address" [])
  .ok
    { type := contractTypeTriggerSmartContract, ownerHex := hex (bytesOf f 1)
      toHex := '4' :: '1' :: addrWord.drop 24, amount := hexNumber (data.drop 72)
      contractHex := some (hex (bytesOf f 2)) }

/-- Decode the bytes of a body. -/
def decodeRawData (raw : Bytes) : Except AppError DecodedTransfer := do
  let fields ← readFields raw
  match fields.filterMap fun f => if f.no = 11 then f.bytes else none with
  | [contract] =>
      let c ← readFields contract
      let type := valueOf c 1
      let anyFields ← readFields (bytesOf c 2)
      match (field anyFields 2).bind Field.bytes with
      | none => throw (txMismatch "Contract parameter carries no value" [])
      | some value =>
          if type = contractTypeTransfer then decodeTransferContract value
          else if type = contractTypeTriggerSmartContract then decodeTriggerSmartContract value
          else
            throw
              (txMismatch s!"Refusing to sign Tron contract type {type}"
                [("type", .number type)])
  | contracts =>
      throw
        (txMismatch
          s!"A payout transaction must carry exactly one contract, got {contracts.length}"
          [("contracts", .number contracts.length)])

/-- `text.replace(/^0x/, "")`. -/
def withoutHexPrefix : List Char → List Char
  | '0' :: 'x' :: rest => rest
  | text => text

/-- `Buffer.from(text, "hex")`. -/
def fromHex (text : List Char) : Bytes := (AuthorizationSigner.hexBytes text).map UInt8.ofNat

def decodeTronRawData (rawDataHex : List Char) : Except AppError DecodedTransfer :=
  let clean := withoutHexPrefix rawDataHex
  if clean = [] ∨ (clean.all fun digit => (AuthorizationSigner.hexDigit digit).isSome) = false
      ∨ clean.length % 2 ≠ 0 then
    .error (txMismatch "Node returned no usable raw_data_hex to verify" [])
  else decodeRawData (fromHex clean)

structure NodeTransaction where
  txID : Option String
  rawDataHex : Option String

structure TronTransferIntent where
  ownerHex : String
  toHex : String
  amountBaseUnits : Int
  contractHex : Option String

/-- `String.prototype.toLowerCase`, of which it is used that it keeps what is hexadecimal in
small letters, and SHA-256.
-/
structure TxHashing where
  toLowerCase : List Char → List Char
  toLowerCase_of_lowerHex : ∀ text, isLowerHex text = true → toLowerCase text = text
  sha256 : Bytes → Bytes

def mismatch (what : String) (expected actual : List Char) : AppError :=
  txMismatch s!"Node built a transaction with a different {what} than the payout authorized"
    [ ("what", .text what), ("expected", .text (String.ofList expected)),
      ("actual", .text (String.ofList actual)) ]

/-- `text.replace(/^0x/, "").toLowerCase()`. -/
def normalized (hashing : TxHashing) (text : String) : List Char :=
  hashing.toLowerCase (withoutHexPrefix text.toList)

/-- Compare what a body decodes to with what was authorized. -/
def matchIntent (hashing : TxHashing) (intent : TronTransferIntent) (got : DecodedTransfer)
    : Except AppError Unit := do
  let ownerHex := normalized hashing intent.ownerHex
  let toHex := normalized hashing intent.toHex
  if got.ownerHex ≠ ownerHex then throw (mismatch "from-address" ownerHex got.ownerHex)
  if got.toHex ≠ toHex then throw (mismatch "destination" toHex got.toHex)
  if (got.amount : Int) ≠ intent.amountBaseUnits then
    throw
      (mismatch "amount" (toString intent.amountBaseUnits).toList (toString got.amount).toList)
  match intent.contractHex.map (normalized hashing) with
  | none =>
      if got.type ≠ contractTypeTransfer then
        throw
          (mismatch "contract type" "native TRX transfer".toList (toString got.type).toList)
  | some contractHex =>
      if got.contractHex ≠ some contractHex then
        throw (mismatch "token contract" contractHex (got.contractHex.getD []))

def verifiedTronSigningHash (hashing : TxHashing) (tx : NodeTransaction)
    (intent : TronTransferIntent)
    : Except AppError Bytes := do
  let rawHex := normalized hashing (tx.rawDataHex.getD "")
  let txId := normalized hashing (tx.txID.getD "")
  if txId = [] then throw (txMismatch "Node returned no txID" [])
  let digest := hashing.sha256 (fromHex rawHex)
  let digestHex := hex digest
  if rawHex = [] ∨ digestHex ≠ txId then
    throw
      (txMismatch "Tron txID is not the hash of the transaction body the node returned"
        [("txId", .text (String.ofList txId)), ("derived", .text (String.ofList digestHex))])
  let got ← decodeTronRawData rawHex
  matchIntent hashing intent got
  return digest

end TxVerify

end Cixtech.Tron
