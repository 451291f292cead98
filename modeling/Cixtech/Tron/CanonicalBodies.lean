import Cixtech.Foundation.BigEndian
import Cixtech.Foundation.ProtobufWriting
import Cixtech.Tron.PlainBodies

/-! Bodies as a node writes them: each field once and in order. The reader of the check finds
the fields that were written, and the check accepts the body of the transfer that was
authorized and of no other.
-/

namespace Cixtech.Tron.TxVerify

open Cixtech.Common Cixtech.Foundation Cixtech.Foundation.Protobuf Cixtech.Payout

-----------------------------------------------------------------------------
-- Reading what was written

/-- A field as the reader records it. -/
def Field.ofWire (written : WireField) : Field :=
  { no := written.number, wire := written.content.wire
    bytes :=
      match written.content with
      | .bytes content => some content
      | _ => none
    value :=
      match written.content with
      | .varint value => some value
      | _ => none }

/-- A message is read as the fields that it was written from, by induction on them. -/
theorem readFieldsFrom_of_encodes {fields : List WireField} {buf : Bytes}
    (written : Encodes fields buf) {fuel : Nat} (enough : buf.length ≤ fuel)
    : readFieldsFrom fuel buf = .ok (fields.map Field.ofWire) := by
  induction written generalizing fuel with
  | nil => cases fuel <;> rfl
  | @cons field fields tag content rest fits tagged held later ih =>
      have key := varint_whole (tagged.read (content ++ rest))
      obtain ⟨byte, others, whole⟩ := List.exists_cons_of_ne_nil
        (List.append_ne_nil_of_left_ne_nil tagged.ne_nil (content ++ rest))
      have tagLength : 0 < tag.length := List.length_pos_iff.mpr tagged.ne_nil
      simp only [List.length_append] at enough
      cases fuel with
      | zero => omega
      | succ fuel =>
          have tail : readFieldsFrom fuel rest = .ok (fields.map Field.ofWire) := ih (by omega)
          rw [whole] at key ⊢
          simp only [readFieldsFrom, key, bind, Except.bind, field.tag_div, field.tag_mod]
          obtain ⟨number, kept⟩ := field
          cases held with
          | @varint value digits written =>
              simp [Content.wire, varint_whole (written.read rest), tail, Field.ofWire, pure,
                Except.pure]
          | fixed64 =>
              have width : content.length = 8 := fits.2.2
              have behind : (content ++ rest).drop 8 = rest := by simp [← width]
              simp [Content.wire, behind, tail, Field.ofWire, pure, Except.pure]
          | @bytes content size written =>
              have size := varint_whole (written.read (content ++ rest))
              simp [Content.wire, List.append_assoc, size, tail, Field.ofWire, pure, Except.pure]
          | fixed32 =>
              have width : content.length = 4 := fits.2.2
              have behind : (content ++ rest).drop 4 = rest := by simp [← width]
              simp [Content.wire, behind, tail, Field.ofWire, pure, Except.pure]

theorem readFields_of_encodes {fields : List WireField} {buf : Bytes}
    (written : Encodes fields buf)
    : readFields buf = .ok (fields.map Field.ofWire) :=
  readFieldsFrom_of_encodes written le_rfl

-----------------------------------------------------------------------------
-- The body of a transfer

/-- The contract of a token and the native amount that goes with the call. -/
structure TokenContract where
  address : Bytes
  callValue : Nat
  deriving DecidableEq, Repr

/-- A transfer to the TRON address of an account, native or of a token. -/
structure TronTransfer where
  owner : Bytes
  account : Bytes
  amount : Nat
  token : Option TokenContract
  owner_length : owner.length = 21
  account_length : account.length = 20
  address_length : ∀ contract ∈ token, contract.address.length = 21
  callValue_lt : ∀ contract ∈ token, contract.callValue < 2 ^ 63
  amount_lt : amount < if token.isSome then 2 ^ 256 else 2 ^ 63

/-- The fields of a transaction beside its contracts, of which any may be present. -/
structure Envelope where
  refBlockBytes : Option Bytes
  refBlockNum : Option Nat
  refBlockHash : Option Bytes
  expiration : Option Nat
  timestamp : Option Nat
  feeLimit : Option Nat
  texts_fit : ∀ text ∈ [refBlockBytes, refBlockHash], ∀ bytes ∈ text, bytes.length < 2 ^ 31
  numbers_fit
    : ∀ number ∈ [refBlockNum, expiration, timestamp, feeLimit], ∀ value ∈ number, value < 2 ^ 64

def bytesField (number : Nat) (content : Bytes) : WireField := { number, content := .bytes content }

def varintField (number value : Nat) : WireField := { number, content := .varint value }

/-- A number that is zero is not written. -/
def numberField (number value : Nat) : List WireField :=
  if value = 0 then [] else [varintField number value]

namespace TronTransfer

variable (transfer : TronTransfer)

/-- The 21 bytes of a TRON address. -/
def recipient : Bytes := 0x41 :: transfer.account

/-- The call data of `transfer(address,uint256)`. -/
def callData : Bytes :=
  [0xa9, 0x05, 0x9c, 0xbb] ++ List.replicate 12 0 ++ transfer.account
  ++ BigEndian.fixed 32 transfer.amount

def type : Nat :=
  match transfer.token with
  | none => contractTypeTransfer
  | some _ => contractTypeTriggerSmartContract

/-- The fields of `TransferContract` or of `TriggerSmartContract`. -/
def message : List WireField :=
  match transfer.token with
  | none =>
      [bytesField 1 transfer.owner, bytesField 2 transfer.recipient]
      ++ numberField 3 transfer.amount
  | some contract =>
      [bytesField 1 transfer.owner, bytesField 2 contract.address]
      ++ numberField 3 contract.callValue
      ++ [bytesField 4 transfer.callData]

def typeUrl : Bytes :=
  let name :=
    match transfer.token with
    | none => "type.googleapis.com/protocol.TransferContract"
    | some _ => "type.googleapis.com/protocol.TriggerSmartContract"
  name.toList.map fun letter => UInt8.ofNat letter.toNat

/-- The contract's parameter, a message of any type. -/
def parameter : List WireField :=
  [bytesField 1 transfer.typeUrl, bytesField 2 (write transfer.message)]

/-- The fields of a contract. -/
def contract : List WireField :=
  [varintField 1 transfer.type, bytesField 2 (write transfer.parameter)]

/-- What the check makes of the contract. -/
def decoded : DecodedTransfer :=
  { type := transfer.type, ownerHex := hex transfer.owner, toHex := hex transfer.recipient
    amount := transfer.amount
    contractHex := transfer.token.map fun contract => hex contract.address }

/-- The transfer as it is authorized, which says nothing of a call value. -/
def intent : TronTransferIntent :=
  { ownerHex := String.ofList (hex transfer.owner)
    toHex := String.ofList (hex transfer.recipient), amountBaseUnits := transfer.amount
    contractHex := transfer.token.map fun contract => String.ofList (hex contract.address) }

end TronTransfer

/-- The fields of a transaction in the order of their numbers. -/
def Envelope.body (envelope : Envelope) (transfers : List TronTransfer) : List WireField :=
  (envelope.refBlockBytes.map (bytesField 1)).toList
  ++ (envelope.refBlockNum.map (varintField 3)).toList
  ++ (envelope.refBlockHash.map (bytesField 4)).toList
  ++ (envelope.expiration.map (varintField 8)).toList
  ++ transfers.map (fun transfer => bytesField 11 (write transfer.contract))
  ++ (envelope.timestamp.map (varintField 14)).toList
  ++ (envelope.feeLimit.map (varintField 18)).toList

/-- The bytes of a transaction, `raw_data`. -/
def canonicalBody (envelope : Envelope) (transfers : List TronTransfer) : Bytes :=
  write (envelope.body transfers)

-----------------------------------------------------------------------------
-- Every level fits the format

@[simp]
theorem fits_bytesField {number : Nat} {content : Bytes}
    : (bytesField number content).Fits
      ↔ 0 < number ∧ number < 2 ^ 29 ∧ content.length < 2 ^ 31 :=
  Iff.rfl

@[simp]
theorem fits_varintField {number value : Nat}
    : (varintField number value).Fits ↔ 0 < number ∧ number < 2 ^ 29 ∧ value < 2 ^ 64 :=
  Iff.rfl

theorem fits_numberField {number value : Nat} (numbered : 0 < number ∧ number < 2 ^ 29)
    (small : value < 2 ^ 64)
    : ∀ field ∈ numberField number value, field.Fits := by
  intro field member
  unfold numberField at member
  split at member
  · cases member
  · obtain rfl := List.mem_singleton.mp member
    exact ⟨numbered.1, numbered.2, small⟩

theorem room_numberField (number value : Nat)
    : ((numberField number value).map WireField.room).sum ≤ 20 := by
  unfold numberField
  split <;> simp [varintField, WireField.room]

namespace TronTransfer

variable (transfer : TronTransfer)

@[simp]
theorem length_recipient : transfer.recipient.length = 21 := by
  simp [recipient, transfer.account_length]

@[simp]
theorem length_callData : transfer.callData.length = 68 := by
  simp [callData, transfer.account_length]

theorem message_fits : ∀ field ∈ transfer.message, field.Fits := by
  have owner := transfer.owner_length
  unfold message
  cases token : transfer.token with
  | none =>
      have small := transfer.amount_lt
      rw [token] at small
      simp only [List.forall_mem_append, List.forall_mem_cons, fits_bytesField, length_recipient,
        owner]
      exact ⟨by simp, fits_numberField (by decide) (by simpa using small.trans (by decide))⟩
  | some contract =>
      have address := transfer.address_length contract token
      have small := transfer.callValue_lt contract token
      simp only [List.forall_mem_append, List.forall_mem_cons, fits_bytesField, length_callData,
        owner, address]
      exact ⟨⟨by simp, fits_numberField (by decide) (by omega)⟩, by simp⟩

theorem length_message : (write transfer.message).length ≤ 250 := by
  refine (length_write_le transfer.message_fits).trans ?_
  have owner := transfer.owner_length
  unfold message
  cases token : transfer.token with
  | none =>
      have number := room_numberField 3 transfer.amount
      simp only [List.map_append, List.sum_append, List.map_cons, List.map_nil, List.sum_cons,
        List.sum_nil, bytesField, WireField.room, length_recipient, owner]
      omega
  | some contract =>
      have address := transfer.address_length contract token
      have number := room_numberField 3 contract.callValue
      simp only [List.map_append, List.sum_append, List.map_cons, List.map_nil, List.sum_cons,
        List.sum_nil, bytesField, WireField.room, length_callData, owner, address]
      omega

theorem length_typeUrl : transfer.typeUrl.length ≤ 50 := by
  unfold typeUrl
  cases transfer.token <;> simp

theorem parameter_fits : ∀ field ∈ transfer.parameter, field.Fits := by
  have url := transfer.length_typeUrl
  have message := transfer.length_message
  simp only [parameter, List.forall_mem_cons, fits_bytesField]
  exact ⟨⟨by decide, by decide, by omega⟩, ⟨by decide, by decide, by omega⟩, by simp⟩

theorem length_parameter : (write transfer.parameter).length ≤ 400 := by
  refine (length_write_le transfer.parameter_fits).trans ?_
  have url := transfer.length_typeUrl
  have message := transfer.length_message
  simp only [parameter, List.map_cons, List.map_nil, List.sum_cons, List.sum_nil, bytesField,
    WireField.room]
  omega

theorem type_le : transfer.type ≤ 31 := by
  unfold type
  cases transfer.token <;> simp [contractTypeTransfer, contractTypeTriggerSmartContract]

theorem contract_fits : ∀ field ∈ transfer.contract, field.Fits := by
  have parameter := transfer.length_parameter
  have type := transfer.type_le
  simp only [contract, List.forall_mem_cons, fits_bytesField, fits_varintField]
  exact ⟨⟨by decide, by decide, by omega⟩, ⟨by decide, by decide, by omega⟩, by simp⟩

theorem length_contract : (write transfer.contract).length ≤ 500 := by
  refine (length_write_le transfer.contract_fits).trans ?_
  have parameter := transfer.length_parameter
  simp only [contract, List.map_cons, List.map_nil, List.sum_cons, List.sum_nil, bytesField,
    varintField, WireField.room]
  omega

end TronTransfer

theorem body_fits (envelope : Envelope) (transfers : List TronTransfer)
    : ∀ field ∈ envelope.body transfers, field.Fits := by
  have texts := envelope.texts_fit
  have numbers := envelope.numbers_fit
  simp only [List.forall_mem_cons] at texts numbers
  obtain ⟨refBlockBytes, refBlockHash, -⟩ := texts
  obtain ⟨refBlockNum, expiration, timestamp, feeLimit, -⟩ := numbers
  intro field member
  simp only [Envelope.body, List.mem_append, Option.mem_toList, Option.map_eq_some_iff,
    List.mem_map] at member
  rcases member with
    (((((⟨bytes, present, rfl⟩ | ⟨value, present, rfl⟩) | ⟨bytes, present, rfl⟩)
      | ⟨value, present, rfl⟩) | ⟨transfer, -, rfl⟩) | ⟨value, present, rfl⟩)
    | ⟨value, present, rfl⟩
  · exact fits_bytesField.mpr ⟨by decide, by decide, refBlockBytes bytes present⟩
  · exact fits_varintField.mpr ⟨by decide, by decide, refBlockNum value present⟩
  · exact fits_bytesField.mpr ⟨by decide, by decide, refBlockHash bytes present⟩
  · exact fits_varintField.mpr ⟨by decide, by decide, expiration value present⟩
  · have short := transfer.length_contract
    exact fits_bytesField.mpr ⟨by decide, by decide, by omega⟩
  · exact fits_varintField.mpr ⟨by decide, by decide, timestamp value present⟩
  · exact fits_varintField.mpr ⟨by decide, by decide, feeLimit value present⟩

-----------------------------------------------------------------------------
-- What the check makes of it

@[simp]
theorem ofWire_bytesField (number : Nat) (content : Bytes)
    : Field.ofWire (bytesField number content)
      = { no := number, wire := 2, bytes := some content, value := none } :=
  rfl

@[simp]
theorem ofWire_varintField (number value : Nat)
    : Field.ofWire (varintField number value)
      = { no := number, wire := 0, bytes := none, value := some value } :=
  rfl

theorem readFields_write {fields : List WireField} (fits : ∀ field ∈ fields, field.Fits)
    : readFields (write fields) = .ok (fields.map Field.ofWire) :=
  readFields_of_encodes (encodes_write fits)

/-- The calldata that the check takes for a token transfer. -/
theorem callData_spec (transfer : TronTransfer) (token : transfer.token.isSome = true)
    : let data := hex transfer.callData
      data.length = 136
      ∧ data.take 8 = transferSelector.toList
      ∧ isRecipientWord ((data.drop 8).take 64) = true
      ∧ ((data.drop 8).take 64).drop 24 = hex transfer.account
      ∧ hexNumber (data.drop 72) = transfer.amount := by
  have account := transfer.account_length
  have small := transfer.amount_lt
  rw [token, if_pos rfl] at small
  have word : (transfer.callData.drop 4).take 32 = List.replicate 12 0 ++ transfer.account := by
    simp [TronTransfer.callData, account]
  have addrWord : ((hex transfer.callData).drop 8).take 64
      = hex (List.replicate 12 0 ++ transfer.account) := by
    rw [← word, ← hex_take 32, ← hex_drop 4]
  have tail : transfer.callData.drop 36 = BigEndian.fixed 32 transfer.amount := by
    simp [TronTransfer.callData, account]
  have zeros : (hex (List.replicate 12 0 ++ transfer.account)).take 24
      = List.replicate 24 '0' := by
    have front : (List.replicate 12 0 ++ transfer.account).take 12 = List.replicate 12 0 :=
      List.take_left' (by simp)
    rw [hex_take 12, front]
    decide
  have digits : (hex (List.replicate 12 0 ++ transfer.account)).drop 24
      = hex transfer.account := by
    have back : (List.replicate 12 0 ++ transfer.account).drop 12 = transfer.account :=
      List.drop_left' (by simp)
    rw [hex_drop 12, back]
  refine ⟨by simp, ?_, ?_, by rw [addrWord, digits], ?_⟩
  · have front : transfer.callData.take 4 = [0xa9, 0x05, 0x9c, 0xbb] := by
      simp [TronTransfer.callData]
    rw [hex_take 4, front]
    decide
  · rw [addrWord, isRecipientWord, zeros, digits, length_hex, account, isLowerHex_hex]
    rfl
  · rw [hex_drop 36, tail, hexNumber_hex]
    exact BigEndian.value_fixed (by omega)

theorem decodeTransferContract_message (transfer : TronTransfer) (native : transfer.token = none)
    : decodeTransferContract (write transfer.message) = .ok transfer.decoded := by
  have values : ∃ f, readFields (write transfer.message) = .ok f
      ∧ bytesOf f 1 = transfer.owner
      ∧ bytesOf f 2 = transfer.recipient
      ∧ valueOf f 3 = transfer.amount := by
    refine ⟨_, readFields_write transfer.message_fits, ?_⟩
    unfold TronTransfer.message numberField
    rw [native]
    by_cases zero : transfer.amount = 0 <;> simp [zero, bytesOf, valueOf, field]
  obtain ⟨f, found, owner, recipient, amount⟩ := values
  simp [decodeTransferContract, found, bind, Except.bind, owner, recipient, amount,
    TronTransfer.decoded, TronTransfer.type, native]

/-- A token transfer is decoded as it is, unless it carries a call value. -/
theorem decodeTriggerSmartContract_message (transfer : TronTransfer) {contract : TokenContract}
    (token : transfer.token = some contract)
    : if contract.callValue = 0 then
        decodeTriggerSmartContract (write transfer.message) = .ok transfer.decoded
      else
        ∃ err, decodeTriggerSmartContract (write transfer.message) = .error err
          ∧ err.code = .tronTxMismatch := by
  obtain ⟨long, selector, word, account, amount⟩ := callData_spec transfer (by simp [token])
  have values : ∃ f, readFields (write transfer.message) = .ok f
      ∧ bytesOf f 1 = transfer.owner
      ∧ bytesOf f 2 = contract.address
      ∧ valueOf f 3 = contract.callValue
      ∧ bytesOf f 4 = transfer.callData := by
    refine ⟨_, readFields_write transfer.message_fits, ?_⟩
    unfold TronTransfer.message numberField
    rw [token]
    by_cases zero : contract.callValue = 0 <;> simp [zero, bytesOf, valueOf, field]
  obtain ⟨f, found, owner, address, value, data⟩ := values
  unfold decodeTriggerSmartContract
  simp only [found, data, value, bind, Except.bind, long, selector, ne_eq, not_true_eq_false,
    or_self, if_false, word, Bool.not_true, owner, address, account, amount]
  split
  case isTrue zero =>
    simp only [TronTransfer.decoded, TronTransfer.type, token, TronTransfer.recipient, hex_cons]
    rfl
  case isFalse paid =>
    simp [throw, throwThe, MonadExceptOf.throw, txMismatch]

/-- The contracts of a body are those that were written. -/
theorem contracts_body (envelope : Envelope) (transfers : List TronTransfer)
    : ((envelope.body transfers).map Field.ofWire).filterMap
          (fun f => if f.no = 11 then f.bytes else none)
      = transfers.map fun transfer => write transfer.contract := by
  have others : ∀ (number : Nat) (text : Option Bytes), number ≠ 11
      → (((text.map (bytesField number)).toList).map Field.ofWire).filterMap
          (fun f => if f.no = 11 then f.bytes else none) = [] := by
    intro number text apart
    cases text <;> simp [apart]
  have numbers : ∀ (number : Nat) (value : Option Nat),
      (((value.map (varintField number)).toList).map Field.ofWire).filterMap
        (fun f => if f.no = 11 then f.bytes else none) = [] := by
    intro number value
    cases value <;> simp
  simp only [Envelope.body, List.map_append, List.filterMap_append, others _ _ (by decide : 1 ≠ 11),
    others _ _ (by decide : 4 ≠ 11), numbers, List.nil_append, List.append_nil]
  induction transfers with
  | nil => rfl
  | cons transfer rest ih => simpa using ih

/-- A body of one contract is decoded as the transfer that was written, unless it carries a
call value; a body of none or of several is refused.
-/
theorem decodeRawData_canonical (envelope : Envelope) (transfers : List TronTransfer)
    : (∃ transfer,
        transfers = [transfer]
        ∧ (∀ contract ∈ transfer.token, contract.callValue = 0)
        ∧ decodeRawData (canonicalBody envelope transfers) = .ok transfer.decoded)
      ∨ ((∀ transfer,
          transfers = [transfer] → ¬ ∀ contract ∈ transfer.token, contract.callValue = 0)
        ∧ ∃ err, decodeRawData (canonicalBody envelope transfers) = .error err
          ∧ err.code = .tronTxMismatch) := by
  have read := readFields_write (body_fits envelope transfers)
  have contracts := contracts_body envelope transfers
  unfold decodeRawData canonicalBody
  simp only [read, bind, Except.bind, contracts]
  match transfers with
  | [] => exact .inr ⟨nofun, _, rfl, rfl⟩
  | first :: second :: rest => exact .inr ⟨nofun, _, rfl, rfl⟩
  | [transfer] =>
      have entry := readFields_write transfer.contract_fits
      have any := readFields_write transfer.parameter_fits
      have type : valueOf (transfer.contract.map Field.ofWire) 1 = transfer.type := by
        simp [TronTransfer.contract, valueOf, field]
      have parameter : bytesOf (transfer.contract.map Field.ofWire) 2
          = write transfer.parameter := by
        simp [TronTransfer.contract, bytesOf, field]
      have value : (field (transfer.parameter.map Field.ofWire) 2).bind Field.bytes
          = some (write transfer.message) := by
        simp [TronTransfer.parameter, field]
      simp only [List.map_cons, List.map_nil, entry, type, parameter, any, value]
      cases token : transfer.token with
      | none =>
          have native : transfer.type = contractTypeTransfer := by
            rw [TronTransfer.type, token]
          refine .inl ⟨transfer, rfl, by simp [token], ?_⟩
          rw [if_pos native]
          exact decodeTransferContract_message transfer token
      | some contract =>
          have called : transfer.type = contractTypeTriggerSmartContract := by
            rw [TronTransfer.type, token]
          have other : ¬ contractTypeTriggerSmartContract = contractTypeTransfer := by decide
          have decoded := decodeTriggerSmartContract_message transfer token
          rw [called, if_neg other, if_pos rfl]
          by_cases free : contract.callValue = 0
          · rw [if_pos free] at decoded
            exact .inl ⟨transfer, rfl, by simpa [token] using free, decoded⟩
          · rw [if_neg free] at decoded
            refine .inr ⟨?_, decoded⟩
            rintro _ ⟨⟩ plain
            exact free (plain contract token)

-----------------------------------------------------------------------------
-- What the check accepts

/-- Two transfers of one owner, account, amount and token are one where neither carries a call
value.
-/
theorem TronTransfer.eq_of {transfer intended : TronTransfer}
    (owner : transfer.owner = intended.owner) (recipient : transfer.recipient = intended.recipient)
    (amount : transfer.amount = intended.amount)
    (address : transfer.token.map (·.address) = intended.token.map (·.address))
    (free : ∀ contract ∈ transfer.token, contract.callValue = 0)
    (plain : ∀ contract ∈ intended.token, contract.callValue = 0)
    : transfer = intended := by
  obtain ⟨_, account, _, token, _, _, _, _, _⟩ := transfer
  obtain ⟨_, intendedAccount, _, intendedToken, _, _, _, _, _⟩ := intended
  obtain rfl : account = intendedAccount := (List.cons.inj recipient).2
  have tokens : token = intendedToken := by
    cases token with
    | none =>
        cases intendedToken with
        | none => rfl
        | some contract => cases address
    | some contract =>
        cases intendedToken with
        | none => cases address
        | some other =>
            obtain ⟨_, value⟩ := contract
            obtain ⟨_, otherValue⟩ := other
            have none := free _ rfl
            have zero := plain _ rfl
            simp only [Option.map_some, Option.some.injEq] at address none zero
            rw [address, none, zero]
  simp only at owner amount
  subst owner amount tokens
  rfl

/-- A decoded transfer is what was authorized exactly where it is that transfer. -/
theorem matchIntent_decoded (hashing : TxHashing) {transfer intended : TronTransfer}
    (free : ∀ contract ∈ transfer.token, contract.callValue = 0)
    (plain : ∀ contract ∈ intended.token, contract.callValue = 0)
    : matchIntent hashing intended.intent transfer.decoded = .ok () ↔ transfer = intended := by
  rw [matchIntent_ok_iff]
  simp only [TronTransfer.intent, TronTransfer.decoded, normalized_hex, hex_inj, Nat.cast_inj]
  constructor
  · rintro ⟨owner, recipient, amount, chosen⟩
    refine TronTransfer.eq_of owner recipient amount ?_ free plain
    unfold TronTransfer.type at chosen
    cases token : transfer.token <;> cases intendedToken : intended.token <;>
      simp_all [normalized_hex, hex_inj, contractTypeTransfer, contractTypeTriggerSmartContract]
  · rintro rfl
    refine ⟨rfl, rfl, rfl, ?_⟩
    unfold TronTransfer.type
    cases transfer.token <;> simp [normalized_hex]

/-- What throws nothing but a mismatch. -/
def Mismatches {α : Type} (result : Except AppError α) : Prop :=
  ∀ err, result = .error err → err.code = .tronTxMismatch

section Refusals

variable {α β : Type}

theorem mismatches_ok (value : α) : Mismatches (.ok value) := by
  intro err thrown
  cases thrown

theorem mismatches_error (message : String) (context : List (String × ContextValue))
    : Mismatches (.error (txMismatch message context) : Except AppError α) := by
  rintro err ⟨⟩
  rfl

theorem Mismatches.bind {result : Except AppError α} {next : α → Except AppError β}
    (first : Mismatches result) (rest : ∀ value, Mismatches (next value))
    : Mismatches (result >>= next) := by
  cases result with
  | error err =>
      rintro _ ⟨⟩
      exact first err rfl
  | ok value => exact rest value

theorem mismatches_varint (shift result : Nat) (buf : Bytes)
    : Mismatches (varint shift result buf) := by
  induction buf generalizing shift result with
  | nil => exact mismatches_error _ _
  | cons byte rest ih =>
      unfold varint
      dsimp only
      split
      · exact mismatches_ok _
      · split
        · exact mismatches_error _ _
        · exact ih _ _

theorem mismatches_readFieldsFrom (fuel : Nat) (buf : Bytes)
    : Mismatches (readFieldsFrom fuel buf) := by
  induction fuel generalizing buf with
  | zero => cases buf <;> exact mismatches_ok _
  | succ fuel ih =>
      cases buf with
      | nil => exact mismatches_ok _
      | cons byte others =>
          refine (mismatches_varint _ _ _).bind ?_
          rintro ⟨key, rest⟩
          dsimp only
          have tail : ∀ (first : Field) (later : Bytes),
              Mismatches (do return first :: (← readFieldsFrom fuel later)) :=
            fun first later => (ih later).bind fun _ => mismatches_ok _
          split
          · refine (mismatches_varint _ _ _).bind ?_
            rintro ⟨value, later⟩
            exact tail _ later
          · split
            · refine (mismatches_varint _ _ _).bind ?_
              rintro ⟨length, later⟩
              dsimp only
              split
              · exact mismatches_error _ _
              · exact tail _ _
            · split
              · exact tail _ _
              · split
                · exact tail _ _
                · exact mismatches_error _ _

theorem mismatches_decodeRawData (raw : Bytes) : Mismatches (decodeRawData raw) := by
  have trigger : ∀ value, Mismatches (decodeTriggerSmartContract value) := by
    intro value
    refine (mismatches_readFieldsFrom _ _).bind fun f => ?_
    dsimp only [bind, Except.bind, throw, throwThe, MonadExceptOf.throw, pure, Except.pure]
    split
    · exact mismatches_error _ _
    · split
      · exact mismatches_error _ _
      · split
        · exact mismatches_error _ _
        · exact mismatches_ok _
  refine (mismatches_readFieldsFrom _ _).bind fun fields => ?_
  dsimp only
  split
  · refine (mismatches_readFieldsFrom _ _).bind fun c => ?_
    refine (mismatches_readFieldsFrom _ _).bind fun anyFields => ?_
    split
    · exact mismatches_error _ _
    · split
      · exact (mismatches_readFieldsFrom _ _).bind fun f => mismatches_ok _
      · split
        · exact trigger _
        · exact mismatches_error _ _
  · exact mismatches_error _ _

theorem mismatches_matchIntent (hashing : TxHashing) (intent : TronTransferIntent)
    (got : DecodedTransfer)
    : Mismatches (matchIntent hashing intent got) := by
  unfold matchIntent
  dsimp only [bind, Except.bind, throw, throwThe, MonadExceptOf.throw, pure, Except.pure]
  split
  · exact mismatches_error _ _
  · split
    · exact mismatches_error _ _
    · split
      · exact mismatches_error _ _
      · split
        all_goals
          split
          · exact mismatches_error _ _
          · exact mismatches_ok _

theorem mismatches_decodeTronRawData (text : List Char) : Mismatches (decodeTronRawData text) := by
  unfold decodeTronRawData
  dsimp only
  split
  · exact mismatches_error _ _
  · exact mismatches_decodeRawData _

/-- Every refusal of the check is a mismatch. -/
theorem mismatches_verified (hashing : TxHashing) (tx : NodeTransaction)
    (intent : TronTransferIntent)
    : Mismatches (verifiedTronSigningHash hashing tx intent) := by
  unfold verifiedTronSigningHash
  dsimp only
  split
  · exact mismatches_error _ _
  · split
    · exact mismatches_error _ _
    · refine (mismatches_decodeTronRawData _).bind fun got => ?_
      exact (mismatches_matchIntent hashing intent got).bind fun _ => mismatches_ok _

end Refusals

theorem decodeTronRawData_hex {raw : Bytes} (some_ : raw ≠ [])
    : decodeTronRawData (hex raw) = decodeRawData raw := by
  have digits : (hex raw).all (fun digit => (AuthorizationSigner.hexDigit digit).isSome) = true := by
    clear some_
    induction raw with
    | nil => rfl
    | cons byte rest ih =>
        obtain ⟨high, low⟩ := byte_digits byte
        rw [hex_cons, List.all_cons, List.all_cons, hexDigit_hexChar _ high,
          hexDigit_hexChar _ low, ih]
        rfl
  have text : hex raw ≠ [] := by
    rw [← hex_nil, ne_eq, hex_inj]
    exact some_
  have even : (hex raw).length % 2 = 0 := by
    rw [length_hex]
    omega
  simp only [decodeTronRawData, withoutHexPrefix_hex, text, digits, even, fromHex_hex]
  simp

/-- The check of a body that comes with its own hash. -/
theorem verified_ok_iff (hashing : TxHashing) (intent : TronTransferIntent) {raw digest : Bytes}
    (hashed : hashing.sha256 raw ≠ [])
    : verifiedTronSigningHash hashing
          (nodeTransaction (some (String.ofList (hex (hashing.sha256 raw)))) raw) intent
        = .ok digest
      ↔ raw ≠ []
        ∧ digest = hashing.sha256 raw
        ∧ ∃ got, decodeRawData raw = .ok got ∧ matchIntent hashing intent got = .ok () := by
  have txId : hex (hashing.sha256 raw) ≠ [] := by
    rw [← hex_nil, ne_eq, hex_inj]
    exact hashed
  unfold verifiedTronSigningHash
  simp only [nodeTransaction, Option.getD_some, normalized_hex, txId, if_false, fromHex_hex,
    ne_eq, not_true_eq_false, or_false, bind, Except.bind, pure, Except.pure, throw, throwThe,
    MonadExceptOf.throw]
  by_cases empty : raw = []
  · simp [empty]
  · have text : hex raw ≠ [] := by
      rw [← hex_nil, ne_eq, hex_inj]
      exact empty
    rw [if_neg text, decodeTronRawData_hex empty]
    cases decodeRawData raw with
    | error err => simp
    | ok got => cases matched : matchIntent hashing intent got <;> simp [matched, empty, eq_comm]

theorem canonicalBody_ne_nil (envelope : Envelope) {transfers : List TronTransfer}
    (some_ : transfers ≠ [])
    : canonicalBody envelope transfers ≠ [] := by
  intro empty
  obtain ⟨transfer, rest, rfl⟩ := List.exists_cons_of_ne_nil some_
  have read := readFields_write (body_fits envelope (transfer :: rest))
  have contracts := contracts_body envelope (transfer :: rest)
  rw [canonicalBody] at empty
  rw [empty] at read
  rw [← Except.ok.inj read] at contracts
  cases contracts

/-- The check accepts the canonical body of the transfer that was authorized, and of no other:
of none that differs in its owner, account, amount or token, or carries a call value, and of
no body with any other number of contracts; it refuses them with a mismatch. The reader finds
in a well-formed message the fields that it was written from, and comes to the end of every
sequence of bytes within as many fields as there are bytes.
-/
theorem canonical_accepted_iff (hashing : TxHashing)
    (sized : ∀ raw, (hashing.sha256 raw).length = 32)
    : (∀ (envelope : Envelope) (transfers : List TronTransfer) (intended : TronTransfer),
        (∀ contract ∈ intended.token, contract.callValue = 0)
        → let raw := canonicalBody envelope transfers
          let digest := hashing.sha256 raw
          let result :=
            verifiedTronSigningHash hashing
              (nodeTransaction (some (String.ofList (hex digest))) raw) intended.intent
          (result = .ok digest ↔ transfers = [intended])
          ∧ (transfers ≠ [intended]
            → ∃ err, result = .error err ∧ err.code = .tronTxMismatch))
      ∧ (∀ fields buf, Encodes fields buf → readFields buf = .ok (fields.map Field.ofWire))
      ∧ ∀ (buf : Bytes) (fuel : Nat),
          buf.length ≤ fuel → readFieldsFrom fuel buf = readFields buf := by
  refine ⟨?_, fun _ _ => readFields_of_encodes, fun _ _ enough =>
    readFieldsFrom_of_enough enough le_rfl⟩
  intro envelope transfers intended plain
  have hashed : hashing.sha256 (canonicalBody envelope transfers) ≠ [] := by
    intro none
    have long := sized (canonicalBody envelope transfers)
    rw [none] at long
    cases long
  have accepted : ∀ digest,
      verifiedTronSigningHash hashing
          (nodeTransaction
            (some (String.ofList (hex (hashing.sha256 (canonicalBody envelope transfers)))))
            (canonicalBody envelope transfers)) intended.intent
        = .ok digest
      ↔ transfers = [intended] ∧ digest = hashing.sha256 (canonicalBody envelope transfers) := by
    intro digest
    rw [verified_ok_iff hashing intended.intent hashed]
    constructor
    · rintro ⟨-, rfl, got, decoded, matched⟩
      rcases decodeRawData_canonical envelope transfers with
        ⟨transfer, rfl, free, found⟩ | ⟨-, err, found, -⟩
      · obtain rfl := Except.ok.inj (found.symm.trans decoded)
        rw [(matchIntent_decoded hashing free plain).mp matched]
        exact ⟨rfl, rfl⟩
      · cases found.symm.trans decoded
    · rintro ⟨rfl, rfl⟩
      refine ⟨canonicalBody_ne_nil envelope (by simp), rfl, ?_⟩
      rcases decodeRawData_canonical envelope [intended] with
        ⟨transfer, same, free, found⟩ | ⟨paid, -⟩
      · obtain rfl := List.singleton_inj.mp same
        exact ⟨_, found, (matchIntent_decoded hashing free plain).mpr rfl⟩
      · exact absurd plain (paid intended rfl)
  dsimp only
  refine ⟨by simp [accepted], fun other => ?_⟩
  cases result : verifiedTronSigningHash hashing
      (nodeTransaction
        (some (String.ofList (hex (hashing.sha256 (canonicalBody envelope transfers)))))
        (canonicalBody envelope transfers)) intended.intent with
  | ok digest => exact absurd ((accepted digest).mp result).1 other
  | error err => exact ⟨err, rfl, mismatches_verified hashing _ intended.intent err result⟩

-----------------------------------------------------------------------------
-- A token transfer

/-- A transfer of 1000000 from the sample owner to the account of the sample recipient. -/
def sampleTokenTransfer : TronTransfer where
  owner := sampleOwner
  account := List.replicate 20 0x22
  amount := 1000000
  token := some { address := 0x41 :: List.replicate 20 0x33, callValue := 0 }
  owner_length := rfl
  account_length := rfl
  address_length := by simp
  callValue_lt := by simp
  amount_lt := by decide

def sampleEnvelope : Envelope where
  refBlockBytes := some [0x12, 0x34]
  refBlockNum := none
  refBlockHash := some [1, 2, 3, 4, 5, 6, 7, 8]
  expiration := some 1700000060000
  timestamp := some 1700000000000
  feeLimit := some 100000000
  texts_fit := by simp
  numbers_fit := by simp

/-- The digest of the body of the sample transfer. -/
def sampleDigest : Bytes :=
  [ 0xa0, 0x50, 0xc9, 0xfc, 0xaa, 0x92, 0x12, 0xce, 0xb3, 0x18, 0x91, 0x8d,
    0x04, 0x87, 0x50, 0x2b, 0x3a, 0x25, 0xd2, 0x51, 0x6f, 0xbb, 0x6d, 0x4a,
    0xad, 0x50, 0x73, 0xb3, 0x71, 0x90, 0xa9, 0x55 ]

theorem canonical_accepted_iff_token
    : let hashing := { sampleHashing with sha256 := fun _ => sampleDigest }
      let raw := canonicalBody sampleEnvelope [sampleTokenTransfer]
      verifiedTronSigningHash hashing
          (nodeTransaction (some (String.ofList (hex sampleDigest))) raw)
          sampleTokenTransfer.intent
        = .ok sampleDigest := by
  let hashing := { sampleHashing with sha256 := fun _ => sampleDigest }
  have accepted := (canonical_accepted_iff hashing fun _ => rfl).1 sampleEnvelope
    [sampleTokenTransfer] sampleTokenTransfer (by simp [sampleTokenTransfer])
  exact accepted.1.mpr rfl

end Cixtech.Tron.TxVerify
