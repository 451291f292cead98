import Cixtech.Tron.TxVerify

/-! What a transaction body means to the network, by the standard reading of the wire format,
beside what the check before signing takes from it.
-/

namespace Cixtech.Tron.TxVerify

open Cixtech.Common Cixtech.Foundation.Protobuf Cixtech.Payout

-----------------------------------------------------------------------------
-- Bytes and their hexadecimal text

theorem hexDigit_hexChar
    : ∀ digit < 16, AuthorizationSigner.hexDigit (hexChar digit) = some digit := by
  decide

theorem isLowerHex_hexChar
    : ∀ digit < 16, ((hexChar digit).isDigit || ('a' ≤ hexChar digit && hexChar digit ≤ 'f')) := by
  decide

theorem hexChar_ne_x : ∀ digit < 16, hexChar digit ≠ 'x' := by decide

theorem byte_digits (byte : UInt8) : byte.toNat / 16 < 16 ∧ byte.toNat % 16 < 16 := by
  have small := byte.toNat_lt
  omega

@[simp]
theorem hex_nil : hex [] = [] := rfl

theorem hex_cons (byte : UInt8) (rest : Bytes)
    : hex (byte :: rest) = hexChar (byte.toNat / 16) :: hexChar (byte.toNat % 16) :: hex rest := rfl

@[simp]
theorem length_hex (b : Bytes) : (hex b).length = 2 * b.length := by
  induction b with
  | nil => rfl
  | cons byte rest ih =>
      simp only [hex_cons, List.length_cons, ih]
      omega

theorem isLowerHex_hex (b : Bytes) : isLowerHex (hex b) = true := by
  induction b with
  | nil => rfl
  | cons byte rest ih =>
      obtain ⟨high, low⟩ := byte_digits byte
      unfold isLowerHex at ih ⊢
      rw [hex_cons, List.all_cons, List.all_cons, isLowerHex_hexChar _ high,
        isLowerHex_hexChar _ low, ih]
      rfl

/-- The bytes of a text made of bytes are those bytes, by induction on them. -/
theorem hexBytes_hex (b : Bytes) : AuthorizationSigner.hexBytes (hex b) = b.map UInt8.toNat := by
  induction b with
  | nil => rfl
  | cons byte rest ih =>
      obtain ⟨high, low⟩ := byte_digits byte
      rw [hex_cons]
      simp only [AuthorizationSigner.hexBytes, hexDigit_hexChar _ high, hexDigit_hexChar _ low, ih,
        List.map_cons, List.cons.injEq, and_true]
      omega

theorem fromHex_hex (b : Bytes) : fromHex (hex b) = b := by
  simp [fromHex, hexBytes_hex, Function.comp_def]

theorem hex_inj {b other : Bytes} : hex b = hex other ↔ b = other := by
  refine ⟨fun same => ?_, fun same => by rw [same]⟩
  rw [← fromHex_hex b, same, fromHex_hex]

theorem withoutHexPrefix_hex (b : Bytes) : withoutHexPrefix (hex b) = hex b := by
  cases b with
  | nil => rfl
  | cons byte rest =>
      obtain ⟨-, low⟩ := byte_digits byte
      rw [hex_cons]
      unfold withoutHexPrefix
      split
      case h_1 same => exact absurd (List.cons.inj (List.cons.inj same).2).1 (hexChar_ne_x _ low)
      case h_2 => rfl

theorem normalized_hex (hashing : TxHashing) (b : Bytes)
    : normalized hashing (String.ofList (hex b)) = hex b := by
  rw [normalized, String.toList_ofList, withoutHexPrefix_hex,
    hashing.toLowerCase_of_lowerHex _ (isLowerHex_hex b)]

theorem hex_take (n : Nat) (b : Bytes) : (hex b).take (2 * n) = hex (b.take n) := by
  induction n generalizing b with
  | zero => rfl
  | succ n ih =>
      cases b with
      | nil => simp
      | cons byte rest =>
          rw [hex_cons, List.take_succ_cons, hex_cons, ← ih, Nat.mul_succ]
          rfl

theorem hex_drop (n : Nat) (b : Bytes) : (hex b).drop (2 * n) = hex (b.drop n) := by
  induction n generalizing b with
  | zero => rfl
  | succ n ih =>
      cases b with
      | nil => simp
      | cons byte rest =>
          rw [hex_cons, List.drop_succ_cons, ← ih, Nat.mul_succ]
          rfl

/-- A number of bytes in base 256, most significant first. -/
def bigEndian (b : Bytes) : Nat := b.foldl (fun number byte => 256 * number + byte.toNat) 0

theorem hexNumber_hex (b : Bytes) : hexNumber (hex b) = bigEndian b := by
  have onwards : ∀ number,
      (hex b).foldl
          (fun number digit => 16 * number + (AuthorizationSigner.hexDigit digit).getD 0) number
        = b.foldl (fun number byte => 256 * number + byte.toNat) number := by
    induction b with
    | nil => exact fun _ => rfl
    | cons byte rest ih =>
        intro number
        obtain ⟨high, low⟩ := byte_digits byte
        rw [hex_cons]
        simp only [List.foldl_cons, hexDigit_hexChar _ high, hexDigit_hexChar _ low,
          Option.getD_some, ih]
        have whole : 16 * (16 * number + byte.toNat / 16) + byte.toNat % 16
            = 256 * number + byte.toNat := by omega
        rw [whole]
  exact onwards 0

/-- Numbers of as many bytes are equal only where the bytes are, by induction on the bytes. -/
theorem bigEndian_inj {b other : Bytes} (long : b.length = other.length)
    (same : bigEndian b = bigEndian other)
    : b = other := by
  have lead : ∀ (b other : Bytes) (number start : Nat),
      b.length = other.length
      → b.foldl (fun number byte => 256 * number + byte.toNat) number
        = other.foldl (fun number byte => 256 * number + byte.toNat) start
      → number = start ∧ b = other := by
    intro b
    induction b with
    | nil =>
        intro other number start long same
        obtain rfl := List.length_eq_zero_iff.mp long.symm
        exact ⟨same, rfl⟩
    | cons byte rest ih =>
        intro other number start long same
        cases other with
        | nil => cases long
        | cons first later =>
            obtain ⟨lead, tails⟩ := ih later _ _ (Nat.succ.inj long) same
            have sums : 256 * number + byte.toNat = 256 * start + first.toNat := lead
            have small := byte.toNat_lt
            have firstSmall := first.toNat_lt
            have equal : byte = first := UInt8.toNat_inj.mp (by omega)
            exact ⟨by omega, by rw [equal, tails]⟩
  exact (lead b other 0 0 long same).2

-----------------------------------------------------------------------------
-- What a body means

/-- The one contract of a transaction, as far as its type is one that is ever signed. -/
inductive TronContract
  | transfer (owner recipient : Bytes) (amount : Int)
  | trigger (owner contract : Bytes) (callValue : Int) (data : Bytes)
  | other (type : Int)
  deriving DecidableEq, Repr

/-- The standard reading of a body, none where it is malformed or does not carry exactly one
contract. The type names of the contract's parameter are not read.
-/
def networkReading (raw : Bytes) : Option TronContract :=
  match (read raw).map (allBytes 11) with
  | some [contract] =>
      (read contract).bind fun entry =>
        (embedded 2 entry).bind fun parameter =>
          (read (lastBytes 2 parameter)).map fun message =>
            let type := toInt32 (lastVarint 1 entry)
            if type = contractTypeTransfer then
              .transfer (lastBytes 1 message) (lastBytes 2 message)
                (toInt64 (lastVarint 3 message))
            else if type = contractTypeTriggerSmartContract then
              .trigger (lastBytes 1 message) (lastBytes 2 message)
                (toInt64 (lastVarint 3 message)) (lastBytes 4 message)
            else .other type
  | _ => none

/-- The same made of the first occurrence of each field, by the reader of the check: its tags
and its numbers have as many bits as eleven bytes hold.
-/
def firstReading (raw : Bytes) : Option TronContract :=
  match (readFields raw).toOption.map fun fields =>
      fields.filterMap fun f => if f.no = 11 then f.bytes else none with
  | some [contract] =>
      (readFields contract).toOption.bind fun c =>
        (readFields (bytesOf c 2)).toOption.bind fun anyFields =>
          ((field anyFields 2).bind Field.bytes).bind fun value =>
            (readFields value).toOption.map fun f =>
              let type := valueOf c 1
              if type = contractTypeTransfer then
                .transfer (bytesOf f 1) (bytesOf f 2) (valueOf f 3)
              else if type = contractTypeTriggerSmartContract then
                .trigger (bytesOf f 1) (bytesOf f 2) (valueOf f 3) (bytesOf f 4)
              else .other type
  | _ => none

/-- The recipient and the amount of a call of `transfer(address,uint256)`, by the contract
ABI. A TRON address is the 20 bytes of the call behind the byte 0x41.
-/
def tokenCall (data : Bytes) : Option (Bytes × Nat) :=
  if data.length = 68 ∧ data.take 4 = [0xa9, 0x05, 0x9c, 0xbb]
      ∧ (data.drop 4).take 12 = List.replicate 12 0 then
    some (0x41 :: (data.drop 16).take 20, bigEndian (data.drop 36))
  else none

/-- Whether a contract makes the transfer that was authorized, and nothing else. -/
def Authorized (hashing : TxHashing) (intent : TronTransferIntent) : TronContract → Prop
  | .transfer owner recipient amount =>
      intent.contractHex = none
      ∧ hex owner = normalized hashing intent.ownerHex
      ∧ hex recipient = normalized hashing intent.toHex
      ∧ amount = intent.amountBaseUnits
  | .trigger owner contract callValue data =>
      intent.contractHex.map (normalized hashing) = some (hex contract)
      ∧ hex owner = normalized hashing intent.ownerHex
      ∧ callValue = 0
      ∧ ∃ recipient amount,
        tokenCall data = some (recipient, amount)
        ∧ hex recipient = normalized hashing intent.toHex
        ∧ (amount : Int) = intent.amountBaseUnits
  | .other _ => False

/-- The body of the transaction means the authorized transfer to the network. -/
def MeansIntent (hashing : TxHashing) (intent : TronTransferIntent) (raw : Bytes) : Prop :=
  ∃ contract, networkReading raw = some contract ∧ Authorized hashing intent contract

/-- Call data with the same recipient and amount are the same. -/
theorem tokenCall_inj {data other : Bytes} {recipient : Bytes} {amount : Nat}
    (call : tokenCall data = some (recipient, amount))
    (again : tokenCall other = some (recipient, amount))
    : data = other := by
  unfold tokenCall at call again
  split at call
  case isFalse => cases call
  case isTrue plain =>
    split at again
    case isFalse => cases again
    case isTrue otherPlain =>
      obtain ⟨sameTo, sameAmount⟩ :=
        Prod.mk.inj (Option.some.inj (call.trans again.symm))
      obtain ⟨long, selector, zeros⟩ := plain
      obtain ⟨otherLong, otherSelector, otherZeros⟩ := otherPlain
      have tails : data.drop 36 = other.drop 36 :=
        bigEndian_inj (by simp [long, otherLong]) sameAmount
      have recipients : (data.drop 16).take 20 = (other.drop 16).take 20 :=
        (List.cons.inj sameTo).2
      have split : ∀ b : Bytes,
          b = b.take 4 ++ ((b.drop 4).take 12 ++ ((b.drop 16).take 20 ++ b.drop 36)) := by
        intro b
        have third : (b.drop 16).take 20 ++ b.drop 36 = b.drop 16 := by
          rw [show b.drop 36 = (b.drop 16).drop 20 by rw [List.drop_drop], List.take_append_drop]
        have second : (b.drop 4).take 12 ++ b.drop 16 = b.drop 4 := by
          rw [show b.drop 16 = (b.drop 4).drop 12 by rw [List.drop_drop], List.take_append_drop]
        rw [third, second, List.take_append_drop]
      rw [split data, split other, selector, otherSelector, zeros, otherZeros, recipients, tails]

/-- There is one contract that makes a transfer. -/
theorem Authorized.unique {hashing : TxHashing} {intent : TronTransferIntent}
    {contract other : TronContract} (authorized : Authorized hashing intent contract)
    (again : Authorized hashing intent other)
    : contract = other := by
  cases contract with
  | other type => exact authorized.elim
  | transfer owner recipient amount =>
      obtain ⟨native, from_, to_, sum⟩ := authorized
      cases other with
      | other type => exact again.elim
      | transfer otherOwner otherRecipient otherAmount =>
          obtain ⟨-, otherFrom, otherTo, otherSum⟩ := again
          rw [hex_inj.mp (from_.trans otherFrom.symm), hex_inj.mp (to_.trans otherTo.symm), sum,
            otherSum]
      | trigger =>
          have token := again.1
          rw [native] at token
          cases token
  | trigger owner contract callValue data =>
      obtain ⟨token, from_, nothing, recipient, amount, call, to_, sum⟩ := authorized
      cases other with
      | other type => exact again.elim
      | transfer =>
          rw [again.1] at token
          cases token
      | trigger otherOwner otherContract otherCallValue otherData =>
          obtain ⟨otherToken, otherFrom, otherNothing, otherRecipient, otherAmount, otherCall,
            otherTo, otherSum⟩ := again
          have contracts := hex_inj.mp (Option.some.inj (token.symm.trans otherToken))
          have recipients := hex_inj.mp (to_.trans otherTo.symm)
          have amounts : amount = otherAmount := by omega
          subst recipients amounts
          rw [contracts, hex_inj.mp (from_.trans otherFrom.symm), nothing, otherNothing,
            tokenCall_inj call otherCall]

-----------------------------------------------------------------------------
-- What the check accepts

/-- What a decoded transfer says of the contract that it was decoded from. -/
def Decodes (got : DecodedTransfer) : TronContract → Prop
  | .transfer owner recipient amount =>
      got.type = contractTypeTransfer
      ∧ got.ownerHex = hex owner
      ∧ got.toHex = hex recipient
      ∧ (got.amount : Int) = amount
      ∧ got.contractHex = none
  | .trigger owner contract callValue data =>
      got.type = contractTypeTriggerSmartContract
      ∧ got.ownerHex = hex owner
      ∧ got.contractHex = some (hex contract)
      ∧ callValue = 0
      ∧ ∃ recipient, tokenCall data = some (recipient, got.amount) ∧ got.toHex = hex recipient
  | .other _ => False

/-- The call data that the check takes for a token transfer is one. -/
theorem tokenCall_of_hex {data : Bytes} (long : (hex data).length = 136)
    (selector : (hex data).take 8 = transferSelector.toList)
    (word : isRecipientWord (((hex data).drop 8).take 64) = true)
    : tokenCall data = some (0x41 :: (data.drop 16).take 20, hexNumber ((hex data).drop 72))
      ∧ '4' :: '1' :: (((hex data).drop 8).take 64).drop 24
        = hex (0x41 :: (data.drop 16).take 20) := by
  have length : data.length = 68 := by
    rw [length_hex] at long
    omega
  have bytes : hex (data.take 4) = hex [0xa9, 0x05, 0x9c, 0xbb] := by
    rw [← hex_take]
    exact selector
  have addrWord : ((hex data).drop 8).take 64 = hex ((data.drop 4).take 32) := by
    rw [← hex_take 32, ← hex_drop 4]
  rw [addrWord] at word ⊢
  simp only [isRecipientWord, Bool.and_eq_true, decide_eq_true_eq] at word
  have zeros : hex (((data.drop 4).take 32).take 12) = hex (List.replicate 12 0) := by
    rw [← hex_take 12]
    exact word.1.1
  have leading : (data.drop 4).take 12 = List.replicate 12 0 := by
    simpa [List.take_take] using hex_inj.mp zeros
  have amount : hexNumber ((hex data).drop 72) = bigEndian (data.drop 36) := by
    rw [← hexNumber_hex, ← hex_drop 36]
  have recipient : (hex ((data.drop 4).take 32)).drop 24 = hex ((data.drop 16).take 20) := by
    have parts : ((data.drop 4).take 32).drop 12 = (data.drop 16).take 20 := by
      rw [List.drop_take, List.drop_drop]
    rw [← parts, ← hex_drop 12]
  refine ⟨?_, ?_⟩
  · rw [tokenCall, if_pos ⟨length, hex_inj.mp bytes, leading⟩, amount]
  · rw [recipient]
    rfl

theorem decodeTransferContract_ok {value : Bytes} {got : DecodedTransfer}
    (decoded : decodeTransferContract value = .ok got)
    : ∃ f, readFields value = .ok f
      ∧ Decodes got (.transfer (bytesOf f 1) (bytesOf f 2) (valueOf f 3)) := by
  unfold decodeTransferContract at decoded
  cases fields : readFields value with
  | error err =>
      rw [fields] at decoded
      cases decoded
  | ok f =>
      rw [fields] at decoded
      obtain rfl := Except.ok.inj decoded
      exact ⟨f, rfl, rfl, rfl, rfl, rfl, rfl⟩

theorem decodeTriggerSmartContract_ok {value : Bytes} {got : DecodedTransfer}
    (decoded : decodeTriggerSmartContract value = .ok got)
    : ∃ f, readFields value = .ok f
      ∧ Decodes got
          (.trigger (bytesOf f 1) (bytesOf f 2) (valueOf f 3) (bytesOf f 4)) := by
  unfold decodeTriggerSmartContract at decoded
  cases fields : readFields value with
  | error err =>
      rw [fields] at decoded
      cases decoded
  | ok f =>
      simp only [fields, bind, Except.bind, throw, throwThe, MonadExceptOf.throw] at decoded
      split at decoded
      · cases decoded
      case isFalse plain =>
        split at decoded
        · cases decoded
        case isFalse nothing =>
          split at decoded
          · cases decoded
          case isFalse word =>
            obtain rfl := Except.ok.inj decoded
            obtain ⟨long, selector⟩ := not_or.mp plain
            obtain ⟨call, recipient⟩ := tokenCall_of_hex (not_not.mp long) (not_not.mp selector)
              (by simpa using word)
            have free : valueOf f 3 = 0 := not_not.mp nothing
            exact ⟨f, rfl, rfl, rfl, rfl, by rw [free]; rfl, _, call, recipient⟩

/-- A body that is decoded has a first reading, and is decoded as it says. -/
theorem decodeRawData_ok {raw : Bytes} {got : DecodedTransfer}
    (decoded : decodeRawData raw = .ok got)
    : ∃ contract, firstReading raw = some contract ∧ Decodes got contract := by
  unfold decodeRawData at decoded
  unfold firstReading
  cases body : readFields raw with
  | error err =>
      rw [body] at decoded
      cases decoded
  | ok fields =>
      simp only [body, bind, Except.bind, throw, throwThe, MonadExceptOf.throw] at decoded
      split at decoded
      case h_2 => cases decoded
      case h_1 contract only =>
        cases entry : readFields contract with
        | error err =>
            simp only [entry] at decoded
            cases decoded
        | ok c =>
            cases any : readFields (bytesOf c 2) with
            | error err =>
                simp only [entry, any] at decoded
                cases decoded
            | ok anyFields =>
                simp only [entry, any] at decoded
                split at decoded
                case h_1 => cases decoded
                case h_2 value found =>
                  simp only [Except.toOption, Option.map_some, only, entry, Option.bind_some, any,
                    found]
                  split at decoded
                  case isTrue native =>
                    obtain ⟨f, message, decodes⟩ := decodeTransferContract_ok decoded
                    refine ⟨_, ?_, decodes⟩
                    simp [message, native]
                  case isFalse notNative =>
                    split at decoded
                    case isTrue token =>
                      obtain ⟨f, message, decodes⟩ := decodeTriggerSmartContract_ok decoded
                      refine ⟨_, ?_, decodes⟩
                      simp [message, token, contractTypeTransfer,
                        contractTypeTriggerSmartContract]
                    case isFalse => cases decoded

/-- What `matchIntent` compares. -/
theorem matchIntent_ok_iff (hashing : TxHashing) (intent : TronTransferIntent)
    (got : DecodedTransfer)
    : matchIntent hashing intent got = .ok ()
      ↔ got.ownerHex = normalized hashing intent.ownerHex
        ∧ got.toHex = normalized hashing intent.toHex
        ∧ (got.amount : Int) = intent.amountBaseUnits
        ∧ match intent.contractHex.map (normalized hashing) with
          | none => got.type = contractTypeTransfer
          | some contractHex => got.contractHex = some contractHex := by
  unfold matchIntent
  simp only [bind, Except.bind, throw, throwThe, MonadExceptOf.throw, pure, Except.pure]
  by_cases owner : got.ownerHex = normalized hashing intent.ownerHex
  case neg => simp [owner]
  by_cases recipient : got.toHex = normalized hashing intent.toHex
  case neg => simp [owner, recipient]
  by_cases amount : (got.amount : Int) = intent.amountBaseUnits
  case neg => simp [owner, recipient, amount]
  cases intent.contractHex.map (normalized hashing) with
  | none => by_cases type : got.type = contractTypeTransfer <;> simp [owner, recipient, amount, type]
  | some contractHex =>
      by_cases token : got.contractHex = some contractHex <;>
        simp [owner, recipient, amount, token]

/-- What is decoded as authorized was decoded from a contract that is. -/
theorem authorized_of_matchIntent {hashing : TxHashing} {intent : TronTransferIntent}
    {got : DecodedTransfer} {contract : TronContract}
    (matches_ : matchIntent hashing intent got = .ok ()) (decodes : Decodes got contract)
    : Authorized hashing intent contract := by
  obtain ⟨from_, to_, sum, chosen⟩ := (matchIntent_ok_iff hashing intent got).mp matches_
  cases contract with
  | other type => exact decodes.elim
  | transfer =>
      obtain ⟨type, own, paid, value, native⟩ := decodes
      cases token : intent.contractHex with
      | none => exact ⟨token, own ▸ from_, paid ▸ to_, value ▸ sum⟩
      | some wanted =>
          rw [token, native] at chosen
          cases chosen
  | trigger =>
      obtain ⟨type, own, called, free, to20, call, paid⟩ := decodes
      refine ⟨?_, own ▸ from_, free, to20, got.amount, call, paid ▸ to_, sum⟩
      cases token : intent.contractHex with
      | none =>
          rw [token] at chosen
          exact absurd (type.symm.trans chosen) (by decide)
      | some wanted =>
          rw [token] at chosen
          exact chosen.symm.trans called

/-- The transaction that a node returns with a body, in the hexadecimal text of its bytes. -/
def nodeTransaction (txID : Option String) (raw : Bytes) : NodeTransaction :=
  { txID, rawDataHex := some (String.ofList (hex raw)) }

/-- A body whose hash is signed has a first reading, which makes the transfer authorized. -/
theorem firstReading_of_accepted {hashing : TxHashing} {txID : Option String} {raw digest : Bytes}
    {intent : TronTransferIntent}
    (accepted : verifiedTronSigningHash hashing (nodeTransaction txID raw) intent = .ok digest)
    : ∃ contract, firstReading raw = some contract ∧ Authorized hashing intent contract := by
  unfold verifiedTronSigningHash at accepted
  simp only [nodeTransaction, Option.getD_some, normalized_hex, bind, Except.bind, pure,
    Except.pure, throw, throwThe, MonadExceptOf.throw] at accepted
  split at accepted
  · cases accepted
  · split at accepted
    · cases accepted
    · cases decoded : decodeTronRawData (hex raw) with
      | error err =>
          rw [decoded] at accepted
          cases accepted
      | ok got =>
          simp only [decoded] at accepted
          cases matched : matchIntent hashing intent got with
          | error err =>
              rw [matched] at accepted
              cases accepted
          | ok done =>
              simp only [decodeTronRawData, withoutHexPrefix_hex, fromHex_hex] at decoded
              split at decoded
              · cases decoded
              · obtain ⟨contract, reads, decodes⟩ := decodeRawData_ok decoded
                exact ⟨contract, reads, authorized_of_matchIntent matched decodes⟩

end Cixtech.Tron.TxVerify
