import Cixtech.Evm.Abi
import Cixtech.Tron.CanonicalBodies

/-! The call data of TRC-20 transfers, written as hexadecimal text from the base58 spelling of an
address, beside the bytes that the same transfer has on an EVM chain.
-/

namespace Cixtech.Tron

open Cixtech.Common Cixtech.Evm Cixtech.Foundation Cixtech.Foundation.Protobuf Cixtech.Payout
open Cixtech.Tron.TxVerify

/-- Write the argument words of a transfer. The bytes of a base58 text come from a library. -/
def abiEncodeTransfer (decodeTron : String → Except AppError Bytes) (toBase58 : String)
    (amount : Int)
    : Except AppError (List Char) := do
  if amount ≤ 0 then throw (.plain s!"transfer amount must be positive, got {amount}")
  let to20 := (← decodeTron toBase58).drop 1
  let addr := (hex to20).leftpad 64 '0'
  let value := (Nat.toDigits 16 amount.toNat).leftpad 64 '0'
  return addr ++ value

-----------------------------------------------------------------------------
-- The argument words

theorem leftpad_hex {account : Bytes} (sized : account.length = 20)
    : (hex account).leftpad 64 '0' = hex (List.replicate 12 0 ++ account) := by
  rw [List.leftpad, length_hex, sized, hex_append, hex_zeros]

/-- The text of a transfer's arguments: two words, or more digits than they hold. -/
theorem abiEncodeTransfer_eq {decodeTron : String → Except AppError Bytes} {toBase58 : String}
    {account : Bytes} (sized : account.length = 20)
    (decoded : decodeTron toBase58 = .ok (0x41 :: account)) {amount : Int}
    (positive : 1 ≤ amount)
    : abiEncodeTransfer decodeTron toBase58 amount
      = .ok
          (hex (List.replicate 12 0 ++ account)
            ++ (Nat.toDigits 16 amount.toNat).leftpad 64 '0') := by
  have sign : ¬ amount ≤ 0 := by omega
  simp only [abiEncodeTransfer, sign, if_false, decoded, bind, Except.bind, pure, Except.pure,
    List.drop_succ_cons, List.drop_zero, leftpad_hex sized]

-----------------------------------------------------------------------------
-- What the check makes of them

/-- The refusal of call data that is not four bytes and two words. -/
def notPlainTransfer (data : List Char) : AppError :=
  txMismatch "Node returned a contract call that is not a plain TRC20 transfer(address,uint256)"
    [ ("selector", .text (String.ofList (data.take 8))),
      ("calldataBytes", .number (data.length / 2)) ]

theorem decodeTriggerSmartContract_of_length {message : Bytes} {f : List TxVerify.Field}
    (read : readFields message = .ok f) (long : (hex (bytesOf f 4)).length ≠ 136)
    : decodeTriggerSmartContract message = .error (notPlainTransfer (hex (bytesOf f 4))) := by
  simp only [decodeTriggerSmartContract, read, bind, Except.bind, long, ne_eq, not_false_eq_true,
    true_or, if_true]
  rfl

/-- A message with the call data of a transfer, and no native amount, is decoded as it. -/
theorem decodeTriggerSmartContract_of_callData {message account : Bytes} {number : Nat}
    {f : List TxVerify.Field} (sized : account.length = 20) (small : number < 2 ^ 256)
    (read : readFields message = .ok f) (free : valueOf f 3 = 0)
    (data
      : bytesOf f 4
        = [0xa9, 0x05, 0x9c, 0xbb] ++ List.replicate 12 0 ++ account
          ++ BigEndian.fixed 32 number)
    : decodeTriggerSmartContract message
      = .ok
          { type := contractTypeTriggerSmartContract, ownerHex := hex (bytesOf f 1)
            toHex := hex (0x41 :: account), amount := number
            contractHex := some (hex (bytesOf f 2)) } := by
  let transfer : TronTransfer :=
    { owner := List.replicate 21 0, account, amount := number
      token := some { address := List.replicate 21 0, callValue := 0 }
      owner_length := rfl, account_length := sized, address_length := by simp
      callValue_lt := by simp, amount_lt := by simpa using small }
  obtain ⟨long, selector, word, account_, amount⟩ := callData_spec transfer rfl
  have called : bytesOf f 4 = transfer.callData := data
  unfold decodeTriggerSmartContract
  simp only [read, called, free, bind, Except.bind, long, selector, ne_eq, not_true_eq_false,
    or_self, if_false, word, Bool.not_true, account_, amount]
  rfl

/-- A decoded token transfer has an amount that fits a word, and a decoded native transfer has no
token.
-/
theorem amount_lt_of_decodes {got : DecodedTransfer} {contract : TronContract}
    (decodes : Decodes got contract)
    : got.contractHex = none ∨ got.amount < 2 ^ 256 := by
  cases contract with
  | transfer owner recipient amount => exact .inl decodes.2.2.2.2
  | trigger owner contract callValue data =>
      obtain ⟨-, -, -, -, recipient, call, -⟩ := decodes
      unfold tokenCall at call
      split at call
      case isFalse => cases call
      case isTrue plain =>
        have amount := (Prod.mk.inj (Option.some.inj call)).2
        have small := BigEndian.value_lt (data.drop 36)
        rw [List.length_drop, plain.1] at small
        exact .inr (amount ▸ small)
  | other type => exact decodes.elim

/-- The check takes no token transfer of an amount that overflows its word, whatever body the
node returns.
-/
theorem verified_of_overflow (hashing : TxHashing) (tx : NodeTransaction)
    {intent : TronTransferIntent} (token : intent.contractHex.isSome)
    (large : 2 ^ 256 ≤ intent.amountBaseUnits)
    : ∃ err, verifiedTronSigningHash hashing tx intent = .error err
      ∧ err.code = .tronTxMismatch := by
  have refused : ∀ digest, verifiedTronSigningHash hashing tx intent ≠ .ok digest := by
    intro digest accepted
    unfold verifiedTronSigningHash at accepted
    simp only [bind, Except.bind, pure, Except.pure, throw, throwThe, MonadExceptOf.throw]
      at accepted
    split at accepted
    case isTrue => cases accepted
    case isFalse =>
      split at accepted
      case isTrue => cases accepted
      case isFalse =>
        cases decoded : decodeTronRawData (normalized hashing (tx.rawDataHex.getD "")) with
        | error err =>
            rw [decoded] at accepted
            cases accepted
        | ok got =>
            simp only [decoded] at accepted
            cases matched : matchIntent hashing intent got with
            | error err =>
                rw [matched] at accepted
                cases accepted
            | ok done =>
                unfold decodeTronRawData at decoded
                dsimp only at decoded
                split at decoded
                case isTrue => cases decoded
                case isFalse =>
                  obtain ⟨contract, -, decodes⟩ := decodeRawData_ok decoded
                  obtain ⟨-, -, amount, chosen⟩ :=
                    (matchIntent_ok_iff hashing intent got).mp matched
                  obtain ⟨wanted, present⟩ := Option.isSome_iff_exists.mp token
                  rw [present] at chosen
                  rcases amount_lt_of_decodes decodes with native | small
                  · rw [native] at chosen
                    cases chosen
                  · omega
  cases result : verifiedTronSigningHash hashing tx intent with
  | ok digest => exact absurd result (refused digest)
  | error err => exact ⟨err, rfl, mismatches_verified hashing tx intent err result⟩

/-- The words that the TRON payouts ask a node for are those of the call data that the EVM payouts
send to the same account, and behind the selector the check decodes them as the transfer that
they were written for. An amount that does not fit a word is refused by the one encoder; the
other spells it in more digits than the check takes, and whatever a node makes of them is not
signed.
-/
theorem transfer_encodings_agree (keccak256 : Bytes → Bytes)
    (decodeTron : String → Except AppError Bytes) {account : Bytes} {toAddress toBase58 : String}
    (sized : account.length = 20)
    (selects : selector keccak256 "transfer(address,uint256)" = [0xa9, 0x05, 0x9c, 0xbb])
    (spelled : normalizeHexAddress toAddress = .ok (String.ofList (hex account)))
    (decoded : decodeTron toBase58 = .ok (0x41 :: account)) (amount : Int)
    : (1 ≤ amount
        → amount < 2 ^ 256
        → ∃ callData parameter,
          erc20TransferData keccak256 toAddress amount = .ok callData
          ∧ abiEncodeTransfer decodeTron toBase58 amount = .ok parameter
          ∧ parameter = hex (callData.drop 4)
          ∧ fromHex (transferSelector.toList ++ parameter) = callData
          ∧ ∀ (message : Bytes) (f : List TxVerify.Field),
            readFields message = .ok f
            → bytesOf f 4 = fromHex (transferSelector.toList ++ parameter)
            → valueOf f 3 = 0
            → decodeTriggerSmartContract message
              = .ok
                  { type := contractTypeTriggerSmartContract, ownerHex := hex (bytesOf f 1)
                    toHex := hex (0x41 :: account), amount := amount.toNat
                    contractHex := some (hex (bytesOf f 2)) })
      ∧ (2 ^ 256 ≤ amount
        → erc20TransferData keccak256 toAddress amount = .error wordOverflow
          ∧ (∃ parameter,
            abiEncodeTransfer decodeTron toBase58 amount = .ok parameter
            ∧ ∀ (message : Bytes) (f : List TxVerify.Field),
              readFields message = .ok f
              → (transferSelector.toList ++ parameter).length ≤ (hex (bytesOf f 4)).length
              → decodeTriggerSmartContract message
                = .error (notPlainTransfer (hex (bytesOf f 4))))
          ∧ ∀ (hashing : TxHashing) (tx : NodeTransaction) (intent : TronTransferIntent),
            intent.contractHex.isSome
            → intent.amountBaseUnits = amount
            → ∃ err, verifiedTronSigningHash hashing tx intent = .error err
              ∧ err.code = .tronTxMismatch) := by
  refine ⟨fun positive small => ?_, fun large => ?_⟩
  · have fits : amount.toNat < 256 ^ 32 := by
      rw [show 256 ^ 32 = 2 ^ 256 from rfl]
      omega
    have words : hex (List.replicate 12 0 ++ account) ++ hex (BigEndian.fixed 32 amount.toNat)
        = hex (List.replicate 12 0 ++ account ++ BigEndian.fixed 32 amount.toNat) :=
      (hex_append _ _).symm
    have whole : transferSelector.toList = hex [0xa9, 0x05, 0x9c, 0xbb] := by decide
    have text : ∀ arguments, fromHex (transferSelector.toList ++ hex arguments)
        = [0xa9, 0x05, 0x9c, 0xbb] ++ arguments := by
      intro arguments
      rw [whole, ← hex_append, fromHex_hex]
    have sign : 0 ≤ amount := by omega
    have sent := erc20TransferData_eq keccak256 sized spelled sign
    rw [if_pos small, selects] at sent
    refine ⟨_, _, sent, abiEncodeTransfer_eq sized decoded positive, ?_, ?_, ?_⟩
    · rw [leftpad_digits (by omega) fits, words]
      simp
    · rw [leftpad_digits (by omega) fits, words, text]
      simp
    · intro message f read data free
      rw [leftpad_digits (by omega) fits, words, text] at data
      exact decodeTriggerSmartContract_of_callData sized (by omega) read free (by simp [data])
  · have digits : 64 < (Nat.toDigits 16 amount.toNat).length := by
      have count : (Nat.toDigits 16 amount.toNat).length ≤ 64 ↔ amount.toNat < 2 ^ 256 :=
        Nat.length_toDigits_le_iff (by decide) (by decide)
      omega
    refine ⟨?_, ⟨_, abiEncodeTransfer_eq sized decoded (by omega), ?_⟩, ?_⟩
    · rw [erc20TransferData_eq keccak256 sized spelled (by omega), if_neg (by omega)]
    · intro message f read long
      refine decodeTriggerSmartContract_of_length read ?_
      have selector : transferSelector.toList.length = 8 := by decide
      simp only [List.length_append, length_hex, List.length_replicate, sized, selector,
        List.leftpad] at long
      rw [length_hex]
      omega
    · rintro hashing tx intent token rfl
      exact verified_of_overflow hashing tx token large

/-- The Keccak-256 hash of `transfer(address,uint256)`. -/
def transferHash : Bytes :=
  [ 0xa9, 0x05, 0x9c, 0xbb, 0x2a, 0xb0, 0x9e, 0xb2, 0x19, 0x58, 0x3f, 0x4a, 0x59, 0xa5, 0xd0,
    0x62, 0x3a, 0xde, 0x34, 0x6d, 0x96, 0x2b, 0xcd, 0x4e, 0x46, 0xb1, 0x1d, 0xa0, 0x47, 0xc9,
    0x04, 0x9b ]

/-- The account of TJkyXySVnHjqo6VDoRNxUoCh524ViKuv5h. -/
def sampleAccount : Bytes :=
  [ 0x60, 0x68, 0xe6, 0x1a, 0x64, 0x41, 0x06, 0x17, 0x44, 0x6c, 0x09, 0xf7, 0x6e, 0x23, 0x35,
    0x8f, 0xe9, 0x5f, 0x3b, 0x3e ]

/-- One token of six decimals to the sample account, in either encoding. -/
theorem transfer_encodings_agree_sample
    : ∃ callData parameter,
      erc20TransferData (fun _ => transferHash) "0x6068E61a64410617446c09f76e23358fe95f3b3e" 1000000
          = .ok callData
      ∧ abiEncodeTransfer (fun _ => .ok (0x41 :: sampleAccount))
          "TJkyXySVnHjqo6VDoRNxUoCh524ViKuv5h" 1000000
        = .ok parameter
      ∧ parameter = hex (callData.drop 4) := by
  obtain ⟨callData, parameter, sent, asked, same, -⟩ :=
    (@transfer_encodings_agree (fun _ => transferHash) (fun _ => .ok (0x41 :: sampleAccount))
      sampleAccount "0x6068E61a64410617446c09f76e23358fe95f3b3e"
      "TJkyXySVnHjqo6VDoRNxUoCh524ViKuv5h" (by decide) (by decide) (by decide +kernel) rfl
      1000000).1 (by decide) (by decide)
  exact ⟨callData, parameter, sent, asked, same⟩

end Cixtech.Tron
