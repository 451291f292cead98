import Cixtech.Evm.Abi
import Cixtech.Evm.EvmTx

/-! What a network reads in the bytes that are signed for a type 2 transaction, by the standard
reading of the recursive length prefix and of the contract ABI.
-/

namespace Cixtech.Evm

open Cixtech.Common Cixtech.Foundation Cixtech.Foundation.Protobuf Cixtech.Payout
open Cixtech.Tron.TxVerify (hex)

-----------------------------------------------------------------------------
-- What a transaction asks of the network

structure NetworkCall where
  chainId : Nat
  nonce : Nat
  maxPriorityFeePerGas : Nat
  maxFeePerGas : Nat
  gasLimit : Nat
  recipient : Bytes
  value : Nat
  data : Bytes
  deriving DecidableEq, Repr

/-- The call behind the type byte. Whatever follows the list makes the bytes no transaction. -/
def readPreimage : Bytes → Option NetworkCall
  | [] => none
  | type :: rest =>
      if type ≠ txType then none
      else
        match Rlp.decode rest with
        | some
            (.list
              [ .bytes chainId, .bytes nonce, .bytes maxPriorityFeePerGas, .bytes maxFeePerGas,
                .bytes gasLimit, .bytes recipient, .bytes value, .bytes data, .list [] ],
            []) =>
            some
              { chainId := BigEndian.value chainId, nonce := BigEndian.value nonce
                maxPriorityFeePerGas := BigEndian.value maxPriorityFeePerGas
                maxFeePerGas := BigEndian.value maxFeePerGas
                gasLimit := BigEndian.value gasLimit, recipient
                value := BigEndian.value value, data }
        | _ => none

/-- The account and the amount of a call of `transfer(address,uint256)`. -/
def transferCall (data : Bytes) : Option (Bytes × Nat) :=
  if data.length = 68 ∧ data.take 4 = [0xa9, 0x05, 0x9c, 0xbb]
      ∧ (data.drop 4).take 12 = List.replicate 12 0 then
    some ((data.drop 16).take 20, BigEndian.value (data.drop 36))
  else none

-----------------------------------------------------------------------------
-- What is refused

/-- A negative integer is nothing that is encoded. -/
theorem toMinimalBytes_ok {n : Int} {b : Bytes} (written : toMinimalBytes n = .ok b) : 0 ≤ n := by
  unfold toMinimalBytes at written
  split at written
  · cases written
  · omega

mutual

/-- What is encoded holds no negative integer, by induction on the input. -/
theorem nonNegative_of_rlpEncode (input : RlpInput) {encoded : Bytes}
    (written : rlpEncode input = .ok encoded)
    : input.NonNegative := by
  cases input with
  | bytes b => trivial
  | bigint n =>
      rw [rlpEncode] at written
      cases least : toMinimalBytes n with
      | error err =>
          rw [least] at written
          cases written
      | ok b => exact toMinimalBytes_ok least
  | list items =>
      rw [rlpEncode] at written
      cases payload : rlpEncodeAll items with
      | error err =>
          rw [payload] at written
          cases written
      | ok b => exact allNonNegative_of_rlpEncodeAll items payload

theorem allNonNegative_of_rlpEncodeAll (inputs : List RlpInput) {encoded : Bytes}
    (written : rlpEncodeAll inputs = .ok encoded)
    : RlpInput.AllNonNegative inputs := by
  cases inputs with
  | nil => trivial
  | cons input inputs =>
      rw [rlpEncodeAll] at written
      cases first : rlpEncode input with
      | error err =>
          rw [first] at written
          cases written
      | ok b =>
          cases others : rlpEncodeAll inputs with
          | error err =>
              rw [first, others] at written
              cases written
          | ok rest =>
              exact ⟨nonNegative_of_rlpEncode input first,
                allNonNegative_of_rlpEncodeAll inputs others⟩

end

/-- A transaction that is signed has no negative field. -/
theorem nonNegative_of_signingPreimage {tx : Eip1559Tx} {preimage : Bytes}
    (signed : signingPreimage tx = .ok preimage)
    : tx.NonNegative := by
  obtain ⟨inputs, encoded, found, written, -⟩ := signingPreimage_ok signed
  obtain ⟨address, -, rfl⟩ := fields_ok found
  have signs := nonNegative_of_rlpEncode _ written
  simp only [RlpInput.NonNegative, RlpInput.AllNonNegative] at signs
  obtain ⟨chainId, nonce, priority, fee, gas, -, value, -⟩ := signs
  simp only [Eip1559Tx.NonNegative, List.forall_mem_cons]
  exact ⟨chainId, nonce, priority, fee, gas, value, fun _ none => absurd none List.not_mem_nil⟩

-----------------------------------------------------------------------------
-- What is read

/-- The network reads the fields of the transaction in what is signed for it. -/
theorem readPreimage_of_signed {tx : Eip1559Tx} {preimage : Bytes}
    (signed : signingPreimage tx = .ok preimage) (short : preimage.length < 2 ^ 64)
    : ∃ recipient,
        addressBytes tx.toAddress = .ok recipient
        ∧ readPreimage preimage
          = some
              { chainId := tx.chainId.toNat, nonce := tx.nonce.toNat
                maxPriorityFeePerGas := tx.maxPriorityFeePerGas.toNat
                maxFeePerGas := tx.maxFeePerGas.toNat, gasLimit := tx.gasLimit.toNat, recipient
                value := tx.value.toNat, data := tx.data } := by
  have signs := nonNegative_of_signingPreimage signed
  have fits := fits_of_signingPreimage signs signed short
  obtain ⟨inputs, encoded, found, written, rfl⟩ := signingPreimage_ok signed
  have small := fits inputs found
  have signsToo := nonNegative_fields signs found RlpInput.allNonNegative_nil
  rw [List.append_nil] at small signsToo
  obtain ⟨others, again, decoded⟩ := decode_rlpEncode signsToo small
  obtain rfl := Except.ok.inj (written.symm.trans again)
  obtain ⟨recipient, spelled, rfl⟩ := fields_ok found
  refine ⟨recipient, spelled, ?_⟩
  simp only [RlpInput.item, RlpInput.items] at decoded
  simp only [readPreimage, ne_eq, not_true_eq_false, if_false, decoded, BigEndian.value_minimal]

/-- The network reads the transfer in the call data that is written for it. -/
theorem transferCall_of_written {keccak256 : Bytes → Bytes}
    (selected
      : selector keccak256 "transfer(address,uint256)" = [0xa9, 0x05, 0x9c, 0xbb])
    {toAddress : String} {amount : Int} {data : Bytes}
    (written : erc20TransferData keccak256 toAddress amount = .ok data)
    : ∃ account, addressBytes toAddress = .ok account ∧ 0 ≤ amount
      ∧ transferCall data = some (account, amount.toNat) := by
  cases normal : normalizeHexAddress toAddress with
  | error err =>
      simp only [erc20TransferData, normal, bind, Except.bind] at written
      cases written
  | ok digits =>
      obtain ⟨long, small⟩ := normalizeHexAddress_digits normal
      have spells := hex_fromHex 20 long small
      have sized : (Cixtech.Tron.TxVerify.fromHex digits.toList).length = 20 := by
        have lengths := congrArg List.length spells
        rw [Cixtech.Tron.TxVerify.length_hex, long] at lengths
        omega
      refine ⟨Cixtech.Tron.TxVerify.fromHex digits.toList, by rw [addressBytes, normal]; rfl, ?_⟩
      generalize Cixtech.Tron.TxVerify.fromHex digits.toList = account at spells sized
      have sign : 0 ≤ amount := by
        cases least : toMinimalBytes amount with
        | ok b => exact toMinimalBytes_ok least
        | error err =>
            simp only [erc20TransferData, normal, least, bind, Except.bind] at written
            split at written <;> cases written
      have spelled : normalizeHexAddress toAddress = .ok (String.ofList (hex account)) := by
        rw [normal, spells, String.ofList_toList]
      rw [erc20TransferData_eq keccak256 sized spelled sign, selected] at written
      split at written
      case isFalse => cases written
      case isTrue bounded =>
        obtain rfl := Except.ok.inj written
        have wide : (BigEndian.fixed 32 amount.toNat).length = 32 := BigEndian.length_fixed _ _
        have fits : amount.toNat < 256 ^ 32 := by
          rw [show (256 : Nat) ^ 32 = 2 ^ 256 from rfl]
          omega
        refine ⟨sign, ?_⟩
        have behind : ([0xa9, 0x05, 0x9c, 0xbb] ++ (List.replicate 12 0 ++ account)
            ++ BigEndian.fixed 32 amount.toNat).drop 36 = BigEndian.fixed 32 amount.toNat :=
          List.drop_left' (by simp [sized])
        have middle : (([0xa9, 0x05, 0x9c, 0xbb] ++ (List.replicate 12 0 ++ account)
            ++ BigEndian.fixed 32 amount.toNat).drop 16).take 20 = account := by
          rw [List.append_assoc, List.append_assoc, ← List.append_assoc _ (List.replicate 12 0),
            List.drop_left' (by simp), List.take_left' sized]
        rw [transferCall, if_pos ⟨by simp [sized, wide], by simp, by simp⟩, middle, behind,
          BigEndian.value_fixed fits]

end Cixtech.Evm
