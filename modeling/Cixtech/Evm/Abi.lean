import Cixtech.Evm.Rlp
import Cixtech.Payout.DestinationSpelling

/-! The call data of ERC-20 transfers: a selector and two words of 32 bytes. -/

namespace Cixtech.Evm

open Cixtech.Common Cixtech.Foundation Cixtech.Foundation.Protobuf Cixtech.Payout
open Cixtech.Tron.TxVerify (hex fromHex)

/-- The first bytes of the hash of a signature, all of whose letters are ASCII. -/
def selector (keccak256 : Bytes → Bytes) (signature : String) : Bytes :=
  (keccak256 (signature.toList.map fun letter => UInt8.ofNat letter.toNat)).take 4

def wordOverflow : AppError := .plain "ABI word overflow"

def word (bytes : Bytes) : Except AppError Bytes :=
  if bytes.length > 32 then .error wordOverflow
  else .ok (List.replicate (32 - bytes.length) 0 ++ bytes)

def erc20TransferData (keccak256 : Bytes → Bytes) (toAddress : String) (amount : Int)
    : Except AppError Bytes := do
  let addr := fromHex (← normalizeHexAddress toAddress).toList
  return selector keccak256 "transfer(address,uint256)" ++ (← word addr)
    ++ (← word (← toMinimalBytes amount))

/-- The least bytes of a number fill a word up to its size, and overflow it from there on. -/
theorem word_minimal (number : Nat)
    : word (BigEndian.minimal number)
      = if number < 2 ^ 256 then .ok (BigEndian.fixed 32 number) else .error wordOverflow := by
  have bytes : number < 2 ^ 256 ↔ (BigEndian.minimal number).length ≤ 32 := by
    rw [BigEndian.length_minimal_le, show 256 ^ 32 = 2 ^ 256 from rfl]
  unfold word
  by_cases small : number < 2 ^ 256
  · have fits : number < 256 ^ 32 := small
    rw [if_pos small, if_neg (Nat.not_lt.mpr (bytes.mp small)), BigEndian.fixed_eq fits]
  · rw [if_neg small, if_pos (Nat.not_le.mp fun short => small (bytes.mpr short))]

/-- The call data of a transfer to an account, or none where the amount overflows its word. -/
theorem erc20TransferData_eq (keccak256 : Bytes → Bytes) {toAddress : String} {account : Bytes}
    (sized : account.length = 20)
    (spelled : normalizeHexAddress toAddress = .ok (String.ofList (hex account))) {amount : Int}
    (sign : 0 ≤ amount)
    : erc20TransferData keccak256 toAddress amount
      = if amount < 2 ^ 256 then
          .ok (selector keccak256 "transfer(address,uint256)" ++ (List.replicate 12 0 ++ account)
            ++ BigEndian.fixed 32 amount.toNat)
        else .error wordOverflow := by
  have addr : fromHex (String.ofList (hex account)).toList = account := by
    rw [String.toList_ofList, Cixtech.Tron.TxVerify.fromHex_hex]
  have right : word account = .ok (List.replicate 12 0 ++ account) := by
    rw [word, if_neg (by omega), sized]
  have bound : amount.toNat < 2 ^ 256 ↔ amount < 2 ^ 256 := by omega
  simp only [erc20TransferData, spelled, addr, right, toMinimalBytes_of_nonneg sign, bind,
    Except.bind, word_minimal, bound]
  by_cases small : amount < 2 ^ 256
  · simp only [small, if_true]
    rfl
  · simp only [small, if_false]

end Cixtech.Evm
