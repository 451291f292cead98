import Cixtech.Tron.PlainBodies

/-! What is signed for a transaction as a node returned it, in whatever text the node wrote its
body.
-/

namespace Cixtech.Tron.TxVerify

open Cixtech.Common Cixtech.Foundation.Protobuf Cixtech.Payout

/-- A text that still starts with `0x` has no bytes. -/
theorem fromHex_of_prefixed {text : List Char} (prefixed : withoutHexPrefix text ≠ text)
    : fromHex text = [] := by
  unfold withoutHexPrefix at prefixed
  split at prefixed
  · have letter : AuthorizationSigner.hexDigit 'x' = none := by decide
    simp [fromHex, AuthorizationSigner.hexBytes, letter]
  · exact absurd rfl prefixed

/-- The hash that is signed is of a body that makes the authorized transfer by its first reading, or
of no bytes at all: the latter where the text of the body is prefixed twice, since the hash and the
check drop one prefix each.
-/
theorem verified_reads {hashing : TxHashing} {tx : NodeTransaction} {intent : TronTransferIntent}
    {digest : Bytes} (accepted : verifiedTronSigningHash hashing tx intent = .ok digest)
    : normalized hashing (tx.txID.getD "") = hex digest
      ∧ ∃ raw, digest = hashing.sha256 raw
        ∧ (raw = []
          ∨ ∃ contract, firstReading raw = some contract ∧ Authorized hashing intent contract) := by
  unfold verifiedTronSigningHash at accepted
  simp only [bind, Except.bind, pure, Except.pure, throw, throwThe, MonadExceptOf.throw] at accepted
  split at accepted
  · cases accepted
  · split at accepted
    · cases accepted
    · next hashed =>
      rw [not_or, not_not] at hashed
      cases decoded : decodeTronRawData (normalized hashing (tx.rawDataHex.getD "")) with
      | error err =>
          rw [decoded] at accepted
          cases accepted
      | ok got =>
          simp only [decoded] at accepted
          cases matched : matchIntent hashing intent got with
          | error err =>
              rw [matched] at accepted
              cases accepted
          | ok done =>
              rw [matched] at accepted
              obtain rfl := Except.ok.inj accepted
              refine ⟨hashed.2.symm, _, rfl, ?_⟩
              by_cases bare : withoutHexPrefix (normalized hashing (tx.rawDataHex.getD ""))
                  = normalized hashing (tx.rawDataHex.getD "")
              · rw [decodeTronRawData, bare] at decoded
                split at decoded
                · cases decoded
                · obtain ⟨contract, reads, decodes⟩ := decodeRawData_ok decoded
                  exact .inr ⟨contract, reads, authorized_of_matchIntent matched decodes⟩
              · exact .inl (fromHex_of_prefixed bare)

/-- No bytes are no transaction. -/
theorem networkReading_nil : networkReading [] = none := by decide

end Cixtech.Tron.TxVerify
