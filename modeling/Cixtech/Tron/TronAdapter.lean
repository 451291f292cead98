import Cixtech.Tron.Trc20

/-! The deposit source of TRON: the rows of one request, of which those are kept whose
transaction is in a solidified block.
-/

namespace Cixtech.Tron

open Cixtech.Common Cixtech.Ingest

/-- What the node answers to the calls of one fetch. Its transactions are looked up in order,
so a lookup is told by its position.
-/
structure TronNode where
  response : Except AppError Json
  /-- `block_header?.raw_data?.number`. -/
  solidified : Except AppError (Option Int)
  transactionBlock : Nat → String → Except AppError (Option Int)
  /-- What the schema library throws on a response that it rejects. -/
  rejection : AppError

namespace TronAdapter

def fetchInboundTrc20 (casing : Casing) (node : TronNode)
    : Except AppError (List ChainDeposit) := do
  let raw ← node.response
  match parseTrc20Response casing raw with
  | none => throw node.rejection
  | some deposits => return deposits

/-- The loop over the deposits from a position on. -/
def confirmed (node : TronNode) (solidified : Int)
    : Nat → List ChainDeposit → Except AppError (List ChainDeposit)
  | _, [] => return []
  | position, deposit :: rest => do
      let block ← node.transactionBlock position deposit.txId
      let later ← confirmed node solidified (position + 1) rest
      match block with
      | some block =>
          if block > 0 ∧ block ≤ solidified then
            return { deposit with blockNumber := some block.toNat } :: later
          else return later
      | none => return later

def confirmedInboundTrc20 (casing : Casing) (node : TronNode)
    : Except AppError (List ChainDeposit) := do
  let deposits ← fetchInboundTrc20 casing node
  if deposits = [] then return []
  let solidified ← node.solidified
  confirmed node (solidified.getD 0) 0 deposits

/-- A confirmed deposit is one of the deposits with its block number filled in, by induction
on the deposits.
-/
theorem mem_confirmed {node : TronNode} {solidified : Int} {position : Nat}
    {deposits kept : List ChainDeposit}
    (done : confirmed node solidified position deposits = .ok kept)
    : ∀ deposit ∈ kept, ∃ original ∈ deposits, ∃ block,
        deposit = { original with blockNumber := some block } := by
  induction deposits generalizing position kept with
  | nil =>
      obtain rfl := Except.ok.inj done
      simp
  | cons head rest ih =>
      unfold confirmed at done
      cases block : node.transactionBlock position head.txId with
      | error err =>
          rw [block] at done
          cases done
      | ok found =>
          cases tail : confirmed node solidified (position + 1) rest with
          | error err =>
              rw [block, tail] at done
              cases done
          | ok later =>
              have further : ∀ deposit ∈ later, ∃ original ∈ head :: rest, ∃ block,
                  deposit = { original with blockNumber := some block } := by
                intro deposit member
                obtain ⟨original, inRest, block, same⟩ := ih tail deposit member
                exact ⟨original, List.mem_cons_of_mem _ inRest, block, same⟩
              simp only [block, tail, bind, Except.bind, pure, Except.pure] at done
              split at done
              case h_1 number =>
                split at done
                · obtain rfl := Except.ok.inj done
                  intro deposit member
                  rcases List.mem_cons.mp member with rfl | inLater
                  · exact ⟨head, List.mem_cons_self, number.toNat, rfl⟩
                  · exact further deposit inLater
                · obtain rfl := Except.ok.inj done
                  exact further
              case h_2 =>
                obtain rfl := Except.ok.inj done
                exact further

/-- Every confirmed deposit is on TRON and has index 0. -/
theorem confirmedInboundTrc20_spec {casing : Casing} {node : TronNode}
    {deposits : List ChainDeposit} (done : confirmedInboundTrc20 casing node = .ok deposits)
    : ∀ deposit ∈ deposits, deposit.chain = "TRON" ∧ deposit.index = 0 := by
  unfold confirmedInboundTrc20 fetchInboundTrc20 at done
  cases response : node.response with
  | error err =>
      rw [response] at done
      cases done
  | ok raw =>
      cases parsed : parseTrc20Response casing raw with
      | none =>
          simp only [response, parsed, bind, Except.bind, throw, throwThe,
            MonadExceptOf.throw] at done
          cases done
      | some rows =>
          simp only [response, parsed, bind, Except.bind, pure, Except.pure] at done
          split at done
          · obtain rfl := Except.ok.inj done
            simp
          · cases solid : node.solidified with
            | error err =>
                rw [solid] at done
                cases done
            | ok solidified =>
                rw [solid] at done
                intro deposit member
                obtain ⟨original, inRows, block, rfl⟩ := mem_confirmed done deposit member
                have facts := parseTrc20Response_spec parsed original inRows
                exact ⟨facts.1, facts.2.1⟩

end TronAdapter

end Cixtech.Tron
