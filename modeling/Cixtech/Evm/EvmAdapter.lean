import Cixtech.Ingest.DepositIngestor

/-! The adapter of an EVM chain: the transfer logs of an address in a range of blocks and the
deposits that they become. A log counts where its contract is configured for a symbol.
-/

namespace Cixtech.Evm

open Cixtech.Common Cixtech.Ingest

/-- A log as the node reports it, its quantities in hexadecimal. -/
structure EvmLog where
  address : String
  topics : List String
  data : String
  blockNumber : String
  transactionHash : String
  logIndex : String
  deriving DecidableEq, Repr

/-- What the adapter takes from the language and from the hash library. -/
structure EvmCodec where
  toLowerCase : String → String
  /-- `BigInt(hex)`, which throws on a text that is no number. -/
  bigInt : String → Except AppError Nat
  /-- `Number(value)`, which rounds what is too large for it. -/
  number : Nat → Nat
  /-- The letter cases come from a Keccak hash; it throws on what is no address. -/
  toChecksumAddress : String → Except AppError String
  /-- `TRANSFER_EVENT_TOPIC`, the Keccak hash of the event's signature. -/
  transferEventTopic : String

structure EvmAdapterConfig where
  chain : String
  confirmations : Nat
  /-- The entries of the table, symbol and contract, in order. -/
  tokenContracts : List (String × String)
  initialLookbackBlocks : Nat

namespace EvmAdapter

section Parse

variable (codec : EvmCodec) (config : EvmAdapterConfig)

/-- `text.replace(/^0x/, "")`. -/
def withoutHexPrefix (text : String) : String :=
  match text.toList with
  | '0' :: 'x' :: rest => String.ofList rest
  | _ => text

def addressTopic (address : String) : String :=
  "0x" ++ String.ofList (List.replicate 24 '0') ++ withoutHexPrefix (codec.toLowerCase address)

/-- `topic.slice(-40)`. -/
def lastForty (topic : String) : String := String.ofList (topic.toList.drop (topic.length - 40))

def addressFromTopic (topic : String) : Except AppError String :=
  codec.toChecksumAddress ("0x" ++ lastForty topic)

def fromQuantity (hex : String) : Except AppError Nat :=
  if hex = "" ∨ hex = "0x" then .ok 0 else codec.bigInt hex

/-- `this.symbolByContract.get(…)`: the last entry of a contract counts, and an empty symbol
counts as none.
-/
def symbolOf (contract : String) : Option String :=
  match (config.tokenContracts.map fun (symbol, address) =>
      (codec.toLowerCase address, symbol)).reverse.lookup (codec.toLowerCase contract) with
  | none => none
  | some symbol => if symbol = "" then none else some symbol

/-- One round of the loop over the logs: a deposit, nothing, or an error. -/
def parseLog (log : EvmLog) : Except AppError (Option ChainDeposit) :=
  match log.topics with
  | event :: sender :: recipient :: _ =>
      if codec.toLowerCase event ≠ codec.transferEventTopic then .ok none
      else
        match symbolOf codec config log.address with
        | none => .ok none
        | some symbol => do
            let index ← fromQuantity codec log.logIndex
            let from_ ← addressFromTopic codec sender
            let to_ ← addressFromTopic codec recipient
            let tokenContract ← codec.toChecksumAddress log.address
            let amount ← fromQuantity codec log.data
            let blockNumber ← fromQuantity codec log.blockNumber
            return some
              { chain := config.chain, txId := log.transactionHash
                index := codec.number index, to_, from_, asset := symbol
                tokenContract := some tokenContract, amountBaseUnits := amount
                blockNumber := some (codec.number blockNumber) }
  | _ => .ok none

def parseDeposits : List EvmLog → Except AppError (List ChainDeposit)
  | [] => .ok []
  | log :: rest => do
      let deposit ← parseLog codec config log
      let later ← parseDeposits rest
      return deposit.toList ++ later

/-- The topics that a scan asks the node for. -/
def isTransferTo (address : String) (log : EvmLog) : Bool :=
  log.topics[0]? = some codec.transferEventTopic
    && log.topics[2]? = some (addressTopic codec address)

/-- `eth_getLogs` over a range of blocks, both ends included. -/
def getLogs (logsOf : Nat → List EvmLog) (address : String) (fromBlock toBlock : Nat)
    : List EvmLog :=
  ((List.range' fromBlock (toBlock + 1 - fromBlock)).flatMap logsOf).filter
    (isTransferTo codec address)

end Parse

variable {codec : EvmCodec} {config : EvmAdapterConfig}

/-- The deposits of a list of logs are those of its logs, by induction on the list. -/
theorem mem_parseDeposits {logs : List EvmLog} {deposits : List ChainDeposit}
    (parsed : parseDeposits codec config logs = .ok deposits) (deposit : ChainDeposit)
    : deposit ∈ deposits ↔ ∃ log ∈ logs, parseLog codec config log = .ok (some deposit) := by
  induction logs generalizing deposits with
  | nil =>
      obtain rfl := Except.ok.inj parsed
      simp
  | cons log rest ih =>
      unfold parseDeposits at parsed
      cases first : parseLog codec config log with
      | error err =>
          rw [first] at parsed
          cases parsed
      | ok found =>
          cases tail : parseDeposits codec config rest with
          | error err =>
              rw [first, tail] at parsed
              cases parsed
          | ok later =>
              simp only [first, tail, bind, Except.bind, pure, Except.pure] at parsed
              obtain rfl := Except.ok.inj parsed
              rw [List.mem_append, ih tail]
              cases found with
              | none => simp [first]
              | some own => simp [first, eq_comm]

theorem mem_getLogs {logsOf : Nat → List EvmLog} {address : String} {fromBlock toBlock : Nat}
    {log : EvmLog}
    : log ∈ getLogs codec logsOf address fromBlock toBlock
      ↔ (∃ block, fromBlock ≤ block ∧ block ≤ toBlock ∧ log ∈ logsOf block)
        ∧ isTransferTo codec address log = true := by
  rw [getLogs, List.mem_filter, List.mem_flatMap]
  refine and_congr_left fun _ => exists_congr fun block => ?_
  rw [List.mem_range'_1, and_assoc]
  refine and_congr_right fun low => and_congr_left fun _ => ?_
  omega

end EvmAdapter

end Cixtech.Evm
