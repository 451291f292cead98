import Cixtech.Ingest.DepositIngestor

/-! The TRC20 rows of a TronGrid response: the schema that they are parsed with, and the
deposit that a row becomes.
-/

namespace Cixtech.Tron

open Cixtech.Common Cixtech.Ingest

/-- Whether the text matches `/^\d+$/`. -/
def isDigits (text : String) : Bool := text ≠ "" && text.toList.all Char.isDigit

structure TokenInfo where
  symbol : String
  address : String
  decimals : Nat
  deriving DecidableEq, Repr

/-- A row that the schema accepts. Its value is a nonempty text of digits. -/
structure Trc20Tx where
  transactionId : String
  from_ : String
  to_ : String
  type_ : String
  value : String
  digits : isDigits value = true
  tokenInfo : TokenInfo
  blockTimestamp : Option JsNumber

namespace Trc20Tx

def parseTokenInfo (json : Json) : Option TokenInfo := do
  let symbol ← json.required "symbol" Json.nonemptyString
  let address ← json.required "address" Json.nonemptyString
  let decimals ← json.required "decimals" Json.nonnegativeInt
  return { symbol, address, decimals }

def parse (json : Json) : Option Trc20Tx := do
  let transactionId ← json.required "transaction_id" Json.nonemptyString
  let from_ ← json.required "from" Json.nonemptyString
  let to_ ← json.required "to" Json.nonemptyString
  let type_ ← json.required "type" Json.string
  let value ← json.required "value" Json.string
  let tokenInfo ← json.required "token_info" parseTokenInfo
  let blockTimestamp ← json.optional "block_timestamp" Json.finiteNumber
  if digits : isDigits value = true then
    return { transactionId, from_, to_, type_, value, digits, tokenInfo, blockTimestamp }
  else none

/-- `BigInt(value)`, for a text of digits. -/
def amount (tx : Trc20Tx) : Nat :=
  tx.value.toList.foldl (fun number digit => 10 * number + (digit.toNat - '0'.toNat)) 0

end Trc20Tx

/-- The deposit of a row, none for a row that is no transfer. Its index is always 0. -/
def toDeposit (casing : Casing) (tx : Trc20Tx) : Option ChainDeposit :=
  if tx.type_ ≠ "Transfer" then none
  else
    some
      { chain := "TRON", txId := tx.transactionId, index := 0, to_ := tx.to_, from_ := tx.from_
        asset := casing.toUpperCase tx.tokenInfo.symbol
        tokenContract := some tx.tokenInfo.address, amountBaseUnits := tx.amount
        blockNumber := none }

/-- The deposits of a response, none where the schema rejects it. -/
def parseTrc20Response (casing : Casing) (raw : Json) : Option (List ChainDeposit) := do
  let rows ← raw.required "data" (Json.arrayOf Trc20Tx.parse)
  return rows.filterMap (toDeposit casing)

/-- Every deposit of a response is on TRON, has index 0 and is not negative. -/
theorem parseTrc20Response_spec {casing : Casing} {raw : Json} {deposits : List ChainDeposit}
    (parsed : parseTrc20Response casing raw = some deposits)
    : ∀ deposit ∈ deposits,
        deposit.chain = "TRON" ∧ deposit.index = 0 ∧ 0 ≤ deposit.amountBaseUnits
          ∧ deposit.blockNumber = none := by
  unfold parseTrc20Response at parsed
  obtain ⟨rows, -, found⟩ := Option.bind_eq_some_iff.mp parsed
  obtain rfl := Option.some.inj found
  intro deposit member
  obtain ⟨tx, -, built⟩ := List.mem_filterMap.mp member
  unfold toDeposit at built
  split at built
  · cases built
  · obtain rfl := Option.some.inj built
    exact ⟨rfl, rfl, Int.natCast_nonneg _, rfl⟩

end Cixtech.Tron
