import Cixtech.Common.Text
import Cixtech.Evm.NetworkCall
import Cixtech.Foundation.Handlers
import Cixtech.Foundation.Table
import Cixtech.Payout.AuthorizingBroadcaster
import Cixtech.Tron.SignedBodies
import Cixtech.Tron.TronEncoding

/-! The way of a transfer from the gate to a chain: the router, and the broadcasters that have a
transaction built or priced by a node, sign it and send it.
-/

namespace Cixtech.Chains

open Cixtech.Common Cixtech.Evm Cixtech.Foundation Cixtech.Foundation.Protobuf Cixtech.Payout
open Cixtech.Tron Cixtech.Tron.TxVerify Handlers

-----------------------------------------------------------------------------
-- What the nodes are asked

/-- The bodies of the posts to a TRON node. -/
inductive TronCall
  | triggerSmartContract (ownerAddress contractAddress parameter : List Char) (feeLimit : Int)
  | createTransaction (ownerAddress toAddress : List Char) (amount : Int)
  | broadcastTransaction (tx : NodeTransaction) (signature : List Char)

structure TriggerResponse where
  message : Option String
  transaction : Option NodeTransaction
  /-- `JSON.stringify(built)` -/
  json : String

structure CreateResponse where
  tx : NodeTransaction
  error : Option String
  json : String

structure BroadcastResponse where
  result : Bool
  code : Option String
  message : Option String
  json : String

/-- What an EVM node says of an account and of the fees, the priority fee as far as it does. -/
structure Quote where
  nonce : Int
  maxPriorityFeePerGas : Option Int
  baseFeePerGas : Int

inductive Command
  /-- `Date.now()`, when the gate looks at a request. -/
  | now (req : PayoutRequest)
  | postTron (baseUrl : String) (apiKey : Option String) (call : TronCall)
  /-- The three requests that are awaited together. -/
  | quote (url : String) (address : String)
  | sendRawTransaction (url : String) (raw : List Char)
  | signHash (index : Nat) (hash : Bytes)

def TronCall.Answer : TronCall → Type
  | .triggerSmartContract .. => TriggerResponse
  | .createTransaction .. => CreateResponse
  | .broadcastTransaction .. => BroadcastResponse

def Command.Answer : Command → Type
  | .now _ => Int
  | .postTron _ _ call => call.Answer
  | .quote .. => Quote
  | .sendRawTransaction .. => String
  | .signHash .. => Bytes

/-- Whether a call pauses for the command. -/
def Command.awaits : Command → Bool
  | .now _ | .signHash .. => false
  | _ => true

/-- What a node may answer: anything. -/
structure Input where
  now : Int
  triggered : TriggerResponse
  created : CreateResponse
  broadcast : BroadcastResponse
  quote : Quote
  txId : String

abbrev Code (α : Type) := Handler Command Command.Answer AppError α

namespace Code

def now (req : PayoutRequest) : Code Int := Handler.ask (Command.now req)

def signHash (index : Nat) (hash : Bytes) : Code Bytes := Handler.ask (Command.signHash index hash)

def quote (url address : String) : Code Quote := Handler.ask (Command.quote url address)

def sendRawTransaction (url : String) (raw : List Char) : Code String :=
  Handler.ask (Command.sendRawTransaction url raw)

/-- `postJson` -/
def postTron (baseUrl : String) (apiKey : Option String) (call : TronCall) : Code call.Answer :=
  Handler.ask (Command.postTron baseUrl apiKey call)

end Code

-----------------------------------------------------------------------------
-- Configuration

/-- The libraries that the chains are built with. -/
structure ChainLibrary where
  casing : Casing
  hashing : TxHashing
  keccak256 : Bytes → Bytes
  selector_transfer
    : selector keccak256 "transfer(address,uint256)" = [0xa9, 0x05, 0x9c, 0xbb]
  /-- `String.prototype.toLowerCase` -/
  toLowerCase : String → String
  /-- The payload of a Base58Check text. -/
  decodeTronAddress : String → Except AppError Bytes
  /-- `Signer.signHash` -/
  signHash : Nat → Bytes → Except AppError Bytes

/-- A contract is none where no text is configured for the asset, or an empty one. -/
structure TronBroadcasterConfig where
  baseUrl : String
  apiKey : Option String
  tokenContracts : String → Option String
  feeLimitSun : Option Int

structure EvmBroadcasterConfig where
  /-- Where the chain's node is called. -/
  url : String
  chainId : Int
  tokenContracts : String → Option String
  nativeSymbol : String

inductive PayoutBroadcaster
  | tron (config : TronBroadcasterConfig)
  | evm (config : EvmBroadcasterConfig)

inductive ChainFamily
  | tron
  | evm
  deriving DecidableEq, Repr

structure ChainPlugin where
  chain : String
  family : ChainFamily
  confirmations : Nat
  broadcaster : PayoutBroadcaster
  /-- From an extended public key and an index. -/
  deriveAddress : String → Int → Except AppError String

/-- The plugins by the name of their chain in capitals, in the order in which the names came. -/
structure ChainRouter where
  plugins : List (String × ChainPlugin)

section Library

variable (library : ChainLibrary)

def machine : Machine Command Command.Answer AppError Input Unit where
  awaits := Command.awaits
  perform
    | .now _, input, _ => .ok (input.now, ())
    | .postTron _ _ (.triggerSmartContract ..), input, _ => .ok (input.triggered, ())
    | .postTron _ _ (.createTransaction ..), input, _ => .ok (input.created, ())
    | .postTron _ _ (.broadcastTransaction ..), input, _ => .ok (input.broadcast, ())
    | .quote .., input, _ => .ok (input.quote, ())
    | .sendRawTransaction .., input, _ => .ok (input.txId, ())
    | .signHash index hash, _, _ => do return (← library.signHash index hash, ())

-----------------------------------------------------------------------------
-- TRON

namespace TronPayoutBroadcaster

def tronAddressToHex (base58 : String) : Except AppError (List Char) := do
  return hex (← library.decodeTronAddress base58)

/-- A number of 53 bits, of those nearest to an integer the even one. -/
def toNumber (n : Int) : Int :=
  let size := n.natAbs
  if size < 2 ^ 53 then n
  else
    let unit := 2 ^ (size.log2 - 52)
    let below := size / unit
    let rest := size % unit
    let nearest :=
      if 2 * rest < unit ∨ 2 * rest = unit ∧ below % 2 = 0 then below else below + 1
    n.sign * (nearest * unit : Nat)

def defaultFeeLimit : Int := 100000000

/-- Whether a node gave the transaction an id. -/
def hasId (tx : NodeTransaction) : Bool := tx.txID.any (· ≠ "")

def buildTrc20 (config : TronBroadcasterConfig) (req : PayoutRequest) : Code NodeTransaction :=
  match config.tokenContracts req.asset with
  | none => Handler.throws (.plain s!"No TRC20 contract configured for {req.asset}")
  | some contract => do
      let owner ← Handler.done (tronAddressToHex library req.fromAddress)
      let address ← Handler.done (tronAddressToHex library contract)
      let parameter ←
        Handler.done (abiEncodeTransfer library.decodeTronAddress req.toAddress req.amountBaseUnits)
      let built : TriggerResponse ←
        Code.postTron config.baseUrl config.apiKey
          (.triggerSmartContract owner address parameter
            (config.feeLimitSun.getD defaultFeeLimit))
      match built.transaction.filter hasId with
      | some tx => return tx
      | none =>
          Handler.throws (.plain s!"triggersmartcontract failed: {built.message.getD built.json}")

def buildNative (config : TronBroadcasterConfig) (req : PayoutRequest) : Code NodeTransaction := do
  let owner ← Handler.done (tronAddressToHex library req.fromAddress)
  let recipient ← Handler.done (tronAddressToHex library req.toAddress)
  let built : CreateResponse ←
    Code.postTron config.baseUrl config.apiKey
      (.createTransaction owner recipient (toNumber req.amountBaseUnits))
  if hasId built.tx then return built.tx
  else Handler.throws (.plain s!"createtransaction failed: {built.error.getD built.json}")

/-- The transfer that is compared with what the node built. -/
def intent (req : PayoutRequest) (contract : Option String)
    : Except AppError TronTransferIntent := do
  let owner ← tronAddressToHex library req.fromAddress
  let recipient ← tronAddressToHex library req.toAddress
  let token ← contract.mapM (tronAddressToHex library)
  return {
    ownerHex := String.ofList owner, toHex := String.ofList recipient
    amountBaseUnits := req.amountBaseUnits, contractHex := token.map String.ofList }

def send (config : TronBroadcasterConfig) (req : PayoutRequest) : Code String := do
  let isNative : Bool := req.asset = "TRX"
  let tx ← (if isNative then buildNative library config req else buildTrc20 library config req)
  let contract := if isNative then none else config.tokenContracts req.asset
  let wanted ← Handler.done (intent library req contract)
  let hash ← Handler.done (verifiedTronSigningHash library.hashing tx wanted)
  let signature ← Code.signHash req.fromDerivationIndex hash
  let res : BroadcastResponse ←
    Code.postTron config.baseUrl config.apiKey (.broadcastTransaction tx (hex signature))
  if res.result then return tx.txID.getD ""
  else
    let code := res.code.getD ""
    Handler.throws (.plain s!"Tron broadcast failed: {code} {res.message.getD res.json}")

end TronPayoutBroadcaster

-----------------------------------------------------------------------------
-- EVM chains

namespace EvmPayoutBroadcaster

def nativeGasLimit : Int := 21000

def erc20GasLimit : Int := 100000

def baseFeeMultiple : Int := 2

def fallbackPriorityFee : Int := 1500000000

def isNative (config : EvmBroadcasterConfig) (req : PayoutRequest) : Bool :=
  library.casing.toUpperCase req.asset = library.casing.toUpperCase config.nativeSymbol

def contractOf (config : EvmBroadcasterConfig) (req : PayoutRequest) : Option String :=
  config.tokenContracts (library.casing.toUpperCase req.asset)

/-- The transaction of a transfer, at the nonce and the fees that the node named. -/
def buildTx (config : EvmBroadcasterConfig) (req : PayoutRequest) (quote : Quote)
    : Except AppError Eip1559Tx :=
  let priorityFee := quote.maxPriorityFeePerGas.getD fallbackPriorityFee
  let maxFeePerGas := quote.baseFeePerGas * baseFeeMultiple + priorityFee
  if isNative library config req then
    .ok
      { chainId := config.chainId, nonce := quote.nonce, maxPriorityFeePerGas := priorityFee
        maxFeePerGas, gasLimit := nativeGasLimit, toAddress := req.toAddress
        value := req.amountBaseUnits, data := [] }
  else do
    let data ← erc20TransferData library.keccak256 req.toAddress req.amountBaseUnits
    return {
      chainId := config.chainId, nonce := quote.nonce, maxPriorityFeePerGas := priorityFee
      maxFeePerGas, gasLimit := erc20GasLimit
      toAddress := (contractOf library config req).getD "", value := 0, data }

def send (config : EvmBroadcasterConfig) (req : PayoutRequest) : Code String := do
  if !isNative library config req ∧ contractOf library config req = none then
    Handler.throws (.plain s!"No ERC20 contract configured for {req.asset}")
  let quote ← Code.quote config.url req.fromAddress
  let tx ← Handler.done (buildTx library config req quote)
  let hash ← Handler.done (signingHash library.keccak256 tx)
  let signature ← Code.signHash req.fromDerivationIndex hash
  let signed ← Handler.done (serializeSigned library.keccak256 tx signature)
  let txId ← Code.sendRawTransaction config.url signed.raw
  let localHash := String.ofList signed.hash
  if library.toLowerCase txId = library.toLowerCase localHash then return localHash
  else Handler.throws (.plain s!"Broadcast hash mismatch: node {txId} vs local {localHash}")

end EvmPayoutBroadcaster

def PayoutBroadcaster.send (req : PayoutRequest) : PayoutBroadcaster → Code String
  | .tron config => TronPayoutBroadcaster.send library config req
  | .evm config => EvmPayoutBroadcaster.send library config req

end Library

-----------------------------------------------------------------------------
-- The router

namespace ChainRouter

section Names

variable (casing : Casing)

/-- A name that is registered again keeps its place. -/
def register (router : ChainRouter) (plugin : ChainPlugin) : ChainRouter where
  plugins :=
    Table.upsert Prod.fst router.plugins (casing.toUpperCase plugin.chain, plugin)
      fun entry => (entry.1, plugin)

def find (router : ChainRouter) (chain : String) : Option ChainPlugin :=
  (Table.lookup Prod.fst router.plugins (casing.toUpperCase chain)).map Prod.snd

def chains (router : ChainRouter) : List String := router.plugins.map Prod.fst

def unsupportedChain (router : ChainRouter) (chain : String) : AppError :=
  { code := .unsupportedChain, message := s!"Chain not supported: {chain}"
    context :=
      [("chain", .text chain), ("supported", .text (String.intercalate "," router.chains))] }

/-- `get` -/
def plugin (router : ChainRouter) (chain : String) : Except AppError ChainPlugin :=
  match router.find casing chain with
  | none => .error (router.unsupportedChain chain)
  | some found => .ok found

def deriveAddress (router : ChainRouter) (chain xpub : String) (index : Int)
    : Except AppError String := do
  (← router.plugin casing chain).deriveAddress xpub index

end Names

def send (library : ChainLibrary) (router : ChainRouter) (req : PayoutRequest)
    : Code String := do
  let found ← Handler.done (router.plugin library.casing req.chain)
  found.broadcaster.send library req

end ChainRouter

-----------------------------------------------------------------------------
-- The gate

/-- What pays out: the chains behind the gate, which requires an authorization. -/
structure MoneyOut where
  library : ChainLibrary
  router : ChainRouter
  authorizer : AuthorizationSigner

namespace MoneyOut

def gate (money : MoneyOut) : AuthorizingBroadcaster :=
  { authorizer := money.authorizer, mode := .require }

def send (money : MoneyOut) (req : PayoutRequest) : Code String := do
  let now ← Code.now req
  let passed ← Handler.done (money.gate.send now req)
  money.router.send money.library passed

abbrev Sends := System Command Command.Answer AppError String Unit

def idle : Sends := { world := { data := (), trace := [] }, handlers := [] }

def step (money : MoneyOut) : Sends → Event PayoutRequest AppError Input → Option Sends :=
  System.step (machine money.library) money.send

end MoneyOut

end Cixtech.Chains
