import Cixtech.Chains.Broadcasters

/-! What is signed when nodes answer whatever they like: transfers that the gate let through, each
by the key of its source, and nothing else.
-/

namespace Cixtech.Chains

open Cixtech.Common Cixtech.Evm Cixtech.Foundation Cixtech.Foundation.Protobuf Cixtech.Payout
open Cixtech.Tron Cixtech.Tron.TxVerify Handlers

-----------------------------------------------------------------------------
-- What makes a transfer

/-- The contract of a TRON transaction makes the transfer that was asked for, and no other. -/
def TronPayoutBroadcaster.Makes (library : ChainLibrary) (config : TronBroadcasterConfig)
    (req : PayoutRequest) (contract : TronContract)
    : Prop :=
  ∃ owner recipient,
    library.decodeTronAddress req.fromAddress = .ok owner
    ∧ library.decodeTronAddress req.toAddress = .ok recipient
    ∧ if req.asset = "TRX" then contract = .transfer owner recipient req.amountBaseUnits
      else
        ∃ token address data amount,
          config.tokenContracts req.asset = some token
          ∧ library.decodeTronAddress token = .ok address
          ∧ contract = .trigger owner address 0 data
          ∧ tokenCall data = some (recipient, amount) ∧ (amount : Int) = req.amountBaseUnits

/-- The call of an EVM transaction makes the transfer that was asked for, and no other. -/
def EvmPayoutBroadcaster.Makes (library : ChainLibrary) (config : EvmBroadcasterConfig)
    (req : PayoutRequest) (call : NetworkCall)
    : Prop :=
  (call.chainId : Int) = config.chainId
  ∧ ∃ account,
    addressBytes req.toAddress = .ok account
    ∧ if isNative library config req then
        call.recipient = account ∧ (call.value : Int) = req.amountBaseUnits ∧ call.data = []
      else
        ∃ token amount,
          config.tokenContracts (library.casing.toUpperCase req.asset) = some token
          ∧ addressBytes token = .ok call.recipient ∧ call.value = 0
          ∧ transferCall call.data = some (account, amount)
          ∧ (amount : Int) = req.amountBaseUnits

/-- The hash is of a transaction that the network of the chain reads as the request's transfer. A
TRON body is read so as far as it is plain, and one of no bytes is not read at all; an EVM
transaction, as far as a length counts its bytes.
-/
def PayoutBroadcaster.Spends (library : ChainLibrary) (req : PayoutRequest) (hash : Bytes)
    : PayoutBroadcaster → Prop
  | .tron config =>
      ∃ raw, hash = library.hashing.sha256 raw
        ∧ (networkReading raw = none
          ∨ ∃ contract, firstReading raw = some contract
            ∧ TronPayoutBroadcaster.Makes library config req contract
            ∧ (PlainBody raw → networkReading raw = some contract))
  | .evm config =>
      ∃ preimage, hash = library.keccak256 preimage
        ∧ (preimage.length < 2 ^ 64
          → ∃ call, readPreimage preimage = some call
            ∧ EvmPayoutBroadcaster.Makes library config req call)

section Transactions

variable {library : ChainLibrary} {req : PayoutRequest}

theorem tronAddressToHex_ok {base58 : String} {text : List Char}
    (found : TronPayoutBroadcaster.tronAddressToHex library base58 = .ok text)
    : ∃ payload, library.decodeTronAddress base58 = .ok payload ∧ text = hex payload := by
  unfold TronPayoutBroadcaster.tronAddressToHex at found
  cases decoded : library.decodeTronAddress base58 with
  | error err =>
      rw [decoded] at found
      cases found
  | ok payload =>
      rw [decoded] at found
      exact ⟨payload, rfl, (Except.ok.inj found).symm⟩

/-- What the node's transaction is compared with are the addresses of the request, and that of the
contract.
-/
theorem intent_ok {token : Option String} {wanted : TronTransferIntent}
    (intended : TronPayoutBroadcaster.intent library req token = .ok wanted)
    : ∃ owner recipient,
        library.decodeTronAddress req.fromAddress = .ok owner
        ∧ library.decodeTronAddress req.toAddress = .ok recipient
        ∧ wanted.ownerHex = String.ofList (hex owner)
        ∧ wanted.toHex = String.ofList (hex recipient)
        ∧ wanted.amountBaseUnits = req.amountBaseUnits
        ∧ (token = none ∧ wanted.contractHex = none
          ∨ ∃ name address, token = some name ∧ library.decodeTronAddress name = .ok address
            ∧ wanted.contractHex = some (String.ofList (hex address))) := by
  unfold TronPayoutBroadcaster.intent at intended
  simp only [bind, Except.bind, pure, Except.pure] at intended
  cases from_ : TronPayoutBroadcaster.tronAddressToHex library req.fromAddress with
  | error err => simp [from_] at intended
  | ok owner =>
      cases to_ : TronPayoutBroadcaster.tronAddressToHex library req.toAddress with
      | error err => simp [from_, to_] at intended
      | ok recipient =>
          obtain ⟨ownerBytes, ownerFound, rfl⟩ := tronAddressToHex_ok from_
          obtain ⟨recipientBytes, recipientFound, rfl⟩ := tronAddressToHex_ok to_
          refine ⟨ownerBytes, recipientBytes, ownerFound, recipientFound, ?_⟩
          cases token with
          | none =>
              simp only [from_, to_, Option.mapM_none, pure, Except.pure, Except.ok.injEq]
                at intended
              subst intended
              exact ⟨rfl, rfl, rfl, .inl ⟨rfl, rfl⟩⟩
          | some name =>
              cases at_ : TronPayoutBroadcaster.tronAddressToHex library name with
              | error err => simp [from_, to_, at_, Functor.map, Except.map] at intended
              | ok address =>
                  obtain ⟨addressBytes, addressFound, rfl⟩ := tronAddressToHex_ok at_
                  simp only [from_, to_, at_, Option.mapM_some, Functor.map, Except.map,
                    Except.ok.injEq] at intended
                  subst intended
                  exact ⟨rfl, rfl, rfl, .inr ⟨name, addressBytes, rfl, addressFound, rfl⟩⟩

/-- What was found to be as intended makes the request's transfer. -/
theorem tron_makes {config : TronBroadcasterConfig} {wanted : TronTransferIntent}
    (priced : req.asset ≠ "TRX" → (config.tokenContracts req.asset).isSome = true)
    (intended
      : TronPayoutBroadcaster.intent library req
          (if req.asset = "TRX" then none else config.tokenContracts req.asset)
        = .ok wanted)
    {contract : TronContract} (authorized : Authorized library.hashing wanted contract)
    : TronPayoutBroadcaster.Makes library config req contract := by
  obtain ⟨owner, recipient, from_, to_, ownerHex, toHex, amount, token⟩ := intent_ok intended
  refine ⟨owner, recipient, from_, to_, ?_⟩
  by_cases native : req.asset = "TRX"
  · rw [if_pos native] at token ⊢
    obtain ⟨-, none⟩ | ⟨name, address, some, -⟩ := token
    · cases contract with
      | transfer sender receiver sum =>
          obtain ⟨-, senderHex, receiverHex, sumIs⟩ := authorized
          rw [ownerHex, normalized_hex, hex_inj] at senderHex
          rw [toHex, normalized_hex, hex_inj] at receiverHex
          rw [senderHex, receiverHex, sumIs, amount]
      | trigger sender address callValue data =>
          have called := authorized.1
          rw [none] at called
          cases called
      | other type => exact authorized.elim
    · cases some
  · rw [if_neg native] at token ⊢
    obtain ⟨none, -⟩ | ⟨name, address, some, found, wantedContract⟩ := token
    · have there := priced native
      rw [none] at there
      cases there
    · cases contract with
      | transfer sender receiver sum =>
          have none := authorized.1
          rw [wantedContract] at none
          cases none
      | trigger sender called callValue data =>
          obtain ⟨contractHex, senderHex, zero, receiver, sum, reads, receiverHex, sumIs⟩ :=
            authorized
          rw [wantedContract, Option.map_some, normalized_hex, Option.some.injEq, hex_inj]
            at contractHex
          rw [ownerHex, normalized_hex, hex_inj] at senderHex
          rw [toHex, normalized_hex, hex_inj] at receiverHex
          rw [senderHex, zero, ← contractHex]
          exact ⟨name, address, data, sum, some, found, rfl, receiverHex ▸ reads,
            sumIs.trans amount⟩
      | other type => exact authorized.elim

/-- The hash of a TRON transaction that was found to be as intended spends as requested. -/
theorem tron_spends {config : TronBroadcasterConfig} {wanted : TronTransferIntent}
    (priced : req.asset ≠ "TRX" → (config.tokenContracts req.asset).isSome = true)
    (intended
      : TronPayoutBroadcaster.intent library req
          (if req.asset = "TRX" then none else config.tokenContracts req.asset)
        = .ok wanted)
    {tx : NodeTransaction} {hash : Bytes}
    (accepted : verifiedTronSigningHash library.hashing tx wanted = .ok hash)
    : (PayoutBroadcaster.tron config).Spends library req hash := by
  obtain ⟨-, raw, hashed, empty | ⟨contract, reads, authorized⟩⟩ := verified_reads accepted
  · exact ⟨raw, hashed, .inl (empty ▸ networkReading_nil)⟩
  · have makes := tron_makes priced intended authorized
    exact ⟨raw, hashed, .inr ⟨contract, reads, makes,
      fun plain => (networkReading_of_plain plain).trans reads⟩⟩

/-- The hash of an EVM transaction that was built for a request spends as requested. -/
theorem evm_spends {config : EvmBroadcasterConfig} {quote : Quote} {tx : Eip1559Tx} {hash : Bytes}
    (priced
      : EvmPayoutBroadcaster.isNative library config req = false
        → (EvmPayoutBroadcaster.contractOf library config req).isSome = true)
    (built : EvmPayoutBroadcaster.buildTx library config req quote = .ok tx)
    (hashed : signingHash library.keccak256 tx = .ok hash)
    : (PayoutBroadcaster.evm config).Spends library req hash := by
  unfold signingHash at hashed
  cases signed : signingPreimage tx with
  | error err =>
      rw [signed] at hashed
      cases hashed
  | ok preimage =>
      rw [signed] at hashed
      refine ⟨preimage, (Except.ok.inj hashed).symm, fun short => ?_⟩
      obtain ⟨recipient, spelled, reads⟩ := readPreimage_of_signed signed short
      refine ⟨_, reads, ?_⟩
      have signs := nonNegative_of_signingPreimage signed
      simp only [Eip1559Tx.NonNegative, List.forall_mem_cons] at signs
      obtain ⟨chainId, -, -, -, -, value, -⟩ := signs
      unfold EvmPayoutBroadcaster.buildTx at built
      dsimp only at built
      cases native : EvmPayoutBroadcaster.isNative library config req with
      | true =>
          rw [native, if_pos rfl] at built
          obtain rfl := Except.ok.inj built
          refine ⟨Int.toNat_of_nonneg chainId, recipient, spelled, ?_⟩
          rw [if_pos native]
          exact ⟨rfl, Int.toNat_of_nonneg value, rfl⟩
      | false =>
          rw [native] at built
          obtain ⟨token, contract⟩ := Option.isSome_iff_exists.mp (priced native)
          cases written
              : erc20TransferData library.keccak256 req.toAddress req.amountBaseUnits with
          | error err =>
              rw [written] at built
              cases built
          | ok data =>
              rw [written] at built
              obtain rfl := Except.ok.inj built
              obtain ⟨account, named, sign, calls⟩ :=
                transferCall_of_written library.selector_transfer written
              refine ⟨Int.toNat_of_nonneg chainId, account, named, ?_⟩
              rw [if_neg (by simp [native])]
              rw [contract] at spelled
              exact ⟨token, _, contract, spelled, rfl, calls, Int.toNat_of_nonneg sign⟩

end Transactions

-----------------------------------------------------------------------------
-- What the gate lets through

/-- The token is good for the request, and for no other transfer. -/
structure Covered (authorizer : AuthorizationSigner) (req : PayoutRequest) (now : Int)
    (token : AuthorizationToken)
    : Prop where
  carried : req.authorization = some token
  signed
    : AuthorizationSigner.hexBytes (authorizer.hmac token.claims).toList
      = AuthorizationSigner.hexBytes token.signature.toList
  alive : now ≤ token.claims.expiresAt
  bound
    : token.claims.sighash
      = authorizer.transferCommitment (req.identity token.claims.intentId)

/-- A token is good where its signature is the authorizer's own. -/
theorem signature_of_verify {signer : AuthorizationSigner} {token : AuthorizationToken}
    {expected : Option String} {now : Int} {claims : AuthorizationClaims}
    (verified : signer.verify token expected now = .ok claims)
    : AuthorizationSigner.hexBytes (signer.hmac token.claims).toList
      = AuthorizationSigner.hexBytes token.signature.toList := by
  unfold AuthorizationSigner.verify at verified
  split at verified
  · cases verified
  · next same => exact not_not.mp same

/-- What passes the gate is the request itself, under a token that is good for it. -/
theorem MoneyOut.covered_of_gate {money : MoneyOut} {req passed : PayoutRequest} {now : Int}
    (sent : money.gate.send now req = .ok passed)
    : passed = req ∧ ∃ token, Covered money.authorizer req now token := by
  unfold AuthorizingBroadcaster.send at sent
  cases carried : req.authorization with
  | none =>
      rw [carried] at sent
      cases sent
  | some token =>
      simp only [carried, bind, Except.bind, pure, Except.pure] at sent
      split at sent
      · cases sent
      · next claims verified =>
        obtain ⟨bound, alive⟩ := AuthorizationSigner.verify_eq_ok verified
        exact ⟨(Except.ok.inj sent).symm, token,
          ⟨carried, signature_of_verify verified, alive, bound⟩⟩

-----------------------------------------------------------------------------
-- What a call may have done

/-- Why a call signs the hash with the key: it has had the request let through, the key is that of
the derivation index of the request, which the token does not cover, and what is signed makes the
request's transfer on its chain.
-/
structure Permits (money : MoneyOut) (trace : List (Entry Command Command.Answer))
    (caller index : Nat) (hash : Bytes) (req : PayoutRequest) (now : Int)
    (token : AuthorizationToken) (plugin : ChainPlugin)
    : Prop where
  looked : ⟨caller, .now req, now⟩ ∈ trace
  covered : Covered money.authorizer req now token
  source : index = req.fromDerivationIndex
  routed : money.router.plugin money.library.casing req.chain = .ok plugin
  spends : plugin.broadcaster.Spends money.library req hash

/-- A call signs what it may, and sends what it has signed. -/
def may (money : MoneyOut) (trace : List (Entry Command Command.Answer)) (self : Nat)
    : Command → Prop
  | .signHash index hash =>
      ∃ req now token plugin, Permits money trace self index hash req now token plugin
  | .postTron _ _ (.broadcastTransaction tx signature) =>
      ∃ index hash signed, ⟨self, .signHash index hash, signed⟩ ∈ trace
        ∧ normalized money.library.hashing (tx.txID.getD "") = hex hash ∧ signature = hex signed
  | .sendRawTransaction _ raw =>
      ∃ index hash tx signed sent, ⟨self, .signHash index hash, signed⟩ ∈ trace
        ∧ signingHash money.library.keccak256 tx = .ok hash
        ∧ serializeSigned money.library.keccak256 tx signed = .ok sent ∧ raw = sent.raw
  | _ => True

def contract (money : MoneyOut) : Contract (machine money.library) where
  invariant _ := True
  may := may money
  gives trace self command answer := ⟨self, command, answer⟩ ∈ trace
  keeps _ _ _ := ⟨trivial, List.mem_cons_self⟩

section Calls

variable {money : MoneyOut} {self : Nat} {trace : List (Entry Command Command.Answer)}

/-- Nothing need be known for what is neither a signature nor sent. -/
theorem ask_follows {command : Command} (free : ∀ later, may money later self command)
    : (Handler.ask command : Code _).Follows (contract money) self (fun _ _ => True) trace :=
  (Handler.Follows.ask fun later _ => free later).weaken fun _ _ _ _ => trivial

theorem buildTrc20_follows (config : TronBroadcasterConfig) (req : PayoutRequest)
    : (TronPayoutBroadcaster.buildTrc20 money.library config req).Follows (contract money) self
        (fun _ _ => (config.tokenContracts req.asset).isSome = true) trace := by
  unfold TronPayoutBroadcaster.buildTrc20
  cases token : config.tokenContracts req.asset with
  | none => exact .throws _
  | some address =>
      refine .bind (.done _) fun _ owner _ _ => ?_
      refine .bind (.done _) fun _ contract _ _ => ?_
      refine .bind (.done _) fun _ parameter _ _ => ?_
      refine .bind (ask_follows fun _ => trivial) fun _ built _ _ => ?_
      split
      · exact .pure rfl
      · exact .throws _

theorem buildNative_follows (config : TronBroadcasterConfig) (req : PayoutRequest)
    : (TronPayoutBroadcaster.buildNative money.library config req).Follows (contract money) self
        (fun _ _ => True) trace := by
  refine .bind (.done _) fun _ owner _ _ => ?_
  refine .bind (.done _) fun _ recipient _ _ => ?_
  refine .bind (ask_follows fun _ => trivial) fun _ built _ _ => ?_
  split
  · exact .pure trivial
  · exact .throws _

/-- A TRON call signs only what it has found to be the request's transfer, and sends that with the
signature.
-/
theorem tron_follows {config : TronBroadcasterConfig} {req : PayoutRequest} {now : Int}
    {token : AuthorizationToken} {plugin : ChainPlugin}
    (permits
      : ∀ later hash, trace <:+ later
        → (PayoutBroadcaster.tron config).Spends money.library req hash
        → Permits money later self req.fromDerivationIndex hash req now token plugin)
    : (TronPayoutBroadcaster.send money.library config req).Follows (contract money) self
        (fun _ _ => True) trace := by
  have built
      : ((if decide (req.asset = "TRX") = true then
            TronPayoutBroadcaster.buildNative money.library config req
          else TronPayoutBroadcaster.buildTrc20 money.library config req : Code _)).Follows
          (contract money) self
          (fun _ _ => req.asset ≠ "TRX" → (config.tokenContracts req.asset).isSome = true)
          trace := by
    split
    · next native =>
      exact (buildNative_follows config req).weaken
        fun _ _ _ _ other => absurd (of_decide_eq_true native) other
    · exact (buildTrc20_follows config req).weaken fun _ _ _ there _ => there
  refine .bind built fun later tx behind priced => ?_
  refine .bind (.done _) fun later wanted behindToo intended => ?_
  refine .bind (.done _) fun later hash since accepted => ?_
  have spends := tron_spends priced (by simpa only [decide_eq_true_eq] using intended) accepted
  have grown := (behind.trans behindToo).trans since
  refine .bind (.ask fun last beyond => ?_) fun later signature answered there => ?_
  · exact ⟨req, now, token, plugin, permits last hash (grown.trans beyond) spends⟩
  · refine .bind (.weaken (.ask fun last beyond => ?_) fun _ _ _ _ => trivial)
      fun later res _ (_ : True) => ?_
    · exact ⟨req.fromDerivationIndex, hash, signature, beyond.subset there,
        (verified_reads accepted).1, rfl⟩
    · split
      · exact .pure trivial
      · exact .throws _

/-- An EVM call signs only what it has built as the request's transfer, and sends that with the
signature.
-/
theorem evm_follows {config : EvmBroadcasterConfig} {req : PayoutRequest} {now : Int}
    {token : AuthorizationToken} {plugin : ChainPlugin}
    (permits
      : ∀ later hash, trace <:+ later
        → (PayoutBroadcaster.evm config).Spends money.library req hash
        → Permits money later self req.fromDerivationIndex hash req now token plugin)
    : (EvmPayoutBroadcaster.send money.library config req).Follows (contract money) self
        (fun _ _ => True) trace := by
  unfold EvmPayoutBroadcaster.send
  split
  · exact .throws _
  · next priced =>
    have there : EvmPayoutBroadcaster.isNative money.library config req = false
        → (EvmPayoutBroadcaster.contractOf money.library config req).isSome = true := by
      intro other
      simpa [other, Option.isSome_iff_ne_none] using priced
    refine .bind (ask_follows fun _ => trivial) fun later quote behind _ => ?_
    refine .bind (.done _) fun later tx behindToo built => ?_
    refine .bind (.done _) fun later hash since hashed => ?_
    have spends := evm_spends there built hashed
    have grown := (behind.trans behindToo).trans since
    refine .bind (.ask fun last beyond => ?_) fun later signature answered signedThere => ?_
    · exact ⟨req, now, token, plugin, permits last hash (grown.trans beyond) spends⟩
    · refine .bind (.done _) fun later signed next sent => ?_
      refine .bind (.weaken (.ask fun last beyond => ?_) fun _ _ _ _ => trivial)
        fun later txId _ (_ : True) => ?_
      · exact ⟨req.fromDerivationIndex, hash, tx, signature, signed,
          (next.trans beyond).subset signedThere, hashed, sent, rfl⟩
      · dsimp only
        split
        · exact .pure trivial
        · exact .throws _

/-- A call through the gate does no more than it may, whatever the nodes answer. -/
theorem send_follows (req : PayoutRequest)
    : (money.send req).Follows (contract money) self (fun _ _ => True) trace := by
  refine .bind (.ask fun _ _ => trivial) fun later now behind looked => ?_
  refine .bind (.done _) fun later passed behindToo sent => ?_
  obtain ⟨rfl, token, covered⟩ := MoneyOut.covered_of_gate sent
  refine .bind (.done _) fun later plugin since routed => ?_
  have permits (broadcaster : PayoutBroadcaster) (its : plugin.broadcaster = broadcaster)
      (last : List (Entry Command Command.Answer)) (hash : Bytes) (beyond : later <:+ last)
      (spends : broadcaster.Spends money.library passed hash)
      : Permits money last self passed.fromDerivationIndex hash passed now token plugin :=
    { looked := ((behindToo.trans since).trans beyond).subset looked, covered, source := rfl
      routed, spends := its ▸ spends }
  cases its : plugin.broadcaster with
  | tron config => exact tron_follows (permits _ its)
  | evm config => exact evm_follows (permits _ its)

end Calls

-----------------------------------------------------------------------------
-- Runs

/-- What a call may do, it may while the trace grows. -/
theorem may_later {money : MoneyOut} {trace later : List (Entry Command Command.Answer)}
    {self : Nat} {command : Command} (done : may money trace self command)
    (behind : trace <:+ later)
    : may money later self command := by
  cases command with
  | now req => trivial
  | quote url address => trivial
  | signHash index hash =>
      obtain ⟨req, now, token, plugin, permits⟩ := done
      exact ⟨req, now, token, plugin, { permits with looked := behind.subset permits.looked }⟩
  | sendRawTransaction url raw =>
      obtain ⟨index, hash, tx, signed, sent, there, rest⟩ := done
      exact ⟨index, hash, tx, signed, sent, behind.subset there, rest⟩
  | postTron baseUrl apiKey call =>
      cases call with
      | triggerSmartContract owner address parameter feeLimit => trivial
      | createTransaction owner recipient amount => trivial
      | broadcastTransaction tx signature =>
          obtain ⟨index, hash, signed, there, rest⟩ := done
          exact ⟨index, hash, signed, behind.subset there, rest⟩

/-- Whatever transfers are asked for, and whatever the nodes answer in whatever order: a hash is
signed only for a request that the gate let through under a token of its own for this very
transfer, with the key of the request's derivation index, and the chain of the request reads in what
is hashed that transfer and no other. The token does not cover the index. What is sent has been
signed by the same call. By induction on the run.
-/
theorem signatures_spend_as_authorized (money : MoneyOut) (sends : MoneyOut.Sends)
    (reached : Reaches money.step (fun _ _ => True) MoneyOut.idle sends)
    (entry : Entry Command Command.Answer) (member : entry ∈ sends.world.trace)
    : may money sends.world.trace entry.handler entry.command := by
  have started : MoneyOut.idle.Sound (contract money) :=
    ⟨⟨trivial, trivial⟩, fun _ _ there => by cases there⟩
  have sound : sends.Sound (contract money) :=
    System.Sound.reached (fun req _ _ => send_follows req) started reached
  obtain ⟨after, earlier, split⟩ := List.append_of_mem member
  have before : may money earlier entry.handler entry.command :=
    Lawful.may (contract money) sound.world.lawful split
  exact may_later before ⟨after ++ [entry], by rw [split, List.append_assoc]; rfl⟩

-----------------------------------------------------------------------------
-- A native transfer

def sampleLibrary : ChainLibrary where
  casing := asciiCasing
  hashing := sampleHashing
  keccak256 _ := transferHash
  selector_transfer := rfl
  toLowerCase := id
  decodeTronAddress base58 :=
    if base58 = "owner" then .ok sampleOwner
    else if base58 = "recipient" then .ok sampleRecipient
    else .error (.plain "invalid checksum")
  signHash index _ := .ok [UInt8.ofNat index]

def sampleAuthorizer : AuthorizationSigner where
  policyVersion := "v1"
  sha256Hex := id
  hmac _ := "c0de"

def sampleMoney : MoneyOut where
  library := sampleLibrary
  router :=
    { plugins := [] : ChainRouter }.register sampleLibrary.casing
      { chain := "tron", family := .tron, confirmations := 19
        broadcaster :=
          .tron
            { baseUrl := "https://node", apiKey := none, tokenContracts := fun _ => none
              feeLimitSun := none }
        deriveAddress := fun _ _ => .ok "owner" }
  authorizer := sampleAuthorizer

def sampleTransfer : PayoutRequest :=
  let req : PayoutRequest :=
    { chain := "TRON", asset := "TRX", amountBaseUnits := 5, fromAddress := "owner"
      fromDerivationIndex := 7, toAddress := "recipient", idempotencyKey := "p"
      authorization := none }
  { req with
    authorization :=
      some (sampleAuthorizer.mint (req.identity "p") "acme" "shop" [] 1000 60000) }

/-- The node builds what it is asked for. -/
def sampleInput : Input where
  now := 2000
  triggered := { message := none, transaction := none, json := "" }
  created :=
    { tx :=
        nodeTransaction (some "d6df17613e02024c41fc86e45936d810fe71ba5bec25ece3dedf019bbdd2946b")
          (transferBody [])
      error := none, json := "" }
  broadcast := { result := true, code := none, message := none, json := "" }
  quote := { nonce := 0, maxPriorityFeePerGas := none, baseFeePerGas := 0 }
  txId := ""

/-- The key and the hash of a signature. -/
def Command.signs : Command → Option (Nat × Bytes)
  | .signHash index hash => some (index, hash)
  | _ => none

theorem signatures_spend_as_authorized_native
    : ∃ (sends : MoneyOut.Sends) (entry : Entry Command Command.Answer),
        entry ∈ sends.world.trace
        ∧ entry.command.signs = some (7, sampleHashing.sha256 (transferBody []))
        ∧ may sampleMoney sends.world.trace entry.handler entry.command := by
  obtain ⟨sends, reached, entry, member, signs⟩ :=
    @Reaches.exists_of_exec _ _ sampleMoney.step (fun _ _ => True) MoneyOut.idle _
      [.arrives sampleTransfer sampleInput, .await 0 sampleInput]
      (fun sends =>
        ∃ entry ∈ sends.world.trace,
          entry.command.signs = some (7, sampleHashing.sha256 (transferBody [])))
      _ (by decide +kernel)
  exact ⟨sends, entry, member, signs,
    signatures_spend_as_authorized sampleMoney sends reached entry member⟩

end Cixtech.Chains
