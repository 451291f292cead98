import Cixtech.Payout.PendingFunds
import Cixtech.Treasury.ClaimedFees

/-! The keys of what the engine does. The broadcaster is given one with every transfer, and the
ledger one with every entry. They are texts joined by colons, in which the part that a tenant
chooses may hold colons as well.
-/

namespace Cixtech.Treasury

open Cixtech.Attribution Cixtech.Common Cixtech.Foundation Cixtech.Ingest Cixtech.Ledger
  Cixtech.Payout

abbrev ChainName := { name : String // name ∈ chainNames }

/-- Addresses hold no colons. -/
abbrev AddressText := { text : String // ':' ∉ text.toList }

/-- A transfer that is handed to the broadcaster. A leg is one of so many of its payout. -/
inductive Transfer
  | leg (tenant : Uuid) (key : String) (count : Nat) (index : Fin count)
  | inlineFee (tenant : Uuid) (key : String) (index : Nat)
  | consoleSweep (run : Nat) (chain : ChainName) (address : AddressText) (asset : String)
      (amount : Int)

/-- What the engine does under a key. An inline fee leg and a leg of a console sweep are posted
to the ledger under the key of their transfer.
-/
inductive EngineOperation
  | transfer (sent : Transfer)
  | gasTopUp (ahead : Transfer)
  | lock (tenant : Uuid) (key : String)
  | settlement (tenant : Uuid) (key : String)
  | deposit (chain : ChainName) (txId : String) (index : Nat)
  | reversal (chain : ChainName) (txId : String) (index : Nat)

def Transfer.key : Transfer → String
  | .leg tenant key count index =>
      let payoutKey := WithdrawalRequest.payoutKey tenant key
      if count = 1 then payoutKey else payoutKey ++ ":" ++ toString index.val
  | .inlineFee tenant key index =>
      WithdrawalRequest.payoutKey tenant key ++ ":fee:" ++ toString index
  | .consoleSweep _ chain address asset amount =>
      "fee-sweep:" ++ chain.val ++ ":" ++ address.val ++ ":" ++ asset ++ ":" ++ toString amount

section Keys

variable (tenant : Uuid) (key : String)

theorem Transfer.key_leg (count : Nat) (index : Fin count)
    : (Transfer.leg tenant key count index).key
      = if count = 1 then WithdrawalRequest.payoutKey tenant key
        else WithdrawalRequest.payoutKey tenant key ++ ":" ++ toString index.val := rfl

theorem Transfer.key_inlineFee (index : Nat)
    : (Transfer.inlineFee tenant key index).key
      = WithdrawalRequest.payoutKey tenant key ++ ":fee:" ++ toString index := rfl

end Keys

theorem Transfer.key_consoleSweep (run : Nat) (chain : ChainName) (address : AddressText)
    (asset : String) (amount : Int)
    : (Transfer.consoleSweep run chain address asset amount).key
      = "fee-sweep:" ++ chain.val ++ ":" ++ address.val ++ ":" ++ asset ++ ":"
        ++ toString amount := rfl

namespace EngineOperation

/-- `EoaFundTransferStrategy.prepare` puts `gas:` in front of the key of the transfer. -/
def key : EngineOperation → String
  | .transfer sent => sent.key
  | .gasTopUp ahead => "gas:" ++ ahead.key
  | .lock tenant key => lockKey (WithdrawalRequest.payoutKey tenant key)
  | .settlement tenant key => settleKey (WithdrawalRequest.payoutKey tenant key)
  | .deposit chain txId index => chain.val ++ ":" ++ txId ++ ":" ++ toString index
  | .reversal chain txId index =>
      "reverse:" ++ (chain.val ++ ":" ++ txId ++ ":" ++ toString index)

/-- Whether the key is passed to the broadcaster. -/
def sends : EngineOperation → Bool
  | .transfer _ | .gasTopUp _ => true
  | _ => false

/-- Whether the key is that of a journal entry. -/
def posts : EngineOperation → Bool
  | .transfer (.leg _ _ _ _) | .gasTopUp _ => false
  | _ => true

end EngineOperation

-----------------------------------------------------------------------------
-- The keys that the services use

theorem Transfer.key_legRequest (d : Deployment) (lease : Lease)
    (payment : Payment lease.p.amountBaseUnits) (leg : GatheredLeg) {tenant : Uuid} {key : String}
    (under : lease.p.idempotencyKey = WithdrawalRequest.payoutKey tenant key)
    (next : payment.sent.length < payment.count)
    : (PayoutService.legRequest d lease payment leg).idempotencyKey
      = (Transfer.leg tenant key payment.count ⟨payment.sent.length, next⟩).key := by
  simp only [PayoutService.legRequest, Payment.legKey, under, Transfer.key_leg]

theorem Transfer.key_feeRequest {p : PayoutParams} {tenant : Uuid} {key : String}
    (under : p.idempotencyKey = WithdrawalRequest.payoutKey tenant key) (d : Deployment)
    (sweep : Payout.Sweep) (leg : GatheredLeg)
    : (PayoutService.feeRequest p sweep leg).idempotencyKey
        = (Transfer.inlineFee tenant key sweep.index).key
      ∧ (PayoutService.feeSweptInput d p sweep leg).idempotencyKey
        = (Transfer.inlineFee tenant key sweep.index).key := by
  simp only [PayoutService.feeRequest, PayoutService.feeSweptInput, PayoutService.feeLegKey, under,
    Transfer.key_inlineFee, and_self]

theorem Transfer.key_sweepRequest (config : FeeSweepConfig) (asset : String) (cursor : LegCursor)
    (now : Int) (run : Nat) (known : cursor.group.chain ∈ chainNames)
    (plain : ':' ∉ cursor.leg.address.toList)
    : (FeeSweepService.sweepRequest config asset cursor now).idempotencyKey
        = (Transfer.consoleSweep run ⟨_, known⟩ ⟨_, plain⟩ asset
            cursor.leg.amountBaseUnits).key
      ∧ (FeeSweepService.sweptInput config.casing cursor.group asset cursor.leg).idempotencyKey
        = (Transfer.consoleSweep run ⟨_, known⟩ ⟨_, plain⟩ asset
            cursor.leg.amountBaseUnits).key :=
  ⟨rfl, rfl⟩

theorem EngineOperation.key_lockInput (d : Deployment) {p : PayoutParams} {tenant : Uuid}
    {key : String} (under : p.idempotencyKey = WithdrawalRequest.payoutKey tenant key)
    : (PayoutService.lockInput d p).idempotencyKey = (EngineOperation.lock tenant key).key
      ∧ (PayoutService.settleInput d p).idempotencyKey
        = (EngineOperation.settlement tenant key).key := by
  simp only [PayoutService.lockInput, PayoutService.settleInput, under, EngineOperation.key,
    lockKey, settleKey, and_self]

theorem EngineOperation.key_ref (deposit : WatchedDeposit)
    : deposit.ref
        = (EngineOperation.deposit ⟨_, deposit.known⟩ deposit.txId deposit.index).key
      ∧ "reverse:" ++ deposit.ref
        = (EngineOperation.reversal ⟨_, deposit.known⟩ deposit.txId deposit.index).key :=
  ⟨rfl, rfl⟩

-----------------------------------------------------------------------------
-- What stands in front of the first colon

inductive KeyFront
  | tenant (id : Uuid)
  | chain (name : ChainName)
  | gas
  | feeSweep
  | settle
  | reverse

namespace KeyFront

def text : KeyFront → String
  | tenant id => id.text
  | chain name => name.val
  | gas => "gas"
  | feeSweep => "fee-sweep"
  | settle => "settle"
  | reverse => "reverse"

theorem plain (front : KeyFront) : ':' ∉ front.text.toList := by
  cases front with
  | tenant id => exact id.no_colon
  | chain name =>
      have names : ∀ name ∈ chainNames, ':' ∉ name.toList := by decide
      exact names name.val name.property
  | _ => decide

/-- Every front but that of a tenant has a letter that no identifier has. -/
theorem foreign_letter {front : KeyFront} (foreign : ∀ id, front ≠ tenant id)
    : ∃ c ∈ front.text.toList, c.isUpper = true ∨ c ∈ ['g', 'r', 's'] := by
  cases front with
  | tenant id => exact absurd rfl (foreign id)
  | chain name =>
      have names : ∀ name ∈ chainNames, name.toList.any Char.isUpper = true := by decide
      obtain ⟨c, member, capital⟩ := List.any_eq_true.mp (names name.val name.property)
      exact ⟨c, member, .inl capital⟩
  | gas => exact ⟨'g', by decide, .inr (by decide)⟩
  | feeSweep => exact ⟨'s', by decide, .inr (by decide)⟩
  | settle => exact ⟨'s', by decide, .inr (by decide)⟩
  | reverse => exact ⟨'r', by decide, .inr (by decide)⟩

theorem tenant_ne {id : Uuid} {front : KeyFront} (foreign : ∀ other, front ≠ tenant other)
    : (tenant id).text ≠ front.text := by
  intro same
  obtain ⟨c, member, letter⟩ := foreign_letter foreign
  rw [← same] at member
  rcases letter with capital | listed
  · rw [id.not_upper member] at capital
    cases capital
  · have allowed := id.alphabet c member
    simp only [List.mem_cons, List.not_mem_nil, or_false] at listed
    rcases listed with rfl | rfl | rfl
    all_goals
      revert allowed
      decide

/-- The words in front of a colon are no names of chains. -/
theorem word_ne_chain (name : ChainName) {front : KeyFront}
    (word : front = gas ∨ front = feeSweep ∨ front = settle ∨ front = reverse)
    : name.val ≠ front.text := by
  have words : ∀ name ∈ chainNames,
      name ≠ "gas" ∧ name ≠ "fee-sweep" ∧ name ≠ "settle" ∧ name ≠ "reverse" := by
    decide
  have apart := words name.val name.property
  rcases word with rfl | rfl | rfl | rfl
  · exact apart.1
  · exact apart.2.1
  · exact apart.2.2.1
  · exact apart.2.2.2

theorem text_inj {front other : KeyFront} (same : front.text = other.text) : front = other := by
  cases front with
  | tenant id =>
      cases other with
      | tenant owner =>
          cases id
          cases owner
          cases same
          rfl
      | _ => exact absurd same (tenant_ne nofun)
  | chain name =>
      cases other with
      | tenant owner => exact absurd same.symm (tenant_ne nofun)
      | chain another => exact congrArg chain (Subtype.ext same)
      | _ => exact absurd same (word_ne_chain name (by simp))
  | _ =>
      cases other with
      | tenant owner => exact absurd same.symm (tenant_ne nofun)
      | chain another => exact absurd same.symm (word_ne_chain another (by simp))
      | _ => first | rfl | exact absurd same (by decide)

end KeyFront

/-- A key in two parts, of which the first has no colon. -/
structure KeyParts where
  front : KeyFront
  rest : String

def KeyParts.text (parts : KeyParts) : String := parts.front.text ++ ":" ++ parts.rest

theorem KeyParts.text_inj {parts other : KeyParts} (same : parts.text = other.text)
    : parts = other := by
  obtain ⟨fronts, rests⟩ := colon_first_inj parts.front.plain other.front.plain same
  cases parts
  cases other
  cases KeyFront.text_inj fronts
  cases rests
  rfl

def Transfer.parts : Transfer → KeyParts
  | .leg tenant key count index =>
      { front := .tenant tenant
        rest := if count = 1 then key else key ++ ":" ++ toString index.val }
  | .inlineFee tenant key index =>
      { front := .tenant tenant, rest := key ++ ":fee" ++ ":" ++ toString index }
  | .consoleSweep _ chain address asset amount =>
      { front := .feeSweep
        rest := chain.val ++ ":" ++ (address.val ++ ":" ++ (asset ++ ":" ++ toString amount)) }

theorem Transfer.key_eq_text (sent : Transfer) : sent.key = sent.parts.text := by
  have fee : (":fee:" : String) = ":fee" ++ ":" := by decide
  cases sent with
  | leg tenant key count index =>
      simp only [key_leg, parts, KeyParts.text, KeyFront.text, WithdrawalRequest.payoutKey]
      split <;> simp only [String.append_assoc]
  | inlineFee tenant key index =>
      simp only [key_inlineFee, parts, KeyParts.text, KeyFront.text, WithdrawalRequest.payoutKey,
        fee, String.append_assoc]
  | consoleSweep run chain address asset amount =>
      have front : ("fee-sweep:" : String) = "fee-sweep" ++ ":" := by decide
      simp only [key_consoleSweep, parts, KeyParts.text, KeyFront.text, front,
        String.append_assoc]

def EngineOperation.parts : EngineOperation → KeyParts
  | .transfer sent => sent.parts
  | .gasTopUp ahead => { front := .gas, rest := ahead.key }
  | .lock tenant key => { front := .tenant tenant, rest := key ++ ":" ++ "lock" }
  | .settlement tenant key =>
      { front := .settle, rest := WithdrawalRequest.payoutKey tenant key }
  | .deposit chain txId index =>
      { front := .chain chain, rest := txId ++ ":" ++ toString index }
  | .reversal chain txId index =>
      { front := .reverse, rest := chain.val ++ ":" ++ (txId ++ ":" ++ toString index) }

theorem EngineOperation.key_eq_text (operation : EngineOperation)
    : operation.key = operation.parts.text := by
  have words : ("gas:" : String) = "gas" ++ ":" ∧ ("settle:" : String) = "settle" ++ ":"
      ∧ ("reverse:" : String) = "reverse" ++ ":" ∧ (":lock" : String) = ":" ++ "lock" := by
    decide
  obtain ⟨gas, settle, reverse, lock⟩ := words
  cases operation with
  | transfer sent => exact sent.key_eq_text
  | gasTopUp ahead => simp only [key, parts, KeyParts.text, KeyFront.text, gas]
  | lock tenant key =>
      simp only [EngineOperation.key, parts, KeyParts.text, KeyFront.text, lockKey, lock,
        WithdrawalRequest.payoutKey, String.append_assoc]
  | settlement tenant key =>
      simp only [EngineOperation.key, parts, KeyParts.text, KeyFront.text, settleKey, settle]
  | deposit chain txId index =>
      simp only [key, parts, KeyParts.text, KeyFront.text, String.append_assoc]
  | reversal chain txId index =>
      simp only [key, parts, KeyParts.text, KeyFront.text, reverse, String.append_assoc]

-----------------------------------------------------------------------------
-- Operations that share a key

/-- The same leg of the same payout, in a plan of any number of legs, or the same transfer. -/
def Transfer.same : Transfer → Transfer → Prop
  | .leg tenant key _ index, .leg other otherKey _ place =>
      tenant = other ∧ key = otherKey ∧ index.val = place.val
  | sent, other => sent = other

def EngineOperation.same : EngineOperation → EngineOperation → Prop
  | .transfer sent, .transfer other => sent.same other
  | .gasTopUp ahead, .gasTopUp other => ahead.same other
  | operation, other => operation = other

/-- The text that a tenant chose for one payout is the key of another payout and what the engine
puts behind it, or two runs of the console sweep move the same amount from the same address.
-/
inductive Transfer.Clash : Transfer → Transfer → Prop
  | leg {tenant key count} {index : Fin count} (several : count ≠ 1)
    : Transfer.Clash (.leg tenant (key ++ ":" ++ toString index.val) 1 0)
        (.leg tenant key count index)
  | inlineFee {tenant key index}
    : Transfer.Clash (.leg tenant (key ++ ":fee" ++ ":" ++ toString index) 1 0)
        (.inlineFee tenant key index)
  | legOfFee {tenant key count} {index : Fin count} (several : count ≠ 1)
    : Transfer.Clash (.leg tenant (key ++ ":fee") count index) (.inlineFee tenant key index.val)
  | consoleSweep {run later chain address asset amount} (again : run ≠ later)
    : Transfer.Clash (.consoleSweep run chain address asset amount)
        (.consoleSweep later chain address asset amount)

inductive EngineOperation.Clash : EngineOperation → EngineOperation → Prop
  | transfer {sent other} (clash : Transfer.Clash sent other)
    : EngineOperation.Clash (.transfer sent) (.transfer other)
  | gasTopUp {ahead other} (clash : Transfer.Clash ahead other)
    : EngineOperation.Clash (.gasTopUp ahead) (.gasTopUp other)
  | lock {tenant key}
    : EngineOperation.Clash (.transfer (.leg tenant (key ++ ":" ++ "lock") 1 0))
        (.lock tenant key)

theorem Transfer.Clash.parts {sent other : Transfer} (clash : Transfer.Clash sent other)
    : sent.parts = other.parts := by
  cases clash with
  | leg several => simp [Transfer.parts, several]
  | inlineFee => simp [Transfer.parts]
  | legOfFee several => simp [Transfer.parts, several]
  | consoleSweep again => rfl

theorem Transfer.Clash.apart {sent other : Transfer} (clash : Transfer.Clash sent other)
    : ¬ sent.same other := by
  cases clash with
  | @leg tenant key count index several =>
      intro same
      have lengths := congrArg (fun text => text.toList.length) same.2.1
      simp at lengths
  | inlineFee => exact nofun
  | legOfFee several => exact nofun
  | consoleSweep again =>
      intro same
      cases same
      exact again rfl

namespace Transfer

variable {tenant owner : Uuid} {key otherKey : String}

theorem parts_leg_leg {count otherCount : Nat} {index : Fin count} {place : Fin otherCount}
    (same : (leg tenant key count index).parts = (leg owner otherKey otherCount place).parts)
    : (leg tenant key count index).same (leg owner otherKey otherCount place)
      ∨ Clash (leg tenant key count index) (leg owner otherKey otherCount place)
      ∨ Clash (leg owner otherKey otherCount place) (leg tenant key count index) := by
  simp only [parts, KeyParts.mk.injEq, KeyFront.tenant.injEq] at same
  obtain ⟨rfl, rests⟩ := same
  by_cases one : count = 1
  · subst one
    obtain rfl : index = 0 := Fin.eq_zero index
    rw [if_pos rfl] at rests
    by_cases another : otherCount = 1
    · subst another
      obtain rfl : place = 0 := Fin.eq_zero place
      rw [if_pos rfl] at rests
      exact .inl ⟨rfl, rests, rfl⟩
    · rw [if_neg another] at rests
      subst rests
      exact .inr (.inl (.leg another))
  · rw [if_neg one] at rests
    by_cases another : otherCount = 1
    · subst another
      obtain rfl : place = 0 := Fin.eq_zero place
      rw [if_pos rfl] at rests
      subst rests
      exact .inr (.inr (.leg one))
    · rw [if_neg another] at rests
      obtain ⟨keys, digits⟩ :=
        colon_last_inj (toString_nat_plain _) (toString_nat_plain _) rests
      exact .inl ⟨rfl, keys, toString_nat_inj digits⟩

theorem parts_leg_inlineFee {count : Nat} {index : Fin count} {round : Nat}
    (same : (leg tenant key count index).parts = (inlineFee owner otherKey round).parts)
    : Clash (leg tenant key count index) (inlineFee owner otherKey round) := by
  simp only [parts, KeyParts.mk.injEq, KeyFront.tenant.injEq] at same
  obtain ⟨rfl, rests⟩ := same
  by_cases one : count = 1
  · subst one
    obtain rfl : index = 0 := Fin.eq_zero index
    rw [if_pos rfl] at rests
    subst rests
    exact .inlineFee
  · rw [if_neg one] at rests
    obtain ⟨rfl, digits⟩ := colon_last_inj (toString_nat_plain _) (toString_nat_plain _) rests
    obtain rfl := toString_nat_inj digits
    exact .legOfFee one

theorem parts_inlineFee_inlineFee {round another : Nat}
    (same : (inlineFee tenant key round).parts = (inlineFee owner otherKey another).parts)
    : inlineFee tenant key round = inlineFee owner otherKey another := by
  simp only [parts, KeyParts.mk.injEq, KeyFront.tenant.injEq] at same
  obtain ⟨rfl, rests⟩ := same
  obtain ⟨fees, digits⟩ := colon_last_inj (toString_nat_plain _) (toString_nat_plain _) rests
  obtain rfl := toString_nat_inj digits
  have letters := congrArg String.toList fees
  rw [String.toList_append, String.toList_append] at letters
  rw [String.toList_inj.mp (List.append_cancel_right letters)]

theorem parts_consoleSweep_consoleSweep {run later : Nat} {chain network : ChainName}
    {address another : AddressText} {asset token : String} {amount sum : Int}
    (same : (consoleSweep run chain address asset amount).parts
      = (consoleSweep later network another token sum).parts)
    : chain = network ∧ address = another ∧ asset = token ∧ amount = sum := by
  have rests : chain.val ++ ":" ++ (address.val ++ ":" ++ (asset ++ ":" ++ toString amount))
      = network.val ++ ":" ++ (another.val ++ ":" ++ (token ++ ":" ++ toString sum)) :=
    congrArg KeyParts.rest same
  have plain := fun name => KeyFront.plain (.chain name)
  obtain ⟨chains, rests⟩ := colon_first_inj (plain chain) (plain network) rests
  obtain ⟨addresses, rests⟩ := colon_first_inj address.property another.property rests
  obtain ⟨assets, amounts⟩ :=
    colon_last_inj (toString_int_plain amount) (toString_int_plain sum) rests
  exact ⟨Subtype.ext chains, Subtype.ext addresses, assets, toString_int_inj amounts⟩

/-- Two transfers whose keys agree in both parts are the same one, or clash. -/
theorem same_or_clash {sent other : Transfer} (same : sent.parts = other.parts)
    : sent.same other ∨ Clash sent other ∨ Clash other sent := by
  have fronts := congrArg KeyParts.front same
  cases sent with
  | leg tenant key count index =>
      cases other with
      | leg owner otherKey otherCount place => exact parts_leg_leg same
      | inlineFee owner otherKey round => exact .inr (.inl (parts_leg_inlineFee same))
      | consoleSweep run chain address asset amount => cases fronts
  | inlineFee tenant key round =>
      cases other with
      | leg owner otherKey otherCount place =>
          exact .inr (.inr (parts_leg_inlineFee same.symm))
      | inlineFee owner otherKey another => exact .inl (parts_inlineFee_inlineFee same)
      | consoleSweep run chain address asset amount => cases fronts
  | consoleSweep run chain address asset amount =>
      cases other with
      | leg owner otherKey otherCount place => cases fronts
      | inlineFee owner otherKey another => cases fronts
      | consoleSweep later network another token sum =>
          obtain ⟨rfl, rfl, rfl, rfl⟩ := parts_consoleSweep_consoleSweep same
          by_cases again : run = later
          · exact .inl (again ▸ rfl)
          · exact .inr (.inl (.consoleSweep again))

end Transfer

theorem toString_ne_lock (n : Nat) : toString n ≠ "lock" := by
  intro same
  have letter : 'l' ∈ (toString n).toList := by
    rw [same]
    decide
  exact absurd (digit_of_mem_toString letter) (by decide)

theorem payoutKey_inj {tenant owner : Uuid} {key otherKey : String}
    (same : WithdrawalRequest.payoutKey tenant key = WithdrawalRequest.payoutKey owner otherKey)
    : tenant = owner ∧ key = otherKey := by
  obtain ⟨tenants, keys⟩ := colon_first_inj tenant.no_colon owner.no_colon same
  cases tenant
  cases owner
  cases tenants
  exact ⟨rfl, keys⟩

namespace EngineOperation

/-- A transfer and a lock agree in both parts of their keys only if they clash. -/
theorem parts_transfer_lock {sent : Transfer} {tenant : Uuid} {key : String}
    (same : (transfer sent).parts = (lock tenant key).parts)
    : Clash (transfer sent) (lock tenant key) := by
  have plain : ':' ∉ ("lock" : String).toList := by decide
  have fronts := congrArg KeyParts.front same
  have rests := congrArg KeyParts.rest same
  cases sent with
  | leg owner otherKey count index =>
      obtain rfl := KeyFront.tenant.inj fronts
      simp only [parts, Transfer.parts] at rests
      by_cases one : count = 1
      · subst one
        obtain rfl : index = 0 := Fin.eq_zero index
        rw [if_pos rfl] at rests
        subst rests
        exact .lock
      · rw [if_neg one] at rests
        have digits := (colon_last_inj (toString_nat_plain _) plain rests).2
        exact absurd digits (toString_ne_lock _)
  | inlineFee owner otherKey round =>
      have digits := (colon_last_inj (toString_nat_plain _) plain rests).2
      exact absurd digits (toString_ne_lock _)
  | consoleSweep run chain address asset amount => cases fronts

theorem parts_deposit {chain network : ChainName} {txId hash : String} {index place : Nat}
    (chains : chain = network)
    (rests : txId ++ ":" ++ toString index = hash ++ ":" ++ toString place)
    : chain = network ∧ txId = hash ∧ index = place := by
  obtain ⟨hashes, digits⟩ := colon_last_inj (toString_nat_plain _) (toString_nat_plain _) rests
  exact ⟨chains, hashes, toString_nat_inj digits⟩

/-- Two operations with one key are the same one, or clash. -/
theorem same_or_clash {operation other : EngineOperation} (shared : operation.key = other.key)
    : operation.same other ∨ Clash operation other ∨ Clash other operation := by
  rw [key_eq_text, key_eq_text] at shared
  have same := KeyParts.text_inj shared
  have fronts := congrArg KeyParts.front same
  have rests := congrArg KeyParts.rest same
  cases operation with
  | transfer sent =>
      cases other with
      | transfer another =>
          exact (Transfer.same_or_clash same).imp_right fun clash =>
            clash.imp .transfer .transfer
      | lock tenant key => exact .inr (.inl (parts_transfer_lock same))
      | _ => cases sent <;> cases fronts
  | gasTopUp ahead =>
      cases other with
      | gasTopUp another =>
          have keys : ahead.key = another.key := rests
          rw [Transfer.key_eq_text, Transfer.key_eq_text] at keys
          exact (Transfer.same_or_clash (KeyParts.text_inj keys)).imp_right fun clash =>
            clash.imp .gasTopUp .gasTopUp
      | transfer another => cases another <;> cases fronts
      | _ => cases fronts
  | lock tenant key =>
      cases other with
      | transfer another => exact .inr (.inr (parts_transfer_lock same.symm))
      | lock owner otherKey =>
          obtain rfl := KeyFront.tenant.inj fronts
          have plain : ':' ∉ ("lock" : String).toList := by decide
          obtain ⟨rfl, -⟩ := colon_last_inj plain plain rests
          exact .inl rfl
      | _ => cases fronts
  | settlement tenant key =>
      cases other with
      | settlement owner otherKey =>
          obtain ⟨rfl, rfl⟩ := payoutKey_inj rests
          exact .inl rfl
      | transfer another => cases another <;> cases fronts
      | _ => cases fronts
  | deposit chain txId index =>
      cases other with
      | deposit network hash place =>
          obtain ⟨rfl, rfl, rfl⟩ := parts_deposit (KeyFront.chain.inj fronts) rests
          exact .inl rfl
      | transfer another => cases another <;> cases fronts
      | _ => cases fronts
  | reversal chain txId index =>
      cases other with
      | reversal network hash place =>
          have plain := fun name => KeyFront.plain (.chain name)
          obtain ⟨chains, texts⟩ := colon_first_inj (plain chain) (plain network) rests
          obtain ⟨rfl, rfl, rfl⟩ := parts_deposit (Subtype.ext chains) texts
          exact .inl rfl
      | transfer another => cases another <;> cases fronts
      | _ => cases fronts

theorem Clash.key {operation other : EngineOperation} (clash : Clash operation other)
    : operation.key = other.key := by
  rw [key_eq_text, key_eq_text]
  cases clash with
  | transfer clash => simp only [parts, clash.parts]
  | gasTopUp clash => simp only [parts, Transfer.key_eq_text, clash.parts]
  | lock => simp [parts, Transfer.parts]

theorem Clash.apart {operation other : EngineOperation} (clash : Clash operation other)
    : ¬ operation.same other := by
  cases clash with
  | transfer clash => exact clash.apart
  | gasTopUp clash => exact clash.apart
  | lock => exact nofun

/-- When no two operations of a kind share a key. -/
theorem distinct_iff (operations : Set EngineOperation) (kind : EngineOperation → Bool)
    : (∀ operation ∈ operations, ∀ other ∈ operations,
        kind operation = true → kind other = true → operation.key = other.key
        → operation.same other)
      ↔ ∀ operation ∈ operations, ∀ other ∈ operations,
        kind operation = true → kind other = true → ¬ Clash operation other := by
  constructor
  · intro distinct operation here other there ofKind otherOfKind clash
    exact clash.apart (distinct operation here other there ofKind otherOfKind clash.key)
  · intro clear operation here other there ofKind otherOfKind shared
    rcases same_or_clash shared with same | clash | clash
    · exact same
    · exact absurd clash (clear operation here other there ofKind otherOfKind)
    · exact absurd clash (clear other there operation here otherOfKind ofKind)

/-- The keys passed to the broadcaster are distinct as far as no tenant's text for a payout is the
key of another payout with a leg or a fee leg behind it and no two console sweeps are alike.
The keys of journal entries are distinct but for such sweeps. Across both, a text may also be
the key of another payout with its lock behind it.
-/
theorem operation_keys_distinct_iff (operations : Set EngineOperation)
    : ((∀ operation ∈ operations, ∀ other ∈ operations,
          operation.sends = true → other.sends = true → operation.key = other.key
          → operation.same other)
        ↔ ∀ operation ∈ operations, ∀ other ∈ operations,
          operation.sends = true → other.sends = true → ¬ Clash operation other)
      ∧ ((∀ operation ∈ operations, ∀ other ∈ operations,
            operation.posts = true → other.posts = true → operation.key = other.key
            → operation.same other)
          ↔ ∀ run later chain address asset amount,
            transfer (.consoleSweep run chain address asset amount) ∈ operations
            → transfer (.consoleSweep later chain address asset amount) ∈ operations
            → run = later)
      ∧ ((∀ operation ∈ operations, ∀ other ∈ operations,
            operation.key = other.key → operation.same other)
          ↔ ∀ operation ∈ operations, ∀ other ∈ operations, ¬ Clash operation other)
    := by
  refine ⟨distinct_iff operations sends, (distinct_iff operations posts).trans ?_, ?_⟩
  · constructor
    · intro clear run later chain address asset amount here there
      by_contra again
      exact clear _ here _ there rfl rfl (.transfer (.consoleSweep again))
    · intro once operation here other there posted otherPosted clash
      cases clash with
      | gasTopUp clash => cases posted
      | lock => cases posted
      | transfer clash =>
          cases clash with
          | consoleSweep again => exact again (once _ _ _ _ _ _ here there)
          | _ => cases posted
  · have any := distinct_iff operations fun _ => true
    simpa using any

end EngineOperation

-----------------------------------------------------------------------------
-- Two payouts that share a key

def keysDeposit : JournalEntry :=
  { id := "deposit", idempotencyKey := "deposit", kind := "deposit.finalized"
    postings :=
      [ ⟨poolAddr "TRON" "bb", "USDT", 200, .debit⟩,
        ⟨merchantAvailable "aa" "bb", "USDT", 200, .credit⟩ ] }

def keysWithdrawal (key : String) (amount : Int) : WithdrawalRequest :=
  { tenant := sampleTenant, keyId := "key", merchant := sampleMerchant, chain := "TRON"
    asset := "USDT", amount, destination := "dest", key }

/-- The key that a call under the key of a payout has passed to the broadcaster. -/
def sentUnder (payoutKey : String) : Effect → Option String
  | .sent key request => if key = payoutKey then some request.idempotencyKey else none
  | _ => none

/-- A tenant withdraws 100 from two addresses under `x`, and 60 from one under `x:0`. The
first leg of the one and the leg of the other are sent with one key.
-/
theorem leg_keys_shared
    : let first := Transfer.leg sampleTenant "x" 2 0
      let second := Transfer.leg sampleTenant "x:0" 1 0
      (∃ system,
          Reaches (System.step plainDeployment) (fun _ _ => True)
            { store := emptyStore, tasks := [] } system
          ∧ ∃ leg ∈ system.store.effects, ∃ other ∈ system.store.effects,
            sentUnder "aa:x" leg = some first.key ∧ sentUnder "aa:x:0" other = some second.key)
        ∧ first.key = second.key
        ∧ ¬ first.same second :=
  ⟨Reaches.exists_of_exec
      ([ .post keysDeposit, .call (.withdraw (keysWithdrawal "x" 100)),
          .call (.withdraw (keysWithdrawal "x:0" 60)) ]
        ++ completes 0 16 (sampleReply "a" [60, 40]) ++ completes 1 12 (sampleReply "b" [60]))
      (by decide +kernel),
    by decide, fun same => absurd same.2.1 (by decide)⟩

end Cixtech.Treasury
