import Cixtech.Attribution.PoolManager
import Cixtech.Ledger.Service

/-! Ingesting one confirmed deposit: attribute it through the pool address it was paid to,
screen it, and post it as a credit or as a quarantine under a reference made of its chain,
its transaction and its index.
-/

namespace Cixtech.Ingest

open Cixtech.Attribution Cixtech.Common Cixtech.Foundation Cixtech.Ledger

/-- `from` and `tokenContract` are carried along and read by no posting. -/
structure ChainDeposit where
  chain : String
  txId : String
  index : Nat
  to_ : String
  from_ : String
  asset : String
  tokenContract : Option String
  amountBaseUnits : Int
  blockNumber : Option Nat
  deriving DecidableEq, Repr

/-- `${chain}:${txId}:${index}`. -/
def ChainDeposit.ref (deposit : ChainDeposit) : String :=
  deposit.chain ++ ":" ++ deposit.txId ++ ":" ++ toString deposit.index

structure AttributionEntry where
  tenant : Uuid
  merchant : Uuid
  feeBasisPoints : JsNumber
  deriving DecidableEq

inductive IngestStatus
  | credited
  | quarantined
  | duplicate
  | unmatched
  deriving DecidableEq, Repr

structure IngestResult where
  status : IngestStatus
  ref : String
  deriving DecidableEq, Repr

inductive ReverseStatus
  | reversed
  | notFound
  deriving DecidableEq, Repr

/-- What the ingestor is constructed with. The screener is optional, and so is the lifecycle,
which is given here as the cool-down it grants an address.
-/
structure IngestorConfig where
  casing : Casing
  feePolicy : Uuid → Uuid → JsNumber
  screener : Option (ChainDeposit → Except AppError Bool)
  cooldownMs : Option Int

/-- The tables that an ingestion reads and writes. -/
structure IngestStore where
  pool : List PoolAddressRow
  ledger : SqlLedger

namespace DepositIngestor

def quarantineInput (casing : Casing) (owner : AttributionEntry) (deposit : ChainDeposit)
    : DepositQuarantinedInput :=
  { id := deposit.ref, idempotencyKey := deposit.ref
    asset := casing.toUpperCase deposit.asset, amount := deposit.amountBaseUnits
    poolAddr := poolAddr deposit.chain owner.merchant.text
    complianceSuspense := complianceSuspense owner.tenant.text }

def creditInput (casing : Casing) (owner : AttributionEntry) (deposit : ChainDeposit)
    : DepositFinalizedInput :=
  { id := deposit.ref, idempotencyKey := deposit.ref
    asset := casing.toUpperCase deposit.asset, amount := deposit.amountBaseUnits
    feeBasisPoints := owner.feeBasisPoints
    poolAddr := poolAddr deposit.chain owner.merchant.text
    merchantAvailable := merchantAvailable owner.tenant.text owner.merchant.text
    feeRevenue := feeRevenue owner.tenant.text }

/-- Build and post the entry of an attributed deposit: a quarantine when the screener blocks
it, a credit otherwise.
-/
def record (casing : Casing) (ledger : SqlLedger) (owner : AttributionEntry) (blocked : Bool)
    (deposit : ChainDeposit)
    : Except AppError (SqlLedger × Bool) := do
  let entry ←
    if blocked then depositQuarantined (quarantineInput casing owner deposit)
    else depositFinalized (creditInput casing owner deposit)
  LedgerService.post ledger entry

/-- The owner of the address that a deposit was paid to, with the fee of the owner. -/
def ownerOf (config : IngestorConfig) (pool : List PoolAddressRow) (deposit : ChainDeposit)
    : Option AttributionEntry :=
  (PoolManager.resolve pool deposit.chain deposit.to_).map fun (tenant, merchant) =>
    { tenant, merchant, feeBasisPoints := config.feePolicy tenant merchant }

/-- What the lifecycle makes of the address of a deposit that was applied, whose errors are
swallowed.
-/
def advanceAddress (config : IngestorConfig) (now : Int) (blocked : Bool)
    (deposit : ChainDeposit) (pool : List PoolAddressRow)
    : List PoolAddressRow :=
  match config.cooldownMs with
  | none => pool
  | some cooldownMs =>
      match PoolManager.markInUse pool deposit.chain deposit.to_ with
      | .error _ => pool
      | .ok marked =>
          if blocked then marked
          else
            match PoolManager.cool marked deposit.chain deposit.to_ (now + cooldownMs) with
            | .error _ => marked
            | .ok cooled => cooled

/-- `this.screener && (await this.screener.screen(d)) === "blocked"`. -/
def screened (config : IngestorConfig) (deposit : ChainDeposit) : Except AppError Bool :=
  match config.screener with
  | none => .ok false
  | some screen => screen deposit

def ingestConfirmed (config : IngestorConfig) (now : Int) (store : IngestStore)
    (deposit : ChainDeposit)
    : Except AppError (IngestStore × IngestResult) :=
  match ownerOf config store.pool deposit with
  | none => .ok (store, { status := .unmatched, ref := deposit.ref })
  | some owner => do
      let blocked ← screened config deposit
      let (ledger, applied) ← record config.casing store.ledger owner blocked deposit
      let pool :=
        if applied then advanceAddress config now blocked deposit store.pool else store.pool
      let status :=
        if applied then (if blocked then .quarantined else .credited) else .duplicate
      return ({ pool, ledger }, { status, ref := deposit.ref })

/-- Reverse the entry of a deposit that a reorganisation took back. -/
def reverseCredit (ledger : SqlLedger) (deposit : ChainDeposit)
    : Except AppError (SqlLedger × ReverseStatus) :=
  let newRef := "reverse:" ++ deposit.ref
  match LedgerService.reverseByRef ledger deposit.ref newRef newRef with
  | .ok (ledger, _) => .ok (ledger, .reversed)
  | .error err =>
      if err.code = .ledgerUnknownEntry then .ok (ledger, .notFound) else .error err

-----------------------------------------------------------------------------
-- What an ingestion leaves behind

/-- The entry that a blocked deposit is posted with. -/
def quarantineEntry (casing : Casing) (owner : AttributionEntry) (deposit : ChainDeposit)
    : JournalEntry :=
  let input := quarantineInput casing owner deposit
  movementEntry "deposit.quarantined" input.id input.idempotencyKey input.asset input.amount
    input.poolAddr input.complianceSuspense none

/-- The entry of an attributed deposit, none where its builder throws. -/
def entryOf (casing : Casing) (owner : AttributionEntry) (blocked : Bool)
    (deposit : ChainDeposit)
    : Option JournalEntry :=
  if blocked then
    if deposit.amountBaseUnits ≤ 0 then none else some (quarantineEntry casing owner deposit)
  else
    match splitFee deposit.amountBaseUnits owner.feeBasisPoints with
    | .error _ => none
    | .ok split => some (finalizedEntry (creditInput casing owner deposit) split)

theorem entryOf_balanced {casing : Casing} {owner : AttributionEntry} {blocked : Bool}
    {deposit : ChainDeposit} {entry : JournalEntry}
    (built : entryOf casing owner blocked deposit = some entry)
    : Balanced entry.postings := by
  unfold entryOf at built
  split at built
  · split at built
    · cases built
    case isFalse positive =>
      obtain rfl := Option.some.inj built
      exact balanced_movementEntry (Int.not_le.mp positive)
  · split at built
    · cases built
    case h_2 split done =>
      obtain rfl := Option.some.inj built
      exact balanced_finalizedEntry done

/-- Every posting of a deposit is in its asset. -/
theorem entryOf_single {casing : Casing} {owner : AttributionEntry} {blocked : Bool}
    {deposit : ChainDeposit} {entry : JournalEntry}
    (built : entryOf casing owner blocked deposit = some entry)
    : ∀ posting ∈ entry.postings, posting.asset = casing.toUpperCase deposit.asset := by
  unfold entryOf at built
  intro posting member
  split at built
  · split at built
    · cases built
    · obtain rfl := Option.some.inj built
      rcases List.mem_cons.mp member with rfl | last
      · rfl
      · rw [List.mem_singleton.mp last]
        rfl
  · split at built
    · cases built
    · obtain rfl := Option.some.inj built
      simp only [finalizedEntry, List.mem_append, List.mem_cons, List.not_mem_nil, or_false]
        at member
      rcases member with (rfl | rfl) | charged
      · rfl
      · rfl
      · split at charged
        · rw [List.mem_singleton.mp charged]
          rfl
        · cases charged

/-- Only a positive deposit has an entry. -/
theorem entryOf_positive {casing : Casing} {owner : AttributionEntry} {blocked : Bool}
    {deposit : ChainDeposit} {entry : JournalEntry}
    (built : entryOf casing owner blocked deposit = some entry)
    : 0 < deposit.amountBaseUnits := by
  unfold entryOf at built
  split at built
  · split at built
    · cases built
    case isFalse positive => exact Int.not_le.mp positive
  · split at built
    · cases built
    case h_2 split done => exact (splitFee_eq_ok_iff.mp done).1

/-- Among the pool accounts of its chain, a deposit leaves its amount on that of its owner, in
its asset, and nothing on another.
-/
theorem entryOf_netOn {casing : Casing} {owner : AttributionEntry} {blocked : Bool}
    {deposit : ChainDeposit} {entry : JournalEntry}
    (built : entryOf casing owner blocked deposit = some entry) (merchant asset : String)
    : SqlLedger.netOn (poolAddr deposit.chain merchant) asset entry.postings
      = if owner.merchant.text = merchant ∧ casing.toUpperCase deposit.asset = asset then
          deposit.amountBaseUnits
        else 0 := by
  obtain ⟨available, suspense, revenue⟩ := poolAddr_ne deposit.chain merchant
  unfold entryOf at built
  split at built
  · split at built
    · cases built
    · obtain rfl := Option.some.inj built
      by_cases own : owner.merchant.text = merchant <;>
        by_cases same : casing.toUpperCase deposit.asset = asset <;>
          simp [SqlLedger.netOn, quarantineEntry, quarantineInput, movementEntry,
            networkFeePostings, suspense, poolAddr_inj, own, same]
  · split at built
    · cases built
    case h_2 split done =>
      obtain rfl := Option.some.inj built
      by_cases charged : split.fee > 0 <;>
        by_cases own : owner.merchant.text = merchant <;>
          by_cases same : casing.toUpperCase deposit.asset = asset <;>
            simp [SqlLedger.netOn, finalizedEntry, creditInput, charged, available, revenue,
              poolAddr_inj, own, same]

/-- A deposit leaves its amount on the pool account of its owner. -/
theorem entryOf_pool {casing : Casing} {owner : AttributionEntry} {blocked : Bool}
    {deposit : ChainDeposit} {entry : JournalEntry}
    (built : entryOf casing owner blocked deposit = some entry)
    : SqlLedger.netOn (poolAddr deposit.chain owner.merchant.text)
          (casing.toUpperCase deposit.asset) entry.postings
        = deposit.amountBaseUnits
      ∧ 0 < deposit.amountBaseUnits := by
  refine ⟨?_, entryOf_positive built⟩
  rw [entryOf_netOn built, if_pos ⟨rfl, rfl⟩]

/-- An attributed deposit is appended as its entry, or rejected where it has none. -/
theorem record_of_entryOf {casing : Casing} {owner : AttributionEntry} {blocked : Bool}
    {deposit : ChainDeposit} {entry : JournalEntry} (ledger : SqlLedger)
    (built : entryOf casing owner blocked deposit = some entry)
    : record casing ledger owner blocked deposit = ledger.append entry := by
  have posted : LedgerService.post ledger entry = ledger.append entry :=
    LedgerService.post_of_balanced (entryOf_balanced built)
  cases blocked with
  | true =>
      simp only [entryOf, if_true] at built
      split at built
      · cases built
      case isFalse positive =>
        cases built
        simp only [record, if_true, depositQuarantined, movement_eq, quarantineInput,
          if_neg positive, bind, Except.bind]
        exact posted
  | false =>
      simp only [entryOf, Bool.false_eq_true, if_false] at built
      split at built
      · cases built
      case h_2 split done =>
        cases built
        have credit : depositFinalized (creditInput casing owner deposit)
            = .ok (finalizedEntry (creditInput casing owner deposit) split) :=
          depositFinalized_of_split done
        simp only [record, Bool.false_eq_true, if_false, bind, Except.bind, credit]
        exact posted

theorem record_of_rejected {casing : Casing} {owner : AttributionEntry} {blocked : Bool}
    {deposit : ChainDeposit} (ledger : SqlLedger)
    (rejected : entryOf casing owner blocked deposit = none)
    : ∃ err, record casing ledger owner blocked deposit = .error err := by
  cases blocked with
  | true =>
      simp only [entryOf, if_true] at rejected
      split at rejected
      case isTrue notPositive =>
        refine ⟨invalidPosting
          s!"Deposit amount must be positive, got {deposit.amountBaseUnits}", ?_⟩
        simp only [record, if_true, depositQuarantined, movement_eq, quarantineInput,
          if_pos notPositive, bind, Except.bind]
        rfl
      case isFalse => cases rejected
  | false =>
      simp only [entryOf, Bool.false_eq_true, if_false] at rejected
      split at rejected
      case h_1 err failed =>
        have refused : depositFinalized (creditInput casing owner deposit) = .error err :=
          depositFinalized_of_error failed
        exact ⟨err, by simp only [record, Bool.false_eq_true, if_false, bind, Except.bind, refused]⟩
      · cases rejected

/-- An ingestion that does not throw left a deposit alone that nobody owns, or it appended the
entry of the deposit, and moved the address where the entry was new.
-/
theorem ingestConfirmed_ok {config : IngestorConfig} {now : Int} {store after : IngestStore}
    {deposit : ChainDeposit} {result : IngestResult}
    (done : ingestConfirmed config now store deposit = .ok (after, result))
    : (after = store ∧ result = { status := .unmatched, ref := deposit.ref })
      ∨ ∃ owner blocked entry applied,
          ownerOf config store.pool deposit = some owner
          ∧ screened config deposit = .ok blocked
          ∧ entryOf config.casing owner blocked deposit = some entry
          ∧ store.ledger.append entry = .ok (after.ledger, applied)
          ∧ after.pool
            = (if applied then advanceAddress config now blocked deposit store.pool
              else store.pool)
          ∧ result
            = { status := if applied then (if blocked then .quarantined else .credited)
                  else .duplicate
                ref := deposit.ref } := by
  unfold ingestConfirmed at done
  split at done
  case h_1 =>
    cases done
    exact .inl ⟨rfl, rfl⟩
  case h_2 owner owns =>
    simp only [bind, Except.bind, pure, Except.pure] at done
    split at done
    · cases done
    case h_2 blocked screens =>
      split at done
      · cases done
      case h_2 posted recorded =>
        obtain ⟨ledger, applied⟩ := posted
        cases done
        cases built : entryOf config.casing owner blocked deposit with
        | none =>
            obtain ⟨err, failed⟩ := record_of_rejected store.ledger built
            cases failed.symm.trans recorded
        | some entry =>
            rw [record_of_entryOf store.ledger built] at recorded
            exact .inr ⟨owner, blocked, entry, applied, owns, screens, built, recorded, rfl, rfl⟩

/-- The entry of a deposit carries the reference of the deposit. -/
theorem entryOf_ref {casing : Casing} {owner : AttributionEntry} {blocked : Bool}
    {deposit : ChainDeposit} {entry : JournalEntry}
    (built : entryOf casing owner blocked deposit = some entry)
    : entry.id = deposit.ref ∧ entry.idempotencyKey = deposit.ref := by
  unfold entryOf at built
  split at built
  · split at built <;> cases built
    exact ⟨rfl, rfl⟩
  · split at built <;> cases built
    exact ⟨rfl, rfl⟩

/-- The entry that a deposit is to be posted as, none where it has no owner, the screener
throws or its builder does.
-/
def entryFor (config : IngestorConfig) (pool : List PoolAddressRow) (deposit : ChainDeposit)
    : Option JournalEntry :=
  (ownerOf config pool deposit).bind fun owner =>
    match screened config deposit with
    | .error _ => none
    | .ok blocked => entryOf config.casing owner blocked deposit

/-- Whether the ingestion of a deposit throws: it has an owner and no entry. -/
def rejected (config : IngestorConfig) (pool : List PoolAddressRow) (deposit : ChainDeposit)
    : Bool :=
  (ownerOf config pool deposit).isSome && (entryFor config pool deposit).isNone

theorem entryFor_ref {config : IngestorConfig} {pool : List PoolAddressRow}
    {deposit : ChainDeposit} {entry : JournalEntry}
    (built : entryFor config pool deposit = some entry)
    : entry.id = deposit.ref ∧ entry.idempotencyKey = deposit.ref := by
  obtain ⟨owner, -, made⟩ := Option.bind_eq_some_iff.mp built
  split at made
  · cases made
  · exact entryOf_ref made

/-- What the lifecycle does leaves every address with the owner it had. -/
theorem resolve_advanceAddress (config : IngestorConfig) (now : Int) (blocked : Bool)
    (deposit : ChainDeposit) (pool : List PoolAddressRow) (chain address : String)
    : PoolManager.resolve (advanceAddress config now blocked deposit pool) chain address
      = PoolManager.resolve pool chain address := by
  unfold advanceAddress
  split
  · rfl
  case h_2 cooldownMs _ =>
    split
    · rfl
    case h_2 marked detected =>
      have afterMark : PoolManager.resolve marked chain address
          = PoolManager.resolve pool chain address :=
        PoolManager.resolve_apply (by decide) detected (by decide) chain address
      split
      · exact afterMark
      · split
        · exact afterMark
        case h_2 cooled coolDown =>
          have afterCool : PoolManager.resolve cooled chain address
              = PoolManager.resolve marked chain address :=
            PoolManager.resolve_apply (by decide) coolDown (by decide) chain address
          exact afterCool.trans afterMark

/-- Two pools that attribute every address alike. -/
def SameOwners (pool other : List PoolAddressRow) : Prop :=
  ∀ chain address, PoolManager.resolve other chain address
    = PoolManager.resolve pool chain address

theorem SameOwners.ownerOf_eq {pool other : List PoolAddressRow} (same : SameOwners pool other)
    (config : IngestorConfig) (deposit : ChainDeposit)
    : ownerOf config other deposit = ownerOf config pool deposit := by
  rw [ownerOf, ownerOf, same]

theorem SameOwners.entryFor_eq {pool other : List PoolAddressRow} (same : SameOwners pool other)
    (config : IngestorConfig)
    : entryFor config other = entryFor config pool := by
  funext deposit
  rw [entryFor, entryFor, same.ownerOf_eq]

theorem SameOwners.rejected_eq {pool other : List PoolAddressRow} (same : SameOwners pool other)
    (config : IngestorConfig)
    : rejected config other = rejected config pool := by
  funext deposit
  rw [rejected, rejected, same.ownerOf_eq, same.entryFor_eq]

/-- A deposit with an entry is ingested: the journal takes the entry unless it has its id. -/
theorem ingestConfirmed_of_entryFor {config : IngestorConfig} {store : IngestStore}
    {deposit : ChainDeposit} {entry : JournalEntry} (now : Int)
    (keyed : store.ledger.Keyed) (built : entryFor config store.pool deposit = some entry)
    : ∃ after blocked,
        screened config deposit = .ok blocked
        ∧ ingestConfirmed config now store deposit
          = .ok
              ( after,
                { status :=
                    if store.ledger.hasKey deposit.ref then .duplicate
                    else if blocked then .quarantined
                    else .credited
                  ref := deposit.ref })
        ∧ store.ledger.append entry = .ok (after.ledger, !store.ledger.hasKey deposit.ref)
        ∧ after.ledger.journal
          = Table.insertIgnore JournalEntry.id store.ledger.journal entry
        ∧ after.ledger.Keyed
        ∧ SameOwners store.pool after.pool := by
  obtain ⟨id, key⟩ := entryFor_ref built
  obtain ⟨owner, owns, made⟩ := Option.bind_eq_some_iff.mp built
  split at made
  · cases made
  case h_2 blocked screens =>
    obtain ⟨ledger, appended, journal, later⟩ := keyed.append (id.trans key.symm)
    have recorded : record config.casing store.ledger owner blocked deposit
        = .ok (ledger, !store.ledger.hasKey deposit.ref) := by
      rw [record_of_entryOf store.ledger made, appended, key]
    let pool :=
      if store.ledger.hasKey deposit.ref then store.pool
      else advanceAddress config now blocked deposit store.pool
    refine ⟨{ pool, ledger }, blocked, screens, ?_, by rw [appended, key], journal, later, ?_⟩
    · unfold ingestConfirmed
      rw [owns]
      simp only [screens, recorded, bind, Except.bind, pure, Except.pure]
      cases held : store.ledger.hasKey deposit.ref <;> simp [pool, held]
    · intro chain address
      simp only [pool]
      split
      · rfl
      · exact resolve_advanceAddress config now blocked deposit store.pool chain address

theorem ingestConfirmed_of_rejected {config : IngestorConfig} {store : IngestStore}
    {deposit : ChainDeposit} (now : Int)
    (rejects : rejected config store.pool deposit = true)
    : ∃ err, ingestConfirmed config now store deposit = .error err := by
  simp only [rejected, Bool.and_eq_true, Option.isSome_iff_exists, Option.isNone_iff_eq_none]
    at rejects
  obtain ⟨⟨owner, owns⟩, unbuilt⟩ := rejects
  rw [entryFor, owns, Option.bind_some] at unbuilt
  unfold ingestConfirmed
  rw [owns]
  split at unbuilt
  case h_1 err screens =>
    exact ⟨err, by simp only [screens, bind, Except.bind]⟩
  case h_2 blocked screens =>
    obtain ⟨err, failed⟩ := record_of_rejected store.ledger unbuilt
    exact ⟨err, by simp only [screens, failed, bind, Except.bind]⟩

theorem ingestConfirmed_of_unmatched {config : IngestorConfig} {store : IngestStore}
    {deposit : ChainDeposit} (now : Int) (nobody : ownerOf config store.pool deposit = none)
    : ingestConfirmed config now store deposit
      = .ok (store, { status := .unmatched, ref := deposit.ref }) := by
  unfold ingestConfirmed
  rw [nobody]

end DepositIngestor

end Cixtech.Ingest
