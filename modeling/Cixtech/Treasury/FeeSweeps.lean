import Cixtech.Foundation.Executions
import Cixtech.Treasury.ClaimedFees

/-! Sweeps one after another, with deposits between their awaits, and with rejections and
crashes at any of them. While every transfer is followed by its posting under a key that is
still free, the journal has one entry for each transfer, and all sweeps together move no
more than the deposits left to claim.
-/

namespace Cixtech.Treasury

open Cixtech.Attribution Cixtech.Common Cixtech.Foundation Cixtech.Ingest Cixtech.Ledger
  Cixtech.Payout

/-- A reply whose groups name the tenant of each merchant. -/
structure OwnedReply (tenantOf : Uuid → Uuid) extends SweepReply where
  owned : ∀ group ∈ groups, group.tenant = tenantOf group.merchant

structure SweepSystem where
  store : SweepStore
  running : Option (SweepVars × SweepStage)

inductive SweepEvent (tenantOf : Uuid → Uuid)
  | elapse (ms : Nat)
  | deposit (deposit : ChainDeposit) (merchant : Uuid) (feeBasisPoints : JsNumber)
      (blocked : Bool)
  | start (asset : String)
  /-- What is awaited takes effect and answers. -/
  | resume (reply : OwnedReply tenantOf)
  /-- What is awaited throws without an effect. -/
  | reject (err : AppError)
  /-- What is awaited takes effect and throws nevertheless. -/
  | lose (reply : OwnedReply tenantOf) (err : AppError)
  | crash

def SweepProgress.running : SweepProgress → Option (SweepVars × SweepStage)
  | .awaiting vars stage => some (vars, stage)
  | .finished _ => none

namespace SweepSystem

/-- Before any deposit and any sweep. -/
def initial (now : Int) : SweepSystem :=
  { store := { ledger := .empty, leases := [], clock := now, sends := [] }, running := none }

variable {tenantOf : Uuid → Uuid}

/-- One event, none where it cannot happen. Sweeps do not overlap. -/
def step (config : FeeSweepConfig) (state : SweepSystem)
    : SweepEvent tenantOf → Option SweepSystem
  | .elapse ms => some { state with store.clock := state.store.clock + ms }
  | .deposit deposit merchant feeBasisPoints blocked =>
      match DepositIngestor.record config.casing state.store.ledger
          { tenant := tenantOf merchant, merchant, feeBasisPoints } blocked deposit with
      | .error _ => some state
      | .ok (ledger, _) => some { state with store.ledger := ledger }
  | .start asset =>
      match state.running with
      | some _ => none
      | none => some { state with running := (FeeSweepService.enter config asset).running }
  | .resume reply =>
      state.running.map fun (vars, stage) =>
        let (store, progress) :=
          FeeSweepService.advance config state.store reply.toSweepReply vars stage
        { store, running := progress.running }
  | .reject err =>
      state.running.map fun (vars, stage) =>
        { state with
            running :=
              (FeeSweepService.throwAt config state.store.clock err vars stage).running }
  | .lose reply err =>
      state.running.map fun (vars, stage) =>
        { store := (FeeSweepService.advance config state.store reply.toSweepReply vars stage).1
          running :=
            (FeeSweepService.throwAt config state.store.clock err vars stage).running }
  | .crash => some { state with running := none }

/-- Whether an event leaves every transfer with its posting: a transfer does not fail after
it took effect, and a posting is neither rejected nor cut off nor made under a key that the
journal has.
-/
def posts (state : SweepSystem) (event : SweepEvent tenantOf) : Bool :=
  match state.running, event with
  | some (vars, .post cursor), .resume _ =>
      !state.store.ledger.hasKey (FeeSweepService.legKey cursor.group vars.asset cursor.leg)
  | some (vars, .post cursor), .lose _ _ =>
      !state.store.ledger.hasKey (FeeSweepService.legKey cursor.group vars.asset cursor.leg)
  | some (_, .post _), .reject _ => false
  | some (_, .post _), .crash => false
  | some (_, .send _), .lose _ _ => false
  | _, _ => true

end SweepSystem

/-- The entry that a leg is posted as. -/
def sweptEntry (casing : Casing) (group : PoolGroup) (asset : String) (leg : GatheredLeg)
    : JournalEntry :=
  let input := FeeSweepService.sweptInput casing group asset leg
  movementEntry "fee.swept" input.id input.idempotencyKey input.asset input.amount
    input.treasury input.poolAddr input.networkFee

def SweepSend.entry (casing : Casing) (send : SweepSend) : JournalEntry :=
  sweptEntry casing send.group send.asset send.leg

/-- The entry of a transfer that is made and not posted yet. -/
def unposted (casing : Casing) : Option (SweepVars × SweepStage) → List JournalEntry
  | some (vars, .post cursor) => [sweptEntry casing cursor.group vars.asset cursor.leg]
  | _ => []

/-- The entries of sweeps. -/
def sweptEntries (journal : List JournalEntry) : List JournalEntry :=
  journal.filter fun entry => entry.kind = "fee.swept"

/-- The entries of anything else. -/
def otherEntries (journal : List JournalEntry) : List JournalEntry :=
  journal.filter fun entry => !decide (entry.kind = "fee.swept")

def postingsOf (entries : List JournalEntry) : List Posting := entries.flatMap (·.postings)

/-- What a merchant's pool holds beyond the merchant's liabilities, as if no sweep had ever
been posted: the fee claim of the merchant.
-/
def earned (ledger : SqlLedger) (tenant merchant : Uuid) (asset : String) : Int :=
  surplus tenant merchant asset (postingsOf (otherEntries ledger.journal))

namespace SweepStore

/-- What the transfers took from the pool of a merchant. -/
def moved (casing : Casing) (store : SweepStore) (merchant : Uuid) (asset : String) : Int :=
  (store.sends.map fun send =>
    if send.group.merchant = merchant ∧ casing.toUpperCase send.asset = asset then
      send.leg.amountBaseUnits
    else 0).sum

/-- What the transfers brought to the treasury of a chain. -/
def movedTo (casing : Casing) (store : SweepStore) (chain asset : String) : Int :=
  (store.sends.map fun send =>
    if send.group.chain = chain ∧ casing.toUpperCase send.asset = asset then
      send.leg.amountBaseUnits
    else 0).sum

end SweepStore

-----------------------------------------------------------------------------
-- The treasury accounts

/-- Whether the account is the treasury of the chain. -/
def Account.isTreasury (chain : String) : Account → Bool
  | .treasury of => of = chain
  | _ => false

/-- The first letter of a key tells the treasuries from the other accounts. -/
theorem Account.key_eq_treasury (account : Account) (chain : String)
    : account.key = Ledger.treasury chain ↔ account.isTreasury chain = true := by
  have letters : account.key = Ledger.treasury chain
      ↔ account.key.toList = (Ledger.treasury chain).toList := String.toList_inj.symm
  rw [letters]
  cases account with
  | treasury of =>
      simp only [Account.key, Ledger.treasury, accountKey_toList, isTreasury,
        decide_eq_true_eq]
      constructor
      · intro same
        exact String.toList_inj.mp (List.cons.inj (List.append_cancel_left same)).2
      · rintro rfl
        rfl
  | _ =>
      simp [Account.key, Ledger.treasury, Ledger.poolAddr, Ledger.merchantAvailable,
        Ledger.merchantPendingWithdrawal, Ledger.complianceSuspense, Ledger.feeRevenue,
        accountKey_toList, isTreasury]

/-- What the postings leave on the treasury of a chain in an asset. -/
def treasuryNet (chain asset : String) (postings : List Posting) : Int :=
  netWhere
    (fun posting =>
      decide ((posting.account, posting.asset) = (Ledger.treasury chain, asset)))
    postings

@[simp]
theorem treasuryNet_append (chain asset : String) (left right : List Posting)
    : treasuryNet chain asset (left ++ right)
      = treasuryNet chain asset left + treasuryNet chain asset right :=
  netWhere_append _ left right

theorem treasuryNet_eq_zero {chain : String} (asset : String) {postings : List Posting}
    (apart : ∀ posting ∈ postings, ∃ account : Account,
      posting.account = account.key ∧ account.isTreasury chain = false)
    : treasuryNet chain asset postings = 0 := by
  induction postings with
  | nil => rfl
  | cons posting rest ih =>
      obtain ⟨account, named, other⟩ := apart posting List.mem_cons_self
      have differs : posting.account ≠ Ledger.treasury chain := by
        intro same
        have of := (account.key_eq_treasury chain).mp (named.symm.trans same)
        rw [other] at of
        cases of
      have later := ih fun posting member => apart posting (List.mem_cons_of_mem _ member)
      rw [treasuryNet, netWhere_cons, if_neg (by simp [differs])]
      simpa [treasuryNet] using later

/-- A sweep of a leg brings its amount to the treasury of its chain. -/
theorem treasuryNet_sweptEntry (casing : Casing) (group : PoolGroup) (of : String)
    (leg : GatheredLeg) (chain asset : String)
    : treasuryNet chain asset (sweptEntry casing group of leg).postings
      = if group.chain = chain ∧ casing.toUpperCase of = asset then leg.amountBaseUnits
        else 0 := by
  have selects : ∀ (account : Account) (other : String) (amount : Int) (direction : Direction),
      (fun posting : Posting =>
          decide ((posting.account, posting.asset) = (Ledger.treasury chain, asset)))
        ⟨account.key, other, amount, direction⟩
        = (decide (other = asset) && account.isTreasury chain) := by
    intro account other amount direction
    rw [Bool.eq_iff_iff]
    simp [account.key_eq_treasury chain, and_comm]
  refine (netWhere_movementEntry selects "fee.swept" _ _ _ leg.amountBaseUnits
    (.treasury group.chain) (.poolAddr group.chain group.merchant)).trans ?_
  by_cases same : casing.toUpperCase of = asset <;>
    simp [FeeSweepService.sweptInput, same, Account.isTreasury]

/-- A sweep of a leg takes its amount from the surplus of the merchant. -/
theorem surplus_sweptEntry (casing : Casing) (group : PoolGroup) (of : String)
    (leg : GatheredLeg) (tenant merchant : Uuid) (asset : String)
    : surplus tenant merchant asset (sweptEntry casing group of leg).postings
      = -if group.merchant = merchant ∧ casing.toUpperCase of = asset then leg.amountBaseUnits
          else 0 := by
  refine (surplus_movementEntry tenant merchant asset "fee.swept" _ _ _ leg.amountBaseUnits
    (.treasury group.chain) (.poolAddr group.chain group.merchant)).trans ?_
  by_cases same : casing.toUpperCase of = asset <;>
    by_cases own : group.merchant = merchant <;>
      simp [FeeSweepService.sweptInput, same, own, Account.counts]

/-- The entry of a deposit is no sweep and leaves the treasuries alone. -/
theorem treasuryNet_deposit {casing : Casing} {owner : AttributionEntry} {blocked : Bool}
    {deposit : ChainDeposit} {entry : JournalEntry}
    (built : DepositIngestor.entryOf casing owner blocked deposit = some entry)
    : entry.kind ≠ "fee.swept" ∧ ∀ chain asset, treasuryNet chain asset entry.postings = 0 := by
  unfold DepositIngestor.entryOf at built
  have pool : ∀ chain, ∃ account : Account,
      Ledger.poolAddr deposit.chain owner.merchant.text = account.key
        ∧ account.isTreasury chain = false := fun _ =>
    ⟨.poolAddr deposit.chain owner.merchant, rfl, rfl⟩
  split at built
  · split at built
    · cases built
    · obtain rfl := Option.some.inj built
      refine ⟨show ("deposit.quarantined" : String) ≠ "fee.swept" by decide, ?_⟩
      intro chain asset
      refine treasuryNet_eq_zero asset ?_
      intro posting member
      rcases List.mem_cons.mp member with rfl | last
      · exact pool chain
      · exact ⟨.complianceSuspense owner.tenant, by rw [List.mem_singleton.mp last]; rfl, rfl⟩
  · split at built
    · cases built
    case h_2 split _ =>
      obtain rfl := Option.some.inj built
      refine ⟨show ("deposit.finalized" : String) ≠ "fee.swept" by decide, ?_⟩
      intro chain asset
      refine treasuryNet_eq_zero asset ?_
      intro posting member
      simp only [finalizedEntry, List.mem_append, List.mem_cons, List.not_mem_nil, or_false]
        at member
      rcases member with (rfl | rfl) | charged
      · exact pool chain
      · exact ⟨.merchantAvailable owner.tenant owner.merchant, rfl, rfl⟩
      · split at charged
        · exact ⟨.feeRevenue owner.tenant, by rw [List.mem_singleton.mp charged]; rfl, rfl⟩
        · cases charged

-----------------------------------------------------------------------------
-- Where a sweep can be

section Fits

variable (tenantOf : Uuid → Uuid) (casing : Casing) (ledger : SqlLedger)

/-- Every group names the tenant of its merchant. -/
def Owned (groups : List PoolGroup) : Prop :=
  ∀ group ∈ groups, group.tenant = tenantOf group.merchant

/-- The legs from the cursor on are covered by the surplus of the merchant. -/
structure LegCursor.Fits (asset : String) (cursor : LegCursor) : Prop where
  owned : Owned tenantOf (cursor.group :: cursor.rest)
  canonical : casing.toUpperCase asset = asset
  positive : ∀ leg ∈ cursor.leg :: cursor.later, 0 < leg.amountBaseUnits
  covered : total (cursor.leg :: cursor.later)
    ≤ surplus (tenantOf cursor.group.merchant) cursor.group.merchant asset ledger.postings

def SweepStage.Fits (asset : String) : SweepStage → Prop
  | .killSwitch => True
  | .groups => True
  | .acquire group _ rest _ => Owned tenantOf (group :: rest)
  | .plan group _ rest => Owned tenantOf (group :: rest)
  | .prepare cursor => cursor.Fits tenantOf casing ledger asset
  | .send cursor => cursor.Fits tenantOf casing ledger asset
  | .post cursor => cursor.Fits tenantOf casing ledger asset
  | .release group rest _ => Owned tenantOf (group :: rest)

/-- A sweep that awaits something fits, and no transfer of it waits for its posting. -/
structure SweepProgress.Fits (progress : SweepProgress) : Prop where
  stage : ∀ vars stage, progress.running = some (vars, stage)
    → stage.Fits tenantOf casing ledger vars.asset
  settled : unposted casing progress.running = []

end Fits

section Progress

variable {tenantOf : Uuid → Uuid} {config : FeeSweepConfig} {ledger : SqlLedger} {clock : Int}
  {vars : SweepVars} {group : PoolGroup} {rest : List PoolGroup}

theorem SweepProgress.Fits.finished {outcome : Except AppError FeeSweepResult}
    : (SweepProgress.finished outcome).Fits tenantOf config.casing ledger where
  stage := by rintro _ _ ⟨⟩
  settled := rfl

theorem SweepProgress.Fits.awaiting {stage : SweepStage}
    (fits : stage.Fits tenantOf config.casing ledger vars.asset)
    (settled : unposted config.casing (some (vars, stage)) = [])
    : (SweepProgress.awaiting vars stage).Fits tenantOf config.casing ledger where
  stage := by
    rintro _ _ ⟨⟩
    exact fits
  settled := settled

/-- By induction on the groups that are passed over. -/
theorem enterGroups_fits (vars : SweepVars) (owned : Owned tenantOf rest)
    : (FeeSweepService.enterGroups config clock vars rest).Fits tenantOf config.casing
        ledger := by
  induction rest generalizing vars with
  | nil => exact .finished
  | cons group rest ih =>
      unfold FeeSweepService.enterGroups
      split
      · exact ih _ fun other member => owned other (List.mem_cons_of_mem _ member)
      · split
        · exact .awaiting owned rfl
        · exact .awaiting owned rfl

theorem leaveGroup_fits (vars : SweepVars) (failure : Option AppError)
    (owned : Owned tenantOf (group :: rest))
    : (FeeSweepService.leaveGroup config clock vars group rest failure).Fits tenantOf
        config.casing ledger := by
  unfold FeeSweepService.leaveGroup
  split
  · exact .awaiting owned rfl
  · exact .finished
  · exact enterGroups_fits vars fun other member => owned other (List.mem_cons_of_mem _ member)

/-- By induction on the legs that are passed over, which only lowers what has to be
covered.
-/
theorem enterLegs_fits {treasuryAddress : String} {legs : List GatheredLeg}
    (owned : Owned tenantOf (group :: rest))
    (canonical : config.casing.toUpperCase vars.asset = vars.asset)
    (positive : ∀ leg ∈ legs, 0 < leg.amountBaseUnits)
    (covered : total legs
      ≤ surplus (tenantOf group.merchant) group.merchant vars.asset ledger.postings)
    : (FeeSweepService.enterLegs config clock group treasuryAddress rest vars legs).Fits
        tenantOf config.casing ledger := by
  induction legs generalizing vars with
  | nil => exact leaveGroup_fits vars none owned
  | cons leg later ih =>
      have fits : LegCursor.Fits tenantOf config.casing ledger vars.asset
          { group, treasuryAddress, leg, later, rest } :=
        ⟨owned, canonical, positive, covered⟩
      unfold FeeSweepService.enterLegs
      split
      · exact .awaiting fits rfl
      · split
        · exact .awaiting fits rfl
        · have taken := positive leg List.mem_cons_self
          rw [total_cons] at covered
          refine ih canonical (fun other member => positive other (List.mem_cons_of_mem _ member))
            ?_
          have less : total later
              ≤ surplus (tenantOf group.merchant) group.merchant vars.asset ledger.postings := by
            omega
          exact less

/-- What is left after a leg still fits where the rest of the legs is covered. -/
theorem nextLeg_fits {cursor : LegCursor} {before : SqlLedger}
    (fits : cursor.Fits tenantOf config.casing before vars.asset)
    (covered : total cursor.later
      ≤ surplus (tenantOf cursor.group.merchant) cursor.group.merchant vars.asset
          ledger.postings)
    : (FeeSweepService.nextLeg config clock vars cursor).Fits tenantOf config.casing ledger :=
  enterLegs_fits fits.owned fits.canonical
    (fun leg member => fits.positive leg (List.mem_cons_of_mem _ member)) covered

theorem LegCursor.Fits.later {casing : Casing} {asset : String} {cursor : LegCursor}
    (fits : cursor.Fits tenantOf casing ledger asset)
    : total cursor.later
      ≤ surplus (tenantOf cursor.group.merchant) cursor.group.merchant asset
          ledger.postings := by
  have taken := fits.positive cursor.leg List.mem_cons_self
  have covered := fits.covered
  rw [total_cons] at covered
  omega

/-- What throws leaves a sweep that fits. -/
theorem throwAt_fits {stage : SweepStage} {before : SqlLedger} (err : AppError)
    (fits : stage.Fits tenantOf config.casing before vars.asset)
    (covered
      : ∀ cursor, (stage = .prepare cursor ∨ stage = .send cursor ∨ stage = .post cursor)
        → total cursor.later
          ≤ surplus (tenantOf cursor.group.merchant) cursor.group.merchant vars.asset
              ledger.postings)
    : (FeeSweepService.throwAt config clock err vars stage).Fits tenantOf config.casing
        ledger := by
  cases stage with
  | plan group _ rest => exact leaveGroup_fits vars (some err) fits
  | prepare cursor => exact nextLeg_fits fits (covered cursor (.inl rfl))
  | send cursor => exact nextLeg_fits fits (covered cursor (.inr (.inl rfl)))
  | post cursor => exact nextLeg_fits fits (covered cursor (.inr (.inr rfl)))
  | _ => exact .finished

end Progress

-----------------------------------------------------------------------------
-- The ledger under deposits and sweeps

/-- A ledger of deposits and sweeps whose merchants are not in the red. -/
structure Kept (tenantOf : Uuid → Uuid) (casing : Casing) (ledger : SqlLedger) : Prop where
  sound : Sound ledger
  keyed : ledger.Keyed
  canonical : ∀ posting ∈ ledger.postings, casing.toUpperCase posting.asset = posting.asset
  untouched : ∀ chain asset,
    treasuryNet chain asset (postingsOf (otherEntries ledger.journal)) = 0
  covered : ∀ merchant asset,
    0 ≤ surplus (tenantOf merchant) merchant asset ledger.postings

section Kept

variable {tenantOf : Uuid → Uuid} {casing : Casing} {ledger next : SqlLedger}
  {entry : JournalEntry} {asset : String}

theorem kept_empty : Kept tenantOf casing .empty where
  sound := sound_empty
  keyed := SqlLedger.keyed_empty
  canonical := by simp [SqlLedger.empty, SqlLedger.postings]
  untouched := fun _ _ => rfl
  covered := fun _ _ => Int.le_refl 0

/-- An entry under a free key is appended. -/
theorem Kept.append_fresh (kept : Kept tenantOf casing ledger)
    (keyed : entry.id = entry.idempotencyKey)
    (fresh : ledger.hasKey entry.idempotencyKey = false)
    : ∃ next, ledger.append entry = .ok (next, true) := by
  obtain ⟨next, appended, -⟩ := kept.keyed.append keyed
  exact ⟨next, by rw [appended, fresh]; rfl⟩

theorem Kept.append (kept : Kept tenantOf casing ledger)
    (appended : ledger.append entry = .ok (next, true)) (plain : Plain asset entry.postings)
    (canonical : casing.toUpperCase asset = asset) (keyed : entry.id = entry.idempotencyKey)
    (untouched
      : entry.kind = "fee.swept" ∨ ∀ chain asset, treasuryNet chain asset entry.postings = 0)
    (covered
      : ∀ merchant asset,
          0 ≤ surplus (tenantOf merchant) merchant asset ledger.postings
            + surplus (tenantOf merchant) merchant asset entry.postings)
    : Kept tenantOf casing next := by
  obtain ⟨journal, -, -⟩ := SqlLedger.append_applied appended
  have postings : next.postings = ledger.postings ++ entry.postings := by
    simp [SqlLedger.postings, journal]
  refine ⟨kept.sound.append plain appended, ?_, ?_, ?_, ?_⟩
  · intro other member
    rw [journal] at member
    rcases List.mem_append.mp member with before | last
    · exact kept.keyed other before
    · exact List.mem_singleton.mp last ▸ keyed
  · intro posting member
    rw [postings] at member
    rcases List.mem_append.mp member with before | last
    · exact kept.canonical posting before
    · rw [plain.single posting last, canonical]
  · intro chain asset
    have before := kept.untouched chain asset
    rw [journal]
    by_cases swept : entry.kind = "fee.swept"
    · simpa [otherEntries, swept] using before
    · have apart := untouched.resolve_left swept chain asset
      simp only [otherEntries, List.filter_append, List.filter_cons, swept, decide_false,
        Bool.not_false, if_true, List.filter_nil, postingsOf, List.flatMap_append,
        List.flatMap_cons, List.flatMap_nil, List.append_nil, treasuryNet_append, apart,
        Int.add_zero]
      exact before
  · intro merchant asset
    rw [postings, surplus_append]
    exact covered merchant asset

/-- Deposits keep the ledger and lower no surplus. -/
theorem Kept.deposited (kept : Kept tenantOf casing ledger) {deposit : ChainDeposit}
    {merchant : Uuid} {feeBasisPoints : JsNumber} {blocked applied : Bool}
    (done : DepositIngestor.record casing ledger
      { tenant := tenantOf merchant, merchant, feeBasisPoints } blocked deposit
      = .ok (next, applied))
    : Kept tenantOf casing next
      ∧ sweptEntries next.journal = sweptEntries ledger.journal
      ∧ ∀ merchant asset,
          surplus (tenantOf merchant) merchant asset ledger.postings
          ≤ surplus (tenantOf merchant) merchant asset next.postings := by
  let owner : AttributionEntry := { tenant := tenantOf merchant, merchant, feeBasisPoints }
  cases built : DepositIngestor.entryOf casing owner blocked deposit with
  | none =>
      obtain ⟨err, failed⟩ := DepositIngestor.record_of_rejected ledger built
      cases failed.symm.trans done
  | some entry =>
      have appended := (DepositIngestor.record_of_entryOf ledger built).symm.trans done
      cases applied with
      | false =>
          obtain rfl := SqlLedger.append_ignored appended
          exact ⟨kept, rfl, fun _ _ => Int.le_refl _⟩
      | true =>
          obtain ⟨ref, key⟩ := DepositIngestor.entryOf_ref built
          obtain ⟨positive, plain, worth⟩ := deposit_entry built
          obtain ⟨other, untouched⟩ := treasuryNet_deposit built
          obtain ⟨journal, -, -⟩ := SqlLedger.append_applied appended
          have gains : ∀ merchant asset,
              0 ≤ surplus (tenantOf merchant) merchant asset entry.postings := by
            intro merchant asset
            have fee := feeOf_nonneg blocked deposit feeBasisPoints positive
            rw [worth merchant asset]
            split <;> omega
          refine ⟨kept.append appended plain (casing.toUpperCase_idem _) (ref.trans key.symm)
            (.inr untouched) ?_, ?_, ?_⟩
          · intro merchant asset
            have before := kept.covered merchant asset
            have gain := gains merchant asset
            omega
          · simp [sweptEntries, journal, other]
          · intro merchant asset
            have gain := gains merchant asset
            simp only [SqlLedger.postings, journal, List.flatMap_append, List.flatMap_cons,
              List.flatMap_nil, List.append_nil, surplus_append]
            omega

/-- A leg that the surplus covers and whose key is free is posted. -/
theorem Kept.swept (kept : Kept tenantOf casing ledger) {cursor : LegCursor}
    (fits : cursor.Fits tenantOf casing ledger asset)
    (fresh
      : ledger.hasKey (FeeSweepService.legKey cursor.group asset cursor.leg) = false)
    : ∃ next,
        (feeSwept (FeeSweepService.sweptInput casing cursor.group asset cursor.leg)
            >>= LedgerService.post ledger)
          = .ok (next, true)
        ∧ Kept tenantOf casing next
        ∧ next.journal = ledger.journal ++ [sweptEntry casing cursor.group asset cursor.leg]
        ∧ total cursor.later
          ≤ surplus (tenantOf cursor.group.merchant) cursor.group.merchant asset
              next.postings := by
  have positive := fits.positive cursor.leg List.mem_cons_self
  have bound := fits.covered
  rw [total_cons] at bound
  obtain ⟨next, appended⟩ :
      ∃ next, ledger.append (sweptEntry casing cursor.group asset cursor.leg) = .ok (next, true) :=
    kept.append_fresh rfl fresh
  obtain ⟨journal, -, -⟩ := SqlLedger.append_applied appended
  have posted : (feeSwept (FeeSweepService.sweptInput casing cursor.group asset cursor.leg)
      >>= LedgerService.post ledger) = .ok (next, true) := by
    have built : feeSwept (FeeSweepService.sweptInput casing cursor.group asset cursor.leg)
        = .ok (sweptEntry casing cursor.group asset cursor.leg) :=
      (movement_eq ..).trans (if_neg (Int.not_le.mpr positive))
    rw [built]
    exact (LedgerService.post_of_balanced (balanced_movementEntry positive)).trans appended
  have left : ∀ merchant of,
      surplus (tenantOf merchant) merchant of next.postings
        = surplus (tenantOf merchant) merchant of ledger.postings
          - if cursor.group.merchant = merchant ∧ asset = of then cursor.leg.amountBaseUnits
            else 0 := by
    intro merchant of
    simp only [SqlLedger.postings, journal, List.flatMap_append, List.flatMap_cons,
      List.flatMap_nil, List.append_nil, surplus_append]
    rw [surplus_sweptEntry, fits.canonical]
    rfl
  refine ⟨next, posted, ?_, journal, ?_⟩
  · refine kept.append appended
      (plain_movementEntry _ _ _ _ _ (.treasury cursor.group.chain)
        (.poolAddr cursor.group.chain cursor.group.merchant))
      (casing.toUpperCase_idem asset) rfl (.inl rfl) ?_
    intro merchant of
    have before := kept.covered merchant of
    rw [surplus_sweptEntry, fits.canonical]
    by_cases own : cursor.group.merchant = merchant ∧ asset = of
    · obtain ⟨rfl, rfl⟩ := own
      have rest := total_nonneg fun leg member =>
        fits.positive leg (List.mem_cons_of_mem cursor.leg member)
      simp only [and_self, if_true]
      omega
    · rw [if_neg own]
      omega
  · rw [left]
    simp only [and_self, if_true]
    omega

end Kept

-----------------------------------------------------------------------------
-- Runs of sweeps

/-- What a run keeps: the journal has an entry for every transfer but one that waits for its
posting, in the order of the transfers.
-/
structure Matched (tenantOf : Uuid → Uuid) (config : FeeSweepConfig) (state : SweepSystem)
    : Prop where
  kept : Kept tenantOf config.casing state.store.ledger
  matched : state.store.sends.map (SweepSend.entry config.casing)
    = sweptEntries state.store.ledger.journal ++ unposted config.casing state.running
  fits : ∀ vars stage, state.running = some (vars, stage)
    → stage.Fits tenantOf config.casing state.store.ledger vars.asset

section Matched

variable {tenantOf : Uuid → Uuid} {config : FeeSweepConfig} {state next : SweepSystem}

theorem matched_initial (now : Int) : Matched tenantOf config (.initial now) where
  kept := kept_empty
  matched := rfl
  fits := by rintro _ _ ⟨⟩

/-- A growing surplus covers what it covered. -/
theorem SweepStage.Fits.grow {casing : Casing} {ledger after : SqlLedger} {asset : String}
    {stage : SweepStage} (fits : stage.Fits tenantOf casing ledger asset)
    (grows : ∀ merchant asset,
      surplus (tenantOf merchant) merchant asset ledger.postings
        ≤ surplus (tenantOf merchant) merchant asset after.postings)
    : stage.Fits tenantOf casing after asset := by
  have cursor : ∀ {cursor : LegCursor}, cursor.Fits tenantOf casing ledger asset
      → cursor.Fits tenantOf casing after asset := fun {cursor} fits =>
    ⟨fits.owned, fits.canonical, fits.positive,
      Int.le_trans fits.covered (grows cursor.group.merchant asset)⟩
  cases stage with
  | prepare _ => exact cursor fits
  | send _ => exact cursor fits
  | post _ => exact cursor fits
  | _ => exact fits

/-- A stage from which nothing reaches the ledger or the chain. -/
def SweepStage.quiet : SweepStage → Bool
  | .send _ => false
  | .post _ => false
  | _ => true

/-- A surplus other than zero comes from a posting in the asset. -/
theorem canonical_of_surplus {casing : Casing} {ledger : SqlLedger}
    (kept : Kept tenantOf casing ledger) (tenant merchant : Uuid) {asset : String}
    (some : surplus tenant merchant asset ledger.postings ≠ 0)
    : casing.toUpperCase asset = asset := by
  by_contra other
  apply some
  refine List.sum_eq_zero ?_
  intro part member
  obtain ⟨posting, inPostings, rfl⟩ := List.mem_map.mp member
  have upper := kept.canonical posting inPostings
  refine if_neg ?_
  intro counts
  simp only [forClaim, Bool.and_eq_true, beq_iff_eq] at counts
  exact other (counts.1 ▸ upper)

/-- A quiet stage leaves the ledger and the transfers alone and goes on to a place that
fits.
-/
theorem advance_quiet {store : SweepStore} (kept : Kept tenantOf config.casing store.ledger)
    (reply : OwnedReply tenantOf) {vars : SweepVars} {stage : SweepStage}
    (quiet : stage.quiet = true)
    (fits : stage.Fits tenantOf config.casing store.ledger vars.asset)
    : let (after, progress) :=
        FeeSweepService.advance config store reply.toSweepReply vars stage
      after.ledger = store.ledger ∧ after.sends = store.sends
        ∧ progress.Fits tenantOf config.casing store.ledger := by
  cases stage with
  | killSwitch =>
      simp only [FeeSweepService.advance]
      split
      · exact ⟨rfl, rfl, .finished⟩
      · exact ⟨rfl, rfl, .awaiting trivial rfl⟩
  | groups => exact ⟨rfl, rfl, enterGroups_fits vars reply.owned⟩
  | acquire group treasuryAddress rest asked =>
      simp only [FeeSweepService.advance]
      split
      · exact ⟨rfl, rfl, .awaiting fits rfl⟩
      · exact ⟨rfl, rfl, enterGroups_fits _ fun other member =>
          fits other (List.mem_cons_of_mem _ member)⟩
  | plan group treasuryAddress rest =>
      simp only [FeeSweepService.advance]
      split
      · exact ⟨rfl, rfl, leaveGroup_fits vars _ fits⟩
      case h_2 plan done =>
        split
        · exact ⟨rfl, rfl, leaveGroup_fits vars none fits⟩
        case isFalse positive =>
          split
          · exact ⟨rfl, rfl, leaveGroup_fits _ none fits⟩
          · obtain ⟨claims, legs, bounded⟩ :=
              FeeSweepPlanner.plan_spec done (Int.not_le.mp positive)
            have owned : group.tenant = tenantOf group.merchant :=
              fits group List.mem_cons_self
            rw [owned, claim_eq_surplus kept.sound] at claims
            have claimed := Except.ok.inj claims
            have canonical : config.casing.toUpperCase vars.asset = vars.asset :=
              canonical_of_surplus kept (tenantOf group.merchant) group.merchant (by omega)
            exact ⟨rfl, rfl, enterLegs_fits fits canonical legs (by omega)⟩
  | prepare cursor => exact ⟨rfl, rfl, .awaiting fits rfl⟩
  | send => cases quiet
  | post => cases quiet
  | release group rest failure =>
      have owned : Owned tenantOf rest := fun other member =>
        fits other (List.mem_cons_of_mem _ member)
      cases failure with
      | none => exact ⟨rfl, rfl, enterGroups_fits vars owned⟩
      | some err => exact ⟨rfl, rfl, .finished⟩

/-- Where no transfer waits for its posting, a run may go on to any place that fits. -/
theorem Matched.goto (matched : Matched tenantOf config state)
    (settled : unposted config.casing state.running = []) {store : SweepStore}
    (ledger : store.ledger = state.store.ledger) (sends : store.sends = state.store.sends)
    {progress : SweepProgress}
    (fits : progress.Fits tenantOf config.casing state.store.ledger)
    : Matched tenantOf config { store, running := progress.running } where
  kept := ledger ▸ matched.kept
  matched := by
    have before := matched.matched
    rw [settled] at before
    rw [sends, ledger, fits.settled]
    exact before
  fits := by
    rw [ledger]
    exact fits.stage

/-- A posting that takes effect matches the transfer that waited for it. -/
theorem Matched.posted {vars : SweepVars} {cursor : LegCursor} {leases : List LeaseRow}
    {clock : Int} {ledger : SqlLedger} (matched : Matched tenantOf config state)
    (running : state.running = some (vars, .post cursor))
    (kept : Kept tenantOf config.casing ledger)
    (journal : ledger.journal
      = state.store.ledger.journal
        ++ [sweptEntry config.casing cursor.group vars.asset cursor.leg])
    {progress : SweepProgress} (fits : progress.Fits tenantOf config.casing ledger)
    : Matched tenantOf config
        { store := { ledger, leases, clock, sends := state.store.sends }
          running := progress.running } where
  kept := kept
  matched := by
    have before := matched.matched
    rw [running] at before
    rw [fits.settled, journal, before]
    simp [sweptEntries, unposted, sweptEntry, movementEntry]
  fits := fits.stage

/-- Every event that leaves the transfers with their postings keeps the match. -/
theorem Matched.step (matched : Matched tenantOf config state) {event : SweepEvent tenantOf}
    (posts : state.posts event = true) (taken : state.step config event = some next)
    : Matched tenantOf config next := by
  cases event with
  | elapse ms =>
      obtain rfl := Option.some.inj taken
      exact ⟨matched.kept, matched.matched, matched.fits⟩
  | deposit deposit merchant feeBasisPoints blocked =>
      simp only [SweepSystem.step] at taken
      split at taken
      · obtain rfl := Option.some.inj taken
        exact matched
      case h_2 ledger applied done =>
        obtain rfl := Option.some.inj taken
        obtain ⟨kept, swept, grows⟩ := matched.kept.deposited done
        refine ⟨kept, ?_, ?_⟩
        · simpa [swept] using matched.matched
        · intro vars stage running
          exact (matched.fits vars stage running).grow grows
  | start asset =>
      simp only [SweepSystem.step] at taken
      split at taken
      · cases taken
      case h_2 idle =>
        obtain rfl := Option.some.inj taken
        refine matched.goto (by rw [idle]; rfl) rfl rfl ?_
        unfold FeeSweepService.enter
        split <;> exact .awaiting trivial rfl
  | crash =>
      obtain rfl := Option.some.inj taken
      have settled : unposted config.casing state.running = [] := by
        unfold SweepSystem.posts at posts
        unfold unposted
        split
        case h_1 vars cursor running => simp [running] at posts
        case h_2 => rfl
      have ended : SweepProgress.Fits tenantOf config.casing state.store.ledger
          (.finished (.error FeeSweepService.haltedError)) := .finished
      exact matched.goto settled rfl rfl ended
  | resume reply =>
      obtain ⟨⟨vars, stage⟩, running, ends⟩ := Option.map_eq_some_iff.mp taken
      have fits := matched.fits vars stage running
      have here := matched.matched
      rw [running] at here
      cases quiet : stage.quiet with
      | true =>
          have settled : unposted config.casing state.running = [] := by
            rw [running]
            cases stage <;> first | rfl | cases quiet
          obtain ⟨ledger, sends, after⟩ := advance_quiet matched.kept reply quiet fits
          exact ends ▸ matched.goto settled ledger sends after
      | false =>
          cases stage with
          | send cursor =>
              subst ends
              refine ⟨matched.kept, ?_, ?_⟩
              · simp only [unposted, List.append_nil] at here
                simp [FeeSweepService.advance, SweepProgress.running, here, unposted,
                  SweepSend.entry]
              · rintro _ _ ⟨⟩
                exact fits
          | post cursor =>
              have fresh : state.store.ledger.hasKey
                  (FeeSweepService.legKey cursor.group vars.asset cursor.leg) = false := by
                simpa [SweepSystem.posts, running] using posts
              obtain ⟨ledger, done, kept, journal, later⟩ := matched.kept.swept fits fresh
              have after : FeeSweepService.advance config state.store reply.toSweepReply vars
                  (.post cursor)
                  = ({ state.store with ledger },
                      FeeSweepService.nextLeg config state.store.clock
                        (vars.counted cursor.leg.amountBaseUnits) cursor) := by
                simp only [FeeSweepService.advance, done]
              rw [← ends]
              simp only [after]
              exact matched.posted running kept journal
                (nextLeg_fits fits later)
          | _ => cases quiet
  | reject err =>
      obtain ⟨⟨vars, stage⟩, running, ends⟩ := Option.map_eq_some_iff.mp taken
      have fits := matched.fits vars stage running
      have settled : unposted config.casing state.running = [] := by
        rw [running]
        cases stage with
        | post cursor => simp [SweepSystem.posts, running] at posts
        | _ => rfl
      subst ends
      refine matched.goto settled rfl rfl (throwAt_fits err fits ?_)
      intro cursor here
      rcases here with rfl | rfl | rfl <;> exact fits.later
  | lose reply err =>
      obtain ⟨⟨vars, stage⟩, running, ends⟩ := Option.map_eq_some_iff.mp taken
      have fits := matched.fits vars stage running
      subst ends
      cases quiet : stage.quiet with
      | true =>
          have settled : unposted config.casing state.running = [] := by
            rw [running]
            cases stage <;> first | rfl | cases quiet
          obtain ⟨ledger, sends, -⟩ := advance_quiet matched.kept reply quiet fits
          refine matched.goto settled ledger sends (throwAt_fits err fits ?_)
          intro cursor here
          rcases here with rfl | rfl | rfl <;> exact fits.later
      | false =>
          cases stage with
          | send cursor => simp [SweepSystem.posts, running] at posts
          | post cursor =>
              have fresh : state.store.ledger.hasKey
                  (FeeSweepService.legKey cursor.group vars.asset cursor.leg) = false := by
                simpa [SweepSystem.posts, running] using posts
              obtain ⟨ledger, done, kept, journal, later⟩ := matched.kept.swept fits fresh
              simp only [FeeSweepService.advance, done]
              refine matched.posted running kept journal (throwAt_fits err fits ?_)
              rintro _ (⟨⟨⟩⟩ | ⟨⟨⟩⟩ | ⟨⟨⟩⟩)
              exact later
          | _ => cases quiet

/-- In a run that leaves every transfer with its posting the match holds throughout. -/
theorem Matched.of_reaches {now : Int}
    (reached : Reaches (SweepSystem.step config)
      (fun state (event : SweepEvent tenantOf) => state.posts event = true) (.initial now) state)
    : Matched tenantOf config state :=
  reached.invariant (matched_initial now) fun matched posts taken => matched.step posts taken

end Matched

-----------------------------------------------------------------------------
-- What the transfers add up to

/-- A sum over the journal is the one over the sweeps and the one over the other entries. -/
theorem netWhere_journal (select : Posting → Bool) (journal : List JournalEntry)
    : netWhere select (postingsOf journal)
      = netWhere select (postingsOf (sweptEntries journal))
        + netWhere select (postingsOf (otherEntries journal)) := by
  induction journal with
  | nil => rfl
  | cons entry rest ih =>
      simp only [postingsOf, sweptEntries, otherEntries] at ih
      by_cases swept : entry.kind = "fee.swept" <;>
        simp [postingsOf, sweptEntries, otherEntries, swept, ih] <;> omega

/-- The entries of the transfers take from a surplus what the transfers moved. -/
theorem surplus_sends (casing : Casing) (store : SweepStore) (tenant merchant : Uuid)
    (asset : String)
    : surplus tenant merchant asset (postingsOf (store.sends.map (SweepSend.entry casing)))
      = -store.moved casing merchant asset := by
  unfold SweepStore.moved
  induction store.sends with
  | nil => rfl
  | cons send rest ih =>
      have later : surplus tenant merchant asset
          ((rest.map (SweepSend.entry casing)).flatMap (·.postings)) = _ := ih
      simp only [postingsOf, List.map_cons, List.flatMap_cons, surplus_append, later,
        SweepSend.entry, surplus_sweptEntry, List.sum_cons]
      omega

theorem treasuryNet_sends (casing : Casing) (store : SweepStore) (chain asset : String)
    : treasuryNet chain asset (postingsOf (store.sends.map (SweepSend.entry casing)))
      = store.movedTo casing chain asset := by
  unfold SweepStore.movedTo
  induction store.sends with
  | nil => rfl
  | cons send rest ih =>
      have later : treasuryNet chain asset
          ((rest.map (SweepSend.entry casing)).flatMap (·.postings)) = _ := ih
      simp only [postingsOf, List.map_cons, List.flatMap_cons, treasuryNet_append, later,
        SweepSend.entry, treasuryNet_sweptEntry, List.sum_cons]

/-- Moved funds are earned: a surplus that is posted in full is what was earned less what was
moved, and a transfer that waits for its posting is covered by it.
-/
theorem Matched.moved_le {tenantOf : Uuid → Uuid} {config : FeeSweepConfig}
    {state : SweepSystem} (matched : Matched tenantOf config state) (merchant : Uuid)
    (asset : String)
    : state.store.moved config.casing merchant asset
      ≤ earned state.store.ledger (tenantOf merchant) merchant asset := by
  have sends := surplus_sends config.casing state.store (tenantOf merchant) merchant asset
  have journal : surplus (tenantOf merchant) merchant asset state.store.ledger.postings
      = surplus (tenantOf merchant) merchant asset
          (postingsOf (sweptEntries state.store.ledger.journal))
        + earned state.store.ledger (tenantOf merchant) merchant asset :=
    netWhere_journal _ _
  have waiting : 0 ≤ surplus (tenantOf merchant) merchant asset state.store.ledger.postings
      + surplus (tenantOf merchant) merchant asset
          (postingsOf (unposted config.casing state.running)) := by
    have covered := matched.kept.covered merchant asset
    unfold unposted
    split
    case h_1 vars cursor running =>
      have fits : cursor.Fits tenantOf config.casing state.store.ledger vars.asset :=
        matched.fits vars (.post cursor) running
      have bound := fits.covered
      have later := total_nonneg fun leg member =>
        fits.positive leg (List.mem_cons_of_mem cursor.leg member)
      rw [total_cons] at bound
      simp only [postingsOf, List.flatMap_cons, List.flatMap_nil, List.append_nil,
        surplus_sweptEntry, fits.canonical]
      by_cases own : cursor.group.merchant = merchant ∧ vars.asset = asset
      · obtain ⟨rfl, rfl⟩ := own
        simp only [and_self, if_true]
        omega
      · rw [if_neg own]
        omega
    case h_2 =>
      have none : surplus (tenantOf merchant) merchant asset (postingsOf []) = 0 := rfl
      omega
  rw [matched.matched] at sends
  simp only [postingsOf, List.flatMap_append, surplus_append] at sends waiting journal
  omega

/-- In every run of sweeps and deposits in which each transfer is followed by a posting that
succeeds under a free key, the sweeps of the journal are the transfers, in their order and
but for one that waits; once none waits, the treasuries hold what was moved to them and the
claim is what is left of the earnings; and never is more moved than was earned.
-/
theorem sweeps_posted {tenantOf : Uuid → Uuid} {config : FeeSweepConfig} {now : Int}
    {state : SweepSystem}
    (reached : Reaches (SweepSystem.step config)
      (fun state (event : SweepEvent tenantOf) => state.posts event = true) (.initial now) state)
    : state.store.sends.map (SweepSend.entry config.casing)
        = sweptEntries state.store.ledger.journal ++ unposted config.casing state.running
      ∧ (unposted config.casing state.running = []
        → (∀ chain asset,
            state.store.movedTo config.casing chain asset
              = state.store.ledger.balance (Ledger.treasury chain) asset)
          ∧ ∀ merchant asset,
            FeeSweepPlanner.claim state.store.ledger (tenantOf merchant).text merchant.text asset
              = .ok
                  (earned state.store.ledger (tenantOf merchant) merchant asset
                    - state.store.moved config.casing merchant asset))
      ∧ ∀ merchant asset,
          state.store.moved config.casing merchant asset
            ≤ earned state.store.ledger (tenantOf merchant) merchant asset := by
  have matched := Matched.of_reaches reached
  refine ⟨matched.matched, ?_, matched.moved_le⟩
  intro settled
  have posted := matched.matched
  rw [settled, List.append_nil] at posted
  constructor
  · intro chain asset
    rw [SqlLedger.balance_eq_net matched.kept.sound.materialised, ← treasuryNet_sends, posted]
    have journal := netWhere_journal
      (fun posting =>
        decide ((posting.account, posting.asset) = (Ledger.treasury chain, asset)))
      state.store.ledger.journal
    have untouched := matched.kept.untouched chain asset
    simp only [treasuryNet, postingsOf, SqlLedger.postings] at journal untouched ⊢
    omega
  · intro merchant asset
    have sends := surplus_sends config.casing state.store (tenantOf merchant) merchant asset
    rw [posted] at sends
    have journal : surplus (tenantOf merchant) merchant asset state.store.ledger.postings
        = surplus (tenantOf merchant) merchant asset
            (postingsOf (sweptEntries state.store.ledger.journal))
          + earned state.store.ledger (tenantOf merchant) merchant asset :=
      netWhere_journal _ _
    have covered := matched.kept.covered merchant asset
    rw [claim_eq_surplus matched.kept.sound]
    congr 1
    omega

-----------------------------------------------------------------------------
-- Two sweeps of one amount

def sampleSweeps : FeeSweepConfig :=
  { casing := asciiCasing, treasuryAddressFor := fun _ => some "TTreasury"
    gatherStrategies := none, authorizer := none, leaseTtlMs := none, hasKillSwitch := false
    dustThresholdBaseUnits := 0 }

/-- The merchant's only group, whose one address holds 1000. -/
def sampleGroups : OwnedReply fun _ => sampleTenant where
  halted := false
  groups := [{ tenant := sampleTenant, merchant := sampleMerchant, chain := "TRON" }]
  balances :=
    [ { address := "TPool", derivationIndex := 0, gatherStrategy := .eoaFundTransfer
        balance := 1000 } ]
  owned := by
    intro group member
    rw [List.mem_singleton.mp member]

/-- A deposit on which a fee of half a percent accrues, and the awaits of a sweep after it. -/
def depositAndSweep (txId : String) (amount : Int) : List (SweepEvent fun _ => sampleTenant) :=
  [ .deposit
      { chain := "TRON", txId, index := 0, to_ := "TPool", from_ := "TSender", asset := "USDT"
        tokenContract := none, amountBaseUnits := amount, blockNumber := none }
      sampleMerchant (.integer 50) false,
    .start "USDT" ]
  ++ List.replicate 4 (.resume sampleGroups)

/-- Two sweeps of the same amount from the same address share a key, so only the first is
posted; the claim stays as it was, and a third sweep moves more than was ever earned.
-/
theorem equal_sweeps_unposted
    : ∃ state,
        Reaches (SweepSystem.step sampleSweeps)
          (fun _ (_ : SweepEvent fun _ => sampleTenant) => True) (.initial 0) state
        ∧ state.running.isNone = true
        ∧ state.store.ledger.balance (Ledger.treasury "TRON") "USDT"
          < state.store.movedTo asciiCasing "TRON" "USDT"
        ∧ earned state.store.ledger sampleTenant sampleMerchant "USDT"
          < state.store.moved asciiCasing sampleMerchant "USDT" :=
  Reaches.exists_of_exec
    (depositAndSweep "aa" 1000 ++ depositAndSweep "bb" 1000
      ++ .start "USDT" :: List.replicate 4 (.resume sampleGroups))
    (by decide +kernel)

/-- Two sweeps of different amounts are both posted. -/
theorem sweeps_posted_different
    : ∃ state,
        Reaches (SweepSystem.step sampleSweeps)
          (fun state (event : SweepEvent fun _ => sampleTenant) => state.posts event = true)
          (.initial 0) state
        ∧ state.store.moved asciiCasing sampleMerchant "USDT" = 15
        ∧ state.store.moved asciiCasing sampleMerchant "USDT"
          ≤ earned state.store.ledger sampleTenant sampleMerchant "USDT" := by
  have both : ∃ state,
      Reaches (SweepSystem.step sampleSweeps)
        (fun state (event : SweepEvent fun _ => sampleTenant) => state.posts event = true)
        (.initial 0) state
      ∧ state.store.moved asciiCasing sampleMerchant "USDT" = 15 :=
    Reaches.exists_of_exec (depositAndSweep "aa" 1000 ++ depositAndSweep "bb" 2000)
      (by decide +kernel)
  obtain ⟨state, reached, moved⟩ := both
  obtain ⟨-, -, bounded⟩ := sweeps_posted reached
  exact ⟨state, reached, moved, bounded sampleMerchant "USDT"⟩

end Cixtech.Treasury
