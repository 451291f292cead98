import Cixtech.Payout.LedgerMoves
import Cixtech.Payout.Retries

/-! The available balance of one merchant under concurrent payouts. Between the comparison of
the balance and the append of the lock any other call may lock, and the lease that keeps
callers apart is one for each chain. What keeps the balance from going negative is that it
covers all amounts that were compared and not yet locked.
-/

namespace Cixtech.Payout

open Cixtech.Common Cixtech.Foundation Cixtech.Foundation.Processes Cixtech.Ledger

/-- What is left to a merchant in an asset. -/
def Store.available (store : Store) (tenant merchant asset : String) : Int :=
  -store.ledger.balance (merchantAvailable tenant merchant) asset

/-- Whether a payout takes its amount from the merchant's balance in the asset. -/
def PayoutParams.takesFrom (d : Deployment) (tenant merchant asset : String) (p : PayoutParams)
    : Bool :=
  (PayoutService.lockInput d p).merchantAvailable = merchantAvailable tenant merchant
  && (PayoutService.lockInput d p).asset = asset

/-- The amount that a task compared with the merchant's balance and is about to lock. -/
def Task.compared (d : Deployment) (tenant merchant asset : String) (task : Task) : Int :=
  match task.funding with
  | some (p, .checked) => if p.takesFrom d tenant merchant asset then p.amountBaseUnits else 0
  | _ => 0

/-- The amounts of all calls between their comparison and their lock. -/
def System.comparedTotal (d : Deployment) (tenant merchant asset : String) (system : System)
    : Int :=
  holdings (Task.compared d tenant merchant asset) system.tasks

/-- What other flows post takes nothing from the merchant: no deposit is reversed. -/
def Event.credits (tenant merchant asset : String) : Event → Bool
  | .post entry =>
      entry.storable
      && SqlLedger.netOn (merchantAvailable tenant merchant) asset entry.postings ≤ 0
  | _ => true

/-- A balance that covers a call at its comparison covers it together with the calls that
were compared and have not locked yet.
-/
def System.coversAll (d : Deployment) (tenant merchant asset : String) (system : System)
    (event : Event) : Bool :=
  match event with
  | .resume index _ =>
      match system.tasks[index]?.bind Task.checking with
      | some p =>
          !p.takesFrom d tenant merchant asset
          || system.store.available tenant merchant asset < p.amountBaseUnits
          || p.amountBaseUnits + system.comparedTotal d tenant merchant asset
              ≤ system.store.available tenant merchant asset
      | none => true
  | _ => true

section Step

variable {d : Deployment} {tenant merchant asset : String} {system next : System}

/-- The balances are those of the journal, compared amounts are positive, and the balance
covers them all.
-/
structure Covered (d : Deployment) (tenant merchant asset : String) (system : System)
    : Prop where
  materialised : system.store.ledger.Materialised
  positive : ∀ task ∈ system.tasks, ∀ p, task.funding = some (p, .checked)
    → 0 < p.amountBaseUnits
  covered : system.comparedTotal d tenant merchant asset
    ≤ system.store.available tenant merchant asset

theorem Covered.initial {store : Store} (materialised : store.ledger.Materialised)
    (funded : 0 ≤ store.available tenant merchant asset)
    : Covered d tenant merchant asset { store, tasks := [] } :=
  ⟨materialised, by simp, by simpa [System.comparedTotal] using funded⟩

theorem Task.compared_nonneg {task : Task}
    (positive : ∀ p, task.funding = some (p, .checked) → 0 < p.amountBaseUnits)
    : 0 ≤ task.compared d tenant merchant asset := by
  unfold Task.compared
  split
  case h_1 p funding =>
    split
    · exact (positive p funding).le
    · exact Int.le_refl 0
  case h_2 => exact Int.le_refl 0

theorem Covered.nonneg (covered : Covered d tenant merchant asset system)
    : 0 ≤ system.store.available tenant merchant asset :=
  Int.le_trans
    (holdings_nonneg fun task member => Task.compared_nonneg (covered.positive task member))
    covered.covered

/-- An appended movement takes its amount from the merchant where it debits the account. -/
theorem available_append (asset : String) {store after : Store} {applied : Bool}
    {kind key other : String} {amount : Int} {debited credited : String}
    (materialised : store.ledger.Materialised)
    (elsewhere : credited ≠ merchantAvailable tenant merchant)
    (appended : store.ledger.append
        (movementEntry kind key key other amount debited credited none)
      = .ok (after.ledger, applied))
    : after.ledger.Materialised
      ∧ after.available tenant merchant asset
        = store.available tenant merchant asset
          - if applied && decide (other = asset)
              && decide (debited = merchantAvailable tenant merchant) then amount else 0 := by
  have apart := SqlLedger.tellsApart_movementEntry kind key key other amount debited credited
  refine ⟨materialised.append apart appended, ?_⟩
  rw [Store.available, materialised.balance_append apart appended,
    SqlLedger.netOn_movementEntry, Store.available]
  have nothing : (if credited = merchantAvailable tenant merchant then amount else 0) = 0 :=
    if_neg elsewhere
  cases applied with
  | false => simp
  | true =>
      by_cases same : other = asset <;>
        by_cases debits : debited = merchantAvailable tenant merchant <;>
        simp only [same, debits, nothing, if_true, if_false, decide_true, decide_false,
          Bool.and_true, Bool.and_false, Bool.false_eq_true] <;>
        omega

/-- Where a task's step ends without a compared amount, it ends with none. -/
theorem compared_of_kept {task : Task} {p : PayoutParams}
    (kept : task.funding = none ∨ task.funding = some (p, .locked))
    : task.compared d tenant merchant asset = 0
      ∧ ∀ q, task.funding ≠ some (q, .checked) := by
  rcases kept with none | locked
  · simp [Task.compared, none]
  · simp [Task.compared, locked]

/-- A call that is about to compare has compared nothing yet. -/
theorem Task.funding_of_checking {task : Task} {p : PayoutParams}
    (checking : task.checking = some p)
    : task.funding = none := by
  cases task with
  | paying caller stage =>
      cases stage with
      | leased lease step =>
          cases step with
          | readBalance plan => rfl
          | _ => cases checking
      | _ => cases checking
  | _ => cases checking

/-- One move keeps the compared amounts covered, where a comparison that passes covers the
other calls too.
-/
theorem Covered.move (covered : Covered d tenant merchant asset system) {index : Nat}
    {old new : Task} (acting : Acts system.tasks next.tasks index old new)
    (step : FundingStep d system.store next.store old.checking old.funding new.funding)
    (reserved : ∀ p, old.checking = some p → new.funding = some (p, .checked)
      → p.takesFrom d tenant merchant asset = true
      → p.amountBaseUnits ≤ system.store.available tenant merchant asset
      → p.amountBaseUnits + system.comparedTotal d tenant merchant asset
        ≤ system.store.available tenant merchant asset)
    : Covered d tenant merchant asset next := by
  have total : next.comparedTotal d tenant merchant asset
      = system.comparedTotal d tenant merchant asset - old.compared d tenant merchant asset
        + new.compared d tenant merchant asset :=
    acting.holdings _
  have before := covered.covered
  have oldNonneg : 0 ≤ old.compared d tenant merchant asset :=
    Task.compared_nonneg (covered.positive old acting.mem_old)
  -- A task that holds no compared amount after the step leaves the others to be covered.
  have release : next.store.ledger.Materialised
      → (new.compared d tenant merchant asset = 0 ∧ ∀ q, new.funding ≠ some (q, .checked))
      → system.store.available tenant merchant asset - old.compared d tenant merchant asset
        ≤ next.store.available tenant merchant asset
      → Covered d tenant merchant asset next := by
    rintro materialised ⟨nothing, unchecked⟩ left
    refine ⟨materialised, ?_, by omega⟩
    intro task member p funding
    rcases acting.mem_cases member with rfl | there
    · exact absurd funding (unchecked p)
    · exact covered.positive task there p funding
  cases step with
  | quiet same kept =>
      refine release (same ▸ covered.materialised) ?_ ?_
      · rcases kept with none | ⟨kept, unchecked⟩
        · simp [Task.compared, none]
        · rw [← kept] at unchecked
          cases funding : new.funding with
          | none => simp [Task.compared, funding]
          | some held =>
              obtain ⟨p, phase⟩ := held
              cases phase with
              | checked => simp [funding] at unchecked
              | locked => simp [Task.compared, funding]
      · rw [Store.available, Store.available, same]
        omega
  | @checked p was same enough positive kept =>
      have nothing : old.compared d tenant merchant asset = 0 := by
        simp [Task.compared, Task.funding_of_checking was]
      have stays : next.store.available tenant merchant asset
          = system.store.available tenant merchant asset := by
        rw [Store.available, Store.available, same]
      rcases kept with left | kept
      · exact release (same ▸ covered.materialised) (compared_of_kept (p := p) (.inl left))
          (by omega)
      · refine ⟨same ▸ covered.materialised, ?_, ?_⟩
        · intro task member q funding
          rcases acting.mem_cases member with rfl | there
          · rw [kept] at funding
            cases funding
            exact positive
          · exact covered.positive task there q funding
        · have own : new.compared d tenant merchant asset
              = if p.takesFrom d tenant merchant asset then p.amountBaseUnits else 0 := by
            simp [Task.compared, kept]
          by_cases takes : p.takesFrom d tenant merchant asset = true
          · have fits : p.amountBaseUnits ≤ system.store.available tenant merchant asset := by
              obtain ⟨sameAccount, sameAsset⟩ := Bool.and_eq_true_iff.mp takes
              have account : merchantAvailable p.tenant p.merchant
                  = merchantAvailable tenant merchant :=
                of_decide_eq_true sameAccount
              have upper : d.casing.toUpperCase p.asset = asset := of_decide_eq_true sameAsset
              rw [account, upper] at enough
              exact enough
            have whole := reserved p was kept takes fits
            rw [if_pos takes] at own
            omega
          · rw [if_neg takes] at own
            omega
  | @locked p entry applied was built appended kept =>
      obtain ⟨positive, rfl⟩ := movement_eq_ok built
      obtain ⟨elsewhere, -, -⟩ := merchantAvailable_ne tenant merchant
      obtain ⟨materialised, left⟩ :=
        available_append asset covered.materialised (elsewhere _ _) appended
      have own : old.compared d tenant merchant asset
          = if p.takesFrom d tenant merchant asset then p.amountBaseUnits else 0 := by
        simp [Task.compared, was]
      refine release materialised (compared_of_kept kept) ?_
      rw [left, own]
      have amount : (PayoutService.lockInput d p).amount = p.amountBaseUnits := rfl
      cases applied with
      | false =>
          simp only [Bool.false_and, Bool.false_eq_true, if_false]
          split <;> omega
      | true =>
          simp only [PayoutParams.takesFrom, Bool.true_and, Bool.and_comm, amount]
          split <;> omega
  | @settled p entry applied was built appended kept =>
      obtain ⟨positive, rfl⟩ := movement_eq_ok built
      obtain ⟨pending, pool, -⟩ := merchantAvailable_ne tenant merchant
      obtain ⟨materialised, left⟩ :=
        available_append asset covered.materialised (pool _ _) appended
      refine release materialised (compared_of_kept (p := p) (.inl kept)) ?_
      have untouched : ¬ (PayoutService.settleInput d p).merchantPendingWithdrawal
          = merchantAvailable tenant merchant :=
        pending _ _
      simp only [untouched, decide_false, Bool.and_false, Bool.false_eq_true, if_false] at left
      omega
  | @swept p sweep leg entry applied built appended kept =>
      obtain ⟨positive, rfl⟩ := movement_eq_ok built
      obtain ⟨-, pool, treasuries⟩ := merchantAvailable_ne tenant merchant
      obtain ⟨materialised, left⟩ :=
        available_append asset covered.materialised (pool _ _) appended
      refine release materialised (compared_of_kept (p := p) (.inl kept)) ?_
      have untouched : ¬ (PayoutService.feeSweptInput d p sweep leg).treasury
          = merchantAvailable tenant merchant :=
        treasuries _
      simp only [untouched, decide_false, Bool.and_false, Bool.false_eq_true, if_false] at left
      omega
  | resumed same _ _ kept =>
      refine release (same ▸ covered.materialised) (compared_of_kept kept) ?_
      rw [Store.available, Store.available, same]
      omega

/-- What another flow posts leaves the merchant at least what it had. -/
theorem Covered.post (covered : Covered d tenant merchant asset system) {entry : JournalEntry}
    (credits : (Event.post entry).credits tenant merchant asset = true)
    (taken : system.step d (.post entry) = some next)
    : Covered d tenant merchant asset next := by
  obtain ⟨storable, atMost⟩ := Bool.and_eq_true_iff.mp credits
  have atMost := of_decide_eq_true atMost
  have apart := SqlLedger.tellsApart_of_storable storable
  simp only [System.step] at taken
  split at taken
  · cases taken
  case h_2 ledger applied posted =>
    cases taken
    have appended := LedgerService.append_of_post posted
    refine ⟨covered.materialised.append apart appended, covered.positive, ?_⟩
    have moved := covered.materialised.balance_append apart appended
      (merchantAvailable tenant merchant) asset
    have before := covered.covered
    simp only [Store.available, System.comparedTotal] at before ⊢
    rw [moved]
    cases applied with
    | false =>
        simp only [Bool.false_eq_true, if_false]
        omega
    | true =>
        simp only [if_true]
        omega

theorem Task.funding_ofRequest (now : Int) (request : Request)
    : (Task.ofRequest now request).funding = none := by
  cases request <;> rfl

/-- Every event of the runs below keeps the compared amounts covered. -/
theorem Covered.step (covered : Covered d tenant merchant asset system) {event : Event}
    (credits : event.credits tenant merchant asset = true)
    (covers : system.coversAll d tenant merchant asset event = true)
    (taken : system.step d event = some next)
    : Covered d tenant merchant asset next := by
  rcases System.acts_of_step taken with ⟨elapsed, rfl⟩ | ⟨request, rfl⟩ | ⟨entry, rfl⟩
    | ⟨index, old, new, acting, moves⟩
  · cases taken
    exact ⟨covered.materialised, covered.positive, covered.covered⟩
  · cases taken
    refine ⟨covered.materialised, ?_, ?_⟩
    · intro task member p funding
      rcases List.mem_append.mp member with before | arrived
      · exact covered.positive task before p funding
      · rw [List.mem_singleton.mp arrived, Task.funding_ofRequest] at funding
        cases funding
    · have nothing : Task.compared d tenant merchant asset
          (Task.ofRequest system.store.clock request) = 0 := by
        simp [Task.compared, Task.funding_ofRequest]
      have before := covered.covered
      simp only [System.comparedTotal, holdings_append, nothing, Int.add_zero] at before ⊢
      exact before
  · exact covered.post credits taken
  · refine covered.move acting moves.funding ?_
    intro p checking funded takes fits
    -- Only a comparison that completes leaves a compared amount behind.
    generalize next.store = after at moves
    cases moves with
    | resumed done =>
        have enough : system.store.available tenant merchant asset < p.amountBaseUnits
            ∨ p.amountBaseUnits + system.comparedTotal d tenant merchant asset
              ≤ system.store.available tenant merchant asset := by
          simpa [System.coversAll, acting.found, checking, takes] using covers
        exact enough.resolve_left (Int.not_lt.mpr fits)
    | rejected thrown => rw [Task.throwAt_funding thrown] at funded; cases funded
    | lost done thrown => rw [Task.throwAt_funding thrown] at funded; cases funded
    | crashed => cases funded

end Step

/-- In every run of payouts of a merchant, on whatever chains, the available balance never
goes negative, where a balance that covers a call at its comparison covers it together with
the calls that were compared and have not locked yet.
-/
theorem available_never_negative (d : Deployment) (tenant merchant asset : String)
    (store : Store) (system : System)
    (materialised : store.ledger.Materialised)
    (funded : 0 ≤ store.available tenant merchant asset)
    (reached : Reaches (System.step d)
      (fun state event => event.credits tenant merchant asset = true
        ∧ state.coversAll d tenant merchant asset event = true)
      { store, tasks := [] } system)
    : ∃ available,
        LedgerService.availableBalance system.store.ledger (merchantAvailable tenant merchant)
          asset
        = .ok available
        ∧ 0 ≤ available := by
  have covered : Covered d tenant merchant asset system :=
    reached.invariant (Covered.initial materialised funded)
      fun covered allowed taken => covered.step allowed.1 allowed.2 taken
  exact ⟨system.store.available tenant merchant asset,
    LedgerService.availableBalance_merchantAvailable .., covered.nonneg⟩

-----------------------------------------------------------------------------
-- Two chains, two leases, one balance

/-- A payout of the sample merchant under a key of its own on another chain. -/
def otherPayout : PayoutParams :=
  { samplePayout with chain := "POLYGON", idempotencyKey := "other" }

/-- A deposit of 100 and two payouts of 100, each run until it has compared the balance. -/
def bothCompared : List Event :=
  [ .post (depositOf 100), .call (.payout samplePayout), .call (.payout otherPayout) ]
  ++ completes 0 7 (sampleReply "a" [100]) ++ completes 1 7 (sampleReply "b" [100])

/-- Both find the 100 that is there, and both lock it. -/
theorem available_goes_negative
    : ∃ system,
        Reaches (System.step plainDeployment)
          (fun _ event => event.credits "t" "m" "USDT" = true)
          { store := emptyStore, tasks := [] } system
        ∧ system.store.available "t" "m" "USDT" = -100
        ∧ LedgerService.availableBalance system.store.ledger (merchantAvailable "t" "m") "USDT"
          = .ok (-100) := by
  have overdrawn : ∃ system,
      Reaches (System.step plainDeployment)
        (fun _ event => event.credits "t" "m" "USDT" = true)
        { store := emptyStore, tasks := [] } system
      ∧ system.store.available "t" "m" "USDT" = -100 :=
    Reaches.exists_of_exec
      (bothCompared ++ completes 0 1 (sampleReply "a" [100])
        ++ completes 1 1 (sampleReply "b" [100]))
      (by decide +kernel)
  obtain ⟨system, reached, below⟩ := overdrawn
  refine ⟨system, reached, below, ?_⟩
  rw [LedgerService.availableBalance_merchantAvailable]
  exact congrArg Except.ok below

/-- One after another, the second call finds nothing left and the balance stays at zero. -/
theorem available_never_negative_in_turn
    : ∃ system,
        Reaches (System.step plainDeployment)
          (fun state event => event.credits "t" "m" "USDT" = true
            ∧ state.coversAll plainDeployment "t" "m" "USDT" event = true)
          { store := emptyStore, tasks := [] } system
        ∧ system.tasks.map Task.lacksFunds = [false, true]
        ∧ ∃ available,
            LedgerService.availableBalance system.store.ledger (merchantAvailable "t" "m") "USDT"
              = .ok available
            ∧ 0 ≤ available := by
  have inTurn : ∃ system,
      Reaches (System.step plainDeployment)
        (fun state event => event.credits "t" "m" "USDT" = true
          ∧ state.coversAll plainDeployment "t" "m" "USDT" event = true)
        { store := emptyStore, tasks := [] } system
      ∧ system.tasks.map Task.lacksFunds = [false, true] :=
    Reaches.exists_of_exec
      ([ .post (depositOf 100), .call (.payout samplePayout), .call (.payout otherPayout) ]
        ++ completes 0 8 (sampleReply "a" [100]) ++ completes 1 8 (sampleReply "b" [100]))
      (by decide +kernel)
  obtain ⟨system, reached, second⟩ := inTurn
  exact ⟨system, reached, second,
    available_never_negative plainDeployment "t" "m" "USDT" emptyStore system
      SqlLedger.materialised_empty (by decide +kernel) reached⟩

end Cixtech.Payout
