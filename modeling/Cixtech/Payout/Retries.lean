import Cixtech.Payout.ConcurrentPayouts

/-! A payout that is called again after its lock was applied and nothing was sent. The lock
is idempotent by its key, but the balance is compared before the key is looked at, and the
earlier lock has lowered the balance.
-/

namespace Cixtech.Payout

open Cixtech.Attribution Cixtech.Common Cixtech.Foundation Cixtech.Ledger

-----------------------------------------------------------------------------
-- The lock over a ledger that has it

/-- The lock of a payout is in the ledger. -/
def Locked (d : Deployment) (ledger : SqlLedger) (p : PayoutParams) : Prop :=
  ∃ entry ∈ ledger.journal, payoutLocked (PayoutService.lockInput d p) = .ok entry

/-- A lock that was applied was built of a positive amount. -/
theorem Locked.positive {d : Deployment} {ledger : SqlLedger} {p : PayoutParams}
    (locked : Locked d ledger p)
    : 0 < p.amountBaseUnits := by
  obtain ⟨entry, -, built⟩ := locked
  rw [payoutLocked, movement_eq] at built
  split at built
  · cases built
  · rename_i positive
    exact Int.not_le.mp positive

/-- Appending a lock that was applied does nothing. -/
theorem Locked.append {d : Deployment} {ledger : SqlLedger} {p : PayoutParams}
    (locked : Locked d ledger p)
    : (payoutLocked (PayoutService.lockInput d p) >>= ledger.append) = .ok (ledger, false) := by
  obtain ⟨entry, member, built⟩ := locked
  rw [built]
  have held : ledger.hasKey entry.idempotencyKey = true := by
    simpa [SqlLedger.hasKey] using ⟨entry, member, rfl⟩
  rcases ledger.append_cases entry with ⟨-, same⟩ | ⟨free, -⟩ | ⟨free, -⟩
  · exact same
  · exact absurd (held.symm.trans free) (by decide)
  · exact absurd (held.symm.trans free) (by decide)

/-- The entry to append is built exactly where the balance covers the positive amount. -/
theorem lockEntry_eq (input : PayoutLockedInput) (available : Int) (positive : 0 < input.amount)
    : LedgerService.lockEntry input available
      = if input.amount > available then
          .error (LedgerService.insufficientFunds input available)
        else payoutLocked input := by
  unfold LedgerService.lockEntry
  split
  · rfl
  · have built := movement_eq "Payout" "payout.locked" input.id input.idempotencyKey input.asset
      input.amount input.merchantAvailable input.merchantPendingWithdrawal none
    rw [if_neg (Int.not_le.mpr positive)] at built
    simp [payoutLocked, built, assertBalanced_of_balanced (balanced_movementEntry positive), bind,
      Except.bind, pure, Except.pure]

/-- Locking again does nothing where the balance left still covers the amount, and is refused
where it does not.
-/
theorem Locked.lockPayout {d : Deployment} {ledger : SqlLedger} {p : PayoutParams} {left : Int}
    (locked : Locked d ledger p)
    (read : LedgerService.availableBalance ledger (merchantAvailable p.tenant p.merchant)
        (d.casing.toUpperCase p.asset)
      = .ok left)
    : LedgerService.lockPayout ledger (PayoutService.lockInput d p)
      = if p.amountBaseUnits > left then
          .error (LedgerService.insufficientFunds (PayoutService.lockInput d p) left)
        else .ok (ledger, false) := by
  have read : LedgerService.availableBalance ledger
      (PayoutService.lockInput d p).merchantAvailable (PayoutService.lockInput d p).asset
      = .ok left := read
  have compared : LedgerService.lockPayout ledger (PayoutService.lockInput d p)
      = LedgerService.lockEntry (PayoutService.lockInput d p) left >>= ledger.append := by
    rw [LedgerService.lockPayout, read]
    rfl
  have amount : (PayoutService.lockInput d p).amount = p.amountBaseUnits := rfl
  rw [compared, lockEntry_eq (PayoutService.lockInput d p) left locked.positive, amount]
  split
  · rfl
  · exact locked.append

-----------------------------------------------------------------------------
-- The call

namespace PayoutService

/-- Complete so many awaits of a call, nothing in between. -/
def awaits (d : Deployment) (reply : Reply) : Nat → Store × Progress → Option (Store × Progress)
  | 0, state => some state
  | count + 1, (store, .awaiting stage) =>
      (advance d store reply stage).bind (awaits d reply count)
  | _ + 1, (_, .finished _) => none

/-- A row without a transaction id is neither answered nor resumed. -/
theorem branch_of_unsent (p : PayoutParams) (now : Int) {intent : PayoutIntent}
    (unsent : intent.txId = none)
    : branch p now intent = .awaiting (.check p now intent.createdAt) := by
  unfold branch
  rw [unsent, truthy]
  split <;> simp_all

end PayoutService

/-- A call of `payout()` over a store where an earlier attempt under its key applied the lock
and sent nothing, with the policy allowing it, the lease free and the pool holding the
amount.
-/
structure Retried (d : Deployment) (store : Store) (reply : Reply) (p : PayoutParams) (left : Int)
    : Prop where
  fresh : ∀ row ∈ store.journal, row.id ≠ reply.freshId
  row : ∃ intent,
    PayoutJournal.load store.journal p.idempotencyKey = some intent
    ∧ intent.txId = none
    ∧ PolicyEngine.refusal (PayoutService.context p intent.createdAt)
        (PolicyEngine.evaluate d.policy reply.answers store.payoutLog
          (PayoutService.context p intent.createdAt) store.clock).1
      = none
  locked : Locked d store.ledger p
  available : LedgerService.availableBalance store.ledger
      (merchantAvailable p.tenant p.merchant) (d.casing.toUpperCase p.asset)
    = .ok left
  free : (GatherLease.acquire store.leases (PayoutService.leaseKey d p) p.idempotencyKey
      store.clock (store.clock + d.leaseTtlMs)).2
    = true
  gathered : ∃ plan,
    PoolGatherer.gather p.tenant p.merchant p.chain p.asset p.amountBaseUnits reply.balances
    = .ok plan

/-- The call gets to the top of the loop over its legs. -/
def ReachesLegs (d : Deployment) (ledger : SqlLedger) (p : PayoutParams)
    (state : Option (Store × Progress)) : Prop :=
  ∃ (after : Store) (now expiresAt : Int) (plan : GatherPlan p.amountBaseUnits),
    state
    = some
        (after,
          .awaiting
            (.leased { p, now, expiresAt }
              (PayoutService.enterLeg d (Payment.ofPlan plan))))
    ∧ after.ledger = ledger

/-- The call throws that the funds do not cover its amount. -/
def ThrowsInsufficient (d : Deployment) (ledger : SqlLedger) (p : PayoutParams) (left : Int)
    (state : Option (Store × Progress)) : Prop :=
  ∃ after : Store,
    state
    = some
        (after,
          .finished
            (.error (LedgerService.insufficientFunds (PayoutService.lockInput d p) left)))
    ∧ after.ledger = ledger

/-- The eight awaits from the insert of the row to the append of the lock, or to the release
after the balance was refused.
-/
theorem Retried.awaits {d : Deployment} {store : Store} {reply : Reply} {p : PayoutParams}
    {left : Int} (retried : Retried d store reply p left)
    : let state := PayoutService.awaits d reply 8 (store, .awaiting (.begin_ p store.clock))
      if p.amountBaseUnits > left then ThrowsInsufficient d store.ledger p left state
      else ReachesLegs d store.ledger p state := by
  obtain ⟨fresh, ⟨intent, found, unsent, allowed⟩, locked, available, free, ⟨plan, gathered⟩⟩ :=
    retried
  have unused : store.journal.any (fun row => row.id = reply.freshId) = false := by
    simpa using fresh
  have kept : PayoutJournal.load
      (PayoutJournal.begin_ store.journal reply.freshId store.clock (PayoutService.newIntent p))
      p.idempotencyKey
      = some intent :=
    Table.lookup_insertIgnore_of_some found
  have branched := PayoutService.branch_of_unsent p store.clock unsent
  have entry := lockEntry_eq (PayoutService.lockInput d p) left locked.positive
  have again := locked.append
  have read : LedgerService.availableBalance store.ledger
      (PayoutService.lockInput d p).merchantAvailable (PayoutService.lockInput d p).asset
      = .ok left := available
  have amount : (PayoutService.lockInput d p).amount = p.amountBaseUnits := rfl
  simp only [PayoutService.awaits, PayoutService.advance, PayoutService.spend, unused, kept,
    branched, allowed, free, gathered, read, entry, amount, Option.bind_some, Bool.false_eq_true,
    if_false, if_true, bind, Except.bind] at again ⊢
  by_cases short : p.amountBaseUnits > left
  · simp only [if_pos short]
    exact ⟨_, rfl, rfl⟩
  · obtain ⟨locking, -, built⟩ := locked
    simp only [built] at again
    simp only [if_neg short, built, Option.bind_some, PayoutService.awaits,
      PayoutService.advance, PayoutService.spend, bind, Except.bind, again]
    exact ⟨_, _, _, plan, rfl, rfl⟩

/-- Whatever else was posted since, a call of `payout()` under a key whose lock was applied
gets back to its legs, and locking again is a successful no-op, exactly where the merchant's
remaining available balance covers the amount a second time.
-/
theorem retried_payout_reaches_legs {d : Deployment} {store : Store} {reply : Reply}
    {p : PayoutParams} {left : Int} (retried : Retried d store reply p left)
    : (ReachesLegs d store.ledger p
          (PayoutService.awaits d reply 8 (store, .awaiting (.begin_ p store.clock)))
        ↔ p.amountBaseUnits ≤ left)
      ∧ (LedgerService.lockPayout store.ledger (PayoutService.lockInput d p)
            = .ok (store.ledger, false)
          ↔ p.amountBaseUnits ≤ left)
      ∧ (left < p.amountBaseUnits
          → ThrowsInsufficient d store.ledger p left
              (PayoutService.awaits d reply 8 (store, .awaiting (.begin_ p store.clock)))) := by
  have ends := retried.awaits
  have locks := retried.locked.lockPayout retried.available
  by_cases short : p.amountBaseUnits > left
  · simp only [if_pos short] at ends locks
    refine ⟨iff_of_false ?_ (Int.not_le.mpr short), iff_of_false ?_ (Int.not_le.mpr short),
      fun _ => ends⟩
    · rintro ⟨after, now, expiresAt, plan, reached, -⟩
      obtain ⟨other, thrown, -⟩ := ends
      cases thrown.symm.trans reached
    · rw [locks]
      intro same
      cases same
  · simp only [if_neg short] at ends locks
    have covered : p.amountBaseUnits ≤ left := Int.not_lt.mp short
    exact ⟨iff_of_true ends covered, iff_of_true locks covered,
      fun less => absurd less (Int.not_lt.mpr covered)⟩

-----------------------------------------------------------------------------
-- A first attempt whose only send fails

/-- Whether a task threw that the funds do not cover its amount. -/
def Task.lacksFunds : Task → Bool
  | .finished (.returned (.error err)) => err.code == .ledgerInsufficientFunds
  | _ => false

/-- The sample deposit, of which so much is left to the merchant. -/
def depositOf (amount : Int) : JournalEntry :=
  { id := "deposit", idempotencyKey := "deposit", kind := "deposit.finalized"
    postings :=
      [ ⟨poolAddr "TRON" "m", "USDT", amount, .debit⟩,
        ⟨merchantAvailable "t" "m", "USDT", amount, .credit⟩ ] }

/-- A payout of the whole balance whose send is rejected and that is then called again. -/
def failedAttempt (amount : Int) : List Event :=
  [.post (depositOf amount), .call (.payout samplePayout)]
  ++ completes 0 8 (sampleReply "a" [100])
  ++ [.reject 0 (.plain "connection lost"), .resume 0 (sampleReply "a" [100])]

/-- The second call finds its own lock in the way: it throws that the funds are insufficient,
nothing is sent, and the amount stays pending.
-/
theorem retried_payout_lacks_funds
    : ∃ system,
        Reaches (System.step plainDeployment) (fun _ _ => True)
          { store := emptyStore, tasks := [] } system
        ∧ system.tasks.map Task.lacksFunds = [false, true]
        ∧ system.store.transferred "k" = 0
        ∧ LedgerService.lockPayout system.store.ledger
            (PayoutService.lockInput plainDeployment samplePayout)
          ≠ .ok (system.store.ledger, false)
        ∧ system.store.ledger.balance (merchantPendingWithdrawal "t" "m") "USDT" = -100 :=
  Reaches.exists_of_exec
    (failedAttempt 100 ++ [.call (.payout samplePayout)] ++ completes 1 8 (sampleReply "b" [100]))
    (by decide +kernel)

/-- The store after a failed first attempt that left the merchant another 100. -/
def lockedStore : Store :=
  { emptyStore with
    journal :=
      [ { id := "a", idempotencyKey := "k", tenant := "t", merchant := "m", chain := "TRON"
          asset := "USDT", amountBaseUnits := 100, destination := "dest"
          fromAddress := some "pool", txId := none, status := .broadcasting
          requestedBy := none, createdAt := 0 } ]
    ledger :=
      [ depositOf 200,
        movementEntry "payout.locked" "k:lock" "k:lock" "USDT" 100 (merchantAvailable "t" "m")
          (merchantPendingWithdrawal "t" "m") none ].foldl
        (fun ledger entry => ((LedgerService.post ledger entry).toOption.map Prod.fst).getD ledger)
        SqlLedger.empty }

/-- There the second call gets back to its legs. -/
theorem retried_payout_reaches_legs_covered
    : ReachesLegs plainDeployment lockedStore.ledger samplePayout
        (PayoutService.awaits plainDeployment (sampleReply "b" [100]) 8
          (lockedStore, .awaiting (.begin_ samplePayout 0))) := by
  have retried : Retried plainDeployment lockedStore (sampleReply "b" [100]) samplePayout 100 :=
    { fresh := by decide +kernel
      row := ⟨_, rfl, rfl, by decide +kernel⟩
      locked :=
        ⟨movementEntry "payout.locked" "k:lock" "k:lock" "USDT" 100 (merchantAvailable "t" "m")
            (merchantPendingWithdrawal "t" "m") none,
          by decide +kernel, by decide +kernel⟩
      available := by
        rw [LedgerService.availableBalance_merchantAvailable]
        decide +kernel
      free := by decide +kernel
      gathered := by
        have holds : (PoolGatherer.gather "t" "m" "TRON" "USDT" 100
            (sampleReply "b" [100]).balances).toOption.isSome = true := by
          decide +kernel
        cases gathered : PoolGatherer.gather "t" "m" "TRON" "USDT" 100
            (sampleReply "b" [100]).balances with
        | error err => simp [gathered, Except.toOption] at holds
        | ok plan => exact ⟨plan, gathered⟩ }
  exact (retried_payout_reaches_legs retried).1.mpr (by decide)

end Cixtech.Payout
