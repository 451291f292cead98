import Cixtech.Payout.Intents

/-! Concurrent calls of one intent. The journaled status is read before the lease is taken
and never again, so what keeps a payment single is that no lock is appended for an intent
whose row is already broadcast.
-/

namespace Cixtech.Payout

open Cixtech.Common Cixtech.Foundation Cixtech.Foundation.Processes Cixtech.Ledger

/-- A call under the key carries the terms of the intent. An approval carries no terms of its
own.
-/
def Event.repeats (d : Deployment) (key : String) (terms : Terms) : Event → Bool
  | .call (.payout p) => p.idempotencyKey ≠ key ∨ p.terms = terms
  | .call (.withdraw request) =>
      (request.params d).idempotencyKey ≠ key ∨ (request.params d).terms = terms
  | _ => true

/-- The journal and the calls know one set of terms for the key, and a payout that was begun
under it has its row.
-/
structure Journaled (d : Deployment) (key : String) (terms : Terms) (system : System)
    : Prop where
  rows : ∀ row ∈ system.store.journal, row.idempotencyKey = key → row.terms = terms
  calls : ∀ task ∈ system.tasks, ∀ known, task.about d = some (key, known) → known = terms
  begun : ∀ task ∈ system.tasks, task.begun = some key
    → (PayoutJournal.load system.store.journal key).isSome

theorem Journaled.initial {d : Deployment} {key : String} {terms : Terms} {store : Store}
    (rows : ∀ row ∈ store.journal, row.idempotencyKey = key → row.terms = terms)
    : Journaled d key terms { store, tasks := [] } where
  rows := rows
  calls := by simp
  begun := by simp

theorem Task.about_of_beginning {d : Deployment} {task : Task} {p : PayoutParams}
    (beginning : task.beginning = some p)
    : task.about d = some (p.idempotencyKey, p.terms) := by
  cases task with
  | paying caller stage =>
      cases stage with
      | begin_ q now =>
          obtain rfl : q = p := Option.some.inj beginning
          rfl
      | _ => cases beginning
  | _ => cases beginning

theorem Task.begun_ofRequest (now : Int) (request : Request)
    : (Task.ofRequest now request).begun = none := by
  cases request <;> rfl

/-- A call that repeats the terms is about the key with these terms only. -/
theorem Event.about_of_repeats {d : Deployment} {key : String} {terms known : Terms}
    {request : Request} {now : Int}
    (repeats : (Event.call request).repeats d key terms = true)
    (about : (Task.ofRequest now request).about d = some (key, known))
    : known = terms := by
  cases request with
  | payout p =>
      obtain ⟨under, rfl⟩ : p.idempotencyKey = key ∧ p.terms = known := by
        simpa [Task.ofRequest, Task.startPayout, Task.about, Stage.params] using about
      simpa [Event.repeats, under] using repeats
  | withdraw request =>
      obtain ⟨under, rfl⟩ : (request.params d).idempotencyKey = key
          ∧ (request.params d).terms = known := by
        simpa [Task.ofRequest, Task.about] using about
      simpa [Event.repeats, under] using repeats
  | approve request => simp [Task.ofRequest, Task.about] at about

section Step

variable {d : Deployment} {key : String} {terms : Terms} {system next : System} {event : Event}

/-- One event keeps the terms of the key, where a call under it repeats them. -/
theorem Journaled.step (journaled : Journaled d key terms system)
    (repeats : event.repeats d key terms = true)
    (taken : system.step d event = some next)
    : Journaled d key terms next := by
  rcases System.step_cases taken with ⟨elapsed, -, store, tasks⟩ | ⟨request, rfl, store, tasks⟩
    | ⟨ledger, store, tasks⟩ | ⟨index, old, new, acting, moves⟩
  · refine ⟨?_, tasks ▸ journaled.calls, ?_⟩
    · rw [store]; exact journaled.rows
    · rw [store, tasks]; exact journaled.begun
  · refine ⟨store ▸ journaled.rows, ?_, ?_⟩
    · rw [tasks]
      intro task member known about
      rcases List.mem_append.mp member with before | arrived
      · exact journaled.calls task before known about
      · rw [List.mem_singleton.mp arrived] at about
        exact Event.about_of_repeats repeats about
    · rw [tasks, store]
      intro task member begun
      rcases List.mem_append.mp member with before | arrived
      · exact journaled.begun task before begun
      · rw [List.mem_singleton.mp arrived, Task.begun_ofRequest] at begun
        cases begun
  · refine ⟨?_, tasks ▸ journaled.calls, ?_⟩
    · rw [store]; exact journaled.rows
    · rw [store, tasks]; exact journaled.begun
  · have move := moves.journal
    obtain ⟨id, step⟩ := move.step
    refine ⟨?_, ?_, ?_⟩
    · intro row member under
      rcases step.origin member with ⟨earlier, before, evolves⟩ | ⟨fresh, inserts, rfl⟩
      · rw [evolves.terms]
        exact journaled.rows earlier before (evolves.key ▸ under)
      · obtain ⟨p, beginning, rfl⟩ := Option.map_eq_some_iff.mp inserts
        have about := Task.about_of_beginning (d := d) beginning
        exact journaled.calls old acting.mem_old _ (under ▸ about)
    · intro task member known about
      rcases acting.mem_cases member with rfl | before
      · rcases move.about with idle | same | ⟨row, inJournal, same⟩
        · simp [idle] at about
        · exact journaled.calls old acting.mem_old known (same ▸ about)
        · obtain ⟨under, rfl⟩ : row.idempotencyKey = key ∧ row.terms = known := by
            simpa [same] using about
          exact journaled.rows row inJournal under
      · exact journaled.calls task before known about
    · intro task member begun
      rcases acting.mem_cases member with rfl | before
      · rcases move.begun key begun with was | there
        · exact step.isSome (journaled.begun old acting.mem_old was)
        · exact there
      · exact step.isSome (journaled.begun task before begun)

end Step

-----------------------------------------------------------------------------
-- One call at a time spends under the key

/-- A call that holds the lease is about its payout and has begun it. -/
theorem Task.about_of_lease {d : Deployment} {task : Task} {lease : Lease}
    (has : task.lease = some lease)
    : task.about d = some (lease.p.idempotencyKey, lease.p.terms)
      ∧ task.begun = some lease.p.idempotencyKey := by
  cases task with
  | paying caller stage =>
      cases stage with
      | leased held step =>
          obtain rfl : held = lease := Option.some.inj has
          exact ⟨rfl, rfl⟩
      | _ => cases has
  | _ => cases has

theorem Journaled.terms_of_lease {d : Deployment} {key : String} {terms : Terms}
    {system : System} (journaled : Journaled d key terms system) {task : Task} {lease : Lease}
    (member : task ∈ system.tasks) (has : task.lease = some lease)
    (under : lease.p.idempotencyKey = key)
    : lease.p.terms = terms :=
  journaled.calls task member _ (under ▸ (Task.about_of_lease has).1)

theorem Journaled.agreed {d : Deployment} {key : String} {terms : Terms} {system : System}
    (journaled : Journaled d key terms system)
    : system.AgreeOn key terms.amountBaseUnits := by
  intro task member lease has under
  have same := journaled.terms_of_lease member has under
  exact congrArg Terms.amountBaseUnits same

/-- Equal terms are paid under one lease, so the holders under a key exclude each other. -/
theorem Journaled.alone {d : Deployment} {key : String} {terms : Terms} {system : System}
    (journaled : Journaled d key terms system) (leasing : Leasing d system)
    : Exclusive (Task.spendsUnder key) system.tasks := by
  intro i j a b held atI atJ spendsA spendsB
  obtain ⟨leaseA, hasA, underA⟩ := Task.spendsUnder_iff.mp spendsA
  obtain ⟨leaseB, hasB, underB⟩ := Task.spendsUnder_iff.mp spendsB
  have termsA := journaled.terms_of_lease (List.mem_of_getElem? atI) hasA underA
  have termsB := journaled.terms_of_lease (List.mem_of_getElem? atJ) hasB underB
  have sameKey : PayoutService.leaseKey d leaseB.p = PayoutService.leaseKey d leaseA.p := by
    have same := termsB.trans termsA.symm
    simp only [PayoutParams.terms, Terms.mk.injEq] at same
    obtain ⟨tenant, merchant, chain, -⟩ := same
    rw [PayoutService.leaseKey, PayoutService.leaseKey, tenant, merchant, chain]
  have holdsA : a.heldKey d = some (PayoutService.leaseKey d leaseA.p) := by
    simp [Task.heldKey, hasA]
  have holdsB : b.heldKey d = some (PayoutService.leaseKey d leaseA.p) := by
    simp [Task.heldKey, hasB, sameKey]
  exact leasing.exclusive atI atJ holdsA holdsB

-----------------------------------------------------------------------------
-- Money that moved is journaled

/-- The row of the key carries a transaction id. -/
def PayoutJournal.isBroadcast (rows : List PayoutIntent) (key : String) : Bool :=
  match PayoutJournal.load rows key with
  | some row => row.txId.isSome
  | none => false

/-- An event in which nothing fails: no await throws, no process dies, and a payment that has
passed its lock does not end in an error.
-/
def System.flawless (d : Deployment) (system : System) : Event → Bool
  | .resume index reply =>
      match system.tasks[index]? with
      | some task =>
          match task.advance d system.store reply with
          | some (_, next) => task.inFlight.isNone || !next.failing
          | none => true
      | none => true
  | .reject _ _ | .lose _ _ _ | .crash _ => false
  | _ => true

/-- Where money has moved under the key, its row says so or the payment is in flight. -/
def Marked (key : String) (system : System) : Prop :=
  system.store.transferred key ≠ 0
    → PayoutJournal.isBroadcast system.store.journal key = true
      ∨ ∃ task ∈ system.tasks, ∃ p sum, task.inFlight = some (p, sum) ∧ p.idempotencyKey = key

theorem Marked.initial {key : String} {store : Store} (unsent : store.effects = [])
    : Marked key { store, tasks := [] } := by
  intro moved
  simp [Store.transferred, unsent] at moved

theorem PayoutJournal.Step.isBroadcast {rows later : List PayoutIntent} {id : String}
    {createdAt : Int} {intent : Option NewIntent}
    (step : PayoutJournal.Step rows id createdAt intent later) {key : String}
    (sent : PayoutJournal.isBroadcast rows key = true)
    : PayoutJournal.isBroadcast later key = true := by
  unfold PayoutJournal.isBroadcast at sent ⊢
  cases found : PayoutJournal.load rows key with
  | none => simp [found] at sent
  | some row =>
      obtain ⟨next, kept, evolves⟩ := step.load found
      rw [kept]
      exact evolves.txId (by simpa [found] using sent)

/-- A move that sends was made by a task with a payment in flight, which stays in flight
unless the move lands it.
-/
theorem SentStep.flies {store after : Store} {atLock : Option PayoutParams}
    {before next : Option (PayoutParams × Int)} {key : String}
    (step : SentStep store after atLock before next)
    (moved : after.transferred key ≠ store.transferred key)
    : ∃ p sum, before = some (p, sum) ∧ p.idempotencyKey = key := by
  cases step with
  | quiet same kept => exact (moved (same key)).elim
  | locked here same fresh => exact (moved (same key)).elim
  | @sent p sum leg was positive bounded more grown =>
      by_cases own : p.idempotencyKey = key
      · exact ⟨p, sum, was, own⟩
      · exact (moved (by rw [more key, if_neg own, Int.add_zero])).elim

theorem SentStep.stays {store after : Store} {atLock : Option PayoutParams}
    {p : PayoutParams} {sum : Int} {next : Option (PayoutParams × Int)}
    (step : SentStep store after atLock (some (p, sum)) next) (locks : atLock = none)
    (flies : next ≠ none)
    : ∃ later, next = some (p, later) := by
  cases step with
  | quiet same kept => exact ⟨sum, kept.resolve_left flies⟩
  | locked here same fresh => simp [locks] at here
  | sent was positive bounded more grown =>
      obtain ⟨rfl, rfl⟩ := Prod.mk.inj (Option.some.inj was)
      exact ⟨_, grown.resolve_left flies⟩

theorem Task.atLock_of_inFlight {task : Task} {p : PayoutParams} {sum : Int}
    (flying : task.inFlight = some (p, sum))
    : task.atLock = none := by
  cases task with
  | paying caller stage =>
      cases stage with
      | leased lease step =>
          cases step with
          | appendLock plan => cases flying
          | _ => rfl
      | _ => rfl
  | _ => rfl

section Step

variable {d : Deployment} {key : String} {terms : Terms} {system next : System} {event : Event}

/-- A payment in flight under the key that moves without a failure stays in flight or is
journaled as broadcast.
-/
theorem Journaled.lands {old new : Task} {index : Nat} {p : PayoutParams} {sum : Int}
    (journaled : Journaled d key terms system)
    (acting : Acts system.tasks next.tasks index old new)
    (moves : old.Moves d system.store index event next.store new)
    (flawless : system.flawless d event = true)
    (flying : old.inFlight = some (p, sum)) (under : p.idempotencyKey = key)
    : PayoutJournal.isBroadcast next.store.journal key = true
      ∨ ∃ later, new.inFlight = some (p, later) := by
  obtain ⟨lease, has, rfl⟩ := Task.lease_of_inFlight flying
  generalize next.store = after at moves ⊢
  cases landed : new.inFlight with
  | some pair =>
      have sent := moves.sent acting.found
      have locks : system.locking event = none := by
        have unlocked := Task.atLock_of_inFlight flying
        cases moves <;> simp [System.locking, acting.found, unlocked]
      rw [landed, flying] at sent
      exact .inr (sent.stays locks (by simp))
  | none =>
      cases moves with
      | rejected thrown => cases flawless
      | lost done thrown => cases flawless
      | crashed => cases flawless
      | resumed done =>
          have succeeds : new.failing = false := by
            simpa [System.flawless, acting.found, done, flying] using flawless
          obtain ⟨txId, marked⟩ := Task.advance_lands done flying landed succeeds
          have begun := (Task.about_of_lease (d := d) has).2
          have there := journaled.begun old acting.mem_old (under ▸ begun)
          obtain ⟨row, found⟩ := Option.isSome_iff_exists.mp there
          rw [marked, under]
          simp [PayoutJournal.isBroadcast, PayoutJournal.load_markBroadcast, found,
            PayoutIntent.broadcastAs]

/-- One event without a failure keeps account of the money that moved. -/
theorem Marked.step (marked : Marked key system) (journaled : Journaled d key terms system)
    (flawless : system.flawless d event = true)
    (taken : system.step d event = some next)
    : Marked key next := by
  rcases System.step_cases taken with ⟨elapsed, -, store, tasks⟩ | ⟨request, -, store, tasks⟩
    | ⟨ledger, store, tasks⟩ | ⟨index, old, new, acting, moves⟩
  · unfold Marked
    rw [store, tasks]
    exact marked
  · unfold Marked
    rw [store, tasks]
    intro moved
    refine (marked moved).imp_right ?_
    rintro ⟨task, member, flies⟩
    exact ⟨task, List.mem_append_left _ member, flies⟩
  · unfold Marked
    rw [store, tasks]
    exact marked
  · intro moved
    obtain ⟨id, step⟩ := moves.journal.step
    have ofOld : ∀ p sum, old.inFlight = some (p, sum) → p.idempotencyKey = key
        → PayoutJournal.isBroadcast next.store.journal key = true
          ∨ ∃ task ∈ next.tasks, ∃ p sum, task.inFlight = some (p, sum)
              ∧ p.idempotencyKey = key := by
      intro p sum flying under
      refine (journaled.lands acting moves flawless flying under).imp_right ?_
      rintro ⟨later, flies⟩
      exact ⟨new, List.mem_of_getElem? acting.get_self, p, later, flies, under⟩
    by_cases same : next.store.transferred key = system.store.transferred key
    · rcases marked (same ▸ moved) with sent | ⟨task, member, p, sum, flying, under⟩
      · exact .inl (step.isBroadcast sent)
      · obtain ⟨at_, there⟩ := List.mem_iff_getElem?.mp member
        by_cases self : at_ = index
        · subst self
          obtain rfl : old = task := Option.some.inj (acting.found.symm.trans there)
          exact ofOld p sum flying under
        · have kept : next.tasks[at_]? = some task := (acting.get_other self).trans there
          exact .inr ⟨task, List.mem_of_getElem? kept, p, sum, flying, under⟩
    · obtain ⟨p, sum, flying, under⟩ := (moves.sent acting.found).flies same
      exact ofOld p sum flying under

/-- A lock that finds its intent not yet broadcast finds nothing sent. -/
theorem Marked.unsent_at_lock (marked : Marked key system)
    (journaled : Journaled d key terms system) (leasing : Leasing d system)
    {p : PayoutParams} (locking : system.locking event = some p)
    (under : p.idempotencyKey = key)
    (unmarked : PayoutJournal.isBroadcast system.store.journal key = false)
    : system.store.transferred key = 0 := by
  by_contra moved
  rcases marked moved with sent | ⟨task, member, q, sum, flying, sameKey⟩
  · simp [unmarked] at sent
  · obtain ⟨index, locker, found, locks⟩ := System.locking_mem locking
    obtain ⟨at_, there⟩ := List.mem_iff_getElem?.mp member
    obtain ⟨lease, has, rfl⟩ := Task.lease_of_atLock locks
    obtain ⟨other, hasOther, rfl⟩ := Task.lease_of_inFlight flying
    have same : at_ = index :=
      journaled.alone leasing there found
        (Task.spendsUnder_iff.mpr ⟨other, hasOther, sameKey⟩)
        (Task.spendsUnder_iff.mpr ⟨lease, has, under⟩)
    subst same
    obtain rfl : task = locker := Option.some.inj (there.symm.trans found)
    simp [Task.atLock_of_inFlight flying] at locks

end Step

-----------------------------------------------------------------------------
-- Whole runs

/-- Calls of the intent repeat its terms, nothing fails, and every holder of a lease is done
with it before it expires.
-/
def System.Undisturbed (d : Deployment) (key : String) (terms : Terms) (system : System)
    (event : Event)
    : Prop :=
  event.repeats d key terms = true ∧ system.flawless d event = true ∧ system.WithinTtl

/-- A lock of the intent is appended only while its row is not broadcast. -/
def System.LocksUnmarked (key : String) (system : System) (event : Event) : Prop :=
  ∀ p ∈ system.locking event, p.idempotencyKey = key
    → PayoutJournal.isBroadcast system.store.journal key = false

instance (system : System) : Decidable system.WithinTtl :=
  inferInstanceAs (Decidable (∀ task ∈ system.tasks, ∀ lease ∈ task.lease,
    system.store.clock ≤ lease.expiresAt))

instance (d : Deployment) (key : String) (terms : Terms) (system : System) (event : Event)
    : Decidable (system.Undisturbed d key terms event) :=
  inferInstanceAs (Decidable (_ ∧ _ ∧ _))

instance (key : String) (system : System) (event : Event)
    : Decidable (system.LocksUnmarked key event) :=
  inferInstanceAs (Decidable (∀ p ∈ system.locking event, _))

/-- What a run of concurrent calls keeps. -/
structure PaidOnce (d : Deployment) (key : String) (terms : Terms) (system : System)
    : Prop where
  leasing : Leasing d system
  journaled : Journaled d key terms system
  marked : Marked key system
  paid : Paid key terms.amountBaseUnits system

theorem PaidOnce.step {d : Deployment} {key : String} {terms : Terms} {system next : System}
    {event : Event} (once : PaidOnce d key terms system)
    (undisturbed : system.Undisturbed d key terms event)
    (unmarked : system.LocksUnmarked key event)
    (taken : system.step d event = some next)
    : PaidOnce d key terms next := by
  obtain ⟨repeats, flawless, within⟩ := undisturbed
  refine ⟨once.leasing.step within taken, once.journaled.step repeats taken,
    once.marked.step once.journaled flawless taken, ?_⟩
  refine once.paid.step (once.journaled.alone once.leasing) once.journaled.agreed ?_ taken
  intro p locking under
  exact once.marked.unsent_at_lock once.journaled once.leasing locking under
    (unmarked p locking under)

/-- Concurrent calls of one intent pay it at most once, in every run whose locks find the
intent not yet broadcast.
-/
theorem concurrent_payouts_within_amount (d : Deployment) (key : String) (terms : Terms)
    (store : Store) (system : System) (unsent : store.effects = [])
    (recorded : ∀ row ∈ store.journal, row.idempotencyKey = key → row.terms = terms)
    (notNegative : 0 ≤ terms.amountBaseUnits)
    (reached : Reaches (System.step d)
      (fun state event => state.Undisturbed d key terms event ∧ state.LocksUnmarked key event)
      { store, tasks := [] } system)
    : system.store.transferred key ≤ terms.amountBaseUnits := by
  have once : PaidOnce d key terms system := by
    refine reached.invariant ?_ fun once allowed taken => once.step allowed.1 allowed.2 taken
    exact ⟨.initial, .initial recorded, .initial unsent, .initial notNegative unsent⟩
  exact once.paid.bounded

-----------------------------------------------------------------------------
-- Two calls that both read the row before either sends

def emptyStore : Store :=
  { journal := [], leases := [], ledger := .empty, payoutLog := [], approvals := []
    idempotency := [], clock := 0, effects := [] }

def samplePayout : PayoutParams :=
  { tenant := "t", merchant := "m", chain := "TRON", asset := "USDT"
    amountBaseUnits := 100, destination := "dest", idempotencyKey := "k"
    requester := none, approvals := none }

/-- A reply whose policy answers admit a payout and whose chain reports the given balances. -/
def sampleReply (freshId : String) (held : List Int) : Reply :=
  { freshId, txId := "tx"
    answers :=
      { killSwitchEngaged := false, storeAllows := true, sanctioned := false, solvent := true }
    balances := held.map fun balance =>
      { address := "pool", derivationIndex := 0, gatherStrategy := .eoaFundTransfer, balance } }

/-- A credit of 200 to the sample merchant. -/
def sampleDeposit : JournalEntry :=
  { id := "deposit", idempotencyKey := "deposit", kind := "deposit.finalized"
    postings :=
      [ ⟨poolAddr "TRON" "m", "USDT", 200, .debit⟩,
        ⟨merchantAvailable "t" "m", "USDT", 200, .credit⟩ ] }

/-- Complete so many awaits of one task, one after another. -/
def completes (index count : Nat) (reply : Reply) : List Event :=
  List.replicate count (.resume index reply)

/-- Two calls of one intent load its row before either takes the lease. The first runs to
its end, and the second then takes the lease and sends the amount again.
-/
theorem concurrent_payouts_send_twice
    : ∃ system,
        Reaches (System.step plainDeployment)
          (fun state event =>
            state.Undisturbed plainDeployment "k" samplePayout.terms event)
          { store := emptyStore, tasks := [] } system
        ∧ samplePayout.terms.amountBaseUnits < system.store.transferred "k" :=
  Reaches.exists_of_exec
    ([.post sampleDeposit, .call (.payout samplePayout), .call (.payout samplePayout)]
      ++ completes 0 2 (sampleReply "a" [100]) ++ completes 1 2 (sampleReply "b" [100])
      ++ completes 0 11 (sampleReply "a" [100]) ++ completes 1 7 (sampleReply "b" [100]))
    (by decide +kernel)

/-- A second call that loads the row after the first is settled pays nothing more. -/
theorem concurrent_payouts_within_amount_replayed
    : ∃ system,
        Reaches (System.step plainDeployment)
          (fun state event =>
            state.Undisturbed plainDeployment "k" samplePayout.terms event
              ∧ state.LocksUnmarked "k" event)
          { store := emptyStore, tasks := [] } system
        ∧ system.store.transferred "k" = 100
        ∧ system.store.transferred "k" ≤ samplePayout.terms.amountBaseUnits := by
  have replayed : ∃ system,
      Reaches (System.step plainDeployment)
        (fun state event =>
          state.Undisturbed plainDeployment "k" samplePayout.terms event
            ∧ state.LocksUnmarked "k" event)
        { store := emptyStore, tasks := [] } system
      ∧ system.store.transferred "k" = 100 :=
    Reaches.exists_of_exec
      ([.post sampleDeposit, .call (.payout samplePayout), .call (.payout samplePayout)]
        ++ completes 0 13 (sampleReply "a" [100]) ++ completes 1 2 (sampleReply "b" [100]))
      (by decide +kernel)
  obtain ⟨system, reached, sent⟩ := replayed
  refine ⟨system, reached, sent, ?_⟩
  exact concurrent_payouts_within_amount plainDeployment "k" samplePayout.terms emptyStore system
    rfl (by simp [emptyStore]) (by decide) reached

end Cixtech.Payout
