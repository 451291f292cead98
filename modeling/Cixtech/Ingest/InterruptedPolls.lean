import Cixtech.Foundation.Executions
import Cixtech.Ingest.DepositWatcher

/-! The deposit watcher, await by await. The ledger and the outbox are written by two awaits, so
that a poll may end between them; a deposit and a reorganisation may be reported again by any
later poll.
-/

namespace Cixtech.Ingest

open Cixtech.Attribution Cixtech.Common Cixtech.Foundation Cixtech.Ledger

/-- Where a poll is: between two awaits, with what it holds in its variables. -/
inductive WatchPhase
  | idle
  /-- Between two addresses. -/
  | between (rest : List PoolAddressRow)
  | ingesting (addr : PoolAddressRow) (deposits : List ChainDeposit) (rest : List PoolAddressRow)
  /-- About to enqueue the event of a deposit that was ingested. -/
  | announcing (addr : PoolAddressRow) (event : String) (deposit : ChainDeposit)
    (deposits : List ChainDeposit) (rest : List PoolAddressRow)
  /-- About to ask the source what is gone. -/
  | asking (addr : PoolAddressRow) (rest : List PoolAddressRow)
  | reversing (addr : PoolAddressRow) (gone : List ChainDeposit) (rest : List PoolAddressRow)
  /-- About to enqueue the event of a deposit that was reversed. -/
  | retracting (addr : PoolAddressRow) (deposit : ChainDeposit) (gone : List ChainDeposit)
    (rest : List PoolAddressRow)

/-- A queued webhook with the reference of the deposit that it is about. -/
structure Announcement where
  ref : String
  event : WebhookEvent
  deriving DecidableEq, Repr

/-- The tables and the poll in progress, with the references of the deposits that polls have
counted.
-/
structure Watching where
  store : IngestStore
  outbox : List Announcement
  credited : List String
  reversed : List String
  chain : String
  phase : WatchPhase

inductive WatchEvent
  /-- `pollOnce(chain)`, up to the active addresses. -/
  | poll (chain : String)
  /-- `this.source.fetchInbound(chain, addr.address)` for the next address, or the end of the
  poll.
  -/
  | fetch (deposits : List ChainDeposit)
  /-- `this.ingestor.ingestConfirmed(deposit)` for the next deposit, or the end of the loop. -/
  | ingest (now : Int)
  /-- `this.outbox.enqueue(addr.tenant, …)`. -/
  | enqueue
  /-- `this.source.reorged(chain, addr.address)`, none of a source without it. -/
  | reorged (answer : Option (List ChainDeposit))
  /-- `this.ingestor.reverseCredit(gone)` for the next deposit, or the end of the loop. -/
  | reverse
  /-- An await rejects, or the process ends. -/
  | interrupt
  /-- What other flows do to the pool. -/
  | pool (rows : List PoolAddressRow)
  /-- What other flows post. -/
  | post (entry : JournalEntry)

/-- The name of the event that follows an ingestion. -/
def IngestStatus.announcedAs : IngestStatus → Option String
  | .credited => some "deposit.confirmed"
  | .quarantined => some "compliance.hold"
  | .duplicate => none
  | .unmatched => none

/-- Nothing is posted for a deposit whose reference is unknown. -/
theorem DepositIngestor.reverseCredit_notFound {ledger after : SqlLedger} {deposit : ChainDeposit}
    (done : DepositIngestor.reverseCredit ledger deposit = .ok (after, .notFound))
    : after = ledger := by
  simp only [DepositIngestor.reverseCredit] at done
  split at done
  · cases done
  · split at done <;> cases done
    rfl

namespace Watching

def initial (store : IngestStore) : Watching :=
  { store, outbox := [], credited := [], reversed := [], chain := "", phase := .idle }

/-- The row that `enqueue` inserts. -/
def announcement (chain : String) (addr : PoolAddressRow) (event : String) (deposit : ChainDeposit)
    : Announcement where
  ref := deposit.ref
  event :=
    { tenant := addr.tenant.text, event, account := addr.merchant.text, chain
      address := addr.address, txId := deposit.txId, asset := deposit.asset
      amount := toString deposit.amountBaseUnits }

/-- One await, none where the poll is not at it. An entry of another flow is neither a credit nor
a reversal.
-/
def step (config : IngestorConfig) (state : Watching) : WatchEvent → Option Watching
  | .poll chain =>
      match state.phase with
      | .idle =>
          some
            { state with
                chain, phase := .between (PoolManager.activeAddresses state.store.pool chain) }
      | _ => none
  | .fetch deposits =>
      match state.phase with
      | .between [] => some { state with phase := .idle }
      | .between (addr :: rest) => some { state with phase := .ingesting addr deposits rest }
      | _ => none
  | .ingest now =>
      match state.phase with
      | .ingesting addr [] rest => some { state with phase := .asking addr rest }
      | .ingesting addr (deposit :: deposits) rest =>
          match DepositIngestor.ingestConfirmed config now state.store deposit with
          | .error _ => some { state with phase := .idle }
          | .ok (store, res) =>
              match res.status.announcedAs with
              | none => some { state with store, phase := .ingesting addr deposits rest }
              | some event =>
                  some
                    { state with
                        store
                        credited :=
                          if res.status = .credited then deposit.ref :: state.credited
                          else state.credited
                        phase := .announcing addr event deposit deposits rest }
      | _ => none
  | .enqueue =>
      match state.phase with
      | .announcing addr event deposit deposits rest =>
          some
            { state with
                outbox := state.outbox ++ [announcement state.chain addr event deposit]
                phase := .ingesting addr deposits rest }
      | .retracting addr deposit gone rest =>
          some
            { state with
                outbox := state.outbox ++ [announcement state.chain addr "deposit.reorged" deposit]
                phase := .reversing addr gone rest }
      | _ => none
  | .reorged answer =>
      match state.phase, answer with
      | .asking _ rest, none => some { state with phase := .between rest }
      | .asking addr rest, some gone => some { state with phase := .reversing addr gone rest }
      | _, _ => none
  | .reverse =>
      match state.phase with
      | .reversing _ [] rest => some { state with phase := .between rest }
      | .reversing addr (deposit :: gone) rest =>
          match DepositIngestor.reverseCredit state.store.ledger deposit with
          | .error _ => some { state with phase := .idle }
          | .ok (_, .notFound) => some { state with phase := .reversing addr gone rest }
          | .ok (ledger, .reversed) =>
              some
                { state with
                    store.ledger := ledger
                    reversed := deposit.ref :: state.reversed
                    phase := .retracting addr deposit gone rest }
      | _ => none
  | .interrupt => some { state with phase := .idle }
  | .pool rows => some { state with store.pool := rows }
  | .post entry =>
      if entry.kind = "deposit.finalized" ∨ entry.kind = "reverse" then none
      else
        match LedgerService.post state.store.ledger entry with
        | .error _ => none
        | .ok (ledger, _) => some { state with store.ledger := ledger }

-----------------------------------------------------------------------------
-- Counting

/-- How often a credit of a reference is in the ledger. -/
def credits (ledger : SqlLedger) (ref : String) : Nat :=
  ledger.journal.countP fun entry => entry.kind = "deposit.finalized" ∧ entry.id = ref

/-- How often a reversal of a reference is in the ledger. -/
def reversals (ledger : SqlLedger) (ref : String) : Nat :=
  ledger.journal.countP fun entry => entry.kind = "reverse" ∧ entry.id = "reverse:" ++ ref

/-- How often an event about a reference has been enqueued. -/
def enqueued (state : Watching) (event ref : String) : Nat :=
  state.outbox.countP fun row => row.event.event = event ∧ row.ref = ref

/-- The event that is about to be enqueued, with its reference. -/
def pending (state : Watching) : Option (String × String) :=
  match state.phase with
  | .announcing _ event deposit _ _ => some (event, deposit.ref)
  | .retracting _ deposit _ _ => some ("deposit.reorged", deposit.ref)
  | _ => none

/-- The events about a reference that have been enqueued or are about to be. -/
def announced (state : Watching) (event ref : String) : Nat :=
  state.enqueued event ref + if state.pending = some (event, ref) then 1 else 0

/-- The credits and the reversals applied since a ledger each have their event, as far as it is
not about to be enqueued, and each reversal is counted once.
-/
structure Announces (before : SqlLedger) (state : Watching) : Prop where
  confirmed
    : ∀ ref, credits state.store.ledger ref
        = credits before ref + state.announced "deposit.confirmed" ref
  reorged
    : ∀ ref, reversals state.store.ledger ref
        = reversals before ref + state.announced "deposit.reorged" ref
  counted : ∀ ref, state.reversed.count ref = state.announced "deposit.reorged" ref

-----------------------------------------------------------------------------
-- A poll in one piece

/-- What a poll in one piece has done so far is what the awaits have done. -/
structure Shows (chain : String) (poll : PollState) (state : Watching) : Prop where
  store : state.store = poll.store
  outbox : state.outbox.map Announcement.event = poll.outbox
  chain : state.chain = chain

/-- A run comes to a phase with what a poll in one piece comes to. -/
def Follows (config : IngestorConfig) (state : Watching) (chain : String) (poll : PollState)
    (phase : WatchPhase)
    : Prop :=
  ∃ later,
    Reaches (step config) (fun _ _ => True) state later
    ∧ Shows chain poll later ∧ later.phase = phase

variable {config : IngestorConfig} {chain : String}

/-- A loop of a poll leaves what it leaves in one piece, and comes to a phase unless it throws. -/
def FollowsLoop (config : IngestorConfig) (state : Watching) (chain : String)
    (loop : PollState × Option AppError) (phase : WatchPhase)
    : Prop :=
  Follows config state chain loop.1 (if loop.2.isSome then .idle else phase)

theorem Follows.after {state next : Watching} {event : WatchEvent} {poll : PollState}
    {phase : WatchPhase} (taken : step config state event = some next)
    (follows : Follows config next chain poll phase)
    : Follows config state chain poll phase := by
  obtain ⟨later, reached, shown, atPhase⟩ := follows
  exact ⟨later, (Reaches.refl.tail trivial taken).trans reached, shown, atPhase⟩

theorem Follows.last {state next : Watching} {event : WatchEvent} {poll : PollState}
    (taken : step config state event = some next) (shown : Shows chain poll next)
    : Follows config state chain poll next.phase :=
  ⟨next, Reaches.refl.tail trivial taken, shown, rfl⟩

/-- Where one part of a poll ends, the next one goes on. -/
theorem Follows.bind {state : Watching} {poll after : PollState} {phase last : WatchPhase}
    (first : Follows config state chain poll phase)
    (second
      : ∀ later, Shows chain poll later → later.phase = phase
        → Follows config later chain after last)
    : Follows config state chain after last := by
  obtain ⟨later, reached, shown, atPhase⟩ := first
  obtain ⟨final, further, ends⟩ := second later shown atPhase
  exact ⟨final, reached.trans further, ends⟩

/-- The enqueue of an event is the row that a poll in one piece adds. -/
theorem Shows.enqueue {poll : PollState} {state : Watching} (shown : Shows chain poll state)
    (addr : PoolAddressRow) (event : String) (deposit : ChainDeposit) (phase : WatchPhase)
    : Shows chain (poll.enqueue chain addr event deposit)
        { state with
            outbox := state.outbox ++ [announcement state.chain addr event deposit], phase } := by
  obtain ⟨store, outbox, rfl⟩ := shown
  refine ⟨store, ?_, rfl⟩
  rw [List.map_append, outbox]
  rfl

theorem Shows.noted {poll : PollState} {state : Watching} (shown : Shows chain poll state)
    (addr : PoolAddressRow) (deposit : ChainDeposit) {status : IngestStatus} {event : String}
    (announces : status.announcedAs = some event) (phase : WatchPhase)
    : Shows chain (poll.noted chain addr deposit status)
        { state with
            outbox := state.outbox ++ [announcement state.chain addr event deposit], phase } := by
  cases status with
  | credited =>
      cases announces
      have counted : Shows chain { poll with credited := poll.credited + 1 } state :=
        ⟨shown.store, shown.outbox, shown.chain⟩
      exact counted.enqueue addr "deposit.confirmed" deposit phase
  | quarantined =>
      cases announces
      exact shown.enqueue addr "compliance.hold" deposit phase
  | duplicate => cases announces
  | unmatched => cases announces

/-- The loop over the deposits, await by await; by induction on the list. -/
theorem follows_ingestDeposits (config : IngestorConfig) (now : Int) (addr : PoolAddressRow)
    (rest : List PoolAddressRow) (deposits : List ChainDeposit) {poll : PollState}
    {state : Watching}
    (shown : Shows chain poll state) (atPhase : state.phase = .ingesting addr deposits rest)
    : FollowsLoop config state chain
        (DepositWatcher.ingestDeposits config now chain addr poll deposits)
        (.asking addr rest) := by
  induction deposits generalizing poll state with
  | nil =>
      have taken : step config state (.ingest now)
          = some { state with phase := .asking addr rest } := by
        simp only [step, atPhase]
      exact .last taken ⟨shown.store, shown.outbox, shown.chain⟩
  | cons deposit deposits ih =>
      rw [DepositWatcher.ingestDeposits]
      cases done : DepositIngestor.ingestConfirmed config now poll.store deposit with
      | error err =>
          have taken : step config state (.ingest now) = some { state with phase := .idle } := by
            simp only [step, atPhase, shown.store, done]
          exact .last taken ⟨shown.store, shown.outbox, shown.chain⟩
      | ok result =>
          obtain ⟨store, res⟩ := result
          cases announces : res.status.announcedAs with
          | none =>
              have taken : step config state (.ingest now)
                  = some { state with store, phase := .ingesting addr deposits rest } := by
                simp only [step, atPhase, shown.store, done, announces]
              have silent : ({ poll with store } : PollState).noted chain addr deposit res.status
                  = { poll with store } := by
                cases status : res.status <;> simp_all [IngestStatus.announcedAs, PollState.noted]
              simp only [silent]
              exact .after taken (ih ⟨rfl, shown.outbox, shown.chain⟩ rfl)
          | some event =>
              let awaiting : Watching :=
                { state with
                    store
                    credited :=
                      if res.status = .credited then deposit.ref :: state.credited
                      else state.credited
                    phase := .announcing addr event deposit deposits rest }
              have taken : step config state (.ingest now) = some awaiting := by
                simp only [step, atPhase, shown.store, done, announces]
                rfl
              have begun : Shows chain { poll with store } awaiting :=
                ⟨rfl, shown.outbox, shown.chain⟩
              have enqueues : step config awaiting .enqueue = some _ := rfl
              exact .after taken
                (.after enqueues
                  (ih (begun.noted addr deposit announces (.ingesting addr deposits rest)) rfl))

/-- The loop over what is gone; by induction on the list. -/
theorem follows_reverseDeposits (config : IngestorConfig) (addr : PoolAddressRow)
    (rest : List PoolAddressRow) (gone : List ChainDeposit) {poll : PollState} {state : Watching}
    (shown : Shows chain poll state) (atPhase : state.phase = .reversing addr gone rest)
    : FollowsLoop config state chain (DepositWatcher.reverseDeposits chain addr poll gone)
        (.between rest) := by
  induction gone generalizing poll state with
  | nil =>
      have taken : step config state .reverse = some { state with phase := .between rest } := by
        simp only [step, atPhase]
      exact .last taken ⟨shown.store, shown.outbox, shown.chain⟩
  | cons deposit gone ih =>
      rw [DepositWatcher.reverseDeposits]
      cases done : DepositIngestor.reverseCredit poll.store.ledger deposit with
      | error err =>
          have taken : step config state .reverse = some { state with phase := .idle } := by
            simp only [step, atPhase, shown.store, done]
          exact .last taken ⟨shown.store, shown.outbox, shown.chain⟩
      | ok result =>
          obtain ⟨ledger, status⟩ := result
          cases status with
          | notFound =>
              have taken : step config state .reverse
                  = some { state with phase := .reversing addr gone rest } := by
                simp only [step, atPhase, shown.store, done]
              have same : ledger = poll.store.ledger := DepositIngestor.reverseCredit_notFound done
              exact .after taken
                (ih ⟨by rw [same]; exact shown.store, shown.outbox, shown.chain⟩ rfl)
          | reversed =>
              let awaiting : Watching :=
                { state with
                    store := { poll.store with ledger }
                    reversed := deposit.ref :: state.reversed
                    phase := .retracting addr deposit gone rest }
              have taken : step config state .reverse = some awaiting := by
                simp only [step, atPhase, shown.store, done]
                rfl
              have begun : Shows chain
                  { poll with store.ledger := ledger, reversed := poll.reversed + 1 } awaiting :=
                ⟨rfl, shown.outbox, shown.chain⟩
              have enqueues : step config awaiting .enqueue = some _ := rfl
              exact .after taken
                (.after enqueues
                  (ih (begun.enqueue addr "deposit.reorged" deposit (.reversing addr gone rest))
                    rfl))

/-- A poll that throws ends where it is. -/
theorem Follows.breaks {poll : PollState} {state : Watching} (shown : Shows chain poll state)
    : Follows config state chain poll .idle := by
  have taken : step config state .interrupt = some { state with phase := .idle } := rfl
  exact .last taken ⟨shown.store, shown.outbox, shown.chain⟩

/-- One round of the loop over the addresses. -/
theorem follows_pollAddress (config : IngestorConfig) (now : Int) (source : DepositSource)
    (addr : PoolAddressRow) (rest : List PoolAddressRow) {poll : PollState} {state : Watching}
    (shown : Shows chain poll state) (atPhase : state.phase = .between (addr :: rest))
    : FollowsLoop config state chain (DepositWatcher.pollAddress config now chain source addr poll)
        (.between rest) := by
  unfold DepositWatcher.pollAddress
  cases source.fetchInbound chain addr.address with
  | error err => exact .breaks shown
  | ok deposits =>
      have fetches : step config state (.fetch deposits)
          = some { state with phase := .ingesting addr deposits rest } := by
        simp only [step, atPhase]
      have fetched : Shows chain poll { state with phase := .ingesting addr deposits rest } :=
        ⟨shown.store, shown.outbox, shown.chain⟩
      have ingests := follows_ingestDeposits config now addr rest deposits fetched rfl
      simp only
      cases ingested : DepositWatcher.ingestDeposits config now chain addr poll deposits with
      | mk after failure =>
      rw [ingested] at ingests
      cases failure with
      | some err => exact .after fetches ingests
      | none =>
          refine Follows.after fetches (ingests.bind fun later shown asking => ?_)
          change FollowsLoop config later chain _ (.between rest)
          cases source.reorged with
          | none =>
              have answers : step config later (.reorged none)
                  = some { later with phase := .between rest } := by
                simp only [step, asking]
                rfl
              exact .last answers ⟨shown.store, shown.outbox, shown.chain⟩
          | some reorged =>
              simp only
              cases reorged chain addr.address with
              | error err => exact .breaks shown
              | ok gone =>
                  have answers : step config later (.reorged (some gone))
                      = some { later with phase := .reversing addr gone rest } := by
                    simp only [step, asking]
                    rfl
                  exact .after answers
                    (follows_reverseDeposits config addr rest gone
                      ⟨shown.store, shown.outbox, shown.chain⟩ rfl)

/-- The loop over the addresses; by induction on the list. -/
theorem follows_pollAddresses (config : IngestorConfig) (now : Int) (source : DepositSource)
    (watched : List PoolAddressRow) {poll : PollState} {state : Watching}
    (shown : Shows chain poll state) (atPhase : state.phase = .between watched)
    : Follows config state chain
        (DepositWatcher.pollAddresses config now chain source poll watched).1 .idle := by
  induction watched generalizing poll state with
  | nil =>
      have taken : step config state (.fetch []) = some { state with phase := .idle } := by
        simp only [step, atPhase]
      exact .last taken ⟨shown.store, shown.outbox, shown.chain⟩
  | cons addr rest ih =>
      have first := follows_pollAddress config now source addr rest shown atPhase
      rw [DepositWatcher.pollAddresses]
      cases polled : DepositWatcher.pollAddress config now chain source addr poll with
      | mk after failure =>
      rw [polled] at first
      cases failure with
      | some err => exact first
      | none => exact first.bind fun later shown between => ih shown between

theorem started_shows (state : Watching) (chain : String)
    : Shows chain
        { store := state.store, outbox := state.outbox.map Announcement.event, credited := 0
          reversed := 0 }
        { state with
            chain, phase := .between (PoolManager.activeAddresses state.store.pool chain) } :=
  ⟨rfl, rfl, rfl⟩

/-- The awaits of a poll that nothing interrupts come to the tables that the poll comes to in one
piece, whether it ends with a result or an error.
-/
theorem follows_pollOnce (config : IngestorConfig) (now : Int) (chain : String)
    (source : DepositSource) {state : Watching} (idle : state.phase = .idle)
    : Follows config state chain
        (DepositWatcher.pollOnce config now chain source state.store
          (state.outbox.map Announcement.event)).1
        .idle := by
  have taken : step config state (.poll chain)
      = some
          { state with
              chain, phase := .between (PoolManager.activeAddresses state.store.pool chain) } := by
    simp only [step, idle]
  have polls :=
    follows_pollAddresses config now source (PoolManager.activeAddresses state.store.pool chain)
      (started_shows state chain) rfl
  have same : (DepositWatcher.pollOnce config now chain source state.store
        (state.outbox.map Announcement.event)).1
      = (DepositWatcher.pollAddresses config now chain source
          { store := state.store, outbox := state.outbox.map Announcement.event, credited := 0
            reversed := 0 }
          (PoolManager.activeAddresses state.store.pool chain)).1 := by
    unfold DepositWatcher.pollOnce
    simp only
    split <;> simp_all
  exact same ▸ .after taken polls

end Watching

end Cixtech.Ingest
