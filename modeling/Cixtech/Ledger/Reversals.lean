import Cixtech.Ledger.Conservation

/-! Reversing an entry by its id, over histories of calls on the store in memory. The store
answers the postings of an id from a map of its own, so that a reversal does not depend on
what was applied since; it flips each posting, as `reverse` does with the entry itself.
-/

namespace Cixtech.Ledger

open Cixtech.Common Cixtech.Foundation

/-- `reverse` of the posting flows, which flips the postings of an entry that is at hand. -/
def reverse (entry : JournalEntry) (newId newKey : String) : Except AppError JournalEntry :=
  checked
    { id := newId, idempotencyKey := newKey, kind := s!"reverse:{entry.kind}"
      postings := entry.postings.map Posting.flipped }

/-- The entry that a call offers to the store, if it gets there. -/
def LedgerCall.offered (ledger : MemoryLedger) : LedgerCall → Option JournalEntry
  | .post entry => some entry
  | .lockPayout input => (payoutLocked input).toOption
  | .reverseByRef originalId newId newKey =>
      some (LedgerStore.reversal newId newKey (ledger.entryPostings originalId))

/-- A ledger with the entries that were applied to it, in order. No code reads this record. -/
structure LedgerHistory where
  ledger : MemoryLedger
  applied : List JournalEntry
  deriving DecidableEq

namespace LedgerHistory

def empty : LedgerHistory := { ledger := .empty, applied := [] }

/-- One call of the service, whatever it answers. -/
def step (history : LedgerHistory) (call : LedgerCall) : Option LedgerHistory :=
  let outcome := call.run memoryStore history.ledger
  let applied := if outcome.1 = .ok true then (call.offered history.ledger).toList else []
  some { ledger := outcome.2, applied := history.applied ++ applied }

/-- The store has seen the keys of the applied entries and keeps the postings of each under
its id, a later one in front of an earlier one; every applied entry balances.
-/
structure Recorded (history : LedgerHistory) : Prop where
  seen : ∀ key,
    key ∈ history.ledger.seenKeys ↔ key ∈ history.applied.map JournalEntry.idempotencyKey
  byEntry : history.ledger.byEntry
    = (history.applied.map fun entry => (entry.id, entry.postings)).reverse
  balanced : ∀ entry ∈ history.applied, Balanced entry.postings

theorem recorded_empty : Recorded empty :=
  ⟨by simp [empty, MemoryLedger.empty], rfl, by simp [empty]⟩

/-- What a call posts is what it offers. -/
theorem offered_of_posts {ledger : MemoryLedger} {call : LedgerCall} {entry : JournalEntry}
    (posts : LedgerCall.Posts memoryStore ledger call entry)
    : call.offered ledger = some entry := by
  cases posts with
  | post entry => rfl
  | lockPayout built => simp [LedgerCall.offered, built, Except.toOption]
  | reverseByRef originalId newId newKey known => rfl

/-- An append of the store in memory, by whether it has seen the key. -/
theorem append_cases (ledger : MemoryLedger) (entry : JournalEntry)
    : (entry.idempotencyKey ∈ ledger.seenKeys
        ∧ memoryStore.append ledger entry = (.ok false, ledger))
      ∨ (entry.idempotencyKey ∉ ledger.seenKeys
          ∧ memoryStore.append ledger entry
            = (.ok true,
                { seenKeys := entry.idempotencyKey :: ledger.seenKeys
                  postings := ledger.postings ++ entry.postings
                  byEntry := (entry.id, entry.postings) :: ledger.byEntry })) := by
  by_cases held : entry.idempotencyKey ∈ ledger.seenKeys
  · exact .inl ⟨held, if_pos (List.contains_iff_mem.mpr held)⟩
  · exact .inr ⟨held, if_neg (mt List.contains_iff_mem.mp held)⟩

/-- One call keeps the record. -/
theorem Recorded.step {history next : LedgerHistory} {call : LedgerCall}
    (recorded : Recorded history) (taken : history.step call = some next)
    : Recorded next := by
  obtain rfl := Option.some.inj taken
  rcases call.run_cases memoryStore history.ledger with
    ⟨err, failed⟩ | ⟨entry, posts, balanced, same⟩
  · simpa [failed] using recorded
  · rcases append_cases history.ledger entry with ⟨-, ignored⟩ | ⟨-, stored⟩
    · simpa [same, ignored] using recorded
    · simp only [same, stored, offered_of_posts posts, if_true, Option.toList_some]
      refine ⟨?_, ?_, ?_⟩
      · intro key
        simp [recorded.seen, or_comm]
      · simp [recorded.byEntry]
      · intro other member
        rcases List.mem_append.mp member with before | last
        · exact recorded.balanced other before
        · exact List.mem_singleton.mp last ▸ balanced

theorem recorded_of_reached {history : LedgerHistory}
    (reached : Reaches step (fun _ _ => True) empty history)
    : Recorded history :=
  reached.invariant recorded_empty fun recorded _ taken => recorded.step taken

-----------------------------------------------------------------------------
-- What the store answers under an id

/-- With distinct ids, the store answers the postings of an applied entry under its id. -/
theorem Recorded.entryPostings {history : LedgerHistory} (recorded : Recorded history)
    (distinct : (history.applied.map JournalEntry.id).Nodup) {entry : JournalEntry}
    (member : entry ∈ history.applied)
    : history.ledger.entryPostings entry.id = entry.postings := by
  have keys : (history.ledger.byEntry.map Prod.fst).Nodup := by
    rw [recorded.byEntry, List.map_reverse, List.map_map, List.nodup_reverse]
    exact distinct
  have stored : (entry.id, entry.postings) ∈ history.ledger.byEntry := by
    rw [recorded.byEntry, List.mem_reverse]
    exact List.mem_map.mpr ⟨entry, member, rfl⟩
  simp [MemoryLedger.entryPostings, Table.lookup_of_mem keys stored]

/-- The store answers the postings of an applied entry under its id, or none where there is no
such entry.
-/
theorem Recorded.entryPostings_cases {history : LedgerHistory} (recorded : Recorded history)
    (id : String)
    : (id ∉ history.applied.map JournalEntry.id ∧ history.ledger.entryPostings id = [])
      ∨ ∃ entry ∈ history.applied,
          entry.id = id ∧ history.ledger.entryPostings id = entry.postings := by
  cases found : Table.lookup Prod.fst history.ledger.byEntry id with
  | none =>
      refine .inl ⟨?_, by simp [MemoryLedger.entryPostings, found]⟩
      intro member
      obtain ⟨entry, inApplied, rfl⟩ := List.mem_map.mp member
      have stored : (entry.id, entry.postings) ∈ history.ledger.byEntry := by
        rw [recorded.byEntry, List.mem_reverse]
        exact List.mem_map.mpr ⟨entry, inApplied, rfl⟩
      simp only [Table.lookup, List.find?_eq_none, decide_eq_true_eq] at found
      exact found _ stored rfl
  | some row =>
      have inTable := Table.lookup_mem found
      rw [recorded.byEntry, List.mem_reverse] at inTable
      obtain ⟨entry, inApplied, rfl⟩ := List.mem_map.mp inTable
      have own : (entry.id, entry.postings).1 = id := Table.lookup_key found
      exact .inr ⟨entry, inApplied, own, by simp [MemoryLedger.entryPostings, found]⟩

/-- A reversal under the id of an applied entry is posted as the store appends it. -/
theorem Recorded.reverseByRef_cases {history : LedgerHistory} (recorded : Recorded history)
    (id newId newKey : String)
    : (id ∉ history.applied.map JournalEntry.id
        ∧ memoryStore.reverseByRef history.ledger id newId newKey
          = (.error (LedgerService.unknownEntry id), history.ledger))
      ∨ ∃ entry ∈ history.applied,
          entry.id = id
          ∧ history.ledger.entryPostings id = entry.postings
          ∧ memoryStore.reverseByRef history.ledger id newId newKey
            = memoryStore.append history.ledger
                (LedgerStore.reversal newId newKey entry.postings) := by
  have read : memoryStore.entryPostings history.ledger id = history.ledger.entryPostings id := rfl
  rcases recorded.entryPostings_cases id with ⟨absent, none⟩ | ⟨entry, member, own, found⟩
  · exact .inl ⟨absent, by simp [LedgerStore.reverseByRef, read, none]⟩
  · have balanced := recorded.balanced entry member
    have some : entry.postings.isEmpty = false := by simpa using balanced.nonempty
    have flips : assertBalanced (LedgerStore.reversal newId newKey entry.postings) = .ok () :=
      assertBalanced_of_balanced balanced.flipped
    exact .inr ⟨entry, member, own, found, by
      simp [LedgerStore.reverseByRef, LedgerStore.post, read, found, some, flips]⟩

/-- Reversing an applied entry appends its flipped postings. -/
theorem Recorded.reverseByRef_eq {history : LedgerHistory} (recorded : Recorded history)
    (distinct : (history.applied.map JournalEntry.id).Nodup) {entry : JournalEntry}
    (member : entry ∈ history.applied) (newId newKey : String)
    : memoryStore.reverseByRef history.ledger entry.id newId newKey
      = memoryStore.append history.ledger
          (LedgerStore.reversal newId newKey entry.postings) := by
  rcases recorded.reverseByRef_cases entry.id newId newKey with
    ⟨absent, -⟩ | ⟨other, otherMember, own, -, appends⟩
  · exact absurd (List.mem_map_of_mem member) absent
  · have same : other = entry := List.inj_on_of_nodup_map distinct otherMember member own
    rw [appends, same]

/-- What a reversal answers under any id: `UnknownEntry`, or whether its key was new. -/
theorem Recorded.reverseByRef_unknown_iff {history : LedgerHistory} (recorded : Recorded history)
    (id newId newKey : String)
    : memoryStore.reverseByRef history.ledger id newId newKey
        = (.error (LedgerService.unknownEntry id), history.ledger)
      ↔ id ∉ history.applied.map JournalEntry.id := by
  rcases recorded.reverseByRef_cases id newId newKey with
    ⟨absent, thrown⟩ | ⟨entry, member, rfl, -, appends⟩
  · exact iff_of_true thrown absent
  · refine iff_of_false ?_ (fun absent => absent (List.mem_map_of_mem member))
    rw [appends]
    rcases append_cases history.ledger (LedgerStore.reversal newId newKey entry.postings) with
      ⟨-, ignored⟩ | ⟨-, stored⟩
    · simp [ignored]
    · simp [stored]

/-- A reversal under a key that the store has seen does nothing. -/
theorem Recorded.reverseByRef_again {history : LedgerHistory} (recorded : Recorded history)
    {id newId newKey : String} (applied : id ∈ history.applied.map JournalEntry.id)
    (seen : newKey ∈ history.applied.map JournalEntry.idempotencyKey)
    : memoryStore.reverseByRef history.ledger id newId newKey = (.ok false, history.ledger) := by
  rcases recorded.reverseByRef_cases id newId newKey with
    ⟨absent, -⟩ | ⟨entry, member, rfl, -, appends⟩
  · exact absurd applied absent
  · rw [appends]
    exact if_pos (List.contains_iff_mem.mpr ((recorded.seen newKey).mpr seen))

-----------------------------------------------------------------------------
-- The balances after a reversal

/-- The state that a reversal under a fresh key leaves. -/
def reversed (history : LedgerHistory) (entry : JournalEntry) (newId newKey : String)
    : LedgerHistory :=
  { ledger :=
      { seenKeys := newKey :: history.ledger.seenKeys
        postings := history.ledger.postings ++ entry.postings.map Posting.flipped
        byEntry := (newId, entry.postings.map Posting.flipped) :: history.ledger.byEntry }
    applied := history.applied ++ [LedgerStore.reversal newId newKey entry.postings] }

/-- A reversal takes back what the entry contributed to each balance. -/
theorem balance_reversed (history : LedgerHistory) (entry : JournalEntry)
    (newId newKey account asset : String)
    : (history.reversed entry newId newKey).ledger.balance account asset
      = history.ledger.balance account asset - SqlLedger.netOn account asset entry.postings := by
  rw [MemoryLedger.balance_eq_net, MemoryLedger.balance_eq_net, reversed, SqlLedger.netOn_append,
    SqlLedger.netOn_flipped]
  omega

/-- A store that has not seen the key appends any entry with the flipped postings alike. -/
theorem Recorded.append_flipped {history : LedgerHistory} (recorded : Recorded history)
    {entry flips : JournalEntry} {newId newKey : String}
    (fresh : newKey ∉ history.applied.map JournalEntry.idempotencyKey)
    (id : flips.id = newId) (key : flips.idempotencyKey = newKey)
    (postings : flips.postings = entry.postings.map Posting.flipped)
    : memoryStore.append history.ledger flips
      = (.ok true, (history.reversed entry newId newKey).ledger) := by
  subst id key
  rcases append_cases history.ledger flips with ⟨held, -⟩ | ⟨-, stored⟩
  · exact absurd ((recorded.seen _).mp held) fresh
  · rw [stored, postings]
    rfl

/-- Reversing an applied entry under a fresh id and key, at any point of a history with
distinct ids, succeeds, moves every balance by exactly minus what the entry contributed to
it, and leaves what posting its `reverse` leaves; in every history a reversal whose key was
applied before changes nothing, and it throws `UnknownEntry` and leaves the store exactly
where no entry with the id was applied.
-/
theorem reversals_exact {history : LedgerHistory}
    (reached : Reaches step (fun _ _ => True) empty history)
    (distinct : (history.applied.map JournalEntry.id).Nodup)
    : (∀ entry ∈ history.applied, ∀ newId newKey : String,
        newId ∉ history.applied.map JournalEntry.id
        → newKey ∉ history.applied.map JournalEntry.idempotencyKey
        → ∃ later : LedgerHistory,
            memoryStore.reverseByRef history.ledger entry.id newId newKey
              = (.ok true, later.ledger)
            ∧ history.step (.reverseByRef entry.id newId newKey) = some later
            ∧ (later.applied.map JournalEntry.id).Nodup
            ∧ (∀ account asset,
                later.ledger.balance account asset
                = history.ledger.balance account asset
                  - SqlLedger.netOn account asset entry.postings)
            ∧ (∃ flips,
                reverse entry newId newKey = .ok flips
                ∧ memoryStore.post history.ledger flips = (.ok true, later.ledger))
            ∧ ∀ otherId,
                memoryStore.reverseByRef later.ledger entry.id otherId newKey
                = (.ok false, later.ledger))
      ∧ (∀ id newId newKey : String,
          id ∈ history.applied.map JournalEntry.id
          → newKey ∈ history.applied.map JournalEntry.idempotencyKey
          → memoryStore.reverseByRef history.ledger id newId newKey
            = (.ok false, history.ledger))
      ∧ ∀ id newId newKey : String,
          memoryStore.reverseByRef history.ledger id newId newKey
            = (.error (LedgerService.unknownEntry id), history.ledger)
          ↔ id ∉ history.applied.map JournalEntry.id := by
  have recorded := recorded_of_reached reached
  refine ⟨?_, fun id newId newKey => recorded.reverseByRef_again,
    fun id newId newKey => recorded.reverseByRef_unknown_iff id newId newKey⟩
  intro entry member newId newKey freshId freshKey
  have balanced := recorded.balanced entry member
  have answered : memoryStore.reverseByRef history.ledger entry.id newId newKey
      = (.ok true, (history.reversed entry newId newKey).ledger) := by
    rw [recorded.reverseByRef_eq distinct member]
    exact recorded.append_flipped freshKey rfl rfl rfl
  have taken : history.step (.reverseByRef entry.id newId newKey)
      = some (history.reversed entry newId newKey) := by
    have read := recorded.entryPostings distinct member
    simp [step, LedgerCall.run, answered, LedgerCall.offered, read, reversed]
  have laterRecorded := recorded.step taken
  refine ⟨history.reversed entry newId newKey, answered, taken, ?_,
    balance_reversed history entry newId newKey, ?_, ?_⟩
  · rw [reversed, List.map_append]
    exact distinct.append (by simp) (by simpa [LedgerStore.reversal] using freshId)
  · refine ⟨_, checked_of_balanced balanced.flipped, ?_⟩
    have passes : ∀ kind, assertBalanced
        { id := newId, idempotencyKey := newKey, kind
          postings := entry.postings.map Posting.flipped } = .ok () :=
      fun kind => assertBalanced_of_balanced balanced.flipped
    rw [LedgerStore.post, passes]
    exact recorded.append_flipped freshKey rfl rfl rfl
  · intro otherId
    refine laterRecorded.reverseByRef_again ?_ ?_
    · exact List.mem_map_of_mem (List.mem_append_left _ member)
    · simp [reversed, LedgerStore.reversal]

/-- A deposit, a lock of a part of it and the reversal of the deposit under both. -/
theorem reversals_exact_locked
    : ∃ history later : LedgerHistory,
        history.applied.length = 2
        ∧ memoryStore.reverseByRef history.ledger "d" "r" "r" = (.ok true, later.ledger)
        ∧ later.ledger.balance "merchant_available:t:m" "USDT" = -40 + 100
        ∧ memoryStore.reverseByRef later.ledger "d" "s" "r" = (.ok false, later.ledger) := by
  let deposit : JournalEntry :=
    { id := "d", idempotencyKey := "d", kind := "deposit"
      postings :=
        [ ⟨"pool_addr:c:m", "USDT", 100, .debit⟩,
          ⟨"merchant_available:t:m", "USDT", 100, .credit⟩ ] }
  let lock : PayoutLockedInput :=
    { id := "b", idempotencyKey := "b", asset := "USDT", amount := 60
      merchantAvailable := "merchant_available:t:m"
      merchantPendingWithdrawal := "merchant_pending_withdrawal:t:m" }
  have executed : ∃ history,
      Reaches step (fun _ _ => True) empty history
      ∧ history.applied.map JournalEntry.id = ["d", "b"]
        ∧ history.applied.map JournalEntry.idempotencyKey = ["d", "b"]
        ∧ deposit ∈ history.applied
        ∧ history.ledger.balance "merchant_available:t:m" "USDT" = -40 :=
    Reaches.exists_of_exec [.post deposit, .lockPayout lock] (by decide +kernel)
  obtain ⟨history, reached, ids, keys, member, before⟩ := executed
  have distinct : (history.applied.map JournalEntry.id).Nodup := by
    rw [ids]
    decide
  obtain ⟨later, answered, -, -, balances, -, again⟩ :=
    (reversals_exact reached distinct).1 deposit member "r" "r" (by rw [ids]; decide)
      (by rw [keys]; decide)
  have two : history.applied.length = 2 := by
    have lengths := congrArg List.length ids
    simpa using lengths
  have taken : SqlLedger.netOn "merchant_available:t:m" "USDT" deposit.postings = -100 := by
    decide +kernel
  refine ⟨history, later, two, answered, ?_, again "s"⟩
  rw [balances, before, taken]
  rfl

end LedgerHistory

end Cixtech.Ledger
