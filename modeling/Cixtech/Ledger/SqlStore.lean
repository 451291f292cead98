import Cixtech.Ledger.Accounts
import Cixtech.Foundation.Delimiters
import Cixtech.Foundation.Table
import Cixtech.Ledger.PostingFlows

/-! The relational ledger store. `journal_entry` and `posting` are one list of entries in
insertion order, and `balance` holds a materialised total for each account and asset.
-/

namespace Cixtech.Ledger

open Cixtech.Common Cixtech.Foundation

structure SqlLedger where
  journal : List JournalEntry
  balances : List ((String × String) × Int)
  deriving DecidableEq, Repr

/-- The character that no text of a PostgreSQL table contains. -/
def nul : Char := Char.ofNat 0

/-- An entry whose postings the tables can hold. -/
def JournalEntry.storable (entry : JournalEntry) : Bool :=
  entry.postings.all fun posting =>
    !posting.account.toList.contains nul && !posting.asset.toList.contains nul

namespace SqlLedger

def empty : SqlLedger := { journal := [], balances := [] }

/-- Every posting of the journal, in insertion order. -/
def postings (ledger : SqlLedger) : List Posting := ledger.journal.flatMap (·.postings)

/-- `SELECT id FROM journal_entry WHERE idempotency_key = …`, as far as it finds a row. -/
def hasKey (ledger : SqlLedger) (idempotencyKey : String) : Bool :=
  ledger.journal.any fun entry => entry.idempotencyKey = idempotencyKey

/-- Whether the insert meets one of the two unique columns. -/
def conflicts (ledger : SqlLedger) (entry : JournalEntry) : Bool :=
  ledger.journal.any fun old =>
    old.id = entry.id || old.idempotencyKey = entry.idempotencyKey

/-- The text that `nettedByAccount` keys its accumulator with. -/
def nettingKey (owner : String × String) : String :=
  owner.1 ++ String.singleton nul ++ owner.2

/-- One netted movement for each account and asset of an entry, the accumulator keyed by the
two texts joined with a NUL.
-/
def nettedByAccount (postings : List Posting) : List ((String × String) × Int) :=
  Accumulator.tallyBy nettingKey (fun posting => (posting.account, posting.asset))
    Posting.signed [] postings

/-- `applyDelta`: open the balance row or add to it. -/
def applyDelta (balances : List ((String × String) × Int)) (delta : (String × String) × Int)
    : List ((String × String) × Int) :=
  Accumulator.add balances delta.1 delta.2

def duplicateEntryId (entry : JournalEntry) : AppError :=
  { code := .ledgerDuplicateEntryId
    message :=
      s!"Journal entry id {entry.id} already exists under a different idempotency key"
    context := [("id", .text entry.id), ("idempotencyKey", .text entry.idempotencyKey)] }

/-- Insert the entry with its postings and move the balances, or report that the
idempotency key was already there. An id taken under another key is refused.
-/
def append (ledger : SqlLedger) (entry : JournalEntry) : Except AppError (SqlLedger × Bool) :=
  if ledger.conflicts entry then
    if ledger.hasKey entry.idempotencyKey then .ok (ledger, false)
    else .error (duplicateEntryId entry)
  else
    .ok
      ( { journal := ledger.journal ++ [entry]
          balances := (nettedByAccount entry.postings).foldl applyDelta ledger.balances },
        true)

def balance (ledger : SqlLedger) (account asset : String) : Int :=
  Accumulator.valueAt ledger.balances (account, asset)

/-- The postings stored under an entry id, none for an unknown id. -/
def entryPostings (ledger : SqlLedger) (id : String) : List Posting :=
  (ledger.journal.filter fun entry => entry.id = id).flatMap (·.postings)

-----------------------------------------------------------------------------
-- What an append leaves behind

/-- Every outcome of an append: the entry was there, its id is taken, or it is new. -/
theorem append_cases (ledger : SqlLedger) (entry : JournalEntry)
    : (ledger.hasKey entry.idempotencyKey = true
        ∧ ledger.append entry = .ok (ledger, false))
      ∨ (ledger.hasKey entry.idempotencyKey = false
          ∧ (∃ old ∈ ledger.journal, old.id = entry.id)
          ∧ ledger.append entry = .error (duplicateEntryId entry))
      ∨ (ledger.hasKey entry.idempotencyKey = false
          ∧ (∀ old ∈ ledger.journal, old.id ≠ entry.id)
          ∧ ledger.append entry
            = .ok
                ( { journal := ledger.journal ++ [entry]
                    balances :=
                      (nettedByAccount entry.postings).foldl applyDelta ledger.balances },
                  true)) := by
  unfold append
  cases held : ledger.hasKey entry.idempotencyKey with
  | true =>
      have clash : ledger.conflicts entry = true := by
        simp only [hasKey, conflicts, List.any_eq_true] at held ⊢
        obtain ⟨old, member, same⟩ := held
        exact ⟨old, member, by simp [of_decide_eq_true same]⟩
      exact .inl ⟨rfl, by simp [clash]⟩
  | false =>
      cases clash : ledger.conflicts entry with
      | true =>
          refine .inr (.inl ⟨rfl, ?_, by simp⟩)
          simp only [hasKey, conflicts, List.any_eq_true, List.any_eq_false] at held clash
          obtain ⟨old, member, same⟩ := clash
          exact ⟨old, member, by simpa [held old member] using same⟩
      | false =>
          refine .inr (.inr ⟨rfl, ?_, by simp⟩)
          intro old member same
          simp only [conflicts, List.any_eq_false] at clash
          exact clash old member (by simp [same])

/-- An applied entry is the last of the journal and its id was free. -/
theorem append_applied {ledger next : SqlLedger} {entry : JournalEntry}
    (appended : ledger.append entry = .ok (next, true))
    : next.journal = ledger.journal ++ [entry]
      ∧ (∀ old ∈ ledger.journal, old.id ≠ entry.id)
      ∧ ledger.hasKey entry.idempotencyKey = false := by
  rcases ledger.append_cases entry with ⟨-, same⟩ | ⟨-, -, failed⟩ | ⟨unused, fresh, stored⟩
  · cases same.symm.trans appended
  · cases failed.symm.trans appended
  · obtain ⟨rfl, -⟩ := Prod.mk.inj (Except.ok.inj (stored.symm.trans appended))
    exact ⟨rfl, fresh, unused⟩

/-- An entry that is not applied leaves the ledger alone. -/
theorem append_ignored {ledger next : SqlLedger} {entry : JournalEntry}
    (appended : ledger.append entry = .ok (next, false))
    : next = ledger := by
  rcases ledger.append_cases entry with ⟨-, same⟩ | ⟨-, -, failed⟩ | ⟨-, -, stored⟩
  · exact (Prod.mk.inj (Except.ok.inj (same.symm.trans appended))).1.symm
  · cases failed.symm.trans appended
  · cases stored.symm.trans appended

/-- An append that does not fail found the key of its entry, or stored the entry under it. -/
theorem append_ok_cases {ledger next : SqlLedger} {entry : JournalEntry} {applied : Bool}
    (appended : ledger.append entry = .ok (next, applied))
    : (applied = false ∧ next = ledger
        ∧ ∃ old ∈ ledger.journal, old.idempotencyKey = entry.idempotencyKey)
      ∨ (applied = true ∧ next.journal = ledger.journal ++ [entry]
          ∧ ∀ old ∈ ledger.journal, old.idempotencyKey ≠ entry.idempotencyKey) := by
  rcases ledger.append_cases entry with ⟨held, same⟩ | ⟨-, -, failed⟩ | ⟨free, -, stored⟩
  · obtain ⟨rfl, rfl⟩ := Prod.mk.inj (Except.ok.inj (same.symm.trans appended))
    simp only [hasKey, List.any_eq_true, decide_eq_true_eq] at held
    exact .inl ⟨rfl, rfl, held⟩
  · cases failed.symm.trans appended
  · obtain ⟨rfl, rfl⟩ := Prod.mk.inj (Except.ok.inj (stored.symm.trans appended))
    simp only [hasKey, List.any_eq_false, decide_eq_true_eq] at free
    exact .inr ⟨rfl, rfl, free⟩

/-- Every entry has its idempotency key for its id, as all callers of the store arrange. -/
def Keyed (ledger : SqlLedger) : Prop := ∀ entry ∈ ledger.journal, entry.id = entry.idempotencyKey

theorem keyed_empty : empty.Keyed := by simp [Keyed, empty]

/-- On such a ledger an append never fails: the journal takes the entry unless it has its id.
-/
theorem Keyed.append {ledger : SqlLedger} {entry : JournalEntry} (keyed : ledger.Keyed)
    (own : entry.id = entry.idempotencyKey)
    : ∃ next,
        ledger.append entry = .ok (next, !ledger.hasKey entry.idempotencyKey)
        ∧ next.journal = Table.insertIgnore JournalEntry.id ledger.journal entry
        ∧ next.Keyed := by
  have taken : entry.id ∈ ledger.journal.map JournalEntry.id
      ↔ ledger.hasKey entry.idempotencyKey = true := by
    rw [hasKey, List.any_eq_true, List.mem_map]
    constructor
    · rintro ⟨old, member, same⟩
      exact ⟨old, member, decide_eq_true (by rw [← keyed old member, same, own])⟩
    · rintro ⟨old, member, same⟩
      exact ⟨old, member, by rw [keyed old member, of_decide_eq_true same, own]⟩
  rw [Table.insertIgnore_eq]
  rcases ledger.append_cases entry with ⟨held, same⟩ | ⟨free, ⟨old, member, clash⟩, -⟩
    | ⟨free, -, stored⟩
  · exact ⟨ledger, by rw [same, held]; rfl, by rw [if_pos (taken.mpr held)], keyed⟩
  · have held := taken.mp (List.mem_map.mpr ⟨old, member, clash⟩)
    exact absurd (held.symm.trans free) (by decide)
  · have absent : entry.id ∉ ledger.journal.map JournalEntry.id := by
      intro member
      exact absurd ((taken.mp member).symm.trans free) (by decide)
    refine ⟨_, by rw [stored, free]; rfl, by rw [if_neg absent], ?_⟩
    intro other member
    rcases List.mem_append.mp member with before | last
    · exact keyed other before
    · exact List.mem_singleton.mp last ▸ own

/-- With distinct ids, the postings of an id are those of its entry. -/
theorem entryPostings_of_mem {ledger : SqlLedger} {entry : JournalEntry}
    (distinct : (ledger.journal.map JournalEntry.id).Nodup) (member : entry ∈ ledger.journal)
    : ledger.entryPostings entry.id = entry.postings := by
  simp [entryPostings, Table.filter_key_of_mem distinct member]

/-- The materialised balances are the sums of the postings, however they are selected. -/
def Materialised (ledger : SqlLedger) : Prop :=
  (ledger.balances.map Prod.fst).Nodup
  ∧ ∀ select : String × String → Bool,
      Accumulator.sumWhere select ledger.balances
      = netWhere (fun posting => select (posting.account, posting.asset)) ledger.postings

theorem materialised_empty : empty.Materialised := ⟨List.nodup_nil, fun _ => rfl⟩

/-- The netting keys of an entry tell its accounts and assets apart. -/
def TellsApart (postings : List Posting) : Prop :=
  ∀ posting ∈ postings, ∀ other ∈ postings,
    nettingKey (posting.account, posting.asset) = nettingKey (other.account, other.asset)
    → (posting.account, posting.asset) = (other.account, other.asset)

/-- Within one asset the joined text determines the account. -/
theorem tellsApart_of_asset {postings : List Posting} {asset : String}
    (single : ∀ posting ∈ postings, posting.asset = asset)
    : TellsApart postings := by
  intro posting inPostings other inOthers same
  rw [single posting inPostings, single other inOthers] at same ⊢
  have texts := congrArg String.toList same
  simp only [nettingKey, String.toList_append, List.append_assoc] at texts
  rw [String.toList_inj.mp (List.append_cancel_right texts)]

/-- Texts without a NUL end where the first one of the joined text stands. -/
theorem tellsApart_of_storable {entry : JournalEntry} (storable : entry.storable = true)
    : TellsApart entry.postings := by
  intro posting inPostings other inOthers same
  simp only [JournalEntry.storable, List.all_eq_true, Bool.and_eq_true, Bool.not_eq_true',
    List.contains_eq_mem, decide_eq_false_iff_not] at storable
  have texts := congrArg String.toList same
  simp only [nettingKey, String.toList_append, String.toList_singleton, List.append_assoc,
    List.singleton_append] at texts
  obtain ⟨accounts, assets⟩ :=
    Delimiters.first_inj (storable posting inPostings).1 (storable other inOthers).1 texts
  rw [Prod.mk.injEq]
  exact ⟨String.toList_inj.mp accounts, String.toList_inj.mp assets⟩

/-- Applying netted movements is one tally over the balances. -/
private theorem sumWhere_foldl_applyDelta (select : String × String → Bool)
    (balances deltas : List ((String × String) × Int))
    : Accumulator.sumWhere select (deltas.foldl applyDelta balances)
      = Accumulator.sumWhere select balances + Accumulator.sumWhere select deltas :=
  Accumulator.sumWhere_tally select Prod.fst Prod.snd balances deltas

/-- An applied entry keeps the balances equal to the sums of the postings. -/
theorem materialised_applied {ledger : SqlLedger} {entry : JournalEntry}
    (agree : ledger.Materialised) (apart : TellsApart entry.postings)
    : Materialised
        { journal := ledger.journal ++ [entry]
          balances := (nettedByAccount entry.postings).foldl applyDelta ledger.balances } := by
  have netted : nettedByAccount entry.postings
      = Accumulator.tally (fun posting => (posting.account, posting.asset)) Posting.signed []
          entry.postings :=
    Accumulator.tallyBy_eq_tally _ apart (by simp)
  refine ⟨Accumulator.nodup_tally Prod.fst Prod.snd _ agree.1, ?_⟩
  intro select
  rw [sumWhere_foldl_applyDelta, netted, Accumulator.sumWhere_tally, agree.2]
  simp [postings, netWhere]

/-- Any outcome of an append keeps them. -/
theorem Materialised.append {ledger next : SqlLedger} {entry : JournalEntry} {applied : Bool}
    (agree : ledger.Materialised) (apart : TellsApart entry.postings)
    (appended : ledger.append entry = .ok (next, applied))
    : next.Materialised := by
  rcases ledger.append_cases entry with ⟨-, same⟩ | ⟨-, -, failed⟩ | ⟨-, -, stored⟩
  · obtain ⟨rfl, -⟩ := Prod.mk.inj (Except.ok.inj (same.symm.trans appended))
    exact agree
  · cases failed.symm.trans appended
  · obtain ⟨rfl, -⟩ := Prod.mk.inj (Except.ok.inj (stored.symm.trans appended))
    exact materialised_applied agree apart

/-- What the postings leave on an account in an asset. -/
def netOn (account asset : String) (postings : List Posting) : Int :=
  netWhere (fun posting => decide ((posting.account, posting.asset) = (account, asset))) postings

@[simp]
theorem netOn_append (account asset : String) (left right : List Posting)
    : netOn account asset (left ++ right) = netOn account asset left + netOn account asset right :=
  netWhere_append _ left right

@[simp]
theorem netOn_flipped (account asset : String) (postings : List Posting)
    : netOn account asset (postings.map Posting.flipped) = -netOn account asset postings :=
  netWhere_flipped (fun _ => rfl) postings

/-- What a journal leaves on an account is the sum of what its entries leave. -/
theorem netOn_flatMap (account asset : String) (entries : List JournalEntry)
    : netOn account asset (entries.flatMap JournalEntry.postings)
      = (entries.map fun entry => netOn account asset entry.postings).sum := by
  induction entries with
  | nil => rfl
  | cons entry rest ih => rw [List.flatMap_cons, netOn_append, ih, List.map_cons, List.sum_cons]

/-- A movement without a network fee debits one account and credits the other. -/
theorem netOn_movementEntry (account asset kind id key other : String) (amount : Int)
    (debited credited : String)
    : netOn account asset
        (movementEntry kind id key other amount debited credited none).postings
      = if other = asset then
          (if debited = account then amount else 0) - (if credited = account then amount else 0)
        else 0 := by
  have postings : (movementEntry kind id key other amount debited credited none).postings
      = [⟨debited, other, amount, .debit⟩, ⟨credited, other, amount, .credit⟩] := rfl
  rw [postings, netOn]
  by_cases same : other = asset <;> by_cases first : debited = account <;>
    by_cases second : credited = account <;> simp [same, first, second]

/-- A movement without a network fee is about one asset. -/
theorem tellsApart_movementEntry (kind id key asset : String) (amount : Int)
    (debited credited : String)
    : TellsApart (movementEntry kind id key asset amount debited credited none).postings := by
  refine tellsApart_of_asset (fun posting member => (?_ : posting.asset = asset))
  simp only [movementEntry, networkFeePostings, List.append_nil, List.mem_cons,
    List.not_mem_nil, or_false] at member
  rcases member with rfl | rfl <;> rfl

/-- Where the balances are materialised, a balance is the net of its postings. -/
theorem balance_eq_net {ledger : SqlLedger} (agree : ledger.Materialised)
    (account asset : String)
    : ledger.balance account asset
      = netWhere (fun posting => decide ((posting.account, posting.asset) = (account, asset)))
          ledger.postings := by
  rw [balance, Accumulator.valueAt_eq_sumWhere _ agree.1, agree.2]

/-- An append moves a balance by what the entry posts on it, if it is applied. -/
theorem Materialised.balance_append {ledger next : SqlLedger} {entry : JournalEntry}
    {applied : Bool} (agree : ledger.Materialised) (apart : TellsApart entry.postings)
    (appended : ledger.append entry = .ok (next, applied)) (account asset : String)
    : next.balance account asset
      = ledger.balance account asset
        + if applied then netOn account asset entry.postings else 0 := by
  rw [balance_eq_net (agree.append apart appended), balance_eq_net agree]
  cases applied with
  | false => rw [append_ignored appended]; simp
  | true => simp [SqlLedger.postings, (append_applied appended).1, netOn]

end SqlLedger

end Cixtech.Ledger
