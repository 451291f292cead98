import Cixtech.Foundation.Tallies
import Cixtech.Foundation.Transducers
import Cixtech.Ledger.Stores

/-! Appending a list of entries to the store in memory, in any order and with any repeats. The
store takes the first entry of each key, so that where entries of one key are identical what
it keeps is the same entries in some order, and everything it computes is a sum over them.
-/

namespace Cixtech.Ledger

open Cixtech.Common Cixtech.Foundation

-----------------------------------------------------------------------------
-- Totals by type of rearranged rows

/-- The type of an account that has one. -/
def typeOf (account : String) : AccountType := (accountTypeOf account).toOption.getD .asset

/-- Over known accounts the totals are a tally by type and asset. -/
theorem TotalsByType.ofRows_of_known {rows : List NetRow}
    (known : ∀ row ∈ rows, knownAccount row.1.1 = true)
    : TotalsByType.ofRows rows
      = .ok
          (Accumulator.tally (fun row => (typeOf row.1.1, row.1.2))
            (fun row => normalSide (typeOf row.1.1) row.2) [] rows) := by
  have running : ∀ totals : TotalsByType,
      rows.foldlM
        (fun totals row => do
          let type ← accountTypeOf row.1.1
          return Accumulator.add totals (type, row.1.2) (normalSide type row.2))
        totals
      = (.ok
          (Accumulator.tally (fun row => (typeOf row.1.1, row.1.2))
            (fun row => normalSide (typeOf row.1.1) row.2) totals rows)
          : Except AppError TotalsByType) := by
    induction rows with
    | nil => intro totals; rfl
    | cons row rest ih =>
        intro totals
        obtain ⟨own, typed⟩ := exists_type_of_known (known row List.mem_cons_self)
        have later := ih (fun other member => known other (List.mem_cons_of_mem _ member))
          (Accumulator.add totals (own, row.1.2) (normalSide own row.2))
        have named : typeOf row.1.1 = own := by simp [typeOf, typed, Except.toOption]
        simp only [List.foldlM_cons, typed, bind, Except.bind, pure, Except.pure]
        simpa only [Accumulator.tally, List.foldl_cons, named, bind, Except.bind, pure,
          Except.pure] using later
  exact running []

/-- A row of an account without a type makes the totals throw, by induction on the rows. -/
theorem TotalsByType.ofRows_of_unknown {rows : List NetRow} {row : NetRow} (member : row ∈ rows)
    (unknown : knownAccount row.1.1 = false)
    : ∃ err, TotalsByType.ofRows rows = .error err := by
  have running : ∀ totals : TotalsByType, ∃ err,
      rows.foldlM
        (fun totals row => do
          let type ← accountTypeOf row.1.1
          return Accumulator.add totals (type, row.1.2) (normalSide type row.2))
        totals
      = (.error err : Except AppError TotalsByType) := by
    induction rows with
    | nil => cases member
    | cons head rest ih =>
        intro totals
        cases typed : accountTypeOf head.1.1 with
        | error err =>
            exact ⟨err, by simp [List.foldlM_cons, typed, bind, Except.bind]⟩
        | ok own =>
            have later : row ∈ rest := by
              rcases List.mem_cons.mp member with rfl | later
              · simp [knownAccount, typed, Except.toOption] at unknown
              · exact later
            obtain ⟨err, thrown⟩ :=
              ih later (Accumulator.add totals (own, head.1.2) (normalSide own head.2))
            refine ⟨err, ?_⟩
            simpa only [List.foldlM_cons, typed, bind, Except.bind, pure, Except.pure] using thrown
  exact running []

/-- Two answers of `totalsByType` that are the same map, or both a throw. -/
inductive SameTotals : Except AppError TotalsByType → Except AppError TotalsByType → Prop
  | totals {first second : TotalsByType} (distinct : (first.map Prod.fst).Nodup)
    (same : first.Perm second)
    : SameTotals (.ok first) (.ok second)
  | thrown {first second : AppError} : SameTotals (.error first) (.error second)

theorem sameTotals_of_perm {rows again : List NetRow} (same : rows.Perm again)
    : SameTotals (TotalsByType.ofRows rows) (TotalsByType.ofRows again) := by
  by_cases known : ∀ row ∈ rows, knownAccount row.1.1 = true
  · have knownAgain : ∀ row ∈ again, knownAccount row.1.1 = true := fun row member =>
      known row (same.mem_iff.mpr member)
    rw [TotalsByType.ofRows_of_known known, TotalsByType.ofRows_of_known knownAgain]
    exact .totals (Accumulator.nodup_tally _ _ rows List.nodup_nil)
      (Accumulator.tally_perm _ _ same)
  · simp only [not_forall, Bool.not_eq_true] at known
    obtain ⟨row, member, unknown⟩ := known
    obtain ⟨first, thrown⟩ := TotalsByType.ofRows_of_unknown member unknown
    obtain ⟨second, thrownAgain⟩ :=
      TotalsByType.ofRows_of_unknown (same.mem_iff.mp member) unknown
    rw [thrown, thrownAgain]
    exact .thrown

-----------------------------------------------------------------------------
-- A list of appends

namespace MemoryLedger

/-- One append, as a machine that answers. -/
def appendStep (ledger : MemoryLedger) (entry : JournalEntry)
    : MemoryLedger × Except AppError Bool :=
  ((ledger.append entry).2, (ledger.append entry).1)

/-- The store after a list of appends. -/
def appendAll (entries : List JournalEntry) : MemoryLedger :=
  Transducer.after appendStep empty entries

/-- Each entry with what its append answered. -/
def answered (ledger : MemoryLedger) (entries : List JournalEntry)
    : List (JournalEntry × Except AppError Bool) :=
  entries.zip (Transducer.answers appendStep ledger entries)

/-- How often an entry of the key was answered `applied: true`. -/
def appliedUnder (key : String) (answered : List (JournalEntry × Except AppError Bool)) : Nat :=
  answered.countP fun one => one.1.idempotencyKey = key && one.2 = .ok true

/-- The store keeps the postings of the entries that a table of distinct keys would take. -/
theorem postings_appendAll (entries : List JournalEntry)
    : (appendAll entries).postings
      = (Table.insertAll JournalEntry.idempotencyKey [] entries).flatMap
          JournalEntry.postings := by
  have running : ∀ (ledger : MemoryLedger) (taken : List JournalEntry),
      (∀ key, key ∈ ledger.seenKeys ↔ key ∈ taken.map JournalEntry.idempotencyKey)
      → ledger.postings = taken.flatMap JournalEntry.postings
      → (Transducer.after appendStep ledger entries).postings
        = (Table.insertAll JournalEntry.idempotencyKey taken entries).flatMap
            JournalEntry.postings := by
    induction entries with
    | nil => exact fun ledger taken _ postings => postings
    | cons entry rest ih =>
        intro ledger taken seen postings
        have peel : Transducer.after appendStep ledger (entry :: rest)
            = Transducer.after appendStep (ledger.append entry).2 rest := rfl
        rw [peel, Table.insertAll_cons, Table.insertIgnore_eq]
        by_cases held : entry.idempotencyKey ∈ ledger.seenKeys
        · have ignored : (ledger.append entry).2 = ledger := by
            rw [append, if_pos (List.contains_iff_mem.mpr held)]
          rw [ignored, if_pos ((seen _).mp held)]
          exact ih ledger taken seen postings
        · rw [if_neg (mt (seen _).mpr held)]
          refine ih _ _ ?_ ?_
          · intro key
            simp [append, held, seen, or_comm, eq_comm]
          · simp [append, held, postings]
  exact running empty [] (by simp [empty]) rfl

/-- Of the entries of one key, the first is applied where the store has not seen the key, and
no other, by induction on the entries.
-/
theorem appliedUnder_answered (key : String) (ledger : MemoryLedger)
    (entries : List JournalEntry)
    : appliedUnder key (answered ledger entries)
      = if key ∈ ledger.seenKeys then 0
        else if key ∈ entries.map JournalEntry.idempotencyKey then 1 else 0 := by
  induction entries generalizing ledger with
  | nil => simp [answered, appliedUnder]
  | cons entry rest ih =>
      have peel : answered ledger (entry :: rest)
          = (entry, (ledger.append entry).1) :: answered (ledger.append entry).2 rest := rfl
      rw [peel, appliedUnder, List.countP_cons, ← appliedUnder, ih]
      by_cases held : entry.idempotencyKey ∈ ledger.seenKeys
      · have ignored : ledger.append entry = (.ok false, ledger) :=
          if_pos (List.contains_iff_mem.mpr held)
        rw [ignored]
        by_cases own : entry.idempotencyKey = key
        · simp [← own, held]
        · have apart : key ≠ entry.idempotencyKey := Ne.symm own
          simp [apart]
      · by_cases own : entry.idempotencyKey = key
        · subst own
          simp [append, held]
        · have apart : key ≠ entry.idempotencyKey := Ne.symm own
          simp [append, held, own, apart]

/-- Where entries of one key are identical, a balance is the sum of what the distinct entries
post on the account.
-/
theorem balance_appendAll {entries : List JournalEntry}
    (consistent : Table.Consistent JournalEntry.idempotencyKey entries) (account asset : String)
    : (appendAll entries).balance account asset
      = ∑ entry ∈ entries.toFinset, SqlLedger.netOn account asset entry.postings := by
  have taken : (Table.insertAll JournalEntry.idempotencyKey [] entries).toFinset
      = entries.toFinset := by
    ext entry
    rw [List.mem_toFinset, List.mem_toFinset, Table.mem_insertAll_of_consistent consistent]
  have keys : ((Table.insertAll JournalEntry.idempotencyKey [] entries).map
      JournalEntry.idempotencyKey).Nodup :=
    Table.nodup_insertAll entries (by simp)
  rw [balance_eq_net, postings_appendAll, SqlLedger.netOn_flatMap, ← taken,
    List.sum_toFinset _ keys.of_map]

/-- Where entries of one key are identical, the store keeps the same postings from any list of
the same entries, in some order.
-/
theorem postings_perm {entries again : List JournalEntry}
    (consistent : Table.Consistent JournalEntry.idempotencyKey entries)
    (same : ∀ entry, entry ∈ again ↔ entry ∈ entries)
    : (appendAll entries).postings.Perm (appendAll again).postings := by
  rw [postings_appendAll, postings_appendAll]
  exact (Table.insertAll_perm consistent same).flatMap_right _

/-- Appending a list in which entries of one key are identical to an empty store, in any order
and with any further repeats: the balances and the totals by type are the same, each key is
answered `applied: true` once, and a balance is the signed sum of the postings of the
distinct entries.
-/
theorem appends_rearranged (entries extra again : List JournalEntry)
    (consistent : Table.Consistent JournalEntry.idempotencyKey entries)
    (repeats : ∀ entry ∈ extra, entry ∈ entries)
    (rearranged : (entries ++ extra).Perm again)
    : (∀ account asset,
        memoryStore.balance (appendAll again) account asset
        = memoryStore.balance (appendAll entries) account asset)
      ∧ SameTotals (memoryStore.totalsByType (appendAll entries))
          (memoryStore.totalsByType (appendAll again))
      ∧ (∀ key ∈ entries.map JournalEntry.idempotencyKey,
          appliedUnder key (answered empty entries) = 1
          ∧ appliedUnder key (answered empty again) = 1)
      ∧ ∀ account asset,
          memoryStore.balance (appendAll again) account asset
          = ∑ entry ∈ entries.toFinset, SqlLedger.netOn account asset entry.postings := by
  have same : ∀ entry, entry ∈ again ↔ entry ∈ entries := by
    intro entry
    rw [← rearranged.mem_iff, List.mem_append]
    exact ⟨fun held => held.elim id (repeats entry), Or.inl⟩
  have consistentAgain : Table.Consistent JournalEntry.idempotencyKey again :=
    fun entry member other inAgain =>
      consistent entry ((same entry).mp member) other ((same other).mp inAgain)
  have members : again.toFinset = entries.toFinset := by
    ext entry
    rw [List.mem_toFinset, List.mem_toFinset, same]
  have sums : ∀ account asset, memoryStore.balance (appendAll again) account asset
      = ∑ entry ∈ entries.toFinset, SqlLedger.netOn account asset entry.postings := by
    intro account asset
    rw [← members]
    exact balance_appendAll consistentAgain account asset
  refine ⟨?_, ?_, ?_, sums⟩
  · intro account asset
    rw [sums]
    exact (balance_appendAll consistent account asset).symm
  · exact sameTotals_of_perm ((postings_perm consistent same).map Posting.row)
  · intro key held
    have heldAgain : key ∈ again.map JournalEntry.idempotencyKey := by
      obtain ⟨entry, member, rfl⟩ := List.mem_map.mp held
      exact List.mem_map_of_mem ((same entry).mpr member)
    constructor <;> rw [appliedUnder_answered]
    · simp only [empty, List.not_mem_nil, if_false, if_pos held]
    · simp only [empty, List.not_mem_nil, if_false, if_pos heldAgain]

/-- A transfer between two cold accounts. -/
def transferOf (key : String) (amount : Int) : JournalEntry :=
  { id := key, idempotencyKey := key, kind := "transfer"
    postings := [⟨"cold:a", "USDT", amount, .debit⟩, ⟨"cold:b", "USDT", amount, .credit⟩] }

/-- Two transfers, one of them offered three times. -/
theorem appends_rearranged_twice
    : memoryStore.balance
          (appendAll
            [transferOf "y" 5, transferOf "x" 3, transferOf "x" 3, transferOf "x" 3])
          "cold:a" "USDT"
        = 8 := by
  have sums := (appends_rearranged [transferOf "x" 3, transferOf "y" 5]
    [transferOf "x" 3, transferOf "x" 3]
    [transferOf "y" 5, transferOf "x" 3, transferOf "x" 3, transferOf "x" 3]
    (by simp [Table.Consistent, transferOf]) (by simp) (by decide)).2.2.2 "cold:a" "USDT"
  rw [sums]
  decide +kernel

end MemoryLedger

end Cixtech.Ledger
