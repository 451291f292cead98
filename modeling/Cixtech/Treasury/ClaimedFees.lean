import Cixtech.Payout.Routes
import Cixtech.Treasury.FeeClaim
import Cixtech.Treasury.FeeSweepService

/-! The claim over whole ledger histories. Beside the ledger, the books keep the deposits
that stand, credited or in quarantine, and what was swept; on every history the claim is the
fees of the standing credits, less what was swept, plus what stands in quarantine.
-/

namespace Cixtech.Treasury

open Cixtech.Attribution Cixtech.Common Cixtech.Foundation Cixtech.Ingest Cixtech.Ledger
  Cixtech.Payout

/-- The chains that the router registers. -/
def chainNames : List String :=
  ["TRON", "POLYGON", "BSC", "ARBITRUM", "BASE", "ETHEREUM", "AVALANCHE", "OPTIMISM"]

/-- A deposit on a registered chain. -/
structure WatchedDeposit extends ChainDeposit where
  known : chain ∈ chainNames

/-- A withdrawal from an account of the tenant that asks. -/
structure OwnedWithdrawal (tenantOf : Uuid → Uuid) extends WithdrawalRequest where
  owned : tenant = tenantOf merchant

/-- What posts to the ledger. A merchant is an account of one tenant. -/
inductive Operation (tenantOf : Uuid → Uuid)
  | ingest (deposit : WatchedDeposit) (merchant : Uuid) (feeBasisPoints : JsNumber)
      (blocked : Bool)
  | reverse (deposit : WatchedDeposit)
  | lock (request : OwnedWithdrawal tenantOf)
  | settle (request : OwnedWithdrawal tenantOf)
  | sweepAfter (request : OwnedWithdrawal tenantOf) (round : Payout.Sweep) (leg : GatheredLeg)
  | sweep (group : PoolGroup) (asset : String) (leg : GatheredLeg)

/-- A deposit that was applied and not reversed. A credit carries the fee split off it, a
quarantine none.
-/
structure StandingDeposit where
  ref : String
  merchant : Uuid
  asset : String
  amount : Int
  fee : Option Int

/-- A ledger with what it stands for. -/
structure Books where
  ledger : SqlLedger
  standing : List StandingDeposit
  swept : List (Uuid × String × Int)

/-- The fee that is split off a deposit, none off one in quarantine. -/
def feeOf (blocked : Bool) (deposit : ChainDeposit) (feeBasisPoints : JsNumber) : Option Int :=
  if blocked then none
  else (splitFee deposit.amountBaseUnits feeBasisPoints).toOption.map (·.fee)

theorem feeOf_nonneg (blocked : Bool) (deposit : ChainDeposit) (feeBasisPoints : JsNumber)
    (positive : 0 < deposit.amountBaseUnits)
    : 0 ≤ (feeOf blocked deposit feeBasisPoints).getD deposit.amountBaseUnits := by
  unfold feeOf
  split
  · exact Int.le_of_lt positive
  · cases splits : splitFee deposit.amountBaseUnits feeBasisPoints with
    | error err => exact Int.le_of_lt positive
    | ok split => exact (splitFee_bounds splits).1

variable {tenantOf : Uuid → Uuid}

namespace Operation

/-- What the services do to the ledger. -/
def perform (d : Deployment) (ledger : SqlLedger)
    : Operation tenantOf → Except AppError (SqlLedger × Bool)
  | .ingest deposit merchant feeBasisPoints blocked =>
      DepositIngestor.record d.casing ledger
        { tenant := tenantOf merchant, merchant, feeBasisPoints } blocked deposit.toChainDeposit
  | .reverse deposit =>
      let newRef := "reverse:" ++ deposit.ref
      LedgerService.reverseByRef ledger deposit.ref newRef newRef
  | .lock request =>
      payoutLocked (PayoutService.lockInput d (request.params d)) >>= ledger.append
  | .settle request =>
      payoutSettled (PayoutService.settleInput d (request.params d)) >>= LedgerService.post ledger
  | .sweepAfter request round leg =>
      feeSwept (PayoutService.feeSweptInput d (request.params d) round leg)
        >>= LedgerService.post ledger
  | .sweep group asset leg =>
      feeSwept (FeeSweepService.sweptInput d.casing group asset leg) >>= LedgerService.post ledger

/-- What an operation that was applied does to the books beside the ledger. -/
def book (d : Deployment) (books : Books) : Operation tenantOf → Books
  | .ingest deposit merchant feeBasisPoints blocked =>
      { books with
          standing :=
            books.standing
            ++ [ { ref := deposit.ref, merchant, asset := d.casing.toUpperCase deposit.asset
                   amount := deposit.amountBaseUnits
                   fee := feeOf blocked deposit.toChainDeposit feeBasisPoints } ] }
  | .reverse deposit =>
      { books with
          standing := books.standing.filter fun standing => standing.ref ≠ deposit.ref }
  | .lock _ => books
  | .settle _ => books
  | .sweepAfter request _ leg =>
      { books with
          swept :=
            books.swept
            ++ [(request.merchant, d.casing.toUpperCase request.asset, leg.amountBaseUnits)] }
  | .sweep group asset leg =>
      { books with
          swept :=
            books.swept
            ++ [(group.merchant, d.casing.toUpperCase asset, leg.amountBaseUnits)] }

end Operation

namespace Books

def empty : Books := { ledger := .empty, standing := [], swept := [] }

/-- The books after an operation; one that throws leaves them alone. -/
def perform (d : Deployment) (books : Books) (operation : Operation tenantOf) : Books :=
  match operation.perform d books.ledger with
  | .error _ => books
  | .ok (ledger, applied) =>
      if applied then { operation.book d books with ledger } else { books with ledger }

def run (d : Deployment) (operations : List (Operation tenantOf)) : Books :=
  operations.foldl (perform d) empty

end Books

/-- What a standing deposit adds to the claim of a merchant in an asset. -/
def StandingDeposit.worth (merchant : Uuid) (asset : String) (standing : StandingDeposit)
    : Int :=
  if standing.merchant = merchant ∧ standing.asset = asset then
    standing.fee.getD standing.amount
  else 0

/-- The fee of a standing credit, zero for a quarantine. -/
def StandingDeposit.accrued (merchant : Uuid) (asset : String) (standing : StandingDeposit)
    : Int :=
  if standing.merchant = merchant ∧ standing.asset = asset then standing.fee.getD 0 else 0

/-- The amount of a standing quarantine, zero for a credit. -/
def StandingDeposit.held (merchant : Uuid) (asset : String) (standing : StandingDeposit)
    : Int :=
  if standing.merchant = merchant ∧ standing.asset = asset ∧ standing.fee = none then
    standing.amount
  else 0

namespace Books

variable (books : Books) (merchant : Uuid) (asset : String)

/-- The fees accrued on the merchant's credited deposits that were not reversed. -/
def feesAccrued : Int := (books.standing.map (StandingDeposit.accrued merchant asset)).sum

/-- The coins held for the merchant's quarantined deposits. -/
def heldInQuarantine : Int := (books.standing.map (StandingDeposit.held merchant asset)).sum

/-- What was swept from the merchant's pool accounts. -/
def sweptFees : Int :=
  (books.swept.map fun (owner, of, amount) =>
    if owner = merchant ∧ of = asset then amount else 0).sum

end Books

-----------------------------------------------------------------------------
-- References of deposits and the other entry ids

/-- An id that begins like the reference of a deposit, with a capital. -/
def DepositLike (id : String) : Prop := id.toList.head?.any Char.isUpper = true

theorem WatchedDeposit.ref_depositLike (deposit : WatchedDeposit) : DepositLike deposit.ref := by
  have capital : ∀ name ∈ chainNames, name.toList.head?.any Char.isUpper = true := by decide
  have named := capital deposit.chain deposit.known
  unfold DepositLike ChainDeposit.ref
  rw [String.toList_append, String.toList_append, String.toList_append, String.toList_append]
  cases letters : deposit.chain.toList with
  | nil => simp [letters] at named
  | cons c rest => simpa [letters] using named

theorem not_depositLike_cons {id : String} {c : Char} {rest : List Char}
    (text : id.toList = c :: rest) (small : c.isUpper = false)
    : ¬ DepositLike id := by
  simp [DepositLike, text, small]

/-- An id that begins with a small letter is no reference of a deposit. -/
theorem not_depositLike_append {leading : String} {c : Char} {rest : List Char}
    (text : leading.toList = c :: rest) (small : c.isUpper = false) (owner : String)
    : ¬ DepositLike (leading ++ owner) := by
  have whole : (leading ++ owner).toList = c :: (rest ++ owner.toList) := by
    rw [String.toList_append, text, List.cons_append]
  exact not_depositLike_cons whole small

/-- An id that begins with a tenant is no reference of a deposit. -/
theorem not_depositLike_tenant {id : String} (tenant : Uuid) {rest : List Char}
    (text : id.toList = tenant.text.toList ++ ':' :: rest)
    : ¬ DepositLike id := by
  cases letters : tenant.text.toList with
  | nil => exact not_depositLike_cons (c := ':') (by rw [text, letters]; rfl) (by decide)
  | cons c more =>
      refine not_depositLike_cons (by rw [text, letters]; rfl) ?_
      exact tenant.not_upper (by simp [letters])

-----------------------------------------------------------------------------
-- What the books keep

/-- The entries of the ledger and the deposits and sweeps of the books account for each
other. An entry that looks like a deposit stands or was reversed.
-/
structure Booked (tenantOf : Uuid → Uuid) (books : Books) : Prop where
  sound : Sound books.ledger
  distinct : (books.ledger.journal.map JournalEntry.id).Nodup
  plain : ∀ entry ∈ books.ledger.journal, ∃ asset, Plain asset entry.postings
  worth : ∀ merchant asset,
    surplus (tenantOf merchant) merchant asset books.ledger.postings
      = (books.standing.map (StandingDeposit.worth merchant asset)).sum
        - books.sweptFees merchant asset
  refs : (books.standing.map StandingDeposit.ref).Nodup
  stands : ∀ standing ∈ books.standing, ∃ entry ∈ books.ledger.journal,
    entry.id = standing.ref
      ∧ ∀ merchant asset, surplus (tenantOf merchant) merchant asset entry.postings
        = standing.worth merchant asset
  traced : ∀ entry ∈ books.ledger.journal, DepositLike entry.id
    → (∃ standing ∈ books.standing, standing.ref = entry.id)
      ∨ ∃ reversal ∈ books.ledger.journal, reversal.id = "reverse:" ++ entry.id
  positive : ∀ standing ∈ books.standing, 0 < standing.amount

theorem Booked.empty : Booked tenantOf Books.empty where
  sound := sound_empty
  distinct := List.nodup_nil
  plain := by simp [Books.empty, SqlLedger.empty]
  worth := by
    intro merchant asset
    rfl
  refs := List.nodup_nil
  stands := by simp [Books.empty]
  traced := by simp [Books.empty, SqlLedger.empty]
  positive := by simp [Books.empty]

section Append

variable {books : Books} {ledger : SqlLedger} {entry : JournalEntry} {asset : String}

theorem postings_of_append (appended : books.ledger.append entry = .ok (ledger, true))
    : ledger.postings = books.ledger.postings ++ entry.postings := by
  simp [SqlLedger.postings, (SqlLedger.append_applied appended).1]

/-- The parts of the invariant that any appended entry keeps. -/
theorem Booked.append (booked : Booked tenantOf books)
    (appended : books.ledger.append entry = .ok (ledger, true))
    (plain : Plain asset entry.postings)
    : Sound ledger ∧ (ledger.journal.map JournalEntry.id).Nodup
      ∧ ∀ other ∈ ledger.journal, ∃ asset, Plain asset other.postings := by
  obtain ⟨journal, fresh, -⟩ := SqlLedger.append_applied appended
  refine ⟨booked.sound.append plain appended, ?_, ?_⟩
  · rw [journal, List.map_append, List.nodup_append]
    refine ⟨booked.distinct, by simp, ?_⟩
    intro old inOld new inNew same
    obtain ⟨other, member, rfl⟩ := List.mem_map.mp inOld
    obtain rfl : new = entry.id := by simpa using inNew
    exact fresh other member same
  · intro other member
    rw [journal] at member
    rcases List.mem_append.mp member with before | last
    · exact booked.plain other before
    · exact ⟨asset, List.mem_singleton.mp last ▸ plain⟩

/-- An entry that is no deposit leaves the standing deposits as they are. -/
theorem Booked.other (booked : Booked tenantOf books)
    (appended : books.ledger.append entry = .ok (ledger, true))
    (plain : Plain asset entry.postings) (other : ¬ DepositLike entry.id)
    {swept : List (Uuid × String × Int)}
    (moved : ∀ merchant asset, surplus (tenantOf merchant) merchant asset entry.postings
      = books.sweptFees merchant asset - { books with swept := swept }.sweptFees merchant asset)
    : Booked tenantOf { books with ledger, swept } := by
  obtain ⟨journal, -, -⟩ := SqlLedger.append_applied appended
  obtain ⟨sound, distinct, plains⟩ := booked.append appended plain
  refine ⟨sound, distinct, plains, ?_, booked.refs, ?_, ?_, booked.positive⟩
  · intro merchant asset
    have before := booked.worth merchant asset
    have after := moved merchant asset
    rw [postings_of_append appended, surplus_append, before, after]
    simp only [Books.sweptFees]
    omega
  · intro standing member
    obtain ⟨original, inJournal, facts⟩ := booked.stands standing member
    exact ⟨original, by simp [journal, inJournal], facts⟩
  · intro old member deposit
    rw [journal] at member
    rcases List.mem_append.mp member with before | last
    · refine (booked.traced old before deposit).imp_right ?_
      rintro ⟨reversal, inJournal, named⟩
      exact ⟨reversal, by simp [journal, inJournal], named⟩
    · exact (other (List.mem_singleton.mp last ▸ deposit)).elim

/-- A deposit that is applied stands. -/
theorem Booked.deposited (booked : Booked tenantOf books)
    (appended : books.ledger.append entry = .ok (ledger, true))
    (plain : Plain asset entry.postings) {standing : StandingDeposit}
    (named : entry.id = standing.ref) (positive : 0 < standing.amount)
    (worth : ∀ merchant asset, surplus (tenantOf merchant) merchant asset entry.postings
      = standing.worth merchant asset)
    : Booked tenantOf { books with ledger, standing := books.standing ++ [standing] } := by
  obtain ⟨journal, fresh, -⟩ := SqlLedger.append_applied appended
  obtain ⟨sound, distinct, plains⟩ := booked.append appended plain
  refine ⟨sound, distinct, plains, ?_, ?_, ?_, ?_, ?_⟩
  · intro merchant asset
    have before := booked.worth merchant asset
    rw [postings_of_append appended, surplus_append, before, worth]
    simp only [Books.sweptFees, List.map_append, List.map_cons, List.map_nil, List.sum_append,
      List.sum_cons, List.sum_nil]
    omega
  · rw [List.map_append, List.nodup_append]
    refine ⟨booked.refs, by simp, ?_⟩
    intro old inOld new inNew same
    obtain ⟨other, member, rfl⟩ := List.mem_map.mp inOld
    obtain rfl : new = standing.ref := by simpa using inNew
    obtain ⟨original, inJournal, originalId, -⟩ := booked.stands other member
    exact fresh original inJournal (originalId.trans (same.trans named.symm))
  · intro other member
    rcases List.mem_append.mp member with before | last
    · obtain ⟨original, inJournal, facts⟩ := booked.stands other before
      exact ⟨original, by simp [journal, inJournal], facts⟩
    · obtain rfl := List.mem_singleton.mp last
      exact ⟨entry, by simp [journal], named, worth⟩
  · intro old member deposit
    rw [journal] at member
    rcases List.mem_append.mp member with before | last
    · rcases booked.traced old before deposit with ⟨other, inStanding, same⟩
        | ⟨reversal, inJournal, reverses⟩
      · exact .inl ⟨other, List.mem_append_left _ inStanding, same⟩
      · exact .inr ⟨reversal, by simp [journal, inJournal], reverses⟩
    · obtain rfl := List.mem_singleton.mp last
      exact .inl ⟨standing, by simp, named.symm⟩
  · intro other member
    rcases List.mem_append.mp member with before | last
    · exact booked.positive other before
    · exact List.mem_singleton.mp last ▸ positive

end Append

/-- Taking out the one deposit with a reference takes out its part of a sum, by induction
on the deposits.
-/
theorem sum_filter_ref {deposits : List StandingDeposit} {standing : StandingDeposit}
    (distinct : (deposits.map StandingDeposit.ref).Nodup) (member : standing ∈ deposits)
    (part : StandingDeposit → Int)
    : ((deposits.filter fun other => other.ref ≠ standing.ref).map part).sum
      = (deposits.map part).sum - part standing := by
  induction deposits with
  | nil => cases member
  | cons head rest ih =>
      simp only [List.map_cons, List.nodup_cons, List.mem_map, not_exists, not_and] at distinct
      rcases List.mem_cons.mp member with rfl | later
      · have kept : rest.filter (fun other => other.ref ≠ standing.ref) = rest := by
          rw [List.filter_eq_self]
          intro other inRest
          exact decide_eq_true (distinct.1 other inRest)
        rw [List.filter_cons_of_neg (by simp), kept, List.map_cons, List.sum_cons]
        omega
      · have apart : head.ref ≠ standing.ref := fun same => distinct.1 standing later same.symm
        rw [List.filter_cons_of_pos (by simp [apart]), List.map_cons, List.sum_cons,
          ih distinct.2 later, List.map_cons, List.sum_cons]
        omega

/-- A reversal takes the standing deposit out again. -/
theorem Booked.reversed {books : Books} {ledger : SqlLedger} {deposit : WatchedDeposit}
    (booked : Booked tenantOf books)
    (reversed : LedgerService.reverseByRef books.ledger deposit.ref ("reverse:" ++ deposit.ref)
      ("reverse:" ++ deposit.ref) = .ok (ledger, true))
    : Booked tenantOf
        { books with
            ledger
            standing := books.standing.filter fun standing => standing.ref ≠ deposit.ref } := by
  unfold LedgerService.reverseByRef at reversed
  dsimp only at reversed
  split at reversed
  · cases reversed
  case isFalse found =>
    have appended := LedgerService.append_of_post reversed
    obtain ⟨journal, fresh, -⟩ := SqlLedger.append_applied appended
    -- The reference has an entry, and as nothing reversed it before, its deposit stands.
    obtain ⟨original, inJournal, named⟩
        : ∃ original ∈ books.ledger.journal, original.id = deposit.ref := by
      by_contra absent
      apply found
      have none : books.ledger.journal.filter (fun entry => entry.id = deposit.ref) = [] := by
        rw [List.filter_eq_nil_iff]
        intro entry member same
        exact absent ⟨entry, member, of_decide_eq_true same⟩
      simp [SqlLedger.entryPostings, none]
    have traced := booked.traced original inJournal (named ▸ deposit.ref_depositLike)
    obtain ⟨standing, inStanding, ref⟩ := traced.resolve_right (by
      rintro ⟨reversal, member, reverses⟩
      exact fresh reversal member (by rw [reverses, named]))
    obtain ⟨entry, member, entryId, worth⟩ := booked.stands standing inStanding
    obtain rfl : entry = original :=
      List.inj_on_of_nodup_map booked.distinct member inJournal (entryId.trans ref)
    have postings : books.ledger.entryPostings deposit.ref = entry.postings := by
      rw [← named]
      exact SqlLedger.entryPostings_of_mem booked.distinct inJournal
    rw [postings] at appended
    obtain ⟨asset, plain⟩ := booked.plain entry inJournal
    obtain ⟨sound, distinct, plains⟩ := booked.append appended plain.flipped
    have ofDeposit : standing.ref = deposit.ref := ref.trans named
    refine ⟨sound, distinct, plains, ?_, ?_, ?_, ?_, ?_⟩
    · intro merchant asset
      have before := booked.worth merchant asset
      have turned : surplus (tenantOf merchant) merchant asset
          (entry.postings.map Posting.flipped) = -standing.worth merchant asset := by
        rw [← worth]
        exact netWhere_flipped (fun _ => rfl) _
      have kept := sum_filter_ref booked.refs inStanding (StandingDeposit.worth merchant asset)
      rw [ofDeposit] at kept
      rw [postings_of_append appended, surplus_append, before, turned, kept]
      simp only [Books.sweptFees]
      omega
    · exact booked.refs.sublist (List.filter_sublist.map _)
    · intro other kept
      obtain ⟨inBooks, -⟩ := List.mem_filter.mp kept
      obtain ⟨owner, inLedger, facts⟩ := booked.stands other inBooks
      exact ⟨owner, by simp [journal, inLedger], facts⟩
    · intro old inLedger depositLike
      rw [journal] at inLedger
      rcases List.mem_append.mp inLedger with before | last
      · rcases booked.traced old before depositLike with ⟨other, inBooks, same⟩
          | ⟨reversal, inReversals, reverses⟩
        · by_cases own : other.ref = deposit.ref
          · refine .inr ⟨_, journal ▸ List.mem_append_right _ List.mem_cons_self, ?_⟩
            rw [← same, own]
          · exact .inl ⟨other, List.mem_filter.mpr ⟨inBooks, by simpa using own⟩, same⟩
        · exact .inr ⟨reversal, by simp [journal, inReversals], reverses⟩
      · obtain rfl := List.mem_singleton.mp last
        exact (not_depositLike_append (c := 'r') rfl (by decide) deposit.ref depositLike).elim
    · intro other kept
      exact booked.positive other (List.mem_filter.mp kept).1

-----------------------------------------------------------------------------
-- Whole histories

/-- A movement between two of the engine's accounts is plain. -/
theorem plain_movementEntry (kind id key asset : String) (amount : Int)
    (debited credited : Account)
    : Plain asset
        (movementEntry kind id key asset amount debited.key credited.key none).postings where
  named := by
    intro posting member
    rcases List.mem_cons.mp member with rfl | last
    · exact ⟨debited, rfl⟩
    · exact ⟨credited, by rw [List.mem_singleton.mp last]⟩
  single := by
    intro posting member
    rcases List.mem_cons.mp member with rfl | last
    · rfl
    · rw [List.mem_singleton.mp last]

section Deposit

variable (casing : Casing) (merchant : Uuid) (feeBasisPoints : JsNumber)
  (deposit : ChainDeposit)

/-- The entry of a credited deposit is plain and is worth its fee. -/
theorem credited_entry {split : FeeSplit}
    (done : splitFee deposit.amountBaseUnits feeBasisPoints = .ok split)
    (entry : JournalEntry)
    (isCredit : entry = finalizedEntry
      (DepositIngestor.creditInput casing
        { tenant := tenantOf merchant, merchant, feeBasisPoints } deposit) split)
    : Plain (casing.toUpperCase deposit.asset) entry.postings
      ∧ ∀ owner asset, surplus (tenantOf owner) owner asset entry.postings
        = if merchant = owner ∧ casing.toUpperCase deposit.asset = asset then split.fee
          else 0 := by
  obtain ⟨notNegative, -, whole⟩ := splitFee_bounds done
  let upper := casing.toUpperCase deposit.asset
  let pool : Account := .poolAddr deposit.chain merchant
  let available : Account := .merchantAvailable (tenantOf merchant) merchant
  let revenue : Account := .feeRevenue (tenantOf merchant)
  let charged : List Posting :=
    if split.fee > 0 then [⟨revenue.key, upper, split.fee, .credit⟩] else []
  have postings : entry.postings
      = [⟨pool.key, upper, deposit.amountBaseUnits, .debit⟩]
        ++ [⟨available.key, upper, split.net, .credit⟩] ++ charged := by
    rw [isCredit]
    rfl
  have chargedMember : ∀ posting ∈ charged, posting = ⟨revenue.key, upper, split.fee, .credit⟩ := by
    intro posting member
    by_cases positive : split.fee > 0
    · simpa [charged, positive] using member
    · simp [charged, positive] at member
  constructor
  · rw [postings]
    constructor
    · intro posting member
      simp only [List.mem_append, List.mem_singleton] at member
      rcases member with (rfl | rfl) | last
      · exact ⟨pool, rfl⟩
      · exact ⟨available, rfl⟩
      · exact ⟨revenue, by rw [chargedMember posting last]⟩
    · intro posting member
      simp only [List.mem_append, List.mem_singleton] at member
      rcases member with (rfl | rfl) | last
      · rfl
      · rfl
      · rw [chargedMember posting last]
  · intro owner asset
    have noFee : surplus (tenantOf owner) owner asset charged = 0 := by
      by_cases positive : split.fee > 0
      · simp [charged, positive, surplus_posting, revenue, Account.counts]
      · simp [charged, positive, surplus]
    rw [postings, surplus_append, surplus_append, surplus_posting, surplus_posting, noFee]
    by_cases own : merchant = owner
    · subst own
      by_cases same : upper = asset
      · have agrees : casing.toUpperCase deposit.asset = asset := same
        simp only [pool, available, Account.counts, same, agrees, decide_true, and_self,
          if_true, Posting.signed_debit, Posting.signed_credit]
        omega
      · have differs : ¬ casing.toUpperCase deposit.asset = asset := same
        simp [same, differs]
    · simp [pool, available, Account.counts, own]

/-- The entry of a deposit is plain and is worth the fee split off it, or all of it in
quarantine.
-/
theorem deposit_entry {casing : Casing} {merchant : Uuid} {feeBasisPoints : JsNumber}
    {deposit : ChainDeposit} {blocked : Bool} {entry : JournalEntry}
    (built : DepositIngestor.entryOf casing
      { tenant := tenantOf merchant, merchant, feeBasisPoints } blocked deposit = some entry)
    : 0 < deposit.amountBaseUnits
      ∧ Plain (casing.toUpperCase deposit.asset) entry.postings
      ∧ ∀ owner asset, surplus (tenantOf owner) owner asset entry.postings
        = if merchant = owner ∧ casing.toUpperCase deposit.asset = asset then
            (feeOf blocked deposit feeBasisPoints).getD deposit.amountBaseUnits
          else 0 := by
  simp only [DepositIngestor.entryOf] at built
  cases blocked with
  | true =>
      simp only [if_true] at built
      split at built
      · cases built
      case isFalse positive =>
        obtain rfl := Option.some.inj built
        refine ⟨Int.not_le.mp positive,
          plain_movementEntry _ _ _ _ _ (.poolAddr deposit.chain merchant)
            (.complianceSuspense (tenantOf merchant)), ?_⟩
        intro owner asset
        refine (surplus_movementEntry (tenantOf owner) owner asset _ _ _ _ _
          (.poolAddr deposit.chain merchant)
          (.complianceSuspense (tenantOf merchant))).trans ?_
        by_cases own : merchant = owner <;>
          by_cases same : casing.toUpperCase deposit.asset = asset <;>
            simp [Account.counts, own, same, DepositIngestor.quarantineInput, feeOf]
  | false =>
      simp only [Bool.false_eq_true, if_false] at built
      split at built
      · cases built
      case h_2 split splits =>
        have charged : splitFee deposit.amountBaseUnits feeBasisPoints = .ok split := splits
        obtain ⟨plain, worth⟩ := credited_entry casing merchant feeBasisPoints deposit charged
          entry (Option.some.inj built).symm
        refine ⟨(splitFee_eq_ok_iff.mp charged).1, plain, ?_⟩
        intro owner asset
        rw [worth owner asset]
        simp [feeOf, charged, Except.toOption]

end Deposit

/-- What a movement between two accounts makes of the books: nothing when it is a duplicate,
and otherwise what `Booked.other` allows.
-/
theorem Booked.moved {books : Books} {ledger : SqlLedger} {applied : Bool}
    (booked : Booked tenantOf books) (debited credited : Account)
    (swept : List (Uuid × String × Int)) {what kind id key asset : String} {amount : Int}
    {next : JournalEntry → Except AppError (SqlLedger × Bool)}
    (appends : ∀ {entry : JournalEntry} {result : SqlLedger × Bool},
      next entry = .ok result → books.ledger.append entry = .ok result)
    (done : (movement what kind id key asset amount debited.key credited.key none >>= next)
      = .ok (ledger, applied))
    (other : ¬ DepositLike id)
    (worth : ∀ merchant of,
      (if asset = of then
          (if debited.counts (tenantOf merchant) merchant then amount else 0)
            - (if credited.counts (tenantOf merchant) merchant then amount else 0)
        else 0)
      = books.sweptFees merchant of - { books with swept := swept }.sweptFees merchant of)
    : Booked tenantOf
        (if applied then { books with ledger, swept } else { books with ledger }) := by
  obtain ⟨-, posted⟩ := ok_of_movement_bind done
  have appended := appends posted
  cases applied with
  | false =>
      obtain rfl := SqlLedger.append_ignored appended
      exact booked
  | true =>
      refine booked.other appended (plain_movementEntry ..) other ?_
      intro merchant of
      rw [surplus_movementEntry]
      exact worth merchant of

/-- A sweep is added at the end of what was swept. -/
theorem sweptFees_append (books : Books) (merchant owner : Uuid) (asset of : String)
    (amount : Int)
    : { books with swept := books.swept ++ [(owner, of, amount)] }.sweptFees merchant asset
      = books.sweptFees merchant asset
        + if owner = merchant ∧ of = asset then amount else 0 := by
  simp [Books.sweptFees]

/-- What a deposit that is ingested makes of the books. -/
theorem Booked.ingested {d : Deployment} {books : Books} {ledger : SqlLedger} {applied : Bool}
    (booked : Booked tenantOf books) (deposit : WatchedDeposit) (merchant : Uuid)
    (feeBasisPoints : JsNumber) (blocked : Bool)
    (done : DepositIngestor.record d.casing books.ledger
      { tenant := tenantOf merchant, merchant, feeBasisPoints } blocked deposit.toChainDeposit
      = .ok (ledger, applied))
    : Booked tenantOf
        (if applied then
          { (Operation.ingest deposit merchant feeBasisPoints blocked
              : Operation tenantOf).book d books with ledger }
        else { books with ledger }) := by
  let owner : AttributionEntry := { tenant := tenantOf merchant, merchant, feeBasisPoints }
  cases built : DepositIngestor.entryOf d.casing owner blocked deposit.toChainDeposit with
  | none =>
      obtain ⟨err, failed⟩ := DepositIngestor.record_of_rejected books.ledger built
      cases failed.symm.trans done
  | some entry =>
      have appended := (DepositIngestor.record_of_entryOf books.ledger built).symm.trans done
      obtain ⟨named, -⟩ := DepositIngestor.entryOf_ref built
      cases applied with
      | false =>
          obtain rfl := SqlLedger.append_ignored appended
          exact booked
      | true =>
          obtain ⟨positive, plain, worth⟩ := deposit_entry built
          exact booked.deposited appended plain named positive worth

/-- Every operation keeps the books. -/
theorem Booked.perform {d : Deployment} {books : Books} (booked : Booked tenantOf books)
    (operation : Operation tenantOf)
    : Booked tenantOf (books.perform d operation) := by
  unfold Books.perform
  split
  · exact booked
  case h_2 ledger applied done =>
    cases operation with
    | ingest deposit merchant feeBasisPoints blocked =>
        exact booked.ingested deposit merchant feeBasisPoints blocked done
    | reverse deposit =>
        cases applied with
        | false =>
            unfold Operation.perform LedgerService.reverseByRef at done
            dsimp only at done
            split at done
            · cases done
            · obtain rfl := SqlLedger.append_ignored (LedgerService.append_of_post done)
              exact booked
        | true => exact booked.reversed done
    | lock request =>
        refine booked.moved (.merchantAvailable request.tenant request.merchant)
          (.merchantPendingWithdrawal request.tenant request.merchant) books.swept
          (fun appended => appended) done ?_ ?_
        · exact not_depositLike_tenant request.tenant (by
            simp [PayoutService.lockInput, WithdrawalRequest.params,
              WithdrawalRequest.payoutKey]
            rfl)
        · intro merchant of
          simp [Account.counts]
    | settle request =>
        refine booked.moved (.merchantPendingWithdrawal request.tenant request.merchant)
          (.poolAddr (request.params d).chain request.merchant) books.swept
          LedgerService.append_of_post done (not_depositLike_append (c := 's') rfl (by decide) _)
          ?_
        intro merchant of
        by_cases own : request.merchant = merchant
        · simp [Account.counts, request.owned, own]
        · simp [Account.counts, own]
    | sweepAfter request round leg =>
        refine booked.moved (.treasury (request.params d).chain)
          (.poolAddr (request.params d).chain request.merchant) _
          LedgerService.append_of_post done ?_ ?_
        · exact not_depositLike_tenant request.tenant (by
            simp [PayoutService.feeSweptInput, PayoutService.feeLegKey,
              WithdrawalRequest.params, WithdrawalRequest.payoutKey]
            rfl)
        · intro merchant of
          simp only [Operation.book, sweptFees_append]
          by_cases own : request.merchant = merchant <;>
            by_cases same : d.casing.toUpperCase request.asset = of <;>
              simp [Account.counts, own, same, PayoutService.feeSweptInput,
                WithdrawalRequest.params]
    | sweep group asset leg =>
        refine booked.moved (.treasury group.chain) (.poolAddr group.chain group.merchant) _
          LedgerService.append_of_post done ?_ ?_
        · have text : (FeeSweepService.legKey group asset leg).toList
              = 'f' :: (FeeSweepService.legKey group asset leg).toList.tail := by
            -- The equations of a key in interpolated texts are slow to make.
            delta FeeSweepService.legKey
            simp only [String.toList_append, List.append_assoc]
            rfl
          exact not_depositLike_cons text (by decide)
        · intro merchant of
          simp only [Operation.book, sweptFees_append]
          by_cases own : group.merchant = merchant <;>
            by_cases same : d.casing.toUpperCase asset = of <;>
              simp [Account.counts, own, same, FeeSweepService.sweptInput]

theorem Booked.run (d : Deployment) (operations : List (Operation tenantOf))
    : Booked tenantOf (Books.run d operations) := by
  have kept : ∀ {books : Books}, Booked tenantOf books
      → Booked tenantOf (operations.foldl (Books.perform d) books) := by
    induction operations with
    | nil => exact fun booked => booked
    | cons operation rest ih => exact fun booked => ih (booked.perform operation)
  exact kept Booked.empty

-----------------------------------------------------------------------------
-- The claim

/-- What a deposit is worth to the claim is its fee, or its amount in quarantine. -/
theorem StandingDeposit.worth_eq (merchant : Uuid) (asset : String) (standing : StandingDeposit)
    : standing.worth merchant asset
      = standing.accrued merchant asset + standing.held merchant asset := by
  unfold worth accrued held
  cases standing.fee <;> by_cases own : standing.merchant = merchant ∧ standing.asset = asset <;>
    simp [own]

/-- The surplus that the books account for. -/
theorem Books.worth_eq (books : Books) (merchant : Uuid) (asset : String)
    : (books.standing.map (StandingDeposit.worth merchant asset)).sum
      = books.feesAccrued merchant asset + books.heldInQuarantine merchant asset := by
  have split := List.sum_map_add (l := books.standing)
    (f := StandingDeposit.accrued merchant asset) (g := StandingDeposit.held merchant asset)
  unfold Books.feesAccrued Books.heldInQuarantine
  rw [← split]
  congr 1
  exact List.map_congr_left fun standing _ => standing.worth_eq merchant asset

theorem Booked.heldInQuarantine_nonneg {books : Books} (booked : Booked tenantOf books)
    (merchant : Uuid) (asset : String)
    : 0 ≤ books.heldInQuarantine merchant asset := by
  refine List.sum_nonneg ?_
  intro part member
  obtain ⟨standing, inBooks, rfl⟩ := List.mem_map.mp member
  have positive := booked.positive standing inBooks
  unfold StandingDeposit.held
  split <;> omega

/-- In every history the claim is within the fees accrued less those swept exactly when the
merchant has nothing in quarantine in the asset and no more was swept than accrued: what is
in quarantine is claimed with the fees.
-/
theorem claim_within_fees (d : Deployment) (operations : List (Operation tenantOf))
    (merchant : Uuid) (asset : String)
    : let books := Books.run d operations
      let due := books.feesAccrued merchant asset - books.sweptFees merchant asset
      ∃ claimed,
        FeeSweepPlanner.claim books.ledger (tenantOf merchant).text merchant.text asset
          = .ok claimed
        ∧ claimed = max 0 (due + books.heldInQuarantine merchant asset)
        ∧ (claimed ≤ due
            ↔ books.heldInQuarantine merchant asset = 0
              ∧ books.sweptFees merchant asset ≤ books.feesAccrued merchant asset) := by
  intro books due
  have booked : Booked tenantOf books := Booked.run d operations
  have held := booked.heldInQuarantine_nonneg merchant asset
  have worth := booked.worth merchant asset
  rw [books.worth_eq] at worth
  refine ⟨_, claim_eq_surplus booked.sound (tenantOf merchant) merchant asset, ?_, ?_⟩
  · rw [worth]
    simp only [due]
    omega
  · rw [worth]
    simp only [due]
    omega

/-- A single deposit in quarantine is claimed whole. -/
theorem quarantined_deposit_claimed
    : ¬ ∀ (d : Deployment) (operations : List (Operation fun _ => sampleTenant))
          (merchant : Uuid) (asset : String) (claimed : Int),
        FeeSweepPlanner.claim (Books.run d operations).ledger sampleTenant.text merchant.text asset
          = .ok claimed
        → claimed
          ≤ (Books.run d operations).feesAccrued merchant asset
            - (Books.run d operations).sweptFees merchant asset := by
  intro within
  let deposit : WatchedDeposit :=
    { chain := "TRON", txId := "aa", index := 0, to_ := "TMerchant", from_ := "TSender"
      asset := "USDT", tokenContract := none, amountBaseUnits := 100, blockNumber := none
      known := by decide }
  have claimed := within plainDeployment
    [.ingest deposit sampleMerchant (.integer 50) true] sampleMerchant "USDT" 100
    (by decide +kernel)
  revert claimed
  decide +kernel

end Cixtech.Treasury
