import Cixtech.Common.AppError
import Cixtech.Foundation.Accumulator

/-! Journal entries and the check that one balances: every posting is positive and the
postings of each asset sum to zero. The check is characterised by the nets of the entry,
which is what the rest of the ledger reasons with.
-/

namespace Cixtech.Ledger

open Cixtech.Common Cixtech.Foundation

inductive Direction
  | debit
  | credit
  deriving DecidableEq, Repr

/-- The opposite side. -/
def flip : Direction → Direction
  | .debit => .credit
  | .credit => .debit

structure Posting where
  account : String
  asset : String
  amount : Int
  direction : Direction
  deriving DecidableEq, Repr

namespace Posting

/-- The amount with debits positive. -/
def signed (posting : Posting) : Int :=
  match posting.direction with
  | .debit => posting.amount
  | .credit => -posting.amount

/-- The same movement on the other side. -/
def flipped (posting : Posting) : Posting :=
  { posting with direction := flip posting.direction }

@[simp]
theorem signed_debit (account asset : String) (amount : Int)
    : signed ⟨account, asset, amount, .debit⟩ = amount := rfl

@[simp]
theorem signed_credit (account asset : String) (amount : Int)
    : signed ⟨account, asset, amount, .credit⟩ = -amount := rfl

@[simp]
theorem signed_flipped (posting : Posting) : posting.flipped.signed = -posting.signed := by
  obtain ⟨account, asset, amount, direction⟩ := posting
  cases direction <;> simp [flipped, flip]

end Posting

/-- `occurredAt` is stamped on every entry and read by no posting rule, so it is left out. -/
structure JournalEntry where
  id : String
  idempotencyKey : String
  kind : String
  postings : List Posting
  deriving DecidableEq, Repr

/-- The signed sum of the postings that are selected. -/
def netWhere (select : Posting → Bool) (postings : List Posting) : Int :=
  (postings.map fun posting => if select posting then posting.signed else 0).sum

@[simp]
theorem netWhere_nil (select : Posting → Bool) : netWhere select [] = 0 := rfl

@[simp]
theorem netWhere_cons (select : Posting → Bool) (posting : Posting) (rest : List Posting)
    : netWhere select (posting :: rest)
      = (if select posting then posting.signed else 0) + netWhere select rest := rfl

/-- Flipping every posting turns the sum around, where the selection ignores directions. -/
theorem netWhere_flipped {select : Posting → Bool}
    (blind : ∀ posting, select posting.flipped = select posting) (postings : List Posting)
    : netWhere select (postings.map Posting.flipped) = -netWhere select postings := by
  induction postings with
  | nil => rfl
  | cons posting rest ih =>
      rw [List.map_cons, netWhere_cons, netWhere_cons, ih, blind, Posting.signed_flipped]
      split <;> omega

@[simp]
theorem netWhere_append (select : Posting → Bool) (left right : List Posting)
    : netWhere select (left ++ right) = netWhere select left + netWhere select right := by
  simp [netWhere]

-----------------------------------------------------------------------------
-- The balance check

/-- Signed sums for each asset, refusing a posting that is not positive. -/
def nettedByAsset (postings : List Posting) : Except AppError (List (String × Int)) :=
  postings.foldlM
    (fun net posting =>
      if posting.amount ≤ 0 then
        .error
          { code := .ledgerInvalidPosting
            message := s!"Posting amount must be positive, got {posting.amount}"
            context := [] }
      else .ok (Accumulator.add net posting.asset posting.signed))
    []

/-- Whether every asset nets to zero. -/
def isBalanced (entry : JournalEntry) : Except AppError Bool := do
  let net ← nettedByAsset entry.postings
  return net.all fun total => total.2 = 0

/-- Refuse an entry without postings, with a posting that is not positive or with an asset
that does not net to zero.
-/
def assertBalanced (entry : JournalEntry) : Except AppError Unit := do
  if entry.postings.isEmpty then
    throw
      { code := .ledgerUnbalancedEntry
        message := s!"Journal entry {entry.id} has no postings"
        context := [] }
  if !(← isBalanced entry) then
    throw
      { code := .ledgerUnbalancedEntry
        message :=
          s!"Journal entry {entry.id} ({entry.kind}) does not sum to zero per asset"
        context := [] }

/-- What the check accepts, in terms of the postings alone. -/
structure Balanced (postings : List Posting) : Prop where
  nonempty : postings ≠ []
  positive : ∀ posting ∈ postings, 0 < posting.amount
  zero : ∀ asset, netWhere (fun posting => decide (posting.asset = asset)) postings = 0

/-- Flipping a balanced list of postings keeps it balanced. -/
theorem Balanced.flipped {postings : List Posting} (balanced : Balanced postings)
    : Balanced (postings.map Posting.flipped) where
  nonempty := by simpa using balanced.nonempty
  positive := by
    intro posting member
    obtain ⟨original, inPostings, rfl⟩ := List.mem_map.mp member
    exact balanced.positive original inPostings
  zero := by
    intro asset
    have turned : netWhere (fun posting => decide (posting.asset = asset))
        (postings.map Posting.flipped)
        = -netWhere (fun posting => decide (posting.asset = asset)) postings :=
      netWhere_flipped (fun _ => rfl) postings
    rw [turned, balanced.zero asset]
    rfl

/-- Accepting every posting, the fold is the tally of the signed amounts. -/
private theorem foldlM_net (postings : List Posting) (net : List (String × Int))
    (positive : ∀ posting ∈ postings, 0 < posting.amount)
    : postings.foldlM
        (fun net posting =>
          if posting.amount ≤ 0 then
            .error
              { code := .ledgerInvalidPosting
                message := s!"Posting amount must be positive, got {posting.amount}"
                context := [] }
          else (.ok (Accumulator.add net posting.asset posting.signed) : Except AppError _))
        net
      = .ok (Accumulator.tally Posting.asset Posting.signed net postings) := by
  induction postings generalizing net with
  | nil => rfl
  | cons posting rest ih =>
      have accepted : ¬ posting.amount ≤ 0 := Int.not_le.mpr (positive posting (by simp))
      rw [List.foldlM_cons, if_neg accepted]
      exact ih _ fun other member => positive other (List.mem_cons_of_mem _ member)

theorem nettedByAsset_of_positive {postings : List Posting}
    (positive : ∀ posting ∈ postings, 0 < posting.amount)
    : nettedByAsset postings
      = .ok (Accumulator.tally Posting.asset Posting.signed [] postings) :=
  foldlM_net postings [] positive

/-- The totals of a tally all vanish exactly when each asset nets to zero. -/
private theorem tally_zero_iff (postings : List Posting)
    : (∀ total ∈ Accumulator.tally Posting.asset Posting.signed [] postings, total.2 = 0)
      ↔ ∀ asset, netWhere (fun posting => decide (posting.asset = asset)) postings = 0 := by
  have none : (([] : List (String × Int)).map Prod.fst).Nodup := List.nodup_nil
  rw [Accumulator.all_zero_iff (Accumulator.nodup_tally _ _ postings none)]
  simp [Accumulator.sumWhere_tally, netWhere]

/-- A balanced entry passes. -/
theorem assertBalanced_of_balanced {entry : JournalEntry} (balanced : Balanced entry.postings)
    : assertBalanced entry = .ok () := by
  have nonempty : entry.postings.isEmpty = false := by
    simpa using balanced.nonempty
  have zero := (tally_zero_iff entry.postings).mpr balanced.zero
  have all : (Accumulator.tally Posting.asset Posting.signed [] entry.postings).all
      (fun total => decide (total.2 = 0)) = true := by
    simpa [List.all_eq_true] using zero
  simp [assertBalanced, isBalanced, nonempty, nettedByAsset_of_positive balanced.positive,
    all, bind, Except.bind, pure, Except.pure]

/-- A fold that accepts met only positive amounts, by induction on the postings. -/
private theorem positive_of_foldlM {postings : List Posting} {net result : List (String × Int)}
    (accepted : postings.foldlM
        (fun net posting =>
          if posting.amount ≤ 0 then
            .error
              { code := .ledgerInvalidPosting
                message := s!"Posting amount must be positive, got {posting.amount}"
                context := [] }
          else (.ok (Accumulator.add net posting.asset posting.signed) : Except AppError _))
        net
      = .ok result)
    : ∀ posting ∈ postings, 0 < posting.amount := by
  induction postings generalizing net with
  | nil => simp
  | cons posting rest ih =>
      rw [List.foldlM_cons] at accepted
      by_cases refused : posting.amount ≤ 0
      · rw [if_pos refused] at accepted
        cases accepted
      · rw [if_neg refused] at accepted
        intro other member
        rcases List.mem_cons.mp member with rfl | later
        · exact Int.not_le.mp refused
        · exact ih accepted other later

/-- The check passes exactly the balanced entries. -/
theorem assertBalanced_iff {entry : JournalEntry}
    : assertBalanced entry = .ok () ↔ Balanced entry.postings := by
  refine ⟨?_, assertBalanced_of_balanced⟩
  intro passed
  cases empty : entry.postings.isEmpty with
  | true => simp [assertBalanced, empty, throw, throwThe, MonadExceptOf.throw, bind,
      Except.bind] at passed
  | false =>
      cases netted : nettedByAsset entry.postings with
      | error err =>
          simp [assertBalanced, isBalanced, empty, netted, bind, Except.bind] at passed
      | ok net =>
          have positive := positive_of_foldlM netted
          have tallied := (nettedByAsset_of_positive positive).symm.trans netted
          refine ⟨by simpa using empty, positive, (tally_zero_iff entry.postings).mp ?_⟩
          rw [Except.ok.inj tallied]
          by_contra nonzero
          have some : net.all (fun total => decide (total.2 = 0)) = false := by
            simpa using nonzero
          simp [assertBalanced, isBalanced, empty, netted, some, throw, throwThe,
            MonadExceptOf.throw, bind, Except.bind, pure, Except.pure] at passed

/-- The sum of the amounts on one side in an asset. -/
def sideTotal (direction : Direction) (asset : String) (postings : List Posting) : Int :=
  (postings.map fun posting =>
    if posting.asset = asset ∧ posting.direction = direction then posting.amount else 0).sum

/-- What an asset nets to is what its debits exceed its credits by. -/
theorem netWhere_asset_eq (asset : String) (postings : List Posting)
    : netWhere (fun posting => decide (posting.asset = asset)) postings
      = sideTotal .debit asset postings - sideTotal .credit asset postings := by
  induction postings with
  | nil => rfl
  | cons posting rest ih =>
      obtain ⟨account, own, amount, direction⟩ := posting
      rw [netWhere_cons, ih]
      by_cases same : own = asset <;> cases direction <;> simp [sideTotal, same] <;> omega

end Cixtech.Ledger
