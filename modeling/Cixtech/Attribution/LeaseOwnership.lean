import Cixtech.Attribution.GatherLease
import Cixtech.Foundation.Executions

/-! Who owns the gather lease of one merchant and chain, over histories of acquisitions,
expiries and releases. A row names its holder by a text that two operations may share, so a
late release may free the lease of another operation; where none does, the lease has one
owner and the row is the owner's.
-/

namespace Cixtech.Attribution

open Cixtech.Common Cixtech.Foundation

/-- An operation that acquired the lease. -/
structure LeaseOperation where
  holder : String
  expiresAt : Int
  released : Bool
  deriving DecidableEq, Repr

/-- The lease table and the operations that acquired the lease, in the order in which they
did.
-/
structure LeaseHistory where
  leases : List LeaseRow
  operations : List LeaseOperation
  clock : Int

inductive LeaseEvent
  | elapse (ms : Nat)
  /-- An operation asks for the lease, under the holder and the time to live of its choice. -/
  | acquire (holder : String) (ttlMs : Int)
  /-- The operation at a position releases, once. -/
  | release (operation : Nat)

/-- An operation owns the lease until it releases it or it expires. -/
def LeaseOperation.owns (clock : Int) (operation : LeaseOperation) : Bool :=
  !operation.released && decide (clock ≤ operation.expiresAt)

/-- The row that an operation writes when it acquires the lease. -/
def LeaseOperation.row (leaseKey : String) (operation : LeaseOperation) : LeaseRow :=
  { key := leaseKey, holder := operation.holder, expiresAt := operation.expiresAt }

namespace LeaseHistory

def initial (now : Int) : LeaseHistory := { leases := [], operations := [], clock := now }

/-- One event, none where the operation is unknown or has released before. -/
def step (leaseKey : String) (history : LeaseHistory) : LeaseEvent → Option LeaseHistory
  | .elapse ms => some { history with clock := history.clock + ms }
  | .acquire holder ttlMs =>
      let expiresAt := history.clock + ttlMs
      let (leases, got) :=
        GatherLease.acquire history.leases leaseKey holder history.clock expiresAt
      let operations :=
        if got then history.operations ++ [{ holder, expiresAt, released := false }]
        else history.operations
      some { history with leases, operations }
  | .release position =>
      match history.operations[position]? with
      | none => none
      | some operation =>
          if operation.released then none
          else
            some
              { history with
                  leases := GatherLease.release history.leases leaseKey operation.holder
                  operations :=
                    history.operations.set position { operation with released := true } }

/-- Whether an event frees no lease of another operation: nobody else who owns the lease goes
by the holder that is released.
-/
def releasesOwn (history : LeaseHistory) : LeaseEvent → Bool
  | .release position =>
      (history.operations[position]?).all fun operation =>
        (history.operations.eraseIdx position).all fun other =>
          !(other.owns history.clock && other.holder == operation.holder)
  | _ => true

end LeaseHistory

/-- At most one operation owns the lease, and the row is the owner's. -/
structure SoleOwner (leaseKey : String) (history : LeaseHistory) : Prop where
  unique : ∀ {first second : Nat} {operation other : LeaseOperation},
    history.operations[first]? = some operation → history.operations[second]? = some other
    → operation.owns history.clock = true → other.owns history.clock = true → first = second
  row : ∀ {position : Nat} {operation : LeaseOperation},
    history.operations[position]? = some operation → operation.owns history.clock = true
    → GatherLease.find history.leases leaseKey = some (operation.row leaseKey)

section Step

variable {leaseKey : String} {history next : LeaseHistory}

theorem soleOwner_initial (now : Int) : SoleOwner leaseKey (.initial now) where
  unique := by simp [LeaseHistory.initial]
  row := by simp [LeaseHistory.initial]

/-- Whoever owns the lease later owned it before. -/
theorem LeaseOperation.owns_earlier {operation : LeaseOperation} {clock : Int} {ms : Nat}
    (owns : operation.owns (clock + ms) = true)
    : operation.owns clock = true := by
  simp only [LeaseOperation.owns, Bool.and_eq_true, Bool.not_eq_true', decide_eq_true_eq]
    at owns ⊢
  exact ⟨owns.1, by omega⟩

/-- An acquisition succeeds only when nobody owns the lease. -/
theorem SoleOwner.unowned_of_acquired (sole : SoleOwner leaseKey history) {holder : String}
    {expiresAt : Int} {leases : List LeaseRow}
    (got : GatherLease.acquire history.leases leaseKey holder history.clock expiresAt
      = (leases, true))
    : ∀ (position : Nat) (operation : LeaseOperation),
        history.operations[position]? = some operation
        → operation.owns history.clock = false := by
  intro position operation found
  by_contra owned
  have owns : operation.owns history.clock = true := by simpa using owned
  have live : history.clock ≤ (operation.row leaseKey).expiresAt := by
    simp only [LeaseOperation.owns, Bool.and_eq_true, decide_eq_true_eq] at owns
    exact owns.2
  rw [GatherLease.acquire_of_live (sole.row found owns) live] at got
  cases got

theorem SoleOwner.acquire (sole : SoleOwner leaseKey history) {holder : String}
    {expiresAt : Int} {leases : List LeaseRow}
    (got : GatherLease.acquire history.leases leaseKey holder history.clock expiresAt
      = (leases, true))
    : SoleOwner leaseKey
        { history with
            leases
            operations :=
              history.operations ++ [{ holder, expiresAt, released := false }] } := by
  have unowned := sole.unowned_of_acquired got
  -- Only the operation that was appended can own the lease.
  have last : ∀ {position : Nat} {operation : LeaseOperation},
      (history.operations ++ [{ holder, expiresAt, released := false }])[position]?
        = some operation
      → operation.owns history.clock = true
      → position = history.operations.length
        ∧ operation = { holder, expiresAt, released := false } := by
    intro position operation found owns
    rcases Nat.lt_trichotomy position history.operations.length with before | rfl | after
    · rw [List.getElem?_append_left before] at found
      exact absurd owns (by simp [unowned position operation found])
    · rw [List.getElem?_append_right (Nat.le_refl _)] at found
      simpa using found.symm
    · rw [List.getElem?_eq_none (by rw [List.length_append]; exact after)] at found
      cases found
  refine ⟨?_, ?_⟩
  · intro first second operation other found foundOther owns ownsOther
    exact (last found owns).1.trans (last foundOther ownsOther).1.symm
  · intro position operation found owns
    obtain ⟨-, rfl⟩ := last found owns
    have held := GatherLease.find_acquire (congrArg Prod.snd got)
    rw [got] at held
    exact held

theorem SoleOwner.release (sole : SoleOwner leaseKey history) {position : Nat}
    {operation : LeaseOperation} (found : history.operations[position]? = some operation)
    (own : history.releasesOwn (.release position) = true)
    : SoleOwner leaseKey
        { history with
            leases := GatherLease.release history.leases leaseKey operation.holder
            operations :=
              history.operations.set position { operation with released := true } } := by
  -- Whoever owns the lease after the release is another operation, unchanged.
  have kept : ∀ {other : Nat} {remaining : LeaseOperation},
      (history.operations.set position { operation with released := true })[other]?
        = some remaining
      → remaining.owns history.clock = true
      → other ≠ position ∧ history.operations[other]? = some remaining := by
    intro other remaining foundOther owns
    by_cases same : position = other
    · subst same
      have inside : position < history.operations.length :=
        (List.getElem?_eq_some_iff.mp found).1
      rw [List.getElem?_set_self inside] at foundOther
      obtain rfl := Option.some.inj foundOther
      simp [LeaseOperation.owns] at owns
    · rw [List.getElem?_set_ne same] at foundOther
      exact ⟨Ne.symm same, foundOther⟩
  refine ⟨?_, ?_⟩
  · intro first second one another foundOne foundAnother owns ownsAnother
    exact sole.unique (kept foundOne owns).2 (kept foundAnother ownsAnother).2 owns ownsAnother
  · intro other remaining foundOther owns
    obtain ⟨apart, before⟩ := kept foundOther owns
    have row := sole.row before owns
    have differs : remaining.holder ≠ operation.holder := by
      simp only [LeaseHistory.releasesOwn, found, Option.all_some, List.all_eq_true] at own
      have member : remaining ∈ history.operations.eraseIdx position :=
        List.mem_eraseIdx_iff_getElem?.mpr ⟨other, apart, before⟩
      simpa [owns] using own remaining member
    exact GatherLease.find_release_of_holder row differs

theorem SoleOwner.step (sole : SoleOwner leaseKey history) {event : LeaseEvent}
    (own : history.releasesOwn event = true) (taken : history.step leaseKey event = some next)
    : SoleOwner leaseKey next := by
  cases event with
  | elapse ms =>
      obtain rfl := Option.some.inj taken
      refine ⟨?_, ?_⟩
      · intro first second operation other found foundOther owns ownsOther
        exact sole.unique found foundOther (LeaseOperation.owns_earlier owns)
          (LeaseOperation.owns_earlier ownsOther)
      · intro position operation found owns
        exact sole.row found (LeaseOperation.owns_earlier owns)
  | acquire holder ttlMs =>
      simp only [LeaseHistory.step] at taken
      cases outcome : GatherLease.acquire history.leases leaseKey holder history.clock
          (history.clock + ttlMs) with
      | mk leases got =>
          rw [outcome] at taken
          obtain rfl := Option.some.inj taken
          cases got with
          | true => exact sole.acquire outcome
          | false =>
              have same := GatherLease.acquire_refused (congrArg Prod.snd outcome)
              rw [outcome] at same
              obtain rfl : leases = history.leases := same
              exact sole
  | release position =>
      simp only [LeaseHistory.step] at taken
      split at taken
      · cases taken
      case h_2 operation found =>
        split at taken
        · cases taken
        · obtain rfl := Option.some.inj taken
          exact sole.release found own

end Step

/-- In every history whose releases free no lease of another operation, at most one
operation owns the lease at any moment, and the row of the lease is the owner's.
-/
theorem lease_sole_owner {leaseKey : String} {now : Int} {history : LeaseHistory}
    (reached : Reaches (LeaseHistory.step leaseKey)
      (fun history event => history.releasesOwn event = true) (.initial now) history)
    : (∀ (first second : Nat) (operation other : LeaseOperation),
        history.operations[first]? = some operation
        → history.operations[second]? = some other
        → operation.owns history.clock = true → other.owns history.clock = true
        → first = second)
      ∧ ∀ (position : Nat) (operation : LeaseOperation),
        history.operations[position]? = some operation
        → operation.owns history.clock = true
        → GatherLease.find history.leases leaseKey = some (operation.row leaseKey) := by
  have sole : SoleOwner leaseKey history :=
    reached.invariant (soleOwner_initial now) fun sole own taken => sole.step own taken
  exact ⟨fun _ _ _ _ => sole.unique, fun _ _ => sole.row⟩

-----------------------------------------------------------------------------
-- Two operations that go by one holder

/-- Two payouts of one key: the second takes the expired lease over, the late release of the
first frees it, and a third operation acquires it while the second still owns it.
-/
theorem lease_two_owners
    : ∃ history,
        Reaches (LeaseHistory.step (GatherLease.key asciiCasing "t" "m" "TRON"))
          (fun _ _ => True) (.initial 0) history
        ∧ (history.operations.countP fun operation => operation.owns history.clock) = 2 :=
  Reaches.exists_of_exec
    [ .acquire "payout" GatherLease.defaultTtlMs, .elapse 120001,
      .acquire "payout" GatherLease.defaultTtlMs, .release 0,
      .acquire "console-sweep:USDT" GatherLease.defaultTtlMs ]
    (by decide +kernel)

/-- A late release under another holder leaves the row to its owner. -/
theorem lease_sole_owner_late
    : ∃ history,
        Reaches (LeaseHistory.step (GatherLease.key asciiCasing "t" "m" "TRON"))
          (fun history event => history.releasesOwn event = true) (.initial 0) history
        ∧ history.operations.map LeaseOperation.released = [true, false]
        ∧ ∀ (position : Nat) (operation : LeaseOperation),
          history.operations[position]? = some operation
          → operation.owns history.clock = true
          → GatherLease.find history.leases (GatherLease.key asciiCasing "t" "m" "TRON")
            = some (operation.row (GatherLease.key asciiCasing "t" "m" "TRON")) := by
  have late : ∃ history,
      Reaches (LeaseHistory.step (GatherLease.key asciiCasing "t" "m" "TRON"))
        (fun history event => history.releasesOwn event = true) (.initial 0) history
      ∧ history.operations.map LeaseOperation.released = [true, false] :=
    Reaches.exists_of_exec
      [ .acquire "payout" GatherLease.defaultTtlMs, .elapse 120001,
        .acquire "console-sweep:USDT" GatherLease.defaultTtlMs, .release 0 ]
      (by decide +kernel)
  obtain ⟨history, reached, released⟩ := late
  exact ⟨history, reached, released, (lease_sole_owner reached).2⟩

end Cixtech.Attribution
