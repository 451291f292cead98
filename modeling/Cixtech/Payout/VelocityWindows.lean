import Cixtech.Foundation.Executions
import Cixtech.Payout.Policy
import Mathlib.Algebra.Order.BigOperators.Group.List

/-! The rolling velocity window over whole histories. The calls of `admit` are serialised by
the advisory lock, but each carries the clock that its caller read before waiting for it. A
call prunes the log by its own cutoff, so one with a late clock can take from the log what an
earlier clock still has to count.
-/

namespace Cixtech.Payout

open Cixtech.Foundation

/-- A call of `admit`, with the clock that its caller read. -/
structure AdmitCall where
  ctx : PayoutContext
  now : Int
  deriving DecidableEq, Repr

/-- The row that an admitted call records. -/
def AdmitCall.row (call : AdmitCall) : PayoutLogRow :=
  { tenant := call.ctx.tenant, merchant := call.ctx.merchant, asset := call.ctx.asset
    amountBaseUnits := call.ctx.amountBaseUnits, at_ := call.now }

/-- The table and, beside it, every payout that was admitted, in the order of the lock. -/
structure VelocityHistory where
  log : List PayoutLogRow
  admitted : List PayoutLogRow
  deriving DecidableEq, Repr

namespace SqlVelocityLimiter

def emptyHistory : VelocityHistory := { log := [], admitted := [] }

/-- One call. A refused one rolls its transaction back. -/
def step (config : VelocityConfig) (history : VelocityHistory) (call : AdmitCall)
    : Option VelocityHistory :=
  match admitPayout config history.log call.ctx call.now with
  | none => some history
  | some log => some { log, admitted := history.admitted ++ [call.row] }

/-- The rows of a context's window from an instant on. -/
def since (ctx : PayoutContext) (cutoff : Int) (rows : List PayoutLogRow) : List PayoutLogRow :=
  rows.filter fun row => sameWindow ctx row && cutoff ≤ row.at_

/-- What the rows of a context's window between two instants sum to. -/
def spentBetween (rows : List PayoutLogRow) (ctx : PayoutContext) (first last : Int) : Int :=
  ((rows.filter fun row => sameWindow ctx row && (first ≤ row.at_ && row.at_ ≤ last)).map
    (·.amountBaseUnits)).sum

/-- No payout that the window of a call reaches was pruned: none that was admitted after it had
a clock more than a window later.
-/
def forgetsNothing (config : VelocityConfig) (admitted : List PayoutLogRow) (call : AdmitCall)
    : Prop :=
  admitted.Pairwise fun earlier later =>
    sameWindow call.ctx earlier = true → sameWindow call.ctx later = true
    → call.now - config.windowMs ≤ earlier.at_ → later.at_ - config.windowMs ≤ earlier.at_

instance (config : VelocityConfig) (admitted : List PayoutLogRow) (call : AdmitCall)
    : Decidable (forgetsNothing config admitted call) := by
  unfold forgetsNothing
  infer_instance

-----------------------------------------------------------------------------
-- What one call does

theorem spentSince_eq (log : List PayoutLogRow) (ctx : PayoutContext) (cutoff : Int)
    : spentSince log ctx cutoff = ((since ctx cutoff log).map (·.amountBaseUnits)).sum := rfl

@[simp]
theorem since_append (ctx : PayoutContext) (cutoff : Int) (left right : List PayoutLogRow)
    : since ctx cutoff (left ++ right) = since ctx cutoff left ++ since ctx cutoff right :=
  List.filter_append left right

theorem spentBetween_snoc (rows : List PayoutLogRow) (row : PayoutLogRow) (ctx : PayoutContext)
    (first last : Int)
    : spentBetween (rows ++ [row]) ctx first last
      = spentBetween rows ctx first last
        + if sameWindow ctx row = true ∧ first ≤ row.at_ ∧ row.at_ ≤ last then
            row.amountBaseUnits
          else 0 := by
  by_cases inside : sameWindow ctx row = true ∧ first ≤ row.at_ ∧ row.at_ ≤ last
  · simp [spentBetween, inside]
  · have outside
        : (sameWindow ctx row && (decide (first ≤ row.at_) && decide (row.at_ ≤ last))) = false := by
      simpa [Bool.and_eq_false_iff] using inside
    simp [spentBetween, outside, inside]

/-- A call is refused and changes nothing, or fits under the maximum with what the log has of
its window, is recorded, and prunes what lies behind its cutoff.
-/
theorem step_cases {config : VelocityConfig} {history next : VelocityHistory} {call : AdmitCall}
    (taken : step config history call = some next)
    : next = history
      ∨ spentSince history.log call.ctx (call.now - config.windowMs) + call.ctx.amountBaseUnits
            ≤ config.maxTotalBaseUnits
        ∧ next.admitted = history.admitted ++ [call.row]
        ∧ next.log
          = (history.log ++ [call.row]).filter fun row =>
              !(sameWindow call.ctx row && row.at_ < call.now - config.windowMs) := by
  unfold step admitPayout at taken
  dsimp only at taken
  split at taken
  case h_1 => exact .inl (Option.some.inj taken).symm
  case h_2 log admits =>
    split at admits
    case isTrue => cases admits
    case isFalse fits =>
      obtain rfl := Option.some.inj taken
      exact .inr ⟨by omega, rfl, (Option.some.inj admits).symm⟩

/-- The window of a context is told by its tenant, merchant and asset alone. -/
theorem sameWindow_trans {ctx other : PayoutContext} {row : PayoutLogRow}
    (mine : sameWindow ctx row = true) (theirs : sameWindow other row = true)
    : sameWindow ctx = sameWindow other := by
  simp only [sameWindow, Bool.and_eq_true, beq_iff_eq] at mine theirs
  funext third
  simp [sameWindow, ← mine.1.1, ← mine.1.2, ← mine.2, theirs.1.1, theirs.1.2, theirs.2]

theorem sameWindow_row (call : AdmitCall) : sameWindow call.ctx call.row = true := by
  simp [sameWindow, AdmitCall.row]

-----------------------------------------------------------------------------
-- What a history keeps to

/-- The log has of every window what was admitted into it and not pruned since, and no window
holds more than the maximum.
-/
structure Bounded (config : VelocityConfig) (history : VelocityHistory) : Prop where
  notNegative : ∀ row ∈ history.admitted, 0 ≤ row.amountBaseUnits
  remembered : 0 ≤ config.windowMs → ∀ call : AdmitCall,
    forgetsNothing config history.admitted call
    → since call.ctx (call.now - config.windowMs) history.log
      = since call.ctx (call.now - config.windowMs) history.admitted
  bounded : ∀ ctx instant,
    spentBetween history.admitted ctx (instant - config.windowMs) instant
      ≤ config.maxTotalBaseUnits

theorem bounded_empty {config : VelocityConfig} (maximum : 0 ≤ config.maxTotalBaseUnits)
    : Bounded config emptyHistory where
  notNegative := by simp [emptyHistory]
  remembered _ _ _ := rfl
  bounded _ _ := maximum

/-- What lies between two instants is no more than what lies behind an earlier one. -/
theorem spentBetween_le_since {rows : List PayoutLogRow} (ctx : PayoutContext)
    {cutoff first : Int} (last : Int) (notNegative : ∀ row ∈ rows, 0 ≤ row.amountBaseUnits)
    (earlier : cutoff ≤ first)
    : spentBetween rows ctx first last
      ≤ ((since ctx cutoff rows).map (·.amountBaseUnits)).sum := by
  have fewer :
      (rows.filter fun row =>
        sameWindow ctx row && (first ≤ row.at_ && row.at_ ≤ last)).Sublist
      (since ctx cutoff rows) := by
    refine List.monotone_filter_right rows fun row => ?_
    simp only [Bool.and_eq_true, decide_eq_true_eq]
    rintro ⟨same, behind, -⟩
    exact ⟨same, Int.le_trans earlier behind⟩
  refine (fewer.map (·.amountBaseUnits)).sum_le_sum fun amount member => ?_
  obtain ⟨row, kept, rfl⟩ := List.mem_map.mp member
  exact notNegative row (List.mem_of_mem_filter kept)

/-- A window that runs backwards holds nothing. -/
theorem spentBetween_of_negative {config : VelocityConfig} (rows : List PayoutLogRow)
    (ctx : PayoutContext) (instant : Int) (negative : config.windowMs < 0)
    : spentBetween rows ctx (instant - config.windowMs) instant = 0 := by
  have none : (rows.filter fun row => sameWindow ctx row
      && (instant - config.windowMs ≤ row.at_ && row.at_ ≤ instant)) = [] := by
    refine List.filter_eq_nil_iff.mpr fun row _ => ?_
    simp only [Bool.and_eq_true, decide_eq_true_eq]
    omega
  rw [spentBetween, none]
  rfl

section Step

variable {config : VelocityConfig} {history next : VelocityHistory} {call : AdmitCall}

/-- What a later call finds in the log of its window, after a call was admitted. -/
theorem Bounded.remembers (bounded : Bounded config history) (window : 0 ≤ config.windowMs)
    (later : AdmitCall)
    (forgets : forgetsNothing config (history.admitted ++ [call.row]) later)
    : since later.ctx (later.now - config.windowMs)
        ((history.log ++ [call.row]).filter fun row =>
          !(sameWindow call.ctx row && row.at_ < call.now - config.windowMs))
      = since later.ctx (later.now - config.windowMs) (history.admitted ++ [call.row]) := by
  obtain ⟨before, -, across⟩ := List.pairwise_append.mp forgets
  have kept := bounded.remembered window later before
  have commuted : since later.ctx (later.now - config.windowMs)
        ((history.log ++ [call.row]).filter fun row =>
          !(sameWindow call.ctx row && row.at_ < call.now - config.windowMs))
      = (since later.ctx (later.now - config.windowMs) (history.log ++ [call.row])).filter
          fun row => !(sameWindow call.ctx row && row.at_ < call.now - config.windowMs) := by
    simp only [since, List.filter_filter, Bool.and_comm]
  rw [commuted, since_append, since_append, kept, List.filter_eq_self]
  intro row member
  simp only [Bool.not_eq_true', Bool.and_eq_false_iff, decide_eq_false_iff_not, Int.not_lt]
  by_cases same : sameWindow call.ctx row = true
  · refine .inr ?_
    rcases List.mem_append.mp member with old | new
    · -- A row of the same window that `later` reaches, and the call was admitted after it.
      obtain ⟨inAdmitted, reached⟩ := List.mem_filter.mp old
      simp only [Bool.and_eq_true, decide_eq_true_eq] at reached
      have windows := sameWindow_trans reached.1 same
      exact across row inAdmitted call.row (by simp) reached.1
        (windows ▸ sameWindow_row call) reached.2
    · obtain ⟨inSelf, -⟩ := List.mem_filter.mp new
      rw [List.mem_singleton.mp inSelf]
      show call.now - config.windowMs ≤ call.now
      omega
  · exact .inl (by simpa using same)

/-- A call with an amount that is not negative, whose window has lost nothing, keeps the
bound: the window of an instant that takes the call in lies behind the cutoff of the call.
-/
theorem Bounded.step (bounded : Bounded config history)
    (maximum : 0 ≤ config.maxTotalBaseUnits) (amount : 0 ≤ call.ctx.amountBaseUnits)
    (forgets : forgetsNothing config history.admitted call)
    (taken : SqlVelocityLimiter.step config history call = some next)
    : Bounded config next := by
  rcases step_cases taken with rfl | ⟨fits, admitted, log⟩
  · exact bounded
  obtain ⟨nextLog, nextAdmitted⟩ := next
  obtain rfl : nextAdmitted = history.admitted ++ [call.row] := admitted
  obtain rfl := log
  refine ⟨?_, fun window later kept => bounded.remembers window later kept, ?_⟩
  · intro row member
    rcases List.mem_append.mp member with old | new
    · exact bounded.notNegative row old
    · exact List.mem_singleton.mp new ▸ amount
  · intro ctx instant
    show SqlVelocityLimiter.spentBetween (history.admitted ++ [call.row]) _ _ _ ≤ _
    rcases Int.lt_or_le config.windowMs 0 with negative | window
    · rw [spentBetween_of_negative _ ctx instant negative]
      exact maximum
    have before := bounded.bounded ctx instant
    rw [spentBetween_snoc]
    split
    case isFalse => omega
    case isTrue inside =>
      obtain ⟨same, first, last⟩ := inside
      have windows : sameWindow ctx = sameWindow call.ctx :=
        sameWindow_trans same (sameWindow_row call)
      have whole : SqlVelocityLimiter.spentBetween history.admitted ctx
            (instant - config.windowMs) instant
          ≤ spentSince history.log call.ctx (call.now - config.windowMs) := by
        rw [spentSince_eq, bounded.remembered window call forgets]
        have behind : call.now - config.windowMs ≤ instant - config.windowMs := by
          have last : call.now ≤ instant := last
          omega
        have less := spentBetween_le_since ctx instant bounded.notNegative behind
        simpa [since, windows] using less
      have own : call.row.amountBaseUnits = call.ctx.amountBaseUnits := rfl
      omega

end Step

/-- A call whose clock is behind no admitted one of its window finds its window whole. -/
theorem forgetsNothing_of_latest {config : VelocityConfig} {admitted : List PayoutLogRow}
    {call : AdmitCall}
    (latest : ∀ row ∈ admitted, sameWindow call.ctx row = true → row.at_ ≤ call.now)
    : forgetsNothing config admitted call := by
  refine List.Pairwise.imp_of_mem (R := fun _ _ => True) ?_
    (by simp [List.pairwise_iff_forall_sublist])
  intro earlier later _ inAdmitted _ _ same reached
  have behind := latest later inAdmitted same
  omega

/-- A call that keeps to the bound: its amount is not negative and its window has lost nothing.
-/
def KeepsBound (config : VelocityConfig) (history : VelocityHistory) (call : AdmitCall) : Prop :=
  0 ≤ call.ctx.amountBaseUnits ∧ forgetsNothing config history.admitted call

instance (config : VelocityConfig) (history : VelocityHistory) (call : AdmitCall)
    : Decidable (KeepsBound config history call) := by
  unfold KeepsBound
  infer_instance

theorem bounded_reached {config : VelocityConfig} {guard : VelocityHistory → AdmitCall → Prop}
    {history : VelocityHistory} (maximum : 0 ≤ config.maxTotalBaseUnits)
    (reached : Reaches (step config) guard emptyHistory history)
    (keeps : ∀ history call, guard history call → KeepsBound config history call)
    : Bounded config history :=
  reached.invariant (bounded_empty maximum) fun bounded allowed taken =>
    bounded.step maximum (keeps _ _ allowed).1 (keeps _ _ allowed).2 taken

/-- In every history of calls that keep to the bound, no window of whatever instant holds more
than the maximum.
-/
theorem windows_within_maximum (config : VelocityConfig) (maximum : 0 ≤ config.maxTotalBaseUnits)
    (history : VelocityHistory)
    (reached : Reaches (step config) (KeepsBound config) emptyHistory history)
    (ctx : PayoutContext) (instant : Int)
    : spentBetween history.admitted ctx (instant - config.windowMs) instant
      ≤ config.maxTotalBaseUnits :=
  (bounded_reached maximum reached fun _ _ keeps => keeps).bounded ctx instant

-----------------------------------------------------------------------------
-- A clock that runs ahead

def sampleWindow : VelocityConfig := { windowMs := 10, maxTotalBaseUnits := 100 }

def sampleCall (amount now : Int) : AdmitCall :=
  { ctx :=
      { tenant := "t", merchant := "m", chain := "TRON", asset := "USDT"
        amountBaseUnits := amount, destination := "dest", requester := none
        approvals := none, requestedAt := none }
    now }

/-- The second call prunes the first, and the third no longer counts it. -/
theorem late_clock_exceeds_maximum
    : ∃ history,
        Reaches (step sampleWindow) (fun _ call => 0 ≤ call.ctx.amountBaseUnits) emptyHistory history
        ∧ spentBetween history.admitted (sampleCall 60 5).ctx (5 - sampleWindow.windowMs) 5 = 120 :=
  Reaches.exists_of_exec [sampleCall 60 0, sampleCall 40 11, sampleCall 60 5] (by decide)

/-- With the clocks in order the third call is refused. -/
theorem windows_within_maximum_in_order
    : ∃ history,
        Reaches (step sampleWindow) (KeepsBound sampleWindow) emptyHistory history
        ∧ history.admitted.length = 2
        ∧ spentBetween history.admitted (sampleCall 60 5).ctx (5 - sampleWindow.windowMs) 5
          ≤ sampleWindow.maxTotalBaseUnits := by
  have inOrder : ∃ history,
      Reaches (step sampleWindow) (KeepsBound sampleWindow) emptyHistory history
      ∧ history.admitted.length = 2 :=
    Reaches.exists_of_exec [sampleCall 60 0, sampleCall 60 5, sampleCall 40 11] (by decide)
  obtain ⟨history, reached, two⟩ := inOrder
  exact ⟨history, reached, two,
    windows_within_maximum sampleWindow (by decide) history reached (sampleCall 60 5).ctx 5⟩

end SqlVelocityLimiter

end Cixtech.Payout
