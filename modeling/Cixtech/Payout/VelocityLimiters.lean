import Cixtech.Foundation.Transducers
import Cixtech.Common.Text
import Cixtech.Payout.VelocityWindows

/-! The two limiters of the velocity window. One keeps a list under a text made of the tenant,
the merchant and the asset, and stores it only when it admits; the other sums a table and
prunes it behind its own insert. They decide alike as long as a window does not run backwards.
-/

namespace Cixtech.Payout

open Cixtech.Common Cixtech.Foundation

/-- The refusal that both limiters throw. -/
def velocityExceeded (config : VelocityConfig) (ctx : PayoutContext) (spent : Int) : AppError :=
  { code := .policyDenied, message := "Payout exceeds the rolling velocity limit"
    context :=
      [ ("merchant", .text ctx.merchant), ("asset", .text ctx.asset),
        ("spent", .text (toString spent)),
        ("requested", .text (toString ctx.amountBaseUnits)),
        ("limit", .text (toString config.maxTotalBaseUnits)) ] }

/-- `{ at, amount }`. -/
structure WindowEntry where
  at_ : Int
  amount : Int
  deriving DecidableEq, Repr

namespace InMemoryVelocityLimiter

/-- `this.log.get(key) ?? []`, for every key. -/
abbrev WindowLog := String → List WindowEntry

def emptyLog : WindowLog := fun _ => []

/-- `${ctx.tenant}:${ctx.merchant}:${ctx.asset}`. -/
def key (ctx : PayoutContext) : String := ctx.tenant ++ ":" ++ ctx.merchant ++ ":" ++ ctx.asset

/-- Admit a payout and store its filtered window, or throw and store nothing. -/
def admitCall (config : VelocityConfig) (log : WindowLog) (call : AdmitCall)
    : WindowLog × Except AppError Unit :=
  let cutoff := call.now - config.windowMs
  let recent := (log (key call.ctx)).filter fun entry => cutoff ≤ entry.at_
  let spent := (recent.map (·.amount)).sum
  if spent + call.ctx.amountBaseUnits > config.maxTotalBaseUnits then
    (log, .error (velocityExceeded config call.ctx spent))
  else
    let stored := recent ++ [{ at_ := call.now, amount := call.ctx.amountBaseUnits }]
    (fun other => if other = key call.ctx then stored else log other, .ok ())

end InMemoryVelocityLimiter

namespace SqlVelocityLimiter

/-- Admit a payout, or throw and roll back. -/
def admitCall (config : VelocityConfig) (log : List PayoutLogRow) (call : AdmitCall)
    : List PayoutLogRow × Except AppError Unit :=
  match admitPayout config log call.ctx call.now with
  | none =>
      let spent := spentSince log call.ctx (call.now - config.windowMs)
      (log, .error (velocityExceeded config call.ctx spent))
  | some charged => (charged, .ok ())

end SqlVelocityLimiter

-----------------------------------------------------------------------------
-- One list for each window

/-- The entry that a row stands for. -/
def PayoutLogRow.entry (row : PayoutLogRow) : WindowEntry :=
  { at_ := row.at_, amount := row.amountBaseUnits }

/-- A context whose parts contain no colon. -/
def PayoutContext.plain (ctx : PayoutContext) : Prop :=
  ':' ∉ ctx.tenant.toList ∧ ':' ∉ ctx.merchant.toList ∧ ':' ∉ ctx.asset.toList

/-- The key of a plain context tells its window. -/
theorem key_eq_iff {ctx other : PayoutContext} (plain : ctx.plain) (otherPlain : other.plain)
    : InMemoryVelocityLimiter.key other = InMemoryVelocityLimiter.key ctx
      ↔ SqlVelocityLimiter.sameWindow other = SqlVelocityLimiter.sameWindow ctx := by
  constructor
  · intro same
    have texts : other.tenant ++ ":" ++ (other.merchant ++ ":" ++ other.asset)
        = ctx.tenant ++ ":" ++ (ctx.merchant ++ ":" ++ ctx.asset) := by
      simpa only [InMemoryVelocityLimiter.key, String.append_assoc] using same
    obtain ⟨tenants, behind⟩ := colon_first_inj otherPlain.1 plain.1 texts
    obtain ⟨merchants, assets⟩ := colon_first_inj otherPlain.2.1 plain.2.1 behind
    funext row
    simp [SqlVelocityLimiter.sameWindow, tenants, merchants, assets]
  · intro same
    have own := congrFun same
      { tenant := ctx.tenant, merchant := ctx.merchant, asset := ctx.asset
        amountBaseUnits := 0, at_ := 0 }
    simp only [SqlVelocityLimiter.sameWindow, beq_self_eq_true, Bool.and_self, Bool.and_eq_true,
      beq_iff_eq] at own
    simp [InMemoryVelocityLimiter.key, own.1.1, own.1.2, own.2]

/-- The map holds, under the key of every plain context, the rows of its window. -/
def SameWindows (memory : InMemoryVelocityLimiter.WindowLog) (table : List PayoutLogRow) : Prop :=
  ∀ ctx : PayoutContext, ctx.plain
    → memory (InMemoryVelocityLimiter.key ctx)
      = (table.filter (SqlVelocityLimiter.sameWindow ctx)).map PayoutLogRow.entry

/-- Both read the same entries from their windows. -/
theorem SameWindows.recent {memory : InMemoryVelocityLimiter.WindowLog} {table : List PayoutLogRow}
    (same : SameWindows memory table) {ctx : PayoutContext} (plain : ctx.plain) (cutoff : Int)
    : (memory (InMemoryVelocityLimiter.key ctx)).filter (fun entry => cutoff ≤ entry.at_)
      = (SqlVelocityLimiter.since ctx cutoff table).map PayoutLogRow.entry := by
  rw [same ctx plain, List.filter_map, List.filter_filter]
  simp only [SqlVelocityLimiter.since, Function.comp_def, PayoutLogRow.entry, Bool.and_comm]
  rfl

theorem SameWindows.spent {memory : InMemoryVelocityLimiter.WindowLog} {table : List PayoutLogRow}
    (same : SameWindows memory table) {ctx : PayoutContext} (plain : ctx.plain) (cutoff : Int)
    : (((memory (InMemoryVelocityLimiter.key ctx)).filter
          fun entry => cutoff ≤ entry.at_).map (·.amount)).sum
      = SqlVelocityLimiter.spentSince table ctx cutoff := by
  rw [same.recent plain, List.map_map, SqlVelocityLimiter.spentSince_eq]
  rfl

/-- An admitted call leaves of its window what the window reaches, and its own row. -/
theorem filter_own {config : VelocityConfig} (window : 0 ≤ config.windowMs) (call : AdmitCall)
    (table : List PayoutLogRow)
    : ((table ++ [call.row]).filter fun row =>
          !(SqlVelocityLimiter.sameWindow call.ctx row
            && row.at_ < call.now - config.windowMs)).filter
        (SqlVelocityLimiter.sameWindow call.ctx)
      = SqlVelocityLimiter.since call.ctx (call.now - config.windowMs) table ++ [call.row] := by
  have own := SqlVelocityLimiter.sameWindow_row call
  have reached : call.now - config.windowMs ≤ call.row.at_ := by
    show call.now - config.windowMs ≤ call.now
    omega
  have kept : ∀ row, (SqlVelocityLimiter.sameWindow call.ctx row
        && !(SqlVelocityLimiter.sameWindow call.ctx row
          && decide (row.at_ < call.now - config.windowMs)))
      = (SqlVelocityLimiter.sameWindow call.ctx row
        && decide (call.now - config.windowMs ≤ row.at_)) := by
    intro row
    cases SqlVelocityLimiter.sameWindow call.ctx row <;> simp [← decide_not]
  have lastKept : (SqlVelocityLimiter.sameWindow call.ctx call.row
      && decide (call.now - config.windowMs ≤ call.row.at_)) = true := by
    rw [own, decide_eq_true reached]
    rfl
  rw [List.filter_filter, List.filter_append]
  simp only [kept]
  have alone : [call.row].filter (fun row => SqlVelocityLimiter.sameWindow call.ctx row
      && decide (call.now - config.windowMs ≤ row.at_)) = [call.row] :=
    List.filter_cons_of_pos lastKept
  rw [alone, SqlVelocityLimiter.since]

/-- The rows of any other window stay. -/
theorem filter_other {config : VelocityConfig} {ctx : PayoutContext} (call : AdmitCall)
    (table : List PayoutLogRow)
    (apart : SqlVelocityLimiter.sameWindow ctx ≠ SqlVelocityLimiter.sameWindow call.ctx)
    : ((table ++ [call.row]).filter fun row =>
          !(SqlVelocityLimiter.sameWindow call.ctx row
            && row.at_ < call.now - config.windowMs)).filter
        (SqlVelocityLimiter.sameWindow ctx)
      = table.filter (SqlVelocityLimiter.sameWindow ctx) := by
  have others : ∀ row, SqlVelocityLimiter.sameWindow ctx row = true
      → SqlVelocityLimiter.sameWindow call.ctx row = false := by
    intro row mine
    refine Bool.eq_false_iff.mpr fun theirs => ?_
    exact apart (SqlVelocityLimiter.sameWindow_trans mine theirs)
  have notOwn : SqlVelocityLimiter.sameWindow ctx call.row = false := by
    refine Bool.eq_false_iff.mpr fun mine => ?_
    exact absurd (SqlVelocityLimiter.sameWindow_row call) (by simp [others _ mine])
  rw [List.filter_filter, List.filter_append]
  simp only [List.filter_cons, notOwn, Bool.false_and, List.filter_nil]
  simp only [Bool.false_eq_true, if_false, List.append_nil]
  refine List.filter_congr fun row _ => ?_
  cases mine : SqlVelocityLimiter.sameWindow ctx row with
  | false => rfl
  | true => simp [others row mine]

/-- What a limiter in memory stores for an admitted call. -/
theorem InMemoryVelocityLimiter.admitCall_of_fits (config : VelocityConfig) (log : WindowLog)
    (call : AdmitCall)
    (fits : (((log (key call.ctx)).filter
          fun entry => call.now - config.windowMs ≤ entry.at_).map (·.amount)).sum
        + call.ctx.amountBaseUnits
      ≤ config.maxTotalBaseUnits)
    : admitCall config log call
      = ( fun other =>
            if other = key call.ctx then
              (log (key call.ctx)).filter (fun entry => call.now - config.windowMs ≤ entry.at_)
                ++ [call.row.entry]
            else log other,
          .ok ()) := by
  unfold admitCall
  exact if_neg (Int.not_lt.mpr fits)

theorem InMemoryVelocityLimiter.admitCall_of_exceeds (config : VelocityConfig) (log : WindowLog)
    (call : AdmitCall) {spent : Int}
    (sum : (((log (key call.ctx)).filter
        fun entry => call.now - config.windowMs ≤ entry.at_).map (·.amount)).sum = spent)
    (exceeds : config.maxTotalBaseUnits < spent + call.ctx.amountBaseUnits)
    : admitCall config log call = (log, .error (velocityExceeded config call.ctx spent)) := by
  unfold admitCall
  dsimp only
  rw [sum]
  exact if_pos exceeds

theorem SqlVelocityLimiter.admitCall_of_fits (config : VelocityConfig) (log : List PayoutLogRow)
    (call : AdmitCall)
    (fits : spentSince log call.ctx (call.now - config.windowMs) + call.ctx.amountBaseUnits
      ≤ config.maxTotalBaseUnits)
    : admitCall config log call
      = ( (log ++ [call.row]).filter fun row =>
            !(sameWindow call.ctx row && row.at_ < call.now - config.windowMs),
          .ok ()) := by
  have admits : admitPayout config log call.ctx call.now
      = some ((log ++ [call.row]).filter fun row =>
          !(sameWindow call.ctx row && row.at_ < call.now - config.windowMs)) :=
    if_neg (Int.not_lt.mpr fits)
  rw [admitCall, admits]

theorem SqlVelocityLimiter.admitCall_of_exceeds (config : VelocityConfig) (log : List PayoutLogRow)
    (call : AdmitCall)
    (exceeds : config.maxTotalBaseUnits
      < spentSince log call.ctx (call.now - config.windowMs) + call.ctx.amountBaseUnits)
    : admitCall config log call
      = (log,
          .error
            (velocityExceeded config call.ctx
              (spentSince log call.ctx (call.now - config.windowMs)))) := by
  have refuses : admitPayout config log call.ctx call.now = none := if_pos exceeds
  rw [admitCall, refuses]

/-- Where the window does not run backwards, the map and the table stay the same and every
call has the same outcome.
-/
theorem limiters_simulate {config : VelocityConfig} (window : 0 ≤ config.windowMs)
    : Transducer.Simulates (InMemoryVelocityLimiter.admitCall config)
        (SqlVelocityLimiter.admitCall config) (fun call => call.ctx.plain) SameWindows := by
  have both : ∀ {memory : InMemoryVelocityLimiter.WindowLog} {table : List PayoutLogRow}
      {call : AdmitCall}, SameWindows memory table → call.ctx.plain
      → (InMemoryVelocityLimiter.admitCall config memory call).2
          = (SqlVelocityLimiter.admitCall config table call).2
        ∧ SameWindows (InMemoryVelocityLimiter.admitCall config memory call).1
            (SqlVelocityLimiter.admitCall config table call).1 := by
    intro memory table call same plain
    have spent := same.spent plain (call.now - config.windowMs)
    rcases Int.lt_or_le config.maxTotalBaseUnits
        (SqlVelocityLimiter.spentSince table call.ctx (call.now - config.windowMs)
          + call.ctx.amountBaseUnits) with exceeds | fits
    · rw [InMemoryVelocityLimiter.admitCall_of_exceeds config memory call spent exceeds,
        SqlVelocityLimiter.admitCall_of_exceeds config table call exceeds]
      exact ⟨rfl, same⟩
    · rw [InMemoryVelocityLimiter.admitCall_of_fits config memory call (spent ▸ fits),
        SqlVelocityLimiter.admitCall_of_fits config table call fits]
      refine ⟨rfl, fun ctx ctxPlain => ?_⟩
      dsimp only
      by_cases own : SqlVelocityLimiter.sameWindow ctx = SqlVelocityLimiter.sameWindow call.ctx
      · rw [if_pos ((key_eq_iff plain ctxPlain).mpr own), same.recent plain, own,
          filter_own window, List.map_append]
        rfl
      · rw [if_neg fun same => own ((key_eq_iff plain ctxPlain).mp same), same ctx ctxPlain,
          filter_other call table own]
  exact ⟨fun same plain => (both same plain).1, fun same plain => (both same plain).2⟩

/-- A refused call leaves what its limiter keeps. -/
theorem InMemoryVelocityLimiter.admitCall_refused {config : VelocityConfig} {log : WindowLog}
    {call : AdmitCall} {err : AppError} (refused : (admitCall config log call).2 = .error err)
    : (admitCall config log call).1 = log := by
  unfold admitCall at refused ⊢
  dsimp only at refused ⊢
  split
  case isTrue => rfl
  case isFalse fits =>
    rw [if_neg fits] at refused
    cases refused

theorem SqlVelocityLimiter.admitCall_refused {config : VelocityConfig} {log : List PayoutLogRow}
    {call : AdmitCall} {err : AppError} (refused : (admitCall config log call).2 = .error err)
    : (admitCall config log call).1 = log := by
  unfold admitCall at refused ⊢
  split
  case h_1 => rfl
  case h_2 charged admits =>
    rw [admits] at refused
    cases refused

-----------------------------------------------------------------------------
-- Whole histories of calls

theorem plain_sampleCall (amount now : Int)
    : (SqlVelocityLimiter.sampleCall amount now).ctx.plain := by
  have letters : ':' ∉ ("t" : String).toList ∧ ':' ∉ ("m" : String).toList
      ∧ ':' ∉ ("USDT" : String).toList := by
    decide
  exact letters

/-- Where the window runs backwards, the table prunes the row it has just inserted and the map
does not: a second call at the cutoff tells them apart.
-/
theorem limiters_differ {config : VelocityConfig} (negative : config.windowMs < 0)
    : ∃ calls : List AdmitCall, (∀ call ∈ calls, call.ctx.plain)
        ∧ Transducer.answers (InMemoryVelocityLimiter.admitCall config)
            InMemoryVelocityLimiter.emptyLog calls
          ≠ Transducer.answers (SqlVelocityLimiter.admitCall config) [] calls := by
  obtain ⟨amount, below, least⟩ : ∃ amount, amount < 0 ∧ amount ≤ config.maxTotalBaseUnits :=
    ⟨min (-1) config.maxTotalBaseUnits, by omega, by omega⟩
  let first := SqlVelocityLimiter.sampleCall amount 0
  let second := SqlVelocityLimiter.sampleCall (config.maxTotalBaseUnits - amount) config.windowMs
  have cutoff : config.windowMs - config.windowMs = 0 := Int.sub_self _
  -- The map keeps the entry of the first call, which makes room for the second.
  have inMemory : Transducer.answers (InMemoryVelocityLimiter.admitCall config)
        InMemoryVelocityLimiter.emptyLog [first, second]
      = [.ok (), .ok ()] := by
    have stored := InMemoryVelocityLimiter.admitCall_of_fits config
      InMemoryVelocityLimiter.emptyLog first
      (by simpa [InMemoryVelocityLimiter.emptyLog, first, SqlVelocityLimiter.sampleCall] using least)
    rw [Transducer.answers, Transducer.answers, stored]
    have fits := InMemoryVelocityLimiter.admitCall_of_fits config
      (fun other =>
        if other = InMemoryVelocityLimiter.key first.ctx then
          (InMemoryVelocityLimiter.emptyLog (InMemoryVelocityLimiter.key first.ctx)).filter
              (fun entry => first.now - config.windowMs ≤ entry.at_)
            ++ [first.row.entry]
        else InMemoryVelocityLimiter.emptyLog other)
      second
      (by
        simp [InMemoryVelocityLimiter.emptyLog, InMemoryVelocityLimiter.key, first, second,
          SqlVelocityLimiter.sampleCall, AdmitCall.row, PayoutLogRow.entry])
    rw [fits]
    rfl
  -- The table has lost it and refuses the second.
  have inTable : Transducer.answers (SqlVelocityLimiter.admitCall config) [] [first, second]
      = [.ok (), .error (velocityExceeded config second.ctx 0)] := by
    have stored := SqlVelocityLimiter.admitCall_of_fits config [] first
      (by simpa [SqlVelocityLimiter.spentSince, first, SqlVelocityLimiter.sampleCall] using least)
    have pruned : (([] ++ [first.row]).filter fun row =>
        !(SqlVelocityLimiter.sameWindow first.ctx row
          && row.at_ < first.now - config.windowMs)) = [] := by
      have behind : first.row.at_ < first.now - config.windowMs := by
        show (0 : Int) < 0 - config.windowMs
        omega
      simp [SqlVelocityLimiter.sameWindow_row, behind]
    rw [pruned] at stored
    have refused := SqlVelocityLimiter.admitCall_of_exceeds config [] second
      (by
        show config.maxTotalBaseUnits < 0 + (config.maxTotalBaseUnits - amount)
        omega)
    rw [Transducer.answers, Transducer.answers, stored, refused]
    rfl
  refine ⟨[first, second], ?_, ?_⟩
  · intro call member
    rcases List.mem_cons.mp member with rfl | last
    · exact plain_sampleCall ..
    · exact List.mem_singleton.mp last ▸ plain_sampleCall ..
  · rw [inMemory, inTable]
    simp

end Cixtech.Payout
