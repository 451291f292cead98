import Cixtech.Payout.PolicyLookups
import Cixtech.Payout.VelocityLimiters
import Mathlib.Data.Finset.Card

/-! What the policy engine decides. The gates are asked in a fixed order and only the last of
them, the velocity window, writes; a payout is allowed exactly when every gate would let it
pass on its own.
-/

namespace Cixtech.Payout

open Cixtech.Common Cixtech.Ledger

/-- A limiter of the velocity window: the code of a call, and the records that its store holds
for the window of a payout.
-/
structure VelocityLimiter (σ : Type) where
  admitCall : VelocityConfig → σ → AdmitCall → σ × Except AppError Unit
  records : σ → PayoutContext → List WindowEntry
  /-- Whether two payouts have one window. -/
  shares : PayoutContext → PayoutContext → Prop

def inMemoryLimiter : VelocityLimiter InMemoryVelocityLimiter.WindowLog where
  admitCall := InMemoryVelocityLimiter.admitCall
  records log ctx := log (InMemoryVelocityLimiter.key ctx)
  shares ctx other := InMemoryVelocityLimiter.key ctx = InMemoryVelocityLimiter.key other

def sqlLimiter : VelocityLimiter (List PayoutLogRow) where
  admitCall := SqlVelocityLimiter.admitCall
  records log ctx := (log.filter (SqlVelocityLimiter.sameWindow ctx)).map PayoutLogRow.entry
  shares ctx other := SqlVelocityLimiter.sameWindow ctx = SqlVelocityLimiter.sameWindow other

namespace VelocityLimiter

variable {σ : Type} (limiter : VelocityLimiter σ) (config : VelocityConfig) (log : σ)
  (call : AdmitCall)

/-- The records of a call's window that the window still reaches. -/
def recent : List WindowEntry :=
  (limiter.records log call.ctx).filter fun entry => call.now - config.windowMs ≤ entry.at_

/-- What they sum to. -/
def spent : Int := ((limiter.recent config log call).map (·.amount)).sum

/-- What an admitted call makes of a log: its window is what it still reaches and one record of
the call, and every other window is as it was.
-/
structure Records (later : σ) : Prop where
  own
    : ∀ ctx, limiter.shares ctx call.ctx
      → limiter.records later ctx
        = limiter.recent config log call
          ++ [{ at_ := call.now, amount := call.ctx.amountBaseUnits }]
  others
    : ∀ ctx, ¬ limiter.shares ctx call.ctx → limiter.records later ctx = limiter.records log ctx

/-- A limiter refuses exactly what takes its window above the maximum, and records what it
admits.
-/
structure Limits : Prop where
  refuses
    : ∀ {config log call},
        config.maxTotalBaseUnits < limiter.spent config log call + call.ctx.amountBaseUnits
        → limiter.admitCall config log call
          = (log, .error (velocityExceeded config call.ctx (limiter.spent config log call)))
  admits
    : ∀ {config log call},
        limiter.spent config log call + call.ctx.amountBaseUnits ≤ config.maxTotalBaseUnits
        → ∃ later, limiter.admitCall config log call = (later, .ok ())
          ∧ (0 ≤ config.windowMs → limiter.Records config log call later)

end VelocityLimiter

theorem inMemoryLimiter_limits : inMemoryLimiter.Limits where
  refuses above := InMemoryVelocityLimiter.admitCall_of_exceeds _ _ _ rfl above
  admits within := by
    refine ⟨_, InMemoryVelocityLimiter.admitCall_of_fits _ _ _ within, fun _ => ⟨?_, ?_⟩⟩
    · intro ctx own
      exact if_pos own
    · intro ctx other
      exact if_neg other

/-- The rows that the table sums are the recent records of the window. -/
theorem sqlLimiter_recent (config : VelocityConfig) (log : List PayoutLogRow) (call : AdmitCall)
    : sqlLimiter.recent config log call
      = (SqlVelocityLimiter.since call.ctx (call.now - config.windowMs) log).map
          PayoutLogRow.entry := by
  simp only [VelocityLimiter.recent, sqlLimiter, List.filter_map, List.filter_filter,
    SqlVelocityLimiter.since, Function.comp_def, PayoutLogRow.entry, Bool.and_comm]
  rfl

theorem sqlLimiter_spent (config : VelocityConfig) (log : List PayoutLogRow) (call : AdmitCall)
    : sqlLimiter.spent config log call
      = SqlVelocityLimiter.spentSince log call.ctx (call.now - config.windowMs) := by
  rw [VelocityLimiter.spent, sqlLimiter_recent, List.map_map, SqlVelocityLimiter.spentSince_eq]
  rfl

theorem sqlLimiter_limits : sqlLimiter.Limits where
  refuses above := by
    rw [sqlLimiter_spent] at above ⊢
    exact SqlVelocityLimiter.admitCall_of_exceeds _ _ _ above
  admits within := by
    rw [sqlLimiter_spent] at within
    refine ⟨_, SqlVelocityLimiter.admitCall_of_fits _ _ _ within, fun window => ⟨?_, ?_⟩⟩
    · intro ctx own
      simp only [sqlLimiter_recent]
      simp only [sqlLimiter] at own ⊢
      rw [own, filter_own window, List.map_append]
      rfl
    · intro ctx other
      exact congrArg (List.map PayoutLogRow.entry) (filter_other _ _ other)

namespace PolicyEngine

variable {σ : Type} (limiter : VelocityLimiter σ) (config : PolicyConfig)
  (components : PolicyComponents) (ctx : PayoutContext) (now : Int) (log : σ)

/-- Decide a payout; a refusal of the limiter is a decision, any other error is thrown. -/
def evaluateWith : Except AppError PolicyDecision × σ :=
  match gates config (answers components ctx now) ctx now with
  | some decision => (.ok decision, log)
  | none =>
      match config.velocity with
      | none => (.ok .allow, log)
      | some velocity =>
          match limiter.admitCall velocity log { ctx, now } with
          | (later, .ok ()) => (.ok .allow, later)
          | (later, .error err) =>
              (if err.code = .policyDenied then .ok (.deny err.message) else .error err, later)

/-- Throw for every decision but the one that allows. -/
def checkWith : Except AppError Unit × σ :=
  match evaluateWith limiter config components ctx now log with
  | (.error err, later) => (.error err, later)
  | (.ok decision, later) =>
      match refusal ctx decision with
      | none => (.ok (), later)
      | some err => (.error err, later)

/-- What the gates before the time-lock ask for. -/
structure Admissible : Prop where
  running : components.killSwitchEngaged = false
  positive : 0 < ctx.amountBaseUnits
  withinLimit : ctx.amountBaseUnits ≤ config.maxPerPayoutBaseUnits
  listed
    : ctx.destination ∈ config.allowlist
      ∨ ∃ rows, components.allowlistStore = some rows ∧ SqlAllowlist.usable rows ctx now = true
  notSanctioned : ∀ blocked, components.sanctions = some blocked → ctx.destination ∉ blocked
  solvent : ∀ totals, components.totals = some totals → isSolventFor totals ctx.asset = true
  /-- The distinct approvers that are not empty and not the requester are enough. -/
  approved
    : ∀ policy, config.approval = some policy → policy.thresholdBaseUnits < ctx.amountBaseUnits
      → policy.required
        ≤ ((ctx.approvals.getD []).toFinset.filter fun approver =>
            approver ≠ "" ∧ some approver ≠ ctx.requester).card

/-- What the time-lock asks for: no clock before the date at which it ends. -/
def Unlocked : Prop :=
  ∀ policy, config.timeLock = some policy → policy.thresholdBaseUnits < ctx.amountBaseUnits
    → ∀ until_, dateOf (ctx.requestedAt.getD now + policy.delayMs) = some until_ → until_ ≤ now

/-- The delay since the request has passed, if the amount is above the threshold of the lock. -/
def Elapsed : Prop :=
  ∀ policy, config.timeLock = some policy → policy.thresholdBaseUnits < ctx.amountBaseUnits
    → ctx.requestedAt.getD now + policy.delayMs ≤ now

/-- The lock of an amount above its threshold ends at a date, the window starts at one, and it
does not run backwards.
-/
structure Timed : Prop where
  lockEnd
    : ∀ policy, config.timeLock = some policy → policy.thresholdBaseUnits < ctx.amountBaseUnits
      → (dateOf (ctx.requestedAt.getD now + policy.delayMs)).isSome = true
  cutoff
    : ∀ velocity, config.velocity = some velocity
      → (dateOf (now - velocity.windowMs)).isSome = true
  window : ∀ velocity, config.velocity = some velocity → 0 ≤ velocity.windowMs

theorem card_approvers
    : (approvers ctx).length
      = ((ctx.approvals.getD []).toFinset.filter fun approver =>
          approver ≠ "" ∧ some approver ≠ ctx.requester).card := by
  rw [approvers, ← List.card_toFinset]
  congr 1
  ext approver
  simp [List.mem_toFinset]

/-- A gate that refuses ends the asking. -/
theorem gate_passes_iff {refuses : Prop} [Decidable refuses] {decision : PolicyDecision}
    {rest : Option PolicyDecision}
    : (if refuses then some decision else rest) = none ↔ ¬ refuses ∧ rest = none := by
  by_cases refused : refuses <;> simp [refused]

section Gates

variable {config components ctx now}

theorem listed_iff
    : ¬ (!config.allowlist.contains ctx.destination
          && !(answers components ctx now).storeAllows) = true
      ↔ ctx.destination ∈ config.allowlist
        ∨ ∃ rows, components.allowlistStore = some rows
          ∧ SqlAllowlist.usable rows ctx now = true := by
  have stored : (answers components ctx now).storeAllows = true
      ↔ ∃ rows, components.allowlistStore = some rows
        ∧ SqlAllowlist.usable rows ctx now = true := by
    simp [answers, Option.any_eq_true]
  rw [← stored]
  cases (answers components ctx now).storeAllows <;> simp

theorem notSanctioned_iff
    : ¬ (answers components ctx now).sanctioned = true
      ↔ ∀ blocked, components.sanctions = some blocked → ctx.destination ∉ blocked := by
  cases sanctions : components.sanctions <;> simp [answers, sanctions]

theorem solvent_iff
    : ¬ (!(answers components ctx now).solvent) = true
      ↔ ∀ totals, components.totals = some totals
          → isSolventFor totals ctx.asset = true := by
  cases totals : components.totals <;> simp [answers, totals]

/-- All gates before the velocity window pass exactly when each would pass alone. -/
theorem gates_pass_iff
    : gates config (answers components ctx now) ctx now = none
      ↔ Admissible config components ctx now ∧ Unlocked config ctx now := by
  unfold gates Unlocked
  simp only [gate_passes_iff, Option.or_eq_none_iff, Option.bind_eq_none_iff, listed_iff,
    notSanctioned_iff, solvent_iff, ite_eq_right_iff, reduceCtorEq, imp_false, not_and, not_lt,
    card_approvers, gt_iff_lt, not_le]
  constructor
  · rintro ⟨running, positive, withinLimit, listed, notSanctioned, solvent, approved, unlocked⟩
    exact
      ⟨{ running := Bool.eq_false_iff.mpr running, positive, withinLimit, listed, notSanctioned
         solvent, approved },
        fun policy locked above until_ ends => unlocked policy locked until_ ends above⟩
  · rintro ⟨admissible, unlocked⟩
    exact ⟨Bool.eq_false_iff.mp admissible.running, admissible.positive, admissible.withinLimit,
      admissible.listed, admissible.notSanctioned, admissible.solvent, admissible.approved,
      fun policy locked until_ ends above => unlocked policy locked above until_ ends⟩

/-- A lock that ends at a date is open exactly when its delay has passed. -/
theorem unlocked_iff (timed : Timed config ctx now)
    : Unlocked config ctx now ↔ Elapsed config ctx now := by
  refine forall₃_congr fun policy locked above => ?_
  obtain ⟨date, ends⟩ := Option.isSome_iff_exists.mp (timed.lockEnd policy locked above)
  obtain ⟨-, same⟩ := dateOf_eq_some_iff.mp ends
  simp [ends, ← same]

/-- A later clock and more approvals keep a payout admissible. -/
theorem Admissible.mono (admissible : Admissible config components ctx now) {later : Int}
    (passed : now ≤ later) {approvals : List String}
    (more : ∀ approver ∈ ctx.approvals.getD [], approver ∈ approvals)
    : Admissible config components { ctx with approvals := some approvals } later where
  running := admissible.running
  positive := admissible.positive
  withinLimit := admissible.withinLimit
  listed := by
    refine admissible.listed.imp id fun ⟨rows, stored, usable⟩ => ⟨rows, stored, ?_⟩
    unfold SqlAllowlist.usable at usable ⊢
    split at usable
    case h_1 => cases usable
    case h_2 usableAt found =>
      dsimp only
      rw [found]
      exact decide_eq_true (le_trans (of_decide_eq_true usable) passed)
  notSanctioned := admissible.notSanctioned
  solvent := admissible.solvent
  approved := by
    intro policy configured above
    refine (admissible.approved policy configured above).trans (Finset.card_le_card ?_)
    refine Finset.filter_subset_filter _ fun approver member => ?_
    exact List.mem_toFinset.mpr (more approver (List.mem_toFinset.mp member))

/-- A lock that is open is open at every later date. -/
theorem Unlocked.mono (unlocked : Unlocked config ctx now) (clock : -maxTime ≤ now) {later : Int}
    (passed : now ≤ later) (approvals : Option (List String))
    : Unlocked config { ctx with approvals } later := by
  intro policy locked above until_ ends
  obtain ⟨range, rfl⟩ := dateOf_eq_some_iff.mp ends
  have opened := unlocked policy locked above
  cases anchor : ctx.requestedAt with
  | some requestedAt =>
      simp only [anchor, Option.getD_some] at opened range ⊢
      exact (opened _ (dateOf_eq_some_iff.mpr ⟨range, rfl⟩)).trans passed
  | none =>
      simp only [anchor, Option.getD_none] at opened range ⊢
      -- A lock without a request is open where its delay is not positive.
      by_cases ahead : 0 < policy.delayMs
      · have here := opened _ (dateOf_eq_some_iff.mpr ⟨⟨by omega, by omega⟩, rfl⟩)
        omega
      · omega

end Gates

/-- What a decision is, what it records, and what `check` makes of it. -/
structure Decides : Prop where
  /-- It allows what the gates and the velocity window let pass, and nothing else. -/
  allows
    : (evaluateWith limiter config components ctx now log).1 = .ok .allow
      ↔ Admissible config components ctx now
        ∧ Elapsed config ctx now
        ∧ ∀ velocity, config.velocity = some velocity
          → limiter.spent velocity log { ctx, now } + ctx.amountBaseUnits
            ≤ velocity.maxTotalBaseUnits
  /-- What is allowed is recorded once by the limiter, where there is one. -/
  recordsAllowed
    : (evaluateWith limiter config components ctx now log).1 = .ok .allow
      → ∀ velocity, config.velocity = some velocity
        → limiter.Records velocity log { ctx, now }
            (evaluateWith limiter config components ctx now log).2
  /-- Without a limiter nothing is recorded. -/
  unlimited
    : config.velocity = none → (evaluateWith limiter config components ctx now log).2 = log
  /-- Anything else leaves the log alone. -/
  keepsLog
    : (evaluateWith limiter config components ctx now log).1 ≠ .ok .allow
      → (evaluateWith limiter config components ctx now log).2 = log
  /-- `check` returns exactly where the decision allows, and leaves the same log. -/
  checks
    : (checkWith limiter config components ctx now log).1 = .ok ()
      ↔ (evaluateWith limiter config components ctx now log).1 = .ok .allow
  checkLog
    : (checkWith limiter config components ctx now log).2
      = (evaluateWith limiter config components ctx now log).2

/-- No gate decides to allow. -/
theorem gates_ne_allow {answers : PolicyAnswers} {config : PolicyConfig} {ctx : PayoutContext}
    {now : Int}
    : gates config answers ctx now ≠ some .allow := by
  have gate : ∀ {refuses : Prop} [Decidable refuses] {decision : PolicyDecision}
      {rest : Option PolicyDecision}, decision ≠ .allow → rest ≠ some .allow
      → (if refuses then some decision else rest) ≠ some .allow := by
    intro refuses _ decision rest first others
    split
    · exact fun same => first (Option.some.inj same)
    · exact others
  unfold gates
  refine gate (by simp) (gate (by simp) (gate (by simp) (gate (by simp) (gate (by simp)
    (gate (by simp) ?_)))))
  simp only [ne_eq, Option.or_eq_some_iff, Option.bind_eq_some_iff, Option.bind_eq_none_iff]
  rintro (⟨policy, -, allowed⟩ | ⟨-, policy, -, until_, -, allowed⟩)
  · split at allowed <;> simp at allowed
  · split at allowed <;> simp at allowed

theorem refusal_eq_none_iff {decision : PolicyDecision}
    : refusal ctx decision = none ↔ decision = .allow := by
  cases decision <;> simp [refusal]

variable {limiter} {config} {ctx} {now}

/-- What `evaluate` comes to: a gate's refusal, or the limiter's answer. -/
theorem evaluateWith_cases (limits : limiter.Limits) (timed : Timed config ctx now)
    : (∃ decision, evaluateWith limiter config components ctx now log = (.ok decision, log)
        ∧ decision ≠ .allow
        ∧ ¬ (Admissible config components ctx now ∧ Elapsed config ctx now
          ∧ ∀ velocity, config.velocity = some velocity
            → limiter.spent velocity log { ctx, now } + ctx.amountBaseUnits
              ≤ velocity.maxTotalBaseUnits))
      ∨ (∃ later, evaluateWith limiter config components ctx now log = (.ok .allow, later)
        ∧ (∀ velocity, config.velocity = some velocity
          → limiter.Records velocity log { ctx, now } later)
        ∧ (config.velocity = none → later = log)
        ∧ Admissible config components ctx now ∧ Elapsed config ctx now
        ∧ ∀ velocity, config.velocity = some velocity
          → limiter.spent velocity log { ctx, now } + ctx.amountBaseUnits
            ≤ velocity.maxTotalBaseUnits) := by
  have passes
      : gates config (answers components ctx now) ctx now = none
        ↔ Admissible config components ctx now ∧ Unlocked config ctx now :=
    gates_pass_iff
  rw [unlocked_iff timed] at passes
  unfold evaluateWith
  cases asked : gates config (answers components ctx now) ctx now with
  | some decision =>
      refine .inl ⟨decision, rfl, fun allowed => gates_ne_allow (allowed ▸ asked), ?_⟩
      rintro ⟨admissible, elapsed, -⟩
      rw [passes.mpr ⟨admissible, elapsed⟩] at asked
      cases asked
  | none =>
      obtain ⟨admissible, elapsed⟩ := passes.mp asked
      cases limited : config.velocity with
      | none => exact .inr ⟨log, rfl, by simp, fun _ => rfl, admissible, elapsed, by simp⟩
      | some velocity =>
          rcases Int.lt_or_le velocity.maxTotalBaseUnits
            (limiter.spent velocity log { ctx, now } + ctx.amountBaseUnits) with above | within
          · refine .inl ⟨.deny (velocityExceeded velocity ctx
              (limiter.spent velocity log { ctx, now })).message, ?_, by simp, ?_⟩
            · dsimp only
              rw [limits.refuses above]
              rfl
            · rintro ⟨-, -, within⟩
              exact absurd (within velocity rfl) (Int.not_le.mpr above)
          · obtain ⟨later, admitted, records⟩ := limits.admits within
            refine .inr ⟨later, ?_, ?_, by simp, admissible, elapsed, ?_⟩
            · dsimp only
              rw [admitted]
            · rintro _ ⟨⟩
              exact records (timed.window velocity limited)
            · rintro _ ⟨⟩
              exact within

variable {components log}

theorem decides (limits : limiter.Limits) (timed : Timed config ctx now)
    : Decides limiter config components ctx now log := by
  have checked : ∀ {decision later},
      evaluateWith limiter config components ctx now log = (.ok decision, later)
      → ((checkWith limiter config components ctx now log).1 = .ok () ↔ decision = .allow)
        ∧ (checkWith limiter config components ctx now log).2 = later := by
    intro decision later same
    rw [← refusal_eq_none_iff ctx, checkWith, same]
    dsimp only
    cases refusal ctx decision <;> simp
  rcases evaluateWith_cases components log limits timed with
    ⟨decision, same, refused, missing⟩
    | ⟨later, same, records, unlimited, admissible, elapsed, within⟩
  · obtain ⟨returns, left⟩ := checked same
    constructor
    all_goals
      simp only [same, Except.ok.injEq, refused, false_iff, false_implies, implies_true]
    · exact missing
    · simpa [refused] using returns
    · exact left
  · obtain ⟨returns, left⟩ := checked same
    constructor
    all_goals
      simp only [same, true_iff, iff_true, ne_eq, not_true_eq_false, false_implies, true_implies]
    · exact ⟨admissible, elapsed, within⟩
    · exact records
    · exact unlimited
    · exact returns.mpr rfl
    · exact left

/-- The decision of the payouts is the one under the limiter over the table. -/
theorem evaluateWith_sql (log : List PayoutLogRow)
    : evaluateWith sqlLimiter config components ctx now log
      = (.ok (evaluate config (answers components ctx now) log ctx now).1,
          (evaluate config (answers components ctx now) log ctx now).2) := by
  unfold evaluateWith evaluate
  cases gates config (answers components ctx now) ctx now with
  | some decision => rfl
  | none =>
      cases config.velocity with
      | none => rfl
      | some velocity =>
          have asked : sqlLimiter.admitCall velocity log { ctx, now }
              = SqlVelocityLimiter.admitCall velocity log { ctx, now } := rfl
          simp only [asked, SqlVelocityLimiter.admitCall]
          cases SqlVelocityLimiter.admitPayout velocity log ctx now <;> rfl

end PolicyEngine

end Cixtech.Payout
