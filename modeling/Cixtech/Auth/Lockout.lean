import Cixtech.Auth.Credentials

/-! The lock-out after wrong passwords. The failures are counted in the row, from what each
attempt has read of it, so that failures recorded from one reading count once. Where no failure
is lost that way, the lock holds; where attempts take turns, it bounds the password checks.
-/

namespace Cixtech.Auth

open Cixtech.Common Cixtech.Foundation

namespace SignIns

variable {hashing : Hashing} {lower : String → String} {config : LoginConfig}

-----------------------------------------------------------------------------
-- What an event does

/-- The row that an attempt had read, whose failure an event records. -/
def recording (system : SignIns) (event : CredentialEvent) : Option PrincipalRow :=
  match event with
  | .await index _ | .reject index _ true =>
      (system.calls[index]?).bind fun call =>
        match call.phase with
        | .recording read => some read
        | _ => none
  | _ => none

/-- Whether a password check begins. -/
def begins (lower : String → String) (system : SignIns) (event : CredentialEvent) : Bool :=
  match event with
  | .await index _ =>
      (system.calls[index]?).any fun call =>
        call.phase = .loading && admitted lower call.input system.account.row
  | _ => false

/-- Whether an attempt ends between the beginning of its check and what it writes. -/
def breaksOff (system : SignIns) (event : CredentialEvent) : Bool :=
  match event with
  | .reject index _ applied =>
      (system.calls[index]?).any fun call =>
        match call.phase with
        | .checking _ => true
        | .recording _ | .clearing _ => !applied
        | _ => false
  | _ => false

/-- What an event makes of the system. -/
inductive Stepped (hashing : Hashing) (lower : String → String) (config : LoginConfig)
    (system : SignIns) (event : CredentialEvent)
    : SignIns → Prop
  | arrives (input : Credentials)
    : Stepped hashing lower config system event
        { system with calls := system.calls ++ [{ input, phase := .loading }] }
  | resets (hash : String) (mustChange : Bool)
    : Stepped hashing lower config system event
        { system with
            account :=
              { row := system.account.row.setPassword hash mustChange, wrongs := [], checks := 0 } }
  | enables (status : PrincipalStatus)
    : Stepped hashing lower config system event
        { system with
            account := { system.account with row := { system.account.row with status } } }
  /-- A call ends, or goes on to end, with nothing written. -/
  | ends {index call after calls}
    (acts : Processes.Acts system.calls calls index call (call.to after))
    (idle : call.phase.pending = none ∨ system.breaksOff event = true)
    (done : after.pending = none)
    : Stepped hashing lower config system event { system with calls }
  | begins {index call calls}
    (acts
      : Processes.Acts system.calls calls index call
          (call.to (.checking system.account.row)))
    (idle : call.phase.pending = none) (starts : system.begins lower event = true)
    (unlocked : system.account.row.lockedAt call.input.now = false)
    : Stepped hashing lower config system event
        { account := { system.account with checks := system.account.checks + 1 }, calls }
  | checks {index call read after calls}
    (acts : Processes.Acts system.calls calls index call (call.to after))
    (pending : call.phase.pending = some read) (still : after.pending = some read)
    : Stepped hashing lower config system event { system with calls }
  | records {index call read after calls}
    (acts : Processes.Acts system.calls calls index call (call.to after))
    (pending : call.phase.pending = some read) (done : after.pending = none)
    (own : system.recording event = some read)
    : Stepped hashing lower config system event
        { account :=
            { system.account with
                row :=
                  system.account.row.recordFailure (failures read)
                    (lockUntil config read call.input.now)
                wrongs := call.input.now :: system.account.wrongs }
          calls }
  | clears {index call after calls}
    (acts : Processes.Acts system.calls calls index call (call.to after))
    (pending : call.phase.pending.isSome) (done : after.pending = none)
    : Stepped hashing lower config system event
        { account := { row := system.account.row.clearFailures, wrongs := [], checks := 0 }
          calls }
  | rehashes {index call after calls} (hash : String)
    (acts : Processes.Acts system.calls calls index call (call.to after))
    (idle : call.phase.pending = none) (done : after.pending = none)
    : Stepped hashing lower config system event
        { account := { system.account with row := system.account.row.rehashPassword hash }, calls }

theorem stepped_await {system : SignIns} {index : Nat} {call next : CredentialCall} {hash : String}
    {account : Account} (found : system.calls[index]? = some call)
    (awaited : await hashing lower config system.account call hash = some (account, next))
    : Stepped hashing lower config system (.await index hash)
        { account, calls := system.calls.set index next } := by
  cases atPhase : call.phase with
  | loading =>
      have idle : call.phase.pending = none := by rw [atPhase]; rfl
      simp only [await, atPhase] at awaited
      split at awaited
      case isTrue finding =>
        split at awaited
        · cases awaited
          exact .ends ⟨found, rfl⟩ (.inl idle) rfl
        · split at awaited
          · cases awaited
            exact .ends ⟨found, rfl⟩ (.inl idle) rfl
          case isFalse unlocked active =>
            cases awaited
            refine .begins ⟨found, rfl⟩ idle ?_ (Bool.eq_false_iff.mpr unlocked)
            simp_all [SignIns.begins, admitted]
      case isFalse =>
        cases awaited
        exact .ends ⟨found, rfl⟩ (.inl idle) rfl
  | unknown =>
      simp only [await, atPhase] at awaited
      cases awaited
      exact .ends ⟨found, rfl⟩ (.inl (by rw [atPhase]; rfl)) rfl
  | checking read =>
      simp only [await, atPhase] at awaited
      split at awaited <;> cases awaited <;>
        exact .checks ⟨found, rfl⟩ (by rw [atPhase]; rfl) rfl
  | recording read =>
      simp only [await, atPhase] at awaited
      cases awaited
      refine .records ⟨found, rfl⟩ (by rw [atPhase]; rfl) rfl ?_
      simp [recording, found, atPhase]
  | clearing read =>
      simp only [await, atPhase] at awaited
      cases awaited
      refine .clears ⟨found, rfl⟩ (by rw [atPhase]; rfl) ?_
      split <;> rfl
  | rehashing read =>
      simp only [await, atPhase] at awaited
      cases awaited
      exact .rehashes hash ⟨found, rfl⟩ (by rw [atPhase]; rfl) rfl
  | _ => simp [await, atPhase] at awaited

/-- An attempt that breaks off has written all of its statement or nothing. -/
theorem stepped_reject {system : SignIns} {index : Nat} {call next : CredentialCall} {hash : String}
    {applied : Bool} {account : Account} {err : AppError}
    (found : system.calls[index]? = some call)
    (awaited : await hashing lower config system.account call hash = some (account, next))
    : Stepped hashing lower config system (.reject index hash applied)
        { account := if applied && call.phase ≠ .loading then account else system.account
          calls := system.calls.set index (call.to (.threw err)) } := by
  cases atPhase : call.phase with
  | loading =>
      simp only [ne_eq, not_true, decide_false, Bool.and_false]
      exact .ends ⟨found, rfl⟩ (.inl (by rw [atPhase]; rfl)) rfl
  | unknown =>
      simp only [await, atPhase] at awaited
      cases awaited
      simp only [ite_self]
      exact .ends ⟨found, rfl⟩ (.inl (by rw [atPhase]; rfl)) rfl
  | checking read =>
      have same : account = system.account := by
        simp only [await, atPhase] at awaited
        split at awaited <;> cases awaited <;> rfl
      rw [same, ite_self]
      exact .ends ⟨found, rfl⟩ (.inr (by simp [breaksOff, found, atPhase])) rfl
  | recording read =>
      cases applied with
      | false => exact .ends ⟨found, rfl⟩ (.inr (by simp [breaksOff, found, atPhase])) rfl
      | true =>
          simp only [await, atPhase] at awaited
          cases awaited
          refine .records ⟨found, rfl⟩ (by rw [atPhase]; rfl) rfl ?_
          simp [recording, found, atPhase]
  | clearing read =>
      cases applied with
      | false => exact .ends ⟨found, rfl⟩ (.inr (by simp [breaksOff, found, atPhase])) rfl
      | true =>
          simp only [await, atPhase] at awaited
          cases awaited
          exact .clears ⟨found, rfl⟩ (by rw [atPhase]; rfl) rfl
  | rehashing read =>
      cases applied with
      | false => exact .ends ⟨found, rfl⟩ (.inl (by rw [atPhase]; rfl)) rfl
      | true =>
          simp only [await, atPhase] at awaited
          cases awaited
          exact .rehashes hash ⟨found, rfl⟩ (by rw [atPhase]; rfl) rfl
  | _ => simp [await, atPhase] at awaited

theorem step_cases {system next : SignIns} {event : CredentialEvent}
    (taken : step hashing lower config system event = some next)
    : Stepped hashing lower config system event next := by
  cases event with
  | verifyCredentials input =>
      cases taken
      exact .arrives input
  | await index hash =>
      obtain ⟨call, found, advanced⟩ := Option.bind_eq_some_iff.mp taken
      obtain ⟨⟨account, after⟩, awaited, rfl⟩ := Option.map_eq_some_iff.mp advanced
      exact stepped_await found awaited
  | reject index hash applied =>
      obtain ⟨call, found, advanced⟩ := Option.bind_eq_some_iff.mp taken
      obtain ⟨⟨account, after⟩, rejected, rfl⟩ := Option.map_eq_some_iff.mp advanced
      obtain ⟨⟨answered, turned⟩, awaited, same⟩ := Option.map_eq_some_iff.mp rejected
      obtain ⟨rfl, rfl⟩ := Prod.mk.inj same
      exact stepped_reject found awaited
  | setPassword hash mustChange =>
      cases taken
      exact .resets hash mustChange
  | setStatus status =>
      cases taken
      exact .enables status

-----------------------------------------------------------------------------
-- The lock

/-- Whether an event that records a failure finds the row with no failure and no lock recorded
since its attempt read it.
-/
def losesNothing (system : SignIns) (event : CredentialEvent) : Bool :=
  (system.recording event).all fun read =>
    let row := system.account.row
    row.failedLogins ≤ read.failedLogins
      && (row.lockedUntil = none || row.lockedUntil = read.lockedUntil)

/-- The clocks of the wrong attempts from the one on that completed the maximum. -/
def pastMaximum (config : LoginConfig) (wrongs : List Int) : List Int :=
  if config.maxFailedLogins ≤ wrongs.length then
    wrongs.take (wrongs.length + 1 - config.maxFailedLogins)
  else []

theorem mem_pastMaximum_cons {now clock : Int} {wrongs : List Int}
    (member : clock ∈ pastMaximum config (now :: wrongs))
    : config.maxFailedLogins ≤ wrongs.length + 1
      ∧ (clock = now ∨ clock ∈ pastMaximum config wrongs) := by
  unfold pastMaximum at member ⊢
  split at member
  case isTrue reached =>
    rw [List.length_cons] at reached member
    refine ⟨reached, ?_⟩
    have more : wrongs.length + 1 + 1 - config.maxFailedLogins
        = (wrongs.length + 1 - config.maxFailedLogins) + 1 := by omega
    rw [more, List.take_succ_cons] at member
    rcases List.mem_cons.mp member with last | earlier
    · exact .inl last
    · right
      rw [if_pos]
      · exact earlier
      · -- Otherwise this is the attempt that completes the maximum.
        by_contra short
        have none : wrongs.length + 1 - config.maxFailedLogins = 0 := by omega
        rw [none] at earlier
        cases earlier
  case isFalse => cases member

/-- Every recorded wrong attempt counts, and from the maximum on each locks the row. -/
structure Locks (config : LoginConfig) (system : SignIns) : Prop where
  counted : system.account.wrongs.length ≤ system.account.row.failedLogins
  locked
    : ∀ clock ∈ pastMaximum config system.account.wrongs, ∃ lockedUntil,
        system.account.row.lockedUntil = some lockedUntil
        ∧ clock + config.lockoutMs ≤ lockedUntil
  unlocked
    : ∀ call ∈ system.calls, ∀ read, call.phase.pending = some read
      → read.lockedAt call.input.now = false

theorem locks_initial (row : PrincipalRow) : Locks config (initial row) := by
  refine ⟨Nat.zero_le _, fun clock member => ?_, fun call member => (nomatch member)⟩
  simp [pastMaximum, initial] at member

/-- What holds of the rows that calls have read holds after an event on one of them. -/
theorem pending_acts {P : CredentialCall → PrincipalRow → Prop} {before after : List CredentialCall}
    {index : Nat} {call : CredentialCall} {phase : CredentialPhase}
    (acts : Processes.Acts before after index call (call.to phase))
    (others : ∀ call ∈ before, ∀ read, call.phase.pending = some read → P call read)
    (acted : ∀ read, phase.pending = some read → P (call.to phase) read)
    : ∀ call ∈ after, ∀ read, call.phase.pending = some read → P call read := by
  intro other member
  rcases acts.mem_cases member with rfl | old
  · exact acted
  · exact others other old

/-- A call that has ended holds no row. -/
theorem not_of_done {P : PrincipalRow → Prop} {phase : CredentialPhase}
    (done : phase.pending = none)
    : ∀ read, phase.pending = some read → P read := by
  intro read pending
  rw [done] at pending
  cases pending

theorem Locks.step {system next : SignIns} {event : CredentialEvent} (locks : Locks config system)
    (kept : system.losesNothing event = true)
    (taken : step hashing lower config system event = some next)
    : Locks config next := by
  cases step_cases taken with
  | arrives input =>
      refine ⟨locks.counted, locks.locked, fun call member => ?_⟩
      rcases List.mem_append.mp member with old | new
      · exact locks.unlocked call old
      · rw [List.mem_singleton.mp new]
        intro read pending
        cases pending
  | resets hash mustChange =>
      refine ⟨Nat.zero_le _, fun clock member => ?_, locks.unlocked⟩
      simp [pastMaximum] at member
  | enables status => exact ⟨locks.counted, locks.locked, locks.unlocked⟩
  | ends acts idle done =>
      exact ⟨locks.counted, locks.locked, pending_acts acts locks.unlocked (not_of_done done)⟩
  | begins acts idle starts unlocked =>
      refine ⟨locks.counted, locks.locked, pending_acts acts locks.unlocked fun read pending => ?_⟩
      cases pending
      exact unlocked
  | checks acts pending still =>
      refine ⟨locks.counted, locks.locked, pending_acts acts locks.unlocked fun read held => ?_⟩
      exact locks.unlocked _ acts.mem_old read (pending.trans (still.symm.trans held))
  | @records index call read after calls acts pending done own =>
      simp only [losesNothing, own, Option.all_some, Bool.and_eq_true, decide_eq_true_eq,
        Bool.or_eq_true] at kept
      obtain ⟨fewer, lock⟩ := kept
      have counted : system.account.wrongs.length + 1 ≤ failures read :=
        Nat.succ_le_succ (Nat.le_trans locks.counted fewer)
      refine ⟨counted, fun clock member => ?_,
        pending_acts acts locks.unlocked (not_of_done done)⟩
      obtain ⟨reached, place⟩ := mem_pastMaximum_cons member
      refine ⟨call.input.now + config.lockoutMs, if_pos (Nat.le_trans reached counted), ?_⟩
      rcases place with rfl | earlier
      · exact Int.le_refl _
      · -- The lock of an earlier one had run out when this one read it.
        obtain ⟨lockedUntil, stored, covers⟩ := locks.locked clock earlier
        have read := locks.unlocked call acts.mem_old read pending
        rcases lock with none | same
        · rw [stored] at none
          cases none
        · rw [PrincipalRow.lockedAt, ← same, stored] at read
          simp only [Option.any_some, decide_eq_false_iff_not] at read
          omega
  | clears acts pending done =>
      refine ⟨Nat.zero_le _, fun clock member => ?_,
        pending_acts acts locks.unlocked (not_of_done done)⟩
      simp [pastMaximum] at member
  | rehashes hash acts idle done =>
      exact ⟨locks.counted, locks.locked, pending_acts acts locks.unlocked (not_of_done done)⟩

/-- Runs that lose no failure. -/
def Counting (hashing : Hashing) (lower : String → String) (config : LoginConfig)
    (start system : SignIns)
    : Prop :=
  Reaches (SignIns.step hashing lower config) (fun state event => state.losesNothing event = true)
    start system

theorem Counting.locks {row : PrincipalRow} {system : SignIns}
    (counting : Counting hashing lower config (initial row) system)
    : Locks config system :=
  counting.invariant (locks_initial row) fun locks kept taken => locks.step kept taken

/-- An attempt that begins before the lock-out of a wrong one has elapsed is refused. -/
theorem Locks.refuses {system : SignIns} (locks : Locks config system) {clock : Int}
    (past : clock ∈ pastMaximum config system.account.wrongs) {index : Nat}
    {call : CredentialCall} (found : system.calls[index]? = some call)
    (loading : call.phase = .loading) (finding : finds lower call.input system.account.row = true)
    (early : call.input.now < clock + config.lockoutMs) (hash : String)
    : SignIns.step hashing lower config system (.await index hash)
      = some { system with calls := system.calls.set index (call.to (.threw accountLocked)) } := by
  obtain ⟨lockedUntil, stored, covers⟩ := locks.locked clock past
  have locked : system.account.row.lockedAt call.input.now = true := by
    rw [PrincipalRow.lockedAt, stored, Option.any_some, decide_eq_true_eq]
    exact Int.lt_of_lt_of_le early covers
  simp [SignIns.step, CredentialEvent.call, found, advance, await, loading, finding, locked]

-----------------------------------------------------------------------------
-- Attempts in turn

/-- Whether an attempt that begins its password check finds no other between its own and what it
writes, and no lock that has run out; and whether none breaks off in between.
-/
def inTurn (lower : String → String) (system : SignIns) (event : CredentialEvent) : Bool :=
  (!system.begins lower event
      || system.calls.all (·.phase.pending.isNone)
        && system.account.row.lockedUntil.isNone)
    && !system.breaksOff event

/-- Whether a call is between the beginning of its check and what it writes, as a number. -/
def inFlight (call : CredentialCall) : Int := if call.phase.pending.isSome then 1 else 0

/-- The password checks begun are those recorded as failures and the one in flight. -/
structure InTurn (config : LoginConfig) (system : SignIns) : Prop where
  alone : Processes.holdings inFlight system.calls ≤ 1
  counted
    : system.account.checks
      ≤ system.account.row.failedLogins + Processes.holdings inFlight system.calls
  free : system.account.row.lockedUntil = none
    → system.account.row.failedLogins < config.maxFailedLogins
  bounded : system.account.checks ≤ config.maxFailedLogins
  current
    : ∀ call ∈ system.calls, ∀ read, call.phase.pending = some read
      → system.account.row.failedLogins ≤ read.failedLogins
        ∧ (system.account.row.lockedUntil = none
            ∨ system.account.row.lockedUntil = read.lockedUntil)

theorem inFlight_nonneg (call : CredentialCall) : 0 ≤ inFlight call := by
  unfold inFlight
  split <;> decide

theorem inFlight_of_none {c : CredentialCall} (idle : c.phase.pending = none)
    : inFlight c = 0 := by
  simp [inFlight, idle]

theorem inFlight_of_some {c : CredentialCall} {read : PrincipalRow}
    (pending : c.phase.pending = some read)
    : inFlight c = 1 := by
  simp [inFlight, pending]

/-- Where no check is in flight, no call holds a row. -/
theorem not_pending {calls : List CredentialCall}
    (quiet : Processes.holdings inFlight calls ≤ 0) {call : CredentialCall} (member : call ∈ calls)
    : call.phase.pending = none := by
  have atMost := Processes.le_holdings (fun call _ => inFlight_nonneg call) member
  cases pending : call.phase.pending with
  | none => rfl
  | some read =>
      rw [inFlight_of_some pending] at atMost
      omega

theorem inTurn_initial {row : PrincipalRow} (positive : 1 ≤ config.maxFailedLogins)
    (counters : row.failedLogins = 0)
    : InTurn config (initial row) := by
  refine ⟨?_, ?_, fun _ => ?_, Nat.zero_le _, fun call member => (nomatch member)⟩
  · simp [initial]
  · simp [initial]
  · simp only [initial, counters]
    exact positive

theorem InTurn.step {system next : SignIns} {event : CredentialEvent}
    (inTurn : InTurn config system) (positive : 1 ≤ config.maxFailedLogins)
    (kept : system.inTurn lower event = true)
    (taken : step hashing lower config system event = some next)
    : InTurn config next := by
  obtain ⟨alone, counted, free, bounded, current⟩ := inTurn
  simp only [SignIns.inTurn, Bool.and_eq_true, Bool.or_eq_true, Bool.not_eq_true',
    List.all_eq_true, Option.isNone_iff_eq_none] at kept
  obtain ⟨starting, whole⟩ := kept
  cases step_cases taken with
  | arrives input =>
      have same : Processes.holdings inFlight (system.calls ++ [{ input, phase := .loading }])
          = Processes.holdings inFlight system.calls := by
        simp [inFlight, CredentialPhase.pending]
      refine ⟨same ▸ alone, same ▸ counted, free, bounded, fun call member => ?_⟩
      rcases List.mem_append.mp member with old | new
      · exact current call old
      · rw [List.mem_singleton.mp new]
        intro read pending
        cases pending
  | resets hash mustChange =>
      refine ⟨alone, ?_, fun _ => positive, Nat.zero_le _, fun call member read pending => ?_⟩
      · have := Processes.holdings_nonneg fun call (_ : call ∈ system.calls) => inFlight_nonneg call
        simpa [PrincipalRow.setPassword] using this
      · exact ⟨Nat.zero_le _, .inl rfl⟩
  | enables status => exact ⟨alone, counted, free, bounded, current⟩
  | @ends index call after calls acts idle done =>
      have idle : call.phase.pending = none := idle.resolve_right (by simp [whole])
      have same := acts.holdings inFlight
      rw [inFlight_of_none idle, inFlight_of_none (c := call.to after) done, Int.sub_zero,
        Int.add_zero] at same
      exact ⟨same ▸ alone, same ▸ counted, free, bounded,
        pending_acts acts current (not_of_done done)⟩
  | @begins index call calls acts idle starts unlocked =>
      obtain ⟨quiet, unset⟩ := starting.resolve_left (by simp [starts])
      have empty : Processes.holdings inFlight system.calls = 0 :=
        Processes.holdings_eq_zero fun other member => inFlight_of_none (quiet other member)
      have one : Processes.holdings inFlight calls = 1 := by
        rw [acts.holdings inFlight, empty, inFlight_of_none idle,
          inFlight_of_some (c := call.to _) rfl]
        rfl
      have below := free unset
      have counted : ((system.account.checks + 1 : Nat) : Int)
          ≤ system.account.row.failedLogins + Processes.holdings inFlight calls := by omega
      have bounded : system.account.checks + 1 ≤ config.maxFailedLogins := by omega
      refine ⟨Int.le_of_eq one, counted, free, bounded,
        pending_acts acts current fun read pending => ?_⟩
      cases pending
      exact ⟨Nat.le_refl _, .inl unset⟩
  | @checks index call read after calls acts pending still =>
      have same := acts.holdings inFlight
      rw [inFlight_of_some pending, inFlight_of_some (c := call.to after) still,
        Int.sub_add_cancel] at same
      refine ⟨same ▸ alone, same ▸ counted, free, bounded,
        pending_acts acts current fun other held => ?_⟩
      exact current call acts.mem_old other (pending.trans (still.symm.trans held))
  | @records index call read after calls acts pending done own =>
      obtain ⟨atMost, -⟩ := current call acts.mem_old read pending
      have fewer := acts.holdings inFlight
      rw [inFlight_of_some pending, inFlight_of_none (c := call.to after) done] at fewer
      have quiet : Processes.holdings inFlight calls ≤ 0 := by omega
      have nonneg := Processes.holdings_nonneg fun call (_ : call ∈ calls) => inFlight_nonneg call
      have counted : (system.account.checks : Int)
          ≤ failures read + Processes.holdings inFlight calls := by
        simp only [failures, Nat.cast_add]
        omega
      refine ⟨Int.le_trans quiet (by decide), counted, fun unset => ?_, bounded,
        fun other member read pending => ?_⟩
      · -- No lock is recorded below the maximum only.
        simp only [PrincipalRow.recordFailure, lockUntil] at unset
        split at unset
        case isTrue => cases unset
        case isFalse below => exact Nat.lt_of_not_le below
      · rw [not_pending quiet member] at pending
        cases pending
  | @clears index call after calls acts pending done =>
      obtain ⟨read, pending⟩ := Option.isSome_iff_exists.mp pending
      have fewer := acts.holdings inFlight
      rw [inFlight_of_some pending, inFlight_of_none (c := call.to after) done] at fewer
      have quiet : Processes.holdings inFlight calls ≤ 0 := by omega
      have nonneg := Processes.holdings_nonneg fun call (_ : call ∈ calls) => inFlight_nonneg call
      refine ⟨Int.le_trans quiet (by decide), ?_, fun _ => positive, Nat.zero_le _,
        fun other member read pending => ?_⟩
      · simpa [PrincipalRow.clearFailures] using nonneg
      · rw [not_pending quiet member] at pending
        cases pending
  | @rehashes index call after calls hash acts idle done =>
      have same := acts.holdings inFlight
      rw [inFlight_of_none idle, inFlight_of_none (c := call.to after) done, Int.sub_zero,
        Int.add_zero] at same
      exact ⟨same ▸ alone, same ▸ counted, free, bounded,
        pending_acts acts current (not_of_done done)⟩

/-- An event that records a failure is one of a call that has read the row. -/
theorem pending_of_recording {system : SignIns} {event : CredentialEvent} {read : PrincipalRow}
    (own : system.recording event = some read)
    : ∃ call ∈ system.calls, call.phase.pending = some read := by
  unfold recording at own
  split at own
  case h_3 => cases own
  all_goals
    obtain ⟨call, found, held⟩ := Option.bind_eq_some_iff.mp own
    split at held
    case h_1 atPhase =>
      cases held
      exact ⟨call, List.mem_of_getElem? found, by rw [atPhase]; rfl⟩
    case h_2 => cases held

/-- Attempts in turn lose no failure. -/
theorem InTurn.losesNothing {system : SignIns} (inTurn : InTurn config system)
    (event : CredentialEvent)
    : system.losesNothing event = true := by
  unfold SignIns.losesNothing
  rw [Option.all_eq_true]
  intro read own
  obtain ⟨call, member, pending⟩ := pending_of_recording own
  simpa using inTurn.current call member read pending

theorem inTurn_reached {row : PrincipalRow} (positive : 1 ≤ config.maxFailedLogins)
    (counters : row.failedLogins = 0) {system : SignIns}
    (reached
      : Reaches (SignIns.step hashing lower config)
          (fun state event => state.inTurn lower event = true) (initial row) system)
    : InTurn config system :=
  reached.invariant (inTurn_initial positive counters)
    fun inTurn kept taken => inTurn.step positive kept taken

theorem counting_of_inTurn {row : PrincipalRow} (positive : 1 ≤ config.maxFailedLogins)
    (counters : row.failedLogins = 0) {system : SignIns}
    (reached
      : Reaches (SignIns.step hashing lower config)
          (fun state event => state.inTurn lower event = true) (initial row) system)
    : Counting hashing lower config (initial row) system := by
  induction reached with
  | refl => exact .refl
  | tail before _ taken ih =>
      exact ih.tail ((inTurn_reached positive counters before).losesNothing _) taken

/-- In runs in which no failure is lost, every attempt that begins before the lock-out of a wrong
one past the maximum has elapsed is refused, whatever its password. Where attempts take turns as
well, and none comes after a lock that has run out, no more passwords are checked than the
maximum.
-/
theorem wrong_passwords_lock (hashing : Hashing) (lower : String → String) (config : LoginConfig)
    (row : PrincipalRow)
    : (∀ system, Counting hashing lower config (initial row) system
        → ∀ clock ∈ pastMaximum config system.account.wrongs, ∀ index call,
            system.calls[index]? = some call → call.phase = .loading
            → finds lower call.input system.account.row = true
            → call.input.now < clock + config.lockoutMs
            → ∀ hash, step hashing lower config system (.await index hash)
                = some
                    { system with
                        calls := system.calls.set index (call.to (.threw accountLocked)) })
      ∧ (1 ≤ config.maxFailedLogins → row.failedLogins = 0
          → ∀ system,
              Reaches (step hashing lower config)
                (fun state event => state.inTurn lower event = true) (initial row) system
              → Counting hashing lower config (initial row) system
                ∧ system.account.checks ≤ config.maxFailedLogins) := by
  refine ⟨fun system counting clock past index call found loading finding early hash => ?_,
    fun positive counters system reached => ?_⟩
  · exact counting.locks.refuses past found loading finding early hash
  · exact ⟨counting_of_inTurn positive counters reached,
      (inTurn_reached positive counters reached).bounded⟩

end SignIns

-----------------------------------------------------------------------------
-- Guesses side by side

/-- What the runtime answers for the passwords `correct horse` and `wrong` and one salt. -/
def sampleHashing : Hashing where
  normalize text := text
  base64url
    | "AQIDBAUGBwgJCgsMDQ4PEA" => (List.range 16).map fun i => UInt8.ofNat (i + 1)
    | "pNOIejdYHvzXJd29ukg7ijy3IczJ24xlaGFTnMTc0Cc" =>
        [ 164, 211, 136, 122, 55, 88, 30, 252, 215, 37, 221, 189, 186, 72, 59, 138, 60, 183, 33,
          204, 201, 219, 140, 101, 104, 97, 83, 156, 196, 220, 208, 39 ]
    | _ => []
  number
    | "65536" => some 65536
    | "8" => some 8
    | "1" => some 1
    | _ => none
  scrypt password _ _ _ _ _ :=
    match password with
    | "correct horse" =>
        some
          [ 164, 211, 136, 122, 55, 88, 30, 252, 215, 37, 221, 189, 186, 72, 59, 138, 60, 183, 33,
            204, 201, 219, 140, 101, 104, 97, 83, 156, 196, 220, 208, 39 ]
    | "wrong" =>
        some
          [ 212, 157, 170, 126, 28, 140, 195, 142, 180, 99, 243, 175, 148, 203, 36, 84, 40, 90, 178,
            166, 252, 167, 147, 47, 249, 34, 147, 84, 93, 1, 171, 68 ]
    | _ => none

/-- An operator whose password is `correct horse`. -/
def sampleOperator : PrincipalRow where
  id := "p"
  kind := .operator
  tenantId := none
  email := "ops@cixtech.test"
  role := "owner"
  status := .active
  mustChangePassword := false
  totpConfirmed := true
  passwordHash :=
    "scrypt$65536$8$1$AQIDBAUGBwgJCgsMDQ4PEA$pNOIejdYHvzXJd29ukg7ijy3IczJ24xlaGFTnMTc0Cc"
  failedLogins := 0
  lockedUntil := none

def sampleInput (password : String) (now : Int) : Credentials :=
  { kind := .operator, email := "ops@cixtech.test", password, tenantId := none, now }

def guess (password : String) (now : Int) : CredentialEvent :=
  .verifyCredentials (sampleInput password now)

/-- One await of each of the first calls. -/
def awaitEach (calls : Nat) : List CredentialEvent :=
  (List.range calls).map fun call => .await call ""

/-- Five wrong guesses that read the row before any of them has written it, and then the right
password.
-/
def guessesAtOnce : List CredentialEvent :=
  List.replicate 5 (guess "wrong" 0) ++ awaitEach 5 ++ awaitEach 5 ++ awaitEach 5
    ++ [guess "correct horse" 1]

/-- All five fail and count as one failure, so that the next attempt is checked. -/
theorem guesses_at_once_unlocked
    : ∃ system,
        Reaches (SignIns.step sampleHashing id defaultLoginConfig) (fun _ _ => True)
          (SignIns.initial sampleOperator) system
        ∧ system.account.wrongs = [0, 0, 0, 0, 0]
        ∧ system.account.row.failedLogins = 1
        ∧ system.calls[5]? = some { input := sampleInput "correct horse" 1, phase := .loading }
        ∧ ((SignIns.step sampleHashing id defaultLoginConfig system (.await 5 "")).any fun next =>
            (next.calls[5]?).any (·.phase.pending.isSome)
            && decide (defaultLoginConfig.maxFailedLogins < next.account.checks))
          = true :=
  Reaches.exists_of_exec guessesAtOnce (by decide +kernel)

/-- Five wrong guesses in turn, and then the right password. -/
def guessesInTurn : List CredentialEvent :=
  (List.range 5).flatMap
      (fun call => [guess "wrong" 0, .await call "", .await call "", .await call ""])
    ++ [guess "correct horse" 1]

/-- The attempt after five in turn is refused. -/
theorem wrong_passwords_lock_in_turn
    : ∃ system,
        system.account.checks ≤ defaultLoginConfig.maxFailedLogins
        ∧ SignIns.step sampleHashing id defaultLoginConfig system (.await 5 "")
          = some
              { system with
                  calls :=
                    system.calls.set 5
                      { input := sampleInput "correct horse" 1, phase := .threw accountLocked } }
        ∧ Reaches (SignIns.step sampleHashing id defaultLoginConfig)
            (fun state event => state.inTurn id event = true) (SignIns.initial sampleOperator)
            system := by
  have runs : ∃ system,
      Reaches (SignIns.step sampleHashing id defaultLoginConfig)
        (fun state event => state.inTurn id event = true) (SignIns.initial sampleOperator) system
      ∧ system.account.wrongs = [0, 0, 0, 0, 0]
      ∧ system.calls[5]? = some { input := sampleInput "correct horse" 1, phase := .loading }
      ∧ SignIns.finds id (sampleInput "correct horse" 1) system.account.row = true :=
    Reaches.exists_of_exec guessesInTurn (by decide +kernel)
  obtain ⟨system, reached, wrongs, found, finding⟩ := runs
  have lock :=
    SignIns.wrong_passwords_lock sampleHashing id defaultLoginConfig sampleOperator
  obtain ⟨counting, bounded⟩ := lock.2 (by decide) rfl system reached
  refine ⟨system, bounded, ?_, reached⟩
  exact lock.1 system counting 0 (by rw [wrongs]; decide) 5 _ found rfl finding (by decide) ""

end Cixtech.Auth
