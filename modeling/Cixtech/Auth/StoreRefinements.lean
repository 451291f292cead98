import Cixtech.Admin.ControlPlane
import Cixtech.Auth.AuthRoutes

/-! The handlers of the store, against the models that single use, lock-out and sessions are proved
of: a run of handlers side by side is one of the model's calls, an await for an await, and a session
is made and resolved as in its tables.
-/

namespace Cixtech.Auth

open Cixtech.Common Cixtech.Foundation Handlers AuthStore

-----------------------------------------------------------------------------
-- The second factor

namespace SecondFactor

section Calls

variable (config : AuthConfig) (principalId : String)

/-- What is asked of the second factor of an account. -/
inductive Request
  | verifySecondFactor (code : String)
  | confirmTotp (code : String)

def Request.call (now : Int) : Request → FactorCall
  | .verifySecondFactor code => { code, now, phase := .verifying }
  | .confirmTotp code => { code, now, phase := .enrolling }

def Request.event (now : Int) : Request → FactorEvent
  | .verifySecondFactor code => .verifySecondFactor code now
  | .confirmTotp code => .confirmTotp code now

def verifies (handler : AuthHandler Bool) : AuthHandler FactorPhase := do
  let ok ← handler
  pure (.verified ok)

def issues (handler : AuthHandler (List String)) : AuthHandler FactorPhase := do
  let codes ← handler
  pure (.issued codes)

def serve : Request → AuthHandler FactorPhase
  | .verifySecondFactor code => verifies (AuthStore.verifySecondFactor config principalId code)
  | .confirmTotp code => issues (AuthStore.confirmTotp config principalId code)

/-- What is left of a call. The codes that a confirmation stores have been drawn. -/
def Left (call : FactorCall) (handler : AuthHandler FactorPhase) : Prop :=
  match call.phase with
  | .verifying => handler = verifies (verifySecondFactorAt config principalId call.code call.now)
  | .advancing _ step => handler = verifies (acceptStep principalId step)
  | .spending => handler = verifies (consumeRecoveryCode config principalId call.code)
  | .enrolling => handler = issues (confirmTotpAt config principalId call.code call.now)
  | .confirming step =>
      ∃ codes, handler = issues (storeCodes config principalId step codes)
  | .threw _ => ∃ err, handler = Handler.throws err
  | phase => handler = pure phase

variable {config} {principalId} {call : FactorCall} {command : Command}
  {next : Except Thrown command.Answer → AuthHandler FactorPhase}

-- What it computes is of no account here.
attribute [local irreducible] verifyTotp

/-- Behind the check of a code, a call advances the step or looks for a recovery code. -/
theorem Left.acceptOrSpend (call : FactorCall) (lastStep accepted : Option Int) (self : Nat)
    (input : Input) (world : World Command Command.Answer AuthData)
    : let settled :=
        settle (authMachine config) self input
          (verifies (AuthStore.acceptOrSpend config principalId call.code accepted)) world
      settled.2.data = world.data
        ∧ Left config principalId
          (call.to (accepted.elim .spending fun step => .advancing lastStep step)) settled.1 := by
  cases accepted with
  | none => exact ⟨rfl, rfl⟩
  | some step => exact ⟨rfl, rfl⟩

/-- Behind the check of a first code, a call stores the codes that it draws, or throws. -/
theorem Left.enrolBy (call : FactorCall) (accepted : Option Int) (self : Nat) (input : Input)
    (world : World Command Command.Answer AuthData)
    : let settled :=
        settle (authMachine config) self input
          (issues (AuthStore.enrolBy config principalId accepted)) world
      settled.2.data = world.data
        ∧ Left config principalId
          (call.to
            (accepted.elim (.threw (authError "That code is not correct")) fun step =>
              .confirming step))
          settled.1 := by
  cases accepted with
  | none => exact ⟨rfl, _, rfl⟩
  | some step => exact ⟨rfl, _, rfl⟩

/-- A call that awaits goes on as the model's does, whatever it is answered, and throws what it is
refused.
-/
theorem Left.await (left : Left config principalId call (.perform command next))
    (world : World Command Command.Answer AuthData) (self : Nat) (input : Input)
    : ∃ codes later after,
      SecondFactor.await config.crypto (world.data.factors principalId) call codes
          = some (later, after)
        ∧ (∀ err, next (.error err) = Handler.throws err)
        ∧ let carried := world.carriedOut (authMachine config) self command input
          let settled := settle (authMachine config) self input (next carried.1) carried.2
          carried.2.data.factors principalId = later
            ∧ settled.2.data.factors principalId = later
            ∧ Left config principalId after settled.1 := by
  cases atPhase : call.phase with
  | verifying =>
      simp only [Left, atPhase] at left
      cases show Handler.perform command next = .perform (.confirmedSecret principalId) _ from left
      simp only [SecondFactor.await, atPhase, World.carriedOut, authMachine, perform]
      cases (world.data.factors principalId).confirmedSecret with
      | none => exact ⟨[], _, _, rfl, fun _ => rfl, rfl, rfl, rfl⟩
      | some totp =>
          obtain ⟨same, goesOn⟩ :=
            Left.acceptOrSpend call totp.lastStep
              (verifyTotp config.crypto totp.secret call.code call.now totp.lastStep) self input _
          refine ⟨[], _, _, ?_, fun _ => rfl, rfl,
            congrArg (fun data => data.factors principalId) same, goesOn⟩
          dsimp only
          cases verifyTotp config.crypto totp.secret call.code call.now totp.lastStep <;> rfl
  | advancing read step =>
      simp only [Left, atPhase] at left
      cases show Handler.perform command next = .perform (.advanceStep principalId step) _ from left
      simp only [SecondFactor.await, atPhase]
      exact ⟨[], _, _, rfl, fun _ => rfl, Function.update_self .., Function.update_self .., rfl⟩
  | spending =>
      simp only [Left, atPhase] at left
      cases show Handler.perform command next = .perform (.spend principalId _) _ from left
      simp only [SecondFactor.await, atPhase]
      exact ⟨[], _, _, rfl, fun _ => rfl, Function.update_self .., Function.update_self .., rfl⟩
  | enrolling =>
      simp only [Left, atPhase] at left
      cases show Handler.perform command next = .perform (.pendingSecret principalId) _ from left
      simp only [SecondFactor.await, atPhase, World.carriedOut, authMachine, perform]
      cases (world.data.factors principalId).pendingSecret with
      | none => exact ⟨[], _, _, rfl, fun _ => rfl, rfl, rfl, _, rfl⟩
      | some secret =>
          by_cases empty : secret = ""
          · subst empty
            exact ⟨[], _, _, rfl, fun _ => rfl, rfl, rfl, _, rfl⟩
          · obtain ⟨same, goesOn⟩ :=
              Left.enrolBy call
                (verifyTotp config.crypto secret call.code call.now none) self input _
            simp only [Handler.bind, Option.getD_some, if_neg empty]
            refine ⟨[], _, _, ?_, fun _ => rfl, rfl,
              congrArg (fun data => data.factors principalId) same, goesOn⟩
            cases verifyTotp config.crypto secret call.code call.now none <;> rfl
  | confirming step =>
      simp only [Left, atPhase] at left
      obtain ⟨codes, left⟩ := left
      cases show Handler.perform command next = .perform (.confirm principalId step _) _ from left
      simp only [SecondFactor.await, atPhase, World.carriedOut, authMachine, perform]
      cases confirmed
        : (world.data.factors principalId).confirm step (codes.map config.crypto.hashToken) with
      | none =>
        exact ⟨codes, world.data.factors principalId,
          call.to (.threw (.plain "duplicate key value violates unique constraint")),
          by simp_all, fun _ => rfl, rfl, rfl, _, rfl⟩
      | some later =>
        exact ⟨codes, later, call.to (.issued codes), by simp_all, fun _ => rfl,
          Function.update_self .., Function.update_self .., rfl⟩
  | verified ok =>
      simp only [Left, atPhase] at left
      cases left
  | issued codes =>
      simp only [Left, atPhase] at left
      cases left
  | threw err =>
      simp only [Left, atPhase] at left
      obtain ⟨err, left⟩ := left
      cases left

/-- A request arrives, and runs up to its first await. -/
theorem Left.arrives (request : Request) (self : Nat) (input : Input)
    (world : World Command Command.Answer AuthData)
    : let settled :=
        settle (authMachine config) self input (serve config principalId request) world
      settled.2.data = world.data
        ∧ Left config principalId (request.call input.now) settled.1 := by
  cases request <;> exact ⟨rfl, rfl⟩

end Calls

section Runs

variable {config : AuthConfig} {principalId : String}

/-- The handlers stand where the calls of the model do. -/
structure Simulated (config : AuthConfig) (principalId : String)
    (system : System Command Command.Answer Thrown FactorPhase AuthData) (factor : SecondFactor)
    : Prop where
  rows : system.world.data.factors principalId = factor.rows
  calls : List.Forall₂ (Left config principalId) factor.calls system.handlers

/-- Each event of the handlers is one of the calls. -/
theorem Simulated.step
    {system next : System Command Command.Answer Thrown FactorPhase AuthData}
    {factor : SecondFactor} (simulated : Simulated config principalId system factor)
    {event : Event Request Thrown Input}
    (taken : system.step (authMachine config) (serve config principalId) event = some next)
    : ∃ event later, SecondFactor.step config.crypto factor event = some later
        ∧ Simulated config principalId next later := by
  obtain ⟨rows, calls⟩ := simulated
  cases event with
  | arrives request input =>
      cases taken
      obtain ⟨same, left⟩ := Left.arrives request system.handlers.length input system.world
      refine ⟨request.event input.now,
        { factor with calls := factor.calls ++ [request.call input.now] }, ?_, ?_, ?_⟩
      · cases request <;> rfl
      · exact (congrArg (fun data => data.factors principalId) same).trans rows
      · exact List.rel_append calls (.cons left .nil)
  | await self input =>
      simp only [System.step] at taken
      split at taken
      · next command rest there =>
        cases taken
        obtain ⟨call, found, left⟩ := exists_call_of_forall₂ calls there
        obtain ⟨codes, later, after, awaited, -, -, same, goesOn⟩ :=
          left.await system.world self input
        refine ⟨.await self codes, { rows := later, calls := factor.calls.set self after }, ?_,
          same, forall₂_set calls self goesOn⟩
        rw [rows] at awaited
        simp [SecondFactor.step, FactorEvent.call, found, advance, awaited]
      · cases taken
  | reject self input applied err =>
      simp only [System.step] at taken
      split at taken
      · next command rest there =>
        cases taken
        obtain ⟨call, found, left⟩ := exists_call_of_forall₂ calls there
        obtain ⟨codes, later, after, awaited, throws, same, -⟩ :=
          left.await system.world self input
        refine ⟨.reject self codes applied,
          { rows := if applied then later else factor.rows
            calls := factor.calls.set self (call.to (.threw (.plain "connection lost"))) },
          ?_, ?_, ?_⟩
        · rw [rows] at awaited
          simp [SecondFactor.step, FactorEvent.call, found, advance, awaited]
        · simp only [System.goesOn, throws]
          cases applied
          · exact rows
          · exact same
        · simp only [System.goesOn, throws]
          exact forall₂_set calls self ⟨err, rfl⟩
      · cases taken

/-- Whatever handlers of an account's second factor run side by side, and whatever becomes of what
they await: some run of the model comes to the same rows, with a call in the phase of each handler.
By induction on the run.
-/
theorem refines_handlers (config : AuthConfig) (principalId : String) (data : AuthData)
    (system : System Command Command.Answer Thrown FactorPhase AuthData)
    (reached
      : Reaches (System.step (authMachine config) (serve config principalId)) (fun _ _ => True)
          { world := { data, trace := [] }, handlers := [] } system)
    : ∃ factor,
        Reaches (SecondFactor.step config.crypto) (fun _ _ => True)
          { rows := data.factors principalId, calls := [] } factor
        ∧ Simulated config principalId system factor := by
  refine exists_simulated reached ⟨rfl, .nil⟩ fun simulated taken => ?_
  obtain ⟨event, later, follows, same⟩ := simulated.step taken
  exact ⟨later, .tail .refl trivial follows, same⟩

end Runs

end SecondFactor

-----------------------------------------------------------------------------
-- Passwords

namespace SignIns

section Calls

variable (config : AuthConfig) (principalId : String)

/-- The account is the only one, as it is read. -/
def Stands (data : AuthData) (row : PrincipalRow) : Prop :=
  ∃ stored, data.tables.principals = [stored] ∧ data.joined stored = row ∧ row.id = principalId

def answers (handler : AuthHandler (Outcome × Principal)) : AuthHandler CredentialPhase := do
  let (outcome, principal) ← handler
  pure (.returned outcome principal)

/-- Credentials are checked at the clock of the request's arrival. -/
def serve (input : Credentials) : AuthHandler CredentialPhase :=
  answers (verifyCredentials config input.kind input.email input.password input.tenantId)

/-- What is returned after the last statement about a right password. -/
def accepts (row : PrincipalRow) (handler : AuthHandler Unit) : AuthHandler CredentialPhase :=
  answers do
    handler
    pure (outcomeOf row.toPrincipal, row.toPrincipal)

/-- What is left of a call. A new hash is stored after it has been made. -/
def Left (call : CredentialCall) (handler : AuthHandler CredentialPhase) : Prop :=
  let input := call.input
  match call.phase with
  | .loading =>
      handler
        = answers
          (verifyCredentialsAt config input.kind input.email input.password input.tenantId
            input.now)
  | .unknown => handler = answers (checkDecoy input.password)
  | .checking row =>
      row.id = principalId ∧ handler = answers (checkPassword config row input.password input.now)
  | .recording row => row.id = principalId ∧ handler = answers (recordWrong config row input.now)
  | .clearing row =>
      row.id = principalId ∧ handler = answers (recordRight config row input.password)
  | .rehashing row =>
      row.id = principalId
        ∧ (handler = accepts row (hashAnew row input.password)
          ∨ ∃ hash, handler = accepts row (send (.rehashPassword row.id hash)))
  | .returned outcome principal => handler = pure (.returned outcome principal)
  | .threw _ => ∃ err, handler = Handler.throws err

variable {principalId}

-- What these compute is of no account here.
attribute [local irreducible] verifyPassword needsRehash

/-- An update of the account's row, beside columns that the reading joins. -/
theorem Stands.update {data : AuthData} {row : PrincipalRow}
    (stands : Stands principalId data row) (change : PrincipalRow → PrincipalRow)
    (keeps : ∀ row, (change row).id = row.id)
    (joins : ∀ stored, data.joined (change stored) = change (data.joined stored))
    : Stands principalId (data.withTables (data.tables.updatePrincipal principalId change keeps))
        (change row) := by
  obtain ⟨stored, alone, rfl, own⟩ := stands
  have own' : stored.id = principalId := own
  refine ⟨change stored, ?_, joins stored, (keeps _).trans own⟩
  simp [AuthData.withTables, SessionTables.updatePrincipal, Table.update, alone, own']

theorem Stands.byEmail {data : AuthData} {row : PrincipalRow}
    (stands : Stands principalId data row) (input : Credentials) (first : Nat)
    : data.byEmail config.lower input.kind input.email input.tenantId first
      = if finds config.lower input row then some row else none := by
  obtain ⟨stored, alone, rfl, -⟩ := stands
  change (let found := data.tables.principals.filter (finds config.lower input)
    found[first % found.length]?.map data.joined)
      = if finds config.lower input stored then some (data.joined stored) else none
  rw [alone]
  cases found : finds config.lower input stored with
  | false => simp [found]
  | true => simp [found, Nat.mod_one]

/-- Behind the check of a password, a call clears the failures or records one. -/
theorem Left.recordChecked (call : CredentialCall) (row : PrincipalRow)
    (own : row.id = principalId) (good : Bool) (self : Nat) (input : Input)
    (world : World Command Command.Answer AuthData)
    : let settled :=
        settle (authMachine config) self input
          (answers (AuthStore.recordChecked config row call.input.password call.input.now good))
          world
      settled.2.data = world.data
        ∧ Left config principalId (call.to (bif good then .clearing row else .recording row))
          settled.1 := by
  cases good with
  | false => exact ⟨rfl, own, rfl⟩
  | true => exact ⟨rfl, own, rfl⟩

/-- What is found under the address is turned away, or has its password checked. -/
theorem Left.checkFound (call : CredentialCall) (row : PrincipalRow)
    (own : row.id = principalId) (self : Nat) (input : Input)
    (world : World Command Command.Answer AuthData)
    : let settled :=
        settle (authMachine config) self input
          (answers
            (AuthStore.checkFound config call.input.password call.input.now
              (if finds config.lower call.input row then some row else none)))
          world
      settled.2.data = world.data
        ∧ ∀ account hash, account.row = row
          → call.phase = .loading
          → ∃ after later, SignIns.await config.hashing config.lower config.login account call hash
              = some (later, after)
            ∧ later.row = row ∧ Left config principalId after settled.1 := by
  by_cases found : finds config.lower call.input row = true
  · by_cases locked : row.lockedAt call.input.now = true
    · simp only [found, AuthStore.checkFound, if_true, locked]
      refine ⟨rfl, fun account hash same atPhase => ?_⟩
      subst same
      simp only [SignIns.await, atPhase, found, locked, if_true]
      exact ⟨_, _, rfl, rfl, _, rfl⟩
    · by_cases active : row.status = .active
      · simp only [found, AuthStore.checkFound, if_true, locked, active]
        refine ⟨rfl, fun account hash same atPhase => ?_⟩
        subst same
        simp only [SignIns.await, atPhase, found, locked, active, if_true]
        exact ⟨_, _, rfl, rfl, own, rfl⟩
      · simp only [found, AuthStore.checkFound, if_true, locked, ne_eq, active]
        refine ⟨rfl, fun account hash same atPhase => ?_⟩
        subst same
        simp only [SignIns.await, atPhase, found, locked, active, if_true, ne_eq]
        exact ⟨_, _, rfl, rfl, _, rfl⟩
  · simp only [found, AuthStore.checkFound]
    refine ⟨rfl, fun account hash same atPhase => ?_⟩
    subst same
    simp only [SignIns.await, atPhase, found]
    exact ⟨_, _, rfl, rfl, rfl⟩

/-- Behind a success the hash is made anew, or the call returns. -/
theorem Left.rehash (call : CredentialCall) (row : PrincipalRow) (self : Nat) (input : Input)
    (world : World Command Command.Answer AuthData)
    : let settled :=
        settle (authMachine config) self input
          (accepts row (AuthStore.rehash config row call.input.password)) world
      settled.2.data = world.data
        ∧ Left config row.id
          (call.to
            (if needsRehash config.hashing row.passwordHash then .rehashing row
              else .returned (outcomeOf row.toPrincipal) row.toPrincipal))
          settled.1 := by
  cases anew : needsRehash config.hashing row.passwordHash with
  | false =>
      simp only [AuthStore.rehash, anew]
      exact ⟨rfl, rfl⟩
  | true =>
      simp only [AuthStore.rehash, anew]
      exact ⟨rfl, rfl, .inl rfl⟩

/-- A request arrives, and runs up to its first await. -/
theorem Left.arrives (principalId : String) (asked : Credentials) (self : Nat) (input : Input)
    (world : World Command Command.Answer AuthData)
    : let settled := settle (authMachine config) self input (serve config asked) world
      settled.2.data = world.data
        ∧ Left config principalId
          { input := { asked with now := input.now }, phase := .loading } settled.1 :=
  ⟨rfl, rfl⟩

variable {config} {command : Command}
  {next : Except Thrown command.Answer → AuthHandler CredentialPhase}

/-- A call that awaits goes on as the model's does, and throws what it is refused. A hash that has
been made, and not stored, moves nothing.
-/
theorem Left.await {call : CredentialCall} {account : Account}
    (left : Left config principalId call (.perform command next))
    {world : World Command Command.Answer AuthData}
    (stands : Stands principalId world.data account.row) (self : Nat) (input : Input)
    : ∃ (hash : String) (later : Account) (after : CredentialCall) (moved : Bool),
      SignIns.await config.hashing config.lower config.login account call hash
          = some (later, after)
        ∧ (call.phase = .loading → later.row = account.row)
        ∧ (∀ err, next (.error err) = Handler.throws err)
        ∧ let carried := world.carriedOut (authMachine config) self command input
          let settled := settle (authMachine config) self input (next carried.1) carried.2
          Stands principalId carried.2.data (if moved then later else account).row
            ∧ settled.2.data = carried.2.data
            ∧ Left config principalId (if moved then after else call) settled.1 := by
  cases atPhase : call.phase with
  | loading =>
      simp only [Left, atPhase] at left
      cases show Handler.perform command next = .perform (.byEmail ..) _ from left
      have own : account.row.id = principalId := by
        obtain ⟨_, -, -, own⟩ := stands
        exact own
      simp only [World.carriedOut, authMachine, perform]
      rw [stands.byEmail config]
      obtain ⟨same, goesOn⟩ := Left.checkFound config call account.row own self input _
      obtain ⟨after, later, awaited, kept, goesOn⟩ := goesOn account "" rfl atPhase
      exact ⟨"", later, after, true, awaited, fun _ => kept, fun _ => rfl, kept ▸ stands, same,
        goesOn⟩
  | unknown =>
      simp only [Left, atPhase] at left
      cases show Handler.perform command next = .perform (.verifyPassword ..) _ from left
      simp only [SignIns.await, atPhase]
      exact ⟨"", _, _, true, rfl, fun _ => rfl, fun _ => rfl, stands, rfl, _, rfl⟩
  | checking row =>
      simp only [Left, atPhase] at left
      obtain ⟨own, left⟩ := left
      cases show Handler.perform command next = .perform (.verifyPassword ..) _ from left
      obtain ⟨same, goesOn⟩ :=
        Left.recordChecked config call row own
          (verifyPassword config.hashing call.input.password row.passwordHash) self input _
      refine ⟨"", account, _, true, ?_, fun _ => rfl, fun _ => rfl, stands, same, goesOn⟩
      simp only [SignIns.await, atPhase]
      cases verifyPassword config.hashing call.input.password row.passwordHash <;> rfl
  | recording row =>
      simp only [Left, atPhase] at left
      obtain ⟨rfl, left⟩ := left
      cases show Handler.perform command next = .perform (.recordFailure ..) _ from left
      simp only [SignIns.await, atPhase]
      exact ⟨"", _, _, true, rfl, (by simp), fun _ => rfl,
        stands.update
          (fun stored =>
            stored.recordFailure (failures row) (lockUntil config.login row call.input.now))
          (fun _ => rfl) fun _ => rfl,
        rfl, _, rfl⟩
  | clearing row =>
      simp only [Left, atPhase] at left
      obtain ⟨rfl, left⟩ := left
      cases show Handler.perform command next = .perform (.clearFailures ..) _ from left
      obtain ⟨same, goesOn⟩ := Left.rehash config call row self input _
      simp only [SignIns.await, atPhase]
      exact ⟨"", _, _, true, rfl, (by simp), fun _ => rfl,
        stands.update PrincipalRow.clearFailures (fun _ => rfl) fun _ => rfl, same, goesOn⟩
  | rehashing row =>
      simp only [Left, atPhase] at left
      obtain ⟨rfl, left | ⟨hash, left⟩⟩ := left
      · cases show Handler.perform command next = .perform (.hashPassword ..) _ from left
        have goesOn
            : Left config row.id call
              (accepts row (send (.rehashPassword row.id input.drawn.hash))) := by
          simp only [Left, atPhase]
          exact ⟨trivial, .inr ⟨_, rfl⟩⟩
        simp only [SignIns.await, atPhase]
        exact ⟨"", _, _, false, rfl, (by simp), fun _ => rfl, stands, rfl, goesOn⟩
      · cases show Handler.perform command next = .perform (.rehashPassword ..) _ from left
        simp only [SignIns.await, atPhase]
        exact ⟨hash, _, _, true, rfl, (by simp), fun _ => rfl,
          stands.update (fun stored => stored.rehashPassword hash) (fun _ => rfl) fun _ => rfl, rfl,
          rfl⟩
  | returned outcome principal =>
      simp only [Left, atPhase] at left
      cases left
  | threw err =>
      simp only [Left, atPhase] at left
      obtain ⟨err, left⟩ := left
      cases left

end Calls

section Runs

variable {config : AuthConfig} {principalId : String}

/-- The account and the handlers stand where those of the model do. -/
structure Simulated (config : AuthConfig) (principalId : String)
    (system : System Command Command.Answer Thrown CredentialPhase AuthData) (signIns : SignIns)
    : Prop where
  account : Stands principalId system.world.data signIns.account.row
  calls : List.Forall₂ (Left config principalId) signIns.calls system.handlers

/-- Each event of the handlers is one of the calls, or none: a new hash is made before it is stored.
-/
theorem Simulated.step
    {system next : System Command Command.Answer Thrown CredentialPhase AuthData}
    {signIns : SignIns} (simulated : Simulated config principalId system signIns)
    {event : Event Credentials Thrown Input}
    (taken : system.step (authMachine config) (serve config) event = some next)
    : ∃ later,
        Reaches (SignIns.step config.hashing config.lower config.login) (fun _ _ => True) signIns
          later
        ∧ Simulated config principalId next later := by
  obtain ⟨account, calls⟩ := simulated
  cases event with
  | arrives asked input =>
      cases taken
      obtain ⟨same, left⟩ :=
        Left.arrives config principalId asked system.handlers.length input system.world
      have follows
          : SignIns.step config.hashing config.lower config.login signIns
              (.verifyCredentials { asked with now := input.now })
            = some
              { signIns with
                  calls :=
                    signIns.calls
                      ++ [{ input := { asked with now := input.now }, phase := .loading }] } :=
        rfl
      refine ⟨_, .tail .refl trivial follows, ?_, List.rel_append calls (.cons left .nil)⟩
      exact same ▸ account
  | await self input =>
      simp only [System.step] at taken
      split at taken
      · next command rest there =>
        cases taken
        obtain ⟨call, found, left⟩ := exists_call_of_forall₂ calls there
        obtain ⟨hash, later, after, moved, awaited, -, -, stands, same, goesOn⟩ :=
          left.await account self input
        cases moved with
        | false =>
            have unchanged : signIns.calls.set self call = signIns.calls := by
              obtain ⟨bound, rfl⟩ := List.getElem?_eq_some_iff.mp found
              exact List.set_getElem_self bound
            refine ⟨signIns, .refl, same ▸ stands, ?_⟩
            rw [← unchanged]
            exact forall₂_set calls self goesOn
        | true =>
            have follows
                : SignIns.step config.hashing config.lower config.login signIns (.await self hash)
                  = some { account := later, calls := signIns.calls.set self after } := by
              simp [SignIns.step, CredentialEvent.call, found, advance, awaited]
            exact ⟨_, .tail .refl trivial follows, same ▸ stands, forall₂_set calls self goesOn⟩
      · cases taken
  | reject self input applied err =>
      simp only [System.step] at taken
      split at taken
      · next command rest there =>
        cases taken
        obtain ⟨call, found, left⟩ := exists_call_of_forall₂ calls there
        obtain ⟨hash, later, after, moved, awaited, reads, throws, stands, -⟩ :=
          left.await account self input
        let threw := call.to (.threw (.plain "connection lost"))
        let written :=
          if (applied && moved) && call.phase ≠ .loading then later else signIns.account
        have follows
            : SignIns.step config.hashing config.lower config.login signIns
                (.reject self hash (applied && moved))
              = some { account := written, calls := signIns.calls.set self threw } := by
          simp [SignIns.step, CredentialEvent.call, found, advance, awaited, written, threw]
        refine ⟨_, .tail .refl trivial follows, ?_, ?_⟩
        · simp only [System.goesOn, throws]
          cases applied with
          | false => exact account
          | true =>
              cases moved with
              | false => exact stands
              | true =>
                  by_cases reading : call.phase = .loading
                  · have kept : written = signIns.account := by simp [written, reading]
                    rw [kept, ← reads reading]
                    exact stands
                  · have kept : written = later := by simp [written, reading]
                    rw [kept]
                    exact stands
        · simp only [System.goesOn, throws]
          exact forall₂_set calls self ⟨err, rfl⟩
      · cases taken

/-- Whatever sign-ins by password run side by side where there is one account, and whatever becomes
of what they await: some run of the model comes to the same account, with a call in the phase of
each handler. By induction on the run.
-/
theorem refines_sign_ins (config : AuthConfig) (data : AuthData) (stored : PrincipalRow)
    (alone : data.tables.principals = [stored])
    (system : System Command Command.Answer Thrown CredentialPhase AuthData)
    (reached
      : Reaches (System.step (authMachine config) (serve config)) (fun _ _ => True)
          { world := { data, trace := [] }, handlers := [] } system)
    : ∃ signIns,
        Reaches (SignIns.step config.hashing config.lower config.login) (fun _ _ => True)
          (SignIns.initial (data.joined stored)) signIns
        ∧ Simulated config stored.id system signIns :=
  exists_simulated reached ⟨⟨stored, alone, rfl, rfl⟩, .nil⟩ fun simulated taken =>
    simulated.step taken

end Runs

end SignIns

-----------------------------------------------------------------------------
-- Sessions

namespace AuthStore

variable (config : AuthConfig) (input : Input) (data : AuthData)

/-- What `createSession` is given, and takes from outside. -/
def newSession (principalId : String) (client : Client) : NewSession where
  principalId
  ip := client.ip
  userAgent := client.userAgent
  now := input.now
  id := input.drawn.id
  token := input.drawn.token
  csrfToken := input.drawn.csrfToken
  databaseNow := input.databaseNow

/-- By itself, `createSession` is the call of the same name over the tables. -/
theorem createSession_alone (principalId : String) (client : Client)
    : (createSession config principalId client).alone (authMachine config) input data
      = let created :=
          data.tables.createSession config.session config.crypto.hashToken
            (newSession input principalId client)
        (created.2.elim (.error duplicateKey) .ok, data.withTables created.1) := by
  -- The database's clock takes the place of the one that the row is asked for with.
  let row :=
    SessionTables.createdRow config.session config.crypto.hashToken
      (newSession input principalId client)
  refine (Handler.alone_ask rfl).trans ((Handler.alone_ask rfl).trans ?_)
  simp only [SessionTables.createSession]
  cases inserted : data.tables.insert row with
  | none =>
      have refused (asked : SessionRow)
          (same
            : { asked with createdAt := input.databaseNow, lastSeenAt := input.databaseNow } = row)
          : (authMachine config).perform (.insertSession asked) input data
            = .error duplicateKey := by
        simp only [authMachine, perform, same, inserted]
      exact (Handler.alone_ask_error (refused _ rfl)).trans rfl
  | some tables =>
      have stored (asked : SessionRow)
          (same
            : { asked with createdAt := input.databaseNow, lastSeenAt := input.databaseNow } = row)
          : (authMachine config).perform (.insertSession asked) input data
            = .ok ((), data.withTables tables) := by
        simp only [authMachine, perform, same, inserted]
      exact (Handler.alone_ask (stored _ rfl)).trans ((Handler.alone_ask rfl).trans rfl)

variable {data}

/-- By itself, `resolveSession` is the call of the same name over the tables, where their rows say
whether the second factor is confirmed.
-/
theorem resolveSession_alone (joined : ∀ row ∈ data.tables.principals, data.joined row = row)
    (token : String)
    : (resolveSession config token).alone (authMachine config) input data
      = let resolved :=
          data.tables.resolveSession config.session config.crypto.hashToken token input.now
        (.ok resolved.2, data.withTables resolved.1) := by
  refine (Handler.alone_ask rfl).trans ((Handler.alone_ask rfl).trans ?_)
  simp only [SessionTables.resolveSession]
  cases found : data.tables.resolveByTokenHash (config.crypto.hashToken token) input.now with
  | nil => rfl
  | cons pair rest =>
      obtain ⟨row, principal⟩ := pair
      have same : data.joined principal = principal := by
        have listed : (row, principal)
            ∈ data.tables.resolveByTokenHash (config.crypto.hashToken token) input.now :=
          found ▸ List.mem_cons_self
        exact joined principal
          (Table.lookup_mem (SessionTables.mem_resolveByTokenHash.mp listed).2.1)
      simp only [List.head?_cons, Option.map_some, same]
      exact (Handler.alone_ask rfl).trans rfl

variable {ρ : Type}

/-- A request that creates a session while the others wait leaves the tables as the call does. -/
theorem createSession_reached {serve : ρ → AuthHandler CreatedSession} {principalId : String}
    {client : Client} {self : Nat} {world : World Command Command.Answer AuthData}
    {system : System Command Command.Answer Thrown CreatedSession AuthData}
    (there
      : system.handlers[self]?
        = some
          (settle (authMachine config) self input (createSession config principalId client)
            world).1)
    (stands
      : system.world
        = (settle (authMachine config) self input (createSession config principalId client)
          world).2)
    : let created :=
        world.data.tables.createSession config.session config.crypto.hashToken
          (newSession input principalId client)
      ∃ after,
        Reaches (System.step (authMachine config) serve) (fun _ _ => True) system after
          ∧ after.handlers
            = system.handlers.set self (.done (created.2.elim (.error duplicateKey) .ok))
          ∧ after.world.data = world.data.withTables created.1 := by
  have reached := Handler.alone_reached serve input _ world there stands
  rw [createSession_alone] at reached
  exact reached

/-- One that resolves a session leaves them as that call does. -/
theorem resolveSession_reached {serve : ρ → AuthHandler (Option ResolvedSession)} {token : String}
    {self : Nat} {world : World Command Command.Answer AuthData}
    (joined : ∀ row ∈ world.data.tables.principals, world.data.joined row = row)
    {system : System Command Command.Answer Thrown (Option ResolvedSession) AuthData}
    (there
      : system.handlers[self]?
        = some (settle (authMachine config) self input (resolveSession config token) world).1)
    (stands
      : system.world
        = (settle (authMachine config) self input (resolveSession config token) world).2)
    : let resolved :=
        world.data.tables.resolveSession config.session config.crypto.hashToken token input.now
      ∃ after,
        Reaches (System.step (authMachine config) serve) (fun _ _ => True) system after
          ∧ after.handlers = system.handlers.set self (.done (.ok resolved.2))
          ∧ after.world.data = world.data.withTables resolved.1 := by
  have reached := Handler.alone_reached serve input _ world there stands
  rw [resolveSession_alone config input joined] at reached
  exact reached

/-- By itself, `resolveAuth` of the sign-in routes is that of the control plane. -/
theorem resolveAuth_alone (joined : ∀ row ∈ data.tables.principals, data.joined row = row)
    (request : AuthRoutes.AuthRequest) (plane : Admin.PlaneConfig)
    (session : plane.session = config.session)
    (hashToken : plane.hashToken = config.crypto.hashToken)
    (asked : Admin.Request) (cookie : asked.cookie = request.cookie)
    (csrf : asked.csrf = request.csrf) (clock : asked.now = input.now)
    (method : asked.action.method = request.route.method)
    : let alone := (AuthRoutes.resolveAuth config request).alone (authMachine config) input data
      let answered := Admin.resolveAuth plane data.tables asked
      alone.2 = data.withTables answered.1
        ∧ alone.1.map (Option.map ResolvedSession.principal)
          = answered.2.mapError fun message => { AuthRoutes.csrfError with message } := by
  unfold AuthRoutes.resolveAuth Admin.resolveAuth
  rw [cookie, csrf, clock, method, session, hashToken]
  cases request.cookie with
  | none => exact ⟨rfl, rfl⟩
  | some token =>
      by_cases empty : token = ""
      · subst empty
        exact ⟨rfl, rfl⟩
      · have there : ¬ AuthRoutes.absent (some token) = true := by
          simpa [AuthRoutes.absent] using empty
        simp only [if_neg there, if_neg empty, Option.getD_some]
        rw [Handler.alone_bind, resolveSession_alone config input joined]
        obtain ⟨after, found⟩ := data.tables.resolveSession config.session config.crypto.hashToken
          token input.now
        cases found with
        | none => exact ⟨rfl, rfl⟩
        | some resolved =>
            have safe : Admin.SAFE_METHODS = AuthRoutes.safeMethods := rfl
            simp only [safe]
            by_cases forged : request.route.method ∉ AuthRoutes.safeMethods
                ∧ (request.csrf.getD "" = "" ∨ request.csrf.getD "" ≠ resolved.csrfToken)
            · rw [if_pos forged, if_pos forged]
              exact ⟨rfl, rfl⟩
            · rw [if_neg forged, if_neg forged]
              exact ⟨rfl, rfl⟩

end AuthStore

end Cixtech.Auth
