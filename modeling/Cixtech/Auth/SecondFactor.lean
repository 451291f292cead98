import Cixtech.Auth.Totp
import Cixtech.Common.AppError
import Cixtech.Foundation.Executions
import Cixtech.Foundation.Processes

/-! The second factor of one principal, with calls of `verifySecondFactor` and `confirmTotp`
side by side. The last accepted step is read by one statement and written by another, which
does not look at what is stored by then.
-/

namespace Cixtech.Auth

open Cixtech.Common Cixtech.Foundation

/-- The `principal_totp` row of the principal. -/
structure TotpRow where
  secret : String
  /-- Whether `confirmed_at` is set. -/
  confirmed : Bool
  lastStep : Option Int
  deriving DecidableEq, Repr

/-- A row of `principal_recovery_code`. -/
structure RecoveryRow where
  codeHash : String
  /-- Whether `used_at` is set. -/
  used : Bool
  deriving DecidableEq, Repr

/-- The rows of the principal, with what they have been used for. -/
structure FactorRows where
  totp : Option TotpRow
  recovery : List RecoveryRow
  /-- The steps whose acceptance has been written, the latest first. -/
  accepted : List Int
  /-- How often recovery codes have been issued. -/
  issued : Nat
  /-- The recovery codes that have been accepted, each with the issue it is of. -/
  spent : List (Nat × String)
  deriving DecidableEq, Repr

namespace FactorRows

def lastStep (rows : FactorRows) : Option Int := rows.totp.bind TotpRow.lastStep

/-- `principalTotp.confirmedSecret`. -/
def confirmedSecret (rows : FactorRows) : Option TotpRow := rows.totp.filter TotpRow.confirmed

/-- `principalTotp.pendingSecret`, which a confirmed secret answers as well. -/
def pendingSecret (rows : FactorRows) : Option String := rows.totp.map TotpRow.secret

/-- `principalTotp.advanceStep`. -/
def advanceStep (rows : FactorRows) (step : Int) : FactorRows :=
  { rows with
      totp := rows.totp.map fun row => { row with lastStep := some step }
      accepted := step :: rows.accepted }

/-- `recoveryCode.spend`, with whether it updated a row. -/
def spend (rows : FactorRows) (codeHash : String) : FactorRows × Bool :=
  if rows.recovery.any fun row => row.codeHash = codeHash && !row.used then
    ( { rows with
          recovery :=
            rows.recovery.map fun row =>
              if row.codeHash = codeHash then { row with used := true } else row
          spent := (rows.issued, codeHash) :: rows.spent },
      true)
  else (rows, false)

/-- The transaction of `confirmTotp`, which fails on two codes with one hash. -/
def confirm (rows : FactorRows) (step : Int) (codeHashes : List String) : Option FactorRows :=
  if codeHashes.Nodup then
    some
      { totp := rows.totp.map fun row => { row with confirmed := true, lastStep := some step }
        recovery := codeHashes.map fun codeHash => { codeHash, used := false }
        accepted := step :: rows.accepted
        issued := rows.issued + 1
        spent := rows.spent }
  else none

end FactorRows

inductive FactorPhase
  /-- `verifySecondFactor`, about to read the confirmed secret. -/
  | verifying
  /-- About to write the step of the code, with the last step that was read. -/
  | advancing (lastRead : Option Int) (step : Int)
  /-- About to look for the code among the recovery codes. -/
  | spending
  /-- `confirmTotp`, about to read the secret. -/
  | enrolling
  | confirming (step : Int)
  | verified (ok : Bool)
  | issued (codes : List String)
  | threw (err : AppError)
  deriving DecidableEq, Repr

/-- A call of either method, with the code presented and the clock it read. -/
structure FactorCall where
  code : String
  now : Int
  phase : FactorPhase
  deriving DecidableEq, Repr

def FactorCall.to (call : FactorCall) (phase : FactorPhase) : FactorCall := { call with phase }

/-- `new AuthError(message)`. -/
def authError (message : String) : AppError := { code := .authFailed, message, context := [] }

structure SecondFactor where
  rows : FactorRows
  calls : List FactorCall
  deriving DecidableEq, Repr

inductive FactorEvent
  | verifySecondFactor (code : String) (now : Int)
  | confirmTotp (code : String) (now : Int)
  /-- What a call awaits is answered. A confirmation issues the codes that it has generated. -/
  | await (call : Nat) (codes : List String)
  /-- What a call awaits rejects. The statement may have been applied all the same. -/
  | reject (call : Nat) (codes : List String) (applied : Bool)

namespace SecondFactor

section Calls

variable (crypto : Crypto)

/-- The next await of a call, none of one that has returned. -/
def await (rows : FactorRows) (call : FactorCall) (codes : List String)
    : Option (FactorRows × FactorCall) :=
  match call.phase with
  | .verifying =>
      match rows.confirmedSecret with
      | some totp =>
          match verifyTotp crypto totp.secret call.code call.now totp.lastStep with
          | some step => some (rows, call.to (.advancing totp.lastStep step))
          | none => some (rows, call.to .spending)
      | none => some (rows, call.to .spending)
  | .advancing _ step => some (rows.advanceStep step, call.to (.verified true))
  | .spending =>
      let (later, ok) := rows.spend (crypto.hashToken (crypto.toLowerCase (trim call.code)))
      some (later, call.to (.verified ok))
  | .enrolling =>
      match rows.pendingSecret with
      | some secret =>
          if secret = "" then some (rows, call.to (.threw (authError "Start enrolment first")))
          else
            match verifyTotp crypto secret call.code call.now none with
            | some step => some (rows, call.to (.confirming step))
            | none => some (rows, call.to (.threw (authError "That code is not correct")))
      | none => some (rows, call.to (.threw (authError "Start enrolment first")))
  | .confirming step =>
      match rows.confirm step (codes.map crypto.hashToken) with
      | some later => some (later, call.to (.issued codes))
      | none =>
          some
            (rows, call.to (.threw (.plain "duplicate key value violates unique constraint")))
  | .verified _ | .issued _ | .threw _ => none

/-- One event of a call. -/
def advance (rows : FactorRows) (call : FactorCall)
    : FactorEvent → Option (FactorRows × FactorCall)
  | .await _ codes => await crypto rows call codes
  | .reject _ codes applied =>
      (await crypto rows call codes).map fun answered =>
        (if applied then answered.1 else rows, call.to (.threw (.plain "connection lost")))
  | _ => none

end Calls

end SecondFactor

/-- The call that an event is about. -/
def FactorEvent.call : FactorEvent → Option Nat
  | .await call _ | .reject call _ _ => some call
  | _ => none

namespace SecondFactor

def initial (totp : Option TotpRow) (recovery : List RecoveryRow) : SecondFactor where
  rows :=
    { totp, recovery, accepted := (totp.bind TotpRow.lastStep).toList, issued := 0, spent := [] }
  calls := []

def step (crypto : Crypto) (system : SecondFactor) (event : FactorEvent) : Option SecondFactor :=
  match event with
  | .verifySecondFactor code now =>
      some { system with calls := system.calls ++ [{ code, now, phase := .verifying }] }
  | .confirmTotp code now =>
      some { system with calls := system.calls ++ [{ code, now, phase := .enrolling }] }
  | _ =>
      event.call.bind fun index =>
        (system.calls[index]?).bind fun call =>
          (advance crypto system.rows call event).map fun (rows, next) =>
            { rows, calls := system.calls.set index next }

end SecondFactor

end Cixtech.Auth
