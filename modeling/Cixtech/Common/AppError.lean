/-! The engine's typed errors: a code from the error catalogue, the text of the message and
the context record that callers read fields back from.
-/

namespace Cixtech.Common

/-- The codes of the error classes that the modelled code throws. A plain `Error` has no
code of its own and is recorded as unclassified.
-/
inductive ErrorCode
  | unclassified
  | ledgerInsufficientFunds
  | ledgerUnknownEntry
  | ledgerUnbalancedEntry
  | ledgerInvalidPosting
  | ledgerDuplicateEntryId
  | poolInsufficientFunds
  | poolAddressNotFound
  | poolInvalidTransition
  | poolConcurrentModification
  | gatherBusy
  | gatherStrategyUnknown
  | policyDenied
  | policyApprovalRequired
  | policyTimeLocked
  | policyComplianceHold
  | policySelfApproval
  | withdrawalNotFound
  | sweepHalted
  | tronTxMismatch
  | configNotFound
  | invalidAuthorization
  | unsupportedChain
  | invalidDestination
  | authFailed
  | accountLocked
  | mpcNodeRejected
  | mpcThresholdNotMet
  | mpcBadContribution
  | mpcInterimForbidden
  | unsafeWebhookUrl
  deriving DecidableEq, Repr

/-- One value of an error's context record. -/
inductive ContextValue
  | text (value : String)
  | number (value : Int)
  deriving DecidableEq, Repr

/-- An error as a caller sees it. -/
structure AppError where
  code : ErrorCode
  message : String
  context : List (String × ContextValue)
  deriving DecidableEq, Repr

namespace AppError

/-- `new Error(message)`, which is no `AppError` in the source. -/
def plain (message : String) : AppError :=
  { code := .unclassified, message, context := [] }

/-- `err.context?.[field]`. -/
def contextValue (err : AppError) (field : String) : Option ContextValue :=
  (err.context.find? fun entry => entry.1 = field).map Prod.snd

end AppError

end Cixtech.Common
