import Cixtech.Foundation.Executions
import Cixtech.Payout.Routes

/-! Any number of calls over one store. An event lets time pass, lets a call arrive, lets
another flow post to the ledger, or lets what one call awaits complete, fail without effect,
take effect and fail, or never come back.
-/

namespace Cixtech.Payout

open Cixtech.Common Cixtech.Foundation Cixtech.Ledger

structure System where
  store : Store
  tasks : List Task

inductive Event
  | tick (elapsed : Nat)
  | call (request : Request)
  | post (entry : JournalEntry)
  | resume (index : Nat) (reply : Reply)
  | reject (index : Nat) (err : AppError)
  | lose (index : Nat) (reply : Reply) (err : AppError)
  | crash (index : Nat)
  deriving DecidableEq

namespace System

/-- The system after an event, none where the event cannot happen. -/
def step (d : Deployment) (system : System) : Event → Option System
  | .tick elapsed =>
      some { system with store := { system.store with clock := system.store.clock + elapsed } }
  | .call request =>
      some
        { system with tasks := system.tasks ++ [Task.ofRequest system.store.clock request] }
  | .post entry =>
      match LedgerService.post system.store.ledger entry with
      | .error _ => none
      | .ok (ledger, _) => some { system with store := { system.store with ledger } }
  | .resume index reply => do
      let task ← system.tasks[index]?
      let (store, next) ← task.advance d system.store reply
      return { store, tasks := system.tasks.set index next }
  | .reject index err => do
      let task ← system.tasks[index]?
      let next ← task.throwAt d err
      return { system with tasks := system.tasks.set index next }
  | .lose index reply err => do
      let task ← system.tasks[index]?
      let (store, _) ← task.advance d system.store reply
      let next ← task.throwAt d err
      return { store, tasks := system.tasks.set index next }
  | .crash index =>
      if index < system.tasks.length then
        some { system with tasks := system.tasks.set index .crashed }
      else none

end System

end Cixtech.Payout
