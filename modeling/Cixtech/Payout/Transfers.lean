import Cixtech.Payout.Leasing

/-! What the transfer legs of one intent sum to. Each payment in flight has sent exactly what
the record shows under its key, as long as one call at a time spends under the key and a
lock is applied only where nothing has been sent.
-/

namespace Cixtech.Payout

open Cixtech.Foundation.Processes

/-- A task that holds the lease for a payout under the key. -/
def Task.spendsUnder (key : String) (task : Task) : Option Unit :=
  task.lease.bind fun lease => if lease.p.idempotencyKey = key then some () else none

theorem Task.spendsUnder_iff {key : String} {task : Task}
    : task.spendsUnder key = some ()
      ↔ ∃ lease, task.lease = some lease ∧ lease.p.idempotencyKey = key := by
  simp [Task.spendsUnder, Option.bind_eq_some_iff]

/-- A payment in flight holds the lease under its own parameters. -/
theorem Task.lease_of_inFlight {task : Task} {p : PayoutParams} {sum : Int}
    (flying : task.inFlight = some (p, sum))
    : ∃ lease, task.lease = some lease ∧ lease.p = p := by
  cases task with
  | paying caller stage =>
      cases stage with
      | leased lease step =>
          obtain ⟨value, -, same⟩ := Option.map_eq_some_iff.mp flying
          exact ⟨lease, rfl, congrArg Prod.fst same⟩
      | _ => cases flying
  | _ => cases flying

theorem Task.lease_of_atLock {task : Task} {p : PayoutParams} (locking : task.atLock = some p)
    : ∃ lease, task.lease = some lease ∧ lease.p = p := by
  cases task with
  | paying caller stage =>
      cases stage with
      | leased lease step =>
          cases step with
          | appendLock plan => exact ⟨lease, rfl, Option.some.inj locking⟩
          | _ => cases locking
      | _ => cases locking
  | _ => cases locking

/-- The lock that an event performs is that of a task in the system. -/
theorem System.locking_mem {system : System} {event : Event} {p : PayoutParams}
    (locking : system.locking event = some p)
    : ∃ (index : Nat) (task : Task), system.tasks[index]? = some task
      ∧ task.atLock = some p := by
  cases event with
  | resume index reply =>
      obtain ⟨task, found, lock⟩ := Option.bind_eq_some_iff.mp locking
      exact ⟨index, task, found, lock⟩
  | lose index reply err =>
      obtain ⟨task, found, lock⟩ := Option.bind_eq_some_iff.mp locking
      exact ⟨index, task, found, lock⟩
  | _ => cases locking

/-- The calls that spend under the key agree on the amount. -/
def System.AgreeOn (key : String) (amount : Int) (system : System) : Prop :=
  ∀ task ∈ system.tasks, ∀ lease, task.lease = some lease → lease.p.idempotencyKey = key
    → lease.p.amountBaseUnits = amount

/-- Payments in flight under the key have sent what the record shows, and the record stays
within the amount.
-/
structure Paid (key : String) (amount : Int) (system : System) : Prop where
  tracked : ∀ task ∈ system.tasks, ∀ p sum, task.inFlight = some (p, sum)
    → p.idempotencyKey = key → system.store.transferred key = sum
  bounded : system.store.transferred key ≤ amount

theorem Paid.initial {key : String} {amount : Int} {store : Store} (notNegative : 0 ≤ amount)
    (unsent : store.effects = [])
    : Paid key amount { store, tasks := [] } where
  tracked := by simp
  bounded := by simpa [Store.transferred, unsent] using notNegative

theorem Task.inFlight_ofRequest (now : Int) (request : Request)
    : (Task.ofRequest now request).inFlight = none := by
  cases request <;> rfl

/-- One event keeps the record within the amount, where one call at a time spends under the
key and a lock finds nothing sent.
-/
theorem Paid.step {d : Deployment} {key : String} {amount : Int} {system next : System}
    {event : Event} (paid : Paid key amount system)
    (alone : Exclusive (Task.spendsUnder key) system.tasks) (agreed : system.AgreeOn key amount)
    (fresh : ∀ p, system.locking event = some p → p.idempotencyKey = key
      → system.store.transferred key = 0)
    (taken : system.step d event = some next)
    : Paid key amount next := by
  rcases System.step_cases taken with ⟨elapsed, -, store, tasks⟩ | ⟨request, -, store, tasks⟩
    | ⟨ledger, store, tasks⟩ | ⟨index, old, new, acting, moves⟩
  · exact ⟨by rw [tasks, store]; exact paid.tracked, by rw [store]; exact paid.bounded⟩
  · refine ⟨?_, store ▸ paid.bounded⟩
    rw [tasks, store]
    intro task member p sum flying
    rcases List.mem_append.mp member with before | arrived
    · exact paid.tracked task before p sum flying
    · rw [List.mem_singleton.mp arrived, Task.inFlight_ofRequest] at flying
      cases flying
  · exact ⟨by rw [tasks, store]; exact paid.tracked, by rw [store]; exact paid.bounded⟩
  · cases moves.sent acting.found with
    | quiet same kept =>
        refine ⟨?_, same key ▸ paid.bounded⟩
        intro task member p sum flying under
        rw [same key]
        rcases acting.mem_cases member with rfl | before
        · rcases kept with dropped | kept
          · simp [dropped] at flying
          · exact paid.tracked old acting.mem_old p sum (kept ▸ flying) under
        · exact paid.tracked task before p sum flying under
    | @locked opened here same opens =>
        refine ⟨?_, same key ▸ paid.bounded⟩
        intro task member p sum flying under
        rw [same key]
        rcases acting.mem_cases member with rfl | before
        · rcases opens with dropped | opens
          · simp [dropped] at flying
          · obtain ⟨rfl, rfl⟩ : opened = p ∧ (0 : Int) = sum := by simpa [opens] using flying
            exact fresh opened here under
        · exact paid.tracked task before p sum flying under
    | @sent payer handed leg was positive withinAmount more grown =>
        by_cases own : payer.idempotencyKey = key
        · have total := more key
          rw [if_pos own, paid.tracked old acting.mem_old payer handed was own] at total
          obtain ⟨lease, has, rfl⟩ := Task.lease_of_inFlight was
          have amountOf := agreed old acting.mem_old lease has own
          have spends : old.spendsUnder key = some () :=
            Task.spendsUnder_iff.mpr ⟨lease, has, own⟩
          refine ⟨?_, by omega⟩
          intro task member p sum flying under
          obtain ⟨at_, there⟩ := List.mem_iff_getElem?.mp member
          rcases acting.get_cases there with ⟨rfl, rfl⟩ | ⟨apart, before⟩
          · rcases grown with dropped | grown
            · simp [dropped] at flying
            · obtain ⟨-, rfl⟩ : lease.p = p ∧ handed + leg = sum := by
                simpa [grown] using flying
              exact total
          · obtain ⟨other, hasOther, rfl⟩ := Task.lease_of_inFlight flying
            have spendsToo : task.spendsUnder key = some () :=
              Task.spendsUnder_iff.mpr ⟨other, hasOther, under⟩
            exact (apart (alone before acting.found spendsToo spends)).elim
        · have unchanged := more key
          rw [if_neg own, Int.add_zero] at unchanged
          refine ⟨?_, unchanged ▸ paid.bounded⟩
          intro task member p sum flying under
          rw [unchanged]
          rcases acting.mem_cases member with rfl | before
          · rcases grown with dropped | grown
            · simp [dropped] at flying
            · obtain ⟨rfl, -⟩ : payer = p ∧ handed + leg = sum := by
                simpa [grown] using flying
              exact (own under).elim
          · exact paid.tracked task before p sum flying under

end Cixtech.Payout
