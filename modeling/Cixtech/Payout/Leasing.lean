import Cixtech.Payout.InFlight

/-! Who holds the gather lease. While no holder outlives the expiry that its row carries, two
calls never hold the lease of one merchant and chain at once.
-/

namespace Cixtech.Payout

open Cixtech.Attribution Cixtech.Common Cixtech.Ledger Cixtech.Foundation.Processes

def Stage.lease : Stage → Option Lease
  | .leased lease _ => some lease
  | _ => none

/-- The parameters of a call that waits for the lease, with the instant it asked at. -/
def Stage.asking : Stage → Option (PayoutParams × Int)
  | .acquire p _ asked => some (p, asked)
  | _ => none

/-- The lease of a call that is about to release it. -/
def Stage.releasing : Stage → Option Lease
  | .leased lease (.release _) => some lease
  | _ => none

def Progress.lease : Progress → Option Lease
  | .awaiting stage => stage.lease
  | .finished _ => none

def Progress.asking : Progress → Option (PayoutParams × Int)
  | .awaiting stage => stage.asking
  | .finished _ => none

def Task.lease : Task → Option Lease
  | .paying _ stage => stage.lease
  | _ => none

def Task.releasing : Task → Option Lease
  | .paying _ stage => stage.releasing
  | _ => none

def Task.asking : Task → Option (PayoutParams × Int)
  | .paying _ stage => stage.asking
  | _ => none

/-- How a move changes the lease table and the lease that its task holds. -/
inductive LeaseStep (d : Deployment) (store after : Store) (asking : Option (PayoutParams × Int))
    (releasing before next : Option Lease)
    : Prop
  | quiet (same : after.leases = store.leases) (kept : next = none ∨ next = before)
  | acquired {p asked} (asks : asking = some (p, asked))
      (got : GatherLease.acquire store.leases (PayoutService.leaseKey d p) p.idempotencyKey
        asked (asked + d.leaseTtlMs) = (after.leases, true))
      (holds : ∀ lease, next = some lease
        → lease.p = p ∧ lease.expiresAt = asked + d.leaseTtlMs)
  | released {lease} (was : releasing = some lease)
      (gone : after.leases
        = GatherLease.release store.leases (PayoutService.leaseKey d lease.p)
            lease.p.idempotencyKey)
      (left : next = none)

/-- What the lease invariant reads of a step besides the lease itself. -/
structure ClockStep (store after : Store) (asking : Option (PayoutParams × Int)) : Prop where
  clock : after.clock = store.clock
  fresh : ∀ p asked, asking = some (p, asked) → asked = store.clock

theorem ClockStep.silent {store after : Store} {asking : Option (PayoutParams × Int)}
    (clock : after.clock = store.clock) (none : asking = none)
    : ClockStep store after asking :=
  ⟨clock, by simp [none]⟩

/-- A call keeps its lease until it releases it. -/
theorem spend_lease {d : Deployment} {store after : Store} {reply : Reply} {lease : Lease}
    {step : Spending lease.p.amountBaseUnits} {progress : Progress}
    (taken : PayoutService.spend d store reply lease step = some (after, progress))
    : LeaseStep d store after none (Stage.leased lease step).releasing (some lease)
        progress.lease
      ∧ ClockStep store after progress.asking := by
  cases step with
  | release outcome => cases taken; exact ⟨.released rfl rfl rfl, rfl, by simp [Progress.asking]⟩
  | setFrom plan => cases taken; exact ⟨.quiet rfl (.inr rfl), .silent rfl rfl⟩
  | prepare payment => cases taken; exact ⟨.quiet rfl (.inr rfl), .silent rfl rfl⟩
  | markBroadcast payment => cases taken; exact ⟨.quiet rfl (.inr rfl), .silent rfl rfl⟩
  | markSettled payment => cases taken; exact ⟨.quiet rfl (.inr rfl), .silent rfl rfl⟩
  | sweepPrepare payment sweep => cases taken; exact ⟨.quiet rfl (.inr rfl), .silent rfl rfl⟩
  | sweepPost payment sweep =>
      simp only [PayoutService.spend] at taken
      split at taken
      · cases taken
      · split at taken <;> cases taken <;> exact ⟨.quiet rfl (.inr rfl), .silent rfl rfl⟩
  | _ =>
      simp only [PayoutService.spend] at taken
      split at taken <;> cases taken <;> exact ⟨.quiet rfl (.inr rfl), .silent rfl rfl⟩

/-- A call takes the lease only where the row was free or expired when it asked. -/
theorem advance_lease {d : Deployment} {store after : Store} {reply : Reply} {stage : Stage}
    {progress : Progress}
    (taken : PayoutService.advance d store reply stage = some (after, progress))
    : LeaseStep d store after stage.asking stage.releasing stage.lease progress.lease
      ∧ ClockStep store after progress.asking := by
  cases stage with
  | leased lease step => exact spend_lease taken
  | begin_ p now =>
      simp only [PayoutService.advance] at taken
      split at taken <;> cases taken
      exact ⟨.quiet rfl (.inl rfl), .silent rfl rfl⟩
  | load p now =>
      simp only [PayoutService.advance] at taken
      split at taken <;> cases taken
      · exact ⟨.quiet rfl (.inl rfl), .silent rfl rfl⟩
      case h_2 intent found =>
        rcases PayoutService.branch_cases p now intent with ⟨_, same⟩ | ⟨_, _, same⟩ | same <;>
          rw [same] <;> exact ⟨.quiet rfl (.inl rfl), .silent rfl rfl⟩
  | resumeSettle p txId fromAddress =>
      simp only [PayoutService.advance] at taken
      split at taken <;> cases taken <;> exact ⟨.quiet rfl (.inl rfl), .silent rfl rfl⟩
  | resumeMark p txId fromAddress =>
      cases taken
      exact ⟨.quiet rfl (.inl rfl), .silent rfl rfl⟩
  | check p now requestedAt =>
      simp only [PayoutService.advance] at taken
      split at taken <;> cases taken
      · exact ⟨.quiet rfl (.inl rfl), .silent rfl rfl⟩
      · refine ⟨.quiet rfl (.inl rfl), rfl, ?_⟩
        intro p asked asks
        simp only [Progress.asking, Stage.asking, Option.some.injEq, Prod.mk.injEq] at asks
        exact asks.2.symm
  | acquire p now asked =>
      simp only [PayoutService.advance] at taken
      split at taken
      case isTrue got =>
        cases taken
        refine ⟨.acquired rfl (Prod.ext rfl got) ?_, .silent rfl rfl⟩
        rintro lease ⟨⟩
        exact ⟨rfl, rfl⟩
      case isFalse refused =>
        cases taken
        exact ⟨.quiet (GatherLease.acquire_refused (by simpa using refused)) (.inl rfl),
          .silent rfl rfl⟩

theorem lease_ofProgress (d : Deployment) (caller : Caller) (progress : Progress)
    : (Task.ofProgress d caller progress).lease = progress.lease
      ∧ (Task.ofProgress d caller progress).asking = progress.asking := by
  cases progress with
  | awaiting stage => exact ⟨rfl, rfl⟩
  | finished outcome =>
      rw [Task.ofProgress]
      rcases Task.resumeCaller_cases d outcome caller with
        ⟨-, answer, same⟩ | ⟨tenant, key, -, ⟨result, same⟩ | ⟨err, same⟩⟩
      all_goals
        rw [same]
        exact ⟨rfl, rfl⟩

theorem Task.advance_lease {d : Deployment} {store after : Store} {reply : Reply}
    {task next : Task} (taken : task.advance d store reply = some (after, next))
    : LeaseStep d store after task.asking task.releasing task.lease next.lease
      ∧ ClockStep store after next.asking := by
  rcases Task.advance_cases taken with ⟨caller, stage, progress, rfl, done, rfl⟩ | ⟨-, route⟩
  · rw [(lease_ofProgress d caller progress).1, (lease_ofProgress d caller progress).2]
    exact Payout.advance_lease done
  · cases route with
    | starts => exact ⟨.quiet rfl (.inl rfl), .silent rfl rfl⟩
    | idle none =>
        cases next with
        | paying caller stage => exact absurd rfl (none caller stage)
        | _ => exact ⟨.quiet rfl (.inl rfl), .silent rfl rfl⟩

/-- A thrown await leaves the task with the lease it had, or with none where it was asking
for the lease or releasing it.
-/
theorem Task.throwAt_lease {d : Deployment} {err : AppError} {task next : Task}
    (thrown : task.throwAt d err = some next)
    : (next.lease = none
        ∨ (next.lease = task.lease ∧ task.releasing = none ∧ task.asking = none))
      ∧ next.asking = none := by
  cases task with
  | paying caller stage =>
      cases thrown
      rw [(lease_ofProgress d caller _).1, (lease_ofProgress d caller _).2]
      cases stage with
      | leased lease step =>
          cases step with
          | release outcome => exact ⟨.inl rfl, rfl⟩
          | _ => exact ⟨.inr ⟨rfl, rfl, rfl⟩, rfl⟩
      | _ => exact ⟨.inl rfl, rfl⟩
  | finished response => cases thrown
  | crashed => cases thrown
  | _ => cases thrown; exact ⟨.inl rfl, rfl⟩

theorem Task.Moves.lease {d : Deployment} {store after : Store} {task next : Task}
    {index : Nat} {event : Event} (moves : task.Moves d store index event after next)
    : LeaseStep d store after task.asking task.releasing task.lease next.lease
      ∧ ClockStep store after next.asking := by
  cases moves with
  | resumed done => exact Task.advance_lease done
  | rejected thrown =>
      obtain ⟨kept, idle⟩ := Task.throwAt_lease thrown
      exact ⟨.quiet rfl (kept.imp_right And.left), rfl, by simp [idle]⟩
  | lost done thrown =>
      obtain ⟨kept, idle⟩ := Task.throwAt_lease thrown
      obtain ⟨step, clock⟩ := Task.advance_lease done
      refine ⟨?_, clock.clock, by simp [idle]⟩
      rcases kept with dropped | ⟨kept, noRelease, noAsk⟩
      · rw [dropped]
        cases step with
        | quiet same _ => exact .quiet same (.inl rfl)
        | acquired asks got _ => exact .acquired asks got (by simp)
        | released was gone _ => exact .released was gone rfl
      · cases step with
        | quiet same _ => exact .quiet same (.inr kept)
        | acquired asks _ _ => simp [noAsk] at asks
        | released was _ _ => simp [noRelease] at was
  | crashed => exact ⟨.quiet rfl (.inl rfl), .silent rfl rfl⟩

theorem Task.lease_of_releasing {task : Task} {lease : Lease}
    (releasing : task.releasing = some lease)
    : task.lease = some lease := by
  cases task with
  | paying caller stage =>
      cases stage with
      | leased held step =>
          cases step with
          | release outcome => exact releasing
          | _ => cases releasing
      | _ => cases releasing
  | _ => cases releasing

-----------------------------------------------------------------------------
-- The lease invariant

/-- The lease key that a task holds. -/
def Task.heldKey (d : Deployment) (task : Task) : Option String :=
  task.lease.map fun lease => PayoutService.leaseKey d lease.p

/-- No call that holds the lease has outlived the expiry of its row. -/
def System.WithinTtl (system : System) : Prop :=
  ∀ task ∈ system.tasks, ∀ lease ∈ task.lease, system.store.clock ≤ lease.expiresAt

/-- Every holder has its row in the table, no two hold one key, and nobody asked for the
lease in the future.
-/
structure Leasing (d : Deployment) (system : System) : Prop where
  rows : ∀ task ∈ system.tasks, ∀ lease, task.lease = some lease
    → GatherLease.find system.store.leases (PayoutService.leaseKey d lease.p)
      = some
          { key := PayoutService.leaseKey d lease.p, holder := lease.p.idempotencyKey
            expiresAt := lease.expiresAt }
  exclusive : Exclusive (Task.heldKey d) system.tasks
  asked : ∀ task ∈ system.tasks, ∀ p asked, task.asking = some (p, asked)
    → asked ≤ system.store.clock

theorem Leasing.initial {d : Deployment} {store : Store} : Leasing d { store, tasks := [] } where
  rows := by simp
  exclusive := .nil
  asked := by simp

theorem Task.lease_ofRequest (now : Int) (request : Request)
    : (Task.ofRequest now request).lease = none
      ∧ (Task.ofRequest now request).asking = none := by
  cases request <;> exact ⟨rfl, rfl⟩

section Step

variable {d : Deployment} {system next : System} {index : Nat} {old new : Task}

/-- Only the lease a call asked for in time is free: a live row belongs to its holder. -/
private theorem Leasing.free_of_acquired (leasing : Leasing d system)
    (within : system.WithinTtl) {p : PayoutParams} {asked : Int} {leases : List LeaseRow}
    (past : asked ≤ system.store.clock)
    (got : GatherLease.acquire system.store.leases (PayoutService.leaseKey d p)
      p.idempotencyKey asked (asked + d.leaseTtlMs) = (leases, true))
    : ∀ other ∈ system.tasks, other.heldKey d ≠ some (PayoutService.leaseKey d p) := by
  intro other member held
  obtain ⟨lease, has, same⟩ := Option.map_eq_some_iff.mp held
  have row := leasing.rows other member lease has
  have live : asked ≤ lease.expiresAt := past.trans (within other member lease has)
  rw [same] at row
  rw [GatherLease.acquire_of_live row live] at got
  cases got

/-- A move keeps the lease invariant while every holder is within its expiry. -/
theorem Leasing.move (leasing : Leasing d system) (within : system.WithinTtl)
    (acting : Acts system.tasks next.tasks index old new)
    (step : LeaseStep d system.store next.store old.asking old.releasing old.lease new.lease)
    (clock : ClockStep system.store next.store new.asking)
    : Leasing d next := by
  have asked : ∀ task ∈ next.tasks, ∀ p asked, task.asking = some (p, asked)
      → asked ≤ next.store.clock := by
    intro task member p asked asks
    rw [clock.clock]
    rcases acting.mem_cases member with rfl | before
    · exact (clock.fresh p asked asks).le
    · exact leasing.asked task before p asked asks
  cases step with
  | quiet same kept =>
      refine ⟨?_, leasing.exclusive.acts acting ?_, asked⟩
      · intro task member lease has
        rw [same]
        rcases acting.mem_cases member with rfl | before
        · rcases kept with dropped | kept
          · simp [dropped] at has
          · exact leasing.rows old acting.mem_old lease (kept ▸ has)
        · exact leasing.rows task before lease has
      · intro key holds
        rcases kept with dropped | kept
        · simp [Task.heldKey, dropped] at holds
        · exact .inl (by simpa [Task.heldKey, kept] using holds)
  | @acquired p time asks got holds =>
      have past := leasing.asked old acting.mem_old p time asks
      have free := leasing.free_of_acquired within past got
      refine ⟨?_, leasing.exclusive.acts acting ?_, asked⟩
      · intro task member lease has
        rcases acting.mem_cases member with rfl | before
        · obtain ⟨rfl, expiry⟩ := holds lease has
          have found := GatherLease.find_acquire (congrArg Prod.snd got)
          rw [got] at found
          rw [found, expiry]
        · have apart : PayoutService.leaseKey d lease.p ≠ PayoutService.leaseKey d p :=
            fun same => free task before (by simp [Task.heldKey, has, same])
          have kept := GatherLease.find_acquire_of_ne system.store.leases p.idempotencyKey
            time (time + d.leaseTtlMs) apart
          rw [got] at kept
          rw [kept]
          exact leasing.rows task before lease has
      · intro key holding
        obtain ⟨lease, has, rfl⟩ := Option.map_eq_some_iff.mp holding
        rw [(holds lease has).1]
        exact .inr free
  | @released lease was gone left =>
      have held : old.heldKey d = some (PayoutService.leaseKey d lease.p) := by
        simp [Task.heldKey, Task.lease_of_releasing was]
      refine ⟨?_, leasing.exclusive.acts acting ?_, asked⟩
      · intro task member other has
        obtain ⟨at_, there⟩ := List.mem_iff_getElem?.mp member
        rcases acting.get_cases there with ⟨rfl, rfl⟩ | ⟨apart, before⟩
        · simp [left] at has
        · have different : PayoutService.leaseKey d other.p ≠ PayoutService.leaseKey d lease.p :=
            fun same => apart
              (leasing.exclusive before acting.found (by simp [Task.heldKey, has, same]) held)
          rw [gone, GatherLease.find_release_of_ne different]
          exact leasing.rows task (List.mem_of_getElem? before) other has
      · intro key holding
        simp [Task.heldKey, left] at holding

/-- Every event keeps the lease invariant while every holder is within its expiry. -/
theorem Leasing.step {event : Event} (leasing : Leasing d system) (within : system.WithinTtl)
    (taken : system.step d event = some next)
    : Leasing d next := by
  rcases System.step_cases taken with ⟨elapsed, -, store, tasks⟩ | ⟨request, -, store, tasks⟩
    | ⟨ledger, store, tasks⟩ | ⟨index, old, new, acting, moves⟩
  · refine ⟨?_, tasks ▸ leasing.exclusive, ?_⟩
    · rw [tasks, store]
      exact leasing.rows
    · rw [tasks, store]
      intro task member p asked asks
      have past := leasing.asked task member p asked asks
      simp only
      omega
  · obtain ⟨noLease, noAsk⟩ := Task.lease_ofRequest system.store.clock request
    refine ⟨?_, tasks ▸ leasing.exclusive.append (by simp [Task.heldKey, noLease]), ?_⟩
    · rw [tasks, store]
      intro task member lease has
      rcases List.mem_append.mp member with before | arrived
      · exact leasing.rows task before lease has
      · rw [List.mem_singleton.mp arrived, noLease] at has
        cases has
    · rw [tasks, store]
      intro task member p asked asks
      rcases List.mem_append.mp member with before | arrived
      · exact leasing.asked task before p asked asks
      · rw [List.mem_singleton.mp arrived, noAsk] at asks
        cases asks
  · refine ⟨?_, tasks ▸ leasing.exclusive, ?_⟩
    · rw [tasks, store]
      exact leasing.rows
    · rw [tasks, store]
      exact leasing.asked
  · exact leasing.move within acting moves.lease.1 moves.lease.2

end Step

end Cixtech.Payout
