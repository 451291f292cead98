import Cixtech.Attribution.PoolManager
import Cixtech.Auth.Sessions
import Cixtech.Foundation.Executions
import Cixtech.Foundation.SharedCursor

/-! The cache of the balances that the pool addresses have on chain. A refresh reads them with
several workers; a read that succeeds is recorded with the time of the observation, and one that
fails leaves its error in the row.
-/

namespace Cixtech.Attribution

open Cixtech.Common Cixtech.Foundation

structure BalanceTarget where
  chain : String
  address : String
  asset : String
  deriving DecidableEq, Repr

/-- What there is to read of an address in an asset. -/
def PoolAddressRow.target (row : PoolAddressRow) (asset : String) : BalanceTarget :=
  { chain := row.chain, address := row.address, asset }

/-- A row of `pool_address_balance`, whose primary key is the target. -/
structure BalanceRow extends BalanceTarget where
  balanceBaseUnits : Int
  observedAt : Int
  source : String
  lastError : Option String
  deriving DecidableEq, Repr

/-- `DO UPDATE SET` of a balance that was read. -/
def BalanceRow.observing (balance : Int) (source : String) (now : Int) (row : BalanceRow)
    : BalanceRow :=
  { row with balanceBaseUnits := balance, observedAt := now, source, lastError := none }

/-- `DO UPDATE SET last_error`. -/
def BalanceRow.failing (lastError : String) (row : BalanceRow) : BalanceRow :=
  { row with lastError := some lastError }

structure RefreshSummary where
  observed : Nat
  failed : Nat
  deriving DecidableEq, Repr

namespace PoolBalanceCache

/-- The balance that a target has in the cache. -/
def find (cache : List BalanceRow) (target : BalanceTarget) : Option BalanceRow :=
  Table.lookup BalanceRow.toBalanceTarget cache target

/-- A balance that was read takes the place of what the row held. -/
def record (cache : List BalanceRow) (target : BalanceTarget) (balance : Int) (source : String)
    (now : Int)
    : List BalanceRow :=
  Table.upsert BalanceRow.toBalanceTarget cache
    { target with balanceBaseUnits := balance, observedAt := now, source, lastError := none }
    (BalanceRow.observing balance source now)

/-- The error takes the place of the last one; where there is no row, one of the time of the
failure is inserted with it.
-/
def recordFailure (cache : List BalanceRow) (target : BalanceTarget) (error : String) (now : Int)
    : List BalanceRow :=
  let lastError := String.ofList (Auth.sliceUnits 500 error.toList)
  Table.upsert BalanceRow.toBalanceTarget cache
    { target with
        balanceBaseUnits := 0, observedAt := now, source := "worker", lastError := some lastError }
    (BalanceRow.failing lastError)

/-- `poolAddress.addressesOrderedByIndex`. -/
def addressesOrderedByIndex (addresses : List PoolAddressRow) : List PoolAddressRow :=
  addresses.insertionSort fun left right =>
    left.chain < right.chain
    ∨ left.chain = right.chain ∧ left.derivationIndex ≤ right.derivationIndex

def targets (assetsForChain : String → List String) (addresses : List PoolAddressRow)
    : List BalanceTarget :=
  (addressesOrderedByIndex addresses).flatMap fun row => (assetsForChain row.chain).map row.target

end PoolBalanceCache

-----------------------------------------------------------------------------
-- A refresh

/-- How far a worker is with its target. -/
inductive RefreshPhase
  | reading
  | recording (value now : Int)
  | recordingFailure (error : String) (now : Int)
  | recorded
  | recordedFailure
  deriving DecidableEq, Repr

def RefreshPhase.isRecording : RefreshPhase → Bool
  | .recording .. => true
  | _ => false

def RefreshPhase.isRecordingFailure : RefreshPhase → Bool
  | .recordingFailure .. => true
  | _ => false

/-- The events that a worker is away from being done with its target. -/
def RefreshPhase.left : RefreshPhase → Int
  | .reading => 3
  | .recording .. | .recordingFailure .. => 2
  | .recorded | .recordedFailure => 1

structure RefreshTask where
  target : BalanceTarget
  phase : RefreshPhase
  deriving DecidableEq, Repr

/-- The read that a worker issues when it takes a target. -/
def RefreshTask.start (target : BalanceTarget) : RefreshTask := { target, phase := .reading }

/-- What happens to a worker: its read is answered or fails, its statement takes effect, or it
goes on behind the statement.
-/
inductive WorkerEvent
  | answer (value now : Int)
  | fail (error : String) (now : Int)
  | write
  | resume
  deriving DecidableEq, Repr

/-- A call of `refresh`. The reads that were issued are the targets that its workers took. -/
structure Refresh where
  source : String
  shared : SharedCursor BalanceTarget RefreshTask
  observed : Nat
  failed : Nat
  deriving DecidableEq, Repr

namespace Refresh

/-- The call up to where each worker has issued its first read. -/
def begin (targets : List BalanceTarget) (concurrency : Option Int) (source : Option String)
    : Refresh :=
  let concurrency := max 1 (concurrency.getD 4)
  let workers := (min concurrency targets.length).toNat
  { source := source.getD "worker"
    shared := (SharedCursor.idle targets).hireAll RefreshTask.start workers
    observed := 0
    failed := 0 }

/-- A worker goes on with its target. -/
def move (refresh : Refresh) (worker : Nat) (task : RefreshTask) (phase : RefreshPhase)
    : Refresh :=
  { refresh with shared := refresh.shared.move worker { task with phase } }

/-- The loop of `runOne`, one event of one worker at a time. -/
def advance (refresh : Refresh) (worker : Nat) (task : RefreshTask) (event : WorkerEvent)
    : Option Refresh :=
  match task.phase, event with
  | .reading, .answer value now => some (refresh.move worker task (.recording value now))
  | .reading, .fail error now => some (refresh.move worker task (.recordingFailure error now))
  | .recording .., .write => some (refresh.move worker task .recorded)
  | .recordingFailure .., .write => some (refresh.move worker task .recordedFailure)
  | .recorded, .resume =>
      some
        { refresh with
            shared := refresh.shared.turn RefreshTask.start worker
            observed := refresh.observed + 1 }
  | .recordedFailure, .resume =>
      some
        { refresh with
            shared := refresh.shared.turn RefreshTask.start worker
            failed := refresh.failed + 1 }
  | _, _ => none

def step (refresh : Refresh) (turn : Nat × WorkerEvent) : Option Refresh := do
  let task ← refresh.shared.workers[turn.1]?.join
  refresh.advance turn.1 task turn.2

/-- What the call returns, once all of its workers have. -/
def summary (refresh : Refresh) : Option RefreshSummary :=
  if refresh.shared.finished then
    some { observed := refresh.observed, failed := refresh.failed }
  else none

end Refresh

-----------------------------------------------------------------------------
-- Refreshes side by side

/-- The pool, the cache and the refreshes of its workers, with the reads that succeeded. -/
structure CacheSystem where
  addresses : List PoolAddressRow
  cache : List BalanceRow
  refreshes : List Refresh
  successes : List BalanceTarget
  deriving DecidableEq

inductive CacheEvent
  | setAddresses (rows : List PoolAddressRow)
  | refresh (targets : List BalanceTarget) (concurrency : Option Int) (source : Option String)
  | worker (index worker : Nat) (event : WorkerEvent)
  deriving DecidableEq

namespace CacheSystem

/-- An empty cache. -/
def start : CacheSystem := { addresses := [], cache := [], refreshes := [], successes := [] }

/-- The task that a worker of a refresh is busy with. -/
def taskOf (system : CacheSystem) (index worker : Nat) : Option (Refresh × RefreshTask) := do
  let refresh ← system.refreshes[index]?
  let task ← refresh.shared.workers[worker]?.join
  return (refresh, task)

/-- The cache behind the statement of a task. -/
def execute (cache : List BalanceRow) (source : String) (task : RefreshTask) : List BalanceRow :=
  match task.phase with
  | .recording value now => PoolBalanceCache.record cache task.target value source now
  | .recordingFailure error now => PoolBalanceCache.recordFailure cache task.target error now
  | _ => cache

/-- The system once a worker of a refresh has made an event of its task. -/
def worked (system : CacheSystem) (index : Nat) (refresh after : Refresh) (task : RefreshTask)
    (event : WorkerEvent)
    : CacheSystem :=
  { system with
    refreshes := system.refreshes.set index after
    cache := match event with
      | .write => execute system.cache refresh.source task
      | _ => system.cache
    successes := match event with
      | .answer .. => task.target :: system.successes
      | _ => system.successes }

def step (system : CacheSystem) : CacheEvent → Option CacheSystem
  | .setAddresses rows => some { system with addresses := rows }
  | .refresh targets concurrency source =>
      some
        { system with
            refreshes := system.refreshes ++ [Refresh.begin targets concurrency source] }
  | .worker index worker event => do
      let (refresh, task) ← system.taskOf index worker
      let after ← refresh.advance worker task event
      return system.worked index refresh after task event

/-- The task whose statement takes effect in an event. -/
def written (system : CacheSystem) : CacheEvent → Option RefreshTask
  | .worker index worker .write => (system.taskOf index worker).map Prod.snd
  | _ => none

end CacheSystem

-----------------------------------------------------------------------------
-- What a refresh comes to

namespace Refresh

/-- What an event makes of a refresh: a worker goes on with its target, or is done with it. -/
inductive Advanced (refresh : Refresh) (worker : Nat) (task : RefreshTask) : Refresh → Prop
  | moves (phase : RefreshPhase) (later : task.phase.left = phase.left + 1)
    : Advanced refresh worker task (refresh.move worker task phase)
  | observes (last : task.phase.left = 1)
    : Advanced refresh worker task
        { refresh with
            shared := refresh.shared.turn RefreshTask.start worker
            observed := refresh.observed + 1 }
  | fails (last : task.phase.left = 1)
    : Advanced refresh worker task
        { refresh with
            shared := refresh.shared.turn RefreshTask.start worker
            failed := refresh.failed + 1 }

theorem advance_cases {refresh after : Refresh} {worker : Nat} {task : RefreshTask}
    {event : WorkerEvent} (advanced : refresh.advance worker task event = some after)
    : Advanced refresh worker task after := by
  obtain ⟨target, phase⟩ := task
  cases phase <;> cases event <;> cases advanced
  all_goals first
    | exact .moves _ rfl
    | exact .observes rfl
    | exact .fails rfl

/-- The workers account for the targets, and there is one where there is a target. -/
structure Accounted (refresh : Refresh) : Prop where
  sound : refresh.shared.Sound
  settled : refresh.observed + refresh.failed = refresh.shared.settled
  staffed : refresh.shared.items ≠ [] → refresh.shared.workers ≠ []

/-- The events that the workers are away from the end. -/
def work (refresh : Refresh) : Int := refresh.shared.work 3 fun task => task.phase.left

theorem accounted_begin (targets : List BalanceTarget) (concurrency : Option Int)
    (source : Option String)
    : Accounted (begin targets concurrency source) := by
  refine ⟨(SharedCursor.sound_idle targets).hireAll, ?_, fun some none => ?_⟩
  · simp [begin, SharedCursor.idle]
  · have staff := congrArg List.length none
    simp only [begin, SharedCursor.length_workers_hireAll, SharedCursor.idle, List.length_nil]
      at staff
    have one : 0 < targets.length := by
      refine List.length_pos_iff.mpr fun empty => some ?_
      simpa [begin, SharedCursor.idle] using empty
    omega

variable {refresh after : Refresh} {worker : Nat} {task : RefreshTask} {event : WorkerEvent}

theorem Accounted.advanced (accounted : Accounted refresh)
    (busy : refresh.shared.workers[worker]? = some (some task))
    (advanced : refresh.advance worker task event = some after)
    : Accounted after := by
  obtain ⟨sound, settled, staffed⟩ := accounted
  have turned : (refresh.shared.turn RefreshTask.start worker).items ≠ []
      → (refresh.shared.turn RefreshTask.start worker).workers ≠ [] := by
    intro some none
    have same : (refresh.shared.turn RefreshTask.start worker).workers.length
        = refresh.shared.workers.length :=
      SharedCursor.length_workers_turn worker
    rw [none] at same
    exact staffed (by simpa using some) (List.length_eq_zero_iff.mp same.symm)
  cases advance_cases advanced with
  | moves phase _ =>
      refine ⟨sound.move busy, settled, fun some none => staffed some ?_⟩
      simpa [move, SharedCursor.move] using none
  | observes _ =>
      refine ⟨sound.turn busy, ?_, turned⟩
      rw [SharedCursor.settled_turn]
      dsimp only
      omega
  | fails _ =>
      refine ⟨sound.turn busy, ?_, turned⟩
      rw [SharedCursor.settled_turn]
      dsimp only
      omega

/-- Every event of a worker takes the refresh one nearer to its end. -/
theorem work_advanced (busy : refresh.shared.workers[worker]? = some (some task))
    (advanced : refresh.advance worker task event = some after)
    : after.work = refresh.work - 1 := by
  have turned : (refresh.shared.turn RefreshTask.start worker).work 3 (fun task => task.phase.left)
      = refresh.work - task.phase.left :=
    SharedCursor.work_turn busy fun _ => rfl
  cases advance_cases advanced with
  | moves phase later =>
      rw [work, move, SharedCursor.work_move busy, work]
      dsimp only
      omega
  | observes last | fails last =>
      rw [work, turned, last]

theorem Accounted.work_nonneg (accounted : Accounted refresh) : 0 ≤ refresh.work := by
  have within := accounted.sound.within
  have each : ∀ phase : RefreshPhase, 0 ≤ phase.left := by
    intro phase
    cases phase <;> simp [RefreshPhase.left]
  have rest : 0 ≤ Processes.holdings (fun worker : Option RefreshTask =>
      (worker.map fun task => task.phase.left).getD 0) refresh.shared.workers := by
    refine Processes.holdings_nonneg fun worker _ => ?_
    cases worker with
    | none => exact Int.le_refl 0
    | some task => exact each task.phase
  rw [work, SharedCursor.work]
  omega

theorem step_cases {turn : Nat × WorkerEvent} (taken : refresh.step turn = some after)
    : ∃ task,
        refresh.shared.workers[turn.1]? = some (some task)
        ∧ refresh.advance turn.1 task turn.2 = some after := by
  obtain ⟨task, busy, advanced⟩ := Option.bind_eq_some_iff.mp taken
  exact ⟨task, Option.join_eq_some_iff.mp busy, advanced⟩

/-- A refresh that has not returned can go on. -/
theorem exists_step (unreturned : refresh.summary = none)
    : ∃ turn after, refresh.step turn = some after := by
  have unfinished : refresh.shared.finished = false := by
    simpa [summary] using unreturned
  obtain ⟨worker, ⟨target, phase⟩, busy⟩ := SharedCursor.exists_busy unfinished
  have steps : ∀ event,
      refresh.step (worker, event) = refresh.advance worker ⟨target, phase⟩ event := by
    intro event
    simp [step, busy]
  cases phase with
  | reading => exact ⟨(worker, .answer 0 0), _, steps _⟩
  | recording value now => exact ⟨(worker, .write), _, steps _⟩
  | recordingFailure error now => exact ⟨(worker, .write), _, steps _⟩
  | recorded => exact ⟨(worker, .resume), _, steps _⟩
  | recordedFailure => exact ⟨(worker, .resume), _, steps _⟩

theorem items_step {turn : Nat × WorkerEvent} (taken : refresh.step turn = some after)
    : after.shared.items = refresh.shared.items := by
  obtain ⟨task, -, advanced⟩ := step_cases taken
  cases advance_cases advanced with
  | moves phase _ => rfl
  | observes _ | fails _ => exact SharedCursor.items_turn _

/-- In every run of a refresh the targets stay those of the call, and the workers account for
them.
-/
theorem accounted_of_reaches {targets : List BalanceTarget} {concurrency : Option Int}
    {source : Option String}
    (reached : Reaches step (fun _ _ => True) (begin targets concurrency source) refresh)
    : refresh.shared.items = targets ∧ Accounted refresh := by
  have called : (begin targets concurrency source).shared.items = targets := by
    simp [begin, SharedCursor.idle]
  constructor
  · exact reached.invariant called fun same _ taken => (items_step taken).trans same
  · refine reached.invariant (accounted_begin targets concurrency source) ?_
    intro state turn next accounted _ taken
    obtain ⟨task, busy, advanced⟩ := step_cases taken
    exact accounted.advanced busy advanced

/-- What a refresh returns accounts for its targets, each of which was read once. -/
theorem Accounted.summary {summary : RefreshSummary} (accounted : Accounted refresh)
    (returned : refresh.summary = some summary)
    : refresh.shared.taken = refresh.shared.items
      ∧ summary.observed + summary.failed = refresh.shared.items.length := by
  unfold Refresh.summary at returned
  split at returned
  case isFalse => cases returned
  case isTrue done =>
    cases returned
    obtain ⟨taken, settled⟩ := accounted.sound.finished done accounted.staffed
    exact ⟨taken, accounted.settled.trans settled⟩

end Refresh

-----------------------------------------------------------------------------
-- What the cache holds

namespace PoolBalanceCache

theorem find_record (cache : List BalanceRow) (target other : BalanceTarget) (balance : Int)
    (source : String) (now : Int)
    : find (record cache target balance source now) other
      = if other = target then
          some
            { target with
                balanceBaseUnits := balance, observedAt := now, source, lastError := none }
        else find cache other := by
  unfold find record
  rw [Table.lookup_upsert _ _ (BalanceRow.observing balance source now) _ fun _ => rfl]
  split
  case isFalse => rfl
  case isTrue same =>
    cases found : Table.lookup BalanceRow.toBalanceTarget cache other with
    | none => rfl
    | some row =>
        have own : row.toBalanceTarget = target := (Table.lookup_key found).trans same
        simp [BalanceRow.observing, own]

/-- A failure writes the error to the row that was there, or a row of its own time. -/
theorem find_recordFailure (cache : List BalanceRow) (target other : BalanceTarget)
    (error : String) (now : Int)
    : find (recordFailure cache target error now) other
      = if other = target then
          let lastError := String.ofList (Auth.sliceUnits 500 error.toList)
          some
            (((find cache other).map (BalanceRow.failing lastError)).getD
              { target with
                  balanceBaseUnits := 0, observedAt := now, source := "worker"
                  lastError := some lastError })
        else find cache other := by
  unfold find recordFailure
  rw [Table.lookup_upsert _ _ (BalanceRow.failing _) _ fun _ => rfl]

theorem nodup_record {cache : List BalanceRow} (target : BalanceTarget) (balance : Int)
    (source : String) (now : Int) (distinct : (cache.map BalanceRow.toBalanceTarget).Nodup)
    : ((record cache target balance source now).map BalanceRow.toBalanceTarget).Nodup :=
  Table.nodup_upsert _ (BalanceRow.observing balance source now) (fun _ => rfl) distinct

theorem nodup_recordFailure {cache : List BalanceRow} (target : BalanceTarget) (error : String)
    (now : Int) (distinct : (cache.map BalanceRow.toBalanceTarget).Nodup)
    : ((recordFailure cache target error now).map BalanceRow.toBalanceTarget).Nodup :=
  Table.nodup_upsert _ (BalanceRow.failing _) (fun _ => rfl) distinct

end PoolBalanceCache

-----------------------------------------------------------------------------
-- Histories of refreshes

namespace CacheSystem

/-- Whether no failure takes effect before the first successful read of its target. -/
def failsSeen (system : CacheSystem) (event : CacheEvent) : Bool :=
  (system.written event).all fun task =>
    !task.phase.isRecordingFailure || system.successes.contains task.target

/-- What the events leave true of the cache and of the workers. -/
structure Consistent (system : CacheSystem) : Prop where
  primaryKey : (system.cache.map BalanceRow.toBalanceTarget).Nodup
  answered
    : ∀ refresh ∈ system.refreshes, ∀ task, some task ∈ refresh.shared.workers
        → task.phase.isRecording = true → task.target ∈ system.successes

/-- Every row is of a target that was read. -/
def Seen (system : CacheSystem) : Prop :=
  ∀ target, (PoolBalanceCache.find system.cache target).isSome → target ∈ system.successes

variable {system next : CacheSystem} {event : CacheEvent}

theorem taskOf_eq {index worker : Nat} {refresh : Refresh} {task : RefreshTask}
    (found : system.taskOf index worker = some (refresh, task))
    : system.refreshes[index]? = some refresh
      ∧ refresh.shared.workers[worker]? = some (some task) := by
  obtain ⟨other, there, rest⟩ := Option.bind_eq_some_iff.mp found
  obtain ⟨own, busy, same⟩ := Option.bind_eq_some_iff.mp rest
  cases same
  exact ⟨there, Option.join_eq_some_iff.mp busy⟩

/-- What an event of a worker finds and what it leaves. -/
theorem step_worker {index worker : Nat} {event : WorkerEvent}
    (taken : system.step (.worker index worker event) = some next)
    : ∃ refresh task after,
        system.taskOf index worker = some (refresh, task)
        ∧ refresh.advance worker task event = some after
        ∧ next = system.worked index refresh after task event := by
  obtain ⟨⟨refresh, task⟩, found, rest⟩ := Option.bind_eq_some_iff.mp taken
  obtain ⟨after, advanced, same⟩ := Option.bind_eq_some_iff.mp rest
  exact ⟨refresh, task, after, found, advanced, (Option.some.inj same).symm⟩

/-- Only an answer brings a worker to where it records a balance. -/
theorem recording_advanced {refresh after : Refresh} {worker : Nat} {task other : RefreshTask}
    {event : WorkerEvent} (advanced : refresh.advance worker task event = some after)
    (member : some other ∈ after.shared.workers) (records : other.phase.isRecording = true)
    : some other ∈ refresh.shared.workers
      ∨ other.target = task.target ∧ ∃ value now, event = .answer value now := by
  have moved : ∀ {phase : RefreshPhase},
      some other ∈ (refresh.move worker task phase).shared.workers
      → some other ∈ refresh.shared.workers ∨ other = { task with phase } := by
    intro phase there
    rcases List.mem_or_eq_of_mem_set there with old | new
    · exact .inl old
    · exact .inr (Option.some.inj new)
  obtain ⟨target, phase⟩ := task
  cases phase <;> cases event <;> cases advanced
  case reading.answer value now =>
    rcases moved member with old | rfl
    · exact .inl old
    · exact .inr ⟨rfl, value, now, rfl⟩
  case recorded.resume | recordedFailure.resume =>
    rcases SharedCursor.mem_turn member with old | ⟨item, rfl⟩
    · exact .inl old
    · cases records
  all_goals
    rcases moved member with old | rfl
    · exact .inl old
    · cases records

theorem consistent_start : Consistent start :=
  ⟨List.nodup_nil, fun _ member => by cases member⟩

/-- The reads that succeeded stay recorded. -/
theorem successes_step (taken : system.step event = some next) {target : BalanceTarget}
    (member : target ∈ system.successes)
    : target ∈ next.successes := by
  cases event with
  | setAddresses rows => cases taken; exact member
  | refresh targets concurrency source => cases taken; exact member
  | worker index worker event =>
      obtain ⟨refresh, task, after, -, -, rfl⟩ := step_worker taken
      cases event with
      | answer value now => exact List.mem_cons_of_mem _ member
      | fail error now => exact member
      | write => exact member
      | resume => exact member

theorem nodup_execute {cache : List BalanceRow} {source : String} {task : RefreshTask}
    (distinct : (cache.map BalanceRow.toBalanceTarget).Nodup)
    : ((execute cache source task).map BalanceRow.toBalanceTarget).Nodup := by
  unfold execute
  split
  · exact PoolBalanceCache.nodup_record _ _ _ _ distinct
  · exact PoolBalanceCache.nodup_recordFailure _ _ _ distinct
  · exact distinct

theorem Consistent.step (consistent : Consistent system) (taken : system.step event = some next)
    : Consistent next := by
  cases event with
  | setAddresses rows => cases taken; exact ⟨consistent.primaryKey, consistent.answered⟩
  | refresh targets concurrency source =>
      cases taken
      refine ⟨consistent.primaryKey, fun refresh member task there records => ?_⟩
      rcases List.mem_append.mp member with old | new
      · exact consistent.answered refresh old task there records
      · obtain rfl := List.mem_singleton.mp new
        rcases SharedCursor.mem_hireAll there with none | ⟨item, rfl⟩
        · cases none
        · cases records
  | worker index worker event =>
      have kept : ∀ target ∈ system.successes, target ∈ next.successes :=
        fun _ member => successes_step taken member
      obtain ⟨refresh, task, after, found, advanced, rfl⟩ := step_worker taken
      obtain ⟨there, busy⟩ := taskOf_eq found
      refine ⟨?_, fun other member own inside records => ?_⟩
      · cases event with
        | write => exact nodup_execute consistent.primaryKey
        | answer value now => exact consistent.primaryKey
        | fail error now => exact consistent.primaryKey
        | resume => exact consistent.primaryKey
      · rcases List.mem_or_eq_of_mem_set member with old | rfl
        · exact kept _ (consistent.answered other old own inside records)
        · rcases recording_advanced advanced inside records with earlier | ⟨same, value, now, rfl⟩
          · exact kept _
              (consistent.answered refresh (List.mem_of_getElem? there) own earlier records)
          · rw [same]
            exact List.mem_cons_self

/-- The cache changes only where the statement of a task takes effect. -/
theorem cache_step (taken : system.step event = some next)
    : (system.written event = none ∧ next.cache = system.cache)
      ∨ ∃ (source : String) (refresh : Refresh) (task : RefreshTask),
          system.written event = some task
          ∧ refresh ∈ system.refreshes
          ∧ some task ∈ refresh.shared.workers
          ∧ next.cache = execute system.cache source task
          ∧ next.successes = system.successes := by
  cases event with
  | setAddresses rows => cases taken; exact .inl ⟨rfl, rfl⟩
  | refresh targets concurrency source => cases taken; exact .inl ⟨rfl, rfl⟩
  | worker index worker event =>
      obtain ⟨refresh, task, after, found, -, rfl⟩ := step_worker taken
      obtain ⟨there, busy⟩ := taskOf_eq found
      cases event with
      | write =>
          refine .inr ⟨refresh.source, refresh, task, ?_, List.mem_of_getElem? there,
            List.mem_of_getElem? busy, rfl, rfl⟩
          simp [written, found]
      | answer value now => exact .inl ⟨rfl, rfl⟩
      | fail error now => exact .inl ⟨rfl, rfl⟩
      | resume => exact .inl ⟨rfl, rfl⟩

/-- The balances that an event records are of one target, or of none. -/
def recordsBalance (system : CacheSystem) (event : CacheEvent) : Option BalanceTarget :=
  ((system.written event).filter fun task => task.phase.isRecording).map RefreshTask.target

/-- Whatever happens, what a row holds of the balance stays until a new one is recorded. -/
theorem observation_kept (taken : system.step event = some next) {target : BalanceTarget}
    {row : BalanceRow} (found : PoolBalanceCache.find system.cache target = some row)
    (other : system.recordsBalance event ≠ some target)
    : ∃ lastError, PoolBalanceCache.find next.cache target = some { row with lastError } := by
  rcases cache_step taken with ⟨-, same⟩ | ⟨source, _, task, wrote, -, -, same, -⟩
  · exact ⟨row.lastError, by rw [same, found]⟩
  · obtain ⟨own, phase⟩ := task
    rw [same]
    cases phase with
    | recording value now =>
        have apart : ¬ target = own := by
          rintro rfl
          exact other (by simp [recordsBalance, wrote, RefreshPhase.isRecording])
        refine ⟨row.lastError, ?_⟩
        rw [execute, PoolBalanceCache.find_record, if_neg apart, found]
    | recordingFailure error now =>
        rw [execute, PoolBalanceCache.find_recordFailure, found]
        split
        case isTrue => exact ⟨_, rfl⟩
        case isFalse => exact ⟨row.lastError, rfl⟩
    | reading | recorded | recordedFailure => exact ⟨row.lastError, found⟩

/-- The rows behind a statement: the old ones and the one of the task. -/
theorem find_execute {cache : List BalanceRow} {source : String} {task : RefreshTask}
    {target : BalanceTarget}
    (there : (PoolBalanceCache.find (execute cache source task) target).isSome)
    : (PoolBalanceCache.find cache target).isSome
      ∨ target = task.target
        ∧ (task.phase.isRecording = true ∨ task.phase.isRecordingFailure = true) := by
  by_cases same : target = task.target
  · cases phase : task.phase with
    | recording value now => exact .inr ⟨same, .inl rfl⟩
    | recordingFailure error now => exact .inr ⟨same, .inr rfl⟩
    | reading | recorded | recordedFailure => exact .inl (by simpa [execute, phase] using there)
  · refine .inl ?_
    cases phase : task.phase with
    | recording value now =>
        simpa [execute, phase, PoolBalanceCache.find_record, same] using there
    | recordingFailure error now =>
        simpa [execute, phase, PoolBalanceCache.find_recordFailure, same] using there
    | reading | recorded | recordedFailure => simpa [execute, phase] using there

/-- A failure whose target was read before keeps the rows to what was read. -/
theorem Seen.step (consistent : Consistent system) (seen : Seen system)
    (allowed : system.failsSeen event = true) (taken : system.step event = some next)
    : Seen next := by
  intro target there
  rcases cache_step taken with ⟨-, same⟩ | ⟨source, refresh, task, wrote, member, busy, same, kept⟩
  · rw [same] at there
    exact successes_step taken (seen target there)
  · rw [same] at there
    rw [kept]
    rcases find_execute there with old | ⟨rfl, records | fails⟩
    · exact seen target old
    · exact consistent.answered refresh member task busy records
    · simpa [failsSeen, wrote, fails] using allowed

/-- A failure that is recorded before any successful read leaves a row of what nobody read. -/
theorem failsSeen_of_seen (seen : Seen next) (taken : system.step event = some next)
    : system.failsSeen event = true := by
  rcases cache_step taken with ⟨none, -⟩ | ⟨source, _, task, wrote, -, -, same, kept⟩
  · rw [failsSeen, none]
    rfl
  · obtain ⟨own, phase⟩ := task
    cases phase with
    | recordingFailure error now =>
        have row : (PoolBalanceCache.find next.cache own).isSome := by
          rw [same, execute, PoolBalanceCache.find_recordFailure, if_pos rfl]
          rfl
        have read := seen own row
        rw [kept] at read
        simpa [failsSeen, wrote] using .inr read
    | reading | recording _ _ | recorded | recordedFailure =>
        simp [failsSeen, wrote, RefreshPhase.isRecordingFailure]

theorem consistent_of_reaches {guard : CacheSystem → CacheEvent → Prop}
    (reached : Reaches step guard start system)
    : Consistent system :=
  reached.invariant consistent_start fun consistent _ taken => consistent.step taken

/-- Where no failure comes before the first successful read of its target, every row is of a
target that was read.
-/
theorem seen_of_reaches
    (reached : Reaches step (fun system event => system.failsSeen event = true) start system)
    : Seen system :=
  reached.invariant_with consistent_of_reaches (fun _ there => by cases there)
    fun consistent seen allowed taken => seen.step consistent allowed taken

end CacheSystem

end Cixtech.Attribution
