import Cixtech.Foundation.Processes
import Mathlib.Data.List.TakeDrop

/-! Workers that take the items of a list one after another and share the cursor into it.
However their work interleaves, no item is taken twice, and when all of them have returned every
item was taken and settled.
-/

namespace Cixtech.Foundation

universe u v

/-- A worker is busy with an item, at some stage of it, or has returned. The items that were
taken are recorded in the order of their taking.
-/
structure SharedCursor (ι : Type u) (β : Type v) where
  items : List ι
  cursor : Nat
  taken : List ι
  settled : Nat
  workers : List (Option β)
  deriving DecidableEq, Repr

namespace SharedCursor

variable {ι : Type u} {β : Type v}

/-- Before the first worker. -/
def idle (items : List ι) : SharedCursor ι β :=
  { items, cursor := 0, taken := [], settled := 0, workers := [] }

/-- A worker starts on the item at the cursor, or returns when there is none. -/
def take (start : ι → β) (shared : SharedCursor ι β) : SharedCursor ι β × Option β :=
  match shared.items[shared.cursor]? with
  | some item =>
      ({ shared with cursor := shared.cursor + 1, taken := shared.taken ++ [item] },
        some (start item))
  | none => (shared, none)

def hire (start : ι → β) (shared : SharedCursor ι β) : SharedCursor ι β :=
  let (after, worker) := shared.take start
  { after with workers := after.workers ++ [worker] }

/-- So many workers, of which each starts before the next. -/
def hireAll (start : ι → β) : Nat → SharedCursor ι β → SharedCursor ι β
  | 0, shared => shared
  | count + 1, shared => hireAll start count (shared.hire start)

/-- A worker goes on to another stage of its item. -/
def move (shared : SharedCursor ι β) (index : Nat) (stage : β) : SharedCursor ι β :=
  { shared with workers := shared.workers.set index (some stage) }

/-- A worker is done with its item. -/
def turn (start : ι → β) (shared : SharedCursor ι β) (index : Nat) : SharedCursor ι β :=
  let (after, worker) := shared.take start
  { after with settled := after.settled + 1, workers := after.workers.set index worker }

/-- Whether every worker has returned. -/
def finished (shared : SharedCursor ι β) : Bool := shared.workers.all Option.isNone

/-- The number of workers that are busy. -/
def busy (shared : SharedCursor ι β) : Int :=
  Processes.holdings (fun worker => if worker.isSome then 1 else 0) shared.workers

/-- What is left to do, when an item that nobody has taken is `whole` and `left` says how much
a worker has to do until it is done with its own.
-/
def work (whole : Int) (left : β → Int) (shared : SharedCursor ι β) : Int :=
  whole * (shared.items.length - shared.cursor)
  + Processes.holdings (fun worker => (worker.map left).getD 0) shared.workers

/-- The items up to the cursor were taken, and each of them is settled or some worker's. -/
structure Sound (shared : SharedCursor ι β) : Prop where
  taken : shared.taken = shared.items.take shared.cursor
  within : shared.cursor ≤ shared.items.length
  accounted : shared.settled + shared.busy = shared.cursor
  drained : none ∈ shared.workers → shared.cursor = shared.items.length

-----------------------------------------------------------------------------
-- Taking an item

/-- What a taking leaves: the next item's worker, or a worker that has returned. -/
inductive Took (start : ι → β) (shared : SharedCursor ι β)
    : SharedCursor ι β × Option β → Prop
  | item {item} (there : shared.items[shared.cursor]? = some item)
    : Took start shared
        ({ shared with cursor := shared.cursor + 1, taken := shared.taken ++ [item] },
          some (start item))
  | none (past : shared.items.length ≤ shared.cursor) : Took start shared (shared, none)

theorem took (start : ι → β) (shared : SharedCursor ι β)
    : Took start shared (shared.take start) := by
  unfold take
  split
  case h_1 item there => exact .item there
  case h_2 past => exact .none (List.getElem?_eq_none_iff.mp past)

variable {start : ι → β} {shared : SharedCursor ι β}

/-- A worker that joins keeps the account. -/
theorem Sound.hire (sound : Sound shared) : Sound (shared.hire start) := by
  have accounted := sound.accounted
  unfold SharedCursor.hire
  generalize took : shared.take start = result
  cases took ▸ shared.took start with
  | item there =>
      obtain ⟨inside, -⟩ := List.getElem?_eq_some_iff.mp there
      refine ⟨?_, inside, ?_, fun returned => ?_⟩
      · rw [List.take_add_one, there, sound.taken]
        rfl
      · simp only [busy, Processes.holdings_append, Option.isSome_some, if_true, Nat.cast_add,
          Nat.cast_one] at accounted ⊢
        omega
      · have drained := sound.drained (by simpa using returned)
        omega
  | none past =>
      refine ⟨sound.taken, sound.within, ?_, fun _ => Nat.le_antisymm sound.within past⟩
      simpa [busy, Processes.holdings_append] using accounted

theorem sound_idle (items : List ι) : Sound (idle items : SharedCursor ι β) :=
  ⟨rfl, Nat.zero_le _, rfl, by simp [idle]⟩

theorem Sound.hireAll {count : Nat} (sound : Sound shared)
    : Sound (shared.hireAll start count) := by
  induction count generalizing shared with
  | zero => exact sound
  | succ count ih => exact ih sound.hire

/-- A worker that goes on with its item keeps the account. -/
theorem Sound.move {index : Nat} {before after : β} (sound : Sound shared)
    (there : shared.workers[index]? = some (some before))
    : Sound (shared.move index after) := by
  have acts : Processes.Acts shared.workers (shared.move index after).workers index
      (some before) (some after) :=
    ⟨there, rfl⟩
  refine ⟨sound.taken, sound.within, ?_, fun returned => ?_⟩
  · rw [busy, acts.holdings]
    simpa [busy, SharedCursor.move] using sound.accounted
  · exact sound.drained ((acts.mem_cases returned).resolve_left (by simp))

/-- A worker that is done with its item keeps the account. -/
theorem Sound.turn {index : Nat} {before : β} (sound : Sound shared)
    (there : shared.workers[index]? = some (some before))
    : Sound (shared.turn start index) := by
  have accounted := sound.accounted
  have acts : ∀ worker, Processes.Acts shared.workers (shared.workers.set index worker) index
      (some before) worker :=
    fun worker => ⟨there, rfl⟩
  unfold SharedCursor.turn
  generalize took : shared.take start = result
  cases took ▸ shared.took start with
  | item next =>
      obtain ⟨inside, -⟩ := List.getElem?_eq_some_iff.mp next
      refine ⟨?_, inside, ?_, fun returned => ?_⟩
      · rw [List.take_add_one, next, sound.taken]
        rfl
      · simp only [busy, (acts _).holdings, Option.isSome_some, if_true, Nat.cast_add,
          Nat.cast_one] at accounted ⊢
        omega
      · have drained := sound.drained (((acts _).mem_cases returned).resolve_left (by simp))
        omega
  | none past =>
      refine ⟨sound.taken, sound.within, ?_, fun _ => Nat.le_antisymm sound.within past⟩
      simp only [busy, (acts _).holdings, Option.isSome_some, if_true, Option.isSome_none,
        Bool.false_eq_true, if_false, Nat.cast_add, Nat.cast_one] at accounted ⊢
      omega

theorem exists_busy (unfinished : shared.finished = false)
    : ∃ (index : Nat) (stage : β), shared.workers[index]? = some (some stage) := by
  obtain ⟨worker, member, busy⟩ := List.all_eq_false.mp unfinished
  obtain ⟨index, there⟩ := List.mem_iff_getElem?.mp member
  cases worker with
  | none => simp at busy
  | some stage => exact ⟨index, stage, there⟩

/-- When all workers of a staffed list have returned, each item was taken once and settled. -/
theorem Sound.finished (sound : Sound shared) (done : shared.finished = true)
    (staffed : shared.items ≠ [] → shared.workers ≠ [])
    : shared.taken = shared.items ∧ shared.settled = shared.items.length := by
  have returned : ∀ worker ∈ shared.workers, worker = none := by
    simpa [SharedCursor.finished] using done
  have none : shared.busy = 0 := by
    refine Processes.holdings_eq_zero fun worker member => ?_
    rw [returned worker member]
    rfl
  have accounted := sound.accounted
  have atEnd : shared.cursor = shared.items.length := by
    cases staff : shared.workers with
    | nil =>
        have empty : shared.items = [] := by
          by_contra some
          exact staffed some staff
        have within := sound.within
        rw [empty] at within ⊢
        exact Nat.le_zero.mp within
    | cons worker rest =>
        have first : worker ∈ shared.workers := staff ▸ List.mem_cons_self
        exact sound.drained (returned worker first ▸ first)
  refine ⟨?_, by omega⟩
  rw [sound.taken, atEnd, List.take_length]

-----------------------------------------------------------------------------
-- The work that is left

@[simp]
theorem items_hire : (shared.hire start).items = shared.items := by
  unfold SharedCursor.hire
  generalize took : shared.take start = result
  cases took ▸ shared.took start <;> rfl

@[simp]
theorem items_turn (index : Nat) : (shared.turn start index).items = shared.items := by
  unfold SharedCursor.turn
  generalize took : shared.take start = result
  cases took ▸ shared.took start <;> rfl

theorem length_workers_hire : (shared.hire start).workers.length = shared.workers.length + 1 := by
  unfold SharedCursor.hire
  generalize took : shared.take start = result
  cases took ▸ shared.took start <;> simp

theorem length_workers_turn (index : Nat)
    : (shared.turn start index).workers.length = shared.workers.length := by
  unfold SharedCursor.turn
  generalize took : shared.take start = result
  cases took ▸ shared.took start <;> simp

@[simp]
theorem items_hireAll (count : Nat) : (shared.hireAll start count).items = shared.items := by
  induction count generalizing shared with
  | zero => rfl
  | succ count ih => rw [hireAll, ih, items_hire]

theorem length_workers_hireAll (count : Nat)
    : (shared.hireAll start count).workers.length = shared.workers.length + count := by
  induction count generalizing shared with
  | zero => rfl
  | succ count ih =>
      rw [hireAll, ih, length_workers_hire]
      omega

@[simp]
theorem settled_turn (index : Nat) : (shared.turn start index).settled = shared.settled + 1 := by
  unfold SharedCursor.turn
  generalize took : shared.take start = result
  cases took ▸ shared.took start <;> rfl

@[simp]
theorem settled_hireAll (count : Nat) : (shared.hireAll start count).settled = shared.settled := by
  induction count generalizing shared with
  | zero => rfl
  | succ count ih =>
      rw [hireAll, ih]
      unfold SharedCursor.hire
      generalize took : shared.take start = result
      cases took ▸ shared.took start <;> rfl

/-- A worker found after a turn was there before, or is at the start of its item. -/
theorem mem_turn {index : Nat} {stage : β}
    (member : some stage ∈ (shared.turn start index).workers)
    : some stage ∈ shared.workers ∨ ∃ item, stage = start item := by
  unfold SharedCursor.turn at member
  generalize took : shared.take start = result at member
  cases took ▸ shared.took start with
  | @item item _ =>
      rcases List.mem_or_eq_of_mem_set member with old | new
      · exact .inl old
      · exact .inr ⟨item, Option.some.inj new⟩
  | none _ => exact .inl ((List.mem_or_eq_of_mem_set member).resolve_right (by simp))

/-- Every busy worker of a fresh list is at the start of its item. -/
theorem mem_hireAll {count : Nat} {stage : β}
    (member : some stage ∈ (shared.hireAll start count).workers)
    : some stage ∈ shared.workers ∨ ∃ item, stage = start item := by
  induction count generalizing shared with
  | zero => exact .inl member
  | succ count ih =>
      rcases ih member with hired | new
      · unfold SharedCursor.hire at hired
        generalize took : shared.take start = result at hired
        cases took ▸ shared.took start with
        | @item item _ =>
            rcases List.mem_append.mp hired with old | last
            · exact .inl old
            · exact .inr ⟨item, Option.some.inj (List.mem_singleton.mp last)⟩
        | none _ => exact .inl (by simpa using hired)
      · exact .inr new

variable {whole : Int} {left : β → Int}

/-- Going on with an item takes off what the stages differ by. -/
theorem work_move {index : Nat} {before after : β}
    (there : shared.workers[index]? = some (some before))
    : (shared.move index after).work whole left
      = shared.work whole left - left before + left after := by
  have acts : Processes.Acts shared.workers (shared.move index after).workers index
      (some before) (some after) :=
    ⟨there, rfl⟩
  rw [work, acts.holdings]
  simp only [work, move, Option.map_some, Option.getD_some]
  omega

/-- Being done with an item takes off what was left of it. -/
theorem work_turn {index : Nat} {before : β}
    (there : shared.workers[index]? = some (some before))
    (starts : ∀ item, left (start item) = whole)
    : (shared.turn start index).work whole left = shared.work whole left - left before := by
  have acts : ∀ worker, Processes.Acts shared.workers (shared.workers.set index worker) index
      (some before) worker :=
    fun worker => ⟨there, rfl⟩
  unfold SharedCursor.turn
  generalize took : shared.take start = result
  cases took ▸ shared.took start with
  | item next =>
      simp only [work, (acts _).holdings, Option.map_some, Option.getD_some, starts, Nat.cast_add,
        Nat.cast_one, mul_sub, mul_add, mul_one]
      omega
  | none past =>
      simp only [work, (acts _).holdings, Option.map_some, Option.getD_some, Option.map_none,
        Option.getD_none]
      omega

end SharedCursor

end Cixtech.Foundation
