import Cixtech.Webhooks.Dispatcher

/-! Deliveries that are delivered or dead. A failed attempt that is to be retried is recorded
whatever became of the delivery in the meantime, which is all that can bring one back; it cannot
happen while no delivery is in the hands of two runs, or cancelled in the hands of one.
-/

namespace Cixtech.Webhooks

open Cixtech.Foundation

/-- Whether a run is about to record a failed attempt of a delivery, to be retried. -/
def DispatchPhase.retries (id : String) : DispatchPhase → Bool
  | .failing delivery _ _ dead _ => !dead && decide (delivery.id = id)
  | _ => false

namespace Dispatching

/-- Whether an event records a failed attempt of a delivery, to be retried. -/
def recordsRetry (system : Dispatching) (id : String) (event : DispatchEvent) : Bool :=
  event.applies
    && event.run.any fun index => (system.runs[index]?).any fun run => run.phase.retries id

-----------------------------------------------------------------------------
-- One step

theorem terminal_enqueue {rows : List DeliveryRow} {id : String} (terminal : Terminal rows id)
    (new tenantId body : String) (now : Int)
    : Terminal (WebhookOutbox.enqueue rows new tenantId body now) id := by
  obtain ⟨row, member, own⟩ := terminal.stored
  rw [WebhookOutbox.enqueue, Table.insertIgnore_eq]
  split
  case isTrue => exact terminal
  case isFalse fresh =>
    refine ⟨⟨row, List.mem_append_left _ member, own⟩, fun other inRows same => ?_⟩
    rcases List.mem_append.mp inRows with old | last
    · exact terminal.ended other old same
    · rw [List.mem_singleton.mp last] at same
      refine absurd (List.mem_map.mpr ⟨row, member, ?_⟩) fresh
      rw [own, ← same]

/-- An update of the status by id. -/
theorem terminal_update {rows : List DeliveryRow} {id target : String}
    (terminal : Terminal rows id) {change : DeliveryRow → DeliveryRow}
    (ids : ∀ row, (change row).id = row.id)
    (ended : target = id → ∀ row, (change row).status ≠ .pending)
    : Terminal (Table.update DeliveryRow.id rows target change) id := by
  refine terminal.map (fun row => ?_) fun row _ own busy => ?_
  · split
    · exact ids row
    · rfl
  · split
    case isTrue same => exact ended (same.symm.trans own) row
    case isFalse => exact busy

theorem terminal_claimDue {rows : List DeliveryRow} {id : String} (terminal : Terminal rows id)
    (locked : List String) (now : Int) (limit : Nat) (leaseMs : Int)
    : Terminal (WebhookOutbox.claimDue rows locked now limit leaseMs).1 id := by
  refine terminal.map (fun row => ?_) fun row _ _ busy => ?_
  · split <;> rfl
  · split <;> exact busy

/-- The statement that completes a delivery keeps another terminal one, and its own unless it
records an attempt to be retried.
-/
theorem terminal_completed_iff {rows : List DeliveryRow} {id : String}
    (terminal : Terminal rows id) (phase : DispatchPhase)
    : Terminal (completed rows phase) id ↔ phase.retries id = false := by
  cases phase with
  | marking delivery rest =>
      refine iff_of_true (terminal_update terminal (fun _ => rfl) fun _ _ => ?_) rfl
      simp
  | failing delivery nextAttempt error dead rest =>
      cases dead with
      | true =>
          refine iff_of_true (terminal_update terminal (fun _ => rfl) fun _ _ => ?_) rfl
          simp
      | false =>
          by_cases own : delivery.id = id
          · refine iff_of_false (fun stays => ?_) (by simp [DispatchPhase.retries, own])
            obtain ⟨row, member, ofId⟩ := stays.stored
            refine stays.ended row member ofId ?_
            obtain ⟨before, -, rfl⟩ := List.mem_map.mp member
            have hit : before.id = delivery.id := by
              rw [own, ← ofId]
              split <;> rfl
            rw [if_pos hit]
            rfl
          · refine iff_of_true (terminal_update terminal (fun _ => rfl) fun same => ?_)
              (by simp [DispatchPhase.retries, own])
            exact absurd same own
  | _ => exact iff_of_true terminal rfl

theorem recordsRetry_of_run {system : Dispatching} {event : DispatchEvent} {index : Nat}
    {run : DispatchRun} (own : event.run = some index) (found : system.runs[index]? = some run)
    (id : String)
    : system.recordsRetry id event = (event.applies && run.phase.retries id) := by
  simp [recordsRetry, own, found]

/-- A terminal delivery that is not replayed stays terminal exactly where no failed attempt of it
is recorded to be retried.
-/
theorem terminal_step_iff {system next : Dispatching} {event : DispatchEvent} {id : String}
    (terminal : Terminal system.rows id) (taken : system.step event = some next)
    (unreplayed : event.replays id = false)
    : Terminal next.rows id ↔ system.recordsRetry id event = false := by
  rcases step_cases taken with ⟨new, tenantId, body, now, rfl, rfl⟩ | ⟨run, -, rfl, rfl⟩
    | ⟨target, rfl, rfl⟩ | ⟨target, now, rfl, rfl⟩ | ⟨index, run, after, own, advanced, acts⟩
  · exact iff_of_true (terminal_enqueue terminal new tenantId body now) rfl
  · exact iff_of_true terminal rfl
  · refine iff_of_true (terminal_update terminal (fun _ => rfl) fun _ _ => ?_) rfl
    simp
  · refine iff_of_true (terminal_update terminal (fun _ => rfl) fun same => ?_) rfl
    simp [DispatchEvent.replays, same] at unreplayed
  · rw [recordsRetry_of_run own acts.found]
    cases retried : event.applies && run.phase.retries id with
    | true =>
        obtain ⟨applies, retries⟩ := Bool.and_eq_true_iff.mp retried
        have failing : ∃ delivery nextAttempt error dead rest,
            run.phase = .failing delivery nextAttempt error dead rest := by
          cases phase : run.phase with
          | failing delivery nextAttempt error dead rest => exact ⟨_, _, _, _, _, rfl⟩
          | _ => simp [phase, DispatchPhase.retries] at retries
        obtain ⟨delivery, nextAttempt, error, dead, rest, failing⟩ := failing
        rw [advance_completes advanced applies failing, terminal_completed_iff terminal, retries]
    | false =>
        refine iff_of_true ?_ rfl
        have effect := advance_effect advanced
        generalize next.rows = rows at effect ⊢
        cases effect with
        | none => exact terminal
        | claims locked => exact terminal_claimDue terminal locked ..
        | completes applied =>
            rw [applied, Bool.true_and] at retried
            exact (terminal_completed_iff terminal run.phase).mpr retried

theorem holds_of_sublist {run after : DispatchRun} {id : String}
    (fewer : after.phase.batch.Sublist run.phase.batch) (held : after.holds id = true)
    : run.holds id = true := by
  simp only [DispatchRun.holds, List.any_eq_true] at held ⊢
  obtain ⟨delivery, member, own⟩ := held
  exact ⟨delivery, fewer.subset member, own⟩

/-- Nobody claims a terminal delivery. -/
theorem holds_of_terminal_step {system next : Dispatching} {event : DispatchEvent} {id : String}
    (terminal : Terminal system.rows id) (taken : system.step event = some next) {index : Nat}
    (held : next.holds index id = true)
    : system.holds index id = true := by
  simp only [holds, Option.any_eq_true] at held ⊢
  obtain ⟨later, there, holding⟩ := held
  rcases step_cases taken with ⟨new, tenantId, body, now, rfl, rfl⟩ | ⟨run, claiming, rfl, rfl⟩
    | ⟨target, rfl, rfl⟩ | ⟨target, now, rfl, rfl⟩ | ⟨acting, run, after, own, advanced, acts⟩
  · exact ⟨later, there, holding⟩
  · rcases Processes.get_append_cases there with ⟨-, rfl⟩ | before
    · simp [DispatchRun.holds, claiming, DispatchPhase.batch] at holding
    · exact ⟨later, before, holding⟩
  · exact ⟨later, there, holding⟩
  · exact ⟨later, there, holding⟩
  · rcases acts.get_cases there with ⟨rfl, rfl⟩ | ⟨-, before⟩
    · refine ⟨run, acts.found, ?_⟩
      rcases advance_batch advanced with fewer | ⟨-, locked, -, claimed⟩
      · exact holds_of_sublist fewer holding
      · simp only [DispatchRun.holds, List.any_eq_true, decide_eq_true_eq] at holding
        obtain ⟨delivery, member, same⟩ := holding
        rw [claimed] at member
        obtain ⟨row, stored, ofDelivery, pending⟩ := WebhookOutbox.claimDue_pending member
        exact absurd pending (terminal.ended row stored (ofDelivery.trans same))
    · exact ⟨later, before, holding⟩

/-- A run posts only what it has claimed. -/
theorem holds_of_posted {system : Dispatching} {event : DispatchEvent} {id : String}
    (posts : system.posted event = some id)
    : ∃ index, event.run = some index ∧ system.holds index id = true := by
  have ofRun : ∀ {index : Nat}, system.posted (.post index true 200) = some id
      → system.holds index id = true := by
    intro index found
    obtain ⟨run, there, posting⟩ := Option.bind_eq_some_iff.mp found
    split at posting
    case h_1 delivery endpoint rest phase =>
      cases posting
      simp [holds, there, DispatchRun.holds, phase, DispatchPhase.batch]
    case h_2 => cases posting
  cases event with
  | post index ok status => exact ⟨index, rfl, ofRun posts⟩
  | reject index error applied => exact ⟨index, rfl, ofRun posts⟩
  | _ => cases posts

-----------------------------------------------------------------------------
-- Whole runs

/-- A delivery that was terminal in an earlier state still is, in the hands of no other runs. -/
structure StaysTerminal (before : Dispatching) (id : String) (system : Dispatching) : Prop where
  terminal : Terminal system.rows id
  holders : ∀ index, system.holds index id = true → before.holds index id = true

theorem StaysTerminal.reached {system later : Dispatching} {id : String}
    (terminal : Terminal system.rows id)
    (reached
      : Reaches step
          (fun state event => event.replays id = false ∧ state.recordsRetry id event = false)
          system later)
    : StaysTerminal system id later := by
  have start : StaysTerminal system id system := ⟨terminal, fun _ held => held⟩
  refine reached.invariant start ?_
  rintro state event next ⟨terminal, holders⟩ ⟨unreplayed, unrecorded⟩ taken
  exact ⟨(terminal_step_iff terminal taken unreplayed).mpr unrecorded,
    fun index held => holders index (holds_of_terminal_step terminal taken held)⟩

/-- Whether an event leaves each delivery to the run that has claimed it: no run claims one that
another has, none is cancelled in the hands of a run, and the reply to the completion of a
delivered one is not lost.
-/
def undisturbed (system : Dispatching) : DispatchEvent → Bool
  | .claim index locked =>
      (system.runs[index]?).all fun run =>
        (WebhookOutbox.claimDue system.rows locked run.now run.limit leaseMs).2.all fun delivery =>
          !system.runs.any (·.holds delivery.id)
  | .kill id => !system.runs.any (·.holds id)
  | .reject index _ applied =>
      !applied
        || (system.runs[index]?).all fun run =>
            match run.phase with
            | .marking _ _ => false
            | _ => true
  | _ => true

/-- Every delivery that a run has claimed is pending, and in no other hands. -/
structure Exclusive (system : Dispatching) : Prop where
  ids : (system.rows.map DeliveryRow.id).Nodup
  batches : ∀ run ∈ system.runs, (run.phase.batch.map DueDelivery.id).Nodup
  alone : ∀ {first second : Nat} {id : String},
    system.holds first id = true → system.holds second id = true → first = second
  pending : ∀ {index : Nat} {id : String}, system.holds index id = true → Pending system.rows id

/-- The delivery that a run is about to complete, and what it has to do after it. -/
def completing : DispatchPhase → Option (DueDelivery × List DueDelivery)
  | .marking delivery rest => some (delivery, rest)
  | .failing delivery _ _ _ rest => some (delivery, rest)
  | _ => none

/-- A completion leaves the other deliveries as they are. -/
theorem pending_completed {rows : List DeliveryRow} {phase : DispatchPhase} {id : String}
    (pending : Pending rows id)
    (others : ∀ delivery rest, completing phase = some (delivery, rest) → delivery.id ≠ id)
    : Pending (completed rows phase) id := by
  have spares : ∀ {target : String} {change : DeliveryRow → DeliveryRow}, target ≠ id
      → (∀ row, (change row).id = row.id)
      → Pending (Table.update DeliveryRow.id rows target change) id := by
    intro target change apart ids
    refine pending.map (fun row => ?_) fun row _ own stays => ?_
    · split
      · exact ids row
      · rfl
    · rw [if_neg fun same => apart (same.symm.trans own)]
      exact stays
  cases phase with
  | marking delivery rest => exact spares (others delivery rest rfl) fun _ => rfl
  | failing delivery nextAttempt error dead rest =>
      exact spares (others delivery rest rfl) fun _ => rfl
  | _ => exact pending

/-- A run that has completed a delivery has it no more, unless a reply was lost. -/
theorem advance_completing {system : Dispatching} {later : List DeliveryRow}
    {run after : DispatchRun} {event : DispatchEvent} {index : Nat}
    (advanced : advance system.rows run event = some (later, after))
    (own : event.run = some index) (found : system.runs[index]? = some run)
    (kept : system.undisturbed event = true) (applies : event.applies = true)
    {delivery : DueDelivery} {rest : List DueDelivery}
    (at_ : completing run.phase = some (delivery, rest))
    : after.phase.batch.Sublist rest := by
  cases phase : run.phase with
  | marking current others =>
      rw [phase] at at_
      obtain ⟨rfl, rfl⟩ := Prod.mk.inj (Option.some.inj at_)
      cases event with
      | claim acting locked => simp [advance, phase] at advanced
      | complete acting =>
          simp only [advance, phase, Option.some.injEq, Prod.mk.injEq] at advanced
          rw [← advanced.2, batch_toNext]
      | reject acting error applied =>
          obtain rfl : acting = index := Option.some.inj own
          have applied : applied = true := applies
          simp [undisturbed, applied, found, phase] at kept
      | _ => cases applies
  | failing current nextAttempt error dead others =>
      rw [phase] at at_
      obtain ⟨rfl, rfl⟩ := Prod.mk.inj (Option.some.inj at_)
      cases event with
      | claim acting locked => simp [advance, phase] at advanced
      | complete acting =>
          simp only [advance, phase, Option.some.injEq, Prod.mk.injEq] at advanced
          rw [← advanced.2, batch_toNext]
      | reject acting error applied =>
          simp only [advance, phase, Option.some.injEq, Prod.mk.injEq] at advanced
          rw [← advanced.2]
          exact List.nil_sublist _
      | _ => cases applies
  | _ => simp [phase, completing] at at_

/-- What an await of a run leaves in its hands, and in those of the others. -/
theorem holds_cases {system next : Dispatching} {acting index : Nat} {run after : DispatchRun}
    (acts : Processes.Acts system.runs next.runs acting run after) {id : String}
    (held : next.holds index id = true)
    : (index = acting ∧ after.holds id = true)
      ∨ (index ≠ acting ∧ system.holds index id = true) := by
  simp only [holds, Option.any_eq_true] at held ⊢
  obtain ⟨later, there, holding⟩ := held
  rcases acts.get_cases there with ⟨same, rfl⟩ | ⟨apart, before⟩
  · exact .inl ⟨same, holding⟩
  · exact .inr ⟨apart, later, before, holding⟩

theorem holds_of_found {system : Dispatching} {index : Nat} {run : DispatchRun}
    (found : system.runs[index]? = some run) {id : String} (holding : run.holds id = true)
    : system.holds index id = true := by
  simp [holds, found, holding]

theorem mem_of_holds {run : DispatchRun} {id : String} (holding : run.holds id = true)
    : id ∈ run.phase.batch.map DueDelivery.id := by
  simp only [DispatchRun.holds, List.any_eq_true, decide_eq_true_eq] at holding
  exact List.mem_map.mpr holding

/-- What an await makes of the table keeps its ids. -/
theorem ids_effect {rows later : List DeliveryRow} {run : DispatchRun} {applies : Bool}
    (effect : RunEffect rows run applies later)
    : later.map DeliveryRow.id = rows.map DeliveryRow.id := by
  have rewritten : ∀ change : DeliveryRow → DeliveryRow, (∀ row, (change row).id = row.id)
      → (rows.map change).map DeliveryRow.id = rows.map DeliveryRow.id := by
    intro change ids
    rw [List.map_map]
    exact List.map_congr_left fun row _ => ids row
  cases effect with
  | none => rfl
  | claims locked => exact rewritten _ fun row => by split <;> rfl
  | completes applied =>
      cases run.phase with
      | marking delivery rest => exact rewritten _ fun row => by split <;> rfl
      | failing delivery nextAttempt error dead rest =>
          exact rewritten _ fun row => by split <;> rfl
      | _ => rfl

/-- What an await makes of the table keeps a pending delivery that it does not complete. -/
theorem pending_effect {rows later : List DeliveryRow} {run : DispatchRun} {applies : Bool}
    (effect : RunEffect rows run applies later) {id : String} (pending : Pending rows id)
    (others
      : ∀ delivery rest, applies = true → completing run.phase = some (delivery, rest)
        → delivery.id ≠ id)
    : Pending later id := by
  cases effect with
  | none => exact pending
  | claims locked =>
      refine pending.map (fun row => ?_) fun row _ _ stays => ?_
      · split <;> rfl
      · split <;> exact stays
  | completes applied =>
      exact pending_completed pending fun delivery rest => others delivery rest applied

theorem completing_batch {phase : DispatchPhase} {delivery : DueDelivery} {rest : List DueDelivery}
    (at_ : completing phase = some (delivery, rest))
    : phase.batch = delivery :: rest := by
  cases phase with
  | marking current others =>
      obtain ⟨rfl, rfl⟩ := Prod.mk.inj (Option.some.inj at_)
      rfl
  | failing current nextAttempt error dead others =>
      obtain ⟨rfl, rfl⟩ := Prod.mk.inj (Option.some.inj at_)
      rfl
  | _ => cases at_

/-- A run that claims nothing new keeps what is held pending and in one hand. -/
theorem Exclusive.keeps {system next : Dispatching} {event : DispatchEvent} {acting : Nat}
    {run after : DispatchRun} (exclusive : Exclusive system)
    (kept : system.undisturbed event = true) (own : event.run = some acting)
    (advanced : advance system.rows run event = some (next.rows, after))
    (acts : Processes.Acts system.runs next.runs acting run after)
    (fewer : after.phase.batch.Sublist run.phase.batch)
    : Exclusive next := by
  have effect := advance_effect advanced
  have before : ∀ {index id}, next.holds index id = true → system.holds index id = true := by
    intro index id held
    rcases holds_cases acts held with ⟨rfl, holding⟩ | ⟨-, others⟩
    · exact holds_of_found acts.found (holds_of_sublist fewer holding)
    · exact others
  refine ⟨ids_effect effect ▸ exclusive.ids, fun other member => ?_,
    fun first second => exclusive.alone (before first) (before second), fun held => ?_⟩
  · rcases acts.mem_cases member with rfl | old
    · exact (exclusive.batches run acts.mem_old).sublist (fewer.map DueDelivery.id)
    · exact exclusive.batches other old
  · refine pending_effect effect (exclusive.pending (before held)) ?_
    rintro delivery rest applies at_ rfl
    have batch := completing_batch at_
    have current : run.holds delivery.id = true := by simp [DispatchRun.holds, batch]
    rcases holds_cases acts held with ⟨-, holding⟩ | ⟨apart, others⟩
    · -- The run has gone on to the rest of its batch, where the delivery is not again.
      have later := (advance_completing advanced own acts.found kept applies at_).map DueDelivery.id
      have distinct := exclusive.batches run acts.mem_old
      rw [batch, List.map_cons, List.nodup_cons] at distinct
      exact distinct.1 (later.subset (mem_of_holds holding))
    · exact apart (exclusive.alone others (holds_of_found acts.found current))

/-- A run that claims what nobody has keeps what is held pending and in one hand. -/
theorem Exclusive.claims {system next : Dispatching} {acting : Nat} {locked : List String}
    {run after : DispatchRun} (exclusive : Exclusive system)
    (kept : system.undisturbed (.claim acting locked) = true)
    (advanced : advance system.rows run (.claim acting locked) = some (next.rows, after))
    (acts : Processes.Acts system.runs next.runs acting run after)
    (claimed
      : after.phase.batch
        = (WebhookOutbox.claimDue system.rows locked run.now run.limit leaseMs).2)
    : Exclusive next := by
  have effect := advance_effect advanced
  have free : ∀ {id : String} {index : Nat}, after.holds id = true
      → ¬ system.holds index id = true := by
    intro id index holding held
    simp only [undisturbed, acts.found, Option.all_some, List.all_eq_true] at kept
    obtain ⟨delivery, member, rfl⟩ := List.mem_map.mp (mem_of_holds holding)
    have nobody := kept delivery (claimed ▸ member)
    simp only [Bool.not_eq_true', List.any_eq_false] at nobody
    simp only [holds, Option.any_eq_true] at held
    obtain ⟨other, there, holdsIt⟩ := held
    exact nobody other (List.mem_of_getElem? there) holdsIt
  have idle : completing run.phase = none := by
    simp only [advance] at advanced
    split at advanced
    case h_1 phase => rw [phase]; rfl
    case h_2 => cases advanced
  have others : ∀ {id : String} delivery rest, (DispatchEvent.claim acting locked).applies = true
      → completing run.phase = some (delivery, rest) → delivery.id ≠ id := by
    intro id delivery rest _ at_
    rw [idle] at at_
    cases at_
  refine ⟨ids_effect effect ▸ exclusive.ids, fun other member => ?_, fun first second => ?_,
    fun held => ?_⟩
  · rcases acts.mem_cases member with rfl | old
    · rw [claimed]
      exact WebhookOutbox.claimDue_nodup exclusive.ids ..
    · exact exclusive.batches other old
  · rcases holds_cases acts first with ⟨rfl, holding⟩ | ⟨-, early⟩
    · rcases holds_cases acts second with ⟨rfl, -⟩ | ⟨-, other⟩
      · rfl
      · exact absurd other (free holding)
    · rcases holds_cases acts second with ⟨-, holding⟩ | ⟨-, other⟩
      · exact absurd early (free holding)
      · exact exclusive.alone early other
  · rcases holds_cases acts held with ⟨-, holding⟩ | ⟨-, early⟩
    · obtain ⟨delivery, member, rfl⟩ := List.mem_map.mp (mem_of_holds holding)
      rw [claimed] at member
      obtain ⟨row, stored, ofDelivery, isPending⟩ := WebhookOutbox.claimDue_pending member
      have pending : Pending system.rows delivery.id := by
        intro other inRows same
        have ofRow := Table.lookup_of_mem exclusive.ids stored
        have ofOther := Table.lookup_of_mem exclusive.ids inRows
        rw [same, ← ofDelivery] at ofOther
        exact Option.some.inj (ofRow.symm.trans ofOther) ▸ isPending
      exact pending_effect effect pending others
    · exact pending_effect effect (exclusive.pending early) others

/-- A statement that names a delivery by its id, under the others. -/
theorem pending_update {rows : List DeliveryRow} {id target : String} (pending : Pending rows id)
    {change : DeliveryRow → DeliveryRow} (ids : ∀ row, (change row).id = row.id)
    (stays : target = id → ∀ row, (change row).status = .pending)
    : Pending (Table.update DeliveryRow.id rows target change) id := by
  refine pending.map (fun row => ?_) fun row _ own before => ?_
  · split
    · exact ids row
    · rfl
  · split
    case isTrue same => exact stays (same.symm.trans own) row
    case isFalse => exact before

/-- A change of the table by id, of deliveries in no hands or made pending. -/
theorem Exclusive.update {system : Dispatching} (exclusive : Exclusive system) (target : String)
    {change : DeliveryRow → DeliveryRow} (ids : ∀ row, (change row).id = row.id)
    (stays
      : (∀ row, (change row).status = .pending)
        ∨ ∀ index, ¬ system.holds index target = true)
    : Exclusive { system with rows := Table.update DeliveryRow.id system.rows target change } := by
  refine ⟨Table.nodup_update target change ids exclusive.ids, exclusive.batches, exclusive.alone,
    fun {index id} held => ?_⟩
  refine pending_update (exclusive.pending held) ids fun same => ?_
  rcases stays with pending | free
  · exact pending
  · exact absurd (same ▸ held) (free index)

/-- Every event that leaves deliveries to the runs that have claimed them keeps what is held
pending and in one hand.
-/
theorem Exclusive.step {system next : Dispatching} {event : DispatchEvent}
    (exclusive : Exclusive system) (kept : system.undisturbed event = true)
    (taken : system.step event = some next)
    : Exclusive next := by
  rcases step_cases taken with ⟨new, tenantId, body, now, rfl, rfl⟩ | ⟨run, claiming, rfl, rfl⟩
    | ⟨target, rfl, rfl⟩ | ⟨target, now, rfl, rfl⟩ | ⟨acting, run, after, own, advanced, acts⟩
  · refine ⟨Table.nodup_insertIgnore _ exclusive.ids, exclusive.batches, exclusive.alone,
      fun held => ?_⟩
    have pending := exclusive.pending held
    intro row member same
    simp only [WebhookOutbox.enqueue, Table.insertIgnore_eq] at member
    split at member
    · exact pending row member same
    · rcases List.mem_append.mp member with old | last
      · exact pending row old same
      · rw [List.mem_singleton.mp last]
  · have before : ∀ {index id},
        ({ system with runs := system.runs ++ [run] } : Dispatching).holds index id = true
        → system.holds index id = true := by
      intro index id held
      simp only [holds, Option.any_eq_true] at held ⊢
      obtain ⟨later, there, holding⟩ := held
      rcases Processes.get_append_cases there with ⟨-, rfl⟩ | old
      · simp [DispatchRun.holds, claiming, DispatchPhase.batch] at holding
      · exact ⟨later, old, holding⟩
    refine ⟨exclusive.ids, fun other member => ?_,
      fun first second => exclusive.alone (before first) (before second),
      fun held => exclusive.pending (before held)⟩
    rcases List.mem_append.mp member with old | last
    · exact exclusive.batches other old
    · simp [List.mem_singleton.mp last, claiming, DispatchPhase.batch]
  · refine exclusive.update target (fun _ => rfl) (.inr fun index held => ?_)
    simp only [undisturbed, Bool.not_eq_true', List.any_eq_false] at kept
    simp only [holds, Option.any_eq_true] at held
    obtain ⟨run, there, holding⟩ := held
    exact kept run (List.mem_of_getElem? there) holding
  · exact exclusive.update target (fun _ => rfl) (.inl fun _ => rfl)
  · rcases advance_batch advanced with fewer | ⟨index, locked, rfl, claimed⟩
    · exact exclusive.keeps kept own advanced acts fewer
    · obtain rfl : index = acting := Option.some.inj own
      exact exclusive.claims kept advanced acts claimed

theorem exclusive_initial {rows : List DeliveryRow} (ids : (rows.map DeliveryRow.id).Nodup)
    : Exclusive (initial rows) :=
  ⟨ids, fun run member => (by cases member), fun held => (by simp [holds, initial] at held),
    fun held => (by simp [holds, initial] at held)⟩

/-- In such runs no failed attempt is recorded of a delivery that is terminal. -/
theorem Exclusive.unrecorded {system : Dispatching} (exclusive : Exclusive system) {id : String}
    (terminal : Terminal system.rows id) (event : DispatchEvent)
    : system.recordsRetry id event = false ∧ ∀ index, system.holds index id = false := by
  have unheld : ∀ index, system.holds index id = false := by
    intro index
    rw [Bool.eq_false_iff]
    exact fun held => terminal.not_pending (exclusive.pending held)
  refine ⟨?_, unheld⟩
  rw [Bool.eq_false_iff]
  intro records
  simp only [recordsRetry, Bool.and_eq_true, Option.any_eq_true] at records
  obtain ⟨-, index, -, run, found, retries⟩ := records
  have holding : run.holds id = true := by
    cases phase : run.phase with
    | failing delivery nextAttempt error dead rest =>
        simp only [phase, DispatchPhase.retries, Bool.and_eq_true, decide_eq_true_eq] at retries
        simp [DispatchRun.holds, phase, DispatchPhase.batch, retries.2]
    | _ => simp [phase, DispatchPhase.retries] at retries
  have held := holds_of_found found holding
  rw [unheld index] at held
  cases held

/-- A terminal delivery among deliveries that are each in one hand. -/
structure Undisturbed (id : String) (system : Dispatching) : Prop where
  exclusive : Exclusive system
  terminal : Terminal system.rows id

theorem Undisturbed.step {system next : Dispatching} {event : DispatchEvent} {id : String}
    (undisturbed : Undisturbed id system) (kept : system.undisturbed event = true)
    (unreplayed : event.replays id = false) (taken : system.step event = some next)
    : Undisturbed id next := by
  obtain ⟨exclusive, terminal⟩ := undisturbed
  exact ⟨exclusive.step kept taken,
    (terminal_step_iff terminal taken unreplayed).mpr (exclusive.unrecorded terminal event).1⟩

/-- A delivery that is delivered or dead stays so, step by step, exactly where no failed attempt of
it is recorded to be retried, until it is replayed; then only runs that had claimed it before post
it. In runs that leave each delivery to the run that has claimed it, it stays so and is posted no
more.
-/
theorem terminal_deliveries_stay {system : Dispatching} {id : String}
    (terminal : Terminal system.rows id)
    : (∀ event next, system.step event = some next → event.replays id = false
        → (Terminal next.rows id ↔ system.recordsRetry id event = false))
      ∧ (∀ later,
          Reaches step
            (fun state event => event.replays id = false ∧ state.recordsRetry id event = false)
            system later
          → Terminal later.rows id
            ∧ ∀ event, later.posted event = some id
              → ∃ index, event.run = some index ∧ system.holds index id = true)
      ∧ ∀ rows, (rows.map DeliveryRow.id).Nodup
          → Reaches step (fun state event => state.undisturbed event = true) (initial rows) system
          → ∀ later,
              Reaches step
                (fun state event => state.undisturbed event = true ∧ event.replays id = false)
                system later
              → Terminal later.rows id ∧ ∀ event, later.posted event ≠ some id := by
  refine ⟨fun event next taken unreplayed => terminal_step_iff terminal taken unreplayed,
    fun later reached => ?_, fun rows ids before later reached => ?_⟩
  · have stays := StaysTerminal.reached terminal reached
    refine ⟨stays.terminal, fun event posts => ?_⟩
    obtain ⟨index, own, held⟩ := holds_of_posted posts
    exact ⟨index, own, stays.holders index held⟩
  · have exclusive : Exclusive system :=
      before.invariant (exclusive_initial ids) fun exclusive kept taken =>
        exclusive.step kept taken
    have start : Undisturbed id system := ⟨exclusive, terminal⟩
    have undisturbed : Undisturbed id later :=
      reached.invariant start fun undisturbed kept taken => undisturbed.step kept.1 kept.2 taken
    refine ⟨undisturbed.terminal, fun event posts => ?_⟩
    obtain ⟨index, -, held⟩ := holds_of_posted posts
    rw [(undisturbed.exclusive.unrecorded undisturbed.terminal event).2 index] at held
    cases held

end Dispatching

-----------------------------------------------------------------------------
-- A run that outlasts its claim

def sampleEndpoint : WebhookEndpoint := { url := "https://shop.example", secret := "s" }

/-- The one delivery of the sample, as it is when it is delivered. -/
def sampleDelivered (nextAttempt : Int) : DeliveryRow :=
  { id := "d", tenantId := "t", body := "{}", status := .delivered, attempts := 0, nextAttempt
    lastError := none }

/-- The first run waits for its endpoint still; the second has claimed the delivery after the end of
the first claim, and delivered it.
-/
def outlasted : Dispatching where
  rows := [sampleDelivered 120000]
  runs :=
    [ { now := 0, limit := 50, delivered := 0, failed := 0
        phase :=
          .posting { id := "d", tenantId := "t", body := "{}", attempts := 0 } sampleEndpoint [] },
      { now := 60000, limit := 50, delivered := 1, failed := 0, phase := .finished } ]

/-- The late failure of the first run brings the delivery back, and a third run posts it again. -/
theorem late_failure_revives
    : Reaches Dispatching.step (fun _ _ => True) (Dispatching.initial []) outlasted
      ∧ Terminal outlasted.rows "d"
      ∧ outlasted.holds 2 "d" = false
      ∧ ∃ later,
          Reaches Dispatching.step (fun _ event => event.replays "d" = false) outlasted later
          ∧ (∃ row ∈ later.rows, row.id = "d" ∧ row.status = .pending)
          ∧ later.posted (.post 2 true 200) = some "d" := by
  have outlasts : exec Dispatching.step (fun _ _ => True) (Dispatching.initial [])
        [ .enqueue "d" "t" "{}" 0, .dispatchDue 0 50, .claim 0 [],
          .endpoint 0 (some sampleEndpoint), .dispatchDue 60000 50, .claim 1 [],
          .endpoint 1 (some sampleEndpoint), .post 1 true 200, .complete 1 ]
      = some outlasted := by
    decide
  refine ⟨.of_exec outlasts, ⟨⟨sampleDelivered 120000, by simp [outlasted], rfl⟩, ?_⟩, rfl, ?_⟩
  · simp [outlasted, sampleDelivered]
  · exact Reaches.exists_of_exec
      [ .reject 0 "timeout" false, .complete 0, .dispatchDue 70000 50, .claim 2 [],
        .endpoint 2 (some sampleEndpoint) ]
      (by decide)

/-- A delivery that one run has delivered. -/
def deliveredOnce : Dispatching where
  rows := [sampleDelivered 60000]
  runs := [{ now := 0, limit := 50, delivered := 1, failed := 0, phase := .finished }]

/-- A delivery that only one run ever had stays delivered, and a later run claims nothing. -/
theorem terminal_deliveries_stay_alone
    : ∃ later,
        Reaches Dispatching.step
          (fun state event => state.undisturbed event = true ∧ event.replays "d" = false)
          deliveredOnce later
        ∧ later.runs.length = 2
        ∧ Terminal later.rows "d" ∧ ∀ event, later.posted event ≠ some "d" := by
  have delivers : exec Dispatching.step (fun state event => state.undisturbed event = true)
        (Dispatching.initial [])
        [ .enqueue "d" "t" "{}" 0, .dispatchDue 0 50, .claim 0 [],
          .endpoint 0 (some sampleEndpoint), .post 0 true 200, .complete 0 ]
      = some deliveredOnce := by
    decide
  have terminal : Terminal deliveredOnce.rows "d" :=
    ⟨⟨sampleDelivered 60000, by simp [deliveredOnce], rfl⟩, by
      simp [deliveredOnce, sampleDelivered]⟩
  have again : ∃ later,
      Reaches Dispatching.step
        (fun state event => state.undisturbed event = true ∧ event.replays "d" = false)
        deliveredOnce later
      ∧ later.runs.length = 2 :=
    Reaches.exists_of_exec [.dispatchDue 120000 50, .claim 1 []] (by decide)
  obtain ⟨later, reached, runs⟩ := again
  exact ⟨later, reached, runs,
    (Dispatching.terminal_deliveries_stay terminal).2.2 [] List.nodup_nil (.of_exec delivers) later
      reached⟩

end Cixtech.Webhooks
