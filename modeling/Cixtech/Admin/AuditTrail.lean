import Cixtech.Admin.OperatorAccounts

/-! The audit of the control plane: a mutation that is answered has its record, with its outcome,
under whom the request was let in as, and every record is of a request that asked for what it
records.
-/

namespace Cixtech.Admin

open Cixtech.Auth Cixtech.Foundation

/-- The record of a mutation. -/
def record (actor : Option Actor) (name : String) (target : Option String)
    (threw : Option String)
    : AuditRow where
  actor := actorOf actor
  action := name
  target
  result := if threw = none then "ok" else "error"
  detail := threw

/-- A name and a target under which the routes of the action record. -/
def Action.Records (action : Action) (name : String) (target : Option String) : Prop :=
  action.audited = some (name, target) ∨ action.reported = some (name, target)

theorem mem_auditRow {audited : Option (String × Option String)} {actor : Option Actor}
    {threw : Option String} {row : AuditRow}
    : row ∈ auditRow audited actor threw
      ↔ ∃ name target, audited = some (name, target) ∧ row = record actor name target threw := by
  rcases audited with _ | ⟨name, target⟩
  · simp [auditRow]
  · simp only [auditRow, Option.map_some, Option.toList_some, List.mem_singleton,
      Option.some.injEq, Prod.mk.injEq]
    constructor
    · rintro rfl
      exact ⟨name, target, ⟨rfl, rfl⟩, rfl⟩
    · rintro ⟨_, _, ⟨rfl, rfl⟩, rfl⟩
      rfl

/-- What is known of a request and the audit. -/
def Call.Recorded (audit : List AuditRow) (call : Call) : Prop :=
  match call.phase with
  | .targeting actor _ _ => Entitled actor call.request.action
  | .reading _ => call.request.action.audited = none ∧ call.request.action.reported = none
  | .writing actor _ _ => Entitled actor call.request.action
  | .auditing actor _ => Entitled actor call.request.action
  | .reporting actor =>
      Entitled actor call.request.action
      ∧ ∀ name target, call.request.action.audited = some (name, target)
        → record actor name target none ∈ audit
  | .answered actor .done =>
      ∀ name target, call.request.action.Records name target
        → Entitled actor call.request.action ∧ record actor name target none ∈ audit
  | .answered actor (.failed message) =>
      ∀ name target, call.request.action.audited = some (name, target)
        → Entitled actor call.request.action ∧ record actor name target (some message) ∈ audit
  | _ => True

theorem Call.Recorded.mono {audit more : List AuditRow} {call : Call}
    (recorded : call.Recorded audit)
    : call.Recorded (audit ++ more) := by
  have grows {row : AuditRow} (member : row ∈ audit) : row ∈ audit ++ more :=
    List.mem_append_left _ member
  unfold Call.Recorded at recorded ⊢
  split
  · next phase => simpa only [phase] using recorded
  · next phase => simpa only [phase] using recorded
  · next phase => simpa only [phase] using recorded
  · next phase => simpa only [phase] using recorded
  · next phase =>
    simp only [phase] at recorded
    exact ⟨recorded.1, fun name target its => grows (recorded.2 name target its)⟩
  · next phase =>
    simp only [phase] at recorded
    exact fun name target its => (recorded name target its).imp_right grows
  · next phase =>
    simp only [phase] at recorded
    exact fun name target its => (recorded name target its).imp_right grows
  · trivial

theorem reported_eq_none {action : Action} (silent : action.audited = none)
    : action.reported = none := by
  cases action with
  | rotateKeys tenantId => cases silent
  | _ => rfl

theorem mutate_recorded {audit : List AuditRow} {actor : Option Actor} {request : Request}
    (entitled : Entitled actor request.action)
    : Call.Recorded audit { request, phase := mutate actor request.action } := by
  unfold mutate
  split
  · next none => exact ⟨none, reported_eq_none none⟩
  · cases request.action.writes with
    | nil => exact entitled
    | cons write rest => exact entitled

theorem admitted_recorded {audit : List AuditRow} {actor : Option Actor} {request : Request}
    (entitled : Entitled actor request.action)
    : Call.Recorded audit { request, phase := admitted actor request.action } := by
  unfold admitted
  cases request.action.badRequest with
  | some message => trivial
  | none =>
      cases request.action.tenantUser with
      | none => exact mutate_recorded entitled
      | some user => exact entitled

/-- A step of a request adds records of its own action only, under whom it was let in as. -/
structure Records (call : Call) (audit added : List AuditRow) (phase : Phase) : Prop where
  recorded : Call.Recorded (audit ++ added) { call with phase }
  own
    : ∀ row ∈ added, ∃ actor name target threw, phase.recordsAs = some actor
        ∧ Entitled actor call.request.action ∧ call.request.action.Records name target
        ∧ row = record actor name target threw

theorem Records.silent {call : Call} {audit : List AuditRow} {phase : Phase}
    (recorded : Call.Recorded audit { call with phase })
    : Records call audit [] phase :=
  ⟨recorded.mono, fun _ member => absurd member List.not_mem_nil⟩

theorem Records.rows {call : Call} {audit : List AuditRow} {actor : Option Actor}
    {audited : Option (String × Option String)} {threw : Option String} {phase : Phase}
    (entitled : Entitled actor call.request.action)
    (its : ∀ name target, audited = some (name, target) → call.request.action.Records name target)
    (acting : phase.recordsAs = some actor)
    (recorded : Call.Recorded (audit ++ auditRow audited actor threw) { call with phase })
    : Records call audit (auditRow audited actor threw) phase := by
  refine ⟨recorded, fun row member => ?_⟩
  obtain ⟨name, target, named, rfl⟩ := mem_auditRow.mp member
  exact ⟨actor, name, target, threw, acting, entitled, its name target named, rfl⟩

theorem record_mem {audit : List AuditRow} {audited : Option (String × Option String)}
    {actor : Option Actor} {threw : Option String} {name : String} {target : Option String}
    (its : audited = some (name, target))
    : record actor name target threw ∈ audit ++ auditRow audited actor threw :=
  List.mem_append_right _ (mem_auditRow.mpr ⟨name, target, its, rfl⟩)

/-- Behind its audit a request has the record of its outcome, and may still owe that of its route.
-/
theorem afterAudit_recorded {audit : List AuditRow} {actor : Option Actor} {request : Request}
    {threw : Option String} (entitled : Entitled actor request.action)
    : Call.Recorded (audit ++ auditRow request.action.audited actor threw)
        { request, phase := afterAudit request.action actor threw } := by
  unfold afterAudit
  cases threw with
  | some message => exact fun name target its => ⟨entitled, record_mem its⟩
  | none =>
      by_cases silent : request.action.reported = none
      · simp only [silent, if_true]
        rintro name target (its | its)
        · exact ⟨entitled, record_mem its⟩
        · rw [silent] at its
          cases its
      · simp only [silent, if_false]
        exact ⟨entitled, fun name target its => record_mem its⟩

theorem Call.await_records {config : PlaneConfig} {tables after : SessionTables} {call : Call}
    {audit added : List AuditRow} {phase : Phase} (recorded : call.Recorded audit)
    (awaited : call.await config tables = some (after, added, phase))
    : Records call audit added phase := by
  unfold Call.await at awaited
  split at awaited
  · obtain ⟨-, -, passed⟩ := gate_cases config tables call.request
    split at awaited
    · obtain ⟨-, rfl, rfl⟩ := by simpa using awaited
      exact .silent trivial
    · obtain ⟨-, rfl, rfl⟩ := by simpa using awaited
      exact .silent trivial
    · next actor gated =>
      obtain ⟨-, rfl, rfl⟩ := by simpa using awaited
      rw [gated] at passed
      exact .silent (admitted_recorded (passed actor rfl).1)
  · split at awaited
    · obtain ⟨-, rfl, rfl⟩ := by simpa using awaited
      exact .silent trivial
    · obtain ⟨-, rfl, rfl⟩ := by simpa using awaited
      exact .silent (admitted_recorded fun _ _ => trivial)
  · next targeting =>
    simp only [Call.Recorded, targeting] at recorded
    split at awaited
    · obtain ⟨-, rfl, rfl⟩ := by simpa using awaited
      exact .silent (mutate_recorded recorded)
    · obtain ⟨-, rfl, rfl⟩ := by simpa using awaited
      exact .silent trivial
  · next reading =>
    simp only [Call.Recorded, reading] at recorded
    obtain ⟨-, rfl, rfl⟩ := by simpa using awaited
    refine .silent ?_
    rintro name target (its | its)
    · rw [recorded.1] at its
      cases its
    · rw [recorded.2] at its
      cases its
  · next writing =>
    simp only [Call.Recorded, writing] at recorded
    split at awaited
    · obtain ⟨-, rfl, rfl⟩ := by simpa using awaited
      exact .silent recorded
    · split at awaited
      · obtain ⟨-, rfl, rfl⟩ := by simpa using awaited
        exact .silent recorded
      · obtain ⟨-, rfl, rfl⟩ := by simpa using awaited
        exact .silent recorded
  · next actor threw auditing =>
    simp only [Call.Recorded, auditing] at recorded
    obtain ⟨-, rfl, rfl⟩ := by simpa using awaited
    exact .rows recorded (fun _ _ => .inl) (recordsAs_afterAudit _ actor threw)
      (afterAudit_recorded recorded)
  · next actor reporting =>
    simp only [Call.Recorded, reporting] at recorded
    obtain ⟨-, rfl, rfl⟩ := by simpa using awaited
    refine .rows recorded.1 (fun _ _ => .inr) rfl ?_
    rintro name target (its | its)
    · exact ⟨recorded.1, List.mem_append_left _ (recorded.2 name target its)⟩
    · exact ⟨recorded.1, record_mem its⟩
  · cases awaited

theorem Call.reject_records {config : PlaneConfig} {tables after : SessionTables} {call : Call}
    {applied : Bool} {audit added : List AuditRow} {phase : Phase}
    (recorded : call.Recorded audit)
    (rejected : call.reject config tables applied = some (after, added, phase))
    : Records call audit added phase := by
  unfold Call.reject at rejected
  split at rejected
  · cases rejected
  · next writing =>
    simp only [Call.Recorded, writing] at recorded
    obtain ⟨-, rfl, rfl⟩ := by simpa using rejected
    exact .silent recorded
  · next actor threw auditing =>
    simp only [Call.Recorded, auditing] at recorded
    obtain ⟨-, rfl, rfl⟩ := by simpa using rejected
    cases threw with
    | none =>
        cases applied with
        | true => exact .rows recorded (fun _ _ => .inl) rfl recorded
        | false => exact .silent recorded
    | some message =>
        cases applied with
        | true => exact .rows recorded (fun _ _ => .inl) rfl trivial
        | false => exact .silent trivial
  · next actor reporting =>
    simp only [Call.Recorded, reporting] at recorded
    obtain ⟨-, rfl, rfl⟩ := by simpa using rejected
    cases applied with
    | true => exact .rows recorded.1 (fun _ _ => .inr) rfl trivial
    | false => exact .silent trivial
  · next reading =>
    simp only [Call.Recorded, reading] at recorded
    obtain ⟨-, rfl, rfl⟩ := by simpa using rejected
    refine .silent fun name target its => ?_
    rw [recorded.1] at its
    cases its
  · obtain ⟨-, rfl, rfl⟩ := by simpa using rejected
    exact .silent trivial
  · obtain ⟨-, rfl, rfl⟩ := by simpa using rejected
    exact .silent trivial

theorem advance_records {config : PlaneConfig} {tables after : SessionTables} {call : Call}
    {event : Event} {audit added : List AuditRow} {phase : Phase}
    (recorded : call.Recorded audit)
    (advanced : event.advance config tables call = some (after, added, phase))
    : Records call audit added phase := by
  cases event with
  | await index => exact call.await_records recorded advanced
  | reject index applied => exact call.reject_records recorded advanced
  | arrives request => cases advanced
  | signsIn input => cases advanced
  | credential id change => cases advanced

/-- A record is of a request on the plane, under whom it was let in as and for what it asked. -/
def AuditRow.Traced (plane : Plane) (row : AuditRow) : Prop :=
  ∃ (index : Nat) (call : Call) (actor : Option Actor) (name : String)
      (target threw : Option String),
    plane.calls[index]? = some call
    ∧ call.phase.recordsAs = some actor ∧ Entitled actor call.request.action
    ∧ call.request.action.Records name target
    ∧ row = record actor name target threw

structure Plane.Audited (plane : Plane) : Prop where
  recorded : ∀ call ∈ plane.calls, call.Recorded plane.audit
  traced : ∀ row ∈ plane.audit, row.Traced plane

theorem Plane.Audited.step {config : PlaneConfig} {plane next : Plane} {event : Event}
    (waits : ∀ call ∈ plane.calls, call.phase = .counting → call.request.BearsToken config)
    (audited : plane.Audited) (taken : plane.step config event = some next)
    : next.Audited := by
  rcases Plane.step_cases taken with
    ⟨request, rfl, rfl⟩ | ⟨input, rfl, rfl⟩ | ⟨id, change, rfl, rfl⟩
      | ⟨place, call, tables, added, phase, -, advanced, acts, -, grown⟩
  · constructor
    · intro call member
      rcases List.mem_append.mp member with old | new
      · exact audited.recorded call old
      · rw [List.mem_singleton.mp new]
        trivial
    · intro row member
      obtain ⟨index, call, actor, name, target, threw, there, known⟩ := audited.traced row member
      obtain ⟨inside, -⟩ := List.getElem?_eq_some_iff.mp there
      exact ⟨index, call, actor, name, target, threw,
        (List.getElem?_append_left inside).trans there, known⟩
  · exact ⟨audited.recorded, audited.traced⟩
  · exact ⟨audited.recorded, audited.traced⟩
  · obtain ⟨recorded, own⟩ := advance_records (audited.recorded call acts.mem_old) advanced
    have lets := advance_lets (waits call acts.mem_old) advanced
    constructor
    · rw [grown]
      intro other member
      rcases acts.mem_cases member with rfl | old
      · exact recorded
      · exact (audited.recorded other old).mono
    · intro row member
      rw [grown] at member
      rcases List.mem_append.mp member with old | new
      · obtain ⟨index, other, actor, name, target, threw, there, acting, known⟩ :=
          audited.traced row old
        by_cases same : index = place
        · subst same
          obtain rfl := Option.some.inj (acts.found.symm.trans there)
          exact ⟨index, _, actor, name, target, threw, acts.get_self, lets.records actor acting,
            known⟩
        · exact ⟨index, other, actor, name, target, threw, (acts.get_other same).trans there,
            acting, known⟩
      · obtain ⟨actor, name, target, threw, acting, known⟩ := own row new
        exact ⟨place, _, actor, name, target, threw, acts.get_self, acting, known⟩

/-- The record of a failure of a request, or the one behind its mutation's own, was rejected in an
earlier state of the run.
-/
def Unwritten (config : PlaneConfig) (start plane : Plane) (index : Nat) (request : Request)
    (actor : Option Actor)
    : Prop :=
  ∃ earlier next phase applied,
    Reaches (Plane.step config) (fun _ _ => True) start earlier
    ∧ earlier.calls[index]? = some { request, phase }
    ∧ ((∃ threw, phase = .auditing actor (some threw)) ∨ phase = .reporting actor)
    ∧ earlier.step config (.reject index applied) = some next
    ∧ Reaches (Plane.step config) (fun _ _ => True) next plane

theorem mutate_ne_answered (actor other : Option Actor) (action : Action) (answer : Answer)
    : mutate actor action ≠ .answered other answer := by
  unfold mutate
  split
  · nofun
  · split <;> nofun

theorem admitted_ne_unrecorded (actor other : Option Actor) (action : Action) (message : String)
    : admitted actor action ≠ .answered other (.unrecorded message) := by
  unfold admitted
  split
  · nofun
  · nofun
  · exact mutate_ne_answered actor other action _

theorem afterAudit_ne_unrecorded (actor other : Option Actor) (action : Action)
    (threw : Option String) (message : String)
    : afterAudit action actor threw ≠ .answered other (.unrecorded message) := by
  unfold afterAudit
  split
  · nofun
  · split <;> nofun

/-- Only the rejection of a record answers that it is missing. -/
theorem advance_unrecorded {config : PlaneConfig} {tables after : SessionTables} {call : Call}
    {event : Event} {added : List AuditRow} {actor : Option Actor} {message : String}
    (advanced
      : event.advance config tables call
        = some (after, added, .answered actor (.unrecorded message)))
    : (∃ index applied, event = .reject index applied)
      ∧ ((∃ threw, call.phase = .auditing actor (some threw)) ∨ call.phase = .reporting actor) := by
  cases event with
  | reject index applied =>
      refine ⟨⟨index, applied, rfl⟩, ?_⟩
      simp only [Event.advance, Call.reject] at advanced
      split at advanced
      case h_3 threw auditing =>
        cases threw with
        | none => simp at advanced
        | some threw =>
            obtain ⟨-, -, rfl, -⟩ := by simpa using advanced
            exact .inl ⟨threw, auditing⟩
      case h_4 reporting =>
        obtain ⟨-, -, rfl, -⟩ := by simpa using advanced
        exact .inr reporting
      all_goals simp at advanced
  | await index =>
      simp only [Event.advance, Call.await] at advanced
      split at advanced
      · split at advanced <;> simp [admitted_ne_unrecorded] at advanced
      · split at advanced <;> simp [admitted_ne_unrecorded] at advanced
      · split at advanced <;> simp [mutate_ne_answered] at advanced
      · simp at advanced
      · split at advanced
        · simp at advanced
        · split at advanced <;> simp at advanced
      · simp [afterAudit_ne_unrecorded] at advanced
      · simp at advanced
      · cases advanced
  | arrives request => cases advanced
  | signsIn input => cases advanced
  | credential id change => cases advanced

/-- By induction on the run. -/
theorem Plane.reached_unwritten {config : PlaneConfig} {start plane : Plane}
    (idle : start.calls = [])
    (reached : Reaches (Plane.step config) (fun _ _ => True) start plane)
    : ∀ index call, plane.calls[index]? = some call
      → ∀ actor message, call.phase = .answered actor (.unrecorded message)
        → Unwritten config start plane index call.request actor := by
  induction reached with
  | refl => simp [idle]
  | @tail plane event next before _ taken ih =>
      have old (index : Nat) (call : Call) (there : plane.calls[index]? = some call)
          (actor : Option Actor) (message : String)
          (its : call.phase = .answered actor (.unrecorded message))
          : Unwritten config start next index call.request actor := by
        obtain ⟨earlier, later, phase, applied, first, found, here, rejected, behind⟩ :=
          ih index call there actor message its
        exact ⟨earlier, later, phase, applied, first, found, here, rejected,
          behind.tail trivial taken⟩
      intro index call there actor message its
      rcases Plane.step_cases taken with
        ⟨request, rfl, rfl⟩ | ⟨input, rfl, rfl⟩ | ⟨id, change, rfl, rfl⟩
          | ⟨place, mover, tables, added, phase, moves, advanced, acts, -, -⟩
      · rcases Processes.get_append_cases there with ⟨-, rfl⟩ | earlier
        · cases its
        · exact old index call earlier actor message its
      · exact old index call there actor message its
      · exact old index call there actor message its
      · rcases acts.get_cases there with ⟨rfl, rfl⟩ | ⟨-, earlier⟩
        · obtain rfl : phase = .answered actor (.unrecorded message) := its
          obtain ⟨⟨other, applied, rfl⟩, here⟩ := advance_unrecorded advanced
          obtain ⟨⟨⟩⟩ | ⟨_, ⟨⟩⟩ := moves
          exact ⟨plane, next, mover.phase, applied, before, acts.found, here, taken, .refl⟩
        · exact old index call earlier actor message its

end Cixtech.Admin
