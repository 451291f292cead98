import Cixtech.Admin.ControlPlane

/-! Who changes the accounts of operators: an owner, or the holder of the shared token while no
operator is active. The other roles cannot, alone or together, through any of the routes.
-/

namespace Cixtech.Admin

open Cixtech.Auth Cixtech.Foundation

-----------------------------------------------------------------------------
-- What becomes of an account

/-- The accounts of operators. -/
def operators (tables : SessionTables) : List PrincipalRow :=
  tables.principals.filter fun row => row.kind = .operator

theorem operators_of_principals {before after : SessionTables}
    (same : after.principals = before.principals)
    : operators after = operators before := by
  rw [operators, same, operators]

section Update

variable {tables after : SessionTables} {id : String} {change : PrincipalRow → PrincipalRow}
  (updated
    : after.principals
      = Table.update (fun row : PrincipalRow => row.id) tables.principals id change)
  (same : ∀ row, SameAccount row (change row))

include updated same

/-- An update of a tenant's user leaves the operators. -/
theorem operators_update_user {user : PrincipalRow} (found : tables.principal? id = some user)
    (kind : user.kind = .tenantUser)
    : operators after = operators tables := by
  have his : ∀ row ∈ tables.principals, row.id = id → row.kind = .tenantUser := by
    rintro row member rfl
    have looked := Table.lookup_of_mem tables.principalKey member
    obtain rfl : row = user := Option.some.inj (looked.symm.trans found)
    exact kind
  rw [operators, updated, operators, Table.update]
  clear found updated
  generalize tables.principals = rows at his ⊢
  induction rows with
  | nil => rfl
  | cons row rest ih =>
      have others := ih fun other member => his other (List.mem_cons_of_mem _ member)
      rw [List.map_cons, List.filter_cons, List.filter_cons, others]
      by_cases hit : row.id = id
      · have user := his row List.mem_cons_self hit
        simp [hit, (same row).kind, user]
      · simp [hit]

/-- An update by which no operator's account stands differently leaves how the operators stand. -/
theorem operators_update_map {κ : Type} {standing : PrincipalRow → κ}
    (stands : ∀ row, standing (change row) = standing row)
    : (operators after).map standing = (operators tables).map standing := by
  rw [operators, updated, operators, Table.update]
  clear updated
  induction tables.principals with
  | nil => rfl
  | cons row rest ih =>
      rw [List.map_cons, List.filter_cons, List.filter_cons]
      by_cases hit : row.id = id
      · by_cases operator : row.kind = .operator
        · simp [hit, (same row).kind, operator, stands, ih]
        · simp [hit, (same row).kind, operator, ih]
      · by_cases operator : row.kind = .operator <;> simp [hit, operator, ih]

end Update

-----------------------------------------------------------------------------
-- Writes

/-- A write that touches no operator's account. -/
def Write.Spares (tables : SessionTables) : Write → Prop
  | .createPrincipal kind _ _ _ _ => kind = .tenantUser
  | .setStatus id _ => ∃ row, tables.principal? id = some row ∧ row.kind = .tenantUser
  | .setPassword id _ => ∃ row, tables.principal? id = some row ∧ row.kind = .tenantUser
  | .revokeAllSessions .. => True
  | .elsewhere => True

theorem Write.Spares.mono {before after : SessionTables} (keeps : Keeps before after)
    {write : Write} (spares : write.Spares before)
    : write.Spares after := by
  have user {id : String}
      (before : ∃ row, before.principal? id = some row ∧ row.kind = .tenantUser)
      : ∃ row, after.principal? id = some row ∧ row.kind = .tenantUser := by
    obtain ⟨row, found, kind⟩ := before
    obtain ⟨later, there, same⟩ := keeps id row found
    exact ⟨later, there, same.kind.trans kind⟩
  cases write with
  | createPrincipal kind tenantId email role drawn => exact spares
  | setStatus id status => exact user spares
  | setPassword id hash => exact user spares
  | revokeAllSessions id reason => exact spares
  | elsewhere => exact spares

section Perform

variable {lower : String → String} {now : Int} {tables after : SessionTables} {write : Write}
  (performed : write.perform lower now tables = .ok after)

include performed

theorem Write.perform_keeps : Keeps tables after := by
  cases write with
  | createPrincipal kind tenantId email role drawn =>
      simp only [Write.perform] at performed
      split at performed
      · cases performed
      · split at performed
        · cases performed
        · split at performed
          · cases performed
          · next inserted =>
            cases performed
            exact .insert (insertPrincipal_principals inserted)
  | setStatus id status =>
      cases performed
      exact .update rfl fun row => ⟨rfl, rfl, rfl, rfl, rfl⟩
  | setPassword id hash =>
      cases performed
      exact .update rfl fun row => ⟨rfl, rfl, rfl, rfl, rfl⟩
  | revokeAllSessions id reason =>
      cases performed
      exact .of_principals rfl
  | elsewhere =>
      cases performed
      exact .of_principals rfl

theorem Write.Spares.perform (spares : write.Spares tables)
    : operators after = operators tables := by
  cases write with
  | createPrincipal kind tenantId email role drawn =>
      obtain rfl : kind = .tenantUser := spares
      simp only [Write.perform] at performed
      split at performed
      · cases performed
      · split at performed
        · cases performed
        · split at performed
          · cases performed
          · next inserted =>
            cases performed
            rw [operators, insertPrincipal_principals inserted, List.filter_append, operators]
            simp [newPrincipal]
  | setStatus id status =>
      obtain ⟨row, found, kind⟩ := spares
      cases performed
      exact operators_update_user rfl (fun row => ⟨rfl, rfl, rfl, rfl, rfl⟩) found kind
  | setPassword id hash =>
      obtain ⟨row, found, kind⟩ := spares
      cases performed
      exact operators_update_user rfl (fun row => ⟨rfl, rfl, rfl, rfl, rfl⟩) found kind
  | revokeAllSessions id reason =>
      cases performed
      rfl
  | elsewhere =>
      cases performed
      rfl

end Perform

-----------------------------------------------------------------------------
-- Who is let in

/-- Whom the gate of a route lets in. -/
def Entitled (actor : Option Actor) (action : Action) : Prop :=
  ∀ permission, action.access = some (.operator permission)
    → match actor with
      | some (.operator principal) =>
          principal.kind = .operator ∧ principal.status = .active
            ∧ principal.mustChangePassword = false
            ∧ permission ∈ permissionsFor principal.kind principal.role
      | some .sharedToken => True
      | none => False

/-- An owner who is active and has set a password, or the holder of the shared token. -/
def Actor.Manages : Actor → Prop
  | .operator principal =>
      principal.kind = .operator ∧ principal.status = .active ∧ principal.role = "owner"
        ∧ principal.mustChangePassword = false
  | .sharedToken => True

/-- The routes that touch an operator's account ask for the owner's permission. -/
theorem Action.ManagesOperators.access {action : Action} (manages : action.ManagesOperators)
    : action.access = some (.operator .operatorsManage) := by
  cases action with
  | createOperator body drawn => rfl
  | setOperatorStatus id status => cases status <;> rfl
  | revokeOperatorSessions id => exact manages.elim
  | createTenantUser tenantId body drawn => exact manages.elim
  | resetPassword tenantId userId hash => exact manages.elim
  | revokeUserSessions tenantId userId => exact manages.elim
  | setUserStatus tenantId userId status => exact manages.elim
  | rotateKeys tenantId => exact manages.elim
  | elsewhere method pattern audited => exact manages.elim

theorem Entitled.manages {actor : Option Actor} {action : Action}
    (entitled : Entitled actor action) (manages : action.ManagesOperators)
    : ∃ manager, actor = some manager ∧ manager.Manages := by
  have let_in := entitled .operatorsManage manages.access
  match actor with
  | some (.operator principal) =>
      obtain ⟨kind, active, set, may⟩ := let_in
      exact ⟨_, rfl, kind, active, (operatorsManage_mem_iff.mp may).2, set⟩
  | some .sharedToken => exact ⟨_, rfl, trivial⟩
  | none => exact let_in.elim

/-- The request bears the shared token. -/
def Request.BearsToken (config : PlaneConfig) (request : Request) : Prop :=
  ∃ token, config.token = some token ∧ token ≠ "" ∧ request.bearer = some token

/-- What stands behind an actor: a live session under the cookie, of an active account; the shared
token, while no operator is active; or a route that is none of the operators'.
-/
def Identified (config : PlaneConfig) (tables : SessionTables) (request : Request)
    : Option Actor → Prop
  | some (.operator principal) =>
      ∃ token row account, request.cookie = some token
        ∧ (row, account) ∈ tables.resolveByTokenHash (config.hashToken token) request.now
        ∧ account.toPrincipal = principal
  | some .sharedToken => request.BearsToken config ∧ tables.operatorCount = 0
  | none => ∀ permission, request.action.access ≠ some (.operator permission)

/-- Whom a session signs in has a live session under the cookie. -/
theorem resolveAuth_cases (config : PlaneConfig) (tables : SessionTables) (request : Request)
    : (resolveAuth config tables request).1.principals = tables.principals
      ∧ ∀ principal, (resolveAuth config tables request).2 = .ok (some principal)
        → Identified config tables request (some (.operator principal)) := by
  unfold resolveAuth
  split
  · exact ⟨rfl, nofun⟩
  · next token cookie =>
    split
    · exact ⟨rfl, nofun⟩
    · rcases SessionTables.resolveSession_cases config.session config.hashToken tables token
        request.now with ⟨none, -⟩ | ⟨row, account, resolved, joined, some, same, -⟩
      · rw [none]
        exact ⟨rfl, nofun⟩
      · rw [some]
        dsimp only
        split
        · exact ⟨rfl, nofun⟩
        · refine ⟨rfl, fun principal its => ⟨token, row, account, cookie, joined, ?_⟩⟩
          exact same.symm.trans (Option.some.inj (Except.ok.inj its))

theorem sharedGate_counts {config : PlaneConfig} {request : Request}
    (counts : sharedGate config request = .counts)
    : request.BearsToken config := by
  unfold sharedGate at counts
  split at counts
  · cases counts
  · next token configured =>
    split at counts
    · cases counts
    · next some =>
      split at counts
      · cases counts
      · next provided bears =>
        split at counts
        · next same => exact ⟨token, configured, some, same.1 ▸ bears⟩
        · cases counts

/-- The gate lets an active operator in who has the permission, and the shared token only to be
counted against the operators.
-/
theorem gate_cases (config : PlaneConfig) (tables : SessionTables) (request : Request)
    : (gate config tables request).1.principals = tables.principals
      ∧ ((gate config tables request).2 = .counts → request.BearsToken config)
      ∧ ∀ actor, (gate config tables request).2 = .passes actor
        → Entitled actor request.action ∧ Identified config tables request actor := by
  unfold gate
  split
  · next permission access =>
    obtain ⟨kept, known⟩ := resolveAuth_cases config tables request
    split
    · next after message resolved =>
      rw [resolved] at kept
      exact ⟨kept, nofun, nofun⟩
    · next after principal resolved =>
      rw [resolved] at kept known
      have identified := known _ rfl
      obtain ⟨token, session, row, -, joined, rfl⟩ := known _ rfl
      obtain ⟨-, -, -, -, -, -, active⟩ := SessionTables.mem_resolveByTokenHash.mp joined
      split
      · exact ⟨kept, nofun, nofun⟩
      · next operator =>
        simp only [requirePermission]
        split
        · exact ⟨kept, nofun, nofun⟩
        · next set =>
          split
          · next may =>
            refine ⟨kept, nofun, fun actor passes => ?_⟩
            obtain rfl := Gate.passes.inj passes
            refine ⟨fun other asked => ?_, identified⟩
            obtain rfl : permission = other := by
              rw [access] at asked
              exact RouteAccess.operator.inj (Option.some.inj asked)
            exact ⟨by simpa using operator, active, by simpa using set, may⟩
          · exact ⟨kept, nofun, nofun⟩
    · next after resolved =>
      rw [resolved] at kept
      have shared : ∀ actor, sharedGate config request ≠ .passes actor := by
        intro actor
        unfold sharedGate
        split
        · nofun
        · split
          · nofun
          · split
            · nofun
            · split <;> nofun
      exact ⟨kept, sharedGate_counts, fun actor passes => absurd passes (shared actor)⟩
  · next other =>
    refine ⟨rfl, nofun, fun actor passes => ?_⟩
    obtain rfl := Gate.passes.inj passes
    exact ⟨fun permission access => (other permission access).elim, other⟩

-----------------------------------------------------------------------------
-- What is known of a request under way

/-- Who a request is let in as is entitled to its route, and what it has to write spares the
operators, unless managing them is what it is for.
-/
def Call.Sound (tables : SessionTables) (call : Call) : Prop :=
  match call.phase with
  | .targeting actor tenantId userId =>
      Entitled actor call.request.action
        ∧ call.request.action.tenantUser = some (tenantId, userId)
  | .writing actor write rest =>
      Entitled actor call.request.action
        ∧ ∀ next ∈ write :: rest, call.request.action.ManagesOperators ∨ next.Spares tables
  | _ => True

/-- The request is about to write to an operator's account, and its actor may. -/
def Call.ManagesAs (call : Call) (actor : Actor) : Prop :=
  (∃ write rest, call.phase = .writing (some actor) write rest)
  ∧ call.request.action.ManagesOperators ∧ actor.Manages

def Call.ManagesNow (call : Call) : Prop := ∃ actor, call.ManagesAs actor

theorem Call.Sound.mono {before after : SessionTables} (keeps : Keeps before after) {call : Call}
    (sound : call.Sound before)
    : call.Sound after := by
  unfold Call.Sound at sound ⊢
  split
  · next phase => simpa only [phase] using sound
  · next phase =>
    simp only [phase] at sound
    exact ⟨sound.1, fun next member => (sound.2 next member).imp_right fun spares =>
      spares.mono keeps⟩
  · trivial

theorem statusWrites_spare {tables : SessionTables} {id : String} {row : PrincipalRow}
    (found : tables.principal? id = some row) (user : row.kind = .tenantUser)
    (status : PrincipalStatus)
    : ∀ write ∈ Action.statusWrites id status, write.Spares tables := by
  cases status with
  | active =>
      intro write member
      rw [List.mem_singleton.mp member]
      exact ⟨row, found, user⟩
  | disabled =>
      intro write member
      rcases List.mem_cons.mp member with rfl | member
      · exact ⟨row, found, user⟩
      · rw [List.mem_singleton.mp member]
        trivial

/-- What a mutation writes spares the operators, where the user it looks at is a tenant's. -/
theorem writes_spare {tables : SessionTables} {action : Action}
    (target
      : ∀ tenantId userId, action.tenantUser = some (tenantId, userId)
        → ∃ row, tables.principal? userId = some row ∧ row.kind = .tenantUser)
    : ∀ write ∈ action.writes, action.ManagesOperators ∨ write.Spares tables := by
  intro write member
  cases action with
  | createOperator body drawn => exact .inl trivial
  | setOperatorStatus id status => exact .inl trivial
  | revokeOperatorSessions id =>
      rw [List.mem_singleton.mp member]
      exact .inr trivial
  | createTenantUser tenantId body drawn =>
      rw [List.mem_singleton.mp member]
      exact .inr rfl
  | resetPassword tenantId userId hash =>
      obtain ⟨row, found, user⟩ := target tenantId userId rfl
      rcases List.mem_cons.mp member with rfl | member
      · exact .inr ⟨row, found, user⟩
      · rw [List.mem_singleton.mp member]
        exact .inr trivial
  | revokeUserSessions tenantId userId =>
      rw [List.mem_singleton.mp member]
      exact .inr trivial
  | setUserStatus tenantId userId status =>
      obtain ⟨row, found, user⟩ := target tenantId userId rfl
      exact .inr (statusWrites_spare found user status write member)
  | rotateKeys tenantId =>
      rw [List.mem_singleton.mp member]
      exact .inr trivial
  | elsewhere method pattern audited =>
      rw [List.mem_singleton.mp member]
      exact .inr trivial

theorem mutate_sound {tables : SessionTables} {actor : Option Actor} {request : Request}
    (entitled : Entitled actor request.action)
    (target
      : ∀ tenantId userId, request.action.tenantUser = some (tenantId, userId)
        → ∃ row, tables.principal? userId = some row ∧ row.kind = .tenantUser)
    : Call.Sound tables { request, phase := mutate actor request.action } := by
  have spares := writes_spare target
  unfold mutate
  split
  · trivial
  · cases writes : request.action.writes with
    | nil => trivial
    | cons write rest => exact ⟨entitled, fun next member => spares next (writes ▸ member)⟩

theorem admitted_sound {tables : SessionTables} {actor : Option Actor} {request : Request}
    (entitled : Entitled actor request.action)
    : Call.Sound tables { request, phase := admitted actor request.action } := by
  unfold admitted
  cases request.action.badRequest with
  | some message => trivial
  | none =>
      cases target : request.action.tenantUser with
      | none => exact mutate_sound entitled fun _ _ its => by simp [target] at its
      | some user => exact ⟨entitled, target⟩

theorem isTenantUserOf_iff {principal : Option PrincipalRow} {tenantId : String}
    : isTenantUserOf principal tenantId = true
      ↔ ∃ row, principal = some row ∧ row.kind = .tenantUser ∧ row.tenantId = some tenantId := by
  simp [isTenantUserOf, Option.any_eq_true]

/-- What one step of a request comes to. -/
structure Advances (call : Call) (before after : SessionTables) (phase : Phase) : Prop where
  keeps : Keeps before after
  sound : Call.Sound after { call with phase }
  spares : ¬ call.ManagesNow → operators after = operators before

/-- A write spares the operators unless the request is managing them. -/
theorem Call.Sound.perform {config : PlaneConfig} {tables after : SessionTables} {call : Call}
    (sound : call.Sound tables) {actor : Option Actor} {write : Write} {rest : List Write}
    (phase : call.phase = .writing actor write rest)
    (performed : write.perform config.lower call.request.now tables = .ok after)
    : Keeps tables after ∧ (¬ call.ManagesNow → operators after = operators tables) := by
  simp only [Call.Sound, phase] at sound
  refine ⟨write.perform_keeps performed, fun others => ?_⟩
  rcases sound.2 write List.mem_cons_self with manages | spares
  · obtain ⟨manager, rfl, may⟩ := sound.1.manages manages
    exact (others ⟨manager, ⟨write, rest, phase⟩, manages, may⟩).elim
  · exact Write.Spares.perform performed spares

theorem Call.await_advances {config : PlaneConfig} {tables after : SessionTables} {call : Call}
    {audit : List AuditRow} {phase : Phase} (sound : call.Sound tables)
    (awaited : call.await config tables = some (after, audit, phase))
    : Advances call tables after phase := by
  have still (phase : Phase) (sound : Call.Sound tables { call with phase })
      : Advances call tables tables phase :=
    ⟨.of_principals rfl, sound, fun _ => rfl⟩
  unfold Call.await at awaited
  split at awaited
  · obtain ⟨kept, counted, passed⟩ := gate_cases config tables call.request
    split at awaited
    · next message gated =>
      obtain ⟨rfl, -, rfl⟩ := by simpa using awaited
      rw [gated] at kept
      exact ⟨.of_principals kept, trivial, fun _ => operators_of_principals kept⟩
    · next gated =>
      obtain ⟨rfl, -, rfl⟩ := by simpa using awaited
      rw [gated] at kept
      exact ⟨.of_principals kept, trivial, fun _ => operators_of_principals kept⟩
    · next actor gated =>
      obtain ⟨rfl, -, rfl⟩ := by simpa using awaited
      rw [gated] at kept passed
      exact ⟨.of_principals kept, admitted_sound (passed actor rfl).1,
        fun _ => operators_of_principals kept⟩
  · split at awaited
    · obtain ⟨rfl, -, rfl⟩ := by simpa using awaited
      exact still _ trivial
    · obtain ⟨rfl, -, rfl⟩ := by simpa using awaited
      exact still _ (admitted_sound fun _ _ => trivial)
  · next actor tenantId userId targeting =>
    simp only [Call.Sound, targeting] at sound
    split at awaited
    · next user =>
      obtain ⟨rfl, -, rfl⟩ := by simpa using awaited
      obtain ⟨row, found, kind, -⟩ := isTenantUserOf_iff.mp user
      refine still _ (mutate_sound sound.1 fun otherTenant otherUser its => ?_)
      rw [sound.2] at its
      obtain ⟨-, rfl⟩ := Prod.mk.inj (Option.some.inj its)
      exact ⟨row, found, kind⟩
    · obtain ⟨rfl, -, rfl⟩ := by simpa using awaited
      exact still _ trivial
  · obtain ⟨rfl, -, rfl⟩ := by simpa using awaited
    exact still _ trivial
  · next actor write rest writing =>
    split at awaited
    · obtain ⟨rfl, -, rfl⟩ := by simpa using awaited
      exact still _ trivial
    · next performed =>
      obtain ⟨keeps, spares⟩ := sound.perform writing performed
      split at awaited
      · obtain ⟨rfl, -, rfl⟩ := by simpa using awaited
        exact ⟨keeps, trivial, spares⟩
      · next next later =>
        obtain ⟨rfl, -, rfl⟩ := by simpa using awaited
        have known := sound.mono keeps
        simp only [Call.Sound, writing] at known
        exact ⟨keeps, ⟨known.1, fun other member => known.2 other (List.mem_cons_of_mem _ member)⟩,
          spares⟩
  · next actor threw _ =>
    obtain ⟨rfl, -, rfl⟩ := by simpa using awaited
    refine still _ ?_
    unfold afterAudit
    split
    · trivial
    · split <;> trivial
  · obtain ⟨rfl, -, rfl⟩ := by simpa using awaited
    exact still _ trivial
  · cases awaited

theorem Call.reject_advances {config : PlaneConfig} {tables after : SessionTables} {call : Call}
    {applied : Bool} {audit : List AuditRow} {phase : Phase} (sound : call.Sound tables)
    (rejected : call.reject config tables applied = some (after, audit, phase))
    : Advances call tables after phase := by
  have still (phase : Phase) (sound : Call.Sound tables { call with phase })
      : Advances call tables tables phase :=
    ⟨.of_principals rfl, sound, fun _ => rfl⟩
  unfold Call.reject at rejected
  split at rejected
  · cases rejected
  · next actor write rest writing =>
    obtain ⟨rfl, -, rfl⟩ := by simpa using rejected
    cases applied with
    | false => exact still _ trivial
    | true =>
        cases performed : write.perform config.lower call.request.now tables with
        | error message => exact still _ trivial
        | ok changed =>
            obtain ⟨keeps, spares⟩ := sound.perform writing performed
            exact ⟨keeps, trivial, spares⟩
  · next actor threw auditing =>
    obtain ⟨rfl, -, rfl⟩ := by simpa using rejected
    refine still _ ?_
    cases threw <;> trivial
  all_goals
    obtain ⟨rfl, -, rfl⟩ := by simpa using rejected
    exact still _ trivial

-----------------------------------------------------------------------------
-- Runs of the control plane

/-- The event is what the request at an index awaited, answered or rejected. -/
def Event.Moves (event : Event) (index : Nat) : Prop :=
  event = .await index ∨ ∃ applied, event = .reject index applied

/-- What a step does: a request arrives, someone signs in, a credential is written, or a request
gets on.
-/
theorem Plane.step_cases {config : PlaneConfig} {plane next : Plane} {event : Event}
    (taken : plane.step config event = some next)
    : (∃ request, event = .arrives request
          ∧ next = { plane with calls := plane.calls ++ [{ request, phase := .gating }] })
      ∨ (∃ input, event = .signsIn input
          ∧ next = { plane with
              tables := (plane.tables.createSession config.session config.hashToken input).1 })
      ∨ (∃ id change, event = .credential id change
          ∧ next = { plane with
              tables :=
                plane.tables.updatePrincipal id (fun row => change.apply row)
                  fun row => by cases change <;> rfl })
      ∨ ∃ index call tables audit phase, event.Moves index
          ∧ event.advance config plane.tables call = some (tables, audit, phase)
          ∧ Processes.Acts plane.calls next.calls index call { call with phase }
          ∧ next.tables = tables ∧ next.audit = plane.audit ++ audit := by
  have moves {index : Nat} (about : event.call = some index) (moving : event.Moves index)
      (taken
        : (event.call.bind fun index =>
            (plane.calls[index]?).bind fun call =>
              (event.advance config plane.tables call).map fun advanced =>
                ({ tables := advanced.1
                   audit := plane.audit ++ advanced.2.1
                   calls := plane.calls.set index { call with phase := advanced.2.2 } } : Plane))
          = some next)
      : ∃ index call tables audit phase, event.Moves index
          ∧ event.advance config plane.tables call = some (tables, audit, phase)
          ∧ Processes.Acts plane.calls next.calls index call { call with phase }
          ∧ next.tables = tables ∧ next.audit = plane.audit ++ audit := by
    rw [about, Option.bind_some] at taken
    obtain ⟨call, found, advanced⟩ := Option.bind_eq_some_iff.mp taken
    obtain ⟨⟨tables, audit, phase⟩, advance, rfl⟩ := Option.map_eq_some_iff.mp advanced
    exact ⟨index, call, tables, audit, phase, moving, advance, ⟨found, rfl⟩, rfl, rfl⟩
  cases event with
  | arrives request => exact .inl ⟨request, rfl, (Option.some.inj taken).symm⟩
  | signsIn input => exact .inr (.inl ⟨input, rfl, (Option.some.inj taken).symm⟩)
  | credential id change => exact .inr (.inr (.inl ⟨id, change, rfl, (Option.some.inj taken).symm⟩))
  | await index => exact .inr (.inr (.inr (moves rfl (.inl rfl) taken)))
  | reject index applied => exact .inr (.inr (.inr (moves rfl (.inr ⟨applied, rfl⟩) taken)))

theorem advance_advances {config : PlaneConfig} {tables after : SessionTables} {call : Call}
    {event : Event} {audit : List AuditRow} {phase : Phase} (sound : call.Sound tables)
    (advanced : event.advance config tables call = some (after, audit, phase))
    : Advances call tables after phase := by
  cases event with
  | await index => exact call.await_advances sound advanced
  | reject index applied => exact call.reject_advances sound advanced
  | arrives request => cases advanced
  | signsIn input => cases advanced
  | credential id change => cases advanced

theorem credential_same (change : Credential) (row : PrincipalRow)
    : SameAccount row (change.apply row) := by
  cases change <;> exact ⟨rfl, rfl, rfl, rfl, rfl⟩

theorem createSession_principals (config : PlaneConfig) (tables : SessionTables)
    (input : NewSession)
    : (tables.createSession config.session config.hashToken input).1.principals
      = tables.principals := by
  unfold SessionTables.createSession
  split
  · rfl
  · next inserted => exact (SessionTables.insert_rows inserted).2

def Plane.Sound (plane : Plane) : Prop := ∀ call ∈ plane.calls, call.Sound plane.tables

theorem Plane.Sound.step {config : PlaneConfig} {plane next : Plane} {event : Event}
    (sound : plane.Sound) (taken : plane.step config event = some next)
    : next.Sound := by
  rcases Plane.step_cases taken with
    ⟨request, rfl, rfl⟩ | ⟨input, rfl, rfl⟩ | ⟨id, change, rfl, rfl⟩
      | ⟨index, call, tables, audit, phase, -, advanced, acts, rfl, -⟩
  · intro call member
    rcases List.mem_append.mp member with old | new
    · exact sound call old
    · rw [List.mem_singleton.mp new]
      trivial
  · intro call member
    exact (sound call member).mono (.of_principals (createSession_principals config _ input))
  · intro call member
    exact (sound call member).mono (.update rfl (credential_same change))
  · obtain ⟨keeps, here, -⟩ := advance_advances (sound call acts.mem_old) advanced
    intro other member
    rcases acts.mem_cases member with rfl | old
    · exact here
    · exact (sound other old).mono keeps

theorem Plane.reached_sound {config : PlaneConfig} {start plane : Plane}
    (idle : start.calls = [])
    (reached : Reaches (Plane.step config) (fun _ _ => True) start plane)
    : plane.Sound :=
  reached.invariant (fun _ member => absurd (idle ▸ member) List.not_mem_nil)
    fun sound _ taken => sound.step taken

-----------------------------------------------------------------------------
-- Whom a request was let in as

/-- Whom a request records as that has come to its audit. -/
def Phase.recordsAs : Phase → Option (Option Actor)
  | .auditing actor _ => some actor
  | .reporting actor => some actor
  | .answered _ (.refused _) => none
  | .answered actor _ => some actor
  | _ => none

/-- Whom a request was let in as. -/
def Phase.actor : Phase → Option (Option Actor)
  | .targeting actor _ _ => some actor
  | .reading actor => some actor
  | .writing actor _ _ => some actor
  | phase => phase.recordsAs

theorem actor_of_recordsAs {phase : Phase} {actor : Option Actor}
    (its : phase.recordsAs = some actor)
    : phase.actor = some actor := by
  cases phase with
  | targeting => cases its
  | reading => cases its
  | writing => cases its
  | _ => exact its

theorem actor_mutate (actor : Option Actor) (action : Action)
    : (mutate actor action).actor = some actor := by
  unfold mutate
  split
  · rfl
  · split <;> rfl

theorem actor_admitted {actor here : Option Actor} {action : Action}
    (its : (admitted actor action).actor = some here)
    : here = actor := by
  unfold admitted at its
  split at its
  · cases its
  · exact (Option.some.inj its).symm
  · exact Option.some.inj (its.symm.trans (actor_mutate actor action))

theorem recordsAs_afterAudit (action : Action) (actor : Option Actor) (threw : Option String)
    : (afterAudit action actor threw).recordsAs = some actor := by
  unfold afterAudit
  split
  · rfl
  · split <;> rfl

/-- The gate waits with a request that bears the shared token, and whoever is let in is identified
then.
-/
structure Lets (config : PlaneConfig) (tables : SessionTables) (call : Call) (phase : Phase)
    : Prop where
  waits : phase = .counting → call.request.BearsToken config
  actor
    : ∀ actor, phase.actor = some actor
      → call.phase.actor = some actor
        ∨ (call.phase = .gating ∨ call.phase = .counting)
          ∧ Identified config tables call.request actor
  records : ∀ actor, call.phase.recordsAs = some actor → phase.recordsAs = some actor

section Lets

variable {config : PlaneConfig} {tables after : SessionTables} {call : Call} {phase : Phase}
  {audit : List AuditRow}

theorem Lets.gated (gated : call.phase = .gating ∨ call.phase = .counting)
    (waits : phase = .counting → call.request.BearsToken config)
    (identified
      : ∀ actor, phase.actor = some actor → Identified config tables call.request actor)
    : Lets config tables call phase := by
  refine ⟨waits, fun actor its => .inr ⟨gated, identified actor its⟩, fun actor its => ?_⟩
  rcases gated with same | same <;> rw [same] at its <;> cases its

theorem Lets.kept {actor : Option Actor} (before : call.phase.actor = some actor)
    (after : phase.actor = some actor)
    (records : ∀ actor, call.phase.recordsAs = some actor → phase.recordsAs = some actor)
    : Lets config tables call phase := by
  refine ⟨fun same => ?_, fun _ its => .inl (before.trans (after.symm.trans its)), records⟩
  rw [same] at after
  cases after

/-- Before its audit a request may be refused. -/
theorem Lets.refused {actor : Option Actor} {message : String}
    (silent : call.phase.recordsAs = none)
    : Lets config tables call (.answered actor (.refused message)) :=
  ⟨nofun, nofun, fun _ its => by rw [silent] at its; cases its⟩

theorem admitted_ne_counting (actor : Option Actor) (action : Action)
    : admitted actor action ≠ .counting := by
  unfold admitted
  split
  · nofun
  · nofun
  · intro same
    have here := actor_mutate actor action
    rw [same] at here
    cases here

theorem Call.await_lets (waits : call.phase = .counting → call.request.BearsToken config)
    (awaited : call.await config tables = some (after, audit, phase))
    : Lets config tables call phase := by
  unfold Call.await at awaited
  split at awaited
  · next gating =>
    obtain ⟨-, counted, passed⟩ := gate_cases config tables call.request
    split at awaited
    · obtain ⟨-, -, rfl⟩ := by simpa using awaited
      exact .refused (by rw [gating]; rfl)
    · next gated =>
      obtain ⟨-, -, rfl⟩ := by simpa using awaited
      rw [gated] at counted
      exact .gated (.inl gating) (fun _ => counted rfl) nofun
    · next actor gated =>
      obtain ⟨-, -, rfl⟩ := by simpa using awaited
      rw [gated] at passed
      refine .gated (.inl gating) (fun same => absurd same (admitted_ne_counting _ _)) ?_
      intro here its
      exact actor_admitted its ▸ (passed actor rfl).2
  · next counting =>
    split at awaited
    · obtain ⟨-, -, rfl⟩ := by simpa using awaited
      exact .refused (by rw [counting]; rfl)
    · next nobody =>
      obtain ⟨-, -, rfl⟩ := by simpa using awaited
      refine .gated (.inr counting) (fun same => absurd same (admitted_ne_counting _ _)) ?_
      intro here its
      rw [actor_admitted its]
      exact ⟨waits counting, Nat.eq_zero_of_not_pos nobody⟩
  · next actor _ _ targeting =>
    split at awaited
    · obtain ⟨-, -, rfl⟩ := by simpa using awaited
      exact .kept (by rw [targeting]; rfl) (actor_mutate _ _) fun _ its => by
        rw [targeting] at its
        cases its
    · obtain ⟨-, -, rfl⟩ := by simpa using awaited
      exact .refused (by rw [targeting]; rfl)
  · next actor reading =>
    obtain ⟨-, -, rfl⟩ := by simpa using awaited
    exact .kept (by rw [reading]; rfl) rfl fun _ its => by
      rw [reading] at its
      cases its
  · next actor write rest writing =>
    have before : call.phase.actor = some actor := by rw [writing]; rfl
    have silent : ∀ actor, call.phase.recordsAs = some actor → phase.recordsAs = some actor :=
      fun _ its => by
        rw [writing] at its
        cases its
    split at awaited
    · obtain ⟨-, -, rfl⟩ := by simpa using awaited
      exact .kept before rfl silent
    · split at awaited
      · obtain ⟨-, -, rfl⟩ := by simpa using awaited
        exact .kept before rfl silent
      · obtain ⟨-, -, rfl⟩ := by simpa using awaited
        exact .kept before rfl silent
  · next actor threw auditing =>
    obtain ⟨-, -, rfl⟩ := by simpa using awaited
    have records := recordsAs_afterAudit call.request.action actor threw
    exact .kept (by rw [auditing]; rfl) (actor_of_recordsAs records) fun _ its => by
      rw [auditing] at its
      exact records.trans its
  · next actor reporting =>
    obtain ⟨-, -, rfl⟩ := by simpa using awaited
    exact .kept (by rw [reporting]; rfl) rfl fun _ its => by
      rw [reporting] at its
      exact its
  · cases awaited

theorem Call.reject_lets {applied : Bool}
    (rejected : call.reject config tables applied = some (after, audit, phase))
    : Lets config tables call phase := by
  unfold Call.reject at rejected
  split at rejected
  · cases rejected
  · next actor write rest writing =>
    obtain ⟨-, -, rfl⟩ := by simpa using rejected
    exact .kept (by rw [writing]; rfl) rfl fun _ its => by
      rw [writing] at its
      cases its
  · next actor threw auditing =>
    obtain ⟨-, -, rfl⟩ := by simpa using rejected
    have before : call.phase.actor = some actor := by rw [auditing]; rfl
    refine .kept before (by cases threw <;> rfl) fun _ its => ?_
    rw [auditing] at its
    cases threw <;> exact its
  · next actor reporting =>
    obtain ⟨-, -, rfl⟩ := by simpa using rejected
    exact .kept (by rw [reporting]; rfl) rfl fun _ its => by
      rw [reporting] at its
      exact its
  · next actor reading =>
    obtain ⟨-, -, rfl⟩ := by simpa using rejected
    exact .kept (by rw [reading]; rfl) rfl fun _ its => by
      rw [reading] at its
      cases its
  · next targeting =>
    obtain ⟨-, -, rfl⟩ := by simpa using rejected
    exact .refused (by rw [targeting]; rfl)
  · next silent =>
    obtain ⟨-, -, rfl⟩ := by simpa using rejected
    refine .refused ?_
    cases phase : call.phase with
    | gating => rfl
    | counting => rfl
    | targeting actor tenantId userId => rfl
    | reading actor => rfl
    | writing actor write rest => rfl
    | _ => simp_all

theorem advance_lets {event : Event}
    (waits : call.phase = .counting → call.request.BearsToken config)
    (advanced : event.advance config tables call = some (after, audit, phase))
    : Lets config tables call phase := by
  cases event with
  | await index => exact call.await_lets waits advanced
  | reject index applied => exact call.reject_lets advanced
  | arrives request => cases advanced
  | signsIn input => cases advanced
  | credential id change => cases advanced

end Lets

/-- The request at an index was at the gate in an earlier state of the run, and was identified there
as the actor.
-/
def LetIn (config : PlaneConfig) (start plane : Plane) (index : Nat) (request : Request)
    (actor : Option Actor)
    : Prop :=
  ∃ earlier phase,
    Reaches (Plane.step config) (fun _ _ => True) start earlier
    ∧ Reaches (Plane.step config) (fun _ _ => True) earlier plane
    ∧ earlier.calls[index]? = some { request, phase }
    ∧ (phase = .gating ∨ phase = .counting)
    ∧ Identified config earlier.tables request actor

theorem LetIn.later {config : PlaneConfig} {start plane next : Plane} {event : Event} {index : Nat}
    {request : Request} {actor : Option Actor}
    (letIn : LetIn config start plane index request actor)
    (taken : plane.step config event = some next)
    : LetIn config start next index request actor := by
  obtain ⟨earlier, phase, before, behind, known⟩ := letIn
  exact ⟨earlier, phase, before, behind.tail trivial taken, known⟩

/-- Who waits for the count bears the token, and who has passed the gate was let in. -/
structure Gated (config : PlaneConfig) (start plane : Plane) : Prop where
  waits : ∀ call ∈ plane.calls, call.phase = .counting → call.request.BearsToken config
  letIn
    : ∀ index call, plane.calls[index]? = some call
      → ∀ actor, call.phase.actor = some actor
        → LetIn config start plane index call.request actor

theorem Gated.step {config : PlaneConfig} {start plane next : Plane} {event : Event}
    (reached : Reaches (Plane.step config) (fun _ _ => True) start plane)
    (gated : Gated config start plane) (taken : plane.step config event = some next)
    : Gated config start next := by
  have old (index : Nat) (call : Call) (there : plane.calls[index]? = some call)
      (actor : Option Actor) (its : call.phase.actor = some actor)
      : LetIn config start next index call.request actor :=
    (gated.letIn index call there actor its).later taken
  rcases Plane.step_cases taken with
    ⟨request, rfl, rfl⟩ | ⟨input, rfl, rfl⟩ | ⟨id, change, rfl, rfl⟩
      | ⟨place, call, tables, audit, phase, -, advanced, acts, -, -⟩
  · constructor
    · intro call member
      rcases List.mem_append.mp member with before | new
      · exact gated.waits call before
      · rw [List.mem_singleton.mp new]
        nofun
    · intro index call there
      rcases Processes.get_append_cases there with ⟨-, rfl⟩ | before
      · nofun
      · exact old index call before
  · exact ⟨gated.waits, old⟩
  · exact ⟨gated.waits, old⟩
  · have lets := advance_lets (gated.waits call acts.mem_old) advanced
    constructor
    · intro other member
      rcases acts.mem_cases member with rfl | before
      · exact lets.waits
      · exact gated.waits other before
    · intro index other there actor its
      rcases acts.get_cases there with ⟨rfl, rfl⟩ | ⟨-, before⟩
      · rcases lets.actor actor its with before | ⟨atGate, identified⟩
        · exact old _ call acts.found actor before
        · exact ⟨plane, call.phase, reached, Reaches.refl.tail trivial taken, acts.found, atGate,
            identified⟩
      · exact old index other before actor its

/-- By induction on the run. -/
theorem Plane.reached_gated {config : PlaneConfig} {start plane : Plane} (idle : start.calls = [])
    (reached : Reaches (Plane.step config) (fun _ _ => True) start plane)
    : Gated config start plane := by
  induction reached with
  | refl => exact ⟨by simp [idle], by simp [idle]⟩
  | tail before _ taken ih => exact ih.step before taken

/-- A step that changes an operator's account, other than by what its owner or sign-in does with its
password, is the step of a request that was let in to manage operators.
-/
theorem Plane.step_operators {config : PlaneConfig} {plane next : Plane} {event : Event}
    (sound : plane.Sound) (taken : plane.step config event = some next)
    (changed : operators next.tables ≠ operators plane.tables)
    : (∃ id change, event = .credential id change)
      ∨ ∃ index call, event.Moves index ∧ plane.calls[index]? = some call ∧ call.ManagesNow := by
  rcases Plane.step_cases taken with
    ⟨request, rfl, rfl⟩ | ⟨input, rfl, rfl⟩ | ⟨id, change, rfl, rfl⟩
      | ⟨index, call, tables, audit, phase, moves, advanced, acts, rfl, -⟩
  · exact absurd rfl changed
  · exact absurd (operators_of_principals (createSession_principals config _ input)) changed
  · exact .inl ⟨id, change, rfl⟩
  · obtain ⟨-, -, spares⟩ := advance_advances (sound call acts.mem_old) advanced
    exact .inr ⟨index, call, moves, acts.found, by_contra fun others => changed (spares others)⟩

/-- In every run, whatever requests come and however their awaits interleave, reject and are carried
out nonetheless, each step that changes an operator's account is one of two: the operator's own
password and its failed sign-ins are written, or a request writes that asks to create, disable or
enable an operator, and was let in earlier as an active owner with a password of its own and a live
session under its cookie, or by the shared token in a state in which no operator was active. By
induction on the run: what a request has still to write spares the operators unless that is what it
asks for, since kind, tenant and role of an account never change.
-/
theorem operators_changed_by_managers (config : PlaneConfig) (start plane next : Plane)
    (event : Event) (idle : start.calls = [])
    (reached : Reaches (Plane.step config) (fun _ _ => True) start plane)
    (taken : plane.step config event = some next)
    (changed : operators next.tables ≠ operators plane.tables)
    : (∃ id change, event = .credential id change)
      ∨ ∃ index call actor, event.Moves index ∧ plane.calls[index]? = some call
          ∧ call.ManagesAs actor ∧ LetIn config start plane index call.request (some actor) := by
  refine (Plane.step_operators (Plane.reached_sound idle reached) taken changed).imp_right ?_
  rintro ⟨index, call, moves, there, actor, manages⟩
  refine ⟨index, call, actor, moves, there, manages, ?_⟩
  obtain ⟨⟨write, rest, writing⟩, -⟩ := manages
  exact (Plane.reached_gated idle reached).letIn index call there _ (by rw [writing]; rfl)

def sampleConfig : PlaneConfig where
  session := defaultSessionConfig
  hashToken := id
  lower := id
  token := some "shared"

/-- A plane with one account, of an operator with a role. -/
def samplePlane (role : String) : Plane where
  tables :=
    { principals :=
        [ { id := "p"
            kind := .operator
            tenantId := none
            email := "a@b.c"
            role
            status := .active
            mustChangePassword := false
            totpConfirmed := true
            passwordHash := ""
            failedLogins := 0
            lockedUntil := none } ]
      sessions := []
      principalKey := List.nodup_singleton _
      sessionKey := List.nodup_nil
      tokenHashKey := List.nodup_nil
      principalReference := fun _ member => absurd member List.not_mem_nil }
  audit := []
  calls := []

/-- The operator signs in and disables its own account. -/
def sampleEvents : List Event :=
  [ .signsIn
      { principalId := "p", ip := none, userAgent := none, now := 0, id := "s", token := "t",
        csrfToken := "c", databaseNow := 0 },
    .arrives
      { action := .setOperatorStatus "p" .disabled, cookie := some "t", csrf := some "c",
        bearer := none, now := 1 },
    .await 0 ]

def samplePlaneAfter (role : String) (events : List Event) : Plane :=
  (exec (Plane.step sampleConfig) (fun _ _ => True) (samplePlane role) events).getD
    (samplePlane role)

theorem operators_changed_by_managers_sample
    : (∃ id change, Event.await 0 = .credential id change)
      ∨ ∃ index call actor, (Event.await 0).Moves index
        ∧ (samplePlaneAfter "owner" sampleEvents).calls[index]? = some call
        ∧ call.ManagesAs actor
        ∧ LetIn sampleConfig (samplePlane "owner") (samplePlaneAfter "owner" sampleEvents) index
            call.request (some actor) :=
  operators_changed_by_managers sampleConfig (samplePlane "owner")
    (samplePlaneAfter "owner" sampleEvents)
    (samplePlaneAfter "owner" (sampleEvents ++ [.await 0])) (.await 0) rfl
    (@Reaches.of_exec _ _ _ _ _ _ _ sampleEvents rfl) rfl (by decide)

-----------------------------------------------------------------------------
-- Operators who are no owners

/-- How an operator's account stands. -/
def standing (row : PrincipalRow) : String × String × String × PrincipalStatus :=
  (row.id, row.email, row.role, row.status)

/-- Operators are active, and none of them is an owner. -/
structure Ownerless (tables : SessionTables) : Prop where
  staffed : ∃ row ∈ operators tables, row.status = .active
  ownerless : ∀ row ∈ operators tables, row.status = .active → row.role ≠ "owner"

theorem Ownerless.of_standing {tables after : SessionTables} (ownerless : Ownerless tables)
    (same : (operators after).map standing = (operators tables).map standing)
    : Ownerless after := by
  have back {row : PrincipalRow} (member : row ∈ operators after)
      : ∃ old ∈ operators tables, standing old = standing row := by
    have inside := List.mem_map_of_mem (f := standing) member
    rw [same] at inside
    exact List.mem_map.mp inside
  have forth {row : PrincipalRow} (member : row ∈ operators tables)
      : ∃ later ∈ operators after, standing later = standing row := by
    have inside := List.mem_map_of_mem (f := standing) member
    rw [← same] at inside
    exact List.mem_map.mp inside
  constructor
  · obtain ⟨row, member, active⟩ := ownerless.staffed
    obtain ⟨later, there, stands⟩ := forth member
    exact ⟨later, there, (congrArg (·.2.2.2) stands).trans active⟩
  · intro row member active
    obtain ⟨old, there, stands⟩ := back member
    have role : old.role = row.role := congrArg (·.2.2.1) stands
    have status : old.status = row.status := congrArg (·.2.2.2) stands
    exact role ▸ ownerless.ownerless old there (status.trans active)

theorem Ownerless.count {tables : SessionTables} (ownerless : Ownerless tables)
    : 0 < tables.operatorCount := by
  obtain ⟨row, member, active⟩ := ownerless.staffed
  obtain ⟨there, operator⟩ := List.mem_filter.mp member
  refine List.length_pos_of_mem (List.mem_filter.mpr ⟨there, ?_⟩)
  simpa [active] using operator

/-- While operators are active and none is an owner, nobody is let in who may manage them. -/
theorem Ownerless.unmanaged {config : PlaneConfig} {tables : SessionTables} {request : Request}
    {actor : Actor} (ownerless : Ownerless tables)
    (identified : Identified config tables request (some actor))
    : ¬ actor.Manages := by
  cases actor with
  | sharedToken => exact absurd identified.2 ownerless.count.ne'
  | operator principal =>
      obtain ⟨token, session, row, -, joined, rfl⟩ := identified
      obtain ⟨-, found, -⟩ := SessionTables.mem_resolveByTokenHash.mp joined
      rintro ⟨kind, active, owner, -⟩
      have inside : row ∈ operators tables :=
        List.mem_filter.mpr ⟨Table.lookup_mem found, by simpa using kind⟩
      exact ownerless.ownerless row inside active owner

/-- What holds of every plane reached from one whose operators are no owners. -/
structure Closed (start : SessionTables) (plane : Plane) : Prop where
  sound : plane.Sound
  same : (operators plane.tables).map standing = (operators start).map standing
  unmanaged
    : ∀ call ∈ plane.calls, ∀ actor, call.phase.actor = some (some actor) → ¬ actor.Manages

theorem Closed.step {config : PlaneConfig} {start : SessionTables} {plane next : Plane}
    {event : Event} (ownerless : Ownerless start) (closed : Closed start plane)
    (waits : ∀ call ∈ plane.calls, call.phase = .counting → call.request.BearsToken config)
    (taken : plane.step config event = some next)
    : Closed start next := by
  have here := ownerless.of_standing closed.same
  have sound := closed.sound.step taken
  rcases Plane.step_cases taken with
    ⟨request, rfl, rfl⟩ | ⟨input, rfl, rfl⟩ | ⟨id, change, rfl, rfl⟩
      | ⟨index, call, tables, audit, phase, moves, advanced, acts, rfl, -⟩
  · refine ⟨sound, closed.same, fun call member => ?_⟩
    rcases List.mem_append.mp member with old | new
    · exact closed.unmanaged call old
    · rw [List.mem_singleton.mp new]
      nofun
  · refine ⟨sound, ?_, closed.unmanaged⟩
    exact (congrArg _ (operators_of_principals (createSession_principals config _ input))).trans
      closed.same
  · refine ⟨sound, ?_, closed.unmanaged⟩
    refine (operators_update_map rfl (credential_same change) fun row => ?_).trans closed.same
    cases change <;> rfl
  · have before := closed.unmanaged call acts.mem_old
    obtain ⟨-, -, spares⟩ := advance_advances (closed.sound call acts.mem_old) advanced
    have unmanaged : ¬ call.ManagesNow := by
      rintro ⟨actor, ⟨write, rest, writing⟩, -, manages⟩
      exact before actor (by rw [writing]; rfl) manages
    have lets := advance_lets (waits call acts.mem_old) advanced
    have after : ∀ actor, phase.actor = some (some actor) → ¬ actor.Manages := by
      intro actor its
      rcases lets.actor _ its with old | ⟨-, identified⟩
      · exact before actor old
      · exact here.unmanaged identified
    refine ⟨sound, by rw [spares unmanaged]; exact closed.same, fun other member => ?_⟩
    rcases acts.mem_cases member with rfl | old
    · exact after
    · exact closed.unmanaged other old

/-- Where operators are active and none of them is an owner, no run of requests makes one, changes
a role, enables or disables an operator or takes an account away: nobody is let in to manage
operators, since the shared token is refused while an operator is active. By induction on the run.
-/
theorem ownerless_operators_never_change (config : PlaneConfig) (start plane : Plane)
    (idle : start.calls = []) (ownerless : Ownerless start.tables)
    (reached : Reaches (Plane.step config) (fun _ _ => True) start plane)
    : (operators plane.tables).map standing = (operators start.tables).map standing := by
  have closed : Closed start.tables plane :=
    reached.invariant_with (Plane.reached_gated idle)
      ⟨fun call member => absurd (idle ▸ member) List.not_mem_nil, rfl,
        fun call member => absurd (idle ▸ member) List.not_mem_nil⟩
      fun gated closed _ taken => closed.step ownerless gated.waits taken
  exact closed.same

theorem ownerless_operators_never_change_sample
    : (operators (samplePlaneAfter "operator" sampleEvents).tables).map standing
      = (operators (samplePlane "operator").tables).map standing :=
  ownerless_operators_never_change sampleConfig (samplePlane "operator")
    (samplePlaneAfter "operator" sampleEvents) rfl
    ⟨⟨_, List.mem_singleton_self _, rfl⟩, by decide⟩
    (@Reaches.of_exec _ _ _ _ _ _ _ sampleEvents rfl)

end Cixtech.Admin
