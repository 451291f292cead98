import Cixtech.Auth.Lockout
import Cixtech.Auth.SignInEvidence
import Cixtech.Auth.SingleUse

/-! What a session goes back to: a right password, and a second factor where the account's role asks
for one. Requests run side by side, and other parts of the server change accounts next to them.
-/

namespace Cixtech.Auth.AuthRoutes

open Cixtech.Admin Cixtech.Foundation AuthStore Handlers

-----------------------------------------------------------------------------
-- Requests keep to it

section Requests

variable (config : AuthConfig) (start : AuthData)

def contract : Contract (authMachine config) where
  invariant := Kept config start
  may := may config start
  gives := fun trace self command answer =>
    Did trace self command answer ∧ tells config start trace self command answer
  keeps := fun kept allowed ran => ⟨kept.step ran allowed, List.mem_cons_self, kept.tells ran⟩

variable {config start} {self : Nat} {trace : Trace}

/-- A request sends a command. -/
theorem send_follows {command : Command}
    (allowed : ∀ later, trace <:+ later → may config start later self command)
    : (send command).Follows (contract config start) self
        (fun later answer =>
          Did later self command answer ∧ tells config start later self command answer)
        trace :=
  Handler.Follows.ask allowed

/-- A principal that a request may sign in. -/
def Entitled (config : AuthConfig) (start : AuthData) (principal : Principal) (trace : Trace)
    : Prop :=
  Rooted config trace principal.id ∧ Unlocked config start trace principal.id

theorem Entitled.later {principal : Principal} {later : Trace}
    (entitled : Entitled config start principal trace) (behind : trace <:+ later)
    : Entitled config start principal later :=
  ⟨entitled.1.later behind, entitled.2.later behind⟩

theorem createSession_follows {principalId : String} {client : Client}
    (rooted : Rooted config trace principalId)
    (unlocked : Unlocked config start trace principalId)
    : (createSession config principalId client).Follows (contract config start) self
        (fun _ _ => True) trace := by
  refine .bind (send_follows fun _ _ => trivial) fun afterNow now sinceNow _ => ?_
  refine .bind (send_follows fun _ _ => trivial) fun afterDraw drawn sinceDraw _ => ?_
  have since := sinceNow.trans sinceDraw
  refine .bind (send_follows fun later behind => ?_) fun _ _ _ _ => ?_
  · exact ⟨rooted.later (since.trans behind), unlocked.later (since.trans behind)⟩
  · exact .bind (send_follows fun _ _ => trivial) fun _ _ _ _ => .pure trivial

theorem issueSession_follows {client : Client} {principal : Principal}
    (entitled : Entitled config start principal trace)
    : (issueSession config client principal).Follows (contract config start) self
        (fun _ _ => True) trace := by
  refine .bind (createSession_follows entitled.1 entitled.2) fun _ _ _ _ => ?_
  exact .bind (send_follows fun _ _ => trivial) fun _ _ _ _ => .pure trivial

/-- What a right password tells of the account. -/
structure Verified (config : AuthConfig) (start : AuthData) (trace : Trace) (outcome : Outcome)
    (row : PrincipalRow)
    : Prop where
  outcome : outcome = outcomeOf row.toPrincipal
  confirmed
    : Guarded config start trace row.id fun _ =>
      row.totpConfirmed = true ∧ requiresTotp row.role = true

theorem rehash_follows {row : PrincipalRow} {password : String}
    : (rehash config row password).Follows (contract config start) self (fun _ _ => True)
        trace := by
  unfold rehash
  split
  · exact .bind (send_follows fun _ _ => trivial) fun _ _ _ _ =>
      .weaken (send_follows fun _ _ => trivial) fun _ _ _ _ => trivial
  · exact .pure trivial

theorem verifyCredentials_follows {kind : PrincipalKind} {email password : String}
    {tenantId : Option String}
    : (verifyCredentials config kind email password tenantId).Follows (contract config start) self
        (fun later found =>
          ∃ row, found.2 = row.toPrincipal
            ∧ PasswordRight config later self kind email password tenantId row
            ∧ Verified config start later found.1 row)
        trace := by
  refine .bind (send_follows fun _ _ => trivial) fun afterNow now sinceNow _ => ?_
  refine .bind (send_follows fun _ _ => trivial) fun afterRead found sinceRead tells => ?_
  obtain ⟨did, reads⟩ := tells
  cases found with
  | none => exact .bind (send_follows fun _ _ => trivial) fun _ _ _ _ => .throws _
  | some row =>
      simp only [checkFound]
      split
      · exact .throws _
      · split
        · exact .throws _
        · next active =>
          refine .bind (send_follows fun _ _ => trivial) fun afterCheck good sinceCheck checks => ?_
          cases good with
          | false => exact .bind (send_follows fun _ _ => trivial) fun _ _ _ _ => .throws _
          | true =>
              refine .bind (send_follows fun _ _ => trivial) fun afterClear _ sinceClear _ => ?_
              refine .bind rehash_follows fun last _ sinceHash _ => .pure ?_
              have since := (sinceCheck.trans sinceClear).trans sinceHash
              have checked := checks.1.later (sinceClear.trans sinceHash)
              exact ⟨row, rfl, ⟨did.later since, not_not.mp active, checked, checks.2.symm⟩,
                ⟨rfl, (reads row rfl).later since⟩⟩

/-- Who needs no second factor may be signed in. -/
theorem Verified.entitled {row : PrincipalRow} (accepted : PasswordAccepted config trace self row)
    (verified : Verified config start trace .ok row)
    : Entitled config start row.toPrincipal trace := by
  have role : requiresTotp row.role = false := by
    have outcome := verified.outcome
    unfold outcomeOf at outcome
    split at outcome
    · split at outcome <;> cases outcome
    · next free => exact Bool.eq_false_iff.mpr free
  refine ⟨.inl ⟨self, row, accepted, rfl, role⟩, fun secret enrolled => ?_⟩
  refine (verified.confirmed secret enrolled).imp_right fun stands => ?_
  rw [role] at stands
  exact Bool.false_ne_true stands.2

/-- An account that must enrol is not enrolled from the start, or has been unlocked. -/
theorem Verified.unlocked {row : PrincipalRow}
    (verified : Verified config start trace .mfaEnrolmentRequired row)
    : Unlocked config start trace row.id := by
  intro secret enrolled
  refine (verified.confirmed secret enrolled).imp_right fun stands => ?_
  have outcome := verified.outcome
  simp [outcomeOf, stands.1, stands.2] at outcome

theorem beginTotpEnrolment_follows {principalId : String}
    (unlocked : Unlocked config start trace principalId)
    : (beginTotpEnrolment principalId).Follows (contract config start) self (fun _ _ => True)
        trace := by
  refine .bind (send_follows fun _ _ => trivial) fun afterDraw drawn sinceDraw _ => ?_
  refine .bind (send_follows fun later behind => ?_) fun _ _ _ _ => .pure trivial
  exact unlocked.later (sinceDraw.trans behind)

theorem passwordAccepted_follows {client : Client} {outcome : Outcome} {row : PrincipalRow}
    (accepted : PasswordAccepted config trace self row)
    (verified : Verified config start trace outcome row)
    : (passwordAccepted config client outcome row.toPrincipal).Follows (contract config start) self
        (fun _ _ => True) trace := by
  unfold passwordAccepted
  split
  · next ok =>
    subst ok
    exact .bind (issueSession_follows (verified.entitled accepted)) fun _ _ _ _ => .pure trivial
  · refine .bind (send_follows fun _ _ => trivial) fun afterNow now sinceNow clock => ?_
    refine .bind (send_follows fun _ _ => trivial) fun afterDraw drawn sinceDraw _ => ?_
    refine .bind (send_follows fun _ _ => trivial) fun afterSweep _ sinceSweep _ => ?_
    have since := sinceDraw.trans sinceSweep
    refine .bind (send_follows fun later behind => ?_) fun afterSet _ sinceSet _ => ?_
    · exact ⟨row, now, accepted.later ((sinceNow.trans since).trans behind), rfl, rfl,
        clock.1.later (since.trans behind)⟩
    · split
      · next enrols =>
        subst enrols
        have unlocked := verified.unlocked.later ((sinceNow.trans since).trans sinceSet)
        exact .bind (beginTotpEnrolment_follows unlocked) fun _ _ _ _ => .pure trivial
      · exact .pure trivial

theorem login_follows {body : LoginBody} {client : Client}
    (received : Received trace self (.login body))
    : (login config body client).Follows (contract config start) self (fun _ _ => True) trace := by
  by_cases missing : (absent body.email || absent body.password) = true
  · simp only [login, if_pos missing]
    exact .pure trivial
  · simp only [login, if_neg missing]
    refine .catches ?_ fun later err behind => ?_
    · refine .bind verifyCredentials_follows fun later found behind verified => ?_
      obtain ⟨row, same, right, verified⟩ := verified
      obtain ⟨outcome, principal⟩ := found
      cases same
      exact passwordAccepted_follows ⟨body, received.later behind, right⟩ verified
    · exact .bind (send_follows fun _ _ => trivial) fun _ _ _ _ => .throws _

/-- What the acceptance of a code gives. -/
def Proved (config : AuthConfig) (start : AuthData) (trace : Trace) (self : Nat)
    (principalId code : String)
    : Prop :=
  CodeAccepted config (fun _ => True) (fun _ => True) trace self principalId code
    ∧ Unlocked config start trace principalId

/-- A recovery code that is spent unlocks the account. -/
theorem consumeRecoveryCode_follows {principalId code : String} (gave : Gave trace self code)
    : (consumeRecoveryCode config principalId code).Follows (contract config start) self
        (fun later accepted => accepted = true → Proved config start later self principalId code)
        trace := by
  refine .weaken (send_follows fun _ _ => trivial) fun later spent behind tells accepted => ?_
  subst accepted
  refine ⟨.recovery trivial tells.1, fun secret enrolled => ?_⟩
  rcases tells.2 rfl secret enrolled with accepted | issued
  · exact .inl accepted
  · exact .inl ⟨self, code, gave.later behind, .recovery issued tells.1⟩

theorem verifySecondFactor_follows {principalId code : String} (gave : Gave trace self code)
    : (verifySecondFactor config principalId code).Follows (contract config start) self
        (fun later accepted => accepted = true → Proved config start later self principalId code)
        trace := by
  refine .bind (send_follows fun _ _ => trivial) fun afterNow now sinceNow clock => ?_
  refine .bind (send_follows fun _ _ => trivial) fun afterRead found sinceRead reads => ?_
  have since := sinceNow.trans sinceRead
  cases found with
  | none => exact consumeRecoveryCode_follows (gave.later since)
  | some totp =>
      refine .bind (send_follows fun _ _ => trivial) fun afterCheck step sinceCheck checks => ?_
      cases step with
      | none => exact consumeRecoveryCode_follows (gave.later (since.trans sinceCheck))
      | some step =>
          refine .bind (send_follows fun _ _ => trivial) fun later _ behind kept => ?_
          refine .pure fun _ => ?_
          have sinceFound := sinceCheck.trans behind
          have read := reads.1.later sinceFound
          have right : CodeRight config later self totp.secret code totp.lastStep step :=
            ⟨now, clock.1.later (sinceRead.trans sinceFound), checks.1.later behind,
              checks.2.symm⟩
          refine ⟨.code read trivial right kept.1, fun secret enrolled => ?_⟩
          rcases reads.2 totp rfl secret enrolled with accepted | its
          · exact .inl (accepted.later sinceFound)
          · exact .inl
              ⟨self, code, gave.later (since.trans sinceFound), .code read its right kept.1⟩

/-- A confirmed enrolment unlocks the account. -/
theorem confirmTotp_follows {principalId code : String} (gave : Gave trace self code)
    : (confirmTotp config principalId code).Follows (contract config start) self
        (fun later _ => Proved config start later self principalId code) trace := by
  refine .bind (send_follows fun _ _ => trivial) fun afterNow now sinceNow clock => ?_
  refine .bind (send_follows fun _ _ => trivial) fun afterRead found sinceRead reads => ?_
  cases found with
  | none => exact .throws _
  | some secret =>
      simp only [Option.getD_some]
      split
      · exact .throws _
      · refine .bind (send_follows fun _ _ => trivial) fun afterCheck step sinceCheck checks => ?_
        cases step with
        | none => exact .throws _
        | some step =>
            refine .bind (send_follows fun _ _ => trivial) fun afterDraw drawn sinceDraw _ => ?_
            have gives {later : Trace} (behind : afterDraw <:+ later) : Gave later self code :=
              gave.later
                ((((sinceNow.trans sinceRead).trans sinceCheck).trans sinceDraw).trans behind)
            have right {later : Trace} (behind : afterDraw <:+ later)
                : CodeRight config later self secret code none step :=
              ⟨now, clock.1.later (((sinceRead.trans sinceCheck).trans sinceDraw).trans behind),
                checks.1.later (sinceDraw.trans behind), checks.2.symm⟩
            have sinceFound := sinceCheck.trans sinceDraw
            refine .bind (send_follows fun later behind => ?_) fun later _ behind kept => .pure ?_
            · have since := sinceFound.trans behind
              exact ⟨secret, code, gives behind, reads.1.later since, right behind,
                (reads.2 secret rfl).later since⟩
            · have since := sinceFound.trans behind
              have read := reads.1.later since
              refine ⟨.enrolment read trivial (right behind) kept.1, fun its enrolled => ?_⟩
              rcases reads.2 secret rfl its enrolled with accepted | genuine
              · exact .inl (accepted.later since)
              · exact .inl
                  ⟨self, code, gives behind, .enrolment read genuine (right behind) kept.1⟩

theorem loadById_follows {id : String}
    : (loadById id).Follows (contract config start) self
        (fun _ found => ∀ principal, found = some principal → principal.id = id) trace := by
  refine .bind (send_follows fun _ _ => trivial) fun _ row _ tells => .pure ?_
  intro principal found
  obtain ⟨read, there, rfl⟩ := Option.map_eq_some_iff.mp found
  exact tells.2 read there

/-- A text that is there. -/
theorem eq_some_of_not_absent {text : Option String} (there : ¬ absent text = true)
    : text = some (text.getD "") := by
  cases text with
  | none => exact absurd (by decide) there
  | some text => rfl

theorem mfa_follows {body : MfaBody} {client : Client} (received : Received trace self (.mfa body))
    : (mfa config body client).Follows (contract config start) self (fun _ _ => True) trace := by
  refine .bind (send_follows fun _ _ => trivial) fun afterNow now sinceNow clock => ?_
  refine .bind (send_follows fun _ _ => trivial) fun afterFind found sinceFind finds => ?_
  cases found with
  | none => exact .throws _
  | some pending =>
      simp only
      split
      · exact .pure trivial
      · next given =>
        have gives := eq_some_of_not_absent given
        refine .bind loadById_follows fun afterLoad loaded sinceLoad loads => ?_
        cases loaded with
        | none => exact .throws _
        | some principal =>
            have its := loads principal rfl
            have since := (sinceNow.trans sinceFind).trans sinceLoad
            have gave : Gave afterLoad self (body.code.getD "") :=
              ⟨.mfa body, received.later since, gives⟩
            obtain ⟨challenge, earlier, names, before, live, opened⟩ := finds.2 pending rfl
            -- A code that is accepted now signs the owner of the challenge in.
            have signsIn {later : Trace} (behind : afterLoad <:+ later)
                (accepted : Proved config start later self principal.id (body.code.getD ""))
                : Entitled config start principal later :=
              ⟨.inr
                ⟨self,
                  .mfa (received.later (since.trans behind)) gives names accepted.1
                    (clock.1.later ((sinceFind.trans sinceLoad).trans behind))
                    (before.trans (sinceLoad.trans behind)) its.symm live opened⟩,
                accepted.2⟩
            simp only
            split
            · refine .bind (confirmTotp_follows gave) fun afterCode codes sinceCode accepted => ?_
              have entitled := signsIn sinceCode accepted
              refine .bind (send_follows fun _ _ => trivial) fun afterDelete _ sinceDelete _ => ?_
              refine .bind loadById_follows fun last fresh sinceFresh same => ?_
              have entitled := entitled.later (sinceDelete.trans sinceFresh)
              refine .bind (issueSession_follows ?_) fun _ _ _ _ => .pure trivial
              cases fresh with
              | none => exact entitled
              | some fresh =>
                  have equal := same fresh rfl
                  exact ⟨equal ▸ entitled.1, equal ▸ entitled.2⟩
            · refine
                .bind (verifySecondFactor_follows gave) fun afterCode ok sinceCode accepted => ?_
              split
              · next right =>
                have entitled := signsIn sinceCode (accepted right)
                refine .bind (send_follows fun _ _ => trivial) fun last _ behind _ => ?_
                exact .bind (issueSession_follows (entitled.later behind)) fun _ _ _ _ =>
                  .pure trivial
              · exact .bind (send_follows fun _ _ => trivial) fun _ _ _ _ => .throws _

theorem resolveSession_follows {token : String}
    : (resolveSession config token).Follows (contract config start) self
        (fun later found =>
          ∀ resolved, found = some resolved → Entitled config start resolved.principal later)
        trace := by
  refine .bind (send_follows fun _ _ => trivial) fun afterNow now sinceNow _ => ?_
  refine .bind (send_follows fun _ _ => trivial) fun afterRead found sinceRead reads => ?_
  cases found with
  | none => exact .pure fun _ found => nomatch found
  | some pair =>
      obtain ⟨row, principal⟩ := pair
      refine .bind (send_follows fun _ _ => trivial) fun last _ behind _ => .pure ?_
      intro resolved found
      cases found
      obtain ⟨his, rooted, unlocked⟩ := reads.2 row principal rfl
      exact ⟨his ▸ rooted.later behind, his ▸ unlocked.later behind⟩

theorem resolveAuth_follows {request : AuthRequest}
    : (resolveAuth config request).Follows (contract config start) self
        (fun later found =>
          ∀ resolved, found = some resolved → Entitled config start resolved.principal later)
        trace := by
  unfold resolveAuth
  split
  · exact .pure fun _ found => nomatch found
  · refine .bind resolveSession_follows fun later found behind entitles => ?_
    cases found with
    | none => exact .pure fun _ found => nomatch found
    | some resolved =>
        simp only
        split
        · exact .throws _
        · exact .pure entitles

theorem mustBeSignedIn_follows {request : AuthRequest}
    : (mustBeSignedIn config request).Follows (contract config start) self
        (fun later resolved => Entitled config start resolved.principal later) trace := by
  refine .bind resolveAuth_follows fun later found behind entitles => ?_
  cases found with
  | none => exact .throws _
  | some resolved => exact .pure (entitles resolved rfl)

theorem revokeAllSessions_follows {principalId reason : String}
    : (revokeAllSessions principalId reason).Follows (contract config start) self
        (fun _ _ => True) trace := by
  refine .bind (send_follows fun _ _ => trivial) fun _ _ _ _ => ?_
  exact .bind (send_follows fun _ _ => trivial) fun _ _ _ _ => .pure trivial

theorem revokeSession_follows {id reason : String}
    : (revokeSession id reason).Follows (contract config start) self (fun _ _ => True) trace := by
  refine .bind (send_follows fun _ _ => trivial) fun _ _ _ _ => ?_
  exact .bind (send_follows fun _ _ => trivial) fun _ _ _ _ => .pure trivial

theorem listSessions_follows {principalId : String}
    : (listSessions principalId).Follows (contract config start) self (fun _ _ => True) trace := by
  refine .bind (send_follows fun _ _ => trivial) fun _ _ _ _ => ?_
  exact .weaken (send_follows fun _ _ => trivial) fun _ _ _ _ => trivial

theorem setPassword_follows {id password : String} {mustChange : Bool}
    : (setPassword id password mustChange).Follows (contract config start) self (fun _ _ => True)
        trace := by
  refine .bind (send_follows fun _ _ => trivial) fun _ _ _ _ => ?_
  exact .weaken (send_follows fun _ _ => trivial) fun _ _ _ _ => trivial

theorem password_follows {request : AuthRequest} {currentPassword newPassword : Option String}
    : (password config request currentPassword newPassword).Follows (contract config start) self
        (fun _ _ => True) trace := by
  refine .bind resolveAuth_follows fun signedIn found _ entitles => ?_
  cases found with
  | none => exact .throws _
  | some resolved =>
      have entitled := entitles resolved rfl
      simp only
      split
      · exact .pure trivial
      · split
        · exact .pure trivial
        · refine .bind verifyCredentials_follows fun afterCheck _ sinceCheck _ => ?_
          refine .bind setPassword_follows fun afterSet _ sinceSet _ => ?_
          refine .bind revokeAllSessions_follows fun afterRevoke _ sinceRevoke _ => ?_
          refine .bind loadById_follows fun last fresh sinceLoad loads => ?_
          have since := ((sinceCheck.trans sinceSet).trans sinceRevoke).trans sinceLoad
          cases fresh with
          | none => exact .throws _
          | some fresh =>
              have same := loads fresh rfl
              have still := entitled.later since
              have his : Entitled config start fresh last := ⟨same ▸ still.1, same ▸ still.2⟩
              exact .bind (issueSession_follows his) fun _ _ _ _ => .pure trivial

theorem setStatus_follows {id : String} {status : PrincipalStatus}
    : (setStatus id status).Follows (contract config start) self (fun _ _ => True) trace := by
  refine .bind (send_follows fun _ _ => trivial) fun _ _ _ _ => ?_
  split
  · exact .bind revokeAllSessions_follows fun _ _ _ _ => .pure trivial
  · exact .pure trivial

/-- Every route keeps to the contract, by cases on the route. -/
theorem serve_follows {request : AuthRequest}
    : (serve config request).Follows (contract config start) self (fun _ _ => True) trace := by
  refine .bind (send_follows fun _ _ => trivial) fun called _ _ receives => ?_
  have received : Received called self request.route := ⟨request, receives.1, rfl⟩
  cases asked : request.route with
  | login body => exact login_follows (asked ▸ received)
  | mfa body => exact mfa_follows (asked ▸ received)
  | session =>
      refine .bind resolveAuth_follows fun _ found _ _ => ?_
      cases found with
      | none => exact .pure trivial
      | some resolved => exact .pure trivial
  | logout =>
      refine .bind resolveAuth_follows fun _ found _ _ => ?_
      cases found with
      | none => exact .pure trivial
      | some resolved =>
          refine .bind revokeSession_follows fun _ _ _ _ => ?_
          exact .bind (send_follows fun _ _ => trivial) fun _ _ _ _ => .pure trivial
  | sessions =>
      refine .bind mustBeSignedIn_follows fun _ _ _ _ => ?_
      exact .bind listSessions_follows fun _ _ _ _ => .pure trivial
  | endSession id =>
      refine .bind mustBeSignedIn_follows fun _ _ _ _ => ?_
      refine .bind listSessions_follows fun _ _ _ _ => ?_
      split
      · exact .bind revokeSession_follows fun _ _ _ _ => .pure trivial
      · exact .pure trivial
  | logoutAll =>
      refine .bind mustBeSignedIn_follows fun _ _ _ _ => ?_
      exact .bind revokeAllSessions_follows fun _ _ _ _ => .pure trivial
  | password currentPassword newPassword => exact password_follows
  | totpBegin =>
      refine .bind mustBeSignedIn_follows fun _ resolved _ entitled => ?_
      exact .bind (beginTotpEnrolment_follows entitled.2) fun _ _ _ _ => .pure trivial
  | totpConfirm code =>
      refine .bind mustBeSignedIn_follows fun _ _ behind _ => ?_
      split
      · exact .pure trivial
      · next given =>
        have gave : Gave _ self (code.getD "") :=
          ⟨.totpConfirm code, (asked ▸ received).later behind, eq_some_of_not_absent given⟩
        exact .bind (confirmTotp_follows gave) fun _ _ _ _ => .pure trivial
  | administers action =>
      cases action with
      | createPrincipal row =>
          exact .bind (send_follows fun _ _ => trivial) fun _ _ _ _ => .pure trivial
      | setStatus id status => exact .bind setStatus_follows fun _ _ _ _ => .pure trivial
      | resetPassword id password =>
          refine .bind setPassword_follows fun _ _ _ _ => ?_
          exact .bind revokeAllSessions_follows fun _ _ _ _ => .pure trivial
      | revokeSessions id =>
          exact .bind revokeAllSessions_follows fun _ _ _ _ => .pure trivial

end Requests

-----------------------------------------------------------------------------
-- Runs

abbrev AuthSystem : Type := System Command Command.Answer Thrown Reply AuthData

def AuthSystem.step (config : AuthConfig)
    : AuthSystem → Event AuthRequest Thrown Input → Option AuthSystem :=
  System.step (authMachine config) (serve config)

/-- The server before its first request. -/
def started (data : AuthData) : AuthSystem where
  world := { data, trace := [] }
  handlers := []

theorem started_sound (config : AuthConfig) {data : AuthData}
    (signedOut : data.tables.sessions = [])
    (unchallenged : ∀ challenge, data.challenges challenge = none)
    : (started data).Sound (contract config data) := by
  refine ⟨⟨⟨?_, ?_, ?_, ?_, ?_⟩, trivial⟩, fun self handler there => nomatch there⟩
  · intro row member
    rw [started, signedOut] at member
    cases member
  · intro challenge pending found
    rw [started, unchallenged] at found
    cases found
  · intro self kind email tenantId row did
    cases did
  · intro id row found
    exact ⟨row, found, .refl row⟩
  · intro principalId secret enrolled
    obtain ⟨totp, read, its⟩ := enrolled.confirmed
    obtain ⟨has, confirmed⟩ := Option.filter_eq_some_iff.mp read
    exact .inr ⟨⟨totp, has, its, confirmed⟩, fun row member => ⟨row, member, rfl⟩⟩

theorem kept_reached (config : AuthConfig) {data : AuthData}
    (signedOut : data.tables.sessions = [])
    (unchallenged : ∀ challenge, data.challenges challenge = none) {system : AuthSystem}
    (reached : Reaches (AuthSystem.step config) (fun _ _ => True) (started data) system)
    : Kept config data system.world :=
  (System.Sound.reached (fun _ _ _ => serve_follows) (started_sound config signedOut unchallenged)
    reached).world.invariant

def sampleAuth : AuthConfig where
  crypto := sampleCrypto
  hashing := sampleHashing
  lower := id
  login := defaultLoginConfig
  session := defaultSessionConfig

def sampleAuthData : AuthData where
  tables :=
    { principals := [sampleOperator]
      sessions := []
      principalKey := List.nodup_singleton _
      sessionKey := List.nodup_nil
      tokenHashKey := List.nodup_nil
      principalReference := fun _ member => absurd member List.not_mem_nil }
  factors :=
    fun _ =>
      { totp := some confirmedTotp, recovery := sampleRecovery, accepted := [], issued := 0,
        spent := [] }
  attempts := []
  challenges := fun _ => none

/-- What is taken from outside at a clock. -/
def inputAt (now : Int) : Input where
  now
  databaseNow := now
  first := 0
  drawn :=
    { id := "s", token := "t", csrfToken := "c", secret := "", codes := [], challenge := "chal",
      hash := "" }

def sampleRequest (route : Route) : AuthRequest where
  route
  client := { ip := none, userAgent := none }
  cookie := none
  csrf := none

def awaits (handler count : Nat) (now : Int) : List (Event AuthRequest Thrown Input) :=
  List.replicate count (.await handler (inputAt now))

/-- The right password, and a code within the minute. -/
def signIn : List (Event AuthRequest Thrown Input) :=
  [ .arrives
      (sampleRequest
        (.login
          { email := some "ops@cixtech.test"
            password := some "correct horse"
            kind := none
            tenantId := none }))
      (inputAt 0) ]
    ++ awaits 0 3 0
    ++ [ .arrives
          (sampleRequest (.mfa { challenge := some "chal", code := some "287082", enrol := false }))
          (inputAt 59000) ]
    ++ awaits 1 6 59000

theorem signIn_succeeds
    : ∃ system,
        Reaches (AuthSystem.step sampleAuth) (fun _ _ => True) (started sampleAuthData) system
        ∧ (∃ row ∈ system.world.data.tables.sessions, row.principalId = "p")
        ∧ (system.world.data.tables.principal? "p").any (fun row => requiresTotp row.role) :=
  Reaches.exists_of_exec signIn (by decide +kernel)

end Cixtech.Auth.AuthRoutes
