import Cixtech.Auth.SecondFactor

/-! Single use of the second factor. A recovery code is spent by one statement, so at most once.
A step is accepted at most once in runs whose acceptances each find an earlier step stored, or
none; neither an overlapping verification nor a second confirmation looks whether that is so.
-/

namespace Cixtech.Auth

open Cixtech.Common Cixtech.Foundation

/-- The last step is stored and has not gone back. -/
def NotBefore (earlier later : Option Int) : Prop :=
  ∀ step, earlier = some step → ∃ next, later = some next ∧ step ≤ next

theorem NotBefore.refl (stored : Option Int) : NotBefore stored stored :=
  fun step same => ⟨step, same, Int.le_refl step⟩

theorem NotBefore.trans {first second third : Option Int} (here : NotBefore first second)
    (there : NotBefore second third)
    : NotBefore first third := by
  intro step same
  obtain ⟨middle, stored, atLeast⟩ := here step same
  obtain ⟨last, later, further⟩ := there middle stored
  exact ⟨last, later, Int.le_trans atLeast further⟩

/-- The acceptance of a step, or of none, by one statement. -/
structure Accepts (before after : FactorRows) (step : Option Int) : Prop where
  accepted : after.accepted = step.toList ++ before.accepted
  lastStep
    : (step.isSome → before.totp.isSome) → after.lastStep = step.or before.lastStep
  enrolled : after.totp.isSome = before.totp.isSome

namespace Accepts

theorem none (rows : FactorRows) : Accepts rows rows none :=
  ⟨rfl, fun _ => rfl, rfl⟩

theorem advanceStep (rows : FactorRows) (step : Int)
    : Accepts rows (rows.advanceStep step) (some step) := by
  refine ⟨rfl, fun enrolled => ?_, by simp [FactorRows.advanceStep]⟩
  obtain ⟨row, there⟩ := Option.isSome_iff_exists.mp (enrolled rfl)
  simp [FactorRows.lastStep, FactorRows.advanceStep, there]

theorem spend (rows : FactorRows) (codeHash : String)
    : Accepts rows (rows.spend codeHash).1 .none := by
  unfold FactorRows.spend
  split
  · exact ⟨rfl, fun _ => rfl, rfl⟩
  · exact none rows

theorem confirm {rows later : FactorRows} {step : Int} {codeHashes : List String}
    (confirmed : rows.confirm step codeHashes = some later)
    : Accepts rows later (some step) := by
  unfold FactorRows.confirm at confirmed
  split at confirmed
  · cases confirmed
    refine ⟨rfl, fun enrolled => ?_, by simp⟩
    obtain ⟨row, there⟩ := Option.isSome_iff_exists.mp (enrolled rfl)
    simp [FactorRows.lastStep, there]
  · cases confirmed

end Accepts

-----------------------------------------------------------------------------
-- Recovery codes

/-- Every recovery code that has been accepted is marked as used, or deleted since. -/
structure Spent (rows : FactorRows) : Prop where
  issues : ∀ {issue codeHash}, (issue, codeHash) ∈ rows.spent → issue ≤ rows.issued
  used
    : ∀ {codeHash}, (rows.issued, codeHash) ∈ rows.spent
      → ∀ row ∈ rows.recovery, row.codeHash = codeHash → row.used = true
  once : rows.spent.Nodup

namespace Spent

variable {rows : FactorRows}

theorem advanceStep (spent : Spent rows) (step : Int) : Spent (rows.advanceStep step) :=
  ⟨spent.issues, spent.used, spent.once⟩

theorem spend (spent : Spent rows) (codeHash : String) : Spent (rows.spend codeHash).1 := by
  unfold FactorRows.spend
  split
  case isTrue unused =>
    obtain ⟨row, member, matched⟩ := List.any_eq_true.mp unused
    simp only [Bool.and_eq_true, decide_eq_true_eq, Bool.not_eq_true'] at matched
    have fresh : (rows.issued, codeHash) ∉ rows.spent := by
      intro before
      have used := spent.used before row member matched.1
      rw [matched.2] at used
      cases used
    refine ⟨fun {issue other} there => ?_, fun {other} there after member same => ?_,
      List.nodup_cons.mpr ⟨fresh, spent.once⟩⟩
    · rcases List.mem_cons.mp there with new | old
      · cases new
        exact Nat.le_refl _
      · exact spent.issues old
    · obtain ⟨old, before, rfl⟩ := List.mem_map.mp member
      split at same
      case isTrue own => simp [own]
      case isFalse foreign =>
        rw [if_neg foreign]
        rcases List.mem_cons.mp there with new | earlier
        · cases new
          exact absurd same foreign
        · exact spent.used earlier old before same
  case isFalse => exact spent

theorem confirm (spent : Spent rows) {later : FactorRows} {step : Int} {codeHashes : List String}
    (confirmed : rows.confirm step codeHashes = some later)
    : Spent later := by
  unfold FactorRows.confirm at confirmed
  split at confirmed
  · cases confirmed
    refine ⟨fun there => Nat.le_succ_of_le (spent.issues there), fun there => ?_, spent.once⟩
    exact absurd (spent.issues there) (by simp)
  · cases confirmed

end Spent

/-- The step that a call is about to accept. -/
def FactorPhase.accepts : FactorPhase → Option Int
  | .advancing _ step => some step
  | .confirming step => some step
  | _ => none

namespace SecondFactor

-----------------------------------------------------------------------------
-- What one event does

/-- The step whose acceptance an await of a call writes. -/
def writes (crypto : Crypto) (call : FactorCall) (codes : List String) : Option Int :=
  match call.phase with
  | .advancing _ step => some step
  | .confirming step => if (codes.map crypto.hashToken).Nodup then some step else none
  | _ => none

theorem accepts_of_writes {crypto : Crypto} {call : FactorCall} {codes : List String} {step : Int}
    (writing : writes crypto call codes = some step)
    : call.phase.accepts = some step := by
  unfold writes at writing
  split at writing
  case h_1 atPhase => rw [atPhase]; exact writing
  case h_2 atPhase =>
    split at writing
    · rw [atPhase]; exact writing
    · cases writing
  case h_3 => cases writing

/-- The step whose acceptance an event writes. -/
def accepting (crypto : Crypto) (system : SecondFactor) (event : FactorEvent) : Option Int :=
  event.call.bind fun index =>
    (system.calls[index]?).bind fun call =>
      match event with
      | .await _ codes => writes crypto call codes
      | .reject _ codes applied => if applied then writes crypto call codes else none
      | _ => none

/-- Whether an event that accepts a step finds an earlier one stored, or none. -/
def acceptsPast (crypto : Crypto) (system : SecondFactor) (event : FactorEvent) : Prop :=
  ∀ step ∈ accepting crypto system event, PastLast system.rows.lastStep step

instance (crypto : Crypto) (system : SecondFactor) (event : FactorEvent)
    : Decidable (acceptsPast crypto system event) :=
  inferInstanceAs (Decidable (∀ step ∈ accepting crypto system event, PastLast _ step))

variable {crypto : Crypto}

/-- What an await makes of the rows and of the phase of its call. -/
inductive Awaited (crypto : Crypto) (rows : FactorRows) (call : FactorCall) (codes : List String)
    : FactorRows → FactorPhase → Prop
  /-- The call goes on without an acceptance before it, or returns. -/
  | turns {phase} (idle : writes crypto call codes = none) (done : phase.accepts = none)
    : Awaited crypto rows call codes rows phase
  /-- The code is of a step past the last one that is read. -/
  | reads {totp step} (idle : writes crypto call codes = none) (there : rows.totp = some totp)
    (past : PastLast totp.lastStep step)
    : Awaited crypto rows call codes rows (.advancing totp.lastStep step)
  /-- The code is of some step near the clock, whatever the last one. -/
  | enrols {step} (idle : writes crypto call codes = none) (there : rows.totp.isSome)
    : Awaited crypto rows call codes rows (.confirming step)
  | advances {step} (writing : writes crypto call codes = some step)
    : Awaited crypto rows call codes (rows.advanceStep step) (.verified true)
  | spends (codeHash : String) (idle : writes crypto call codes = none)
    : Awaited crypto rows call codes (rows.spend codeHash).1
        (.verified (rows.spend codeHash).2)
  | confirms {step later} (writing : writes crypto call codes = some step)
    (confirmed : rows.confirm step (codes.map crypto.hashToken) = some later)
    : Awaited crypto rows call codes later (.issued codes)

theorem await_cases {rows later : FactorRows} {call next : FactorCall} {codes : List String}
    (awaited : await crypto rows call codes = some (later, next))
    : Awaited crypto rows call codes later next.phase := by
  cases atPhase : call.phase with
  | verifying =>
      have idle : writes crypto call codes = none := by simp only [writes, atPhase]
      simp only [await, atPhase] at awaited
      split at awaited
      case h_1 totp read =>
        split at awaited
        case h_1 accepted =>
          cases awaited
          exact .reads idle (Option.filter_eq_some_iff.mp read).1
            (verifyTotp_accepts accepted).2.2.2
        case h_2 =>
          cases awaited
          exact .turns idle rfl
      case h_2 =>
        cases awaited
        exact .turns idle rfl
  | advancing lastRead step =>
      simp only [await, atPhase, Option.some.injEq, Prod.mk.injEq] at awaited
      obtain ⟨rfl, rfl⟩ := awaited
      exact .advances (by simp only [writes, atPhase])
  | spending =>
      simp only [await, atPhase, Option.some.injEq, Prod.mk.injEq] at awaited
      obtain ⟨rfl, rfl⟩ := awaited
      exact .spends _ (by simp only [writes, atPhase])
  | enrolling =>
      have idle : writes crypto call codes = none := by simp only [writes, atPhase]
      simp only [await, atPhase] at awaited
      split at awaited
      case h_1 secret read =>
        have there : rows.totp.isSome := by
          obtain ⟨row, there, -⟩ := Option.map_eq_some_iff.mp read
          simp [there]
        split at awaited
        · cases awaited
          exact .turns idle rfl
        · split at awaited <;> cases awaited
          · exact .enrols idle there
          · exact .turns idle rfl
      case h_2 =>
        cases awaited
        exact .turns idle rfl
  | confirming step =>
      simp only [await, atPhase] at awaited
      split at awaited
      case h_1 confirmed =>
        cases awaited
        refine .confirms ?_ confirmed
        unfold FactorRows.confirm at confirmed
        split at confirmed
        case isTrue distinct => simp only [writes, atPhase, if_pos distinct]
        case isFalse => cases confirmed
      case h_2 refused =>
        cases awaited
        refine .turns ?_ rfl
        unfold FactorRows.confirm at refused
        split at refused
        case isTrue => cases refused
        case isFalse double => simp only [writes, atPhase, if_neg double]
  | _ => simp only [await, atPhase, reduceCtorEq] at awaited

theorem Awaited.accepts {rows later : FactorRows} {call : FactorCall} {phase : FactorPhase}
    {codes : List String} (awaited : Awaited crypto rows call codes later phase)
    : Accepts rows later (writes crypto call codes) := by
  cases awaited with
  | turns idle => exact idle ▸ .none rows
  | reads idle => exact idle ▸ .none rows
  | enrols idle => exact idle ▸ .none rows
  | advances writing => exact writing ▸ .advanceStep rows _
  | spends codeHash idle => exact idle ▸ .spend rows codeHash
  | confirms writing confirmed => exact writing ▸ .confirm confirmed

theorem Awaited.spent {rows later : FactorRows} {call : FactorCall} {phase : FactorPhase}
    {codes : List String} (awaited : Awaited crypto rows call codes later phase)
    (spent : Spent rows)
    : Spent later := by
  cases awaited with
  | turns | reads | enrols => exact spent
  | advances => exact spent.advanceStep _
  | spends codeHash => exact spent.spend codeHash
  | confirms _ confirmed => exact spent.confirm confirmed

/-- A call about to accept a step has found a secret, and the step past the last one that it read.
-/
structure Prepared (rows : FactorRows) (phase : FactorPhase) : Prop where
  enrolled : phase.accepts.isSome → rows.totp.isSome
  past : ∀ {lastRead step}, phase = .advancing lastRead step → PastLast lastRead step

theorem Prepared.of_done {rows : FactorRows} {phase : FactorPhase} (done : phase.accepts = none)
    : Prepared rows phase := by
  refine ⟨fun some => ?_, fun {lastRead step} advancing => ?_⟩
  · rw [done] at some
    cases some
  · rw [advancing] at done
    cases done

theorem Awaited.prepared {rows later : FactorRows} {call : FactorCall} {phase : FactorPhase}
    {codes : List String} (awaited : Awaited crypto rows call codes later phase)
    : Prepared later phase := by
  cases awaited with
  | turns _ done => exact .of_done done
  | reads _ there past =>
      refine ⟨fun _ => by simp [there], fun {lastRead step} advancing => ?_⟩
      cases advancing
      exact past
  | enrols _ there => exact ⟨fun _ => there, fun advancing => nomatch advancing⟩
  | advances => exact .of_done rfl
  | spends => exact .of_done rfl
  | confirms => exact .of_done rfl

/-- What an event makes of the system. -/
inductive Stepped (crypto : Crypto) (system : SecondFactor) (event : FactorEvent)
    : SecondFactor → Prop
  /-- A call begins, and waits for its first read. -/
  | arrives (call : FactorCall) (idle : call.phase.accepts = none)
    (free : accepting crypto system event = none)
    : Stepped crypto system event { system with calls := system.calls ++ [call] }
  /-- What a call awaits is applied, and the call goes on or has failed. -/
  | awaits {index call codes rows phase after calls}
    (awaited : Awaited crypto system.rows call codes rows phase)
    (turned : after = phase ∨ after.accepts = none)
    (acts : Processes.Acts system.calls calls index call (call.to after))
    (own : accepting crypto system event = writes crypto call codes)
    : Stepped crypto system event { rows, calls }
  /-- What a call awaits is not applied, and the call has failed. -/
  | breaks {index call after calls} (done : after.accepts = none)
    (acts : Processes.Acts system.calls calls index call (call.to after))
    (free : accepting crypto system event = none)
    : Stepped crypto system event { system with calls }

theorem await_to {rows later : FactorRows} {call next : FactorCall} {codes : List String}
    (awaited : await crypto rows call codes = some (later, next))
    : next = call.to next.phase := by
  unfold await at awaited
  (repeat' split at awaited) <;> cases awaited <;> rfl

theorem step_cases {system next : SecondFactor} {event : FactorEvent}
    (taken : step crypto system event = some next)
    : Stepped crypto system event next := by
  cases event with
  | verifySecondFactor code now =>
      cases taken
      exact .arrives _ rfl rfl
  | confirmTotp code now =>
      cases taken
      exact .arrives _ rfl rfl
  | await index codes =>
      obtain ⟨call, found, advanced⟩ := Option.bind_eq_some_iff.mp taken
      obtain ⟨⟨rows, after⟩, awaited, rfl⟩ := Option.map_eq_some_iff.mp advanced
      refine .awaits (await_cases awaited) (.inl rfl) ⟨found, ?_⟩ ?_
      · rw [← await_to awaited]
      · simp [accepting, FactorEvent.call, found]
  | reject index codes applied =>
      obtain ⟨call, found, advanced⟩ := Option.bind_eq_some_iff.mp taken
      obtain ⟨⟨rows, after⟩, rejected, rfl⟩ := Option.map_eq_some_iff.mp advanced
      obtain ⟨⟨answered, turned⟩, awaited, same⟩ := Option.map_eq_some_iff.mp rejected
      obtain ⟨rfl, rfl⟩ := Prod.mk.inj same
      cases applied with
      | true =>
          exact .awaits (await_cases awaited) (.inr rfl) ⟨found, rfl⟩
            (by simp [accepting, FactorEvent.call, found])
      | false => exact .breaks rfl ⟨found, rfl⟩ (by simp [accepting, FactorEvent.call])

-----------------------------------------------------------------------------
-- Every run

/-- The stored step is the last one accepted, and every call about to accept one is prepared. -/
structure Sound (system : SecondFactor) : Prop where
  latest : system.rows.lastStep = system.rows.accepted.head?
  prepared : ∀ call ∈ system.calls, Prepared system.rows call.phase
  spent : Spent system.rows

theorem sound_initial (totp : Option TotpRow) (recovery : List RecoveryRow)
    : Sound (initial totp recovery) := by
  refine ⟨?_, fun call member => (nomatch member), ?_⟩
  · cases stored : totp.bind TotpRow.lastStep <;>
      simp [initial, FactorRows.lastStep, stored]
  · exact ⟨fun there => (nomatch there), fun there => (nomatch there), List.nodup_nil⟩

theorem Prepared.mono {rows later : FactorRows} {phase : FactorPhase}
    (prepared : Prepared rows phase) (enrolled : later.totp.isSome = rows.totp.isSome)
    : Prepared later phase :=
  ⟨fun some => enrolled ▸ prepared.enrolled some, prepared.past⟩

/-- What an event accepts is recorded as the last step, whatever was stored before. -/
theorem Sound.accepts {system next : SecondFactor} {event : FactorEvent} (sound : Sound system)
    (taken : step crypto system event = some next)
    : next.rows.accepted = (accepting crypto system event).toList ++ system.rows.accepted
      ∧ next.rows.lastStep = (accepting crypto system event).or system.rows.lastStep := by
  rcases step_cases taken with ⟨call, -, free⟩ | ⟨awaited, -, acts, own⟩ | ⟨-, -, free⟩
  · simp [free]
  case awaits call codes rows phase after calls =>
    rw [own]
    refine ⟨awaited.accepts.accepted, awaited.accepts.lastStep fun writing => ?_⟩
    obtain ⟨step, written⟩ := Option.isSome_iff_exists.mp writing
    exact (sound.prepared call acts.mem_old).enrolled (by rw [accepts_of_writes written]; rfl)
  · simp [free]

theorem Sound.step {system next : SecondFactor} {event : FactorEvent} (sound : Sound system)
    (taken : step crypto system event = some next)
    : Sound next := by
  have latest : next.rows.lastStep = next.rows.accepted.head? := by
    obtain ⟨accepted, lastStep⟩ := sound.accepts taken
    rw [accepted, lastStep, sound.latest]
    cases accepting crypto system event <;> rfl
  rcases step_cases taken with ⟨call, idle, -⟩ | ⟨awaited, turned, acts, -⟩ | ⟨done, acts, -⟩
  · refine ⟨latest, fun other member => ?_, sound.spent⟩
    rcases List.mem_append.mp member with old | new
    · exact sound.prepared other old
    · rw [List.mem_singleton.mp new]
      exact .of_done idle
  · refine ⟨latest, fun other member => ?_, awaited.spent sound.spent⟩
    rcases acts.mem_cases member with rfl | old
    · rcases turned with rfl | done
      · exact awaited.prepared
      · exact .of_done done
    · exact (sound.prepared other old).mono awaited.accepts.enrolled
  · refine ⟨latest, fun other member => ?_, sound.spent⟩
    rcases acts.mem_cases member with rfl | old
    · exact .of_done done
    · exact sound.prepared other old

theorem Sound.reached {guard : SecondFactor → FactorEvent → Prop} {totp : Option TotpRow}
    {recovery : List RecoveryRow} {system : SecondFactor}
    (reached : Reaches (SecondFactor.step crypto) guard (initial totp recovery) system)
    : Sound system :=
  reached.invariant (sound_initial totp recovery) fun sound _ taken => sound.step taken

-----------------------------------------------------------------------------
-- Runs whose acceptances find an earlier step

/-- Every accepted step is past all that were accepted before it. -/
def Descending (system : SecondFactor) : Prop := system.rows.accepted.Pairwise (· > ·)

theorem Descending.nodup {system : SecondFactor} (descending : Descending system)
    : system.rows.accepted.Nodup :=
  List.Pairwise.imp (fun below => Int.ne_of_gt below) descending

/-- The last step is the greatest accepted one. -/
theorem Descending.le_last {system : SecondFactor} (descending : Descending system)
    (sound : Sound system) {accepted : Int} (member : accepted ∈ system.rows.accepted)
    : ∃ last, system.rows.lastStep = some last ∧ accepted ≤ last := by
  rw [sound.latest]
  unfold Descending at descending
  cases steps : system.rows.accepted with
  | nil =>
      rw [steps] at member
      cases member
  | cons last rest =>
      rw [steps] at member descending
      refine ⟨last, rfl, ?_⟩
      rcases List.mem_cons.mp member with rfl | earlier
      · exact Int.le_refl _
      · exact Int.le_of_lt ((List.pairwise_cons.mp descending).1 accepted earlier)

theorem Descending.step {system next : SecondFactor} {event : FactorEvent}
    (descending : Descending system) (sound : Sound system)
    (past : acceptsPast crypto system event) (taken : step crypto system event = some next)
    : Descending next := by
  unfold Descending
  rw [(sound.accepts taken).1]
  cases written : accepting crypto system event with
  | none => exact descending
  | some step =>
      refine List.pairwise_cons.mpr ⟨fun accepted member => ?_, descending⟩
      obtain ⟨last, stored, atMost⟩ := descending.le_last sound member
      exact Int.lt_of_le_of_lt atMost (past step written last stored)

/-- An acceptance past the stored step is what keeps a step from being accepted twice and the
stored one from going back.
-/
theorem Descending.accepts_iff {system next : SecondFactor} {event : FactorEvent}
    (descending : Descending system) (sound : Sound system)
    (taken : SecondFactor.step crypto system event = some next)
    : next.rows.accepted.Nodup ∧ NotBefore system.rows.lastStep next.rows.lastStep
      ↔ acceptsPast crypto system event := by
  obtain ⟨accepted, lastStep⟩ := sound.accepts taken
  refine ⟨fun ⟨once, notBefore⟩ step written last stored => ?_, fun past => ?_⟩
  · rw [Option.mem_def] at written
    rw [written] at accepted lastStep
    obtain ⟨_, same, atMost⟩ := notBefore last stored
    obtain rfl := Option.some.inj (lastStep.symm.trans same)
    refine Int.lt_iff_le_and_ne.mpr ⟨atMost, fun equal => ?_⟩
    have before : last ∈ system.rows.accepted :=
      List.mem_of_head? (sound.latest.symm.trans stored)
    rw [accepted] at once
    exact (List.nodup_cons.mp once).1 (equal ▸ before)
  · refine ⟨(descending.step sound past taken).nodup, ?_⟩
    rw [lastStep]
    cases written : accepting crypto system event with
    | none => exact .refl _
    | some step =>
        exact fun last stored => ⟨step, rfl, Int.le_of_lt (past step written last stored)⟩

/-- Runs whose acceptances each find an earlier step stored, or none. -/
def Ordered (crypto : Crypto) (start system : SecondFactor) : Prop :=
  Reaches (step crypto) (acceptsPast crypto) start system

theorem descending_initial (totp : Option TotpRow) (recovery : List RecoveryRow)
    : Descending (initial totp recovery) := by
  cases stored : totp.bind TotpRow.lastStep <;> simp [Descending, initial, stored]

/-- Such runs keep the accepted steps in order, and the stored one never goes back. -/
theorem Ordered.keeps {system later : SecondFactor} (sound : Sound system)
    (descending : Descending system) (ordered : Ordered crypto system later)
    : Sound later ∧ Descending later
      ∧ NotBefore system.rows.lastStep later.rows.lastStep := by
  induction ordered with
  | refl => exact ⟨sound, descending, .refl _⟩
  | tail _ past taken ih =>
      obtain ⟨sound, descending, notBefore⟩ := ih
      exact ⟨sound.step taken, descending.step sound past taken,
        notBefore.trans ((descending.accepts_iff sound taken).mpr past).2⟩

/-- Whether an event that accepts a step finds stored what a verification read, and a confirmation
finds no step stored yet.
-/
def undisturbed (system : SecondFactor) (event : FactorEvent) : Prop :=
  ∀ index ∈ event.call, ∀ call ∈ system.calls[index]?,
    (∀ lastRead step, call.phase = .advancing lastRead step → system.rows.lastStep = lastRead)
    ∧ ∀ step, call.phase = .confirming step → system.rows.lastStep = none

theorem Sound.acceptsPast {system : SecondFactor} {event : FactorEvent} (sound : Sound system)
    (kept : system.undisturbed event)
    : acceptsPast crypto system event := by
  intro step written
  obtain ⟨index, own, called⟩ := Option.bind_eq_some_iff.mp written
  obtain ⟨call, found, writing⟩ := Option.bind_eq_some_iff.mp called
  obtain ⟨verifies, confirms⟩ := kept index own call found
  have accepting : call.phase.accepts = some step := by
    cases event with
    | await _ codes => exact accepts_of_writes writing
    | reject _ codes applied =>
        simp only at writing
        split at writing
        · exact accepts_of_writes writing
        · cases writing
    | _ => cases own
  cases atPhase : call.phase with
  | advancing lastRead other =>
      rw [atPhase] at accepting
      obtain rfl : other = step := Option.some.inj accepting
      rw [verifies lastRead other atPhase]
      exact (sound.prepared call (List.mem_of_getElem? found)).past atPhase
  | confirming other =>
      rw [confirms other atPhase]
      intro last stored
      cases stored
  | _ =>
      rw [atPhase] at accepting
      cases accepting

/-- Runs without an overlap or a second confirmation are such runs. -/
theorem ordered_of_undisturbed {totp : Option TotpRow} {recovery : List RecoveryRow}
    {system : SecondFactor}
    (reached : Reaches (step crypto) undisturbed (initial totp recovery) system)
    : Ordered crypto (initial totp recovery) system := by
  induction reached with
  | refl => exact .refl
  | tail before kept taken ih => exact ih.tail ((Sound.reached before).acceptsPast kept) taken

/-- In runs whose acceptances each find an earlier step stored, or none, each step is accepted at
most once and the stored one never goes back; an event of another kind breaks one of the two.
Runs are such runs where no acceptance comes between the read of a verification and its write and
a confirmation finds no step stored. A recovery code is accepted at most once in every run.
-/
theorem second_factor_single_use (crypto : Crypto) (totp : Option TotpRow)
    (recovery : List RecoveryRow)
    : (∀ system, Ordered crypto (initial totp recovery) system
        → system.rows.accepted.Nodup
          ∧ (∀ event next, step crypto system event = some next
              → (next.rows.accepted.Nodup
                    ∧ NotBefore system.rows.lastStep next.rows.lastStep
                  ↔ acceptsPast crypto system event))
          ∧ ∀ later, Ordered crypto system later
              → NotBefore system.rows.lastStep later.rows.lastStep)
      ∧ (∀ system, Reaches (step crypto) undisturbed (initial totp recovery) system
          → Ordered crypto (initial totp recovery) system)
      ∧ ∀ system, Reaches (step crypto) (fun _ _ => True) (initial totp recovery) system
          → system.rows.spent.Nodup := by
  refine ⟨fun system ordered => ?_, fun _ => ordered_of_undisturbed,
    fun _ reached => (Sound.reached reached).spent.once⟩
  obtain ⟨sound, descending, -⟩ :=
    ordered.keeps (sound_initial totp recovery) (descending_initial totp recovery)
  exact ⟨descending.nodup, fun _ _ taken => descending.accepts_iff sound taken,
    fun _ further => (further.keeps sound descending).2.2⟩

/-- A confirmation accepts a step of its code whatever step is stored, earlier or later. -/
theorem confirmation_accepts_any (row : TotpRow) (recovery : List RecoveryRow) (code : String)
    (now : Int) (codes : List String) {step : Int} (enrolled : row.secret ≠ "")
    (verifies : verifyTotp crypto row.secret code now none = some step)
    (distinct : (codes.map crypto.hashToken).Nodup)
    : ∃ system,
        Reaches (SecondFactor.step crypto) (fun _ _ => True) (initial (some row) recovery) system
        ∧ system.rows.accepted = step :: row.lastStep.toList
        ∧ system.rows.lastStep = some step := by
  have runs : (exec (SecondFactor.step crypto) (fun _ _ => True) (initial (some row) recovery)
        [.confirmTotp code now, .await 0 [], .await 0 codes]).any
      (fun system => decide
        (system.rows.accepted = step :: row.lastStep.toList ∧ system.rows.lastStep = some step))
      = true := by
    simp [exec, SecondFactor.step, initial, FactorEvent.call, advance, await,
      FactorRows.pendingSecret, enrolled, verifies, FactorCall.to, FactorRows.confirm, distinct,
      FactorRows.lastStep]
  exact Reaches.exists_of_exec _ runs

end SecondFactor

-----------------------------------------------------------------------------
-- One code, presented twice

/-- A confirmed secret, of which no step has been accepted since it was confirmed at step 0. -/
def confirmedTotp : TotpRow := { secret := sampleSecret, confirmed := true, lastStep := some 0 }

/-- Ten recovery codes, none of them used. -/
def sampleRecovery : List RecoveryRow :=
  [ "0a24ca1614af41235e8ff811ee111c7c994f9b5dd06b012372b67bdb9b6b8add",
    "698c2a9456cdf9c01bfd5491f8e4e437cd7526128a24455271f8204b9b5fcc71",
    "3fad05ac2c5bbfe70c66e8dfef0d5f075d8ea88a17e25ffe9e0a36ef02f8b4eb",
    "d3dab59b2fae8593392dda2b64d9481de2d8dc03208dcf7977078660d0cfb7f6",
    "49657c7fc3513468c711ae3856e9a49c23984659bbd8c987d94f540a156d8b42",
    "5c634402db1cb9317294748af9a0c421b481b445a7b8cc3f0e545a8c3c78000d",
    "05e8f1ecc7e32368829093dd8d160d907fb07e434e1a86c88ec98fbe42a4c0c7",
    "7d97f351a92c3b25bd668ec99c2e4b8ebe05c097dc36545bd3cf4f19fd03b0ba",
    "385dae79ae75bcf32320d75ee05fde036c7646fa8dfc57a68cfde4d73b4bcce6",
    "beb3cdced07c15ef3069679c3ad0eafd3ad16c10964d0f13b672670ad4e80b14" ].map
    fun codeHash => { codeHash, used := false }

/-- Two verifications of the code of step 1, at second 59, both read before either writes. -/
def presentedTwice : List FactorEvent :=
  [ .verifySecondFactor "287082" 59000, .verifySecondFactor "287082" 59000, .await 0 [],
    .await 1 [], .await 0 [], .await 1 [] ]

/-- Both are accepted. -/
theorem presented_twice_accepted_twice
    : ∃ system,
        Reaches (SecondFactor.step sampleCrypto) (fun _ _ => True)
          (SecondFactor.initial (some confirmedTotp) sampleRecovery) system
        ∧ ¬ system.rows.accepted.Nodup :=
  Reaches.exists_of_exec presentedTwice (by decide +kernel)

/-- Where the second verification reads after the first has written, its code is refused. -/
theorem second_factor_single_use_in_turn
    : ∃ system,
        (SecondFactor.Ordered sampleCrypto
            (SecondFactor.initial (some confirmedTotp) sampleRecovery) system
          ∧ system.rows.accepted = [1, 0]
          ∧ ∃ call ∈ system.calls, call.phase = .spending)
        ∧ system.rows.accepted.Nodup := by
  have runs : ∃ system,
      Reaches (SecondFactor.step sampleCrypto) (SecondFactor.acceptsPast sampleCrypto)
        (SecondFactor.initial (some confirmedTotp) sampleRecovery) system
      ∧ system.rows.accepted = [1, 0]
      ∧ ∃ call ∈ system.calls, call.phase = .spending :=
    Reaches.exists_of_exec
      [ .verifySecondFactor "287082" 59000, .verifySecondFactor "287082" 59000, .await 0 [],
        .await 0 [], .await 1 [] ]
      (by decide +kernel)
  obtain ⟨system, ordered, accepted, refused⟩ := runs
  exact ⟨system, ⟨ordered, accepted, refused⟩,
    ((SecondFactor.second_factor_single_use sampleCrypto (some confirmedTotp) sampleRecovery).1
      system ordered).1⟩

end Cixtech.Auth
