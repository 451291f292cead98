import Cixtech.Ingest.InterruptedPolls
import Cixtech.Ingest.ReorgHistory

/-! The events of credits and of reversals. Every step adds as many events as it applies credits
and reversals, but for two: a poll that ends before it has enqueued an event loses it for good,
and a reversal that the ledger knows already is announced again.
-/

namespace Cixtech.Ingest

open Cixtech.Attribution Cixtech.Common Cixtech.Foundation Cixtech.Ledger

namespace DepositIngestor

/-- A blocked deposit is posted as a quarantine, another one as a credit. -/
theorem entryOf_kind {casing : Casing} {owner : AttributionEntry} {blocked : Bool}
    {deposit : ChainDeposit} {entry : JournalEntry}
    (built : entryOf casing owner blocked deposit = some entry)
    : entry.kind = if blocked then "deposit.quarantined" else "deposit.finalized" := by
  unfold entryOf at built
  split at built
  case isTrue blocks =>
    split at built <;> cases built
    rw [if_pos blocks]
    rfl
  case isFalse clear =>
    split at built <;> cases built
    rw [if_neg clear]
    rfl

/-- What an ingestion posts: a credit or a quarantine under the reference of the deposit, or
nothing, and then there is no event.
-/
theorem ingestConfirmed_posts {config : IngestorConfig} {now : Int} {store after : IngestStore}
    {deposit : ChainDeposit} {result : IngestResult}
    (done : ingestConfirmed config now store deposit = .ok (after, result))
    : (after.ledger = store.ledger ∧ result.status.announcedAs = none)
      ∨ ∃ entry,
          after.ledger.journal = store.ledger.journal ++ [entry]
          ∧ entry.id = deposit.ref
          ∧ ((result.status = .credited ∧ entry.kind = "deposit.finalized")
            ∨ (result.status = .quarantined ∧ entry.kind = "deposit.quarantined")) := by
  rcases ingestConfirmed_ok done with
    ⟨rfl, rfl⟩ | ⟨owner, blocked, entry, applied, -, -, built, appended, -, rfl⟩
  · exact .inl ⟨rfl, rfl⟩
  · cases applied with
    | false => exact .inl ⟨SqlLedger.append_ignored appended, rfl⟩
    | true =>
        have journal := (SqlLedger.append_applied appended).1
        refine .inr ⟨entry, journal, (entryOf_ref built).1, ?_⟩
        have kind := entryOf_kind built
        cases blocked with
        | true => exact .inr ⟨rfl, kind⟩
        | false => exact .inl ⟨rfl, kind⟩

/-- Whether the ledger has the reversal of a deposit already, which it answers a second one with.
-/
def repeatsReversal (ledger : SqlLedger) (deposit : ChainDeposit) : Bool :=
  let newRef := "reverse:" ++ deposit.ref
  match LedgerService.reverseByRef ledger deposit.ref newRef newRef with
  | .ok (_, applied) => !applied
  | .error _ => false

/-- That is so where the deposit has an entry and the key of its reversal is taken. -/
theorem repeatsReversal_iff {ledger : SqlLedger} {deposit : ChainDeposit}
    (balanced : Balanced (ledger.entryPostings deposit.ref))
    : repeatsReversal ledger deposit = true
      ↔ ledger.entryPostings deposit.ref ≠ []
        ∧ ledger.hasKey ("reverse:" ++ deposit.ref) = true := by
  obtain ⟨reversal, built⟩ : ∃ reversal : JournalEntry,
      { id := "reverse:" ++ deposit.ref, idempotencyKey := "reverse:" ++ deposit.ref
        kind := "reverse", postings := (ledger.entryPostings deposit.ref).map Posting.flipped }
      = reversal := ⟨_, rfl⟩
  have key : reversal.idempotencyKey = "reverse:" ++ deposit.ref := by rw [← built]
  have posted : LedgerService.post ledger reversal = ledger.append reversal :=
    LedgerService.post_of_balanced (by rw [← built]; exact balanced.flipped)
  unfold repeatsReversal LedgerService.reverseByRef
  by_cases unknown : ledger.entryPostings deposit.ref = []
  · simp [unknown]
  · simp only [List.isEmpty_iff, unknown, if_false, ne_eq, not_false_iff, true_and, built, posted]
    rw [← key]
    rcases ledger.append_cases reversal with ⟨held, same⟩ | ⟨free, -, failed⟩ | ⟨free, -, stored⟩
    · simp only [same, held, Bool.not_false]
    · simp only [failed, free, Bool.false_eq_true]
    · simp only [stored, free, Bool.not_true, Bool.false_eq_true]

/-- A reversal is posted under its reference, or the ledger had it and it is reported all the
same.
-/
theorem reverseCredit_posts {ledger after : SqlLedger} {deposit : ChainDeposit}
    (done : reverseCredit ledger deposit = .ok (after, .reversed))
    : (repeatsReversal ledger deposit = true ∧ after = ledger)
      ∨ (repeatsReversal ledger deposit = false
          ∧ ∃ entry,
              after.journal = ledger.journal ++ [entry]
              ∧ entry.kind = "reverse" ∧ entry.id = "reverse:" ++ deposit.ref) := by
  cases answer : LedgerService.reverseByRef ledger deposit.ref ("reverse:" ++ deposit.ref)
      ("reverse:" ++ deposit.ref) with
  | error err =>
      simp only [reverseCredit, answer] at done
      split at done <;> cases done
  | ok result =>
      obtain ⟨later, applied⟩ := result
      simp only [reverseCredit, answer] at done
      obtain rfl := (Prod.mk.inj (Except.ok.inj done)).1
      simp only [repeatsReversal, answer]
      have reversed := answer
      unfold LedgerService.reverseByRef at reversed
      simp only at reversed
      split at reversed
      · cases reversed
      · have appended := LedgerService.append_of_post reversed
        cases applied with
        | false => exact .inl ⟨rfl, SqlLedger.append_ignored appended⟩
        | true => exact .inr ⟨rfl, _, (SqlLedger.append_applied appended).1, rfl, rfl⟩

/-- A repeated reversal is one that is reported as done. -/
theorem repeatsReversal_of_ne {ledger : SqlLedger} {deposit : ChainDeposit}
    (undone : ∀ after, reverseCredit ledger deposit ≠ .ok (after, .reversed))
    : repeatsReversal ledger deposit = false := by
  unfold reverseCredit at undone
  unfold repeatsReversal
  simp only at undone ⊢
  split
  case h_1 reversed =>
    rw [reversed] at undone
    exact absurd rfl (undone _)
  case h_2 => rfl

end DepositIngestor

namespace Watching

-----------------------------------------------------------------------------
-- What one await adds

/-- Whether an optional reference is the one asked for, as a number. -/
def one (added : Option String) (ref : String) : Nat := if added = some ref then 1 else 0

/-- What a step adds: a credit and a reversal to the ledger, an event of each kind. -/
structure Adds (state next : Watching) (credit reversal confirmation reorganisation : Option String)
    : Prop where
  credits
    : ∀ ref, Watching.credits next.store.ledger ref
        = Watching.credits state.store.ledger ref + one credit ref
  reversals
    : ∀ ref, Watching.reversals next.store.ledger ref
        = Watching.reversals state.store.ledger ref + one reversal ref
  confirmed
    : ∀ ref, next.announced "deposit.confirmed" ref
        = state.announced "deposit.confirmed" ref + one confirmation ref
  reorged
    : ∀ ref, next.announced "deposit.reorged" ref
        = state.announced "deposit.reorged" ref + one reorganisation ref
  counted : ∀ ref, next.reversed.count ref = state.reversed.count ref + one reorganisation ref

/-- Whether a step neither loses an event nor announces a reversal again. -/
def keepsAnnouncements (state : Watching) : WatchEvent → Bool
  | .interrupt =>
      state.pending.all fun (event, _) =>
        event ≠ "deposit.confirmed" && event ≠ "deposit.reorged"
  | .reverse =>
      match state.phase with
      | .reversing _ (deposit :: _) _ =>
          !DepositIngestor.repeatsReversal state.store.ledger deposit
      | _ => true
  | _ => true

/-- What the outbox has of a pending event once it is enqueued is what was announced. -/
theorem announced_enqueue {state next : Watching} {addr : PoolAddressRow} {event : String}
    {deposit : ChainDeposit} (about : state.pending = some (event, deposit.ref))
    (outbox : next.outbox = state.outbox ++ [announcement state.chain addr event deposit])
    (done : next.pending = none) (name ref : String)
    : next.announced name ref = state.announced name ref := by
  simp only [announced, enqueued, done, about, outbox, List.countP_append, List.countP_singleton,
    announcement, decide_eq_true_eq, Option.some.injEq, Prod.mk.injEq, reduceCtorEq, if_false]
  omega

/-- A step that changes neither the outbox nor what is pending announces nothing. -/
theorem announced_same {state next : Watching} (outbox : next.outbox = state.outbox)
    {name : String}
    (pending : ∀ ref, next.pending = some (name, ref) ↔ state.pending = some (name, ref))
    (ref : String)
    : next.announced name ref = state.announced name ref := by
  simp only [announced, enqueued, outbox, pending]

/-- A step that has an event pending announces it. -/
theorem announced_pending {state next : Watching} {name ref : String}
    (outbox : next.outbox = state.outbox) (before : state.pending = none)
    (about : next.pending = some (name, ref)) (other otherRef : String)
    : next.announced other otherRef
      = state.announced other otherRef + if name = other ∧ ref = otherRef then 1 else 0 := by
  simp only [announced, enqueued, outbox, before, about, Option.some.injEq, Prod.mk.injEq,
    reduceCtorEq, if_false, Nat.add_zero]

/-- A step that posts something and has its event pending. -/
theorem Adds.announcing {state next : Watching}
    {credit reversal confirmation reorganisation : Option String} (name ref : String)
    (ledger
      : ∀ other,
          Watching.credits next.store.ledger other
            = Watching.credits state.store.ledger other + one credit other
          ∧ Watching.reversals next.store.ledger other
            = Watching.reversals state.store.ledger other + one reversal other)
    (before : state.pending = none) (outbox : next.outbox = state.outbox)
    (about : next.pending = some (name, ref))
    (confirms
      : ∀ other, one confirmation other
          = if name = "deposit.confirmed" ∧ ref = other then 1 else 0)
    (retracts
      : ∀ other, one reorganisation other
          = if name = "deposit.reorged" ∧ ref = other then 1 else 0)
    (counted
      : ∀ other, next.reversed.count other
          = state.reversed.count other + one reorganisation other)
    : Adds state next credit reversal confirmation reorganisation where
  credits other := (ledger other).1
  reversals other := (ledger other).2
  confirmed other := by rw [announced_pending outbox before about, confirms]
  reorged other := by rw [announced_pending outbox before about, retracts]
  counted := counted

theorem Adds.enqueued {state next : Watching} {addr : PoolAddressRow} {event : String}
    {deposit : ChainDeposit} (about : state.pending = some (event, deposit.ref))
    (outbox : next.outbox = state.outbox ++ [announcement state.chain addr event deposit])
    (done : next.pending = none) (ledger : next.store.ledger = state.store.ledger)
    (reversed : next.reversed = state.reversed)
    : Adds state next none none none none where
  credits ref := by rw [ledger]; rfl
  reversals ref := by rw [ledger]; rfl
  confirmed ref := announced_enqueue about outbox done _ ref
  reorged ref := announced_enqueue about outbox done _ ref
  counted ref := by rw [reversed]; rfl

theorem Adds.nothing {state next : Watching} (ledger : next.store.ledger = state.store.ledger)
    (outbox : next.outbox = state.outbox) (pending : next.pending = state.pending)
    (reversed : next.reversed = state.reversed)
    : Adds state next none none none none := by
  have same : ∀ name ref, next.announced name ref = state.announced name ref :=
    fun name => announced_same outbox fun ref => by rw [pending]
  exact
    { credits := fun ref => by rw [ledger]; rfl
      reversals := fun ref => by rw [ledger]; rfl
      confirmed := fun ref => by rw [same]; rfl
      reorged := fun ref => by rw [same]; rfl
      counted := fun ref => by rw [reversed]; rfl }

/-- What an appended entry adds to the counts of the ledger. -/
theorem credits_append {before after : SqlLedger} {entry : JournalEntry}
    (journal : after.journal = before.journal ++ [entry]) (ref : String)
    : credits after ref
        = credits before ref
          + (if entry.kind = "deposit.finalized" ∧ entry.id = ref then 1 else 0)
      ∧ reversals after ref
        = reversals before ref
          + (if entry.kind = "reverse" ∧ entry.id = "reverse:" ++ ref then 1 else 0) := by
  simp only [credits, reversals, journal, List.countP_append, List.countP_singleton,
    decide_eq_true_eq, and_self]

/-- What one await does: it adds as many events as it posts credits and reversals, or it announces
a reversal again, or it loses the event that was pending.
-/
inductive Effect (state : Watching) (event : WatchEvent) (next : Watching) : Prop
  | adds (credit reversal : Option String) (adds : Adds state next credit reversal credit reversal)
    (kept : state.keepsAnnouncements event = true)
  | repeats (ref : String) (adds : Adds state next none none none (some ref))
    (broken : state.keepsAnnouncements event = false)
  | loses (name ref : String) (about : state.pending = some (name, ref))
    (named : name = "deposit.confirmed" ∨ name = "deposit.reorged")
    (ends : next = { state with phase := .idle })
    (broken : state.keepsAnnouncements event = false)

/-- A step that adds nothing that is counted. -/
theorem Effect.nothing {state next : Watching} {event : WatchEvent}
    (ledger : next.store.ledger = state.store.ledger) (outbox : next.outbox = state.outbox)
    (pending : next.pending = state.pending) (reversed : next.reversed = state.reversed)
    (kept : state.keepsAnnouncements event = true)
    : Effect state event next :=
  .adds none none (.nothing ledger outbox pending reversed) kept

theorem effect_ingest {config : IngestorConfig} {state next : Watching} {now : Int}
    (taken : step config state (.ingest now) = some next)
    : Effect state (.ingest now) next := by
  simp only [step] at taken
  split at taken
  case h_1 addr rest atPhase =>
    cases taken
    exact .nothing rfl rfl (by simp only [pending, atPhase]) rfl rfl
  case h_2 addr deposit deposits rest atPhase =>
    have before : state.pending = none := by simp only [pending, atPhase]
    split at taken
    · cases taken
      exact .nothing rfl rfl (by rw [before]; rfl) rfl rfl
    case h_2 store res done =>
      rcases DepositIngestor.ingestConfirmed_posts done with ⟨same, silent⟩
        | ⟨entry, journal, id, ⟨credited, kind⟩ | ⟨quarantined, kind⟩⟩
      · simp only [silent] at taken
        cases taken
        exact .nothing same rfl (by rw [before]; rfl) rfl rfl
      · simp only [credited, IngestStatus.announcedAs] at taken
        cases taken
        refine .adds (some deposit.ref) none
          (.announcing "deposit.confirmed" deposit.ref (fun ref => ?_) before rfl rfl
            (fun ref => by simp [one]) (fun ref => by simp [one]) fun _ => rfl)
          rfl
        simp [credits_append journal ref, kind, id, one]
      · simp only [quarantined, IngestStatus.announcedAs] at taken
        cases taken
        refine .adds none none
          (.announcing "compliance.hold" deposit.ref (fun ref => ?_) before rfl rfl
            (fun ref => by simp [one]) (fun ref => by simp [one]) fun _ => rfl)
          rfl
        simp [credits_append journal ref, kind, one]
  case h_3 => cases taken

theorem effect_reverse {config : IngestorConfig} {state next : Watching}
    (taken : step config state .reverse = some next)
    : Effect state .reverse next := by
  simp only [step] at taken
  split at taken
  case h_1 addr rest atPhase =>
    cases taken
    exact .nothing rfl rfl (by simp only [pending, atPhase]) rfl
      (by simp only [keepsAnnouncements, atPhase])
  case h_2 addr deposit gone rest atPhase =>
    have before : state.pending = none := by simp only [pending, atPhase]
    have keeps : state.keepsAnnouncements .reverse
        = !DepositIngestor.repeatsReversal state.store.ledger deposit := by
      simp only [keepsAnnouncements, atPhase]
    split at taken
    case h_1 err failed =>
      cases taken
      refine .nothing rfl rfl (by rw [before]; rfl) rfl ?_
      rw [keeps, DepositIngestor.repeatsReversal_of_ne (by rw [failed]; simp)]
      rfl
    case h_2 ledger failed =>
      cases taken
      refine .nothing rfl rfl (by rw [before]; rfl) rfl ?_
      rw [keeps, DepositIngestor.repeatsReversal_of_ne (by rw [failed]; simp)]
      rfl
    case h_3 ledger done =>
      cases taken
      have counted : ∀ ref, (deposit.ref :: state.reversed).count ref
          = state.reversed.count ref + one (some deposit.ref) ref := by
        intro ref
        simp [one, List.count_cons]
      rcases DepositIngestor.reverseCredit_posts done with ⟨repeats, rfl⟩
        | ⟨fresh, entry, journal, kind, id⟩
      · exact .repeats deposit.ref
          (.announcing "deposit.reorged" deposit.ref (fun _ => ⟨rfl, rfl⟩) before rfl rfl
            (fun ref => by simp [one]) (fun ref => by simp [one]) counted)
          (by rw [keeps, repeats]; rfl)
      · refine .adds none (some deposit.ref)
          (.announcing "deposit.reorged" deposit.ref (fun ref => ?_) before rfl rfl
            (fun ref => by simp [one]) (fun ref => by simp [one]) counted)
          (by rw [keeps, fresh]; rfl)
        simp [credits_append journal ref, kind, id, one]
  case h_3 => cases taken

theorem effect_interrupt (state : Watching)
    : Effect state .interrupt { state with phase := .idle } := by
  cases kept : state.keepsAnnouncements .interrupt with
  | true =>
      have untracked := kept
      simp only [keepsAnnouncements, Option.all_eq_true, Bool.and_eq_true, decide_eq_true_eq]
        at untracked
      have same : ∀ name, name = "deposit.confirmed" ∨ name = "deposit.reorged" → ∀ ref,
          ({ state with phase := .idle } : Watching).announced name ref
            = state.announced name ref := by
        intro name named ref
        have about : ∀ other,
            ({ state with phase := .idle } : Watching).pending = some (name, other)
            ↔ state.pending = some (name, other) := by
          refine fun other => ⟨fun about => (nomatch about), fun about => ?_⟩
          obtain ⟨confirmed, reorged⟩ := untracked _ about
          rcases named with rfl | rfl
          · exact absurd rfl confirmed
          · exact absurd rfl reorged
        refine announced_same ?_ about ref
        rfl
      exact .adds none none
        ⟨fun _ => rfl, fun _ => rfl, same _ (.inl rfl), same _ (.inr rfl), fun _ => rfl⟩ kept
  | false =>
      cases about : state.pending with
      | none => simp [keepsAnnouncements, about] at kept
      | some pair =>
          obtain ⟨name, ref⟩ := pair
          refine .loses name ref about ?_ rfl kept
          simp only [keepsAnnouncements, about, Option.all_some] at kept
          by_cases confirmed : name = "deposit.confirmed"
          · exact .inl confirmed
          · simpa [confirmed] using kept

theorem step_effect {config : IngestorConfig} {state next : Watching} {event : WatchEvent}
    (taken : step config state event = some next)
    : Effect state event next := by
  cases event with
  | poll chain =>
      simp only [step] at taken
      split at taken
      case h_1 atPhase =>
        cases taken
        exact .nothing rfl rfl (by simp only [pending, atPhase]) rfl rfl
      case h_2 => cases taken
  | fetch deposits =>
      simp only [step] at taken
      split at taken
      case h_3 => cases taken
      all_goals
        rename_i atPhase
        cases taken
        exact .nothing rfl rfl (by simp only [pending, atPhase]) rfl rfl
  | ingest now => exact effect_ingest taken
  | enqueue =>
      simp only [step] at taken
      split at taken
      case h_1 addr event deposit deposits rest atPhase =>
        have about : state.pending = some (event, deposit.ref) := by simp only [pending, atPhase]
        cases taken
        exact .adds none none (.enqueued about rfl rfl rfl rfl) rfl
      case h_2 addr deposit gone rest atPhase =>
        have about : state.pending = some ("deposit.reorged", deposit.ref) := by
          simp only [pending, atPhase]
        cases taken
        exact .adds none none (.enqueued about rfl rfl rfl rfl) rfl
      case h_3 => cases taken
  | reorged answer =>
      simp only [step] at taken
      split at taken
      case h_3 => cases taken
      all_goals
        rename_i atPhase
        cases taken
        exact .nothing rfl rfl (by simp only [pending, atPhase]) rfl rfl
  | reverse => exact effect_reverse taken
  | interrupt =>
      cases taken
      exact effect_interrupt state
  | pool rows =>
      cases taken
      exact .nothing rfl rfl rfl rfl rfl
  | post entry =>
      simp only [step] at taken
      split at taken
      · cases taken
      case isFalse other =>
        split at taken
        · cases taken
        case h_2 ledger applied posted =>
          cases taken
          obtain ⟨credit, reversal⟩ := not_or.mp other
          have same : ∀ ref, Watching.credits ledger ref = Watching.credits state.store.ledger ref
              ∧ Watching.reversals ledger ref = Watching.reversals state.store.ledger ref := by
            intro ref
            cases applied with
            | false =>
                rw [SqlLedger.append_ignored (LedgerService.append_of_post posted)]
                exact ⟨rfl, rfl⟩
            | true =>
                have appended := SqlLedger.append_applied (LedgerService.append_of_post posted)
                simp [credits_append appended.1 ref, credit, reversal]
          exact .adds none none ⟨fun ref => (same ref).1, fun ref => (same ref).2, fun _ => rfl,
            fun _ => rfl, fun _ => rfl⟩ rfl

-----------------------------------------------------------------------------
-- Every run

theorem announces_initial (store : IngestStore) : Announces store.ledger (initial store) := by
  refine ⟨fun ref => ?_, fun ref => ?_, fun ref => ?_⟩ <;>
    simp [initial, announced, enqueued, pending]

/-- The credits and reversals keep their events exactly where no event is lost and no reversal is
announced again.
-/
theorem Announces.step_iff {config : IngestorConfig} {before : SqlLedger} {state next : Watching}
    {event : WatchEvent} (announces : Announces before state)
    (taken : step config state event = some next)
    : Announces before next ↔ state.keepsAnnouncements event = true := by
  obtain ⟨confirmed, reorged, counted⟩ := announces
  cases step_effect taken with
  | adds credit reversal adds kept =>
      refine ⟨fun _ => kept, fun _ => ⟨fun ref => ?_, fun ref => ?_, fun ref => ?_⟩⟩
      · rw [adds.credits, adds.confirmed, confirmed, Nat.add_assoc]
      · rw [adds.reversals, adds.reorged, reorged, Nat.add_assoc]
      · rw [adds.counted, adds.reorged, counted]
  | repeats ref adds broken =>
      refine ⟨fun later => ?_, fun kept => ?_⟩
      · have reversals := later.reorged ref
        rw [adds.reversals, adds.reorged, reorged] at reversals
        simp only [one, reduceCtorEq, if_true, if_false] at reversals
        omega
      · rw [broken] at kept
        cases kept
  | loses name ref about named ends broken =>
      refine ⟨fun later => ?_, fun kept => ?_⟩
      · have ended : next.pending = none := by rw [ends]; rfl
        have lost : next.announced name ref + 1 = state.announced name ref := by
          simp only [announced, enqueued, ended, about]
          simp [ends]
        rcases named with rfl | rfl
        · have same := later.confirmed ref
          have was := confirmed ref
          simp only [ends] at same lost
          omega
        · have same := later.reorged ref
          have was := reorged ref
          simp only [ends] at same lost
          omega
      · rw [broken] at kept
        cases kept

theorem announces_reached {config : IngestorConfig} {store : IngestStore} {state : Watching}
    (reached
      : Reaches (step config) (fun state event => state.keepsAnnouncements event = true)
          (initial store) state)
    : Announces store.ledger state :=
  reached.invariant (announces_initial store) fun announces kept taken =>
    (announces.step_iff taken).mpr kept

/-- In runs that end no poll between a credit or a reversal and its event, and handle no
reorganisation whose reversal the ledger has, each credit has its one event, and so has each
reversal, which is counted once, whenever no event is about to be enqueued; a step of another kind
breaks that.
-/
theorem credits_and_reversals_announced (config : IngestorConfig) (store : IngestStore)
    : ∀ state,
        Reaches (step config) (fun state event => state.keepsAnnouncements event = true)
          (initial store) state
        → (state.pending = none
            → ∀ ref,
                credits state.store.ledger ref
                  = credits store.ledger ref + state.enqueued "deposit.confirmed" ref
                ∧ reversals state.store.ledger ref
                  = reversals store.ledger ref + state.enqueued "deposit.reorged" ref
                ∧ state.reversed.count ref = state.enqueued "deposit.reorged" ref)
          ∧ ∀ event next, step config state event = some next
              → (Announces store.ledger next ↔ state.keepsAnnouncements event = true) := by
  intro state reached
  have announces := announces_reached reached
  refine ⟨fun quiet ref => ?_, fun event next taken => announces.step_iff taken⟩
  have all : ∀ name, state.announced name ref = state.enqueued name ref := by
    simp [announced, quiet]
  exact ⟨all _ ▸ announces.confirmed ref, all _ ▸ announces.reorged ref,
    all _ ▸ announces.counted ref⟩

end Watching

-----------------------------------------------------------------------------
-- A crash, and a reorganisation that is reported twice

/-- A deposit that is credited by a poll that then ends, and reported again. -/
def creditedUnannounced : List WatchEvent :=
  [ .poll "TRON", .fetch [sampleTransfer], .ingest 0, .interrupt, .poll "TRON",
    .fetch [sampleTransfer], .ingest 1, .ingest 1, .reorged none, .fetch [] ]

/-- A deposit that is credited and then reported as gone by two polls. -/
def reversedTwice : List WatchEvent :=
  [ .poll "TRON", .fetch [sampleTransfer], .ingest 0, .enqueue, .ingest 0,
    .reorged (some [sampleTransfer]), .reverse, .enqueue, .reverse, .fetch [], .poll "TRON",
    .fetch [], .ingest 1, .reorged (some [sampleTransfer]), .reverse, .enqueue, .reverse,
    .fetch [] ]

/-- The credit has no event after the later poll; the one reversal has two, and is counted twice. -/
theorem credits_and_reversals_unannounced
    : (∃ state,
        Reaches (Watching.step sampleIngestor) (fun _ _ => True) (Watching.initial sampleStore)
          state
        ∧ state.pending = none
        ∧ Watching.credits state.store.ledger sampleTransfer.ref = 1
        ∧ state.enqueued "deposit.confirmed" sampleTransfer.ref = 0)
      ∧ ∃ state,
          Reaches (Watching.step sampleIngestor) (fun _ _ => True) (Watching.initial sampleStore)
            state
          ∧ state.pending = none
          ∧ Watching.reversals state.store.ledger sampleTransfer.ref = 1
          ∧ state.enqueued "deposit.reorged" sampleTransfer.ref = 2
          ∧ state.reversed.count sampleTransfer.ref = 2 :=
  ⟨Reaches.exists_of_exec creditedUnannounced (by decide +kernel),
    Reaches.exists_of_exec reversedTwice (by decide +kernel)⟩

/-- A deposit that is credited, reported again and then gone, with a poll that ends while it asks.
-/
theorem credits_and_reversals_announced_once
    : ∃ state,
        (Reaches (Watching.step sampleIngestor)
            (fun state event => state.keepsAnnouncements event = true)
            (Watching.initial sampleStore) state
          ∧ state.pending = none
          ∧ Watching.reversals state.store.ledger sampleTransfer.ref = 1)
        ∧ Watching.credits state.store.ledger sampleTransfer.ref
          = state.enqueued "deposit.confirmed" sampleTransfer.ref
        ∧ state.enqueued "deposit.reorged" sampleTransfer.ref = 1 := by
  have runs : ∃ state,
      Reaches (Watching.step sampleIngestor)
        (fun state event => state.keepsAnnouncements event = true)
        (Watching.initial sampleStore) state
      ∧ state.pending = none
      ∧ Watching.reversals state.store.ledger sampleTransfer.ref = 1 :=
    Reaches.exists_of_exec
      [ .poll "TRON", .fetch [sampleTransfer], .ingest 0, .enqueue, .ingest 0, .interrupt,
        .poll "TRON", .fetch [sampleTransfer], .ingest 1, .ingest 1,
        .reorged (some [sampleTransfer]), .reverse, .enqueue, .reverse, .fetch [] ]
      (by decide +kernel)
  obtain ⟨state, reached, quiet, reversed⟩ := runs
  obtain ⟨confirmed, reorged, -⟩ :=
    (Watching.credits_and_reversals_announced sampleIngestor sampleStore state reached).1 quiet
      sampleTransfer.ref
  have none : Watching.credits sampleStore.ledger sampleTransfer.ref = 0
      ∧ Watching.reversals sampleStore.ledger sampleTransfer.ref = 0 := ⟨rfl, rfl⟩
  refine ⟨state, ⟨reached, quiet, reversed⟩, ?_, ?_⟩
  · rw [confirmed, none.1, Nat.zero_add]
  · rw [reversed, none.2, Nat.zero_add] at reorged
    exact reorged.symm

end Cixtech.Ingest
