import Cixtech.Foundation.Executions
import Mathlib.Data.List.Basic
import Mathlib.Data.List.Forall2

/-! Request handlers side by side over shared data. A handler runs from one await to the next
without another one in between; what it may do rests on what it was answered before, which the trace
keeps.
-/

namespace Cixtech.Foundation.Handlers

-----------------------------------------------------------------------------
-- Handlers

/-- Code that asks for one command after another, and goes on by what each of them comes to. -/
inductive Handler (κ : Type) (Answer : κ → Type) (ε α : Type)
  | done (out : Except ε α)
  | perform (command : κ) (next : Except ε (Answer command) → Handler κ Answer ε α)

variable {κ : Type} {Answer : κ → Type} {ε α β : Type}

namespace Handler

/-- What is thrown passes by the code behind it. -/
protected def bind (next : α → Handler κ Answer ε β)
    : Handler κ Answer ε α → Handler κ Answer ε β
  | .done (.ok value) => next value
  | .done (.error err) => .done (.error err)
  | .perform command rest => .perform command fun answer => (rest answer).bind next

instance : Monad (Handler κ Answer ε) where
  pure value := .done (.ok value)
  bind handler next := handler.bind next

/-- `throw` -/
def throws (err : ε) : Handler κ Answer ε α := .done (.error err)

/-- `try … catch`. -/
def catches (recover : ε → Handler κ Answer ε α) : Handler κ Answer ε α → Handler κ Answer ε α
  | .done (.ok value) => .done (.ok value)
  | .done (.error err) => recover err
  | .perform command rest => .perform command fun answer => (rest answer).catches recover

/-- `await` of one command, or a command that awaits nothing. -/
def ask (command : κ) : Handler κ Answer ε (Answer command) := .perform command .done

end Handler

-----------------------------------------------------------------------------
-- Handlers side by side

/-- A command that a handler had carried out, with what it was answered. -/
structure Entry (κ : Type) (Answer : κ → Type) where
  handler : Nat
  command : κ
  answer : Answer command

/-- Shared data, with what has been carried out on it, the latest first. -/
structure World (κ : Type) (Answer : κ → Type) (σ : Type) where
  data : σ
  trace : List (Entry κ Answer)

structure System (κ : Type) (Answer : κ → Type) (ε α σ : Type) where
  world : World κ Answer σ
  handlers : List (Handler κ Answer ε α)

/-- What handlers meet. What a command draws, or reads off a clock, is its input. -/
structure Machine (κ : Type) (Answer : κ → Type) (ε ι σ : Type) where
  perform : (command : κ) → ι → σ → Except ε (Answer command × σ)
  /-- Whether the command awaits something. Others are carried out without a pause. -/
  awaits : κ → Bool

inductive Event (ρ ε ι : Type)
  | arrives (request : ρ) (input : ι)
  /-- What a handler awaits is answered, or refused. -/
  | await (handler : Nat) (input : ι)
  /-- What a handler awaits rejects. The command may have been carried out all the same. -/
  | reject (handler : Nat) (input : ι) (applied : Bool) (err : ε)

variable {ι σ ρ : Type} (machine : Machine κ Answer ε ι σ)

/-- A handler has a command carried out. -/
def World.carriedOut (world : World κ Answer σ) (self : Nat) (command : κ) (input : ι)
    : Except ε (Answer command) × World κ Answer σ :=
  match machine.perform command input world.data with
  | .ok (answer, data) =>
      (.ok answer, { data, trace := { handler := self, command, answer } :: world.trace })
  | .error err => (.error err, world)

/-- A handler runs up to its next await. -/
def settle (self : Nat) (input : ι)
    : Handler κ Answer ε α → World κ Answer σ → Handler κ Answer ε α × World κ Answer σ
  | .done out, world => (.done out, world)
  | .perform command next, world =>
      if machine.awaits command then (.perform command next, world)
      else
        let carried := world.carriedOut machine self command input
        settle self input (next carried.1) carried.2

/-- A handler goes on from its await with what that came to. -/
def System.goesOn (system : System κ Answer ε α σ) (self : Nat) (input : ι)
    (handler : Handler κ Answer ε α) (world : World κ Answer σ)
    : System κ Answer ε α σ :=
  let settled := settle machine self input handler world
  { world := settled.2, handlers := system.handlers.set self settled.1 }

/-- One event. None is taken for a handler that has ended. -/
def System.step (serve : ρ → Handler κ Answer ε α) (system : System κ Answer ε α σ)
    : Event ρ ε ι → Option (System κ Answer ε α σ)
  | .arrives request input =>
      let settled :=
        settle machine system.handlers.length input (serve request) system.world
      some { world := settled.2, handlers := system.handlers ++ [settled.1] }
  | .await self input =>
      match system.handlers[self]? with
      | some (.perform command next) =>
          let carried := system.world.carriedOut machine self command input
          some (system.goesOn machine self input (next carried.1) carried.2)
      | _ => none
  | .reject self input applied err =>
      match system.handlers[self]? with
      | some (.perform command next) =>
          let carried := system.world.carriedOut machine self command input
          some
            (system.goesOn machine self input (next (.error err))
              (if applied then carried.2 else system.world))
      | _ => none

-----------------------------------------------------------------------------
-- What handlers rest on

/-- What holds of the data and the trace, what a handler must know before a command, and what it
knows behind it.
-/
structure Contract (machine : Machine κ Answer ε ι σ) where
  invariant : World κ Answer σ → Prop
  /-- What must be known before a handler has the command carried out. -/
  may : List (Entry κ Answer) → (handler : Nat) → κ → Prop
  /-- What an answer tells. It stays so. -/
  gives : List (Entry κ Answer) → (handler : Nat) → (command : κ) → Answer command → Prop
  keeps
    : ∀ {world : World κ Answer σ} {self : Nat} {command : κ} {input : ι}
        {answer : Answer command} {data : σ},
        invariant world → may world.trace self command
        → machine.perform command input world.data = .ok (answer, data)
        → invariant { data, trace := { handler := self, command, answer } :: world.trace }
          ∧ gives ({ handler := self, command, answer } :: world.trace) self command answer

variable {machine} (contract : Contract machine)

/-- The handler asks for nothing that it may not, whatever others do between its awaits, and what it
returns is as it should be.
-/
def Handler.Follows (self : Nat) (post : List (Entry κ Answer) → α → Prop)
    (trace : List (Entry κ Answer))
    : Handler κ Answer ε α → Prop
  | .done (.ok value) => post trace value
  | .done (.error _) => True
  | .perform command next =>
      (∀ later, trace <:+ later → contract.may later self command)
      ∧ (∀ later answer, trace <:+ later → contract.gives later self command answer
          → (next (.ok answer)).Follows self post later)
      ∧ ∀ later err, trace <:+ later → (next (.error err)).Follows self post later

namespace Handler.Follows

variable {contract} {self : Nat} {post : List (Entry κ Answer) → α → Prop}
  {postToo : List (Entry κ Answer) → β → Prop} {trace : List (Entry κ Answer)}

theorem throws (err : ε)
    : (Handler.throws err : Handler κ Answer ε α).Follows contract self post trace :=
  trivial

theorem pure {value : α} (holds : post trace value)
    : (Pure.pure value : Handler κ Answer ε α).Follows contract self post trace :=
  holds

/-- What asks for nothing returns what it has come to. -/
theorem done (out : Except ε α)
    : (Handler.done out : Handler κ Answer ε α).Follows contract self
        (fun _ value => out = .ok value) trace := by
  cases out with
  | ok value => rfl
  | error err => trivial

/-- One piece of code behind another, by induction on the first. -/
theorem bind {handler : Handler κ Answer ε α} {next : α → Handler κ Answer ε β}
    (first : handler.Follows contract self post trace)
    (rest
      : ∀ later value, trace <:+ later → post later value
        → (next value).Follows contract self postToo later)
    : (handler >>= next).Follows contract self postToo trace := by
  change (handler.bind next).Follows contract self postToo trace
  induction handler generalizing trace with
  | done out =>
      cases out with
      | ok value => exact rest trace value List.suffix_rfl first
      | error err => trivial
  | perform command following ih =>
      obtain ⟨may, answered, refused⟩ := first
      refine ⟨may, fun later answer behind gives => ?_, fun later err behind => ?_⟩
      · apply ih _ (answered later answer behind gives)
        exact fun last value since => rest last value (behind.trans since)
      · apply ih _ (refused later err behind)
        exact fun last value since => rest last value (behind.trans since)

/-- Code that recovers from what was thrown, by induction on the code that throws. -/
theorem catches {handler : Handler κ Answer ε α} {recover : ε → Handler κ Answer ε α}
    (first : handler.Follows contract self post trace)
    (recovers
      : ∀ later err, trace <:+ later → (recover err).Follows contract self post later)
    : (handler.catches recover).Follows contract self post trace := by
  induction handler generalizing trace with
  | done out =>
      cases out with
      | ok value => exact first
      | error err => exact recovers trace err List.suffix_rfl
  | perform command following ih =>
      obtain ⟨may, answered, refused⟩ := first
      refine ⟨may, fun later answer behind gives => ?_, fun later err behind => ?_⟩
      · apply ih _ (answered later answer behind gives)
        exact fun last thrown since => recovers last thrown (behind.trans since)
      · apply ih _ (refused later err behind)
        exact fun last thrown since => recovers last thrown (behind.trans since)

theorem ask {command : κ} (may : ∀ later, trace <:+ later → contract.may later self command)
    : (Handler.ask command : Handler κ Answer ε _).Follows contract self
        (fun later answer => contract.gives later self command answer) trace :=
  ⟨may, fun _ _ _ gives => gives, fun _ _ _ => trivial⟩

/-- A handler that returns what is enough follows for less. By induction on the handler. -/
theorem weaken {handler : Handler κ Answer ε α} {weaker : List (Entry κ Answer) → α → Prop}
    (follows : handler.Follows contract self post trace)
    (enough : ∀ later value, trace <:+ later → post later value → weaker later value)
    : handler.Follows contract self weaker trace := by
  induction handler generalizing trace with
  | done out =>
      cases out with
      | ok value => exact enough trace value List.suffix_rfl follows
      | error err => trivial
  | perform command following ih =>
      obtain ⟨may, answered, refused⟩ := follows
      refine ⟨may, fun later answer behind gives => ?_, fun later err behind => ?_⟩
      · apply ih _ (answered later answer behind gives)
        exact fun last value since => enough last value (behind.trans since)
      · apply ih _ (refused later err behind)
        exact fun last value since => enough last value (behind.trans since)

/-- A handler that pauses goes on following while others act. -/
theorem later {handler : Handler κ Answer ε α} {last : List (Entry κ Answer)}
    (follows : handler.Follows contract self (fun _ _ => True) trace) (behind : trace <:+ last)
    : handler.Follows contract self (fun _ _ => True) last := by
  cases handler with
  | done out =>
      cases out with
      | ok value => trivial
      | error err => trivial
  | perform command following =>
      obtain ⟨may, answered, refused⟩ := follows
      exact ⟨fun later since => may later (behind.trans since),
        fun later answer since => answered later answer (behind.trans since),
        fun later err since => refused later err (behind.trans since)⟩

end Handler.Follows

-----------------------------------------------------------------------------
-- Runs

/-- Whatever was carried out could be, by what had been before. -/
def Lawful : List (Entry κ Answer) → Prop
  | [] => True
  | entry :: earlier => contract.may earlier entry.handler entry.command ∧ Lawful earlier

theorem Lawful.may {trace : List (Entry κ Answer)} (lawful : Lawful contract trace)
    {after earlier : List (Entry κ Answer)} {entry : Entry κ Answer}
    (split : trace = after ++ entry :: earlier)
    : contract.may earlier entry.handler entry.command := by
  induction after generalizing trace with
  | nil =>
      subst split
      exact lawful.1
  | cons last after ih =>
      subst split
      exact ih lawful.2 rfl

structure World.Sound (world : World κ Answer σ) : Prop where
  invariant : contract.invariant world
  lawful : Lawful contract world.trace

structure System.Sound (system : System κ Answer ε α σ) : Prop where
  world : system.world.Sound contract
  handlers
    : ∀ (self : Nat) (handler : Handler κ Answer ε α), system.handlers[self]? = some handler
      → handler.Follows contract self (fun _ _ => True) system.world.trace

variable {contract}

/-- A handler that follows has a command carried out, and goes on following. -/
theorem World.Sound.carriedOut {world : World κ Answer σ} (sound : world.Sound contract)
    {self : Nat} {command : κ} {next : Except ε (Answer command) → Handler κ Answer ε α}
    (follows
      : (Handler.perform command next).Follows contract self (fun _ _ => True) world.trace)
    (input : ι)
    : let carried := world.carriedOut machine self command input
      carried.2.Sound contract ∧ world.trace <:+ carried.2.trace
        ∧ (next carried.1).Follows contract self (fun _ _ => True) carried.2.trace := by
  obtain ⟨may, answered, refused⟩ := follows
  simp only [World.carriedOut]
  cases ran : machine.perform command input world.data with
  | error err => exact ⟨sound, List.suffix_rfl, refused _ err List.suffix_rfl⟩
  | ok out =>
      obtain ⟨answer, data⟩ := out
      have allowed := may _ List.suffix_rfl
      obtain ⟨invariant, gives⟩ := contract.keeps sound.invariant allowed ran
      exact ⟨⟨invariant, allowed, sound.lawful⟩, List.suffix_cons _ _,
        answered _ answer (List.suffix_cons _ _) gives⟩

/-- A handler runs up to its next await, by induction on the handler. -/
theorem World.Sound.settle {handler : Handler κ Answer ε α} {world : World κ Answer σ}
    (sound : world.Sound contract) {self : Nat}
    (follows : handler.Follows contract self (fun _ _ => True) world.trace) (input : ι)
    : let settled := Handlers.settle machine self input handler world
      settled.2.Sound contract ∧ world.trace <:+ settled.2.trace
        ∧ settled.1.Follows contract self (fun _ _ => True) settled.2.trace := by
  induction handler generalizing world with
  | done out => exact ⟨sound, List.suffix_rfl, follows⟩
  | perform command next ih =>
      simp only [Handlers.settle]
      split
      · exact ⟨sound, List.suffix_rfl, follows⟩
      · obtain ⟨after, grown, rest⟩ := sound.carriedOut follows input
        obtain ⟨last, grownOn, settled⟩ := ih _ after rest
        exact ⟨last, grown.trans grownOn, settled⟩

/-- A handler goes on over a world that has grown, next to others that stay where they are. -/
theorem System.Sound.goesOn {system : System κ Answer ε α σ} (sound : system.Sound contract)
    {self : Nat} {handler : Handler κ Answer ε α} {world : World κ Answer σ}
    (after : world.Sound contract) (grown : system.world.trace <:+ world.trace)
    (follows : handler.Follows contract self (fun _ _ => True) world.trace) (input : ι)
    : (system.goesOn machine self input handler world).Sound contract := by
  obtain ⟨settled, grownOn, goes⟩ := after.settle follows input
  refine ⟨settled, fun other handler there => ?_⟩
  simp only [System.goesOn, List.getElem?_set] at there
  split at there
  · next same =>
    split at there
    · cases there
      exact same ▸ goes
    · cases there
  · exact (sound.handlers other handler there).later (grown.trans grownOn)

/-- One event keeps the system sound, where every handler follows from the start. By cases on the
event.
-/
theorem System.Sound.step {serve : ρ → Handler κ Answer ε α}
    (serves : ∀ request self trace, (serve request).Follows contract self (fun _ _ => True) trace)
    {system after : System κ Answer ε α σ} (sound : system.Sound contract) {event : Event ρ ε ι}
    (taken : system.step machine serve event = some after)
    : after.Sound contract := by
  cases event with
  | arrives request input =>
      cases taken
      obtain ⟨settled, grown, goes⟩ :=
        sound.world.settle (serves request system.handlers.length _) input
      refine ⟨settled, fun other handler there => ?_⟩
      simp only [List.getElem?_append] at there
      split at there
      · exact (sound.handlers other handler there).later grown
      · next beyond =>
        rw [List.getElem?_singleton] at there
        split at there
        · next last =>
          cases there
          have same : other = system.handlers.length := by omega
          exact same ▸ goes
        · cases there
  | await self input =>
      simp only [System.step] at taken
      split at taken
      · next command next there =>
        cases taken
        obtain ⟨carried, grown, rest⟩ := sound.world.carriedOut (sound.handlers self _ there) input
        exact sound.goesOn carried grown rest input
      · cases taken
  | reject self input applied err =>
      simp only [System.step] at taken
      split at taken
      · next command next there =>
        cases taken
        have follows := sound.handlers self _ there
        obtain ⟨carried, grown, -⟩ := sound.world.carriedOut follows input
        obtain ⟨-, -, refused⟩ := follows
        split
        · exact sound.goesOn carried grown (refused _ err grown) input
        · exact sound.goesOn sound.world List.suffix_rfl (refused _ err List.suffix_rfl) input
      · cases taken

/-- Every run keeps what the contract says, by induction on the run. -/
theorem System.Sound.reached {serve : ρ → Handler κ Answer ε α}
    (serves : ∀ request self trace, (serve request).Follows contract self (fun _ _ => True) trace)
    {start system : System κ Answer ε α σ} (sound : start.Sound contract)
    {guard : System κ Answer ε α σ → Event ρ ε ι → Prop}
    (reached : Reaches (System.step machine serve) guard start system)
    : system.Sound contract :=
  reached.invariant sound fun sound _ taken => sound.step serves taken

-----------------------------------------------------------------------------
-- Handlers against calls of a model

section Models

variable {γ τ : Type} {R : γ → Handler κ Answer ε α → Prop} {calls : List γ}
  {handlers : List (Handler κ Answer ε α)}

/-- A handler has its call, by induction on the lists. -/
theorem exists_call_of_forall₂ (related : List.Forall₂ R calls handlers) {index : Nat}
    {handler : Handler κ Answer ε α} (there : handlers[index]? = some handler)
    : ∃ call, calls[index]? = some call ∧ R call handler := by
  induction related generalizing index with
  | nil => cases there
  | cons head _ ih =>
      cases index with
      | zero =>
          cases there
          exact ⟨_, rfl, head⟩
      | succ index => exact ih there

/-- A handler and its call go on together, by induction on the lists. -/
theorem forall₂_set (related : List.Forall₂ R calls handlers) (index : Nat) {call : γ}
    {handler : Handler κ Answer ε α} (goesOn : R call handler)
    : List.Forall₂ R (calls.set index call) (handlers.set index handler) := by
  induction related generalizing index with
  | nil => exact .nil
  | cons head rest ih =>
      cases index with
      | zero => exact .cons goesOn rest
      | succ index => exact .cons head (ih index)

/-- A handler by itself, each command carried out on what the one before it left. -/
def Handler.alone (machine : Machine κ Answer ε ι σ) (input : ι)
    : Handler κ Answer ε α → σ → Except ε α × σ
  | .done out, data => (out, data)
  | .perform command next, data =>
      match machine.perform command input data with
      | .ok (answer, after) => (next (.ok answer)).alone machine input after
      | .error err => (next (.error err)).alone machine input data

theorem Handler.alone_ask {command : κ} {next : Answer command → Handler κ Answer ε α} {input : ι}
    {data after : σ} {answer : Answer command}
    (ran : machine.perform command input data = .ok (answer, after))
    : (Handler.ask command >>= next).alone machine input data
      = (next answer).alone machine input after := by
  change (Handler.bind next (.perform command .done)).alone machine input data = _
  simp only [Handler.bind, Handler.alone, ran]

theorem Handler.alone_ask_error {command : κ} {next : Answer command → Handler κ Answer ε α}
    {input : ι} {data : σ} {err : ε} (ran : machine.perform command input data = .error err)
    : (Handler.ask command >>= next).alone machine input data = (.error err, data) := by
  change (Handler.bind next (.perform command .done)).alone machine input data = _
  simp only [Handler.bind, Handler.alone, ran]

/-- One piece of code behind another, by induction on the first. -/
theorem Handler.alone_bind (handler : Handler κ Answer ε α) (next : α → Handler κ Answer ε β)
    (input : ι) (data : σ)
    : (handler >>= next).alone machine input data
      = let first := handler.alone machine input data
        match first.1 with
        | .ok value => (next value).alone machine input first.2
        | .error err => (.error err, first.2) := by
  change (handler.bind next).alone machine input data = _
  induction handler generalizing data with
  | done out =>
      cases out with
      | ok value => rfl
      | error err => rfl
  | perform command rest ih =>
      simp only [Handler.bind, Handler.alone]
      split
      · exact ih _ _
      · exact ih _ _

theorem Handler.alone_perform {command : κ}
    {next : Except ε (Answer command) → Handler κ Answer ε α} (self : Nat) (input : ι)
    (world : World κ Answer σ)
    : (Handler.perform command next).alone machine input world.data
      = let carried := world.carriedOut machine self command input
        (next carried.1).alone machine input carried.2.data := by
  simp only [Handler.alone, World.carriedOut]
  cases machine.perform command input world.data <;> rfl

/-- What a handler comes to by itself, it comes to in a run, if the others wait. By induction on the
handler.
-/
theorem Handler.alone_reached (serve : ρ → Handler κ Answer ε α) (input : ι) {self : Nat}
    (handler : Handler κ Answer ε α) (world : World κ Answer σ) {system : System κ Answer ε α σ}
    (there : system.handlers[self]? = some (settle machine self input handler world).1)
    (stands : system.world = (settle machine self input handler world).2)
    : let alone := handler.alone machine input world.data
      ∃ after, Reaches (System.step machine serve) (fun _ _ => True) system after
        ∧ after.handlers = system.handlers.set self (.done alone.1)
        ∧ after.world.data = alone.2 := by
  obtain ⟨bound, same⟩ := List.getElem?_eq_some_iff.mp there
  induction handler generalizing world system with
  | done out =>
      refine ⟨system, .refl, ?_, congrArg World.data stands⟩
      have unchanged := List.set_getElem_self bound
      rw [same] at unchanged
      exact unchanged.symm
  | perform command next ih =>
      let carried := world.carriedOut machine self command input
      rw [Handler.alone_perform self input world]
      by_cases awaits : machine.awaits command = true
      · simp only [settle, awaits, if_true] at there stands
        subst stands
        let later := system.goesOn machine self input (next carried.1) carried.2
        have taken : system.step machine serve (.await self input) = some later := by
          simp only [System.step, there]
          rfl
        have set_there : later.handlers[self]?
            = some (settle machine self input (next carried.1) carried.2).1 :=
          List.getElem?_set_self bound
        obtain ⟨bound', same'⟩ := List.getElem?_eq_some_iff.mp set_there
        obtain ⟨after, reached, handlers, data⟩ :=
          ih carried.1 carried.2 set_there rfl bound' same'
        refine ⟨after, (Reaches.refl.tail trivial taken).trans reached, ?_, data⟩
        exact handlers.trans (List.set_set ..)
      · simp only [settle, awaits] at there stands same
        exact ih carried.1 carried.2 there stands bound same

/-- What simulates each step simulates each run, by induction on the run. -/
theorem exists_simulated {ρ' σ' : Type} {step : τ → ρ → Option τ} {model : σ' → ρ' → Option σ'}
    {same : τ → σ' → Prop} {guard : τ → ρ → Prop} {start state : τ} {first : σ'}
    (reached : Reaches step guard start state) (initial : same start first)
    (simulates
      : ∀ {state next event other}, same state other → step state event = some next
        → ∃ later, Reaches model (fun _ _ => True) other later ∧ same next later)
    : ∃ other, Reaches model (fun _ _ => True) first other ∧ same state other := by
  induction reached with
  | refl => exact ⟨first, .refl, initial⟩
  | tail _ _ taken ih =>
      obtain ⟨other, before, here⟩ := ih
      obtain ⟨later, onward, there⟩ := simulates here taken
      exact ⟨later, before.trans onward, there⟩

end Models

end Cixtech.Foundation.Handlers
