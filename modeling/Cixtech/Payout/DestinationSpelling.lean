import Cixtech.Payout.PolicyLookups

/-! Spellings of an EVM destination. A destination is accepted in any letter case, with or
without its prefix, and what it is normalised to is thrown away: the allow-lists and the
sanctions list are looked up with the text as it was written.
-/

namespace Cixtech.Payout

open Cixtech.Common Cixtech.Foundation

/-- `text.toLowerCase()`. No letter outside ASCII has a hexadecimal digit or an `x` for its lower
case, so that only the ASCII letters matter to what follows.
-/
def lowerCase (text : String) : List Char := text.toList.map Char.toLower

/-- `/^[0-9a-f]$/`. -/
def isHexDigit (c : Char) : Bool := c.isDigit || ('a' ≤ c && c ≤ 'f')

/-- The forty digits of an address, whatever its letter case and with or without `0x`. -/
def normalizeHexAddress (address : String) : Except AppError String :=
  let clean :=
    match lowerCase address with
    | '0' :: 'x' :: rest => rest
    | text => text
  if clean.length = 40 ∧ clean.all isHexDigit then .ok (String.ofList clean)
  else .error (.plain s!"not a 20-byte hex address: {address}")

def invalidDestination (chain address : String) (family : Option String) : AppError :=
  { code := .invalidDestination, message := s!"{address} is not a valid {chain} address"
    context := ("chain", .text chain) :: family.toList.map fun name => ("family", .text name) }

def noValidator (chain : String) (family : Option String) : AppError :=
  { code := .unsupportedChain, message := s!"No address validator for chain {chain}"
    context := ("chain", .text chain) :: family.toList.map fun name => ("family", .text name) }

/-- Accept a destination of a chain or throw. The bytes of a base58 text come from a library. -/
def assertValidDestination (casing : Casing) (decodeTron : String → Except AppError (List UInt8))
    (chain address : String) (family : Option String)
    : Except AppError Unit :=
  let upper := casing.toUpperCase chain
  if family = some "TRON" then
    match decodeTron address with
    | .error _ => .error (invalidDestination upper address family)
    | .ok payload =>
        if payload.length ≠ 21 then .error (invalidDestination upper address family)
        else .ok ()
  else if family = some "EVM" then
    match normalizeHexAddress address with
    | .error _ => .error (invalidDestination upper address family)
    | .ok _ => .ok ()
  else .error (noValidator upper family)

/-- Two spellings of the same twenty bytes. -/
def SameAddress (first second : String) : Prop :=
  ∃ digits, normalizeHexAddress first = .ok digits ∧ normalizeHexAddress second = .ok digits

namespace PolicyEngine

/-- Whether a payout is refused before its destination is looked at. -/
def refusedEarly (config : PolicyConfig) (components : PolicyComponents) (ctx : PayoutContext)
    : Bool :=
  components.killSwitchEngaged || ctx.amountBaseUnits ≤ 0
    || ctx.amountBaseUnits > config.maxPerPayoutBaseUnits

/-- Whether a destination is on the static list, or stored and past its cool-down. -/
def allowListed (config : PolicyConfig) (components : PolicyComponents) (ctx : PayoutContext)
    (now : Int)
    : Bool :=
  config.allowlist.contains ctx.destination
    || components.allowlistStore.any fun rows => SqlAllowlist.usable rows ctx now

/-- Whether a destination is on the sanctions list. -/
def isBlocked (components : PolicyComponents) (ctx : PayoutContext) : Bool :=
  components.sanctions.any fun blocked => blocked.contains ctx.destination

/-- The decision on a payout to a destination that is listed and not sanctioned. -/
def cleared (config : PolicyConfig) (components : PolicyComponents) (ctx : PayoutContext)
    (now : Int)
    : PolicyDecision :=
  decide { config with allowlist := [""] } { components with sanctions := none }
    { ctx with destination := "" } now

/-- A payout that is refused early is refused whatever its destination is. -/
theorem decide_of_refused {config : PolicyConfig} {components : PolicyComponents}
    {ctx : PayoutContext} (refused : refusedEarly config components ctx = true)
    (destination : String) (now : Int)
    : decide config components { ctx with destination } now
      = decide config components ctx now := by
  simp only [refusedEarly, Bool.or_eq_true, decide_eq_true_eq] at refused
  unfold decide evaluate gates answers
  rcases refused with (halted | small) | large
  · simp [halted]
  · by_cases halted : components.killSwitchEngaged <;> simp [halted, small]
  · by_cases halted : components.killSwitchEngaged <;>
      by_cases small : ctx.amountBaseUnits ≤ 0 <;> simp [halted, small, large]

/-- The decision on a payout that is not refused early. -/
theorem decide_of_reached (config : PolicyConfig) (components : PolicyComponents)
    (ctx : PayoutContext) (reached : refusedEarly config components ctx = false) (now : Int)
    : decide config components ctx now
      = if allowListed config components ctx now then
          if isBlocked components ctx then .hold "Destination is sanctions-screened"
          else cleared config components ctx now
        else .deny "Destination is not allow-listed or still in cool-down" := by
  simp only [refusedEarly, Bool.or_eq_false_iff, decide_eq_false_iff_not] at reached
  obtain ⟨⟨halted, small⟩, large⟩ := reached
  have reachedGate : (!config.allowlist.contains ctx.destination
        && !components.allowlistStore.any fun rows => SqlAllowlist.usable rows ctx now)
      = !allowListed config components ctx now := by
    rw [allowListed, Bool.not_or]
  cases listed : allowListed config components ctx now with
  | false =>
      simp only [decide, evaluate, gates, answers, halted, small, large, reachedGate, listed,
        Bool.false_eq_true, Bool.not_false, if_true, if_false]
  | true =>
      cases blocked : isBlocked components ctx with
      | true =>
          rw [isBlocked] at blocked
          simp only [decide, evaluate, gates, answers, halted, small, large, reachedGate, listed,
            blocked, Bool.false_eq_true, Bool.not_true, if_true, if_false]
      | false =>
          have anywhere : [""].contains "" = true := rfl
          rw [isBlocked] at blocked
          simp only [decide, cleared, evaluate, gates, answers, halted, small, large, reachedGate,
            listed, blocked, anywhere, Bool.false_eq_true, Bool.not_true, Bool.false_and,
            Option.any_none, if_true, if_false]
          rfl

/-- A payout that is cleared is neither held nor refused for its destination. -/
theorem cleared_ne {config : PolicyConfig} {components : PolicyComponents}
    {ctx : PayoutContext} (reached : refusedEarly config components ctx = false) (now : Int)
    : cleared config components ctx now ≠ .hold "Destination is sanctions-screened"
      ∧ cleared config components ctx now
        ≠ .deny "Destination is not allow-listed or still in cool-down" := by
  simp only [refusedEarly, Bool.or_eq_false_iff, decide_eq_false_iff_not] at reached
  obtain ⟨⟨halted, small⟩, large⟩ := reached
  have anywhere : [""].contains "" = true := rfl
  simp only [decide, cleared, evaluate, gates, answers, halted, small, large, anywhere,
    Bool.false_eq_true, Bool.not_true, Bool.false_and, Option.any_none, if_false]
  cases solvent : components.totals.all fun totals => isSolventFor totals ctx.asset with
  | false => simp
  | true =>
      simp only [Bool.not_true, Bool.false_eq_true, if_false]
      -- What is left waits for approvals or for a delay, or is charged to its window.
      cases config.timeLock with
      | none =>
          cases config.approval <;> cases config.velocity <;>
            simp only [Option.bind_none, Option.bind_some, Option.none_or] <;> grind
      | some lock =>
          rw [Option.bind_some]
          cases dateOf (ctx.requestedAt.getD now + lock.delayMs) <;> cases config.approval <;>
            cases config.velocity <;>
            simp only [Option.bind_none, Option.bind_some, Option.none_or] <;> grind

/-- Two destinations of one payout are decided alike exactly where it is refused before they are
looked at, or they are listed alike and, if listed, sanctioned alike.
-/
theorem decide_eq_iff (config : PolicyConfig) (components : PolicyComponents)
    (ctx : PayoutContext) (first second : String) (now : Int)
    : decide config components { ctx with destination := first } now
        = decide config components { ctx with destination := second } now
      ↔ refusedEarly config components ctx = true
        ∨ allowListed config components { ctx with destination := first } now
            = allowListed config components { ctx with destination := second } now
          ∧ (allowListed config components { ctx with destination := first } now = true
            → isBlocked components { ctx with destination := first }
              = isBlocked components { ctx with destination := second }) := by
  by_cases early : refusedEarly config components ctx = true
  · simp only [early, true_or, iff_true]
    exact (decide_of_refused early first now).trans (decide_of_refused early second now).symm
  · have reached : refusedEarly config components ctx = false := Bool.eq_false_of_not_eq_true early
    have apart := cleared_ne reached now
    have ofFirst :=
      decide_of_reached config components { ctx with destination := first } reached now
    have ofSecond :=
      decide_of_reached config components { ctx with destination := second } reached now
    have clearedAlike : ∀ destination,
        cleared config components { ctx with destination } now
          = cleared config components ctx now :=
      fun _ => rfl
    rw [ofFirst, ofSecond, clearedAlike first, clearedAlike second]
    cases allowListed config components { ctx with destination := first } now <;>
      cases allowListed config components { ctx with destination := second } now <;>
        cases isBlocked components { ctx with destination := first } <;>
          cases isBlocked components { ctx with destination := second } <;>
            simp [reached, apart.1, apart.2, apart.1.symm, apart.2.symm]

end PolicyEngine

/-- After a removal a payout is usable only through a row of its own spelling, which is not the
one removed.
-/
theorem SqlAllowlist.usable_remove {rows : List AllowlistRow} (ctx : PayoutContext)
    {address : String} {now : Int}
    (usable
      : SqlAllowlist.usable
          (SqlAllowlist.remove rows ctx.tenant ctx.merchant ctx.chain address).1 ctx now
        = true)
    : ∃ row ∈ rows,
        row.key = (ctx.tenant, ctx.merchant, ctx.chain, ctx.destination)
        ∧ row.key ≠ (ctx.tenant, ctx.merchant, ctx.chain, address) := by
  simp only [SqlAllowlist.usable, SqlAllowlist.usableAt, SqlAllowlist.remove] at usable
  cases found : Table.lookup AllowlistRow.key
      (Table.delete rows fun row => row.key == (ctx.tenant, ctx.merchant, ctx.chain, address))
      (ctx.tenant, ctx.merchant, ctx.chain, ctx.destination) with
  | none => simp [found] at usable
  | some row =>
      obtain ⟨stored, spared⟩ := Table.mem_delete.mp (Table.lookup_mem found)
      exact ⟨row, stored, Table.lookup_key found, by simpa using spared⟩

/-- A stored row of another spelling is usable from some instant on after a removal. -/
theorem SqlAllowlist.usable_remove_of_stored {rows : List AllowlistRow} (ctx : PayoutContext)
    {address : String} (apart : ctx.destination ≠ address) {row : AllowlistRow}
    (stored : row ∈ rows)
    (own : row.key = (ctx.tenant, ctx.merchant, ctx.chain, ctx.destination))
    : ∃ now,
        SqlAllowlist.usable
            (SqlAllowlist.remove rows ctx.tenant ctx.merchant ctx.chain address).1 ctx now
          = true := by
  have spared : row ∈ (SqlAllowlist.remove rows ctx.tenant ctx.merchant ctx.chain address).1 := by
    refine Table.mem_delete.mpr ⟨stored, ?_⟩
    simp [own, apart]
  have listed : (Table.lookup AllowlistRow.key
      (SqlAllowlist.remove rows ctx.tenant ctx.merchant ctx.chain address).1
      (ctx.tenant, ctx.merchant, ctx.chain, ctx.destination)).isSome := by
    rw [Table.lookup, List.find?_isSome]
    exact ⟨row, spared, by simpa using own⟩
  obtain ⟨first, found⟩ := Option.isSome_iff_exists.mp listed
  refine ⟨first.usableAt, ?_⟩
  simp [SqlAllowlist.usable, SqlAllowlist.usableAt, found]

/-- Two spellings of an address are decided alike whatever the configuration and the components
exactly where they are one text; under a given configuration they are exactly where the lists that
are asked hold both or neither; and the removal of an address takes every spelling of it off the
allow-list exactly where no other spelling of it is stored.
-/
theorem spellings_decided_alike_iff (address : String)
    : (∀ other, SameAddress address other
        → ((∀ config components (ctx : PayoutContext) now,
              PolicyEngine.decide config components { ctx with destination := address } now
                = PolicyEngine.decide config components { ctx with destination := other } now)
            ↔ address = other))
      ∧ (∀ config components (ctx : PayoutContext) now other, SameAddress address other
        → (PolicyEngine.decide config components { ctx with destination := address } now
              = PolicyEngine.decide config components { ctx with destination := other } now
            ↔ PolicyEngine.refusedEarly config components ctx = true
              ∨ PolicyEngine.allowListed config components { ctx with destination := address } now
                  = PolicyEngine.allowListed config components
                      { ctx with destination := other } now
                ∧ (PolicyEngine.allowListed config components
                      { ctx with destination := address } now = true
                  → PolicyEngine.isBlocked components { ctx with destination := address }
                    = PolicyEngine.isBlocked components { ctx with destination := other })))
      ∧ ∀ (rows : List AllowlistRow) (ctx : PayoutContext),
          (∀ other now, SameAddress address other
            → SqlAllowlist.usable
                (SqlAllowlist.remove rows ctx.tenant ctx.merchant ctx.chain address).1
                { ctx with destination := other } now = false)
          ↔ ∀ row ∈ rows,
              row.tenant = ctx.tenant → row.merchant = ctx.merchant → row.chain = ctx.chain
              → SameAddress address row.address → row.address = address := by
  refine ⟨fun other _ => ⟨fun alike => ?_, ?_⟩, ?_, fun rows ctx => ⟨?_, ?_⟩⟩
  · by_contra apart
    have decided :=
      alike (narrowLimits [address] none) (openComponents []) (payoutOf "USDT" 1 "") 0
    have unlisted : ¬ other = address := Ne.symm apart
    simp [PolicyEngine.decide, PolicyEngine.evaluate, PolicyEngine.gates, PolicyEngine.answers,
      narrowLimits, openComponents, payoutOf, unlisted] at decided
  · rintro rfl
    exact fun _ _ _ _ => rfl
  · exact fun config components ctx now other _ =>
      PolicyEngine.decide_eq_iff config components ctx address other now
  · intro removed row stored ofTenant ofMerchant ofChain same
    by_contra apart
    obtain ⟨now, usable⟩ :=
      SqlAllowlist.usable_remove_of_stored { ctx with destination := row.address } apart
        stored (by simp [AllowlistRow.key, ofTenant, ofMerchant, ofChain])
    rw [removed row.address now same] at usable
    cases usable
  · intro alone other now same
    by_contra usable
    obtain ⟨row, stored, own, others⟩ :=
      SqlAllowlist.usable_remove { ctx with destination := other }
        (Bool.eq_true_of_not_eq_false usable)
    simp only [AllowlistRow.key, Prod.mk.injEq] at own
    obtain ⟨ofTenant, ofMerchant, ofChain, ofAddress⟩ := own
    have one := alone row stored ofTenant ofMerchant ofChain (ofAddress ▸ same)
    exact others (by simp [AllowlistRow.key, ofTenant, ofMerchant, ofChain, one])

/-- Twenty bytes in lower case. -/
def lowerSpelling : String := "0xabcdefabcdefabcdefabcdefabcdefabcdefabcd"

/-- The same twenty bytes in upper case. -/
def upperSpelling : String := "0xABCDEFABCDEFABCDEFABCDEFABCDEFABCDEFABCD"

/-- A payout to a listed address is denied in the other spelling, one to a sanctioned address
passes in it, and an address stored in both spellings stays usable in the one that is not
removed.
-/
theorem upper_case_decided_apart
    : SameAddress lowerSpelling upperSpelling
      ∧ PolicyEngine.decide (narrowLimits [lowerSpelling] none) (openComponents [])
            (payoutOf "USDT" 1 lowerSpelling) 0
          = .allow
      ∧ PolicyEngine.decide (narrowLimits [lowerSpelling] none) (openComponents [])
            (payoutOf "USDT" 1 upperSpelling) 0
          = .deny "Destination is not allow-listed or still in cool-down"
      ∧ PolicyEngine.decide (narrowLimits [lowerSpelling, upperSpelling] none)
            { openComponents [] with sanctions := some [lowerSpelling] }
            (payoutOf "USDT" 1 lowerSpelling) 0
          = .hold "Destination is sanctions-screened"
      ∧ PolicyEngine.decide (narrowLimits [lowerSpelling, upperSpelling] none)
            { openComponents [] with sanctions := some [lowerSpelling] }
            (payoutOf "USDT" 1 upperSpelling) 0
          = .allow
      ∧ SqlAllowlist.usable
            (SqlAllowlist.remove
              (SqlAllowlist.add
                (SqlAllowlist.add [] "t" "m" "POLYGON" lowerSpelling 0 0).1
                "t" "m" "POLYGON" upperSpelling 0 0).1
              "t" "m" "POLYGON" lowerSpelling).1
            (payoutOf "USDT" 1 upperSpelling) 0
          = true := by
  refine ⟨⟨"abcdefabcdefabcdefabcdefabcdefabcdefabcd", by decide, by decide⟩, ?_⟩
  decide

end Cixtech.Payout
