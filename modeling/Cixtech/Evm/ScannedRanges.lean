import Cixtech.Evm.EvmAdapter
import Cixtech.Foundation.Table
import Mathlib.Data.List.Chain

/-! The source of the deposits of an EVM chain, call by call. A call reads the cursor of its
address, asks the node for the logs from there up to the last safe block and stores the block
behind them, so that the calls of an address scan one stretch of blocks after another.
-/

namespace Cixtech.Evm

open Cixtech.Common Cixtech.Foundation Cixtech.Ingest

/-- A row of `deposit_cursor`. -/
structure CursorRow where
  chain : String
  address : String
  nextBlock : Int
  deriving DecidableEq, Repr

def CursorRow.key (row : CursorRow) : String × String := (row.chain, row.address)

namespace DepositCursorStore

def get (rows : List CursorRow) (chain address : String) : Option Int :=
  (Table.lookup CursorRow.key rows (chain, address)).map (·.nextBlock)

/-- `INSERT … ON CONFLICT DO UPDATE`. -/
def set (rows : List CursorRow) (chain address : String) (nextBlock : Int) : List CursorRow :=
  if (Table.lookup CursorRow.key rows (chain, address)).isSome then
    Table.update CursorRow.key rows (chain, address) fun row => { row with nextBlock }
  else
    let row : CursorRow := { chain, address, nextBlock }
    rows ++ [row]

theorem get_set (rows : List CursorRow) (chain address : String) (nextBlock : Int)
    (otherChain otherAddress : String)
    : get (set rows chain address nextBlock) otherChain otherAddress
      = if otherChain = chain ∧ otherAddress = address then some nextBlock
        else get rows otherChain otherAddress := by
  have updated := @Table.lookup_update _ _ _ CursorRow.key rows (otherChain, otherAddress)
    (chain, address) (fun row => { row with nextBlock }) (fun _ => rfl)
  simp only [Prod.mk.injEq] at updated
  unfold get set
  cases found : Table.lookup CursorRow.key rows (chain, address) with
  | some old =>
      rw [Option.isSome_some, if_pos rfl, updated]
      by_cases same : otherChain = chain ∧ otherAddress = address
      · obtain ⟨rfl, rfl⟩ := same
        simp [found]
      · rw [if_neg same, if_neg same]
  | none =>
      rw [Option.isSome_none, if_neg Bool.false_ne_true]
      by_cases same : otherChain = chain ∧ otherAddress = address
      · obtain ⟨rfl, rfl⟩ := same
        simp [Table.lookup_append, found, Table.lookup_singleton, CursorRow.key]
      · have apart : ¬ (chain = otherChain ∧ address = otherAddress) := by
          rintro ⟨sameChain, sameAddress⟩
          exact same ⟨sameChain.symm, sameAddress.symm⟩
        simp [Table.lookup_append, Table.lookup_singleton, CursorRow.key, same, apart]

end DepositCursorStore

/-- The parameters of `eth_getLogs`. -/
structure LogFilter where
  fromBlock : Int
  toBlock : Int
  /-- A null topic matches any. -/
  topics : List (Option String)
  deriving DecidableEq, Repr

/-- What the node and the database answer to the awaits of one call, in their order. -/
structure FetchAnswers where
  /-- The head of the chain for an address without a cursor. -/
  seedHead : Except AppError Int
  /-- The head that the scan reads. -/
  head : Except AppError Int
  logs : Except AppError (List EvmLog)
  stored : Except AppError Unit

/-- A call of `fetchInbound(chain, address)`. -/
structure FetchCall where
  chain : String
  address : String
  answers : FetchAnswers

/-- What a call has done: the filter that it handed to the node, if it came to it, and how it
ended.
-/
structure Fetched where
  call : FetchCall
  handed : Option LogFilter
  outcome : Except AppError (List ChainDeposit)

namespace EvmAdapter

/-- The filter handed to the node, and what the scan returns: the deposits and the last block
scanned.
-/
def scanInboundErc20 (codec : EvmCodec) (config : EvmAdapterConfig) (answers : FetchAnswers)
    (address : String) (fromBlock : Int)
    : Option LogFilter × Except AppError (List ChainDeposit × Int) :=
  match answers.head with
  | .error err => (none, .error err)
  | .ok head =>
      let safe := head - config.confirmations
      if safe < fromBlock then (none, .ok ([], fromBlock - 1))
      else
        let topics := [some codec.transferEventTopic, none, some (addressTopic codec address)]
        let deposits := answers.logs.bind (parseDeposits codec config)
        (some { fromBlock, toBlock := safe, topics }, deposits.map fun found => (found, safe))

end EvmAdapter

namespace EvmDepositSource

section Source

variable (codec : EvmCodec) (config : EvmAdapterConfig)

/-- The first block to scan: the cursor of the address, else the lookback behind the head. -/
def firstBlock (rows : List CursorRow) (call : FetchCall) : Except AppError Int :=
  match DepositCursorStore.get rows call.chain call.address with
  | some cursor => .ok cursor
  | none =>
      let lookback : Int := config.initialLookbackBlocks
      call.answers.seedHead.map fun head => if head > lookback then head - lookback else 0

def fetchInbound (rows : List CursorRow) (call : FetchCall) : List CursorRow × Fetched :=
  match firstBlock config rows call with
  | .error err => (rows, { call, handed := none, outcome := .error err })
  | .ok cursor =>
      match EvmAdapter.scanInboundErc20 codec config call.answers call.address cursor with
      | (handed, .error err) => (rows, { call, handed, outcome := .error err })
      | (handed, .ok (deposits, scannedTo)) =>
          if scannedTo ≥ cursor then
            match call.answers.stored with
            | .error err => (rows, { call, handed, outcome := .error err })
            | .ok () =>
                ( DepositCursorStore.set rows call.chain call.address (scannedTo + 1),
                  { call, handed, outcome := .ok deposits })
          else (rows, { call, handed, outcome := .ok deposits })

end Source

/-- One call after another, each on the source of its chain. -/
def fetchAll (codec : EvmCodec) (configOf : String → EvmAdapterConfig) (rows : List CursorRow)
    : List FetchCall → List CursorRow × List Fetched
  | [] => (rows, [])
  | call :: rest =>
      let (stored, fetched) := fetchInbound codec (configOf call.chain) rows call
      let (final, later) := fetchAll codec configOf stored rest
      (final, fetched :: later)

end EvmDepositSource

/-- A call that returned the deposits of the blocks it asked for. -/
structure Scan where
  call : FetchCall
  filter : LogFilter

/-- The scan of a call of an address, none where it asked for no block or threw. -/
def Fetched.scanOf (chain address : String) (fetched : Fetched) : Option Scan :=
  match fetched.handed, fetched.outcome with
  | some filter, .ok _ =>
      if fetched.call.chain = chain ∧ fetched.call.address = address then
        some { call := fetched.call, filter }
      else none
  | _, _ => none

def scans (chain address : String) (trace : List Fetched) : List Scan :=
  trace.filterMap (Fetched.scanOf chain address)

-----------------------------------------------------------------------------
-- What one call does

namespace EvmDepositSource

section Calls

variable {codec : EvmCodec} {config : EvmAdapterConfig} {rows : List CursorRow} {call : FetchCall}

/-- A scan that asks the node asks for the blocks from the first one up to the last safe one,
of which there is at least one; a scan that asks for none is behind its own start.
-/
theorem scanInboundErc20_cases (codec : EvmCodec) (config : EvmAdapterConfig) (call : FetchCall)
    (address : String) (fromBlock : Int)
    : let result := EvmAdapter.scanInboundErc20 codec config call.answers address fromBlock
      (result.1 = none ∧ ∀ found, result.2 = .ok found → found.2 < fromBlock)
      ∨ ∃ head filter,
          call.answers.head = .ok head
          ∧ result.1 = some filter
          ∧ filter.fromBlock = fromBlock
          ∧ filter.toBlock = head - config.confirmations
          ∧ fromBlock ≤ filter.toBlock
          ∧ ∀ found, result.2 = .ok found → found.2 = filter.toBlock := by
  unfold EvmAdapter.scanInboundErc20
  cases read : call.answers.head with
  | error err => exact .inl ⟨rfl, nofun⟩
  | ok head =>
      dsimp only
      split
      case isTrue early =>
        refine .inl ⟨rfl, ?_⟩
        rintro _ ⟨⟩
        exact Int.sub_one_lt_of_le (Int.le_refl _)
      case isFalse late =>
        refine .inr ⟨head, _, rfl, rfl, rfl, rfl, by dsimp only; omega, ?_⟩
        intro found returned
        cases answered : call.answers.logs.bind (EvmAdapter.parseDeposits codec config) with
        | error err =>
            rw [answered] at returned
            cases returned
        | ok deposits =>
            rw [answered] at returned
            cases returned
            rfl

/-- What a call does to the cursors and to the node. Either it returns the deposits of a range
of blocks from the first block on and stores the block behind it, or it leaves the cursors as
they are; then a range that it handed over was in vain.
-/
inductive FetchEffect (config : EvmAdapterConfig) (rows : List CursorRow) (call : FetchCall)
    : List CursorRow × Fetched → Prop
  | scanned {cursor head : Int} {filter : LogFilter} {deposits : List ChainDeposit}
      (start : firstBlock config rows call = .ok cursor) (read : call.answers.head = .ok head)
      (lower : filter.fromBlock = cursor) (upper : filter.toBlock = head - config.confirmations)
      (ordered : filter.fromBlock ≤ filter.toBlock)
    : FetchEffect config rows call
        ( DepositCursorStore.set rows call.chain call.address (filter.toBlock + 1),
          { call, handed := some filter, outcome := .ok deposits })
  | unscanned {outcome : Except AppError (List ChainDeposit)}
    : FetchEffect config rows call (rows, { call, handed := none, outcome })
  | failed {filter : LogFilter} {err : AppError}
      (start : firstBlock config rows call = .ok filter.fromBlock)
    : FetchEffect config rows call
        (rows, { call, handed := some filter, outcome := .error err })

theorem fetchInbound_effect (codec : EvmCodec) (config : EvmAdapterConfig)
    (rows : List CursorRow) (call : FetchCall)
    : FetchEffect config rows call (fetchInbound codec config rows call) := by
  unfold fetchInbound
  split
  case h_1 => exact .unscanned
  case h_2 cursor start =>
    have cases := scanInboundErc20_cases codec config call call.address cursor
    generalize EvmAdapter.scanInboundErc20 codec config call.answers call.address cursor = result
      at cases
    obtain ⟨handed, scanned⟩ := result
    rcases cases with ⟨nothing, behind⟩ | ⟨head, filter, read, asked, lower, upper, ordered, last⟩
    · obtain rfl : handed = none := nothing
      cases scanned with
      | error err => exact .unscanned
      | ok found =>
          obtain ⟨deposits, scannedTo⟩ := found
          have early : ¬ scannedTo ≥ cursor := by
            have below : scannedTo < cursor := behind _ rfl
            omega
          simp only [if_neg early]
          exact .unscanned
    · obtain rfl : handed = some filter := asked
      cases scanned with
      | error err => exact .failed (lower ▸ start)
      | ok found =>
          obtain ⟨deposits, scannedTo⟩ := found
          obtain rfl : scannedTo = filter.toBlock := last _ rfl
          have late : filter.toBlock ≥ cursor := ordered
          simp only [if_pos late]
          cases call.answers.stored with
          | error err => exact .failed (lower ▸ start)
          | ok _ => exact .scanned start read lower upper (lower ▸ ordered)

end Calls

-----------------------------------------------------------------------------
-- What the calls of an address do one after another

section Runs

variable {codec : EvmCodec} {configOf : String → EvmAdapterConfig}

/-- Where the scans of an address begin: at its cursor, and without one at the lookback behind
the head that the call read, but not below the first block.
-/
def StartsAt (config : EvmAdapterConfig) (cursor : Option Int) (scan : Scan) : Prop :=
  match cursor with
  | some next => scan.filter.fromBlock = next
  | none =>
      ∃ head,
        scan.call.answers.seedHead = .ok head
        ∧ scan.filter.fromBlock = max 0 (head - config.initialLookbackBlocks)

/-- The scans of an address from a cursor on, and the cursor that they leave. -/
structure ScansFrom (config : EvmAdapterConfig) (cursor : Option Int) (found : List Scan)
    (final : Option Int)
    : Prop where
  consecutive : found.IsChain fun scan next => next.filter.fromBlock = scan.filter.toBlock + 1
  disjoint : found.Pairwise fun scan later => scan.filter.toBlock < later.filter.fromBlock
  safe : ∀ scan ∈ found,
    scan.filter.fromBlock ≤ scan.filter.toBlock
    ∧ ∃ head,
        scan.call.answers.head = .ok head
        ∧ scan.filter.toBlock = head - config.confirmations
  start : ∀ scan ∈ found.head?, StartsAt config cursor scan
  above : ∀ next, cursor = some next → ∀ scan ∈ found, next ≤ scan.filter.fromBlock
  left : final = (found.getLast?.map fun scan => scan.filter.toBlock + 1).or cursor

theorem ScansFrom.nil (config : EvmAdapterConfig) (cursor : Option Int)
    : ScansFrom config cursor [] cursor where
  consecutive := .nil
  disjoint := .nil
  safe := by simp
  start := by simp
  above := by simp
  left := rfl

/-- A scan from the cursor on, and those from the block behind it on. -/
theorem ScansFrom.cons {config : EvmAdapterConfig} {cursor final : Option Int} {scan : Scan}
    {found : List Scan} {head : Int} (start : StartsAt config cursor scan)
    (read : scan.call.answers.head = .ok head)
    (upper : scan.filter.toBlock = head - config.confirmations)
    (ordered : scan.filter.fromBlock ≤ scan.filter.toBlock)
    (later : ScansFrom config (some (scan.filter.toBlock + 1)) found final)
    : ScansFrom config cursor (scan :: found) final where
  consecutive := List.isChain_cons.mpr ⟨fun next first => later.start next first, later.consecutive⟩
  disjoint := by
    refine List.pairwise_cons.mpr ⟨fun next member => ?_, later.disjoint⟩
    have beyond := later.above _ rfl next member
    omega
  safe := by
    intro other member
    rcases List.mem_cons.mp member with rfl | rest
    · exact ⟨ordered, head, read, upper⟩
    · exact later.safe other rest
  start := by
    rintro _ ⟨⟩
    exact start
  above := by
    rintro next rfl other member
    have begins : scan.filter.fromBlock = next := start
    rcases List.mem_cons.mp member with rfl | rest
    · exact begins.ge
    · have beyond := later.above _ rfl other rest
      omega
  left := by
    rw [later.left, List.getLast?_cons]
    cases found.getLast? <;> rfl

/-- The cursor behind the last scan is at or above the one before the first. -/
theorem ScansFrom.le {config : EvmAdapterConfig} {next : Int} {found : List Scan}
    {final : Option Int} (run : ScansFrom config (some next) found final)
    : ∃ last, final = some last ∧ next ≤ last := by
  have left := run.left
  cases last : found.getLast? with
  | none =>
      rw [last] at left
      exact ⟨next, left, Int.le_refl _⟩
  | some scan =>
      rw [last] at left
      refine ⟨scan.filter.toBlock + 1, left, ?_⟩
      have member := List.mem_of_getLast? last
      have beyond := run.above next rfl scan member
      have ordered := (run.safe scan member).1
      omega

theorem startsAt_of_firstBlock {config : EvmAdapterConfig} {rows : List CursorRow}
    {call : FetchCall} {filter : LogFilter}
    (start : firstBlock config rows call = .ok filter.fromBlock)
    : StartsAt config (DepositCursorStore.get rows call.chain call.address) { call, filter } := by
  unfold firstBlock at start
  generalize DepositCursorStore.get rows call.chain call.address = stored at start ⊢
  cases stored with
  | some cursor => exact (Except.ok.inj start).symm
  | none =>
    cases read : call.answers.seedHead with
    | error err =>
        simp only [read] at start
        cases start
    | ok head =>
        simp only [read] at start
        refine ⟨head, read, ?_⟩
        have begins := Except.ok.inj start
        dsimp only at begins ⊢
        split at begins <;> omega

/-- The calls of an address scan from its cursor on, by induction on the calls. -/
theorem scansFrom_fetchAll (codec : EvmCodec) (configOf : String → EvmAdapterConfig)
    (rows : List CursorRow) (calls : List FetchCall)
    (chain address : String)
    : let run := fetchAll codec configOf rows calls
      ScansFrom (configOf chain) (DepositCursorStore.get rows chain address)
        (scans chain address run.2) (DepositCursorStore.get run.1 chain address) := by
  induction calls generalizing rows with
  | nil => exact .nil _ _
  | cons call rest ih =>
      have effect := fetchInbound_effect codec (configOf call.chain) rows call
      simp only [fetchAll]
      generalize fetchInbound codec (configOf call.chain) rows call = result at effect
      cases effect with
      | @scanned cursor head filter deposits start read lower upper ordered =>
          have later :=
            ih (DepositCursorStore.set rows call.chain call.address (filter.toBlock + 1))
          rw [DepositCursorStore.get_set] at later
          by_cases own : call.chain = chain ∧ call.address = address
          · obtain ⟨rfl, rfl⟩ := own
            rw [if_pos ⟨rfl, rfl⟩] at later
            simp only [scans, List.filterMap_cons, Fetched.scanOf, and_self, if_true]
            exact later.cons (startsAt_of_firstBlock (lower ▸ start)) read upper ordered
          · have other : ¬ (chain = call.chain ∧ address = call.address) :=
              fun ⟨sameChain, sameAddress⟩ => own ⟨sameChain.symm, sameAddress.symm⟩
            rw [if_neg other] at later
            simp only [scans, List.filterMap_cons, Fetched.scanOf, own, if_false]
            exact later
      | unscanned =>
          simp only [scans, List.filterMap_cons, Fetched.scanOf]
          exact ih rows
      | failed =>
          simp only [scans, List.filterMap_cons, Fetched.scanOf]
          exact ih rows

theorem fetchAll_append (rows : List CursorRow) (before after : List FetchCall)
    : (fetchAll codec configOf rows (before ++ after)).1
      = (fetchAll codec configOf (fetchAll codec configOf rows before).1 after).1 := by
  induction before generalizing rows with
  | nil => rfl
  | cons call rest ih => simp only [List.cons_append, fetchAll, ih]

end Runs

/-- Over any calls, whatever heads they read and whichever of their awaits reject, the ranges
of blocks that an address is scanned for follow one another without gap or overlap from the
cursor on, or from the lookback behind the head of the first call that scans; none reaches
above the last safe block of its call. The cursor stands one past the last block scanned and
never goes back. A call that throws leaves it where it is, and the range that it asked for in
vain begins where the next one will.
-/
theorem scans_consecutive (codec : EvmCodec) (configOf : String → EvmAdapterConfig)
    (rows : List CursorRow) (calls : List FetchCall) (chain address : String)
    : let run := fetchAll codec configOf rows calls
      ScansFrom (configOf chain) (DepositCursorStore.get rows chain address)
          (scans chain address run.2) (DepositCursorStore.get run.1 chain address)
        ∧ (∀ before after, calls = before ++ after
          → ∀ cursor,
              DepositCursorStore.get (fetchAll codec configOf rows before).1 chain address
                = some cursor
              → ∃ final,
                  DepositCursorStore.get run.1 chain address = some final ∧ cursor ≤ final)
        ∧ ∀ before call after, calls = before ++ call :: after
          → let stored := (fetchAll codec configOf rows before).1
            let result := fetchInbound codec (configOf call.chain) stored call
            (∀ err, result.2.outcome = .error err → result.1 = stored)
            ∧ ∀ filter, result.2.handed = some filter
              → firstBlock (configOf call.chain) stored call = .ok filter.fromBlock := by
  refine ⟨scansFrom_fetchAll codec configOf rows calls chain address, ?_, ?_⟩
  · rintro before after rfl cursor found
    have later := scansFrom_fetchAll codec configOf
      (fetchAll codec configOf rows before).1 after chain address
    dsimp only at later
    rw [found, ← fetchAll_append] at later
    exact later.le
  · rintro before call after -
    have effect := fetchInbound_effect codec (configOf call.chain)
      (fetchAll codec configOf rows before).1 call
    dsimp only
    generalize fetchInbound codec (configOf call.chain) (fetchAll codec configOf rows before).1 call
      = result at effect ⊢
    cases effect with
    | scanned start read lower =>
        constructor
        · intro err thrown
          cases thrown
        · rintro _ ⟨⟩
          exact lower ▸ start
    | unscanned =>
        refine ⟨fun _ _ => rfl, ?_⟩
        intro filter asked
        cases asked
    | failed start =>
        refine ⟨fun _ _ => rfl, ?_⟩
        rintro _ ⟨⟩
        exact start

end EvmDepositSource

end Cixtech.Evm
