import Cixtech.Treasury.FeeSweepPlanner

/-! What the claim of a fee sweep comes to. Over the accounts that the engine posts to, the
two patterns of the claim select exactly the pool accounts of the merchant and the two
liability accounts of the merchant under the tenant, so the claim is the net of these, or
zero.
-/

namespace Cixtech.Treasury

open Cixtech.Common Cixtech.Foundation Cixtech.Ledger

/-- The accounts that the engine posts to, with the identifiers that their keys are made of. -/
inductive Account
  | poolAddr (chain : String) (merchant : Uuid)
  | merchantAvailable (tenant merchant : Uuid)
  | merchantPendingWithdrawal (tenant merchant : Uuid)
  | complianceSuspense (tenant : Uuid)
  | treasury (chain : String)
  | feeRevenue (tenant : Uuid)

namespace Account

def key : Account → String
  | .poolAddr chain merchant => Ledger.poolAddr chain merchant.text
  | .merchantAvailable tenant merchant => Ledger.merchantAvailable tenant.text merchant.text
  | .merchantPendingWithdrawal tenant merchant =>
      Ledger.merchantPendingWithdrawal tenant.text merchant.text
  | .complianceSuspense tenant => Ledger.complianceSuspense tenant.text
  | .treasury chain => Ledger.treasury chain
  | .feeRevenue tenant => Ledger.feeRevenue tenant.text

/-- Whether the account is counted in the claim of a merchant under a tenant. -/
def counts (tenant merchant : Uuid) : Account → Bool
  | .poolAddr _ owner => owner = merchant
  | .merchantAvailable holder owner => holder = tenant ∧ owner = merchant
  | .merchantPendingWithdrawal holder owner => holder = tenant ∧ owner = merchant
  | _ => false

end Account

-----------------------------------------------------------------------------
-- The two patterns

theorem uuid_eq_iff {left right : Uuid} : left = right ↔ left.text.toList = right.text.toList := by
  obtain ⟨leftText, -⟩ := left
  obtain ⟨rightText, -⟩ := right
  simp [String.toList_inj]

theorem uuid_plain (id : Uuid) : ∀ c ∈ id.text.toList, SqlLike.Plain c := by
  intro c member
  refine ⟨?_, ?_, ?_⟩ <;>
    · rintro rfl
      have allowed := id.alphabet _ member
      revert allowed
      decide

/-- The tokens of a text that contains no special character. -/
theorem tokens_plain {text : List Char} (plain : ∀ c ∈ text, SqlLike.Plain c)
    : SqlLike.tokens text = text.map .literal := by
  simpa using SqlLike.tokens_append plain []

theorem tokens_poolPattern (merchant : Uuid)
    : SqlLike.tokens (poolPattern merchant.text)
      = "pool".toList.map .literal
        ++ .anyChar
          :: ("addr:".toList.map .literal
            ++ .anyString :: (':' :: merchant.text.toList).map .literal) := by
  have shape : poolPattern merchant.text
      = "pool".toList ++ '_' :: ("addr:".toList ++ '%' :: ':' :: merchant.text.toList) := rfl
  have colon : SqlLike.Plain ':' := by decide
  have pool : ∀ c ∈ "pool".toList, SqlLike.Plain c := SqlLike.plain_of_all (by decide)
  have addr : ∀ c ∈ "addr:".toList, SqlLike.Plain c := SqlLike.plain_of_all (by decide)
  rw [shape, SqlLike.tokens_append pool, SqlLike.tokens_anyChar, SqlLike.tokens_append addr,
    SqlLike.tokens_anyString, SqlLike.tokens_cons colon, tokens_plain (uuid_plain merchant), List.map_cons]

theorem tokens_liabilityPattern (tenant merchant : Uuid)
    : SqlLike.tokens (liabilityPattern tenant.text merchant.text)
      = "merchant_".toList.map .literal
        ++ .anyString
          :: (':' :: (tenant.text.toList ++ ':' :: merchant.text.toList)).map .literal := by
  have shape : liabilityPattern tenant.text merchant.text
      = "merchant".toList
        ++ (['\\', '_', '%', ':'] ++ (tenant.text.toList ++ ':' :: merchant.text.toList)) := by
    unfold liabilityPattern
    rw [List.append_assoc]
    rfl
  have colon : SqlLike.Plain ':' := by decide
  have leading : ∀ c ∈ "merchant".toList, SqlLike.Plain c := SqlLike.plain_of_all (by decide)
  rw [shape, SqlLike.tokens_append leading]
  simp only [List.cons_append, List.nil_append]
  rw [SqlLike.tokens_escaped, SqlLike.tokens_anyString, SqlLike.tokens_cons colon,
    SqlLike.tokens_append (uuid_plain tenant), SqlLike.tokens_cons colon,
    tokens_plain (uuid_plain merchant), List.map_cons, List.map_append, List.map_cons]
  rfl

/-- A text matches the pool pattern of a merchant when it is `pool_addr`, up to its fifth
character, and ends with the merchant after a colon.
-/
theorem like_poolPattern (merchant : Uuid) (text : List Char)
    : SqlLike.like ("pool_addr:".toList ++ text) (poolPattern merchant.text) = true
      ↔ ∃ skipped, text = skipped ++ ':' :: merchant.text.toList := by
  have skip : ∀ rest : List SqlLike.Token,
      SqlLike.isMatch ("pool".toList.map .literal
          ++ .anyChar :: ("addr:".toList.map .literal ++ rest)) ("pool_addr:".toList ++ text)
        = SqlLike.isMatch rest text := by
    intro rest
    simp [SqlLike.isMatch]
  rw [SqlLike.like, tokens_poolPattern, skip, SqlLike.isMatch_anyString]
  simp only [SqlLike.isMatch_literals_end]
  constructor
  · rintro ⟨skipped, more, rfl, rfl⟩
    exact ⟨skipped, rfl⟩
  · rintro ⟨skipped, rfl⟩
    exact ⟨skipped, _, rfl, rfl⟩

/-- A text that begins with `merchant_` matches the liability pattern when it ends with the
tenant and the merchant after colons.
-/
theorem like_liabilityPattern (tenant merchant : Uuid) (text : List Char)
    : SqlLike.like ("merchant_".toList ++ text) (liabilityPattern tenant.text merchant.text)
        = true
      ↔ ∃ skipped,
          text = skipped ++ ':' :: (tenant.text.toList ++ ':' :: merchant.text.toList) := by
  have skip : ∀ rest : List SqlLike.Token,
      SqlLike.isMatch ("merchant_".toList.map .literal ++ rest) ("merchant_".toList ++ text)
        = SqlLike.isMatch rest text := by
    intro rest
    simp [SqlLike.isMatch]
  rw [SqlLike.like, tokens_liabilityPattern, skip, SqlLike.isMatch_anyString]
  simp only [SqlLike.isMatch_literals_end]
  constructor
  · rintro ⟨skipped, more, rfl, rfl⟩
    exact ⟨skipped, rfl⟩
  · rintro ⟨skipped, rfl⟩
    exact ⟨skipped, _, rfl, rfl⟩

/-- No text with another first letter matches the pool pattern. -/
theorem not_like_poolPattern (merchant : Uuid) {c : Char} (apart : 'p' ≠ c) (rest : List Char)
    : SqlLike.like (c :: rest) (poolPattern merchant.text) = false := by
  rw [SqlLike.like, tokens_poolPattern]
  simp [SqlLike.isMatch, apart]

theorem not_like_liabilityPattern (tenant merchant : Uuid) {c : Char} (apart : 'm' ≠ c)
    (rest : List Char)
    : SqlLike.like (c :: rest) (liabilityPattern tenant.text merchant.text) = false := by
  rw [SqlLike.like, tokens_liabilityPattern]
  simp [SqlLike.isMatch, apart]

/-- A pool account matches the pattern of its own merchant only. -/
theorem like_poolAddr (chain : String) (owner merchant : Uuid)
    : SqlLike.like (poolAddr chain owner.text).toList (poolPattern merchant.text)
      = decide (owner = merchant) := by
  have text : (poolAddr chain owner.text).toList
      = "pool_addr:".toList ++ (chain.toList ++ ':' :: owner.text.toList) := by
    rw [poolAddr, accountKey_toList, accountKey_toList]
    rfl
  rw [text, Bool.eq_iff_iff, like_poolPattern, decide_eq_true_iff, uuid_eq_iff]
  constructor
  · rintro ⟨skipped, same⟩
    exact (Delimiters.last_inj owner.no_colon merchant.no_colon same).2
  · intro same
    exact ⟨chain.toList, by rw [same]⟩

/-- A liability account of a merchant, with the rest of its prefix after `merchant_`. -/
theorem like_liability (leading : List Char) (holder owner tenant merchant : Uuid)
    : SqlLike.like
        ("merchant_".toList
          ++ (leading ++ ':' :: (holder.text.toList ++ ':' :: owner.text.toList)))
        (liabilityPattern tenant.text merchant.text)
      = decide (holder = tenant ∧ owner = merchant) := by
  rw [Bool.eq_iff_iff, like_liabilityPattern, decide_eq_true_iff, uuid_eq_iff, uuid_eq_iff]
  constructor
  · rintro ⟨skipped, same⟩
    have whole : (leading ++ ':' :: holder.text.toList) ++ ':' :: owner.text.toList
        = (skipped ++ ':' :: tenant.text.toList) ++ ':' :: merchant.text.toList := by
      simpa using same
    obtain ⟨front, owners⟩ := Delimiters.last_inj owner.no_colon merchant.no_colon whole
    exact ⟨(Delimiters.last_inj holder.no_colon tenant.no_colon front).2, owners⟩
  · rintro ⟨holders, owners⟩
    exact ⟨leading, by rw [holders, owners]⟩

/-- The claim selects the accounts that count for the merchant and the tenant. -/
theorem forClaim_key (tenant merchant : Uuid) (asset other : String) (account : Account)
    : forClaim tenant.text merchant.text asset (account.key, other)
      = (other == asset && account.counts tenant merchant) := by
  -- Every account but those of the two patterns begins with another letter.
  have neither : ∀ {c : Char} {rest : List Char}, 'p' ≠ c → 'm' ≠ c
      → (SqlLike.like (c :: rest) (poolPattern merchant.text)
          || SqlLike.like (c :: rest) (liabilityPattern tenant.text merchant.text)) = false := by
    intro c rest notPool notMerchant
    rw [not_like_poolPattern merchant notPool,
      not_like_liabilityPattern tenant merchant notMerchant]
    rfl
  unfold forClaim
  congr 1
  cases account with
  | poolAddr chain owner =>
      have first : ∃ rest, (poolAddr chain owner.text).toList = 'p' :: rest := by
        rw [poolAddr, accountKey_toList]
        exact ⟨_, rfl⟩
      obtain ⟨rest, text⟩ := first
      have noLiability := not_like_liabilityPattern tenant merchant (c := 'p') (by decide) rest
      rw [← text] at noLiability
      simp only [Account.key, Account.counts, like_poolAddr, noLiability, Bool.or_false]
  | merchantAvailable holder owner =>
      have text : (merchantAvailable holder.text owner.text).toList
          = "merchant_".toList ++ ("available".toList
              ++ ':' :: (holder.text.toList ++ ':' :: owner.text.toList)) := by
        rw [merchantAvailable, accountKey_toList, accountKey_toList]
        rfl
      have noPool := not_like_poolPattern merchant (c := 'm') (by decide)
        ("erchant_".toList ++ ("available".toList
          ++ ':' :: (holder.text.toList ++ ':' :: owner.text.toList)))
      simp only [Account.key, Account.counts, text, like_liability]
      exact (congrArg (· || _) noPool).trans (Bool.false_or _)
  | merchantPendingWithdrawal holder owner =>
      have text : (merchantPendingWithdrawal holder.text owner.text).toList
          = "merchant_".toList ++ ("pending_withdrawal".toList
              ++ ':' :: (holder.text.toList ++ ':' :: owner.text.toList)) := by
        rw [merchantPendingWithdrawal, accountKey_toList, accountKey_toList]
        rfl
      have noPool := not_like_poolPattern merchant (c := 'm') (by decide)
        ("erchant_".toList ++ ("pending_withdrawal".toList
          ++ ':' :: (holder.text.toList ++ ':' :: owner.text.toList)))
      simp only [Account.key, Account.counts, text, like_liability]
      exact (congrArg (· || _) noPool).trans (Bool.false_or _)
  | complianceSuspense holder =>
      rw [Account.key, complianceSuspense, accountKey_toList]
      exact neither (c := 'c') (by decide) (by decide)
  | treasury chain =>
      rw [Account.key, Ledger.treasury, accountKey_toList]
      exact neither (c := 't') (by decide) (by decide)
  | feeRevenue holder =>
      rw [Account.key, feeRevenue, accountKey_toList]
      exact neither (c := 'e') (by decide) (by decide)

-----------------------------------------------------------------------------
-- Ledgers that only the engine has posted to

/-- A balance row stands for one of the engine's accounts. -/
def Named (row : (String × String) × Int) : Prop := ∃ account : Account, row.1.1 = account.key

/-- The balances are the sums of the postings, over the engine's accounts only. -/
structure Sound (ledger : SqlLedger) : Prop where
  materialised : ledger.Materialised
  named : ∀ row ∈ ledger.balances, Named row

theorem sound_empty : Sound SqlLedger.empty where
  materialised := SqlLedger.materialised_empty
  named := by simp [SqlLedger.empty]

/-- An entry in one asset over the engine's accounts. -/
structure Plain (asset : String) (postings : List Posting) : Prop where
  named : ∀ posting ∈ postings, ∃ account : Account, posting.account = account.key
  single : ∀ posting ∈ postings, posting.asset = asset

theorem Plain.flipped {asset : String} {postings : List Posting} (plain : Plain asset postings)
    : Plain asset (postings.map Posting.flipped) where
  named := by
    intro posting member
    obtain ⟨original, inOriginal, rfl⟩ := List.mem_map.mp member
    exact plain.named original inOriginal
  single := by
    intro posting member
    obtain ⟨original, inOriginal, rfl⟩ := List.mem_map.mp member
    exact plain.single original inOriginal

/-- An append of such an entry keeps a ledger sound. -/
theorem Sound.append {ledger next : SqlLedger} {entry : JournalEntry} {asset : String}
    {applied : Bool} (sound : Sound ledger) (plain : Plain asset entry.postings)
    (appended : ledger.append entry = .ok (next, applied))
    : Sound next := by
  rcases ledger.append_cases entry with ⟨-, same⟩ | ⟨-, -, failed⟩ | ⟨-, -, stored⟩
  · obtain ⟨rfl, -⟩ := Prod.mk.inj (Except.ok.inj (same.symm.trans appended))
    exact sound
  · cases failed.symm.trans appended
  · obtain ⟨rfl, -⟩ := Prod.mk.inj (Except.ok.inj (stored.symm.trans appended))
    have apart := SqlLedger.tellsApart_of_asset plain.single
    refine ⟨SqlLedger.materialised_applied sound.materialised apart, ?_⟩
    intro row member
    have keyed := List.mem_map_of_mem (f := Prod.fst) member
    rcases Accumulator.mem_keys_tally keyed with old | ⟨delta, inDeltas, same⟩
    · obtain ⟨before, inBalances, key⟩ := List.mem_map.mp old
      obtain ⟨account, named⟩ := sound.named before inBalances
      exact ⟨account, key ▸ named⟩
    · have netted : SqlLedger.nettedByAccount entry.postings
          = Accumulator.tally (fun posting => (posting.account, posting.asset)) Posting.signed []
              entry.postings :=
        Accumulator.tallyBy_eq_tally _ apart (by simp)
      rw [netted] at inDeltas
      have deltaKeyed := List.mem_map_of_mem (f := Prod.fst) inDeltas
      rcases Accumulator.mem_keys_tally deltaKeyed with none | ⟨posting, inEntry, posted⟩
      · cases none
      · obtain ⟨account, named⟩ := plain.named posting inEntry
        refine ⟨account, ?_⟩
        rw [← same, ← posted]
        exact named

/-- What the postings leave on the accounts that count for a merchant and a tenant, the
assets less the liabilities.
-/
def surplus (tenant merchant : Uuid) (asset : String) (postings : List Posting) : Int :=
  netWhere
    (fun posting => forClaim tenant.text merchant.text asset (posting.account, posting.asset))
    postings

@[simp]
theorem surplus_append (tenant merchant : Uuid) (asset : String) (left right : List Posting)
    : surplus tenant merchant asset (left ++ right)
      = surplus tenant merchant asset left + surplus tenant merchant asset right :=
  netWhere_append _ left right

/-- A selected row moves the difference of the two sums by its signed amount. -/
theorem addRow_of_selected {tenant merchant : Uuid} {asset : String}
    {row : (String × String) × Int} (named : Named row)
    (selected : forClaim tenant.text merchant.text asset row.1 = true) (sums : Int × Int)
    : ∃ later, FeeSweepPlanner.addRow sums row = .ok later
        ∧ later.1 - later.2 = sums.1 - sums.2 + row.2 := by
  obtain ⟨⟨text, other⟩, amount⟩ := row
  obtain ⟨account, rfl⟩ : ∃ account : Account, text = account.key := named
  rw [forClaim_key] at selected
  cases account with
  | poolAddr chain owner =>
      have pool : startsWith (poolAddr chain owner.text) "pool_addr:" = true := by
        rw [startsWith, poolAddr, accountKey_toList, List.isPrefixOf_iff_prefix]
        exact ⟨(accountKey chain owner.text).toList, rfl⟩
      refine ⟨(sums.1 + amount, sums.2), ?_, by simp only; omega⟩
      simp [FeeSweepPlanner.addRow, normalBalance, Account.key, pool, normalSide, bind,
        Except.bind, pure, Except.pure]
  | merchantAvailable holder owner =>
      have liability : startsWith (merchantAvailable holder.text owner.text) "pool_addr:"
          = false := by
        rw [startsWith, merchantAvailable, accountKey_toList]
        rfl
      refine ⟨(sums.1, sums.2 + -amount), ?_, by simp only; omega⟩
      simp [FeeSweepPlanner.addRow, normalBalance, Account.key, liability, normalSide, bind,
        Except.bind, pure, Except.pure]
  | merchantPendingWithdrawal holder owner =>
      have liability : startsWith (merchantPendingWithdrawal holder.text owner.text)
          "pool_addr:" = false := by
        rw [startsWith, merchantPendingWithdrawal, accountKey_toList]
        rfl
      refine ⟨(sums.1, sums.2 + -amount), ?_, by simp only; omega⟩
      simp [FeeSweepPlanner.addRow, normalBalance, Account.key, liability, normalSide, bind,
        Except.bind, pure, Except.pure]
  | _ => simp [Account.counts] at selected

/-- The two sums over selected rows, by induction on the rows. -/
theorem foldlM_addRow (tenant merchant : Uuid) (asset : String)
    {rows : List ((String × String) × Int)} (named : ∀ row ∈ rows, Named row)
    (sums : Int × Int)
    : ∃ totals,
        (rows.filter fun row => forClaim tenant.text merchant.text asset row.1).foldlM
            FeeSweepPlanner.addRow sums
          = .ok totals
        ∧ totals.1 - totals.2
          = sums.1 - sums.2
            + Accumulator.sumWhere (forClaim tenant.text merchant.text asset) rows := by
  induction rows generalizing sums with
  | nil => exact ⟨sums, rfl, by simp⟩
  | cons row rest ih =>
      have restNamed : ∀ other ∈ rest, Named other := fun other member =>
        named other (List.mem_cons_of_mem _ member)
      cases selected : forClaim tenant.text merchant.text asset row.1 with
      | false =>
          obtain ⟨totals, done, difference⟩ := ih restNamed sums
          refine ⟨totals, by simpa [selected] using done, ?_⟩
          simp [selected, difference]
      | true =>
          obtain ⟨later, added, moved⟩ :=
            addRow_of_selected (named row List.mem_cons_self) selected sums
          obtain ⟨totals, done, difference⟩ := ih restNamed later
          refine ⟨totals, ?_, ?_⟩
          · simpa [selected, added, bind, Except.bind] using done
          · rw [Accumulator.sumWhere_cons, selected, difference, moved]
            simp only [if_true]
            omega

/-- On a sound ledger the claim is the surplus of its postings, or zero. -/
theorem claim_eq_surplus {ledger : SqlLedger} (sound : Sound ledger) (tenant merchant : Uuid)
    (asset : String)
    : FeeSweepPlanner.claim ledger tenant.text merchant.text asset
      = .ok (max 0 (surplus tenant merchant asset ledger.postings)) := by
  obtain ⟨totals, done, difference⟩ :=
    foldlM_addRow tenant merchant asset sound.named (0, 0)
  have net := sound.materialised.2 (forClaim tenant.text merchant.text asset)
  have whole : totals.1 - totals.2 = surplus tenant merchant asset ledger.postings := by
    rw [difference, net, surplus]
    omega
  simp only [FeeSweepPlanner.claim, done, bind, Except.bind, pure, Except.pure, whole,
    Except.ok.injEq]
  split <;> omega

-----------------------------------------------------------------------------
-- What each kind of entry does to the surplus

/-- A posting counts with its sign where its account and its asset do. -/
theorem surplus_posting (tenant merchant : Uuid) (asset other : String) (account : Account)
    (amount : Int) (direction : Direction)
    : surplus tenant merchant asset [⟨account.key, other, amount, direction⟩]
      = if other = asset ∧ account.counts tenant merchant = true then
          Posting.signed ⟨account.key, other, amount, direction⟩
        else 0 := by
  simp [surplus, forClaim_key]

/-- A sum over the accounts that count grows where a movement debits one of them and shrinks
where it credits one.
-/
theorem netWhere_movementEntry {select : Posting → Bool} {counts : Account → Bool}
    {asset : String}
    (selects
      : ∀ account other amount direction,
          select ⟨Account.key account, other, amount, direction⟩
            = (decide (other = asset) && counts account))
    (kind id key other : String) (amount : Int) (debited credited : Account)
    : netWhere select
        (movementEntry kind id key other amount debited.key credited.key none).postings
      = if other = asset then
          (if counts debited then amount else 0) - (if counts credited then amount else 0)
        else 0 := by
  have postings : (movementEntry kind id key other amount debited.key credited.key none).postings
      = [⟨debited.key, other, amount, .debit⟩, ⟨credited.key, other, amount, .credit⟩] := rfl
  rw [postings, netWhere_cons, netWhere_cons, netWhere_nil, selects, selects]
  by_cases same : other = asset
  · simp only [same, decide_true, Bool.true_and, if_true, Posting.signed_debit,
      Posting.signed_credit]
    split <;> split <;> omega
  · simp [same]

/-- A movement raises the surplus where the account it debits counts and lowers it where the
account it credits does.
-/
theorem surplus_movementEntry (tenant merchant : Uuid) (asset kind id key other : String)
    (amount : Int) (debited credited : Account)
    : surplus tenant merchant asset
        (movementEntry kind id key other amount debited.key credited.key none).postings
      = if other = asset then
          (if debited.counts tenant merchant then amount else 0)
            - (if credited.counts tenant merchant then amount else 0)
        else 0 :=
  netWhere_movementEntry (fun account other _ _ => forClaim_key tenant merchant asset other account)
    kind id key other amount debited credited

end Cixtech.Treasury
