import Cixtech.Attribution.PoolManager
import Cixtech.Auth.Totp
import Cixtech.Evm.EvmAdapter
import Cixtech.Evm.EvmTx
import Mathlib.Data.Bool.AllAny

/-! The checksummed spelling of an EVM address, whose capitals a hash of its small digits sets.
Whatever spelling of an account it is made from, it is the text that the pool stores and that a
log of a transfer to the account is read with, so that both are compared as raw texts.
-/

namespace Cixtech.Evm

open Cixtech.Attribution Cixtech.Common Cixtech.Foundation Cixtech.Foundation.Protobuf
open Cixtech.Ingest Cixtech.Payout
open Cixtech.Auth (trim)
open Cixtech.Tron.TxVerify (hex hexChar withoutHexPrefix hexDigit_hexChar isLowerHex_hex length_hex)

/-- The digits of an address, each capital where the hash has 8 or more in its place. -/
def checksumCase (hash clean : List Char) : List Char :=
  clean.mapIdx fun i c =>
    if (hash[i]?.bind AuthorizationSigner.hexDigit).any (8 ≤ ·) then c.toUpper else c

def toChecksumAddress (keccak256 : Bytes → Bytes) (address : String) : Except AppError String := do
  let clean ← normalizeHexAddress address
  let hash := hex (keccak256 clean.toUTF8.data.toList)
  return "0x" ++ String.ofList (checksumCase hash clean.toList)

/-- What addresses are made with: the hash, the points of the curve, the tree of keys and the
lower case of the language, of which only the ASCII letters are used.
-/
structure AddressLibraries where
  keccak256 : Bytes → Bytes
  /-- `secp256k1.Point.fromBytes(pubkey).toBytes(false)`. -/
  uncompressed : Bytes → Except AppError Bytes
  /-- The public key of a child of an extended key, where there is one. -/
  childPublicKey : String → Nat → Except AppError (Option Bytes)
  toLowerCase : String → String
  toLowerCase_ascii
    : ∀ text, (∀ c ∈ text.toList, c.toNat < 128) → (toLowerCase text).toList = lowerCase text

namespace AddressLibraries

variable (libraries : AddressLibraries)

/-- The last twenty bytes of the hash of a point, without the byte in front of it. -/
def accountHash20 (pubkey : Bytes) : Except AppError Bytes := do
  let hash := libraries.keccak256 ((← libraries.uncompressed pubkey).drop 1)
  return hash.drop (hash.length - 20)

def evmAddressFromPubkey (pubkey : Bytes) : Except AppError String := do
  toChecksumAddress libraries.keccak256 (String.ofList (hex (← libraries.accountHash20 pubkey)))

def deriveEvmAddress (xpub : String) (index : Int) : Except AppError String := do
  if index < 0 then
    throw (.plain s!"Derivation index must be a non-negative integer, got {index}")
  match ← libraries.childPublicKey (trim xpub) index.toNat with
  | none => throw (.plain "Could not derive a public key from the xpub")
  | some publicKey => libraries.evmAddressFromPubkey publicKey

/-- The codec of an adapter that spells addresses with these libraries. -/
def codec (bigInt : String → Except AppError Nat) (number : Nat → Nat)
    (transferEventTopic : String)
    : EvmCodec :=
  { toLowerCase := libraries.toLowerCase, bigInt, number
    toChecksumAddress := toChecksumAddress libraries.keccak256, transferEventTopic }

end AddressLibraries

-----------------------------------------------------------------------------
-- Spellings of an account

/-- A text spells an account by its hexadecimal digits, each in either letter case, behind a
prefix or none.
-/
def Spells (account : Bytes) (text : String) : Prop :=
  ∃ start ∈ [[], ['0', 'x'], ['0', 'X']], ∃ digits,
    text.toList = start ++ digits ∧ digits.map Char.toLower = hex account

theorem hexChar_cases
    : ∀ digit < 16,
        (hexChar digit).toLower = hexChar digit ∧ (hexChar digit).toUpper.toLower = hexChar digit
          ∧ (hexChar digit).toNat < 128 := by
  decide

theorem hexDigit_cases {c : Char} (digit : isHexDigit c = true)
    : c.toLower = c ∧ c.toUpper.toLower = c ∧ c.toNat < 128 := by
  obtain ⟨n, small, -, rfl⟩ := hexChar_hexDigit digit
  exact hexChar_cases n small

theorem isHexDigit_of_mem_hex {account : Bytes} {c : Char} (member : c ∈ hex account)
    : isHexDigit c = true :=
  List.all_eq_true.mp (isLowerHex_hex account) c member

theorem map_toLower_hex (account : Bytes) : (hex account).map Char.toLower = hex account := by
  conv_rhs => rw [← List.map_id (hex account)]
  exact List.map_congr_left fun c member => (hexDigit_cases (isHexDigit_of_mem_hex member)).1

/-- The small digits of an account spell it. -/
theorem spells_hex (account : Bytes) : Spells account (String.ofList (hex account)) :=
  ⟨[], by simp, hex account, String.toList_ofList, map_toLower_hex account⟩

variable {account : Bytes} {text : String}

/-- In lower case and without its prefix, a spelling is the small digits of the account. -/
theorem Spells.digits (spells : Spells account text)
    : withoutHexPrefix (lowerCase text) = hex account := by
  obtain ⟨start, among, digits, shape, lower⟩ := spells
  have whole : lowerCase text = start.map Char.toLower ++ hex account := by
    rw [lowerCase, shape, List.map_append, lower]
  rw [whole]
  simp only [List.mem_cons, List.not_mem_nil, or_false] at among
  rcases among with rfl | rfl | rfl
  · exact Cixtech.Tron.TxVerify.withoutHexPrefix_hex account
  · rfl
  · rfl

theorem Spells.ascii (spells : Spells account text) : ∀ c ∈ text.toList, c.toNat < 128 := by
  obtain ⟨start, among, digits, shape, lower⟩ := spells
  intro c member
  rw [shape] at member
  rcases List.mem_append.mp member with front | digit
  · have small : start.all (fun c => c.toNat < 128) = true := by
      have each : ∀ start ∈ [[], ['0', 'x'], ['0', 'X']],
          start.all (fun c => c.toNat < 128) = true := by decide
      exact each start among
    exact List.all_iff_forall_prop.mp small c front
  · have lowered : c.toLower ∈ hex account := lower ▸ List.mem_map_of_mem digit
    have small := (hexDigit_cases (isHexDigit_of_mem_hex lowered)).2.2
    unfold Char.toLower at small
    split at small
    case isTrue capital =>
      have most : c.val.toNat ≤ 90 := UInt32.le_iff_toNat_le.mp capital.2
      have code : c.toNat = c.val.toNat := rfl
      omega
    case isFalse => exact small

theorem Spells.normalizeHexAddress (spells : Spells account text) (twenty : account.length = 20)
    : normalizeHexAddress text = .ok (String.ofList (hex account)) := by
  rw [normalizeHexAddress_eq, spells.digits]
  have long : (hex account).length = 40 := by rw [length_hex, twenty]
  exact if_pos ⟨long, isLowerHex_hex account⟩

theorem toLower_eq_zero {c : Char} (lower : c.toLower = '0') : c = '0' := by
  unfold Char.toLower at lower
  split at lower
  case isTrue capital =>
    have atLeast : 65 ≤ c.val.toNat := UInt32.le_iff_toNat_le.mp capital.1
    have atMost : c.val.toNat ≤ 90 := UInt32.le_iff_toNat_le.mp capital.2
    have code := congrArg (fun c : Char => c.val.toNat) lower
    simp only [UInt32.toNat_add] at code
    have shift : ('a'.val - 'A'.val).toNat = 32 := by decide
    have zero : '0'.val.toNat = 48 := rfl
    omega
  case isFalse => exact lower

theorem toLower_eq_x {c : Char} (lower : c.toLower = 'x') : c = 'x' ∨ c = 'X' := by
  unfold Char.toLower at lower
  split at lower
  case isTrue capital =>
    have atMost : c.val.toNat ≤ 90 := UInt32.le_iff_toNat_le.mp capital.2
    have code := congrArg (fun c : Char => c.val.toNat) lower
    simp only [UInt32.toNat_add] at code
    have shift : ('a'.val - 'A'.val).toNat = 32 := by decide
    have small : 'x'.val.toNat = 120 := rfl
    have capitalX : 'X'.val.toNat = 88 := rfl
    have same : c.val.toNat = 'X'.val.toNat := by omega
    exact .inr (Char.ext (UInt32.toNat_inj.mp same))
  case isFalse => exact .inl lower

/-- Every text that is accepted spells an account of twenty bytes. -/
theorem exists_spells {digits : String} (normal : normalizeHexAddress text = .ok digits)
    : ∃ account : Bytes, account.length = 20 ∧ Spells account text := by
  obtain ⟨long, small⟩ := normalizeHexAddress_digits normal
  rw [normalizeHexAddress_eq] at normal
  dsimp only at normal
  split at normal
  case isFalse => cases normal
  case isTrue =>
    obtain rfl := Except.ok.inj normal
    rw [String.toList_ofList] at long small
    have spelled := hex_fromHex 20 long small
    have twenty
        : (Cixtech.Tron.TxVerify.fromHex (withoutHexPrefix (lowerCase text))).length = 20 := by
      have count := congrArg List.length spelled
      rw [length_hex, long] at count
      omega
    refine ⟨_, twenty, ?_⟩
    unfold Spells
    rw [spelled]
    unfold lowerCase
    unfold withoutHexPrefix
    split
    case h_1 rest prefixed =>
      obtain ⟨first, behind, shape, zero, later⟩ := List.map_eq_cons_iff.mp prefixed
      obtain ⟨second, digits, rfl, small, lower⟩ := List.map_eq_cons_iff.mp later
      obtain rfl := toLower_eq_zero zero
      rcases toLower_eq_x small with rfl | rfl
      · exact ⟨['0', 'x'], by simp, digits, shape, lower⟩
      · exact ⟨['0', 'X'], by simp, digits, shape, lower⟩
    case h_2 => exact ⟨[], by simp, text.toList, rfl, rfl⟩

-----------------------------------------------------------------------------
-- The checksummed spelling

/-- The checksummed spelling of an account. -/
def checksumOf (keccak256 : Bytes → Bytes) (account : Bytes) : String :=
  let clean := String.ofList (hex account)
  "0x" ++ String.ofList (checksumCase (hex (keccak256 clean.toUTF8.data.toList)) (hex account))

/-- Whatever the hash is, its capitals are those of the small digits. -/
theorem map_toLower_checksumCase (hash : List Char) {clean : List Char}
    (digits : ∀ c ∈ clean, isHexDigit c = true)
    : (checksumCase hash clean).map Char.toLower = clean := by
  refine List.ext_getElem (by simp [checksumCase]) fun i inRange _ => ?_
  have inClean : i < clean.length := by simpa [checksumCase] using inRange
  have cases_ := hexDigit_cases (digits clean[i] (List.getElem_mem inClean))
  simp only [checksumCase, List.getElem_map, List.getElem_mapIdx]
  split
  · exact cases_.2.1
  · exact cases_.1

theorem spells_checksumOf (keccak256 : Bytes → Bytes) (account : Bytes)
    : Spells account (checksumOf keccak256 account) := by
  obtain ⟨hash, shape⟩ : ∃ hash,
      (checksumOf keccak256 account).toList = ['0', 'x'] ++ checksumCase hash (hex account) :=
    ⟨_, by rw [checksumOf, String.toList_append, String.toList_ofList, String.toList_ofList]⟩
  exact ⟨['0', 'x'], by simp, checksumCase hash (hex account), shape,
    map_toLower_checksumCase hash fun c member => isHexDigit_of_mem_hex member⟩

theorem toChecksumAddress_eq (keccak256 : Bytes → Bytes) (spells : Spells account text)
    (twenty : account.length = 20)
    : toChecksumAddress keccak256 text = .ok (checksumOf keccak256 account) := by
  unfold toChecksumAddress
  rw [spells.normalizeHexAddress twenty]
  simp only [bind, Except.bind, pure, Except.pure, String.toList_ofList]
  rfl

-----------------------------------------------------------------------------
-- Topics

theorem toList_withoutHexPrefix (text : String)
    : (EvmAdapter.withoutHexPrefix text).toList = withoutHexPrefix text.toList := by
  unfold EvmAdapter.withoutHexPrefix
  split
  case h_1 rest same => rw [same, String.toList_ofList]; rfl
  case h_2 other =>
    unfold withoutHexPrefix
    split
    case h_1 rest same => exact absurd same (other rest)
    case h_2 => rfl

variable {libraries : AddressLibraries} {codec : EvmCodec}

/-- The topic of a spelling holds the small digits of its account. -/
theorem toList_addressTopic (lowers : codec.toLowerCase = libraries.toLowerCase)
    (spells : Spells account text)
    : (EvmAdapter.addressTopic codec text).toList
      = '0' :: 'x' :: (List.replicate 24 '0' ++ hex account) := by
  rw [EvmAdapter.addressTopic, String.toList_append, String.toList_append, String.toList_ofList,
    toList_withoutHexPrefix, lowers, libraries.toLowerCase_ascii text spells.ascii, spells.digits]
  rfl

/-- The end of the topic of an account spells it, in whatever letter case the topic comes. -/
theorem spells_lastForty {topic : String} (twenty : account.length = 20)
    (shape : lowerCase topic = '0' :: 'x' :: (List.replicate 24 '0' ++ hex account))
    : Spells account ("0x" ++ EvmAdapter.lastForty topic) := by
  have long : topic.length = 66 := by
    have count := congrArg List.length shape
    rw [← String.length_toList]
    simpa [lowerCase, length_hex, twenty] using count
  refine ⟨['0', 'x'], by simp, topic.toList.drop 26, ?_, ?_⟩
  · simp [EvmAdapter.lastForty, long, String.toList_append]
  · have dropped := congrArg (List.drop 26) shape
    rw [lowerCase, ← List.map_drop] at dropped
    exact dropped.trans (by simp)

theorem addressFromTopic_eq {topic : String} (twenty : account.length = 20)
    (checksums : codec.toChecksumAddress = toChecksumAddress libraries.keccak256)
    (lowers : codec.toLowerCase = libraries.toLowerCase) (spells : Spells account text)
    (same : lowerCase topic = (EvmAdapter.addressTopic codec text).toList)
    : EvmAdapter.addressFromTopic codec topic
      = .ok (checksumOf libraries.keccak256 account) := by
  rw [toList_addressTopic lowers spells] at same
  rw [EvmAdapter.addressFromTopic, checksums]
  exact toChecksumAddress_eq libraries.keccak256 (spells_lastForty twenty same) twenty

/-- A deposit is paid to the address in the third topic of its log. -/
theorem parseLog_to {config : EvmAdapterConfig} {log : EvmLog} {deposit : ChainDeposit}
    (parsed : EvmAdapter.parseLog codec config log = .ok (some deposit))
    : deposit.chain = config.chain
      ∧ ∃ topic, log.topics[2]? = some topic
        ∧ EvmAdapter.addressFromTopic codec topic = .ok deposit.to_ := by
  unfold EvmAdapter.parseLog at parsed
  split at parsed
  case h_2 => cases parsed
  case h_1 event sender recipient others topics =>
    split at parsed
    case isTrue => cases parsed
    case isFalse =>
      split at parsed
      case h_1 => cases parsed
      case h_2 symbol known =>
        simp only [bind, Except.bind, pure, Except.pure] at parsed
        -- Each text that is read is a reason to throw.
        repeat' split at parsed
        all_goals cases parsed
        exact ⟨rfl, recipient, by simp [topics], by assumption⟩

-----------------------------------------------------------------------------
-- Attribution by raw texts

theorem AddressLibraries.evmAddressFromPubkey_eq {pubkey : Bytes} (twenty : account.length = 20)
    (hashed : libraries.accountHash20 pubkey = .ok account)
    : libraries.evmAddressFromPubkey pubkey
      = .ok (checksumOf libraries.keccak256 account) := by
  rw [AddressLibraries.evmAddressFromPubkey, hashed]
  exact toChecksumAddress_eq libraries.keccak256 (spells_hex account) twenty

theorem AddressLibraries.deriveEvmAddress_eq {xpub : String} {index : Int} {pubkey : Bytes}
    (twenty : account.length = 20) (sign : 0 ≤ index)
    (child : libraries.childPublicKey (trim xpub) index.toNat = .ok (some pubkey))
    (hashed : libraries.accountHash20 pubkey = .ok account)
    : libraries.deriveEvmAddress xpub index
      = .ok (checksumOf libraries.keccak256 account) := by
  have valid : ¬ index < 0 := by omega
  simp only [AddressLibraries.deriveEvmAddress, valid, if_false, child, bind, Except.bind]
  exact AddressLibraries.evmAddressFromPubkey_eq twenty hashed

/-- A deposit that a log to a spelling of the account becomes is paid to its checksummed text. -/
theorem to_of_parseDeposits {config : EvmAdapterConfig} {logs : List EvmLog}
    {deposits : List ChainDeposit} {deposit : ChainDeposit} (twenty : account.length = 20)
    (checksums : codec.toChecksumAddress = toChecksumAddress libraries.keccak256)
    (lowers : codec.toLowerCase = libraries.toLowerCase) (spells : Spells account text)
    (returned : ∀ log ∈ logs, ∀ topic, log.topics[2]? = some topic
      → lowerCase topic = (EvmAdapter.addressTopic codec text).toList)
    (parsed : EvmAdapter.parseDeposits codec config logs = .ok deposits)
    (found : deposit ∈ deposits)
    : deposit.chain = config.chain
      ∧ deposit.to_ = checksumOf libraries.keccak256 account := by
  obtain ⟨log, among, read⟩ := (EvmAdapter.mem_parseDeposits parsed deposit).mp found
  obtain ⟨chain, topic, third, address⟩ := parseLog_to read
  have same := returned log among topic third
  rw [addressFromTopic_eq twenty checksums lowers spells same] at address
  exact ⟨chain, (Except.ok.inj address).symm⟩

/-- Every spelling of an account leads to one text, which is that of the keys of the account, of
the topics it is watched by and of every deposit that a log to it becomes; the pool finds the row
that holds this text.
-/
theorem checksum_addresses_agree (libraries : AddressLibraries)
    (bigInt : String → Except AppError Nat) (number : Nat → Nat) (transferEventTopic : String)
    (config : EvmAdapterConfig) (account : Bytes) (twenty : account.length = 20)
    : let codec := libraries.codec bigInt number transferEventTopic
      ∃ checksum,
        (∀ text, Spells account text → toChecksumAddress libraries.keccak256 text = .ok checksum)
        ∧ toChecksumAddress libraries.keccak256 checksum = .ok checksum
        ∧ normalizeHexAddress checksum = .ok (String.ofList (hex account))
        ∧ (∀ text topic,
            Spells account text
            → lowerCase topic = (EvmAdapter.addressTopic codec text).toList
            → EvmAdapter.addressFromTopic codec topic = .ok checksum)
        ∧ (∀ pubkey,
            libraries.accountHash20 pubkey = .ok account
            → libraries.evmAddressFromPubkey pubkey = .ok checksum)
        ∧ (∀ xpub index pubkey,
            0 ≤ index
            → libraries.childPublicKey (trim xpub) index.toNat = .ok (some pubkey)
            → libraries.accountHash20 pubkey = .ok account
            → libraries.deriveEvmAddress xpub index = .ok checksum)
        ∧ ∀ (rows : List PoolAddressRow) (row : PoolAddressRow) (logs : List EvmLog)
            (deposits : List ChainDeposit),
            (rows.map PoolAddressRow.at_).Nodup
            → row ∈ rows
            → row.chain = config.chain
            → row.address = checksum
            → (∀ log ∈ logs, ∀ topic, log.topics[2]? = some topic
              → lowerCase topic = (EvmAdapter.addressTopic codec row.address).toList)
            → EvmAdapter.parseDeposits codec config logs = .ok deposits
            → ∀ deposit ∈ deposits,
                deposit.to_ = row.address
                ∧ PoolManager.findByAddress rows deposit.chain deposit.to_ = some row
                ∧ PoolManager.resolve rows deposit.chain deposit.to_
                  = if row.state = .available then none else some (row.tenant, row.merchant) := by
  intro codec
  have spells := spells_checksumOf libraries.keccak256 account
  refine ⟨checksumOf libraries.keccak256 account,
    fun text spelled => toChecksumAddress_eq libraries.keccak256 spelled twenty,
    toChecksumAddress_eq libraries.keccak256 spells twenty, spells.normalizeHexAddress twenty,
    fun text topic spelled same => addressFromTopic_eq twenty rfl rfl spelled same,
    fun pubkey hashed => AddressLibraries.evmAddressFromPubkey_eq twenty hashed,
    fun xpub index pubkey sign child hashed =>
      AddressLibraries.deriveEvmAddress_eq twenty sign child hashed, ?_⟩
  intro rows row logs deposits distinct member ofChain stored returned parsed deposit found
  rw [stored] at returned
  obtain ⟨chain, paid⟩ := to_of_parseDeposits twenty rfl rfl spells returned parsed found
  have toRow : deposit.to_ = row.address := paid.trans stored.symm
  have looked : PoolManager.findByAddress rows deposit.chain deposit.to_ = some row := by
    rw [chain, toRow, ← ofChain]
    exact Table.lookup_of_mem distinct member
  refine ⟨toRow, looked, ?_⟩
  rw [PoolManager.resolve, looked]

/-- The account of one of the published spellings. -/
def sampleAccount : Bytes :=
  [90, 174, 182, 5, 63, 62, 148, 201, 185, 160, 159, 51, 102, 148, 53, 231, 239, 27, 234, 237]

/-- The libraries, with the hash on the digits of the account. -/
def sampleLibraries : AddressLibraries where
  keccak256 text :=
    if text = "5aaeb6053f3e94c9b9a09f33669435e7ef1beaed".toUTF8.data.toList then
      [ 211, 133, 101, 12, 232, 253, 198, 219, 126, 227, 160, 145, 211, 72, 20, 219, 196, 206, 24,
        33, 159, 250, 229, 33, 130, 239, 255, 64, 52, 215, 7, 229 ]
    else List.replicate 32 0
  uncompressed pubkey := .ok pubkey
  childPublicKey _ _ := .ok none
  toLowerCase text := String.ofList (lowerCase text)
  toLowerCase_ascii _ _ := String.toList_ofList

/-- The published spelling. -/
def sampleChecksum : String := "0x5aAeb6053F3E94C9b9A09f33669435E7Ef1BeAed"

def checksumCodec : EvmCodec := sampleLibraries.codec (fun _ => .ok 5) id "0xddf2"

def checksumChain : EvmAdapterConfig :=
  { chain := "BASE", confirmations := 2
    tokenContracts := [("USDC", "0x2222222222222222222222222222222222222222")]
    initialLookbackBlocks := 5000 }

/-- A transfer to the account. -/
def checksumLog : EvmLog :=
  { address := "0x2222222222222222222222222222222222222222"
    topics :=
      [ "0xddf2", "0x0000000000000000000000003333333333333333333333333333333333333333",
        "0x0000000000000000000000005aaeb6053f3e94c9b9a09f33669435e7ef1beaed" ]
    data := "0x5", blockNumber := "0x5", transactionHash := "0xaa", logIndex := "0x5" }

def checksumRow : PoolAddressRow :=
  { tenant := sampleTenant, merchant := sampleMerchant, chain := "BASE", derivationIndex := 0
    address := sampleChecksum, state := .reserved, cooldownUntil := none
    gatherStrategy := .eoaFundTransfer }

/-- A spelling in capitals leads to the published one, and a log to the account to its owner. -/
theorem checksum_addresses_agree_sample
    : toChecksumAddress sampleLibraries.keccak256 "0X5AAEB6053F3E94C9B9A09F33669435E7EF1BEAED"
        = .ok sampleChecksum
      ∧ ∃ deposit,
          EvmAdapter.parseDeposits checksumCodec checksumChain [checksumLog] = .ok [deposit]
          ∧ PoolManager.resolve [checksumRow] deposit.chain deposit.to_
            = some (sampleTenant, sampleMerchant) := by
  obtain ⟨checksum, made, -, -, -, -, -, attributed⟩ :=
    checksum_addresses_agree sampleLibraries (fun _ => .ok 5) id "0xddf2" checksumChain
      sampleAccount rfl
  have capitals := made "0X5AAEB6053F3E94C9B9A09F33669435E7EF1BEAED"
    ⟨['0', 'X'], by simp, "5AAEB6053F3E94C9B9A09F33669435E7EF1BEAED".toList, rfl,
      by decide +kernel⟩
  have published : toChecksumAddress sampleLibraries.keccak256
      "0X5AAEB6053F3E94C9B9A09F33669435E7EF1BEAED" = .ok sampleChecksum := by
    decide +kernel
  obtain rfl : sampleChecksum = checksum := Except.ok.inj (published.symm.trans capitals)
  have parsed : ∃ deposit,
      EvmAdapter.parseDeposits checksumCodec checksumChain [checksumLog] = .ok [deposit] :=
    ⟨_, rfl⟩
  obtain ⟨deposit, parsed⟩ := parsed
  refine ⟨published, deposit, parsed, ?_⟩
  refine (attributed [checksumRow] checksumRow [checksumLog] [deposit] (by simp) (by simp) rfl rfl
    ?_ parsed deposit (by simp)).2.2.trans rfl
  intro log among topic third
  obtain rfl := List.mem_singleton.mp among
  obtain rfl := Option.some.inj third
  decide +kernel

end Cixtech.Evm
