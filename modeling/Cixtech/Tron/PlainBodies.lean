import Cixtech.Tron.NetworkReading

/-! Bodies that leave a reader no choice: well formed in the strict sense at each level that
is read, with each field that is read at most once. The check before signing reads such a body
as the network does.
-/

namespace Cixtech.Tron.TxVerify

open Cixtech.Common Cixtech.Foundation Cixtech.Foundation.Protobuf Cixtech.Payout

/-- A field that both readers found. -/
def SameField (read : Protobuf.Field) (f : Field) : Prop :=
  read.number = f.no
  ∧ match read.payload with
    | .varint value => f.value = some value ∧ f.bytes = none
    | .fixed => f.value = none ∧ f.bytes = none
    | .bytes content => f.value = none ∧ f.bytes = some content

/-- The accumulator of the loop is the number so far, by induction on the bytes that are left:
seven bits a byte, of which eleven fit below the last shift that the loop allows.
-/
theorem varint_of_readVarint {limit value : Nat} {buf rest : Bytes} {shift result : Nat}
    (read : readVarint limit buf = some (value, rest)) (below : result < 2 ^ shift)
    (room : shift + 7 * limit ≤ 77)
    : varint shift result buf = .ok (result + value * 2 ^ shift, rest) := by
  induction limit generalizing value buf shift result with
  | zero => cases read
  | succ limit ih =>
      cases buf with
      | nil => cases read
      | cons byte others =>
          have joined : result ||| (byte.toNat % 128) <<< shift
              = result + byte.toNat % 128 * 2 ^ shift := by
            have sum := Nat.two_pow_add_eq_or_of_lt below (byte.toNat % 128)
            rw [Nat.or_comm, Nat.shiftLeft_eq, Nat.mul_comm, ← sum]
            omega
          unfold readVarint at read
          split at read
          case isTrue last =>
            cases read
            simp only [varint, joined, last, if_true]
            rw [Nat.mod_eq_of_lt last]
          case isFalse more =>
            split at read
            · cases read
            case h_2 higher later found =>
              cases read
              have another : 0 < limit := by
                cases limit with
                | zero => cases found
                | succ => omega
              have grown : 2 ^ (shift + 7) = 128 * 2 ^ shift := by
                rw [Nat.pow_add]
                omega
              have digits : result + byte.toNat % 128 * 2 ^ shift < 2 ^ (shift + 7) := by
                have digit : byte.toNat % 128 * 2 ^ shift ≤ 127 * 2 ^ shift :=
                  Nat.mul_le_mul_right _ (by omega)
                omega
              have tail := ih found digits (by omega)
              have allowed : ¬ shift + 7 > 70 := by omega
              simp only [varint, joined, more, if_false, allowed, tail, Except.ok.injEq,
                Prod.mk.injEq, and_true]
              rw [grown, Nat.add_mul]
              have regroup : higher * (128 * 2 ^ shift) = 128 * higher * 2 ^ shift := by
                rw [← Nat.mul_assoc, Nat.mul_comm higher 128]
              omega

theorem varint_whole {value : Nat} {buf rest : Bytes}
    (read : readVarint 10 buf = some (value, rest))
    : varint 0 0 buf = .ok (value, rest) := by
  have loop : varint 0 0 buf = .ok (0 + value * 2 ^ 0, rest) :=
    varint_of_readVarint read (by decide) (by decide)
  simpa using loop

/-- A strict message is read field for field by the reader of the check, by induction on the
fuel.
-/
theorem readFieldsFrom_of_strict {fuel : Nat} {buf : Bytes} {fields : List Protobuf.Field}
    (strict : readFieldsStrict fuel buf = some fields)
    : ∃ fs, readFieldsFrom fuel buf = .ok fs ∧ List.Forall₂ SameField fields fs := by
  induction fuel generalizing buf fields with
  | zero =>
      cases buf with
      | nil =>
          obtain rfl : fields = [] := by simpa [readFieldsStrict] using strict.symm
          exact ⟨[], rfl, .nil⟩
      | cons => cases strict
  | succ fuel ih =>
      cases buf with
      | nil =>
          obtain rfl : fields = [] := by simpa [readFieldsStrict] using strict.symm
          exact ⟨[], rfl, .nil⟩
      | cons byte others =>
          unfold readFieldsStrict at strict
          split at strict
          · cases strict
          case h_2 tag rest below =>
            have key := varint_whole (readBelow_eq_some.mp below).1
            split at strict
            · cases strict
            · split at strict
              · cases strict
              case h_2 payload later found =>
                obtain ⟨tail, read, rfl⟩ := Option.map_eq_some_iff.mp strict
                obtain ⟨fs, others, same⟩ := ih read
                rcases readPayloadStrict_cases found with
                  ⟨value, wire, rfl, -, number⟩ | ⟨wire, rfl, -, rfl⟩
                    | ⟨length, content, wire, rfl, -, long, number, rfl⟩ | ⟨wire, rfl, -, rfl⟩
                · have whole := varint_whole number
                  let f : Field :=
                    { no := tag / 8, wire := 0, bytes := none, value := some value }
                  refine ⟨f :: fs, ?_, .cons ⟨rfl, rfl, rfl⟩ same⟩
                  simp [readFieldsFrom, key, wire, whole, others, f, bind, Except.bind, pure,
                    Except.pure]
                · let f : Field :=
                    { no := tag / 8, wire := 1, bytes := none, value := none }
                  refine ⟨f :: fs, ?_, .cons ⟨rfl, rfl, rfl⟩ same⟩
                  simp [readFieldsFrom, key, wire, others, f, bind, Except.bind, pure, Except.pure]
                · have size := varint_whole number
                  let f : Field :=
                    { no := tag / 8, wire := 2, bytes := some (content.take length), value := none }
                  refine ⟨f :: fs, ?_, .cons ⟨rfl, rfl, rfl⟩ same⟩
                  simp [readFieldsFrom, key, wire, size, Nat.not_lt.mpr long, others, f, bind,
                    Except.bind, pure, Except.pure]
                · let f : Field :=
                    { no := tag / 8, wire := 5, bytes := none, value := none }
                  refine ⟨f :: fs, ?_, .cons ⟨rfl, rfl, rfl⟩ same⟩
                  simp [readFieldsFrom, key, wire, others, f, bind, Except.bind, pure, Except.pure]

-----------------------------------------------------------------------------
-- Fields that occur once

/-- Whether no two fields have the number. -/
def Once (number : Nat) (fields : List Protobuf.Field) : Prop :=
  (fields.filter fun read => read.number = number).length ≤ 1

section Lookups

variable {fields : List Protobuf.Field} {fs : List Field}

/-- Behind the only field of a number there is none, so nothing is read for it. -/
theorem none_read {number : Nat}
    (absent : fields.filter (fun read => read.number = number) = [])
    : fields.filterMap (Protobuf.Field.varint? number) = [] ∧ allBytes number fields = [] := by
  have apart : ∀ read ∈ fields, read.number ≠ number := by
    intro read member same
    have here : read ∈ fields.filter fun read => read.number = number :=
      List.mem_filter.mpr ⟨member, by simp [same]⟩
    rw [absent] at here
    cases here
  constructor
  · refine List.filterMap_eq_nil_iff.mpr fun read member => ?_
    unfold Protobuf.Field.varint?
    split
    · exact if_neg (apart read member)
    · rfl
  · refine List.filterMap_eq_nil_iff.mpr fun read member => ?_
    unfold Protobuf.Field.bytes?
    split
    · exact if_neg (apart read member)
    · rfl

/-- The first field of a number that occurs once is the last, by induction on the fields. -/
theorem lookups_of_once (same : List.Forall₂ SameField fields fs) {number : Nat}
    (once : Once number fields)
    : valueOf fs number = lastVarint number fields
      ∧ bytesOf fs number = lastBytes number fields
      ∧ (field fs number).bind Field.bytes = (allBytes number fields).head? := by
  induction same with
  | nil => exact ⟨rfl, rfl, rfl⟩
  | @cons read f rest others here tail ih =>
      obtain ⟨numbered, content⟩ := here
      by_cases hit : read.number = number
      · have noMore : rest.filter (fun read => read.number = number) = [] := by
          simp only [Once, List.filter_cons, hit, decide_true, if_true, List.length_cons] at once
          exact List.length_eq_zero_iff.mp (by omega)
        obtain ⟨noVarint, noBytes⟩ := none_read noMore
        unfold allBytes at noBytes
        have found : field (f :: others) number = some f := by
          simp [field, ← numbered, hit]
        cases payload : read.payload with
        | varint value =>
            rw [payload] at content
            simp [valueOf, bytesOf, found, content.1, content.2, lastVarint, lastBytes, allBytes,
              Protobuf.Field.varint?, Protobuf.Field.bytes?, payload, hit, noVarint, noBytes]
        | fixed =>
            rw [payload] at content
            simp [valueOf, bytesOf, found, content.1, content.2, lastVarint, lastBytes, allBytes,
              Protobuf.Field.varint?, Protobuf.Field.bytes?, payload, noVarint, noBytes]
        | bytes value =>
            rw [payload] at content
            simp [valueOf, bytesOf, found, content.1, content.2, lastVarint, lastBytes, allBytes,
              Protobuf.Field.varint?, Protobuf.Field.bytes?, payload, hit, noVarint, noBytes]
      · have later : Once number rest := by
          simpa [Once, List.filter_cons, hit] using once
        have skipped : field (f :: others) number = field others number := by
          simp [field, ← numbered, hit]
        obtain ⟨values, contents, first⟩ := ih later
        have noVarint : Protobuf.Field.varint? number read = none := by
          unfold Protobuf.Field.varint?
          split
          · exact if_neg hit
          · rfl
        have noBytes : Protobuf.Field.bytes? number read = none := by
          unfold Protobuf.Field.bytes?
          split
          · exact if_neg hit
          · rfl
        simp only [valueOf, bytesOf, skipped, lastVarint, lastBytes, allBytes,
          List.filterMap_cons, noVarint, noBytes] at values contents first ⊢
        exact ⟨values, contents, first⟩

/-- Every occurrence that has bytes is found by both readers, by induction on the fields. -/
theorem contracts_eq (same : List.Forall₂ SameField fields fs) (number : Nat)
    : (fs.filterMap fun f => if f.no = number then f.bytes else none) = allBytes number fields := by
  induction same with
  | nil => rfl
  | @cons read f rest others here tail ih =>
      obtain ⟨numbered, content⟩ := here
      have one : (if f.no = number then f.bytes else none)
          = Protobuf.Field.bytes? number read := by
        unfold Protobuf.Field.bytes?
        cases payload : read.payload with
        | varint value =>
            rw [payload] at content
            simp [content.2]
        | fixed =>
            rw [payload] at content
            simp [content.2]
        | bytes value =>
            rw [payload] at content
            simp [content.2, numbered]
      simp only [allBytes, List.filterMap_cons, one] at ih ⊢
      rw [ih]

end Lookups

-----------------------------------------------------------------------------
-- Bodies that both readers read alike

/-- A body with one contract, strict at each of its four levels, in which no field that is
read occurs twice and no number is too large for its type.
-/
structure PlainBody (raw : Bytes) where
  body : List Protobuf.Field
  contract : Bytes
  entry : List Protobuf.Field
  parameter : Bytes
  any : List Protobuf.Field
  value : Bytes
  message : List Protobuf.Field
  readBody : readStrict raw = some body
  contracts : allBytes 11 body = [contract]
  readEntry : readStrict contract = some entry
  typeOnce : Once 1 entry
  type : lastVarint 1 entry < 2 ^ 31
  parameterOnce : Once 2 entry
  parameters : allBytes 2 entry = [parameter]
  readAny : readStrict parameter = some any
  valueOnce : Once 2 any
  values : allBytes 2 any = [value]
  readMessage : readStrict value = some message
  messageOnce : ∀ number ∈ [1, 2, 3, 4], Once number message
  amount : lastVarint 3 message < 2 ^ 63

theorem readFields_of_readStrict {buf : Bytes} {fields : List Protobuf.Field}
    (strict : readStrict buf = some fields)
    : ∃ fs, readFields buf = .ok fs ∧ List.Forall₂ SameField fields fs :=
  readFieldsFrom_of_strict strict

/-- The check reads a plain body as the network does. -/
theorem networkReading_of_plain {raw : Bytes} (plain : PlainBody raw)
    : networkReading raw = firstReading raw := by
  obtain ⟨fields, body, sameBody⟩ := readFields_of_readStrict plain.readBody
  obtain ⟨c, entry, sameEntry⟩ := readFields_of_readStrict plain.readEntry
  obtain ⟨anyFields, any, sameAny⟩ := readFields_of_readStrict plain.readAny
  obtain ⟨f, message, sameMessage⟩ := readFields_of_readStrict plain.readMessage
  have contracts := (contracts_eq sameBody 11).trans plain.contracts
  obtain ⟨type, -, -⟩ := lookups_of_once sameEntry plain.typeOnce
  obtain ⟨-, parameter, -⟩ := lookups_of_once sameEntry plain.parameterOnce
  obtain ⟨-, -, value⟩ := lookups_of_once sameAny plain.valueOnce
  have parameterBytes : lastBytes 2 plain.entry = plain.parameter := by
    simp [lastBytes, plain.parameters]
  have embeds : embedded 2 plain.entry = some plain.any := by
    simp [embedded, plain.parameters, read_of_strict plain.readAny]
  have valueBytes : lastBytes 2 plain.any = plain.value := by
    simp [lastBytes, plain.values]
  have owner := lookups_of_once sameMessage (plain.messageOnce 1 (by simp))
  have second := lookups_of_once sameMessage (plain.messageOnce 2 (by simp))
  have third := lookups_of_once sameMessage (plain.messageOnce 3 (by simp))
  have data := lookups_of_once sameMessage (plain.messageOnce 4 (by simp))
  have typed : toInt32 (lastVarint 1 plain.entry) = (lastVarint 1 plain.entry : Int) := by
    have bound := plain.type
    have small : lastVarint 1 plain.entry % 2 ^ 32 = lastVarint 1 plain.entry :=
      Nat.mod_eq_of_lt (by omega)
    rw [toInt32, small, if_pos bound]
  have amount : toInt64 (lastVarint 3 plain.message) = (lastVarint 3 plain.message : Int) :=
    if_pos plain.amount
  unfold networkReading firstReading
  simp only [read_of_strict plain.readBody, Option.map_some, plain.contracts,
    read_of_strict plain.readEntry, Option.bind_some, embeds, valueBytes,
    read_of_strict plain.readMessage, body, Except.toOption, contracts, entry,
    parameter, parameterBytes, any, value, plain.values, List.head?_cons, message, owner.2.1,
    second.2.1, third.1, data.2.1, typed, amount, type]
  norm_cast

-----------------------------------------------------------------------------
-- Bodies whose fields are read alike

/-- The fields of the contract of a body and those of its message, in the standard reading. -/
def networkFields (raw : Bytes) : Option (List Protobuf.Field × List Protobuf.Field) :=
  match (read raw).map (allBytes 11) with
  | some [contract] =>
      (read contract).bind fun entry =>
        (embedded 2 entry).bind fun parameter =>
          (read (lastBytes 2 parameter)).map fun message => (entry, message)
  | _ => none

/-- The same as the check finds them. -/
def checkedFields (raw : Bytes) : Option (List Field × List Field) :=
  match (readFields raw).toOption.map fun fields =>
      fields.filterMap fun f => if f.no = 11 then f.bytes else none with
  | some [contract] =>
      (readFields contract).toOption.bind fun c =>
        (readFields (bytesOf c 2)).toOption.bind fun anyFields =>
          ((field anyFields 2).bind Field.bytes).bind fun value =>
            (readFields value).toOption.map fun f => (c, f)
  | _ => none

/-- The last occurrence of each field that is read says what the first one says to the check. Call
data are read of a token transfer only.
-/
structure LastIsFirst (entry message : List Protobuf.Field) (c f : List Field) : Prop where
  type : toInt32 (lastVarint 1 entry) = valueOf c 1
  owner : lastBytes 1 message = bytesOf f 1
  second : lastBytes 2 message = bytesOf f 2
  amount : toInt64 (lastVarint 3 message) = valueOf f 3
  data : valueOf c 1 = contractTypeTriggerSmartContract → lastBytes 4 message = bytesOf f 4

/-- Whether a body has its fields for both readers, with the last occurrences as the first. -/
def FieldsAgree (raw : Bytes) : Prop :=
  ∃ entry message c f,
    networkFields raw = some (entry, message) ∧ checkedFields raw = some (c, f)
    ∧ LastIsFirst entry message c f

/-- The contract that a type and the fields of a message make. -/
def contractOf (type : Int) (owner second : Bytes) (amount : Int) (data : Bytes) : TronContract :=
  if type = contractTypeTransfer then .transfer owner second amount
  else if type = contractTypeTriggerSmartContract then .trigger owner second amount data
  else .other type

theorem networkReading_eq (raw : Bytes)
    : networkReading raw
      = (networkFields raw).map fun (entry, message) =>
          contractOf (toInt32 (lastVarint 1 entry)) (lastBytes 1 message) (lastBytes 2 message)
            (toInt64 (lastVarint 3 message)) (lastBytes 4 message) := by
  unfold networkReading networkFields
  rcases (read raw).map (allBytes 11) with _ | _ | ⟨contract, _ | _⟩
  case some.cons.nil =>
    simp only [Option.map_bind, Option.map_map, Function.comp_def, contractOf]
  all_goals rfl

theorem firstReading_eq (raw : Bytes)
    : firstReading raw
      = (checkedFields raw).map fun (c, f) =>
          contractOf (valueOf c 1) (bytesOf f 1) (bytesOf f 2) (valueOf f 3) (bytesOf f 4) := by
  unfold firstReading checkedFields
  generalize (readFields raw).toOption.map _ = contracts
  rcases contracts with _ | _ | ⟨contract, _ | _⟩
  case some.cons.nil =>
    simp only [Option.map_bind, Option.map_map, Function.comp_def, contractOf]
    norm_cast
  all_goals rfl

/-- A contract that may be authorized tells the type and the fields that it was made of. -/
theorem contractOf_inj {hashing : TxHashing} {intent : TronTransferIntent} {type other : Int}
    {owner from_ second to_ data call : Bytes} {amount sum : Int}
    (authorized : Authorized hashing intent (contractOf type owner second amount data))
    (same : contractOf other from_ to_ sum call = contractOf type owner second amount data)
    : other = type ∧ from_ = owner ∧ to_ = second ∧ sum = amount
      ∧ (type = contractTypeTriggerSmartContract → call = data) := by
  unfold contractOf at authorized same
  split at authorized
  case isTrue native =>
    rw [if_pos native] at same
    split at same
    case isTrue otherNative =>
      cases same
      refine ⟨otherNative.trans native.symm, rfl, rfl, rfl, fun token => ?_⟩
      rw [native] at token
      cases token
    case isFalse => split at same <;> cases same
  case isFalse foreign =>
    split at authorized
    case isTrue token =>
      rw [if_neg foreign, if_pos token] at same
      split at same
      · cases same
      · split at same
        case isTrue otherToken =>
          cases same
          exact ⟨otherToken.trans token.symm, rfl, rfl, rfl, fun _ => rfl⟩
        case isFalse => cases same
    case isFalse => exact authorized.elim

theorem LastIsFirst.reading {entry message : List Protobuf.Field} {c f : List Field}
    (agree : LastIsFirst entry message c f)
    : contractOf (toInt32 (lastVarint 1 entry)) (lastBytes 1 message) (lastBytes 2 message)
        (toInt64 (lastVarint 3 message)) (lastBytes 4 message)
      = contractOf (valueOf c 1) (bytesOf f 1) (bytesOf f 2) (valueOf f 3) (bytesOf f 4) := by
  rw [agree.type, agree.owner, agree.second, agree.amount]
  by_cases token : valueOf c 1 = contractTypeTriggerSmartContract
  · rw [agree.data token]
  · have other : (valueOf c 1 : Int) ≠ contractTypeTriggerSmartContract := by exact_mod_cast token
    simp only [contractOf, if_neg other]

/-- A field as a standard reader takes it: the tag cut to 32 bits and the number to 64. -/
def Field.narrow (f : Field) : Protobuf.Field where
  number := f.no % 2 ^ 29
  payload :=
    match f.value, f.bytes with
    | some value, _ => .varint (value % 2 ^ 64)
    | none, some content => .bytes content
    | none, none => .fixed

/-- What both readers take from a message below 4 GiB are the same fields in the same order, by
induction on the fuel.
-/
theorem readFieldsFrom_narrow {fuel : Nat} {buf : Bytes} {fields : List Field}
    {found : List Protobuf.Field} (short : buf.length < 2 ^ 32)
    (checked : readFieldsFrom fuel buf = .ok fields)
    (standard : Protobuf.readFields fuel buf = some found)
    : found = fields.map Field.narrow := by
  induction fuel generalizing buf fields found with
  | zero =>
      cases buf with
      | nil =>
          cases checked
          simpa [Protobuf.readFields] using standard.symm
      | cons => cases standard
  | succ fuel ih =>
      cases buf with
      | nil =>
          cases checked
          simpa [Protobuf.readFields] using standard.symm
      | cons byte others =>
          unfold Protobuf.readFields at standard
          split at standard
          · cases standard
          case h_2 tag rest tagged =>
            obtain ⟨⟨key, behind⟩, number, same⟩ := Option.map_eq_some_iff.mp tagged
            obtain ⟨rfl, rfl⟩ := Prod.mk.inj same
            have whole := varint_whole number
            have shorter := varint_shortens whole
            have wire : key % 2 ^ 32 % 8 = key % 8 := Nat.mod_mod_of_dvd _ (by decide)
            have numbered : key % 2 ^ 32 / 8 = key / 8 % 2 ^ 29 := by omega
            simp only [readFieldsFrom, whole, bind, Except.bind, pure, Except.pure] at checked
            rw [wire, numbered] at standard
            split at standard
            · cases standard
            split at standard
            case h_1 group =>
              simp [group] at checked
            case h_2 =>
              split at standard
              · cases standard
              case h_2 payload later found =>
                obtain ⟨tail, more, rfl⟩ := Option.map_eq_some_iff.mp standard
                -- The rest of the message is shorter, and both readers go on with it.
                have step : ∀ {f : Field}, f.narrow = ⟨key / 8 % 2 ^ 29, payload⟩
                    → later.length ≤ behind.length
                    → (readFieldsFrom fuel later).map (f :: ·) = .ok fields
                    → { number := key / 8 % 2 ^ 29, payload } :: tail
                      = fields.map Field.narrow := by
                  intro f same length others
                  cases checkedTail : readFieldsFrom fuel later with
                  | error err =>
                      rw [checkedTail] at others
                      cases others
                  | ok fs =>
                      rw [checkedTail] at others
                      obtain rfl := Except.ok.inj others
                      rw [List.map_cons, same, ih (by omega) checkedTail more]
                rcases readPayload_cases found with
                  ⟨value, type, rfl, number⟩ | ⟨type, rfl, rfl⟩
                    | ⟨length, content, type, rfl, number, rfl⟩ | ⟨type, rfl, rfl⟩
                · have numberShorter := varint_shortens (varint_whole number)
                  simp only [type, varint_whole number, if_true] at checked
                  exact step rfl (by omega) checked
                · simp only [type, OfNat.one_ne_ofNat, Nat.one_ne_zero, if_false, if_true]
                    at checked
                  exact step rfl (by simp) checked
                · have numberShorter := varint_shortens (varint_whole number)
                  simp only [type, OfNat.ofNat_ne_zero, varint_whole number, if_false, if_true]
                    at checked
                  split at checked
                  · cases checked
                  case isFalse long =>
                    have small : length % 2 ^ 32 = length := Nat.mod_eq_of_lt (by omega)
                    rw [small] at step ⊢
                    exact step rfl (by simp; omega) checked
                · simp only [type, if_true] at checked
                  exact step rfl (by simp) checked

/-- A body whose hash is signed means the transfer that was authorized exactly where both readers
find the fields of its contract and the last occurrence of each that is read says what the first
one says. It is so for every plain body. What both readers find in a message below 4 GiB are the
same fields, for the network with tags of 32 and numbers of 64 bits.
-/
theorem accepted_means_intent (hashing : TxHashing) (txID : Option String) (raw digest : Bytes)
    (intent : TronTransferIntent)
    (accepted : verifiedTronSigningHash hashing (nodeTransaction txID raw) intent = .ok digest)
    : (MeansIntent hashing intent raw ↔ FieldsAgree raw)
      ∧ (PlainBody raw → MeansIntent hashing intent raw)
      ∧ ∀ buf fields found, buf.length < 2 ^ 32 → readFields buf = .ok fields
        → read buf = some found → found = fields.map Field.narrow := by
  obtain ⟨contract, first, authorized⟩ := firstReading_of_accepted accepted
  refine ⟨⟨?_, ?_⟩,
    fun plain => ⟨contract, (networkReading_of_plain plain).trans first, authorized⟩,
    fun buf fields found short => readFieldsFrom_narrow short⟩
  · rintro ⟨meant, reads, again⟩
    obtain rfl := again.unique authorized
    rw [networkReading_eq] at reads
    rw [firstReading_eq] at first
    obtain ⟨⟨entry, message⟩, network, rfl⟩ := Option.map_eq_some_iff.mp reads
    obtain ⟨⟨c, f⟩, checked, same⟩ := Option.map_eq_some_iff.mp first
    obtain ⟨type, owner, second, amount, data⟩ := contractOf_inj (same ▸ authorized) same.symm
    refine ⟨entry, message, c, f, network, checked, type, owner, second, amount, fun token => ?_⟩
    exact data (by exact_mod_cast token)
  · rintro ⟨entry, message, c, f, network, checked, agree⟩
    refine ⟨contract, ?_, authorized⟩
    rw [← first, networkReading_eq, firstReading_eq, network, checked]
    exact congrArg some agree.reading

-----------------------------------------------------------------------------
-- A body with two amounts

/-- A field of bytes, for a small number and a short content. -/
def lengthField (number : UInt8) (content : Bytes) : Bytes :=
  (8 * number + 2) :: UInt8.ofNat content.length :: content

def sampleOwner : Bytes := 0x41 :: List.replicate 20 0x11

def sampleRecipient : Bytes := 0x41 :: List.replicate 20 0x22

/-- A native transfer of 5, with what stands behind it in the message. -/
def transferBody (behind : Bytes) : Bytes :=
  let message := lengthField 1 sampleOwner ++ lengthField 2 sampleRecipient ++ [0x18, 5] ++ behind
  lengthField 11 ([0x08, 1] ++ lengthField 2 (lengthField 2 message))

def sampleIntent : TronTransferIntent :=
  { ownerHex := "411111111111111111111111111111111111111111"
    toHex := "412222222222222222222222222222222222222222", amountBaseUnits := 5
    contractHex := none }

/-- Small letters stay, and the two bodies have the hashes that they have. -/
def sampleHashing : TxHashing where
  toLowerCase text := text.map Char.toLower
  toLowerCase_of_lowerHex text lower := by
    unfold isLowerHex at lower
    rw [List.all_eq_true] at lower
    refine (List.map_congr_left fun digit member => ?_).trans (List.map_id text)
    have small := lower digit member
    simp only [Bool.or_eq_true, Bool.and_eq_true, decide_eq_true_eq, Char.isDigit] at small
    have kept : ¬ (digit.val ≥ 'A'.val ∧ digit.val ≤ 'Z'.val) := by
      rintro ⟨low, high⟩
      rcases small with ⟨-, atMost⟩ | ⟨atLeast, -⟩
      · exact absurd (UInt32.le_trans low atMost) (by decide)
      · exact absurd (UInt32.le_trans atLeast high) (by decide)
    unfold Char.toLower
    exact dif_neg kept
  sha256 raw :=
    if raw = transferBody [0x18, 100] then
      [ 0xe8, 0xe9, 0xf4, 0xa1, 0xb1, 0xb3, 0x79, 0x5f, 0xba, 0x2e, 0xe9, 0x38,
        0xb3, 0x99, 0x8f, 0x3f, 0x6c, 0xf6, 0x93, 0x02, 0x6d, 0x60, 0x9e, 0x39,
        0xd2, 0x50, 0x99, 0x77, 0xda, 0x5a, 0xba, 0xc5 ]
    else
      [ 0xd6, 0xdf, 0x17, 0x61, 0x3e, 0x02, 0x02, 0x4c, 0x41, 0xfc, 0x86, 0xe4,
        0x59, 0x36, 0xd8, 0x10, 0xfe, 0x71, 0xba, 0x5b, 0xec, 0x25, 0xec, 0xe3,
        0xde, 0xdf, 0x01, 0x9b, 0xbd, 0xd2, 0x94, 0x6b ]

/-- The body of a transfer of 5 with a second amount, 100, is signed as a transfer of 5. -/
theorem second_amount_signed
    : ¬ ∀ (hashing : TxHashing) (txID : Option String) (raw digest : Bytes)
          (intent : TronTransferIntent),
        verifiedTronSigningHash hashing (nodeTransaction txID raw) intent = .ok digest
        → MeansIntent hashing intent raw := by
  intro means
  have accepted : verifiedTronSigningHash sampleHashing
        (nodeTransaction
          (some "e8e9f4a1b1b3795fba2ee938b3998f3f6cf693026d609e39d2509977da5abac5")
          (transferBody [0x18, 100])) sampleIntent
      = .ok (sampleHashing.sha256 (transferBody [0x18, 100])) := by
    decide +kernel
  obtain ⟨contract, reads, authorized⟩ := means _ _ _ _ _ accepted
  have network : networkReading (transferBody [0x18, 100])
      = some (.transfer sampleOwner sampleRecipient 100) := by
    decide +kernel
  rw [network] at reads
  obtain rfl := Option.some.inj reads
  have sum : (100 : Int) = 5 := authorized.2.2.2
  cases sum

/-- The body of a transfer of 5 is signed, and means a transfer of 5. -/
theorem accepted_means_intent_plain : MeansIntent sampleHashing sampleIntent (transferBody []) := by
  have accepted : verifiedTronSigningHash sampleHashing
        (nodeTransaction
          (some "d6df17613e02024c41fc86e45936d810fe71ba5bec25ece3dedf019bbdd2946b")
          (transferBody [])) sampleIntent
      = .ok (sampleHashing.sha256 (transferBody [])) := by
    decide +kernel
  refine (accepted_means_intent _ _ _ _ _ accepted).1.mpr
    ⟨_, _, _, _, rfl, rfl, by decide +kernel, by decide +kernel, by decide +kernel,
      by decide +kernel, by decide +kernel⟩

end Cixtech.Tron.TxVerify
