import Mathlib.Algebra.Ring.Int.Defs
import Mathlib.Algebra.Ring.Nat
import Mathlib.Data.List.Basic

/-! The wire format of Protocol Buffers as its standard readers read it: tags of 32 bits,
varints of at most ten bytes whose value is taken to 64 bits, the last occurrence of a
singular field, and embedded messages that occur several times merged into one.
-/

namespace Cixtech.Foundation.Protobuf

abbrev Bytes := List UInt8

/-- What stands behind a tag. Nothing reads the content of a fixed-width field here. -/
inductive Payload
  | varint (value : Nat)
  | fixed
  | bytes (content : Bytes)
  deriving DecidableEq, Repr

structure Field where
  number : Nat
  payload : Payload
  deriving DecidableEq, Repr

/-- A number of at most as many bytes in base 128, least significant first, with what follows
it.
-/
def readVarint : Nat → Bytes → Option (Nat × Bytes)
  | 0, _ => none
  | _ + 1, [] => none
  | limit + 1, byte :: rest =>
      if byte.toNat < 128 then some (byte.toNat, rest)
      else
        match readVarint limit rest with
        | none => none
        | some (value, later) => some (byte.toNat % 128 + 128 * value, later)

/-- A tag: eight times the field number, plus the wire type. -/
def readTag (buf : Bytes) : Option (Nat × Bytes) :=
  (readVarint 10 buf).map fun (tag, rest) => (tag % 2 ^ 32, rest)

/-- What stands behind a tag of a wire type that is no group. A length is a signed number of
32 bits.
-/
def readPayload (wire : Nat) (buf : Bytes) : Option (Payload × Bytes) :=
  match wire with
  | 0 =>
      match readVarint 10 buf with
      | none => none
      | some (value, rest) => some (.varint (value % 2 ^ 64), rest)
  | 1 => if buf.length < 8 then none else some (.fixed, buf.drop 8)
  | 2 =>
      match readVarint 10 buf with
      | none => none
      | some (value, rest) =>
          let length := value % 2 ^ 32
          if 2 ^ 31 ≤ length ∨ rest.length < length then none
          else some (.bytes (rest.take length), rest.drop length)
  | 5 => if buf.length < 4 then none else some (.fixed, buf.drop 4)
  | _ => none

/-- Skip to the end of the group of a field, whose start tag was just read. -/
def skipGroup : Nat → Nat → Bytes → Option Bytes
  | 0, _, _ => none
  | fuel + 1, number, buf =>
      match readTag buf with
      | none => none
      | some (tag, rest) =>
          match tag % 8 with
          | 3 => (skipGroup fuel (tag / 8) rest).bind (skipGroup fuel number)
          | 4 => if tag / 8 = number then some rest else none
          | wire =>
              match readPayload wire rest with
              | none => none
              | some (_, later) => skipGroup fuel number later

/-- The fields of a message in order, its groups skipped. A field takes a byte at least, so the
length of the message is fuel enough.
-/
def readFields : Nat → Bytes → Option (List Field)
  | _, [] => some []
  | 0, _ :: _ => none
  | fuel + 1, byte :: others =>
      match readTag (byte :: others) with
      | none => none
      | some (tag, rest) =>
          if tag / 8 = 0 then none
          else
            match tag % 8 with
            | 3 => (skipGroup fuel (tag / 8) rest).bind (readFields fuel)
            | wire =>
                match readPayload wire rest with
                | none => none
                | some (payload, later) =>
                    (readFields fuel later).map fun fields =>
                      { number := tag / 8, payload } :: fields

/-- Read a message. -/
def read (buf : Bytes) : Option (List Field) := readFields buf.length buf

namespace Field

def varint? (number : Nat) (field : Field) : Option Nat :=
  match field.payload with
  | .varint value => if field.number = number then some value else none
  | _ => none

def bytes? (number : Nat) (field : Field) : Option Bytes :=
  match field.payload with
  | .bytes content => if field.number = number then some content else none
  | _ => none

end Field

/-- A singular number: the last occurrence, zero where there is none. -/
def lastVarint (number : Nat) (fields : List Field) : Nat :=
  (fields.filterMap (Field.varint? number)).getLast?.getD 0

/-- Every occurrence of a field that is read as bytes. -/
def allBytes (number : Nat) (fields : List Field) : List Bytes :=
  fields.filterMap (Field.bytes? number)

/-- Singular bytes: the last occurrence, empty where there is none. -/
def lastBytes (number : Nat) (fields : List Field) : Bytes :=
  (allBytes number fields).getLast?.getD []

/-- A singular message: its occurrences are read one by one and merged. -/
def embedded (number : Nat) (fields : List Field) : Option (List Field) :=
  ((allBytes number fields).mapM read).map List.flatten

/-- The signed number of 64 bits that a varint is read as. -/
def toInt64 (value : Nat) : Int := if value < 2 ^ 63 then value else (value : Int) - 2 ^ 64

/-- The signed number of 32 bits that a varint is read as, as enumerations are. -/
def toInt32 (value : Nat) : Int :=
  if value % 2 ^ 32 < 2 ^ 31 then (value % 2 ^ 32 : Nat) else (value % 2 ^ 32 : Nat) - 2 ^ 32

/-- What a payload holds, and what is read to get it. -/
theorem readPayload_cases {wire : Nat} {buf later : Bytes} {payload : Payload}
    (found : readPayload wire buf = some (payload, later))
    : (∃ value, wire = 0 ∧ payload = .varint (value % 2 ^ 64)
        ∧ readVarint 10 buf = some (value, later))
      ∨ (wire = 1 ∧ payload = .fixed ∧ later = buf.drop 8)
      ∨ (∃ length rest, wire = 2 ∧ payload = .bytes (rest.take (length % 2 ^ 32))
          ∧ readVarint 10 buf = some (length, rest)
          ∧ later = rest.drop (length % 2 ^ 32))
      ∨ (wire = 5 ∧ payload = .fixed ∧ later = buf.drop 4) := by
  unfold readPayload at found
  split at found
  · split at found
    · cases found
    case h_2 value rest read =>
      cases found
      exact .inl ⟨value, rfl, rfl, read⟩
  · split at found
    · cases found
    · cases found
      exact .inr (.inl ⟨rfl, rfl, rfl⟩)
  · split at found
    · cases found
    case h_2 length rest read =>
      dsimp only at found
      split at found
      · cases found
      · cases found
        exact .inr (.inr (.inl ⟨length, rest, rfl, rfl, read, rfl⟩))
  · split at found
    · cases found
    · cases found
      exact .inr (.inr (.inr ⟨rfl, rfl, rfl⟩))
  · cases found

-----------------------------------------------------------------------------
-- Messages that leave a reader no choice

/-- A number in at most ten bytes that is below the bound. -/
def readBelow (bound : Nat) (buf : Bytes) : Option (Nat × Bytes) :=
  match readVarint 10 buf with
  | none => none
  | some (value, rest) => if value < bound then some (value, rest) else none

/-- A payload whose numbers have no more bits than their type. -/
def readPayloadStrict (wire : Nat) (buf : Bytes) : Option (Payload × Bytes) :=
  match wire with
  | 0 =>
      match readBelow (2 ^ 64) buf with
      | none => none
      | some (value, rest) => some (.varint value, rest)
  | 1 => if buf.length < 8 then none else some (.fixed, buf.drop 8)
  | 2 =>
      match readBelow (2 ^ 31) buf with
      | none => none
      | some (length, rest) =>
          if rest.length < length then none else some (.bytes (rest.take length), rest.drop length)
  | 5 => if buf.length < 4 then none else some (.fixed, buf.drop 4)
  | _ => none

/-- The fields of a message without groups whose tags and numbers have no more bits than
their types.
-/
def readFieldsStrict : Nat → Bytes → Option (List Field)
  | _, [] => some []
  | 0, _ :: _ => none
  | fuel + 1, byte :: others =>
      match readBelow (2 ^ 32) (byte :: others) with
      | none => none
      | some (tag, rest) =>
          if tag / 8 = 0 then none
          else
            match readPayloadStrict (tag % 8) rest with
            | none => none
            | some (payload, later) =>
                (readFieldsStrict fuel later).map fun fields =>
                  { number := tag / 8, payload } :: fields

def readStrict (buf : Bytes) : Option (List Field) := readFieldsStrict buf.length buf

theorem readBelow_eq_some {bound value : Nat} {buf rest : Bytes}
    : readBelow bound buf = some (value, rest)
      ↔ readVarint 10 buf = some (value, rest) ∧ value < bound := by
  unfold readBelow
  cases found : readVarint 10 buf with
  | none => simp
  | some read =>
      obtain ⟨number, later⟩ := read
      by_cases below : number < bound
      · simp only [below, if_true, Option.some.injEq, Prod.mk.injEq]
        constructor
        · rintro ⟨rfl, rfl⟩
          exact ⟨⟨rfl, rfl⟩, below⟩
        · exact And.left
      · simp only [below, if_false, Option.some.injEq, Prod.mk.injEq]
        constructor
        · rintro ⟨⟩
        · rintro ⟨⟨rfl, -⟩, small⟩
          exact absurd small below

/-- What a strict payload holds, and what is read to get it. -/
theorem readPayloadStrict_cases {wire : Nat} {buf later : Bytes} {payload : Payload}
    (found : readPayloadStrict wire buf = some (payload, later))
    : (∃ value, wire = 0 ∧ payload = .varint value ∧ value < 2 ^ 64
        ∧ readVarint 10 buf = some (value, later))
      ∨ (wire = 1 ∧ payload = .fixed ∧ 8 ≤ buf.length ∧ later = buf.drop 8)
      ∨ (∃ length rest, wire = 2 ∧ payload = .bytes (rest.take length) ∧ length < 2 ^ 31
          ∧ length ≤ rest.length
          ∧ readVarint 10 buf = some (length, rest)
          ∧ later = rest.drop length)
      ∨ (wire = 5 ∧ payload = .fixed ∧ 4 ≤ buf.length ∧ later = buf.drop 4) := by
  unfold readPayloadStrict at found
  split at found
  · split at found
    · cases found
    case h_2 value rest below =>
      cases found
      obtain ⟨read, small⟩ := readBelow_eq_some.mp below
      exact .inl ⟨value, rfl, rfl, small, read⟩
  · split at found
    · cases found
    case isFalse long =>
      cases found
      exact .inr (.inl ⟨rfl, rfl, by omega, rfl⟩)
  · split at found
    · cases found
    case h_2 length rest below =>
      split at found
      · cases found
      case isFalse long =>
        cases found
        obtain ⟨read, small⟩ := readBelow_eq_some.mp below
        exact .inr (.inr (.inl ⟨length, rest, rfl, rfl, small, by omega, read, rfl⟩))
  · split at found
    · cases found
    case isFalse long =>
      cases found
      exact .inr (.inr (.inr ⟨rfl, rfl, by omega, rfl⟩))
  · cases found

theorem readPayload_of_strict {wire : Nat} {buf later : Bytes} {payload : Payload}
    (found : readPayloadStrict wire buf = some (payload, later))
    : readPayload wire buf = some (payload, later) ∧ wire ≠ 3 := by
  rcases readPayloadStrict_cases found with
    ⟨value, rfl, rfl, small, read⟩ | ⟨rfl, rfl, long, rfl⟩
      | ⟨length, rest, rfl, rfl, small, long, read, rfl⟩ | ⟨rfl, rfl, long, rfl⟩
  · refine ⟨?_, by decide⟩
    simp only [readPayload, read, Nat.mod_eq_of_lt small]
  · simp [readPayload, Nat.not_lt.mpr long]
  · have below : length % 2 ^ 32 = length := Nat.mod_eq_of_lt (by omega)
    have fits : ¬ (2 ^ 31 ≤ length ∨ rest.length < length) := by omega
    refine ⟨?_, by decide⟩
    simp only [readPayload, read, below, if_neg fits]
  · simp [readPayload, Nat.not_lt.mpr long]

/-- A strict message is read as it is by the standard reader, by induction on the fuel. -/
theorem readFields_of_strict {fuel : Nat} {buf : Bytes} {fields : List Field}
    (strict : readFieldsStrict fuel buf = some fields)
    : readFields fuel buf = some fields := by
  induction fuel generalizing buf fields with
  | zero =>
      cases buf with
      | nil => simpa [readFieldsStrict, readFields] using strict
      | cons => cases strict
  | succ fuel ih =>
      cases buf with
      | nil => simpa [readFieldsStrict, readFields] using strict
      | cons byte others =>
          unfold readFieldsStrict at strict
          split at strict
          · cases strict
          case h_2 tag rest below =>
            obtain ⟨read, small⟩ := readBelow_eq_some.mp below
            have tagged : readTag (byte :: others) = some (tag, rest) := by
              simp only [readTag, read, Option.map_some, Nat.mod_eq_of_lt small]
            split at strict
            · cases strict
            case isFalse numbered =>
              split at strict
              · cases strict
              case h_2 payload later found =>
                obtain ⟨tail, read, rfl⟩ := Option.map_eq_some_iff.mp strict
                obtain ⟨same, ordinary⟩ := readPayload_of_strict found
                simp only [readFields, tagged, if_neg numbered, same, ih read, Option.map_some]

theorem read_of_strict {buf : Bytes} {fields : List Field}
    (strict : readStrict buf = some fields)
    : read buf = some fields :=
  readFields_of_strict strict

end Cixtech.Foundation.Protobuf
