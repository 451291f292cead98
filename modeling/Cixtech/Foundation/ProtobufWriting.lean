import Cixtech.Foundation.Protobuf

/-! Messages in the wire format as they are written: a list of fields, each number in any of
the ways that ten bytes allow. The writer takes the shortest.
-/

namespace Cixtech.Foundation.Protobuf

/-- What is written behind a tag. -/
inductive Content
  | varint (value : Nat)
  | fixed64 (octets : Bytes)
  | bytes (content : Bytes)
  | fixed32 (octets : Bytes)
  deriving DecidableEq, Repr

namespace Content

/-- The wire type. -/
def wire : Content → Nat
  | .varint _ => 0
  | .fixed64 _ => 1
  | .bytes _ => 2
  | .fixed32 _ => 5

theorem wire_lt (content : Content) : content.wire < 8 := by
  cases content <;> simp [wire]

/-- Numbers have at most 64 bits, lengths 31, and a fixed width is kept. -/
def Fits : Content → Prop
  | .varint value => value < 2 ^ 64
  | .fixed64 octets => octets.length = 8
  | .bytes content => content.length < 2 ^ 31
  | .fixed32 octets => octets.length = 4

end Content

structure WireField where
  number : Nat
  content : Content
  deriving DecidableEq, Repr

namespace WireField

def tag (field : WireField) : Nat := 8 * field.number + field.content.wire

theorem tag_div (field : WireField) : field.tag / 8 = field.number := by
  have small := field.content.wire_lt
  rw [tag]
  omega

theorem tag_mod (field : WireField) : field.tag % 8 = field.content.wire := by
  have small := field.content.wire_lt
  rw [tag]
  omega

/-- A field number has 29 bits and is not zero. -/
def Fits (field : WireField) : Prop :=
  0 < field.number ∧ field.number < 2 ^ 29 ∧ field.content.Fits

end WireField

-----------------------------------------------------------------------------
-- Numbers

/-- A number in base 128, least significant byte first, in as few bytes as it takes. -/
def writeVarint (value : Nat) : Bytes :=
  if value < 128 then [UInt8.ofNat value]
  else UInt8.ofNat (value % 128 + 128) :: writeVarint (value / 128)

/-- The bytes are the number, in at most ten of them. -/
def IsVarint (bytes : Bytes) (value : Nat) : Prop := readVarint 10 bytes = some (value, [])

/-- What stands behind a number does not change how it is read, by induction on the bytes that
it may have.
-/
theorem readVarint_append {limit value : Nat} {buf later : Bytes} (behind : Bytes)
    (read : readVarint limit buf = some (value, later))
    : readVarint limit (buf ++ behind) = some (value, later ++ behind) := by
  induction limit generalizing buf value with
  | zero => cases read
  | succ limit ih =>
      cases buf with
      | nil => cases read
      | cons byte rest =>
          rw [List.cons_append]
          unfold readVarint at read ⊢
          split
          case isTrue last =>
            rw [if_pos last] at read
            cases read
            rfl
          case isFalse more =>
            rw [if_neg more] at read
            cases higher : readVarint limit rest with
            | none =>
                rw [higher] at read
                cases read
            | some found =>
                rw [higher] at read
                cases read
                rw [ih higher]

theorem IsVarint.read {bytes : Bytes} {value : Nat} (written : IsVarint bytes value)
    (behind : Bytes)
    : readVarint 10 (bytes ++ behind) = some (value, behind) :=
  readVarint_append behind written

theorem readVarint_writeVarint {limit value : Nat} (fits : value < 128 ^ (limit + 1))
    : readVarint (limit + 1) (writeVarint value) = some (value, []) := by
  induction limit generalizing value with
  | zero =>
      have small : value < 128 := by simpa using fits
      have byte : (UInt8.ofNat value).toNat = value := by
        rw [UInt8.toNat_ofNat']
        omega
      rw [writeVarint, if_pos small, readVarint, byte, if_pos small]
  | succ limit ih =>
      by_cases small : value < 128
      · have byte : (UInt8.ofNat value).toNat = value := by
          rw [UInt8.toNat_ofNat']
          omega
        rw [writeVarint, if_pos small, readVarint, byte, if_pos small]
      · have byte : (UInt8.ofNat (value % 128 + 128)).toNat = value % 128 + 128 := by
          rw [UInt8.toNat_ofNat']
          omega
        have more : ¬ value % 128 + 128 < 128 := by omega
        have higher : value / 128 < 128 ^ (limit + 1) := by
          rw [Nat.pow_succ] at fits
          omega
        rw [writeVarint, if_neg small, readVarint, byte, if_neg more, ih higher]
        simp only [Option.some.injEq, Prod.mk.injEq, and_true]
        omega

/-- A number of at most 64 bits is written in at most ten bytes. -/
theorem isVarint_writeVarint {value : Nat} (fits : value < 2 ^ 64)
    : IsVarint (writeVarint value) value :=
  readVarint_writeVarint (by omega)

theorem length_writeVarint_le {limit value : Nat} (fits : value < 128 ^ (limit + 1))
    : (writeVarint value).length ≤ limit + 1 := by
  induction limit generalizing value with
  | zero =>
      have small : value < 128 := by simpa using fits
      rw [writeVarint, if_pos small]
      rfl
  | succ limit ih =>
      by_cases small : value < 128
      · rw [writeVarint, if_pos small]
        simp
      · have higher : value / 128 < 128 ^ (limit + 1) := by
          rw [Nat.pow_succ] at fits
          omega
        rw [writeVarint, if_neg small]
        exact Nat.succ_le_succ (ih higher)

theorem IsVarint.ne_nil {bytes : Bytes} {value : Nat} (written : IsVarint bytes value)
    : bytes ≠ [] := by
  rintro rfl
  cases written

-----------------------------------------------------------------------------
-- Fields

/-- The bytes are the content, each number in one of its ways. -/
inductive ContentBytes : Content → Bytes → Prop
  | varint {value : Nat} {digits : Bytes} (written : IsVarint digits value)
    : ContentBytes (.varint value) digits
  | fixed64 (octets : Bytes) : ContentBytes (.fixed64 octets) octets
  | bytes {content size : Bytes} (written : IsVarint size content.length)
    : ContentBytes (.bytes content) (size ++ content)
  | fixed32 (octets : Bytes) : ContentBytes (.fixed32 octets) octets

/-- The bytes are a well-formed message of the fields. -/
inductive Encodes : List WireField → Bytes → Prop
  | nil : Encodes [] []
  | cons {field : WireField} {fields : List WireField} {tag content rest : Bytes}
      (fits : field.Fits) (tagged : IsVarint tag field.tag)
      (held : ContentBytes field.content content) (later : Encodes fields rest)
    : Encodes (field :: fields) (tag ++ (content ++ rest))

def writeContent : Content → Bytes
  | .varint value => writeVarint value
  | .fixed64 octets => octets
  | .bytes content => writeVarint content.length ++ content
  | .fixed32 octets => octets

/-- The canonical encoding: each field once, in order, each number in its shortest form. -/
def write (fields : List WireField) : Bytes :=
  fields.flatMap fun field => writeVarint field.tag ++ writeContent field.content

theorem contentBytes_writeContent {content : Content} (fits : content.Fits)
    : ContentBytes content (writeContent content) := by
  cases content with
  | varint value => exact .varint (isVarint_writeVarint fits)
  | fixed64 octets => exact .fixed64 octets
  | bytes content =>
      have short : content.length < 2 ^ 31 := fits
      exact .bytes (isVarint_writeVarint (by omega))
  | fixed32 octets => exact .fixed32 octets

theorem encodes_write {fields : List WireField} (fits : ∀ field ∈ fields, field.Fits)
    : Encodes fields (write fields) := by
  induction fields with
  | nil => exact .nil
  | cons field rest ih =>
      obtain ⟨own, others⟩ := List.forall_mem_cons.mp fits
      have tag : field.tag < 2 ^ 64 := by
        have number := own.2.1
        have wire := field.content.wire_lt
        rw [WireField.tag]
        omega
      simp only [write, List.flatMap_cons, List.append_assoc]
      exact .cons own (isVarint_writeVarint tag) (contentBytes_writeContent own.2.2) (ih others)

/-- How many bytes a field takes at most: ten for its tag and ten for a number, and what it
holds.
-/
def WireField.room (field : WireField) : Nat :=
  20
  + match field.content with
    | .varint _ => 0
    | .fixed64 octets => octets.length
    | .bytes content => content.length
    | .fixed32 octets => octets.length

theorem length_write_le {fields : List WireField} (fits : ∀ field ∈ fields, field.Fits)
    : (write fields).length ≤ (fields.map WireField.room).sum := by
  induction fields with
  | nil => rfl
  | cons field rest ih =>
      obtain ⟨own, others⟩ := List.forall_mem_cons.mp fits
      have tag : (writeVarint field.tag).length ≤ 9 + 1 := by
        refine length_writeVarint_le ?_
        have number := own.2.1
        have wire := field.content.wire_lt
        rw [WireField.tag]
        omega
      have held : (writeContent field.content).length + 10 ≤ field.room := by
        have kept := own.2.2
        unfold WireField.room
        cases content : field.content with
        | varint value =>
            rw [content] at kept
            have digits : (writeVarint value).length ≤ 9 + 1 := by
              refine length_writeVarint_le ?_
              have small : value < 2 ^ 64 := kept
              omega
            simp only [writeContent]
            omega
        | fixed64 octets =>
            simp only [writeContent]
            omega
        | bytes inner =>
            rw [content] at kept
            have size : (writeVarint inner.length).length ≤ 9 + 1 := by
              refine length_writeVarint_le ?_
              have short : inner.length < 2 ^ 31 := kept
              omega
            simp only [writeContent, List.length_append]
            omega
        | fixed32 octets =>
            simp only [writeContent]
            omega
      have rest := ih others
      simp only [write, List.flatMap_cons, List.length_append, List.map_cons,
        List.sum_cons] at rest ⊢
      omega

end Cixtech.Foundation.Protobuf
