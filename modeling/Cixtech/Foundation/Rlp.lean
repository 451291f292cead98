import Cixtech.Foundation.BigEndian

/-! The recursive length prefix: byte strings and lists of them, nested to any depth, as bytes.
A strict reader finds what was written and where it ends, so that the bytes determine it.
-/

namespace Cixtech.Foundation.Rlp

open BigEndian

inductive Item
  | bytes (content : List UInt8)
  | list (items : List Item)

/-- What stands in front of a payload, by its kind and its length. -/
def lengthPrefix (offset length : Nat) : List UInt8 :=
  if length < 56 then [UInt8.ofNat (offset + length)]
  else UInt8.ofNat (offset + 55 + (minimal length).length) :: minimal length

/-- A byte string; one byte below 0x80 is its own encoding. -/
def encodeBytes (content : List UInt8) : List UInt8 :=
  match content with
  | [byte] => if byte.toNat < 0x80 then [byte] else lengthPrefix 0x80 1 ++ [byte]
  | content => lengthPrefix 0x80 content.length ++ content

mutual

def encode : Item → List UInt8
  | .bytes content => encodeBytes content
  | .list items => lengthPrefix 0xc0 (encodeAll items).length ++ encodeAll items

def encodeAll : List Item → List UInt8
  | [] => []
  | item :: items => encode item ++ encodeAll items

end

/-- The bytes that the prefix of an item counts. -/
def Item.payload : Item → List UInt8
  | .bytes content => content
  | .list items => encodeAll items

/-- As many bytes as a length says, and those behind them. -/
def split (length : Nat) (buf : List UInt8) : Option (List UInt8 × List UInt8) :=
  if buf.length < length then none else some (buf.take length, buf.drop length)

/-- The payload behind a prefix whose first byte has been read. A length is spelled in as few
bytes as it takes, and only one of 56 or more in bytes of its own.
-/
def readPayload (offset head : Nat) (rest : List UInt8) : Option (List UInt8 × List UInt8) :=
  if head - offset < 56 then split (head - offset) rest
  else
    (split (head - offset - 55) rest).bind fun (digits, later) =>
      if digits.head? = some 0 ∨ value digits < 56 then none else split (value digits) later

mutual

/-- The item that bytes begin with, and the bytes behind it. -/
def readItem : Nat → List UInt8 → Option (Item × List UInt8)
  | 0, _ => none
  | _ + 1, [] => none
  | fuel + 1, head :: rest =>
      if head.toNat < 0x80 then some (.bytes [head], rest)
      else if head.toNat < 0xc0 then
        (readPayload 0x80 head.toNat rest).bind fun (content, later) =>
          if content.length = 1 ∧ content.all (·.toNat < 0x80) then none
          else some (.bytes content, later)
      else
        (readPayload 0xc0 head.toNat rest).bind fun (payload, later) =>
          (readItems fuel payload).map fun items => (.list items, later)

/-- The items that a payload is made of. -/
def readItems : Nat → List UInt8 → Option (List Item)
  | _, [] => some []
  | 0, _ :: _ => none
  | fuel + 1, byte :: rest =>
      (readItem fuel (byte :: rest)).bind fun (item, later) =>
        (readItems fuel later).map fun items => item :: items

end

/-- Read one item in front. A level takes a byte at least, and each item of a list another, so
that twice the length is fuel enough.
-/
def decode (buf : List UInt8) : Option (Item × List UInt8) := readItem (2 * buf.length) buf

-----------------------------------------------------------------------------
-- Prefixes

@[simp]
theorem split_append (content rest : List UInt8)
    : split content.length (content ++ rest) = some (content, rest) := by
  simp [split]

theorem length_digits_le {length : Nat} (fits : length < 2 ^ 64)
    : (minimal length).length ≤ 8 :=
  length_minimal_le.mpr (by simpa using fits)

/-- A prefix is a byte of its kind's range, and is read back with the payload behind it. -/
theorem lengthPrefix_spec (offset : Nat) {payload : List UInt8} (fits : payload.length < 2 ^ 64)
    (room : offset + 63 < 256)
    : ∃ head digits,
      lengthPrefix offset payload.length = head :: digits
      ∧ offset ≤ head.toNat
      ∧ head.toNat ≤ offset + 63
      ∧ ∀ rest,
        readPayload offset head.toNat (digits ++ (payload ++ rest)) = some (payload, rest) := by
  unfold lengthPrefix
  split
  case isTrue short =>
    have head : (UInt8.ofNat (offset + payload.length)).toNat = offset + payload.length := by
      rw [toNat_ofNat]
      omega
    refine ⟨_, [], rfl, by omega, by omega, fun rest => ?_⟩
    rw [readPayload, head, Nat.add_sub_cancel_left, if_pos short, List.nil_append, split_append]
  case isFalse long =>
    have width := length_digits_le fits
    have some_ : 0 < (minimal payload.length).length := by
      rw [List.length_pos_iff, ne_eq, minimal_eq_nil]
      omega
    have head : (UInt8.ofNat (offset + 55 + (minimal payload.length).length)).toNat
        = offset + 55 + (minimal payload.length).length := by
      rw [toNat_ofNat]
      omega
    refine ⟨_, _, rfl, by omega, by omega, fun rest => ?_⟩
    have beyond : offset + 55 + (minimal payload.length).length - offset
        = 55 + (minimal payload.length).length := by omega
    have strict : ¬ ((minimal payload.length).head? = some 0
        ∨ value (minimal payload.length) < 56) := by
      rw [value_minimal]
      exact not_or.mpr ⟨head?_minimal _, long⟩
    rw [readPayload, head, beyond, if_neg (by omega), Nat.add_sub_cancel_left, split_append,
      Option.bind_some]
    dsimp only
    rw [if_neg strict, value_minimal, split_append]

theorem length_lengthPrefix_pos (offset length : Nat)
    : 0 < (lengthPrefix offset length).length := by
  unfold lengthPrefix
  split <;> simp

theorem encodeBytes_of_small {byte : UInt8} (small : byte.toNat < 0x80)
    : encodeBytes [byte] = [byte] :=
  if_pos small

theorem encodeBytes_of_prefixed {content : List UInt8}
    (prefixed : ¬ (content.length = 1 ∧ content.all (·.toNat < 0x80)))
    : encodeBytes content = lengthPrefix 0x80 content.length ++ content := by
  unfold encodeBytes
  split
  case h_1 byte => exact if_neg (by simpa using prefixed)
  case h_2 => rfl

-----------------------------------------------------------------------------
-- Reading what was written

/-- An item takes a byte at least, and no fewer than its payload. -/
theorem length_encode (item : Item)
    : 0 < (encode item).length ∧ item.payload.length ≤ (encode item).length := by
  have positive := length_lengthPrefix_pos
  cases item with
  | bytes content =>
      by_cases small : content.length = 1 ∧ content.all (·.toNat < 0x80)
      · obtain ⟨byte, rfl⟩ := List.length_eq_one_iff.mp small.1
        have below : byte.toNat < 0x80 := by simpa using small.2
        simp [encode, Item.payload, encodeBytes_of_small below]
      · rw [encode, encodeBytes_of_prefixed small, List.length_append]
        have some_ := positive 0x80 content.length
        exact ⟨by omega, Nat.le_add_left _ _⟩
  | list items =>
      rw [encode, List.length_append]
      have some_ := positive 0xc0 (encodeAll items).length
      exact ⟨by omega, Nat.le_add_left _ _⟩

mutual

/-- An item is read back in front of any bytes, by induction on it. -/
theorem readItem_encode (item : Item) (fuel : Nat) (fits : item.payload.length < 2 ^ 64)
    (enough : 2 * (encode item).length ≤ fuel + 1) (rest : List UInt8)
    : readItem fuel (encode item ++ rest) = some (item, rest) := by
  have positive := (length_encode item).1
  cases fuel with
  | zero => omega
  | succ fuel =>
      cases item with
      | bytes content =>
          by_cases small : content.length = 1 ∧ content.all (·.toNat < 0x80)
          · obtain ⟨byte, rfl⟩ := List.length_eq_one_iff.mp small.1
            have below : byte.toNat < 0x80 := by simpa using small.2
            rw [encode, encodeBytes_of_small below, List.singleton_append, readItem, if_pos below]
          · obtain ⟨head, digits, whole, least, most, reads⟩ :=
              lengthPrefix_spec 0x80 fits (by decide)
            rw [encode, encodeBytes_of_prefixed small, List.append_assoc]
            rw [Item.payload] at whole reads
            rw [whole, List.cons_append, readItem, if_neg (by omega), if_pos (by omega), reads,
              Option.bind_some]
            exact if_neg small
      | list items =>
          obtain ⟨head, digits, whole, least, most, reads⟩ :=
            lengthPrefix_spec 0xc0 fits (by decide)
          rw [Item.payload] at fits whole reads
          rw [encode, List.length_append] at enough
          have some_ := length_lengthPrefix_pos 0xc0 (encodeAll items).length
          have found := readItems_encodeAll items fuel fits (by omega)
          rw [encode, List.append_assoc, whole, List.cons_append, readItem, if_neg (by omega),
            if_neg (by omega), reads, Option.bind_some]
          simp only [found, Option.map_some]

theorem readItems_encodeAll (items : List Item) (fuel : Nat)
    (fits : (encodeAll items).length < 2 ^ 64) (enough : 2 * (encodeAll items).length ≤ fuel)
    : readItems fuel (encodeAll items) = some items := by
  cases items with
  | nil => cases fuel <;> rfl
  | cons item items =>
      obtain ⟨positive, payload⟩ := length_encode item
      rw [encodeAll, List.length_append] at fits enough
      cases fuel with
      | zero => omega
      | succ fuel =>
          have first := readItem_encode item fuel (by omega) (by omega) (encodeAll items)
          have others := readItems_encodeAll items fuel (by omega) (by omega)
          obtain ⟨byte, later, whole⟩ := List.exists_cons_of_ne_nil
            (List.append_ne_nil_of_left_ne_nil (List.length_pos_iff.mp positive) (encodeAll items))
          rw [whole] at first
          rw [encodeAll, whole, readItems, first, Option.bind_some]
          simp only [others, Option.map_some]

end

/-- The bytes of an item are read as that item and no more of them. -/
theorem decode_encode_append {item : Item} (fits : item.payload.length < 2 ^ 64)
    (rest : List UInt8)
    : decode (encode item ++ rest) = some (item, rest) :=
  readItem_encode item _ fits (by simp only [List.length_append]; omega) rest

theorem decode_encode {item : Item} (fits : item.payload.length < 2 ^ 64)
    : decode (encode item) = some (item, []) := by
  have whole := decode_encode_append fits []
  rwa [List.append_nil] at whole

theorem encode_inj {item other : Item} (fits : item.payload.length < 2 ^ 64)
    (otherFits : other.payload.length < 2 ^ 64)
    : encode item = encode other ↔ item = other := by
  refine ⟨fun same => ?_, fun same => by rw [same]⟩
  have found := decode_encode fits
  rw [same, decode_encode otherFits] at found
  exact (Prod.mk.inj (Option.some.inj found)).1.symm

end Cixtech.Foundation.Rlp
