import Cixtech.Foundation.Regrouping
import Mathlib.Data.Bool.AllAny

/-! The texts of IP addresses: dotted quads of decimal octets, and groups of hexadecimal digits with
colons between them, of which some zero groups may be elided, the last two may be a dotted quad,
and a zone may stand behind. A text is accepted exactly where some form writes it.
-/

namespace Cixtech.Foundation.IpTexts

/-- Whether an address of a width is in the network of so many bits that another one is in. -/
def inNetwork (width network bits address : Nat) : Prop :=
  address / 2 ^ (width - bits) = network / 2 ^ (width - bits)

instance (width network bits address : Nat) : Decidable (inNetwork width network bits address) :=
  inferInstanceAs (Decidable (_ = _))

-----------------------------------------------------------------------------
-- Groups of hexadecimal digits

def hexDigits : List Char := "0123456789abcdefABCDEF".toList

def isHexDigit (c : Char) : Bool := hexDigits.contains c

/-- The value of a digit, of which the capitals stand behind the others. -/
def hexValue (c : Char) : Nat :=
  let place := hexDigits.idxOf c
  if place < 16 then place else place - 6

/-- One to four digits. -/
def isGroup (piece : List Char) : Bool :=
  !piece.isEmpty && decide (piece.length ≤ 4) && piece.all isHexDigit

/-- The number that a group of digits spells. -/
def groupValue (piece : List Char) : Nat := Regrouping.number 4 (piece.map hexValue)

structure HexGroup where
  digits : List Char
  shape : isGroup digits = true

namespace HexGroup

def value (group : HexGroup) : Nat := groupValue group.digits

theorem nonempty (group : HexGroup) : group.digits ≠ [] := by
  have shape := group.shape
  simp only [isGroup, Bool.and_eq_true] at shape
  simpa using shape.1.1

theorem length_le (group : HexGroup) : group.digits.length ≤ 4 := by
  have shape := group.shape
  simp only [isGroup, Bool.and_eq_true, decide_eq_true_eq] at shape
  exact shape.1.2

theorem mem_hexDigits (group : HexGroup) {c : Char} (member : c ∈ group.digits)
    : c ∈ hexDigits := by
  have shape := group.shape
  simp only [isGroup, Bool.and_eq_true, List.all_eq_true] at shape
  exact List.contains_iff_mem.mp (shape.2 c member)

theorem hexValue_lt : ∀ c ∈ hexDigits, hexValue c < 2 ^ 4 :=
  List.all_iff_forall_prop.mp (by decide)

theorem value_lt (group : HexGroup) : group.value < 2 ^ 16 := by
  have bound : group.value < 2 ^ (4 * (group.digits.map hexValue).length) := by
    refine Regrouping.number_lt fun digit member => ?_
    obtain ⟨c, own, rfl⟩ := List.mem_map.mp member
    exact hexValue_lt c (group.mem_hexDigits own)
  refine bound.trans_le (Nat.pow_le_pow_right (by decide) ?_)
  have short := group.length_le
  simp only [List.length_map]
  omega

/-- A group writes a number below 4096, of which its first digit is a part, or has four digits. -/
theorem digits_cases (group : HexGroup)
    : (∃ a ∈ hexDigits, ∃ more,
        group.digits = a :: more ∧ hexValue a ≤ group.value ∧ group.value < 4096)
      ∨ ∃ a ∈ hexDigits, ∃ b ∈ hexDigits, ∃ c ∈ hexDigits, ∃ d ∈ hexDigits,
        group.digits = [a, b, c, d]
        ∧ group.value
          = 4096 * hexValue a + 256 * hexValue b + 16 * hexValue c + hexValue d := by
  have some := group.nonempty
  have short := group.length_le
  have hex : ∀ c ∈ group.digits, c ∈ hexDigits ∧ hexValue c < 2 ^ 4 := fun c member =>
    ⟨group.mem_hexDigits member, hexValue_lt c (group.mem_hexDigits member)⟩
  have number : group.value = Regrouping.number 4 (group.digits.map hexValue) := rfl
  rcases split : group.digits with _ | ⟨a, _ | ⟨b, _ | ⟨c, _ | ⟨d, _ | ⟨e, more⟩⟩⟩⟩⟩
  all_goals
    rw [split] at some short hex number
    simp only [List.mem_cons, List.not_mem_nil, or_false, forall_eq_or_imp, forall_eq] at hex
    simp only [List.map_cons, List.map_nil, Regrouping.number, List.reverse_cons,
      List.reverse_nil, List.nil_append, List.cons_append, Nat.ofDigits_cons, Nat.ofDigits_nil]
      at number
  · exact absurd rfl some
  · exact .inl ⟨a, hex.1, _, rfl, by omega, by omega⟩
  · exact .inl ⟨a, hex.1.1, _, rfl, by omega, by omega⟩
  · exact .inl ⟨a, hex.1.1, _, rfl, by omega, by omega⟩
  · exact .inr ⟨a, hex.1.1, b, hex.2.1.1, c, hex.2.2.1.1, d, hex.2.2.2.1, rfl, by omega⟩
  · simp only [List.length_cons] at short
    omega

/-- No separator is a digit. -/
theorem plain (group : HexGroup) {c : Char} (separates : c ∉ hexDigits) : c ∉ group.digits :=
  fun member => separates (group.mem_hexDigits member)

end HexGroup

/-- Pieces that are all groups are the digits of some groups, by induction on the pieces. -/
theorem exists_groups {pieces : List (List Char)} (each : ∀ piece ∈ pieces, isGroup piece = true)
    : ∃ groups : List HexGroup, groups.map HexGroup.digits = pieces := by
  induction pieces with
  | nil => exact ⟨[], rfl⟩
  | cons piece rest ih =>
      obtain ⟨groups, same⟩ := ih fun other member => each other (List.mem_cons_of_mem _ member)
      exact ⟨⟨piece, each piece List.mem_cons_self⟩ :: groups, by rw [List.map_cons, same]⟩

theorem isGroup_of_mem {groups : List HexGroup} {piece : List Char}
    (member : piece ∈ groups.map HexGroup.digits)
    : isGroup piece = true := by
  obtain ⟨group, -, rfl⟩ := List.mem_map.mp member
  exact group.shape

-----------------------------------------------------------------------------
-- Dotted quads

/-- The decimal text of an octet. -/
def octetText (octet : Fin 256) : List Char := Nat.toDigits 10 octet.val

def isOctet (piece : List Char) : Bool :=
  (List.finRange 256).any fun octet => octetText octet = piece

/-- Four octets, the highest one first. -/
structure DottedQuad where
  a : Fin 256
  b : Fin 256
  c : Fin 256
  d : Fin 256
  deriving DecidableEq, Repr

namespace DottedQuad

def letters (quad : DottedQuad) : List Char :=
  ['.'].intercalate [octetText quad.a, octetText quad.b, octetText quad.c, octetText quad.d]

def text (quad : DottedQuad) : String := String.ofList quad.letters

/-- The two hextets that a quad takes the place of. -/
def hextets (quad : DottedQuad) : List Nat :=
  [256 * quad.a.val + quad.b.val, 256 * quad.c.val + quad.d.val]

/-- The number of the address. -/
def address (quad : DottedQuad) : Nat := Regrouping.number 16 quad.hextets

/-- The quad of the lowest eight bits of four numbers. -/
def ofOctets (a b c d : Nat) : DottedQuad :=
  { a := Fin.ofNat 256 a, b := Fin.ofNat 256 b, c := Fin.ofNat 256 c, d := Fin.ofNat 256 d }

/-- The quad of the lowest 32 bits of an address. -/
def ofAddress (address : Nat) : DottedQuad :=
  ofOctets (address / 2 ^ 24) (address / 2 ^ 16) (address / 2 ^ 8) address

end DottedQuad

def isDottedQuad (text : List Char) : Bool :=
  match text.splitOn '.' with
  | [a, b, c, d] => isOctet a && isOctet b && isOctet c && isOctet d
  | _ => false

theorem isOctet_iff {piece : List Char}
    : isOctet piece = true ↔ ∃ octet, octetText octet = piece := by
  simp [isOctet]

/-- An octet is written with decimal digits. -/
theorem octetText_isDigit {octet : Fin 256} {c : Char} (member : c ∈ octetText octet)
    : c.isDigit = true :=
  Nat.isDigit_of_mem_toDigits (by decide) (by decide) member

/-- Four pieces between which the separator stands are those that the text is split into. -/
theorem splitOn_letters (quad : DottedQuad)
    : quad.letters.splitOn '.'
      = [octetText quad.a, octetText quad.b, octetText quad.c, octetText quad.d] := by
  refine List.splitOn_intercalate '.' (fun piece member => ?_) (by simp)
  have digits : ∀ octet, '.' ∉ octetText octet := by
    intro octet there
    have digit := octetText_isDigit there
    revert digit
    decide
  simp only [List.mem_cons, List.not_mem_nil, or_false] at member
  rcases member with rfl | rfl | rfl | rfl <;> exact digits _

theorem isDottedQuad_iff {text : List Char}
    : isDottedQuad text = true ↔ ∃ quad : DottedQuad, quad.letters = text := by
  constructor
  · intro accepted
    unfold isDottedQuad at accepted
    split at accepted
    case h_2 => cases accepted
    case h_1 a b c d pieces =>
      simp only [Bool.and_eq_true, isOctet_iff] at accepted
      obtain ⟨⟨⟨⟨a, rfl⟩, b, rfl⟩, c, rfl⟩, d, rfl⟩ := accepted
      refine ⟨⟨a, b, c, d⟩, ?_⟩
      rw [DottedQuad.letters, ← pieces, List.intercalate_splitOn]
  · rintro ⟨quad, rfl⟩
    have each : ∀ octet, isOctet (octetText octet) = true := fun octet =>
      isOctet_iff.mpr ⟨octet, rfl⟩
    simp [isDottedQuad, splitOn_letters, each]

namespace DottedQuad

/-- A quad is written with decimal digits and full stops. -/
theorem mem_letters {quad : DottedQuad} {c : Char} (member : c ∈ quad.letters)
    : c.isDigit = true ∨ c = '.' := by
  simp only [letters, List.intercalate_cons_cons, List.intercalate_singleton, List.mem_append,
    List.mem_singleton, or_assoc] at member
  rcases member with digit | stop | digit | stop | digit | stop | digit
  all_goals first
    | exact .inr stop
    | exact .inl (octetText_isDigit digit)

/-- A full stop separates the octets. -/
theorem stop_mem_letters (quad : DottedQuad) : '.' ∈ quad.letters := by
  simp [letters, List.intercalate_cons_cons]

theorem plain {quad : DottedQuad} {c : Char} (digit : c.isDigit = false) (stop : c ≠ '.')
    : c ∉ quad.letters := by
  intro member
  rcases mem_letters member with decimal | same
  · rw [digit] at decimal
    cases decimal
  · exact stop same

theorem hextets_lt {quad : DottedQuad} {hextet : Nat} (member : hextet ∈ quad.hextets)
    : hextet < 2 ^ 16 := by
  obtain ⟨a, b, c, d⟩ := quad
  simp only [hextets, List.mem_cons, List.not_mem_nil, or_false] at member
  rcases member with rfl | rfl <;> omega

theorem address_eq (quad : DottedQuad)
    : quad.address
      = 2 ^ 24 * quad.a.val + 2 ^ 16 * quad.b.val + 2 ^ 8 * quad.c.val + quad.d.val := by
  simp only [address, Regrouping.number, hextets, List.reverse_cons, List.reverse_nil,
    List.nil_append, List.singleton_append, Nat.ofDigits_cons, Nat.ofDigits_nil]
  omega

/-- The quad at the end of an address is that of its lowest 32 bits. -/
theorem ofAddress_number (quad : DottedQuad) (front : List Nat)
    : ofAddress (Regrouping.number 16 (front ++ quad.hextets)) = quad := by
  have value := quad.address_eq
  obtain ⟨a, b, c, d⟩ := quad
  rw [Regrouping.number_append_digits, ← address, value]
  simp only [ofAddress, ofOctets, mk.injEq, Fin.ext_iff, Fin.val_ofNat, hextets, List.length_cons,
    List.length_nil]
  refine ⟨?_, ?_, ?_, ?_⟩ <;> omega

end DottedQuad

end Cixtech.Foundation.IpTexts
