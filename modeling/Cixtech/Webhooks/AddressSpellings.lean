import Cixtech.Webhooks.WebhookUrl

/-! The spellings of private addresses that the check of a webhook's host refuses. What it
recognises of an IPv6 address depends on the text: the networks that the first group decides are
refused however they are written, and the addresses with a private quad at the end only where the
text begins with an elision that leaves the least to write.
-/

namespace Cixtech.Webhooks

open Cixtech.Common Cixtech.Foundation Cixtech.Foundation.IpTexts

-----------------------------------------------------------------------------
-- Dotted quads

/-- The networks of private quads. -/
def privateBlocks : List (DottedQuad × Nat) :=
  [(.ofOctets 0 0 0 0, 8), (.ofOctets 10 0 0 0, 8), (.ofOctets 127 0 0 0, 8),
    (.ofOctets 169 254 0 0, 16), (.ofOctets 172 16 0 0, 12), (.ofOctets 192 168 0 0, 16),
    (.ofOctets 100 64 0 0, 10), (.ofOctets 198 18 0 0, 15), (.ofOctets 224 0 0 0, 3)]

/-- What is decided on the octets of a quad. -/
def privateOctets (a b : Nat) : Bool :=
  a = 0
  || a = 10
  || a = 127
  || (a = 169 && b = 254)
  || (a = 172 && b ≥ 16 && b ≤ 31)
  || (a = 192 && b = 168)
  || (a = 100 && b ≥ 64 && b ≤ 127)
  || (a = 192 && b = 0)
  || (a = 198 && (b = 18 || b = 19))
  || a ≥ 224

theorem number_octetText (octet : Fin 256) : number (octetText octet) = some octet.val := by
  have digits : (octetText octet).all Char.isDigit = true :=
    List.all_eq_true.mpr fun _ member => octetText_isDigit member
  rw [number, if_pos digits, octetText, Nat.ofDigitChars_ten_toDigits]

theorem isPrivateV4_letters (quad : DottedQuad)
    : isPrivateV4 quad.letters = privateOctets quad.a.val quad.b.val := by
  obtain ⟨a, b, c, d⟩ := quad
  have small : ¬ (a.val > 255 ∨ b.val > 255 ∨ c.val > 255 ∨ d.val > 255) := by omega
  simp only [isPrivateV4, splitOn_letters, List.map_cons, List.map_nil, number_octetText,
    decide_eq_false small, Bool.false_or]
  rfl

theorem isIP_quad (quad : DottedQuad) : isIP quad.text = 4 := by
  have accepted : isDottedQuad quad.letters = true := isDottedQuad_iff.mpr ⟨quad, rfl⟩
  simp [isIP, DottedQuad.text, accepted]

theorem isPrivateAddress_quad (quad : DottedQuad)
    : isPrivateAddress quad.text = isPrivateV4 quad.letters := by
  rw [isPrivateAddress, isIP_quad]
  simp [DottedQuad.text]

/-- A network of at most sixteen bits is told by the first two octets. -/
theorem octets_of_network {quad network : DottedQuad} {bits : Nat} (few : bits ≤ 16)
    (inside : inNetwork 32 network.address bits quad.address)
    : (256 * quad.a.val + quad.b.val) / 2 ^ (16 - bits)
      = (256 * network.a.val + network.b.val) / 2 ^ (16 - bits) := by
  have high : ∀ other : DottedQuad,
      other.address / 2 ^ 16 = 256 * other.a.val + other.b.val := by
    intro other
    have value := other.address_eq
    obtain ⟨a, b, c, d⟩ := other
    omega
  have power : 2 ^ (32 - bits) = 2 ^ 16 * 2 ^ (16 - bits) := by
    rw [← Nat.pow_add]
    congr 1
    omega
  rwa [inNetwork, power, ← Nat.div_div_eq_div_mul, ← Nat.div_div_eq_div_mul, high, high] at inside

/-- Every quad of a private network is refused, whose first two octets tell the network. -/
theorem isPrivateV4_of_block {quad : DottedQuad} {block : DottedQuad × Nat}
    (listed : block ∈ privateBlocks) (inside : inNetwork 32 block.1.address block.2 quad.address)
    : isPrivateV4 quad.letters = true := by
  rw [isPrivateV4_letters]
  have octet := quad.b.isLt
  have few : block.2 ≤ 16 := by
    have all : ∀ block ∈ privateBlocks, block.2 ≤ 16 := by decide
    exact all block listed
  have told := octets_of_network few inside
  clear few inside
  generalize quad.a.val = a at told ⊢
  generalize quad.b.val = b at told octet ⊢
  simp only [privateBlocks, List.mem_cons, List.not_mem_nil, or_false] at listed
  rcases listed with rfl | rfl | rfl | rfl | rfl | rfl | rfl | rfl | rfl
  all_goals norm_num [DottedQuad.ofOctets] at told
  · obtain rfl : a = 0 := by omega
    rfl
  · obtain rfl : a = 10 := by omega
    rfl
  · obtain rfl : a = 127 := by omega
    rfl
  · obtain ⟨rfl, rfl⟩ : a = 169 ∧ b = 254 := by omega
    rfl
  · obtain ⟨rfl, low, high⟩ : a = 172 ∧ 16 ≤ b ∧ b ≤ 31 := by omega
    simp [privateOctets, low, high]
  · obtain ⟨rfl, rfl⟩ : a = 192 ∧ b = 168 := by omega
    rfl
  · obtain ⟨rfl, low, high⟩ : a = 100 ∧ 64 ≤ b ∧ b ≤ 127 := by omega
    simp [privateOctets, low, high]
  · obtain ⟨rfl, second⟩ : a = 198 ∧ (b = 18 ∨ b = 19) := by omega
    simp [privateOctets, second]
  · have first : 224 ≤ a := by omega
    simp [privateOctets, first]

-----------------------------------------------------------------------------
-- Texts of IPv6 addresses

theorem isDottedQuad_form (form : Ipv6Form) : isDottedQuad form.letters = false := by
  refine Bool.eq_false_iff.mpr fun accepted => ?_
  obtain ⟨quad, same⟩ := isDottedQuad_iff.mp accepted
  have colon : ':' ∈ form.letters := by
    unfold Ipv6Form.letters
    split
    · exact Ipv6Form.colon_mem_body
    · exact List.mem_append_left _ Ipv6Form.colon_mem_body
  exact DottedQuad.plain (by decide) (by decide) (same ▸ colon)

theorem isIP_form (form : Ipv6Form) : isIP form.text = 6 := by
  have accepted : isIpv6 form.letters = true := isIpv6_iff.mpr ⟨form, rfl⟩
  simp [isIP, Ipv6Form.text, isDottedQuad_form, accepted]

theorem isIP_eq_four {text : String} : isIP text = 4 ↔ ∃ quad : DottedQuad, quad.text = text := by
  constructor
  · intro four
    unfold isIP at four
    split at four
    case isTrue accepted =>
      obtain ⟨quad, same⟩ := isDottedQuad_iff.mp accepted
      exact ⟨quad, by rw [DottedQuad.text, same, String.ofList_toList]⟩
    case isFalse => split at four <;> cases four
  · rintro ⟨quad, rfl⟩
    exact isIP_quad quad

theorem isIP_eq_six {text : String} : isIP text = 6 ↔ ∃ form : Ipv6Form, form.text = text := by
  constructor
  · intro six
    unfold isIP at six
    split at six
    case isTrue => cases six
    case isFalse =>
      split at six
      case isTrue accepted =>
        obtain ⟨form, same⟩ := isIpv6_iff.mp accepted
        exact ⟨form, by rw [Ipv6Form.text, same, String.ofList_toList]⟩
      case isFalse => cases six
  · rintro ⟨form, rfl⟩
    exact isIP_form form

theorem isPrivateAddress_form (form : Ipv6Form)
    : isPrivateAddress form.text = isPrivateV6 (form.letters.map Char.toLower) := by
  rw [isPrivateAddress, isIP_form]
  simp [Ipv6Form.text]

/-- No address has a bracket in it. -/
theorem bracket_not_mem (form : Ipv6Form) : '[' ∉ form.letters ∧ ']' ∉ form.letters := by
  have zoned : ∀ zone : Zone, '[' ∉ zone.letters ∧ ']' ∉ zone.letters := by
    intro zone
    have shape := zone.shape
    rw [isZone, Bool.and_eq_true, List.all_eq_true] at shape
    constructor <;> intro member <;> have bracket := shape.2 _ member <;> revert bracket <;> decide
  have opening : '[' ∉ form.body :=
    Ipv6Form.plain_body (by decide) (by decide) (by decide) (by decide)
  have closing : ']' ∉ form.body :=
    Ipv6Form.plain_body (by decide) (by decide) (by decide) (by decide)
  unfold Ipv6Form.letters
  cases form.zone with
  | none => exact ⟨opening, closing⟩
  | some zone => simp [opening, closing, zoned zone]

theorem withoutBrackets_plain {text : List Char} (opening : '[' ∉ text) (closing : ']' ∉ text)
    : withoutBrackets text = text := by
  have opened : withoutOpening text = text := by
    unfold withoutOpening
    split
    case h_1 rest => exact absurd List.mem_cons_self opening
    case h_2 => rfl
  rw [withoutBrackets, opened, withoutClosing, if_neg]
  exact fun last => closing (List.mem_of_getLast? last)

theorem withoutBrackets_bracketed (text : List Char)
    : withoutBrackets ('[' :: (text ++ [']'])) = text := by
  simp [withoutBrackets, withoutOpening, withoutClosing]

theorem withoutBrackets_lower (form : Ipv6Form)
    : withoutBrackets (form.letters.map Char.toLower) = form.letters.map Char.toLower := by
  obtain ⟨opening, closing⟩ := bracket_not_mem form
  refine withoutBrackets_plain ?_ ?_ <;> intro member <;>
    obtain ⟨c, own, same⟩ := List.mem_map.mp member <;>
    obtain rfl := eq_of_toLower (by decide) same
  · exact opening own
  · exact closing own

-----------------------------------------------------------------------------
-- Texts that begin with a group

/-- What is decided on a text that begins with a group. -/
def firstGroupPrivate (bare : List Char) : Bool :=
  "fe80".toList.isPrefixOf bare || uniqueLocal bare || "ff".toList.isPrefixOf bare

/-- No expression with an elision in front matches a text that begins with a group. -/
theorem isPrivateV6_of_group {bare low rest : List Char} (unbracketed : withoutBrackets bare = bare)
    (whole : bare = low ++ ':' :: rest) (some : low ≠ []) (plain : ':' ∉ low)
    : isPrivateV6 bare = firstGroupPrivate bare := by
  obtain ⟨c, more, rfl⟩ := List.exists_cons_of_ne_nil some
  have split : bare.splitOn ':' = (c :: more) :: rest.splitOn ':' := by
    rw [whole]
    exact List.splitOn_append_cons_self_of_not_mem plain rest
  have unmatched : embeddedPrivate (bare.splitOn ':') = none := by
    rw [split]
    rfl
  have first : ¬ (bare = "::1".toList || bare = "::".toList) = true := by
    have apart : c ≠ ':' := fun same => plain (same ▸ List.mem_cons_self)
    simp [whole, apart]
  simp only [isPrivateV6, unbracketed, unmatched, if_neg first]
  rfl

/-- The letters of the expressions are told by the values of the digits. -/
theorem toLower_eq_iff : ∀ c ∈ hexDigits,
    (c.toLower = 'f' ↔ hexValue c = 15) ∧ (c.toLower = 'e' ↔ hexValue c = 14)
    ∧ (c.toLower = 'd' ↔ hexValue c = 13) ∧ (c.toLower = 'c' ↔ hexValue c = 12)
    ∧ (c.toLower = '8' ↔ hexValue c = 8) ∧ (c.toLower = '1' ↔ hexValue c = 1)
    ∧ (c.toLower = '0' ↔ hexValue c = 0) ∧ c.toLower ≠ ':'
    ∧ "0123456789abcdef".toList.contains c.toLower = true :=
  List.all_iff_forall_prop.mp (by decide)

theorem head_of_firstGroupPrivate {c : Char} {more : List Char}
    (refused : firstGroupPrivate (c :: more) = true)
    : c = 'f' := by
  simp only [firstGroupPrivate, Bool.or_eq_true] at refused
  rcases refused with (linkLocal | unique) | multicast
  · exact (by simpa using linkLocal : 'f' = c ∧ _).1.symm
  · unfold uniqueLocal at unique
    split at unique
    case h_1 listed =>
      simp only [Bool.and_eq_true, decide_eq_true_eq] at unique
      rw [(List.cons.inj listed).1]
      exact unique.1.1.1
    case h_2 => cases unique
  · exact (by simpa using multicast : 'f' = c ∧ _).1.symm

theorem firstGroupPrivate_four {a b c d : Char} (rest : List Char)
    (cHex : "0123456789abcdef".toList.contains c = true)
    (dHex : "0123456789abcdef".toList.contains d = true)
    : firstGroupPrivate (a :: b :: c :: d :: ':' :: rest) = true
      ↔ (a = 'f' ∧ b = 'e' ∧ c = '8' ∧ d = '0')
        ∨ (a = 'f' ∧ (b = 'c' ∨ b = 'd'))
        ∨ a = 'f' ∧ b = 'f' := by
  have group : lowerGroup [c, d] = true := by
    simp only [lowerGroup, List.all_cons, List.all_nil, cHex, dHex]
    rfl
  have linkLocal : "fe80".toList.isPrefixOf (a :: b :: c :: d :: ':' :: rest) = true
      ↔ a = 'f' ∧ b = 'e' ∧ c = '8' ∧ d = '0' := by
    simp [@eq_comm _ a, @eq_comm _ b, @eq_comm _ c, @eq_comm _ d]
  have multicast : "ff".toList.isPrefixOf (a :: b :: c :: d :: ':' :: rest) = true
      ↔ a = 'f' ∧ b = 'f' := by
    simp [@eq_comm _ a, @eq_comm _ b]
  simp only [firstGroupPrivate, uniqueLocal, group, Bool.or_eq_true, Bool.and_eq_true, linkLocal,
    multicast, decide_eq_true_eq, decide_true, and_true, or_assoc]

/-- What the first group decides: all of a network of unique local addresses and of multicast, and
of the link-local ones those of the first group that the network is written with.
-/
theorem firstGroupPrivate_iff {group : HexGroup} (rest : List Char)
    (known : group.value = 0 ∨ group.value / 512 = 126 ∨ group.value / 256 = 255
      ∨ group.value / 64 = 1018)
    : firstGroupPrivate (group.digits.map Char.toLower ++ ':' :: rest) = true
      ↔ group.value / 512 = 126 ∨ group.value / 256 = 255 ∨ group.value = 0xfe80 := by
  rcases group.digits_cases with ⟨a, ha, more, digits, first, small⟩
    | ⟨a, ha, b, hb, c, hc, d, hd, digits, value⟩
  · refine iff_of_false (fun refused => ?_) (by omega)
    rw [digits] at refused
    have high := (toLower_eq_iff a ha).1.mp (head_of_firstGroupPrivate refused)
    omega
  · obtain ⟨af, -⟩ := toLower_eq_iff a ha
    obtain ⟨bf, be, bd, bc, -⟩ := toLower_eq_iff b hb
    obtain ⟨-, -, -, -, c8, -, -, -, cGroup⟩ := toLower_eq_iff c hc
    obtain ⟨-, -, -, -, -, -, d0, -, dGroup⟩ := toLower_eq_iff d hd
    have shape : firstGroupPrivate (group.digits.map Char.toLower ++ ':' :: rest) = true
        ↔ (hexValue a = 15 ∧ hexValue b = 14 ∧ hexValue c = 8 ∧ hexValue d = 0)
          ∨ (hexValue a = 15 ∧ (hexValue b = 12 ∨ hexValue b = 13))
          ∨ hexValue a = 15 ∧ hexValue b = 15 := by
      rw [digits, ← af, ← bf, ← be, ← bd, ← bc, ← c8, ← d0]
      exact firstGroupPrivate_four rest cGroup dGroup
    rw [shape, value]
    have smallA := HexGroup.hexValue_lt a ha
    have smallB := HexGroup.hexValue_lt b hb
    have smallC := HexGroup.hexValue_lt c hc
    have smallD := HexGroup.hexValue_lt d hd
    omega

/-- An address whose text begins with a group is refused by what the group decides. -/
theorem isPrivateAddress_of_front {form : Ipv6Form} {group : HexGroup} {groups : List HexGroup}
    (front : form.front = group :: groups)
    (known : group.value = 0 ∨ group.value / 512 = 126 ∨ group.value / 256 = 255
      ∨ group.value / 64 = 1018)
    : isPrivateAddress form.text = true
      ↔ group.value / 512 = 126 ∨ group.value / 256 = 255 ∨ group.value = 0xfe80 := by
  obtain ⟨rest, letters⟩ := Ipv6Form.letters_of_front front
  have whole : form.letters.map Char.toLower
      = group.digits.map Char.toLower ++ ':' :: rest.map Char.toLower := by
    rw [letters, List.map_append, List.map_cons]
    rfl
  have plain : ':' ∉ group.digits.map Char.toLower := by
    intro member
    obtain ⟨c, own, same⟩ := List.mem_map.mp member
    obtain rfl := eq_of_toLower (by decide) same
    exact group.plain (by decide) own
  have some : group.digits.map Char.toLower ≠ [] := by simpa using group.nonempty
  rw [isPrivateAddress_form, isPrivateV6_of_group (withoutBrackets_lower form) whole some plain,
    whole, firstGroupPrivate_iff _ known]

-----------------------------------------------------------------------------
-- Texts that begin with an elision

/-- What is decided on the pieces of a text that begins with an elision. -/
def elidedPrivate (pieces : List (List Char)) : Bool :=
  pieces = [[], [], ['1']] || pieces = [[], [], []] || (embeddedPrivate pieces).getD false

theorem splitOn_inj {text other : List Char}
    : text.splitOn ':' = other.splitOn ':' ↔ text = other := by
  have back : ∀ whole : List Char, [':'].intercalate (whole.splitOn ':') = whole :=
    fun _ => List.intercalate_splitOn ':'
  constructor
  · intro same
    rw [← back text, same, back]
  · exact congrArg _

theorem isPrivateV6_of_elided {bare rest : List Char} (unbracketed : withoutBrackets bare = bare)
    (begins : bare = ':' :: rest)
    : isPrivateV6 bare = elidedPrivate (bare.splitOn ':') := by
  have one : bare = "::1".toList ↔ bare.splitOn ':' = [[], [], ['1']] :=
    splitOn_inj.symm.trans (by rfl)
  have none : bare = "::".toList ↔ bare.splitOn ':' = [[], [], []] :=
    splitOn_inj.symm.trans (by rfl)
  have noGroup : ("fe80".toList.isPrefixOf bare || uniqueLocal bare || "ff".toList.isPrefixOf bare)
      = false := by
    refine Bool.eq_false_iff.mpr fun refused => ?_
    rw [begins] at refused
    cases head_of_firstGroupPrivate refused
  simp only [isPrivateV6, unbracketed, elidedPrivate, one, none, noGroup]
  split
  case isTrue special => rw [special, Bool.true_or]
  case isFalse other => rw [Bool.eq_false_iff.mpr other, Bool.false_or]

/-- The digits of a group in lower case. -/
def lowered (group : HexGroup) : List Char := group.digits.map Char.toLower

theorem lower_digits (group : HexGroup) : group.digits.map Char.toLower = lowered group := rfl

theorem mem_lowered {group : HexGroup} {c : Char} (member : c ∈ lowered group)
    : ∃ digit ∈ hexDigits, digit.toLower = c := by
  obtain ⟨digit, own, same⟩ := List.mem_map.mp member
  exact ⟨digit, group.mem_hexDigits own, same⟩

theorem lowered_ne_nil (group : HexGroup) : lowered group ≠ [] := by
  simpa [lowered] using group.nonempty

theorem lowerGroup_lowered (group : HexGroup) : lowerGroup (lowered group) = true := by
  have short : (lowered group).length ≤ 4 := by simpa [lowered] using group.length_le
  have hex : (lowered group).all (fun c => "0123456789abcdef".toList.contains c) = true := by
    refine List.all_eq_true.mpr fun c member => ?_
    obtain ⟨digit, listed, rfl⟩ := mem_lowered member
    exact (toLower_eq_iff digit listed).2.2.2.2.2.2.2.2
  simp only [lowerGroup, short, hex, List.isEmpty_eq_false_iff.mpr (lowered_ne_nil group)]
  rfl

theorem groupValue_lowered (group : HexGroup) : groupValue (lowered group) = group.value := by
  have same : ∀ c ∈ hexDigits, hexValue c.toLower = hexValue c :=
    List.all_iff_forall_prop.mp (by decide)
  rw [HexGroup.value, groupValue, groupValue, lowered, List.map_map]
  exact congrArg _ (List.map_congr_left fun c member => same c (group.mem_hexDigits member))

/-- A group is no text of four numbers, for it has no full stop. -/
theorem fourNumbers_lowered (group : HexGroup) : fourNumbers (lowered group) = false := by
  have plain : '.' ∉ lowered group := by
    intro member
    obtain ⟨digit, listed, same⟩ := mem_lowered member
    obtain rfl := eq_of_toLower (by decide) same
    revert listed
    decide
  simp [fourNumbers, List.splitOn_eq_singleton plain]

theorem fourNumbers_letters (quad : DottedQuad) : fourNumbers quad.letters = true := by
  have part : ∀ octet,
      (!(octetText octet).isEmpty && (octetText octet).all Char.isDigit) = true := by
    intro octet
    have some : octetText octet ≠ [] := Nat.toDigits_ne_nil
    have digits : (octetText octet).all Char.isDigit = true :=
      List.all_eq_true.mpr fun _ member => octetText_isDigit member
    simp [List.isEmpty_eq_false_iff.mpr some, digits]
  simp only [fourNumbers, splitOn_letters, List.all_cons, List.all_nil, part]
  rfl

/-- A quad is no group, for it has a full stop. -/
theorem lowerGroup_letters (quad : DottedQuad) : lowerGroup quad.letters = false := by
  refine Bool.eq_false_iff.mpr fun group => ?_
  simp only [lowerGroup, Bool.and_eq_true, List.all_eq_true] at group
  have stop := group.2 _ quad.stop_mem_letters
  revert stop
  decide

/-- A quad has no letters to lower. -/
theorem lower_letters (quad : DottedQuad) : quad.letters.map Char.toLower = quad.letters := by
  have small : ∀ c ∈ quad.letters, c.toLower = c := by
    intro c member
    rcases DottedQuad.mem_letters member with digit | rfl
    · rw [Char.isDigit, Bool.and_eq_true, decide_eq_true_eq, decide_eq_true_eq] at digit
      have below : c.val.toNat ≤ 57 := UInt32.le_iff_toNat_le.mp digit.2
      exact toLower_of_lt (Nat.lt_of_le_of_lt below (by decide))
    · rfl
  rw [List.map_congr_left small, List.map_id']

/-- Whether what stands behind an elision in front leaves the least to write: nothing, `1` or a
quad, or `ffff` with a quad or two groups.
-/
def plainRun (back : List HexGroup) (dotted : Option DottedQuad) : Bool :=
  match back, dotted with
  | [], _ => true
  | [group], none => lowered group = ['1']
  | [group], some _ => lowered group = "ffff".toList
  | [group, _, _], none => lowered group = "ffff".toList
  | _, _ => false

/-- The pieces of a text that begins with an elision, in lower case. -/
def lowerPieces (back : List HexGroup) (dotted : Option DottedQuad) : List (List Char) :=
  [] :: [] :: (side (runPieces back dotted)).map fun piece => piece.map Char.toLower

theorem isPrivateV4_of_embedded (front : List Nat) {quad : DottedQuad}
    (embeds : isPrivateV4 (DottedQuad.ofAddress
      (Regrouping.number 16 (front ++ quad.hextets))).letters = true)
    : isPrivateV4 quad.letters = true := by
  rwa [DottedQuad.ofAddress_number] at embeds

/-- Two groups write the quad of their bytes. -/
theorem quadOf_values (high low : HexGroup)
    : ∃ quad : DottedQuad,
        quad.hextets = [high.value, low.value]
        ∧ quad.letters = quadOf (groupValue (lowered high)) (groupValue (lowered low)) := by
  have smallHigh := high.value_lt
  have smallLow := low.value_lt
  refine ⟨⟨⟨high.value / 256, by omega⟩, ⟨high.value % 256, by omega⟩, ⟨low.value / 256, by omega⟩,
    ⟨low.value % 256, by omega⟩⟩, ?_, ?_⟩
  · simp only [DottedQuad.hextets]
    rw [Nat.div_add_mod, Nat.div_add_mod]
  · have byte : ∀ number : Nat, number &&& 0xff = number % 256 := fun number =>
      Nat.and_two_pow_sub_one_eq_mod number 8
    simp only [DottedQuad.letters, octetText, quadOf, groupValue_lowered, byte,
      Nat.shiftRight_eq_div_pow]

theorem value_of_mapped {group : HexGroup} (mapped : lowered group = "ffff".toList)
    : group.value = 0xffff := by
  rw [← groupValue_lowered, mapped]
  decide

theorem value_of_zeros {group : HexGroup} (zero : zeros (lowered group) = true)
    : group.value = 0 := by
  simp only [zeros, Bool.and_eq_true, List.all_eq_true, decide_eq_true_eq] at zero
  have digits : lowered group = List.replicate (lowered group).length '0' :=
    List.eq_replicate_iff.mpr ⟨rfl, zero.2⟩
  have none := Regrouping.number_replicate_append 4 (lowered group).length []
  rw [List.append_nil] at none
  rw [← groupValue_lowered, groupValue, digits, List.map_replicate]
  exact none

/-- Two groups in front of a quad are what is left of the address without it. -/
theorem high_of_two_groups (mark zero : HexGroup) (quad : DottedQuad)
    : Regrouping.number 16 (Ipv6Form.runHextets [mark, zero] (some quad)) / 2 ^ 32
      = 65536 * mark.value + zero.value := by
  have divided : Regrouping.number 16 ([mark.value, zero.value] ++ quad.hextets) / 2 ^ (16 * 2)
      = Regrouping.number 16 [mark.value, zero.value] :=
    Regrouping.number_div fun _ member => DottedQuad.hextets_lt member
  have spelt : Regrouping.number 16 [mark.value, zero.value] = 65536 * mark.value + zero.value := by
    simp only [Regrouping.number, List.reverse_cons, List.reverse_nil, List.nil_append,
      List.singleton_append, Nat.ofDigits_cons, Nat.ofDigits_nil]
    omega
  rw [← spelt, ← divided]
  simp [Ipv6Form.runHextets]

theorem lowerPieces_quad (quad : DottedQuad)
    : lowerPieces [] (some quad) = [[], [], quad.letters] := by
  simp [lowerPieces, runPieces, side, lower_letters]

theorem lowerPieces_cons (group : HexGroup) (more : List HexGroup) (quads : Option DottedQuad)
    : lowerPieces (group :: more) quads
      = [] :: [] :: lowered group
        :: (more.map lowered ++ quads.toList.map DottedQuad.letters) := by
  cases quads <;> simp [lowerPieces, runPieces, side, lower_letters, ← lower_digits]

section Pieces

variable (mapped group last : List Char)

theorem elidedPrivate_three
    : elidedPrivate [[], [], last]
      = (last = ['1'] || last = [] || fourNumbers last && isPrivateV4 last) := by
  cases four : fourNumbers last <;>
    simp [elidedPrivate, embeddedPrivate, dotted, hexMapped, Option.filter, four]

theorem elidedPrivate_four
    : elidedPrivate [[], [], mapped, last]
      = (mapped = "ffff".toList && fourNumbers last && isPrivateV4 last) := by
  unfold elidedPrivate embeddedPrivate dotted hexMapped
  generalize "ffff".toList = mark
  by_cases marked : mapped = mark <;> cases four : fourNumbers last <;>
    simp [Option.filter, four, marked]

theorem elidedPrivate_five
    : elidedPrivate [[], [], mapped, group, last]
      = (mapped = "ffff".toList
        && if zeros group && fourNumbers last then isPrivateV4 last
          else lowerGroup group && lowerGroup last
            && isPrivateV4 (quadOf (groupValue group) (groupValue last))) := by
  unfold elidedPrivate embeddedPrivate dotted hexMapped
  generalize "ffff".toList = mark
  by_cases marked : mapped = mark <;> cases zero : zeros group <;>
    cases four : fourNumbers last <;> cases high : lowerGroup group <;>
    cases low : lowerGroup last <;>
    simp [Option.filter, zero, four, high, low, marked]

theorem elidedPrivate_more (next : List Char) (more : List (List Char))
    : elidedPrivate ([] :: [] :: mapped :: group :: last :: next :: more) = false := by
  simp [elidedPrivate, embeddedPrivate, dotted, hexMapped]

end Pieces

/-- What is decided on the pieces behind an elision in front, of an address with a private quad at
its end and nothing in front of it, or the mark of a mapped one.
-/
theorem elidedPrivate_lowerPieces {back : List HexGroup} {quads : Option DottedQuad}
    (embeds : isPrivateV4 (DottedQuad.ofAddress
      (Regrouping.number 16 (Ipv6Form.runHextets back quads))).letters = true)
    (low : Regrouping.number 16 (Ipv6Form.runHextets back quads) / 2 ^ 32 = 0
      ∨ Regrouping.number 16 (Ipv6Form.runHextets back quads) / 2 ^ 32 = 0xffff)
    : elidedPrivate (lowerPieces back quads) = plainRun back quads := by
  rcases back with _ | ⟨g, _ | ⟨h, _ | ⟨l, _ | ⟨k, more⟩⟩⟩⟩ <;> cases quads
  case nil.none => rfl
  case nil.some quad =>
    rw [lowerPieces_quad, elidedPrivate_three, fourNumbers_letters,
      isPrivateV4_of_embedded [] embeds]
    simp [plainRun]
  all_goals rw [lowerPieces_cons]
  all_goals
    simp only [List.map_cons, List.map_nil, Option.toList_none, Option.toList_some,
      List.append_nil, List.nil_append, List.cons_append]
  case cons.nil.none =>
    simp [elidedPrivate_three, fourNumbers_lowered, lowered_ne_nil, plainRun]
  case cons.nil.some quad =>
    rw [elidedPrivate_four, fourNumbers_letters, isPrivateV4_of_embedded [g.value] embeds]
    simp [plainRun]
  case cons.cons.nil.none =>
    simp [elidedPrivate_four, fourNumbers_lowered, plainRun]
  case cons.cons.nil.some quad =>
    -- `::ffff:0:` with a quad is matched, but no such address is in either network.
    rw [high_of_two_groups] at low
    rw [elidedPrivate_five, fourNumbers_letters, lowerGroup_letters]
    refine Bool.eq_false_iff.mpr fun refused => ?_
    simp only [Bool.and_true, Bool.and_false, Bool.false_and, Bool.if_false_right,
      Bool.and_eq_true, decide_eq_true_eq] at refused
    have mark := value_of_mapped refused.1
    have zero := value_of_zeros refused.2.1
    omega
  case cons.cons.cons.nil.none =>
    -- The two groups behind the mark are matched as a quad, and it is that of the address.
    obtain ⟨quad, hextets, letters⟩ := quadOf_values h l
    have refused : isPrivateV4 quad.letters = true := by
      refine isPrivateV4_of_embedded [g.value] ?_
      rw [hextets]
      simpa [Ipv6Form.runHextets] using embeds
    rw [elidedPrivate_five, fourNumbers_lowered, lowerGroup_lowered, lowerGroup_lowered, ← letters,
      refused]
    simp [plainRun]
  case cons.cons.cons.nil.some quad =>
    rw [elidedPrivate_more]
    rfl
  case cons.cons.cons.cons.none =>
    rw [elidedPrivate_more]
    rfl
  case cons.cons.cons.cons.some quad =>
    rw [elidedPrivate_more]
    rfl

theorem splitOn_separator (rest : List Char)
    : (':' :: rest).splitOn ':' = [] :: rest.splitOn ':' :=
  List.splitOn_append_cons_self_of_not_mem List.not_mem_nil rest

/-- What is in a text that is split is in one of the pieces. -/
theorem mem_piece {c separator : Char} {text : List Char} (apart : c ≠ separator)
    (member : c ∈ text)
    : ∃ piece ∈ text.splitOn separator, c ∈ piece := by
  have whole : [separator].intercalate (text.splitOn separator) = text :=
    List.intercalate_splitOn separator
  rw [← whole] at member
  rcases mem_intercalate member with same | found
  · exact absurd same apart
  · exact found

/-- No expression matches a text that a zone stands behind. -/
theorem elidedPrivate_of_zone {rest : List Char} (zoned : '%' ∈ rest)
    : elidedPrivate ([] :: [] :: rest.splitOn ':') = false := by
  have stops : ∀ {piece}, fourNumbers piece = true → '%' ∉ piece := by
    intro piece four member
    simp only [fourNumbers, Bool.and_eq_true, List.all_eq_true] at four
    obtain ⟨part, there, inside⟩ := mem_piece (by decide : '%' ≠ '.') member
    have digit := (four.2 part there).2 _ inside
    revert digit
    decide
  have groups : ∀ {piece}, lowerGroup piece = true → '%' ∉ piece := by
    intro piece group member
    simp only [lowerGroup, Bool.and_eq_true, List.all_eq_true] at group
    have digit := group.2 _ member
    revert digit
    decide
  have empties : ∀ {piece}, zeros piece = true → '%' ∉ piece := by
    intro piece zero member
    simp only [zeros, Bool.and_eq_true, List.all_eq_true] at zero
    have digit := zero.2 _ member
    revert digit
    decide
  refine Bool.eq_false_iff.mpr fun refused => ?_
  obtain ⟨piece, there, inside⟩ := mem_piece (by decide : '%' ≠ ':') zoned
  rcases split : rest.splitOn ':' with _ | ⟨first, _ | ⟨second, _ | ⟨third, _ | ⟨next, more⟩⟩⟩⟩ <;>
    rw [split] at refused there
  · cases there
  · obtain rfl := List.mem_singleton.mp there
    simp only [elidedPrivate_three, Bool.or_eq_true, Bool.and_eq_true, decide_eq_true_eq]
      at refused
    rcases refused with (rfl | rfl) | ⟨four, -⟩
    · exact absurd inside (by decide)
    · cases inside
    · exact stops four inside
  · simp only [elidedPrivate_four, Bool.and_eq_true, decide_eq_true_eq] at refused
    obtain ⟨⟨rfl, four⟩, -⟩ := refused
    rcases List.mem_pair.mp there with rfl | rfl
    · exact absurd inside (by decide)
    · exact stops four inside
  · rw [elidedPrivate_five, Bool.and_eq_true, decide_eq_true_eq] at refused
    obtain ⟨rfl, mapped⟩ := refused
    have plain : '%' ∉ second ∧ '%' ∉ third := by
      split at mapped
      case isTrue quad =>
        rw [Bool.and_eq_true] at quad
        exact ⟨empties quad.1, stops quad.2⟩
      case isFalse =>
        simp only [Bool.and_eq_true] at mapped
        exact ⟨groups mapped.1.1, groups mapped.1.2⟩
    rcases List.mem_cons.mp there with rfl | later
    · exact absurd inside (by decide)
    · rcases List.mem_pair.mp later with rfl | rfl
      · exact plain.1 inside
      · exact plain.2 inside
  · rw [elidedPrivate_more] at refused
    cases refused

/-- An address with a private quad at its end and no group in front in the text is refused where
the text leaves the least to write, and no zone stands behind it.
-/
theorem isPrivateAddress_of_elided {form : Ipv6Form} {back : List HexGroup}
    (front : form.front = []) (elided : form.back = some back)
    (embeds : isPrivateV4 (DottedQuad.ofAddress form.address).letters = true)
    (low : form.address / 2 ^ 32 = 0 ∨ form.address / 2 ^ 32 = 0xffff)
    : isPrivateAddress form.text = true ↔ form.zone = none ∧ plainRun back form.dotted = true := by
  rw [Ipv6Form.address_of_elided front elided] at embeds low
  have body := Ipv6Form.body_of_elided front elided
  rw [isPrivateAddress_form]
  cases zoned : form.zone with
  | none =>
      have letters : form.letters = form.body := by rw [Ipv6Form.letters, zoned]
      have begins : form.letters.map Char.toLower
          = ':' :: (':' :: [':'].intercalate (side (runPieces back form.dotted))).map
            Char.toLower := by
        rw [letters, body]
        rfl
      have pieces : (form.letters.map Char.toLower).splitOn ':'
          = lowerPieces back form.dotted := by
        rw [letters, Ipv6Form.splitOn_lower, Ipv6Form.pieces_of_elided front elided]
        rfl
      rw [isPrivateV6_of_elided (withoutBrackets_lower form) begins, pieces,
        elidedPrivate_lowerPieces embeds low]
      exact (and_iff_right rfl).symm
  | some zone =>
      let rest := [':'].intercalate (side (runPieces back form.dotted)) ++ '%' :: zone.letters
      have lower : form.letters.map Char.toLower = ':' :: ':' :: rest.map Char.toLower := by
        rw [Ipv6Form.letters, zoned, body]
        rfl
      have sign : '%' ∈ rest.map Char.toLower :=
        List.mem_map.mpr ⟨'%', List.mem_append_right _ List.mem_cons_self, rfl⟩
      have twice : (':' :: ':' :: rest.map Char.toLower).splitOn ':'
          = [] :: [] :: (rest.map Char.toLower).splitOn ':' := by
        rw [splitOn_separator, splitOn_separator]
      rw [isPrivateV6_of_elided (withoutBrackets_lower form) lower, lower, twice,
        elidedPrivate_of_zone sign]
      simp

-----------------------------------------------------------------------------
-- Guarded addresses

/-- The addresses that no webhook may be delivered to. -/
inductive Guarded (address : Nat) : Prop where
  | unspecified (inside : inNetwork 128 0 128 address)
  | loopback (inside : inNetwork 128 1 128 address)
  | linkLocal (inside : inNetwork 128 (0xfe80 * 2 ^ 112) 10 address)
  | uniqueLocal (inside : inNetwork 128 (0xfc00 * 2 ^ 112) 7 address)
  | multicast (inside : inNetwork 128 (0xff00 * 2 ^ 112) 8 address)
  | compatible (inside : inNetwork 128 0 96 address)
      (embeds : isPrivateAddress (DottedQuad.ofAddress address).text = true)
  | mapped (inside : inNetwork 128 (0xffff * 2 ^ 32) 96 address)
      (embeds : isPrivateAddress (DottedQuad.ofAddress address).text = true)

/-- The forms of guarded addresses that are refused. -/
def Recognised (form : Ipv6Form) : Prop :=
  inNetwork 128 (0xfc00 * 2 ^ 112) 7 form.address
  ∨ inNetwork 128 (0xff00 * 2 ^ 112) 8 form.address
  ∨ inNetwork 128 (0xfe80 * 2 ^ 112) 16 form.address
  ∨ form.zone = none
    ∧ form.front = []
    ∧ ∃ back, form.back = some back ∧ plainRun back form.dotted = true

/-- What a guarded address begins with, where it is not one that ends with a private quad. -/
theorem Guarded.cases_first {form : Ipv6Form} {first : Nat} {rest : List Nat}
    (guarded : Guarded form.address) (split : form.hextets = first :: rest)
    : (first = 0
        ∧ isPrivateV4 (DottedQuad.ofAddress form.address).letters = true
        ∧ (form.address / 2 ^ 32 = 0 ∨ form.address / 2 ^ 32 = 0xffff))
      ∨ first / 512 = 126
      ∨ first / 256 = 255
      ∨ first / 64 = 1018 := by
  have high : ∀ number, form.address = number → number < 2 ^ 112 → first = 0 := by
    intro number same small
    have inside : inNetwork 128 (0 * 2 ^ 112) 16 form.address := by
      rw [inNetwork, same, Nat.div_eq_of_lt small, Nat.zero_mul, Nat.zero_div]
    simpa using (Ipv6Form.inNetwork_iff (by decide) split).mp inside
  cases guarded with
  | unspecified inside =>
      have zero : form.address = 0 := by simpa [inNetwork] using inside
      refine .inl ⟨high 0 zero (by decide), ?_, .inl ?_⟩ <;> rw [zero] <;> decide
  | loopback inside =>
      have one : form.address = 1 := by simpa [inNetwork] using inside
      refine .inl ⟨high 1 one (by decide), ?_, .inl ?_⟩ <;> rw [one] <;> decide
  | linkLocal inside =>
      exact .inr (.inr (.inr ((Ipv6Form.inNetwork_iff (by decide) split).mp inside)))
  | uniqueLocal inside =>
      exact .inr (.inl ((Ipv6Form.inNetwork_iff (by decide) split).mp inside))
  | multicast inside =>
      exact .inr (.inr (.inl ((Ipv6Form.inNetwork_iff (by decide) split).mp inside)))
  | compatible inside embeds =>
      rw [isPrivateAddress_quad] at embeds
      have above : form.address / 2 ^ 32 = 0 := by simpa [inNetwork] using inside
      exact .inl ⟨high _ rfl (by omega), embeds, .inl above⟩
  | mapped inside embeds =>
      rw [isPrivateAddress_quad] at embeds
      have above : form.address / 2 ^ 32 = 0xffff := by simpa [inNetwork] using inside
      exact .inl ⟨high _ rfl (by omega), embeds, .inr above⟩

/-- A guarded address is refused exactly where its form is recognised. -/
theorem isPrivateAddress_iff {form : Ipv6Form} (guarded : Guarded form.address)
    : isPrivateAddress form.text = true ↔ Recognised form := by
  rcases form.front_cases with ⟨group, groups, front⟩ | ⟨back, front, elided⟩
  · obtain ⟨rest, split⟩ := Ipv6Form.hextets_of_front front
    have known : group.value = 0 ∨ group.value / 512 = 126 ∨ group.value / 256 = 255
        ∨ group.value / 64 = 1018 :=
      (guarded.cases_first split).imp_left fun low => low.1
    rw [isPrivateAddress_of_front front known, Recognised,
      Ipv6Form.inNetwork_iff (by decide) split, Ipv6Form.inNetwork_iff (by decide) split,
      Ipv6Form.inNetwork_iff (by decide) split, front]
    simp
  · obtain ⟨rest, split⟩ := Ipv6Form.zero_of_elided front elided
    obtain ⟨-, embeds, low⟩ : _ ∧ _ ∧ _ := by
      rcases guarded.cases_first split with low | none | none | none
      · exact low
      all_goals cases none
    rw [isPrivateAddress_of_elided front elided embeds low, Recognised,
      Ipv6Form.inNetwork_iff (by decide) split, Ipv6Form.inNetwork_iff (by decide) split,
      Ipv6Form.inNetwork_iff (by decide) split, front, elided]
    simp

-----------------------------------------------------------------------------
-- Hosts

/-- A host that is the text of an address, in brackets or not, is refused as the address is. -/
theorem assertPublicHost_address {hostname address : String}
    (bare : String.ofList (withoutBrackets hostname.toList) = address) (valid : isIP address ≠ 0)
    (lookup : String → Option (List String)) (requireResolvable : Option Bool)
    : assertPublicHost lookup requireResolvable hostname
      = if isPrivateAddress address then
          .error
            (unsafeHost hostname s!"Webhook host {hostname} is a private or loopback address")
        else .ok () := by
  simp only [assertPublicHost, bare, if_pos valid]

theorem assertPublicHost_refuses_iff {hostname address : String}
    (bare : String.ofList (withoutBrackets hostname.toList) = address) (valid : isIP address ≠ 0)
    (lookup : String → Option (List String)) (requireResolvable : Option Bool)
    : (∃ error, assertPublicHost lookup requireResolvable hostname = .error error)
      ↔ isPrivateAddress address = true := by
  rw [assertPublicHost_address bare valid]
  cases isPrivateAddress address <;> simp

theorem bare_text (form : Ipv6Form)
    : String.ofList (withoutBrackets form.text.toList) = form.text := by
  obtain ⟨opening, closing⟩ := bracket_not_mem form
  rw [Ipv6Form.text, String.toList_ofList, withoutBrackets_plain opening closing]

theorem bare_bracketed (form : Ipv6Form)
    : String.ofList (withoutBrackets ("[" ++ form.text ++ "]").toList) = form.text := by
  have letters : ("[" ++ form.text ++ "]").toList = '[' :: (form.letters ++ [']']) := by
    simp [Ipv6Form.text]
  rw [letters, withoutBrackets_bracketed, Ipv6Form.text]

theorem bare_quad (quad : DottedQuad)
    : String.ofList (withoutBrackets quad.text.toList) = quad.text := by
  rw [DottedQuad.text, String.toList_ofList,
    withoutBrackets_plain (DottedQuad.plain (by decide) (by decide))
      (DottedQuad.plain (by decide) (by decide))]

/-- Every quad of a private network is refused. Of the guarded IPv6 addresses, each form that is
recognised is refused, alone and in brackets, and no other form is.
-/
theorem refused_spellings (lookup : String → Option (List String))
    (requireResolvable : Option Bool)
    : (∀ text, isIP text = 4 ↔ ∃ quad : DottedQuad, quad.text = text)
      ∧ (∀ text, isIP text = 6 ↔ ∃ form : Ipv6Form, form.text = text)
      ∧ (∀ quad : DottedQuad, ∀ block ∈ privateBlocks,
          inNetwork 32 block.1.address block.2 quad.address
          → isPrivateAddress quad.text = true
            ∧ ∃ error, assertPublicHost lookup requireResolvable quad.text = .error error)
      ∧ ∀ form : Ipv6Form,
        Guarded form.address
        → (isPrivateAddress form.text = true ↔ Recognised form)
          ∧ ∀ hostname ∈ [form.text, "[" ++ form.text ++ "]"],
            (∃ error, assertPublicHost lookup requireResolvable hostname = .error error)
            ↔ Recognised form := by
  refine ⟨fun _ => isIP_eq_four, fun _ => isIP_eq_six, ?_, ?_⟩
  · intro quad block listed inside
    have refused : isPrivateAddress quad.text = true := by
      rw [isPrivateAddress_quad, isPrivateV4_of_block listed inside]
    have valid : isIP quad.text ≠ 0 := by simp [isIP_quad]
    exact ⟨refused, (assertPublicHost_refuses_iff (bare_quad quad) valid _ _).mpr refused⟩
  · intro form guarded
    refine ⟨isPrivateAddress_iff guarded, ?_⟩
    have valid : isIP form.text ≠ 0 := by simp [isIP_form]
    intro hostname listed
    rw [← isPrivateAddress_iff guarded]
    rcases List.mem_pair.mp listed with rfl | rfl
    · exact assertPublicHost_refuses_iff (bare_text form) valid _ _
    · exact assertPublicHost_refuses_iff (bare_bracketed form) valid _ _

/-- The mapped form of the loopback quad in capitals is refused in brackets, and so is the quad. -/
theorem refused_spellings_loopback
    : isPrivateAddress "127.0.0.1" = true
      ∧ (∃ error, assertPublicHost (fun _ => none) none "[::FFFF:7F00:1]" = .error error) := by
  obtain ⟨-, -, quads, forms⟩ := refused_spellings (fun _ => none) none
  let mapped : Ipv6Form :=
    { front := []
      back := some
        [⟨"FFFF".toList, by decide⟩, ⟨"7F00".toList, by decide⟩, ⟨"1".toList, by decide⟩]
      dotted := none
      zone := none
      fits := by decide }
  have quad := (quads (.ofOctets 127 0 0 1) (.ofOctets 127 0 0 0, 8) (by decide) (by decide)).1
  have guarded : Guarded mapped.address := .mapped (by decide) (by decide)
  have recognised : Recognised mapped :=
    .inr (.inr (.inr ⟨rfl, rfl, _, rfl, by decide⟩))
  exact ⟨quad, ((forms mapped guarded).2 _ (by decide)).mpr recognised⟩

/-- The loopback quad at the end of an address is let through where two groups write it, as they
do after a URL is parsed.
-/
theorem compatible_groups_let_through
    : ∃ form : Ipv6Form,
        form.text = "::7f00:1"
        ∧ Guarded form.address
        ∧ isPrivateAddress (DottedQuad.ofAddress form.address).text = true
        ∧ isIP form.text = 6
        ∧ isPrivateAddress form.text = false
        ∧ assertPublicHost (fun _ => none) none "[::7f00:1]" = .ok () := by
  let form : Ipv6Form :=
    { front := []
      back := some [⟨"7f00".toList, by decide⟩, ⟨"1".toList, by decide⟩]
      dotted := none
      zone := none
      fits := by decide }
  refine ⟨form, by decide, .compatible (by decide) (by decide), by decide, by decide, by decide, ?_⟩
  decide

end Cixtech.Webhooks
