import Cixtech.Foundation.IpTexts

/-! The textual forms of IPv6 addresses. A form writes an address, and a text is accepted exactly
where some form writes it.
-/

namespace Cixtech.Foundation.IpTexts

-----------------------------------------------------------------------------
-- Forms

def isZoneChar (c : Char) : Bool := c.isAlphanum || ['-', '.', ':'].contains c

def isZone (text : List Char) : Bool := !text.isEmpty && text.all isZoneChar

structure Zone where
  letters : List Char
  shape : isZone letters = true

/-- How many groups a quad at the end takes the place of. -/
def dottedWidth (dotted : Option DottedQuad) : Nat := if dotted.isSome then 2 else 0

/-- A text of an address: the groups in front, those behind the elided ones where some are, a
dotted quad that is the last two, and a zone.
-/
structure Ipv6Form where
  front : List HexGroup
  back : Option (List HexGroup)
  dotted : Option DottedQuad
  zone : Option Zone
  fits
    : match back with
      | none => front.length + dottedWidth dotted = 8
      | some back => front.length + back.length + dottedWidth dotted ≤ 7

/-- The pieces of a run of groups, of which a quad is the last one. -/
def runPieces (groups : List HexGroup) (dotted : Option DottedQuad) : List (List Char) :=
  groups.map HexGroup.digits ++ dotted.toList.map DottedQuad.letters

/-- A side of an elision, which is an empty piece where nothing stands on it. -/
def side (pieces : List (List Char)) : List (List Char) :=
  if pieces = [] then [[]] else pieces

namespace Ipv6Form

/-- What stands between the colons. -/
def pieces (form : Ipv6Form) : List (List Char) :=
  match form.back with
  | none => runPieces form.front form.dotted
  | some back => side (form.front.map HexGroup.digits) ++ [] :: side (runPieces back form.dotted)

def body (form : Ipv6Form) : List Char := [':'].intercalate form.pieces

def letters (form : Ipv6Form) : List Char :=
  match form.zone with
  | none => form.body
  | some zone => form.body ++ '%' :: zone.letters

def text (form : Ipv6Form) : String := String.ofList form.letters

/-- The hextets that the groups and the quad of a run stand for. -/
def runHextets (groups : List HexGroup) (dotted : Option DottedQuad) : List Nat :=
  groups.map HexGroup.value ++ dotted.toList.flatMap DottedQuad.hextets

/-- The eight hextets, with zeros for the elided ones. -/
def hextets (form : Ipv6Form) : List Nat :=
  match form.back with
  | none => runHextets form.front form.dotted
  | some back =>
      form.front.map HexGroup.value
      ++ List.replicate (8 - (form.front.length + back.length + dottedWidth form.dotted)) 0
      ++ runHextets back form.dotted

/-- The number of the address. -/
def address (form : Ipv6Form) : Nat := Regrouping.number 16 form.hextets

end Ipv6Form

-----------------------------------------------------------------------------
-- Acceptance

/-- How many groups the pieces of a run stand for, where it is one. -/
def runWidth : List (List Char) → Option Nat
  | [] => some 0
  | piece :: rest =>
      if isGroup piece then (runWidth rest).map (· + 1)
      else if isDottedQuad piece && rest.isEmpty then some 2
      else none

/-- What stands on a side of an elision. -/
def unside (pieces : List (List Char)) : Option (List (List Char)) :=
  if pieces = [] then none else if pieces = [[]] then some [] else some pieces

/-- Whether the pieces on both sides of an elision leave a group to it. -/
def elides (front back : List (List Char)) : Bool :=
  match unside front, unside back with
  | some front, some back =>
      front.all isGroup && (runWidth back).any fun width => decide (front.length + width ≤ 7)
  | _, _ => false

/-- Whether pieces are eight groups, or fewer around an empty piece. -/
def isBody (pieces : List (List Char)) : Bool :=
  runWidth pieces = some 8
  || (List.range pieces.length).any fun index =>
      pieces[index]? = some [] && elides (pieces.take index) (pieces.drop (index + 1))

/-- Whether a text is an IPv6 address, with a zone behind it or not. -/
def isIpv6 (text : List Char) : Bool :=
  match text.splitOn '%' with
  | [body] => isBody (body.splitOn ':')
  | [body, zone] => isZone zone && isBody (body.splitOn ':')
  | _ => false

-----------------------------------------------------------------------------
-- What is accepted

/-- A quad is no group, for it has a full stop. -/
theorem isGroup_letters (quad : DottedQuad) : isGroup quad.letters = false := by
  refine Bool.eq_false_iff.mpr fun group => ?_
  have digit := HexGroup.mem_hexDigits ⟨_, group⟩ quad.stop_mem_letters
  revert digit
  decide

theorem runWidth_runPieces (groups : List HexGroup) (dotted : Option DottedQuad)
    : runWidth (runPieces groups dotted) = some (groups.length + dottedWidth dotted) := by
  induction groups with
  | nil =>
      cases dotted with
      | none => rfl
      | some quad =>
          have accepted : isDottedQuad quad.letters = true := isDottedQuad_iff.mpr ⟨quad, rfl⟩
          simp [runPieces, runWidth, isGroup_letters, accepted, dottedWidth]
  | cons group rest ih =>
      simp only [runPieces, List.map_cons, List.cons_append] at ih ⊢
      rw [runWidth, if_pos group.shape, ih, Option.map_some, List.length_cons]
      congr 1
      omega

/-- The pieces of a run are groups and perhaps a quad, by induction on the pieces. -/
theorem exists_of_runWidth {pieces : List (List Char)} {width : Nat}
    (run : runWidth pieces = some width)
    : ∃ groups dotted,
        runPieces groups dotted = pieces ∧ groups.length + dottedWidth dotted = width := by
  induction pieces generalizing width with
  | nil => exact ⟨[], none, rfl, by simpa [runWidth, dottedWidth] using run⟩
  | cons piece rest ih =>
      rw [runWidth] at run
      split at run
      case isTrue group =>
        obtain ⟨later, found, rfl⟩ := Option.map_eq_some_iff.mp run
        obtain ⟨groups, dotted, rfl, rfl⟩ := ih found
        refine ⟨⟨piece, group⟩ :: groups, dotted, rfl, ?_⟩
        rw [List.length_cons]
        omega
      case isFalse =>
        split at run
        case isFalse => cases run
        case isTrue last =>
          rw [Bool.and_eq_true, List.isEmpty_iff] at last
          obtain ⟨accepted, rfl⟩ := last
          obtain ⟨quad, rfl⟩ := isDottedQuad_iff.mp accepted
          cases run
          exact ⟨[], some quad, rfl, rfl⟩

theorem ne_empty_of_group {groups : List HexGroup} : groups.map HexGroup.digits ≠ [[]] := by
  intro same
  have member : ([] : List Char) ∈ groups.map HexGroup.digits := by rw [same]; simp
  have shape := isGroup_of_mem member
  cases shape

theorem ne_empty_of_run {groups : List HexGroup} {dotted : Option DottedQuad}
    : runPieces groups dotted ≠ [[]] := by
  intro same
  have run := runWidth_runPieces groups dotted
  rw [same] at run
  cases run

theorem unside_side {pieces : List (List Char)} (some : pieces ≠ [[]])
    : unside (side pieces) = .some pieces := by
  unfold side
  split
  case isTrue none => rw [none]; rfl
  case isFalse there => rw [unside, if_neg there, if_neg some]

theorem side_of_unside {pieces standing : List (List Char)} (found : unside pieces = some standing)
    : side standing = pieces := by
  unfold unside at found
  split at found
  case isTrue => cases found
  case isFalse there =>
    split at found
    case isTrue empty => cases found; rw [empty]; rfl
    case isFalse =>
      cases found
      rw [side, if_neg there]

/-- The two sides of an elision are groups and a run that leave a group to it. -/
theorem elides_iff {front back : List (List Char)}
    : elides front back = true
      ↔ ∃ (groups later : List HexGroup) (dotted : Option DottedQuad),
          side (groups.map HexGroup.digits) = front
          ∧ side (runPieces later dotted) = back
          ∧ groups.length + later.length + dottedWidth dotted ≤ 7 := by
  constructor
  · intro accepted
    unfold elides at accepted
    split at accepted
    case h_2 => cases accepted
    case h_1 left right foundLeft foundRight =>
      rw [Bool.and_eq_true, List.all_eq_true, Option.any_eq_true] at accepted
      obtain ⟨each, width, run, fits⟩ := accepted
      obtain ⟨groups, rfl⟩ := exists_groups each
      obtain ⟨later, dotted, rfl, rfl⟩ := exists_of_runWidth run
      rw [decide_eq_true_eq, List.length_map] at fits
      exact ⟨groups, later, dotted, side_of_unside foundLeft, side_of_unside foundRight, by omega⟩
  · rintro ⟨groups, later, dotted, rfl, rfl, fits⟩
    have each : (groups.map HexGroup.digits).all isGroup = true :=
      List.all_eq_true.mpr fun _ member => isGroup_of_mem member
    simp only [elides, unside_side ne_empty_of_group, unside_side ne_empty_of_run, each,
      runWidth_runPieces, Option.any_some, Bool.true_and, decide_eq_true_eq, List.length_map]
    omega

theorem isBody_iff {pieces : List (List Char)}
    : isBody pieces = true ↔ ∃ form : Ipv6Form, form.zone = none ∧ form.pieces = pieces := by
  constructor
  · intro accepted
    rw [isBody, Bool.or_eq_true, List.any_eq_true] at accepted
    rcases accepted with whole | ⟨index, -, here⟩
    · obtain ⟨groups, dotted, rfl, fits⟩ := exists_of_runWidth (by simpa using whole)
      exact ⟨⟨groups, none, dotted, none, fits⟩, rfl, rfl⟩
    · rw [Bool.and_eq_true, decide_eq_true_eq] at here
      obtain ⟨groups, later, dotted, front, back, fits⟩ := elides_iff.mp here.2
      refine ⟨⟨groups, some later, dotted, none, fits⟩, rfl, ?_⟩
      obtain ⟨inside, empty⟩ := List.getElem?_eq_some_iff.mp here.1
      have whole : pieces.take index ++ [] :: pieces.drop (index + 1) = pieces := by
        rw [← empty, ← List.drop_eq_getElem_cons inside, List.take_append_drop]
      simpa only [Ipv6Form.pieces, front, back] using whole
  · rintro ⟨⟨front, back, dotted, zone, fits⟩, -, rfl⟩
    rw [isBody, Bool.or_eq_true, List.any_eq_true]
    cases back with
    | none =>
        left
        dsimp only at fits
        simp [Ipv6Form.pieces, runWidth_runPieces, fits]
    | some back =>
        right
        refine ⟨(side (front.map HexGroup.digits)).length, ?_, ?_⟩
        · simp [Ipv6Form.pieces]
        · have two := elides_iff.mpr ⟨front, back, dotted, rfl, rfl, fits⟩
          simpa [Ipv6Form.pieces] using two

theorem mem_side {pieces : List (List Char)} {piece : List Char} (member : piece ∈ side pieces)
    : piece = [] ∨ piece ∈ pieces := by
  unfold side at member
  split at member
  case isTrue => exact .inl (List.mem_singleton.mp member)
  case isFalse => exact .inr member

theorem mem_runPieces {groups : List HexGroup} {dotted : Option DottedQuad} {piece : List Char}
    (member : piece ∈ runPieces groups dotted)
    : (∃ group : HexGroup, group.digits = piece) ∨ ∃ quad : DottedQuad, quad.letters = piece := by
  rcases List.mem_append.mp member with group | quad
  · obtain ⟨own, -, same⟩ := List.mem_map.mp group
    exact .inl ⟨own, same⟩
  · obtain ⟨own, -, same⟩ := List.mem_map.mp quad
    exact .inr ⟨own, same⟩

/-- What is in joined pieces is the separator or in a piece, by induction on the pieces. -/
theorem mem_intercalate {c separator : Char} {pieces : List (List Char)}
    (member : c ∈ [separator].intercalate pieces)
    : c = separator ∨ ∃ piece ∈ pieces, c ∈ piece := by
  induction pieces with
  | nil => simp at member
  | cons piece rest ih =>
      cases rest with
      | nil => exact .inr ⟨piece, List.mem_cons_self, by simpa using member⟩
      | cons next more =>
          rw [List.intercalate_cons_cons, List.mem_append, List.mem_append,
            List.mem_singleton] at member
          rcases member with (here | colon) | later
          · exact .inr ⟨piece, List.mem_cons_self, here⟩
          · exact .inl colon
          · rcases ih later with colon | ⟨other, there, inside⟩
            · exact .inl colon
            · exact .inr ⟨other, List.mem_cons_of_mem _ there, inside⟩

namespace Ipv6Form

variable {form : Ipv6Form}

/-- Between the colons stand groups, quads and empty pieces. -/
theorem mem_pieces {piece : List Char} (member : piece ∈ form.pieces)
    : piece = []
      ∨ (∃ group : HexGroup, group.digits = piece)
      ∨ ∃ quad : DottedQuad, quad.letters = piece := by
  unfold pieces at member
  split at member
  · exact .inr (mem_runPieces member)
  · rcases List.mem_append.mp member with front | back
    · rcases mem_side front with empty | group
      · exact .inl empty
      · obtain ⟨own, -, same⟩ := List.mem_map.mp group
        exact .inr (.inl ⟨own, same⟩)
    · rcases List.mem_cons.mp back with empty | later
      · exact .inl empty
      · exact (mem_side later).imp id mem_runPieces

/-- A character that is in no group and in no quad is in no piece. -/
theorem plain_pieces {c : Char} (hex : c ∉ hexDigits) (digit : c.isDigit = false) (stop : c ≠ '.')
    : ∀ piece ∈ form.pieces, c ∉ piece := by
  intro piece member
  rcases mem_pieces member with rfl | ⟨group, rfl⟩ | ⟨quad, rfl⟩
  · exact List.not_mem_nil
  · exact group.plain hex
  · exact DottedQuad.plain digit stop

theorem pieces_ne_nil : form.pieces ≠ [] := by
  obtain ⟨front, back, dotted, zone, fits⟩ := form
  cases back with
  | none =>
      intro none
      dsimp only at fits
      have run := runWidth_runPieces front dotted
      rw [show runPieces front dotted = [] from none, fits] at run
      cases run
  | some back => simp [pieces]

/-- A body is split into the pieces of its form. -/
theorem splitOn_body : form.body.splitOn ':' = form.pieces :=
  List.splitOn_intercalate ':' (plain_pieces (by decide) (by decide) (by decide)) pieces_ne_nil

theorem plain_body {c : Char} (hex : c ∉ hexDigits) (digit : c.isDigit = false) (stop : c ≠ '.')
    (colon : c ≠ ':')
    : c ∉ form.body := by
  intro member
  rcases mem_intercalate member with same | ⟨piece, there, inside⟩
  · exact colon same
  · exact plain_pieces hex digit stop piece there inside

/-- No body has the sign that a zone begins with. -/
theorem percent_not_mem_body : '%' ∉ form.body :=
  plain_body (by decide) (by decide) (by decide) (by decide)

/-- Every body has a colon, for it has more pieces than one. -/
theorem colon_mem_body : ':' ∈ form.body := by
  by_contra plain
  have one : form.pieces.length = 1 := by
    rw [← splitOn_body, List.splitOn_eq_singleton plain]
    rfl
  obtain ⟨front, back, dotted, zone, fits⟩ := form
  cases back with
  | none =>
      have few : dottedWidth dotted ≤ 2 := by
        unfold dottedWidth
        split <;> decide
      simp only [pieces, runPieces, List.length_append, List.length_map] at one
      dsimp only at fits
      omega
  | some back =>
      have sides : ∀ pieces : List (List Char), 0 < (side pieces).length := by
        intro pieces
        unfold side
        split
        · decide
        · exact List.length_pos_iff.mpr ‹_›
      have first := sides (front.map HexGroup.digits)
      simp only [pieces, List.length_append, List.length_cons] at one
      omega

theorem pieces_of_front {group : HexGroup} {groups : List HexGroup}
    (front : form.front = group :: groups)
    : ∃ more, form.pieces = group.digits :: more := by
  unfold pieces
  rw [front]
  split
  · exact ⟨_, rfl⟩
  · exact ⟨_, rfl⟩

/-- A text whose form has a group in front begins with that group and a colon. -/
theorem letters_of_front {group : HexGroup} {groups : List HexGroup}
    (front : form.front = group :: groups)
    : ∃ rest, form.letters = group.digits ++ ':' :: rest := by
  obtain ⟨more, pieces⟩ := pieces_of_front front
  have begins : ∃ rest, form.body = group.digits ++ ':' :: rest := by
    rw [body, pieces]
    cases more with
    | nil =>
        have colon := form.colon_mem_body
        rw [body, pieces, List.intercalate_singleton] at colon
        exact absurd colon (group.plain (by decide))
    | cons next later =>
        exact ⟨[':'].intercalate (next :: later), by simp [List.intercalate_cons_cons]⟩
  obtain ⟨rest, same⟩ := begins
  unfold letters
  cases form.zone with
  | none => exact ⟨rest, same⟩
  | some zone => exact ⟨rest ++ '%' :: zone.letters, by simp [same]⟩

end Ipv6Form

/-- A text is accepted exactly where some form writes it. -/
theorem isIpv6_iff {text : List Char}
    : isIpv6 text = true ↔ ∃ form : Ipv6Form, form.letters = text := by
  constructor
  · intro accepted
    unfold isIpv6 at accepted
    have whole : ['%'].intercalate (text.splitOn '%') = text := List.intercalate_splitOn '%'
    split at accepted
    case h_3 => cases accepted
    case h_1 body split =>
      obtain ⟨form, none, same⟩ := isBody_iff.mp accepted
      rw [split, List.intercalate_singleton] at whole
      refine ⟨form, ?_⟩
      rw [Ipv6Form.letters, none, Ipv6Form.body, same, List.intercalate_splitOn, whole]
    case h_2 body zone split =>
      obtain ⟨zoned, accepted⟩ := (Bool.and_eq_true _ _).mp accepted
      obtain ⟨form, -, same⟩ := isBody_iff.mp accepted
      rw [split, List.intercalate_cons_cons, List.intercalate_singleton] at whole
      have own : form.body = body := by
        rw [Ipv6Form.body, same, List.intercalate_splitOn]
      have written : form.body ++ '%' :: zone = text := by
        rw [own, ← whole]
        simp
      exact ⟨{ form with zone := some ⟨zone, zoned⟩ }, written⟩
  · rintro ⟨form, rfl⟩
    have accepted : isBody (form.body.splitOn ':') = true := by
      rw [form.splitOn_body]
      exact isBody_iff.mpr ⟨{ form with zone := none }, rfl, rfl⟩
    have plain : '%' ∉ form.body := form.percent_not_mem_body
    unfold isIpv6 Ipv6Form.letters
    cases form.zone with
    | none => simp [List.splitOn_eq_singleton plain, accepted]
    | some zone =>
        have zonePlain : '%' ∉ zone.letters := by
          have shape := zone.shape
          rw [isZone, Bool.and_eq_true, List.all_eq_true] at shape
          intro member
          have zoned := shape.2 _ member
          revert zoned
          decide
        simp [List.splitOn_append_cons_self_of_not_mem plain,
          List.splitOn_eq_singleton zonePlain, zone.shape, accepted]

-----------------------------------------------------------------------------
-- Addresses

namespace Ipv6Form

variable {form : Ipv6Form}

theorem runHextets_lt {groups : List HexGroup} {dotted : Option DottedQuad} {hextet : Nat}
    (member : hextet ∈ runHextets groups dotted)
    : hextet < 2 ^ 16 := by
  rcases List.mem_append.mp member with group | quad
  · obtain ⟨own, -, rfl⟩ := List.mem_map.mp group
    exact own.value_lt
  · obtain ⟨own, -, inside⟩ := List.mem_flatMap.mp quad
    exact DottedQuad.hextets_lt inside

theorem length_runHextets (groups : List HexGroup) (dotted : Option DottedQuad)
    : (runHextets groups dotted).length = groups.length + dottedWidth dotted := by
  cases dotted <;> simp [runHextets, dottedWidth, DottedQuad.hextets]

theorem hextets_lt {hextet : Nat} (member : hextet ∈ form.hextets) : hextet < 2 ^ 16 := by
  unfold hextets at member
  split at member
  · exact runHextets_lt member
  · rcases List.mem_append.mp member with before | back
    · rcases List.mem_append.mp before with front | zero
      · obtain ⟨own, -, rfl⟩ := List.mem_map.mp front
        exact own.value_lt
      · rw [List.eq_of_mem_replicate zero]
        decide
    · exact runHextets_lt back

/-- Every form writes eight hextets. -/
theorem length_hextets (form : Ipv6Form) : form.hextets.length = 8 := by
  obtain ⟨front, back, dotted, zone, fits⟩ := form
  cases back with
  | none => simpa [hextets, length_runHextets] using fits
  | some back =>
      dsimp only at fits
      simp only [hextets, List.length_append, List.length_map, List.length_replicate,
        length_runHextets]
      omega

/-- A network of at most sixteen bits is told by the first hextet. -/
theorem inNetwork_iff {first network bits : Nat} {rest : List Nat} (few : bits ≤ 16)
    (split : form.hextets = first :: rest)
    : inNetwork 128 (network * 2 ^ 112) bits form.address
      ↔ first / 2 ^ (16 - bits) = network / 2 ^ (16 - bits) := by
  have seven : rest.length = 7 := by
    have eight := form.length_hextets
    rw [split, List.length_cons] at eight
    omega
  have above : form.address / 2 ^ 112 = first := by
    have divided : Regrouping.number 16 ([first] ++ rest) / 2 ^ (16 * rest.length)
        = Regrouping.number 16 [first] :=
      Regrouping.number_div fun hextet member =>
        hextets_lt (split ▸ List.mem_cons_of_mem _ member)
    rw [seven] at divided
    rw [address, split]
    simpa [Regrouping.number] using divided
  have power : 2 ^ (128 - bits) = 2 ^ 112 * 2 ^ (16 - bits) := by
    rw [← Nat.pow_add]
    congr 1
    omega
  rw [inNetwork, power, ← Nat.div_div_eq_div_mul, ← Nat.div_div_eq_div_mul, above,
    Nat.mul_div_cancel _ (Nat.two_pow_pos 112)]

/-- What the first group writes is the first hextet. -/
theorem hextets_of_front {group : HexGroup} {groups : List HexGroup}
    (front : form.front = group :: groups)
    : ∃ rest, form.hextets = group.value :: rest := by
  unfold hextets
  split <;> simp [runHextets, front]

theorem pieces_of_elided {back : List HexGroup} (front : form.front = [])
    (elided : form.back = some back)
    : form.pieces = [] :: [] :: side (runPieces back form.dotted) := by
  simp [pieces, elided, front, side]

theorem body_of_elided {back : List HexGroup} (front : form.front = [])
    (elided : form.back = some back)
    : form.body = ':' :: ':' :: [':'].intercalate (side (runPieces back form.dotted)) := by
  have some : side (runPieces back form.dotted) ≠ [] := by
    unfold side
    split <;> simp_all
  obtain ⟨first, rest, split⟩ := List.exists_cons_of_ne_nil some
  rw [body, pieces_of_elided front elided, split]
  rfl

/-- Without a group in front the address begins with the hextets that are elided. -/
theorem hextets_of_elided {back : List HexGroup} (front : form.front = [])
    (elided : form.back = some back)
    : form.hextets
      = List.replicate (8 - (back.length + dottedWidth form.dotted)) 0
        ++ runHextets back form.dotted := by
  simp [hextets, elided, front]

/-- At least one hextet is elided. -/
theorem zero_of_elided {back : List HexGroup} (front : form.front = [])
    (elided : form.back = some back)
    : ∃ rest, form.hextets = 0 :: rest := by
  have fits := form.fits
  rw [elided, front] at fits
  dsimp only [List.length_nil] at fits
  rw [hextets_of_elided front elided]
  obtain ⟨more, count⟩ : ∃ more, 8 - (back.length + dottedWidth form.dotted) = more + 1 :=
    ⟨7 - (back.length + dottedWidth form.dotted), by omega⟩
  exact ⟨_, by rw [count, List.replicate_succ, List.cons_append]⟩

theorem address_of_elided {back : List HexGroup} (front : form.front = [])
    (elided : form.back = some back)
    : form.address = Regrouping.number 16 (runHextets back form.dotted) := by
  rw [address, hextets_of_elided front elided, Regrouping.number_replicate_append]

/-- A form has a group in front, or begins with an elision. -/
theorem front_cases (form : Ipv6Form)
    : (∃ group groups, form.front = group :: groups)
      ∨ ∃ back, form.front = [] ∧ form.back = some back := by
  obtain ⟨front, back, dotted, zone, fits⟩ := form
  cases front with
  | cons group groups => exact .inl ⟨group, groups, rfl⟩
  | nil =>
      cases back with
      | some back => exact .inr ⟨back, rfl, rfl⟩
      | none =>
          dsimp only [List.length_nil] at fits
          unfold dottedWidth at fits
          split at fits <;> omega

end Ipv6Form

-----------------------------------------------------------------------------
-- Lower case

/-- What turns into a character in front of the small letters is that character. -/
theorem eq_of_toLower {c separator : Char} (small : separator.toNat < 97)
    (same : c.toLower = separator)
    : c = separator := by
  unfold Char.toLower at same
  split at same
  case isFalse => exact same
  case isTrue upper =>
    have atLeast : 65 ≤ c.val.toNat := UInt32.le_iff_toNat_le.mp upper.1
    have atMost : c.val.toNat ≤ 90 := UInt32.le_iff_toNat_le.mp upper.2
    have shifted : (c.val + ('a'.val - 'A'.val)).toNat = c.val.toNat + 32 := by
      rw [UInt32.toNat_add]
      have gap : ('a'.val - 'A'.val).toNat = 32 := by decide
      omega
    have code := congrArg Char.toNat same
    change (c.val + ('a'.val - 'A'.val)).toNat = separator.toNat at code
    omega

/-- Nothing in front of the capitals is lowered. -/
theorem toLower_of_lt {c : Char} (small : c.toNat < 65) : c.toLower = c := by
  unfold Char.toLower
  split
  case isFalse => rfl
  case isTrue upper =>
    have atLeast : 65 ≤ c.val.toNat := UInt32.le_iff_toNat_le.mp upper.1
    exact absurd small (Nat.not_lt.mpr atLeast)

theorem map_intercalate (f : Char → Char) (separator : Char) (pieces : List (List Char))
    : ([separator].intercalate pieces).map f
      = [f separator].intercalate (pieces.map fun piece => piece.map f) := by
  induction pieces with
  | nil => rfl
  | cons piece rest ih =>
      cases rest with
      | nil => simp
      | cons next more =>
          rw [List.intercalate_cons_cons, List.map_append, List.map_append, ih]
          simp [List.intercalate_cons_cons]

namespace Ipv6Form

/-- A body in lower case is split into its pieces in lower case. -/
theorem splitOn_lower (form : Ipv6Form)
    : (form.body.map Char.toLower).splitOn ':'
      = form.pieces.map fun piece => piece.map Char.toLower := by
  rw [body, map_intercalate]
  refine List.splitOn_intercalate ':' ?_ (by simpa using form.pieces_ne_nil)
  intro lowered member inside
  obtain ⟨piece, there, rfl⟩ := List.mem_map.mp member
  obtain ⟨c, own, same⟩ := List.mem_map.mp inside
  obtain rfl := eq_of_toLower (by decide) same
  exact plain_pieces (by decide) (by decide) (by decide) piece there own

end Ipv6Form

end Cixtech.Foundation.IpTexts
