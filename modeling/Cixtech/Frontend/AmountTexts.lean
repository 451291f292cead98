import Cixtech.Frontend.Money

/-! What either side shows of an amount, read back by the frontend. The digits are all there, and
commas, a sign and zeros at the ends do not hide any, so that no two amounts look alike.
-/

namespace Cixtech.Frontend

open Cixtech.ChainConfig Cixtech.Common Cixtech.Foundation
open Cixtech.Auth (isWhitespace trim)

-----------------------------------------------------------------------------
-- Commas

/-- A text without its commas. -/
def withoutCommas (text : List Char) : List Char := text.filter (· ≠ ',')

theorem withoutCommas_append (front back : List Char)
    : withoutCommas (front ++ back) = withoutCommas front ++ withoutCommas back :=
  List.filter_append ..

theorem withoutCommas_eq {text : List Char} (plain : ',' ∉ text) : withoutCommas text = text := by
  refine List.filter_eq_self.mpr fun c member => decide_eq_true ?_
  rintro rfl
  exact plain member

/-- Grouping inserts nothing but commas, by induction on the digits. -/
theorem withoutCommas_groupFrom (before : Option Char) (digits : List Char)
    : withoutCommas (groupFrom before digits) = withoutCommas digits := by
  induction digits generalizing before with
  | nil => rfl
  | cons c rest ih =>
      have onwards := ih (some c)
      unfold withoutCommas at onwards ⊢
      unfold groupFrom
      dsimp only
      split
      · rw [List.filter_cons_of_neg (by simp), List.filter_cons, List.filter_cons, onwards]
      · rw [List.filter_cons, List.filter_cons, onwards]

/-- No comma stands in front of the first digit. -/
theorem head?_group {digits : List Char} (all : ∀ c ∈ digits, c.isDigit = true)
    : (group digits).head? = digits.head? := by
  cases digits with
  | nil => rfl
  | cons c rest =>
      have word : isWord c = true := by
        simp [isWord, Char.isAlphanum, all c (by simp)]
      simp [group, groupFrom, word]

theorem not_comma_of_isDigit {c : Char} (digit : c.isDigit = true) : c ≠ ',' := by
  rintro rfl
  cases digit

theorem withoutCommas_group {digits : List Char} (all : ∀ c ∈ digits, c.isDigit = true)
    : withoutCommas (group digits) = digits := by
  rw [group, withoutCommas_groupFrom]
  exact withoutCommas_eq fun member => not_comma_of_isDigit (all _ member) rfl

-----------------------------------------------------------------------------
-- Signs

/-- A text of the size of an amount, behind the sign. -/
def signed (amount : Int) (body : Nat → List Char) : List Char :=
  (if amount < 0 then ['-'] else []) ++ body amount.natAbs

/-- Where the sizes are told apart and none of them begins with a sign, amounts are. -/
theorem signed_inj {body : Nat → List Char} (inj : ∀ m n, body m = body n → m = n)
    (front : ∀ n, (body n).head? ≠ some '-') {amount other : Int}
    (same : signed amount body = signed other body)
    : amount = other := by
  unfold signed at same
  by_cases negative : amount < 0 <;> by_cases otherNegative : other < 0
  · simp only [negative, otherNegative, if_true] at same
    have sizes := inj _ _ (List.append_cancel_left same)
    omega
  · simp only [negative, otherNegative, if_true, if_false, List.nil_append] at same
    exact absurd (by rw [← same]; rfl) (front other.natAbs)
  · simp only [negative, otherNegative, if_true, if_false, List.nil_append] at same
    exact absurd (by rw [same]; rfl) (front amount.natAbs)
  · simp only [negative, otherNegative, if_false, List.nil_append] at same
    have sizes := inj _ _ same
    omega

/-- A whole and a fraction are told by their text. -/
theorem pointed_inj {whole other : List Char} {fraction later : Option (List Char)}
    (some_ : whole ≠ []) (otherSome : other ≠ []) (digits : ∀ c ∈ whole, c.isDigit = true)
    (otherDigits : ∀ c ∈ other, c.isDigit = true)
    (fractionDigits : ∀ c ∈ fraction.getD [], c.isDigit = true)
    (laterDigits : ∀ c ∈ later.getD [], c.isDigit = true)
    (same : whole ++ pointed fraction = other ++ pointed later)
    : whole = other ∧ fraction.getD [] = later.getD [] := by
  have parts := (decimalParts_eq some_ digits fractionDigits).symm.trans
    ((congrArg decimalParts same).trans (decimalParts_eq otherSome otherDigits laterDigits))
  exact Prod.mk.inj (Option.some.inj parts)

-----------------------------------------------------------------------------
-- The texts of the two sides

/-- A text of an amount of units: digits with an optional fraction that fits the scale. -/
structure Spelling (scale amount : Nat) (whole : List Char) (fraction : Option (List Char))
    : Prop where
  some_ : whole ≠ []
  digits : ∀ c ∈ whole, c.isDigit = true
  fractionDigits : ∀ c ∈ fraction.getD [], c.isDigit = true
  short : (fraction.getD []).length ≤ scale
  value : FixedPoint.units scale whole (fraction.getD []) = amount

namespace Spelling

variable {scale amount : Nat} {whole : List Char} {fraction : Option (List Char)}

theorem inj {other : Nat} {front : List Char} {later : Option (List Char)}
    (spelling : Spelling scale amount whole fraction)
    (again : Spelling scale other front later)
    (same : whole ++ pointed fraction = front ++ pointed later)
    : amount = other := by
  obtain ⟨wholes, fractions⟩ := pointed_inj spelling.some_ again.some_ spelling.digits again.digits
    spelling.fractionDigits again.fractionDigits same
  rw [← spelling.value, wholes, fractions, again.value]

theorem plain (spelling : Spelling scale amount whole fraction)
    : ∀ c ∈ whole ++ pointed fraction, c.isDigit = true ∨ c = '.' := by
  intro c member
  rcases List.mem_append.mp member with digit | behind
  · exact .inl (spelling.digits c digit)
  · cases fraction with
    | none => cases behind
    | some fraction =>
        rcases List.mem_cons.mp behind with point | digit
        · exact .inr point
        · exact .inl (spelling.fractionDigits c digit)

theorem toBaseUnits_eq {casing : Casing} {assets : List (String × AssetInfo)} {asset : String}
    {info : AssetInfo} (spelling : Spelling info.decimals amount whole fraction)
    (known : assetInfo casing assets (some asset) = some info)
    : toBaseUnits casing assets (String.ofList (whole ++ pointed fraction)) asset
      = some (toString amount) := by
  have untrimmed : trim (String.ofList (whole ++ pointed fraction))
      = String.ofList (whole ++ pointed fraction) := by
    refine trim_of_plain fun c member => ?_
    rcases spelling.plain c member with digit | rfl
    · exact isWhitespace_of_isDigit digit
    · rfl
  rw [Frontend.toBaseUnits_eq known spelling.some_ spelling.digits spelling.fractionDigits
    untrimmed, if_pos spelling.short, spelling.value]

theorem head? (spelling : Spelling scale amount whole fraction)
    : (whole ++ pointed fraction).head? ≠ some '-' := by
  obtain ⟨first, rest, rfl⟩ := List.exists_cons_of_ne_nil spelling.some_
  have digit := spelling.digits first (by simp)
  rw [List.cons_append, List.head?_cons, ne_eq, Option.some.injEq]
  rintro rfl
  cases digit

end Spelling

/-- What the backend shows of an amount that is not negative spells it. -/
theorem exists_spelling_scaledText (decimals amount : Nat)
    : ∃ whole fraction,
        scaledText decimals amount = whole ++ pointed fraction
        ∧ Spelling decimals amount whole fraction := by
  obtain ⟨whole, fraction, shape, some_, digits, fractionDigits, short, value⟩ :=
    scaledText_shape decimals amount
  by_cases empty : fraction = []
  · subst empty
    exact ⟨whole, none, shape, some_, digits, by simp, by simp, value⟩
  · rw [if_neg empty] at shape
    exact ⟨whole, some fraction, shape, some_, digits, fractionDigits, short, value⟩

theorem scaledText_signed (decimals : Nat) (amount : Int)
    : scaledText decimals amount
      = signed amount fun (size : Nat) => scaledText decimals (size : Int) := by
  have positive : ¬ (amount.natAbs : Int) < 0 := by omega
  unfold signed scaledText
  simp only [Int.natAbs_natCast, positive, if_false, List.nil_append]
  split
  · rfl
  · split <;> simp only [List.append_assoc]

/-- The backend shows no two amounts alike at a scale. -/
theorem scaledText_inj {decimals : Nat} {amount other : Int}
    (same : scaledText decimals amount = scaledText decimals other)
    : amount = other := by
  rw [scaledText_signed, scaledText_signed decimals other] at same
  refine signed_inj (fun m n texts => ?_) (fun n => ?_) same
  · obtain ⟨whole, fraction, shape, spelling⟩ := exists_spelling_scaledText decimals m
    obtain ⟨front, later, shapeAgain, again⟩ := exists_spelling_scaledText decimals n
    exact spelling.inj again (by rw [← shape, ← shapeAgain]; exact texts)
  · obtain ⟨whole, fraction, shape, spelling⟩ := exists_spelling_scaledText decimals n
    rw [shape]
    exact spelling.head?

theorem toList_toString_int (amount : Int)
    : (toString amount).toList = signed amount fun size => (toString size).toList := by
  cases amount with
  | ofNat size =>
      have positive : ¬ Int.ofNat size < 0 := by simp
      rw [signed, if_neg positive]
      rfl
  | negSucc size =>
      rw [toList_toString_negSucc, signed, if_pos (Int.negSucc_lt_zero size)]
      rfl

/-- What the frontend shows of the size of an amount. -/
def shown (info : Option AssetInfo) (size : Nat) : List Char :=
  let digits := (toString size).toList
  match info with
  | none => group digits ++ " base units".toList
  | some info =>
      if info.decimals = 0 then group digits
      else
        group (FixedPoint.wholePart info.decimals digits)
          ++ '.' :: (FixedPoint.withoutTrailingZeros
              (FixedPoint.fractionPart info.decimals digits)).rightpad 2 '0'

theorem head?_toString (size : Nat) : (toString size).toList.head? ≠ some '-' := by
  obtain ⟨first, rest, shape⟩ := List.exists_cons_of_ne_nil (toString_ne_nil size)
  have digit := digits_all size first (by rw [shape]; simp)
  rw [shape, List.head?_cons, ne_eq, Option.some.injEq]
  rintro rfl
  cases digit

theorem toList_money (casing : Casing) (assets : List (String × AssetInfo)) (amount : Int)
    (asset : Option String)
    : (money casing assets (some (toString amount)) asset).toList
      = signed amount (shown (assetInfo casing assets asset)) := by
  have some_ := toString_ne_nil amount.natAbs
  have all := List.all_eq_true.mpr (digits_all amount.natAbs)
  have front := head?_toString amount.natAbs
  unfold money moneyParts signed shown
  simp only [Option.getD_some, toList_toString_int, signed]
  generalize (toString amount.natAbs).toList = digits at some_ all front ⊢
  by_cases negative : amount < 0
  · simp only [negative, if_true, List.cons_append, List.nil_append, List.head?_cons,
      List.drop_succ_cons, List.drop_zero, some_, all, Bool.not_true, Bool.false_eq_true, or_self,
      if_false]
    cases assetInfo casing assets asset with
    | none => exact String.toList_ofList
    | some info =>
        by_cases unscaled : info.decimals = 0
        · simp only [unscaled, if_true, String.toList_ofList]
        · simp only [unscaled, if_false, String.toList_ofList]
          rfl
  · simp only [negative, if_false, List.nil_append, front, some_, all, Bool.not_true,
      Bool.false_eq_true, or_self]
    cases assetInfo casing assets asset with
    | none => exact String.toList_ofList
    | some info =>
        by_cases unscaled : info.decimals = 0
        · simp only [unscaled, if_true, String.toList_ofList]
        · simp only [unscaled, if_false, String.toList_ofList]
          rfl

/-- Without its commas, what the frontend shows at a scale spells the amount. -/
theorem exists_spelling_shown {info : AssetInfo} (scale : info.decimals = 0 ∨ 2 ≤ info.decimals)
    (amount : Nat)
    : ∃ whole fraction,
        withoutCommas (shown (some info) amount) = whole ++ pointed fraction
        ∧ Spelling info.decimals amount whole fraction := by
  have digits := digits_all amount
  have value := digitsValue_toString amount
  unfold shown
  by_cases unscaled : info.decimals = 0
  · simp only [unscaled, if_true]
    refine ⟨(toString amount).toList, none, ?_, toString_ne_nil amount, digits, by simp, by simp,
      ?_⟩
    · rw [withoutCommas_group digits]
      simp [pointed]
    · simp [FixedPoint.units, FixedPoint.digitsValue]
  · simp only [unscaled, if_false]
    obtain ⟨allWhole, allFraction⟩ := FixedPoint.parts_all info.decimals digits
    have two : 2 ≤ info.decimals := by omega
    obtain ⟨units, short⟩ := FixedPoint.units_parts (toString amount).toList two
    generalize shape : (FixedPoint.withoutTrailingZeros
      (FixedPoint.fractionPart info.decimals (toString amount).toList)).rightpad 2 '0' = fraction
      at units short
    have fractionDigits : ∀ c ∈ fraction, c.isDigit = true := by
      rw [← shape]
      intro c member
      rcases List.mem_append.mp member with digit | zero
      · exact allFraction c ((List.rdropWhile_prefix _ _).subset digit)
      · rw [List.eq_of_mem_replicate zero]
        decide
    refine ⟨FixedPoint.wholePart info.decimals (toString amount).toList, some fraction, ?_,
      FixedPoint.wholePart_ne_nil _ _, allWhole, fractionDigits, short, units.trans value⟩
    have plain : ',' ∉ '.' :: fraction := by
      intro member
      rcases List.mem_cons.mp member with point | digit
      · cases point
      · exact not_comma_of_isDigit (fractionDigits _ digit) rfl
    rw [withoutCommas_append, withoutCommas_group allWhole, withoutCommas_eq plain]
    rfl

/-- Where the scale leaves room for two digits, the frontend shows no two sizes alike. -/
theorem shown_inj {info : Option AssetInfo}
    (scale : ∀ found, info = some found → found.decimals = 0 ∨ 2 ≤ found.decimals)
    {size other : Nat} (same : shown info size = shown info other)
    : size = other := by
  cases info with
  | none =>
      have groups := congrArg withoutCommas (List.append_cancel_right same)
      rw [withoutCommas_group (digits_all size), withoutCommas_group (digits_all other)] at groups
      exact toString_nat_inj (String.toList_inj.mp groups)
  | some info =>
      obtain ⟨whole, fraction, shape, spelling⟩ := exists_spelling_shown (scale info rfl) size
      obtain ⟨front, later, shapeAgain, again⟩ := exists_spelling_shown (scale info rfl) other
      exact spelling.inj again (by rw [← shape, ← shapeAgain, same])

theorem head?_shown (info : Option AssetInfo) (size : Nat) : (shown info size).head? ≠ some '-' := by
  have grouped : ∀ {digits more : List Char}, digits ≠ [] → (∀ c ∈ digits, c.isDigit = true)
      → (group digits ++ more).head? ≠ some '-' := by
    intro digits more some_ all
    obtain ⟨first, rest, rfl⟩ := List.exists_cons_of_ne_nil some_
    have front := head?_group all
    rw [List.head?_cons] at front
    rw [List.head?_append, front, Option.some_or, ne_eq, Option.some.injEq]
    rintro rfl
    exact absurd (all '-' (by simp)) (by decide)
  have digits := digits_all size
  unfold shown
  cases info with
  | none => exact grouped (toString_ne_nil size) digits
  | some info =>
      dsimp only
      split
      · rw [← List.append_nil (group _)]
        exact grouped (toString_ne_nil size) digits
      · exact grouped (FixedPoint.wholePart_ne_nil _ _)
          (FixedPoint.parts_all info.decimals digits).1

-----------------------------------------------------------------------------
-- The registry on both sides

/-- In a registry one symbol, in whatever letter case, has one number of decimals, and that is
none or two at least.
-/
structure Scales (casing : Casing) (registry : List AssetInfo) : Prop where
  one
    : ∀ asset ∈ registry, ∀ other ∈ registry,
        casing.toUpperCase asset.symbol = casing.toUpperCase other.symbol
        → asset.decimals = other.decimals
  room : ∀ asset ∈ registry, asset.decimals = 0 ∨ 2 ≤ asset.decimals

section Registry

variable {casing : Casing} {registry : List AssetInfo}

theorem mem_of_assetInfo {symbol : Option String} {info : AssetInfo}
    (known : assetInfo casing (setAssets casing (some registry)) symbol = some info)
    : info ∈ registry
      ∧ casing.toUpperCase info.symbol = casing.toUpperCase (symbol.getD "") := by
  obtain ⟨⟨key, found⟩, entry, rfl⟩ := Option.map_eq_some_iff.mp known
  have member := List.mem_reverse.mp (List.mem_of_find?_eq_some entry)
  have own : key = casing.toUpperCase (symbol.getD "") := by simpa using List.find?_some entry
  obtain ⟨asset, among, pair⟩ := List.mem_map.mp member
  obtain ⟨rfl, rfl⟩ := Prod.mk.inj pair
  exact ⟨among, own⟩

/-- What the backend has a scale for is known to the frontend at that scale. -/
theorem Scales.assetInfo_of_decimalsFor (scales : Scales casing registry) {symbol : String}
    {decimals : Nat} (scale : decimalsFor casing registry symbol = some decimals)
    : ∃ info,
        assetInfo casing (setAssets casing (some registry)) (some symbol) = some info
        ∧ info.decimals = decimals := by
  obtain ⟨asset, found, rfl⟩ := Option.map_eq_some_iff.mp scale
  have member := List.mem_of_find?_eq_some found
  have own : asset.symbol = casing.toUpperCase symbol := by simpa using List.find?_some found
  have upper : casing.toUpperCase asset.symbol = casing.toUpperCase symbol := by
    rw [own, casing.toUpperCase_idem]
  cases known : assetInfo casing (setAssets casing (some registry)) (some symbol) with
  | none =>
      have absent := List.find?_eq_none.mp (Option.map_eq_none_iff.mp known)
        (casing.toUpperCase asset.symbol, asset)
        (List.mem_reverse.mpr (List.mem_map_of_mem member))
      exact absurd (decide_eq_true upper) absent
  | some info =>
      obtain ⟨among, same⟩ := mem_of_assetInfo known
      exact ⟨info, rfl, scales.one info among asset member (same.trans upper.symm)⟩

theorem Scales.formatBaseUnits_read (scales : Scales casing registry) {amount : Nat}
    {symbol text : String} (shown_ : formatBaseUnits casing registry amount symbol = some text)
    : toBaseUnits casing (setAssets casing (some registry)) text symbol
      = some (toString amount) := by
  obtain ⟨decimals, scale, rfl⟩ := Option.map_eq_some_iff.mp shown_
  obtain ⟨info, known, rfl⟩ := scales.assetInfo_of_decimalsFor scale
  obtain ⟨whole, fraction, shape, spelling⟩ := exists_spelling_scaledText info.decimals amount
  rw [shape]
  exact spelling.toBaseUnits_eq known

theorem Scales.money_read (scales : Scales casing registry) (amount : Nat) {symbol : String}
    {info : AssetInfo}
    (known : assetInfo casing (setAssets casing (some registry)) (some symbol) = some info)
    : let assets := setAssets casing (some registry)
      toBaseUnits casing assets
          (String.ofList
            (withoutCommas (money casing assets (some (toString amount)) (some symbol)).toList))
          symbol
        = some (toString amount) := by
  intro assets
  have text : (toString amount : String) = toString (amount : Int) := rfl
  obtain ⟨whole, fraction, shape, spelling⟩ :=
    exists_spelling_shown (scales.room info (mem_of_assetInfo known).1) amount
  have positive : ¬ (amount : Int) < 0 := by omega
  rw [text, toList_money, known, signed, if_neg positive, List.nil_append, Int.natAbs_natCast,
    shape]
  exact spelling.toBaseUnits_eq known

theorem describeAmount_inj {amount other : Int} {symbol : String}
    (same : describeAmount casing registry amount symbol
      = describeAmount casing registry other symbol)
    : amount = other := by
  unfold describeAmount formatBaseUnits at same
  cases scale : decimalsFor casing registry symbol with
  | none =>
      simp only [scale, Option.map_none] at same
      have texts := congrArg String.toList same
      simp only [String.toList_append, List.append_assoc] at texts
      exact toString_int_inj (String.toList_inj.mp (List.append_cancel_right texts))
  | some decimals =>
      simp only [scale, Option.map_some] at same
      have texts := congrArg String.toList same
      simp only [String.toList_append, String.toList_ofList, List.append_assoc] at texts
      exact scaledText_inj (List.append_cancel_right texts)

theorem formatBaseUnits_inj {amount other : Int} {symbol text : String}
    (shown_ : formatBaseUnits casing registry amount symbol = some text)
    (again : formatBaseUnits casing registry other symbol = some text)
    : amount = other := by
  obtain ⟨decimals, scale, rfl⟩ := Option.map_eq_some_iff.mp shown_
  rw [formatBaseUnits, scale, Option.map_some, Option.some.injEq] at again
  exact (scaledText_inj (String.ofList_injective again)).symm

theorem Scales.money_inj (scales : Scales casing registry) {amount other : Int}
    {asset : Option String}
    (same : money casing (setAssets casing (some registry)) (some (toString amount)) asset
      = money casing (setAssets casing (some registry)) (some (toString other)) asset)
    : amount = other := by
  have texts := congrArg String.toList same
  rw [toList_money, toList_money] at texts
  refine signed_inj (fun m n => shown_inj fun info found => ?_) (head?_shown _) texts
  exact scales.room info (mem_of_assetInfo found).1

section Typed

variable {assets : List (String × AssetInfo)} {symbol : String}

theorem toBaseUnits_typed {info : AssetInfo}
    (known : assetInfo casing assets (some symbol) = some info) {human : String}
    {whole : List Char} {fraction : Option (List Char)} (some_ : whole ≠ [])
    (digits : ∀ c ∈ whole ++ fraction.getD [], c.isDigit = true)
    (typed : trim human = String.ofList (whole ++ pointed fraction))
    : toBaseUnits casing assets human symbol
      = if (fraction.getD []).length ≤ info.decimals then
          some (toString (FixedPoint.units info.decimals whole (fraction.getD [])))
        else none :=
  toBaseUnits_eq known some_ (fun c member => digits c (List.mem_append_left _ member))
    (fun c member => digits c (List.mem_append_right _ member)) typed

/-- What is typed is read exactly where its fraction fits the scale, and without rounding. -/
theorem toBaseUnits_exact {info : AssetInfo}
    (known : assetInfo casing assets (some symbol) = some info) {human : String}
    {whole : List Char} {fraction : Option (List Char)} (some_ : whole ≠ [])
    (digits : ∀ c ∈ whole ++ fraction.getD [], c.isDigit = true)
    (typed : trim human = String.ofList (whole ++ pointed fraction))
    : ((toBaseUnits casing assets human symbol).isSome = true
        ↔ (fraction.getD []).length ≤ info.decimals)
      ∧ ∀ base, toBaseUnits casing assets human symbol = some base
        → ∃ amount : Nat,
            base = toString amount
            ∧ (amount : ℚ)
              = FixedPoint.written whole (fraction.getD []) * 10 ^ info.decimals := by
  rw [toBaseUnits_typed known some_ digits typed]
  split
  case isTrue short =>
    refine ⟨by simp [short], fun base same => ?_⟩
    exact ⟨_, (Option.some.inj same).symm, FixedPoint.units_eq_written whole short⟩
  case isFalse long => exact ⟨by simp [long], fun base same => nomatch same⟩

/-- A text that is read has a fraction that fits the scale, and stands for the units of it. -/
theorem units_of_toBaseUnits {info : AssetInfo}
    (known : assetInfo casing assets (some symbol) = some info) {human : String} {amount : Nat}
    {whole : List Char} {fraction : Option (List Char)} (some_ : whole ≠ [])
    (digits : ∀ c ∈ whole ++ fraction.getD [], c.isDigit = true)
    (typed : trim human = String.ofList (whole ++ pointed fraction))
    (read : toBaseUnits casing assets human symbol = some (toString amount))
    : (fraction.getD []).length ≤ info.decimals
      ∧ FixedPoint.units info.decimals whole (fraction.getD []) = amount := by
  rw [toBaseUnits_typed known some_ digits typed] at read
  split at read
  case isTrue short => exact ⟨short, toString_nat_inj (Option.some.inj read)⟩
  case isFalse => cases read

end Typed

/-- An amount is read back from what either side shows of it. What is typed is read exactly where
its fraction fits the scale, without rounding and in the order of the values. And neither side
shows two amounts of an asset alike.
-/
theorem amount_texts_exact (scales : Scales casing registry)
    : let assets := setAssets casing (some registry)
      (∀ (amount : Nat) (symbol text : String),
        formatBaseUnits casing registry amount symbol = some text
        → toBaseUnits casing assets text symbol = some (toString amount))
      ∧ (∀ (amount : Nat) (symbol : String) (info : AssetInfo),
          assetInfo casing assets (some symbol) = some info
          → toBaseUnits casing assets
              (String.ofList
                (withoutCommas
                  (money casing assets (some (toString amount)) (some symbol)).toList))
              symbol
            = some (toString amount))
      ∧ (∀ (symbol : String) (info : AssetInfo),
          assetInfo casing assets (some symbol) = some info
          → ∀ (human : String) (whole : List Char) (fraction : Option (List Char)),
              whole ≠ []
              → (∀ c ∈ whole ++ fraction.getD [], c.isDigit = true)
              → trim human = String.ofList (whole ++ pointed fraction)
              → ((toBaseUnits casing assets human symbol).isSome = true
                    ↔ (fraction.getD []).length ≤ info.decimals)
                ∧ ∀ base, toBaseUnits casing assets human symbol = some base
                  → ∃ amount : Nat,
                      base = toString amount
                      ∧ (amount : ℚ)
                        = FixedPoint.written whole (fraction.getD []) * 10 ^ info.decimals)
      ∧ (∀ (symbol first second : String) (whole front : List Char)
            (fraction later : Option (List Char)) (amount other : Nat),
          whole ≠ []
          → front ≠ []
          → (∀ c ∈ whole ++ fraction.getD [], c.isDigit = true)
          → (∀ c ∈ front ++ later.getD [], c.isDigit = true)
          → trim first = String.ofList (whole ++ pointed fraction)
          → trim second = String.ofList (front ++ pointed later)
          → toBaseUnits casing assets first symbol = some (toString amount)
          → toBaseUnits casing assets second symbol = some (toString other)
          → (amount < other
            ↔ FixedPoint.written whole (fraction.getD [])
              < FixedPoint.written front (later.getD [])))
      ∧ ∀ (amount other : Int) (symbol : String),
          ((∃ text, formatBaseUnits casing registry amount symbol = some text
                ∧ formatBaseUnits casing registry other symbol = some text)
              ∨ describeAmount casing registry amount symbol
                = describeAmount casing registry other symbol
              ∨ ∃ asset, money casing assets (some (toString amount)) asset
                = money casing assets (some (toString other)) asset)
          → amount = other := by
  intro assets
  refine ⟨fun amount symbol text => scales.formatBaseUnits_read,
    fun amount symbol info => scales.money_read amount, ?_, ?_, ?_⟩
  · intro symbol info known human whole fraction some_ digits typed
    exact toBaseUnits_exact known some_ digits typed
  · intro symbol first second whole front fraction later amount other some_ otherSome digits
      otherDigits typed typedSecond readFirst readSecond
    cases known : assetInfo casing assets (some symbol) with
    | none => simp [toBaseUnits, known] at readFirst
    | some info =>
        obtain ⟨short, rfl⟩ := units_of_toBaseUnits known some_ digits typed readFirst
        obtain ⟨laterShort, rfl⟩ :=
          units_of_toBaseUnits known otherSome otherDigits typedSecond readSecond
        exact FixedPoint.units_lt_iff whole front short laterShort
  · rintro amount other symbol (⟨text, shown_, again⟩ | same | ⟨asset, same⟩)
    · exact formatBaseUnits_inj shown_ again
    · exact describeAmount_inj same
    · exact scales.money_inj same

end Registry

instance (casing : Casing) (registry : List AssetInfo) : Decidable (Scales casing registry) :=
  decidable_of_iff
    ((∀ asset ∈ registry, ∀ other ∈ registry,
        casing.toUpperCase asset.symbol = casing.toUpperCase other.symbol
        → asset.decimals = other.decimals)
      ∧ ∀ asset ∈ registry, asset.decimals = 0 ∨ 2 ≤ asset.decimals)
    ⟨fun ⟨one, room⟩ => { one, room }, fun scales => ⟨scales.one, scales.room⟩⟩

/-- The registry that the token configuration adds up to is one. -/
theorem assetRegistry_scales
    : (assetRegistry.toOption.any fun registry => Scales asciiCasing registry) = true := by
  decide +kernel

/-- An asset with a scale, and one that is counted in whole units. -/
def sampleRegistry : List AssetInfo :=
  [ { symbol := "USDT", decimals := 6, chains := ["TRON"], native := false },
    { symbol := "POINTS", decimals := 0, chains := ["TRON"], native := false } ]

/-- What the backend shows as 1.5 and the frontend as 1.50 is typed as either. -/
theorem amount_texts_exact_sample
    : toBaseUnits asciiCasing (setAssets asciiCasing (some sampleRegistry)) "1.5" "usdt"
        = some "1500000"
      ∧ toBaseUnits asciiCasing (setAssets asciiCasing (some sampleRegistry)) "1234567.50" "usdt"
        = some "1234567500000" := by
  have scales : Scales asciiCasing sampleRegistry := by decide +kernel
  obtain ⟨backend, frontend, -⟩ := amount_texts_exact scales
  have known : assetInfo asciiCasing (setAssets asciiCasing (some sampleRegistry)) (some "usdt")
      = some { symbol := "USDT", decimals := 6, chains := ["TRON"], native := false } := by
    decide +kernel
  have grouped : money asciiCasing (setAssets asciiCasing (some sampleRegistry))
      (some (toString 1234567500000)) (some "usdt") = "1,234,567.50" := by
    decide +kernel
  refine ⟨backend 1500000 "usdt" "1.5" (by decide +kernel), ?_⟩
  have read := frontend 1234567500000 "usdt" _ known
  rw [grouped] at read
  exact read

end Cixtech.Frontend
