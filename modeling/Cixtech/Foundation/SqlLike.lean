import Mathlib.Data.List.Infix

/-! The `LIKE` operator of SQL with the default escape character. A pattern is read into
tokens once, and matching is by recursion over the tokens; the lemmas read a match back as a
splitting of the text.
-/

namespace Cixtech.Foundation.SqlLike

inductive Token
  | literal (c : Char)
  | anyChar
  | anyString
  deriving DecidableEq, Repr

/-- Read a pattern: `%` any text, `_` any character, a backslash takes the next character
literally.
-/
def tokens : List Char → List Token
  | [] => []
  | '%' :: rest => .anyString :: tokens rest
  | '_' :: rest => .anyChar :: tokens rest
  | '\\' :: c :: rest => .literal c :: tokens rest
  | c :: rest => .literal c :: tokens rest

/-- Whether the whole text is matched by the tokens. -/
def isMatch : List Token → List Char → Bool
  | [], text => text.isEmpty
  | .literal c :: rest, text =>
      match text with
      | [] => false
      | d :: more => c == d && isMatch rest more
  | .anyChar :: rest, text =>
      match text with
      | [] => false
      | _ :: more => isMatch rest more
  | .anyString :: rest, text => text.tails.any (isMatch rest)

/-- `text LIKE pattern`. -/
def like (text pattern : List Char) : Bool := isMatch (tokens pattern) text

/-- A character without a meaning of its own in a pattern. -/
def Plain (c : Char) : Prop := c ≠ '%' ∧ c ≠ '_' ∧ c ≠ '\\'

instance : DecidablePred Plain := fun _ => inferInstanceAs (Decidable (_ ∧ _ ∧ _))

@[simp]
theorem tokens_nil : tokens [] = [] := rfl

@[simp]
theorem tokens_anyString (rest : List Char) : tokens ('%' :: rest) = .anyString :: tokens rest := by
  rw [tokens]

@[simp]
theorem tokens_anyChar (rest : List Char) : tokens ('_' :: rest) = .anyChar :: tokens rest := by
  rw [tokens]

@[simp]
theorem tokens_escaped (c : Char) (rest : List Char)
    : tokens ('\\' :: c :: rest) = .literal c :: tokens rest := by
  rw [tokens]

theorem tokens_cons {c : Char} (plain : Plain c) (rest : List Char)
    : tokens (c :: rest) = .literal c :: tokens rest := by
  obtain ⟨percent, underscore, backslash⟩ := plain
  rw [tokens]
  all_goals simp_all

/-- A closed text is checked letter by letter. -/
theorem plain_of_all {text : List Char} (plain : (text.all fun c => decide (Plain c)) = true)
    : ∀ c ∈ text, Plain c := by
  simpa using plain

/-- Plain text in a pattern stands for itself, by induction on the text. -/
theorem tokens_append {text : List Char} (plain : ∀ c ∈ text, Plain c) (rest : List Char)
    : tokens (text ++ rest) = text.map .literal ++ tokens rest := by
  induction text with
  | nil => rfl
  | cons c more ih =>
      have headPlain : Plain c := plain c List.mem_cons_self
      have tailPlain : ∀ d ∈ more, Plain d := fun d member =>
        plain d (List.mem_cons_of_mem _ member)
      rw [List.cons_append, tokens_cons headPlain, ih tailPlain, List.map_cons,
        List.cons_append]

/-- Literal tokens match exactly the texts that begin with them. -/
theorem isMatch_literals (leading : List Char) (rest : List Token) (text : List Char)
    : isMatch (leading.map .literal ++ rest) text = true
      ↔ ∃ more, text = leading ++ more ∧ isMatch rest more = true := by
  induction leading generalizing text with
  | nil => simp
  | cons c others ih =>
      cases text with
      | nil => simp [isMatch]
      | cons d more =>
          simp only [List.map_cons, List.cons_append, isMatch, Bool.and_eq_true,
            beq_iff_eq, ih, List.cons.injEq]
          constructor
          · rintro ⟨rfl, tail, rfl, matched⟩
            exact ⟨tail, ⟨rfl, rfl⟩, matched⟩
          · rintro ⟨tail, ⟨rfl, rfl⟩, matched⟩
            exact ⟨rfl, tail, rfl, matched⟩

/-- A `%` matches any text before what the rest matches. -/
theorem isMatch_anyString (rest : List Token) (text : List Char)
    : isMatch (.anyString :: rest) text = true
      ↔ ∃ skipped more, text = skipped ++ more ∧ isMatch rest more = true := by
  simp only [isMatch, List.any_eq_true, List.mem_tails, List.IsSuffix]
  constructor
  · rintro ⟨more, ⟨skipped, rfl⟩, matched⟩
    exact ⟨skipped, more, rfl, matched⟩
  · rintro ⟨skipped, more, rfl, matched⟩
    exact ⟨more, ⟨skipped, rfl⟩, matched⟩

theorem isMatch_literals_end (leading text : List Char)
    : isMatch (leading.map .literal) text = true ↔ text = leading := by
  have whole := isMatch_literals leading [] text
  simpa [isMatch] using whole

end Cixtech.Foundation.SqlLike
