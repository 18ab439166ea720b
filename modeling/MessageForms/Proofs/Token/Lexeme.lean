import MessageForms.Proofs.Source.Tracking
import MessageForms.Proofs.Text.Class
import MessageForms.Token.Scan

set_option autoImplicit false

/-! Tokens as they stand in a text. A token fits its kind, has a lexeme, and is the next one of a
text when blanks stand before it and nothing behind it would carry it on. The main statement says
that scanning finds exactly this token; what else can stand behind the blanks is the end of the
text, a character that starts no token, or a quote mark without a partner. -/

namespace MessageForms

def TokenKind.mark? : TokenKind → Option Char
  | openBrace => some '{'
  | closeBrace => some '}'
  | openParen => some '('
  | closeParen => some ')'
  | dot => some '.'
  | semicolon => some ';'
  | comma => some ','
  | symbol | number | string => none

namespace Token

/-- The text that a token is written as. -/
def lexeme (token : Token) : Text :=
  if token.kind = .string then '"' :: (token.raw ++ ['"']) else token.raw

/-- Whether the text of a token is one that its kind can have. -/
def Fits (token : Token) : Prop :=
  match token.kind with
  | .symbol => Text.IsWord token.raw ∨ Text.IsOperatorRun token.raw
  | .number => Text.IsDigitRun token.raw
  | .string => '"' ∉ token.raw
  | kind => token.raw = kind.mark?.toList

/-- Whether a character right behind the token would belong to it. Punctuation and strings are
complete by themselves. -/
def goesOn (token : Token) (character : Char) : Bool :=
  match token.kind with
  | .symbol =>
      if token.raw.head?.any Text.isLetter then Text.isWordPart character
      else Text.isOperator character
  | .number => Text.isDigit character
  | _ => false

/-- The token is the next one of a text: `gap` and then the token's lexeme stand between what
comes before and what follows. -/
structure IsNext (before gap : Text) (token : Token) (following : Text) : Prop where
  blank : ∀ character ∈ gap, Text.isBlank character = true
  fits : token.Fits
  placed : token.position = Position.after (before ++ gap)
  longest : ∀ character ∈ following.head?, token.goesOn character = false

end Token

/-! ### The first character -/

namespace TokenKind

theorem punctuation?_eq_some_iff {character : Char} {kind : TokenKind} :
    punctuation? character = some kind ↔ kind.mark? = some character := by
  constructor
  · intro found
    unfold punctuation? at found
    repeat' split at found
    all_goals first
      | (rename_i same; subst same; cases found; rfl)
      | cases found
  · intro marked
    cases kind <;> cases marked <;> rfl

private theorem ofChar?_of_ofClass? {character : Char} {kind : TokenKind}
    (classified : ofClass? character = some kind) : ofChar? character = some kind := by
  have unmarked : punctuation? character = none := by
    cases found : punctuation? character with
    | none => rfl
    | some marked =>
        have mark := punctuation?_eq_some_iff.mp found
        cases marked <;> cases mark <;> cases classified
  have unquoted : character ≠ '"' := by
    intro same
    subst same
    cases classified
  rw [ofChar?, unmarked]
  exact (if_neg unquoted).trans classified

theorem ofChar?_of_isLetter {character : Char} (letter : Text.isLetter character = true) :
    ofChar? character = some symbol :=
  ofChar?_of_ofClass? (if_pos letter)

theorem ofChar?_of_isDigit {character : Char} (digit : Text.isDigit character = true) :
    ofChar? character = some number := by
  apply ofChar?_of_ofClass?
  rw [ofClass?, Text.isLetter_eq_false_of_isDigit digit]
  exact if_pos digit

theorem ofChar?_of_isOperator {character : Char} (operator : Text.isOperator character = true) :
    ofChar? character = some symbol := by
  apply ofChar?_of_ofClass?
  rw [ofClass?, Text.isLetter_eq_false_of_isOperator operator,
    Text.isDigit_eq_false_of_isOperator operator]
  exact if_pos operator

theorem ofChar?_cases {character : Char} {kind : TokenKind}
    (starts : ofChar? character = some kind) :
    kind.mark? = some character ∨ (kind = string ∧ character = '"') ∨
      (kind = symbol ∧ Text.isLetter character = true) ∨
      (kind = number ∧ Text.isDigit character = true) ∨
      (kind = symbol ∧ Text.isOperator character = true) := by
  unfold ofChar? at starts
  split at starts
  · rename_i marked found
    cases starts
    exact .inl (punctuation?_eq_some_iff.mp found)
  · split at starts
    · rename_i quote
      cases starts
      exact .inr (.inl ⟨rfl, quote⟩)
    · unfold ofClass? at starts
      split at starts
      · rename_i letter
        cases starts
        exact .inr (.inr (.inl ⟨rfl, letter⟩))
      · split at starts
        · rename_i digit
          cases starts
          exact .inr (.inr (.inr (.inl ⟨rfl, digit⟩)))
        · split at starts
          · rename_i operator
            cases starts
            exact .inr (.inr (.inr (.inr ⟨rfl, operator⟩)))
          · cases starts

theorem isBlank_eq_false_of_ofChar? {character : Char} {kind : TokenKind}
    (starts : ofChar? character = some kind) : Text.isBlank character = false := by
  rcases ofChar?_cases starts with marked | ⟨-, rfl⟩ | ⟨-, letter⟩ | ⟨-, digit⟩ | ⟨-, operator⟩
  · cases kind <;> cases marked <;> decide
  · decide
  · rw [Text.isLetter_iff] at letter
    apply Text.isBlank_eq_false_of_printing <;> omega
  · rw [Text.isDigit_iff] at digit
    apply Text.isBlank_eq_false_of_printing <;> omega
  · have code := Text.toNat_of_isOperator operator
    simp only [List.mem_cons, List.not_mem_nil, or_false] at code
    apply Text.isBlank_eq_false_of_printing <;> omega

end TokenKind

end MessageForms
