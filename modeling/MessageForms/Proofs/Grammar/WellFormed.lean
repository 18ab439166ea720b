import MessageForms.Proofs.Grammar.Tree

set_option autoImplicit false

/-! Well-formed trees. Besides the kinds of tokens, the grammar looks at the token right behind a
tree: a parenthesis behind a selector always opens its arguments, and a dot behind a selector
always starts a receiver. -/

namespace MessageForms.Grammar

def nextKind (tokens : List Token) : Option TokenKind :=
  tokens.head?.map Token.kind

section WellFormed

variable (dialect : Dialect)

mutual

/-- The tree is one of the grammar in front of the tokens that follow it. -/
def Modifier.WellFormed : Modifier → List Token → Prop
  | .literal token, _ => token.kind = .number ∨ token.kind = .string
  | .partialSend dot name arguments, following =>
      dot.kind = .dot ∧ name.kind = .symbol ∧ arguments.WellFormed following
  | .implicitSend name arguments, following =>
      name.kind = .symbol ∧ arguments.WellFormed following ∧
        nextKind (arguments.tokens ++ following) ≠ some .dot
  | .parenthesized opening inner closing, following =>
      opening.kind = .openParen ∧ closing.kind = .closeParen ∧
        inner.WellFormed Reading.argumentDelimiters (closing :: following)
  | .braced opening inner closing, following =>
      opening.kind = .openBrace ∧ closing.kind = .closeBrace ∧
        inner.WellFormed Reading.bodyDelimiters (closing :: following)
  | .dotSend name target, following =>
      name.kind = .symbol ∧ nextKind target.tokens = some .dot ∧ target.WellFormed following

def Arguments.WellFormed : Arguments → List Token → Prop
  | .absent, following => nextKind following ≠ some .openParen
  | .listed opening inner closing, following =>
      opening.kind = .openParen ∧ closing.kind = .closeParen ∧
        inner.WellFormed Reading.argumentDelimiters (closing :: following)

def Items.WellFormed (delimiters : List TokenKind) : Items → List Token → Prop
  | .empty, _ => True
  | .first item others, following =>
      item.WellFormed (others.tokens ++ following) ∧ others.WellFormed delimiters following

def MoreItems.WellFormed (delimiters : List TokenKind) : MoreItems → List Token → Prop
  | .ended, _ => True
  | .trailing delimiter, _ => delimiter.kind ∈ delimiters
  | .more delimiter item others, following =>
      delimiter.kind ∈ delimiters ∧ item.WellFormed (others.tokens ++ following) ∧
        others.WellFormed delimiters following

def Expression.WellFormed : Expression → List Token → Prop
  | .single modifier, following => modifier.WellFormed following
  | .operation left operator right, following =>
      left.IsUnit ∧ left.WellFormed (operator :: (right.tokens ++ following)) ∧
        dialect.isInfix operator = true ∧ right.WellFormed following
  | .form first others, following =>
      first.IsUnit ∧ first.WellFormed (others.tokens ++ following) ∧
        (∀ token ∈ others.tokens.head?, dialect.isInfix token = false) ∧
        others.WellFormed following

def Modifiers.WellFormed : Modifiers → List Token → Prop
  | .last modifier, following => modifier.WellFormed following
  | .more modifier others, following =>
      modifier.IsUnit ∧ modifier.WellFormed (others.tokens ++ following) ∧
        others.WellFormed following

end

/-- The program derives the tokens. -/
structure Items.Derives (program : Items) (tokens : List Token) : Prop where
  tokens_eq : program.tokens = tokens
  wellFormed : program.WellFormed dialect Reading.bodyDelimiters []

end WellFormed

end MessageForms.Grammar
