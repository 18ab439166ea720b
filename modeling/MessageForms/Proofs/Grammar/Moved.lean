import MessageForms.Proofs.Grammar.Tree
import MessageForms.Proofs.Token.Lexeme

set_option autoImplicit false

/-! Tokens and trees of tokens at other places. A token keeps its kind and its text. -/

namespace MessageForms

namespace Token

/-- The token at the place that stands for its own. -/
def moved (place : Position → Position) (token : Token) : Token :=
  { token with position := place token.position }

@[simp] theorem kind_moved (place : Position → Position) (token : Token) :
    (token.moved place).kind = token.kind := rfl

@[simp] theorem raw_moved (place : Position → Position) (token : Token) :
    (token.moved place).raw = token.raw := rfl

theorem fits_moved {place : Position → Position} {token : Token} :
    (token.moved place).Fits ↔ token.Fits := Iff.rfl

end Token

namespace Grammar

section Moved

variable (place : Position → Position)

mutual

def Modifier.moved : Modifier → Modifier
  | .literal token => .literal (token.moved place)
  | .partialSend dot name arguments =>
      .partialSend (dot.moved place) (name.moved place) arguments.moved
  | .implicitSend name arguments => .implicitSend (name.moved place) arguments.moved
  | .parenthesized opening inner closing =>
      .parenthesized (opening.moved place) inner.moved (closing.moved place)
  | .braced opening inner closing =>
      .braced (opening.moved place) inner.moved (closing.moved place)
  | .dotSend name target => .dotSend (name.moved place) target.moved

def Arguments.moved : Arguments → Arguments
  | .absent => .absent
  | .listed opening inner closing =>
      .listed (opening.moved place) inner.moved (closing.moved place)

def Items.moved : Items → Items
  | .empty => .empty
  | .first item others => .first item.moved others.moved

def MoreItems.moved : MoreItems → MoreItems
  | .ended => .ended
  | .trailing delimiter => .trailing (delimiter.moved place)
  | .more delimiter item others => .more (delimiter.moved place) item.moved others.moved

def Expression.moved : Expression → Expression
  | .single modifier => .single modifier.moved
  | .operation left operator right =>
      .operation left.moved (operator.moved place) right.moved
  | .form first others => .form first.moved others.moved

def Modifiers.moved : Modifiers → Modifiers
  | .last modifier => .last modifier.moved
  | .more modifier others => .more modifier.moved others.moved

end

end Moved

/-! A tree that is moved to where it is stays as it is. -/

theorem map_moved_id (tokens : List Token) : tokens.map (Token.moved id) = tokens :=
  List.map_id tokens

mutual

theorem Modifier.moved_id (modifier : Modifier) : modifier.moved id = modifier := by
  cases modifier with
  | literal token => rfl
  | partialSend dot name arguments =>
      exact congrArg (Modifier.partialSend dot name) arguments.moved_id
  | implicitSend name arguments => exact congrArg (Modifier.implicitSend name) arguments.moved_id
  | parenthesized opening inner closing =>
      exact congrArg (Modifier.parenthesized opening · closing) inner.moved_id
  | braced opening inner closing =>
      exact congrArg (Modifier.braced opening · closing) inner.moved_id
  | dotSend name target => exact congrArg (Modifier.dotSend name) target.moved_id

theorem Arguments.moved_id (found : Arguments) : found.moved id = found := by
  cases found with
  | absent => rfl
  | listed opening inner closing =>
      exact congrArg (Arguments.listed opening · closing) inner.moved_id

theorem Items.moved_id (inner : Items) : inner.moved id = inner := by
  cases inner with
  | empty => rfl
  | first item others => rw [Items.moved, item.moved_id, others.moved_id]

theorem MoreItems.moved_id (others : MoreItems) : others.moved id = others := by
  cases others with
  | ended => rfl
  | trailing delimiter => rfl
  | more delimiter item others =>
      rw [MoreItems.moved, item.moved_id, others.moved_id]
      rfl

theorem Expression.moved_id (tree : Expression) : tree.moved id = tree := by
  cases tree with
  | single modifier => exact congrArg Expression.single modifier.moved_id
  | operation left operator right =>
      rw [Expression.moved, left.moved_id, right.moved_id]
      rfl
  | form first others => rw [Expression.moved, first.moved_id, others.moved_id]

theorem Modifiers.moved_id (modifiers : Modifiers) : modifiers.moved id = modifiers := by
  cases modifiers with
  | last modifier => exact congrArg Modifiers.last modifier.moved_id
  | more modifier others => rw [Modifiers.moved, modifier.moved_id, others.moved_id]

end

end Grammar

end MessageForms
