import MessageForms.Dialect
import MessageForms.Reading.List

set_option autoImplicit false

/-! The grammar of expressions. Concrete trees keep every token that they stand for, so that a
tree can be compared with a list of tokens; which trees are well formed depends on the tokens that
follow them. -/

namespace MessageForms.Grammar

mutual

/-- One item of a macro form. All but the last kind are units: they do not depend on what ends the
expression around them. -/
inductive Modifier where
  | literal (token : Token)
  | partialSend (dot name : Token) (arguments : Arguments)
  | implicitSend (name : Token) (arguments : Arguments)
  | parenthesized (opening : Token) (inner : Items) (closing : Token)
  | braced (opening : Token) (inner : Items) (closing : Token)
  | dotSend (name : Token) (target : Expression)

inductive Arguments where
  | absent
  | listed (opening : Token) (inner : Items) (closing : Token)

inductive Items where
  | empty
  | first (item : Expression) (others : MoreItems)

inductive MoreItems where
  | ended
  | trailing (delimiter : Token)
  | more (delimiter : Token) (item : Expression) (others : MoreItems)

inductive Expression where
  | single (modifier : Modifier)
  | operation (left : Modifier) (operator : Token) (right : Expression)
  | form (first : Modifier) (others : Modifiers)

inductive Modifiers where
  | last (modifier : Modifier)
  | more (modifier : Modifier) (others : Modifiers)

end

mutual

def Modifier.tokens : Modifier → List Token
  | .literal token => [token]
  | .partialSend dot name arguments => dot :: name :: arguments.tokens
  | .implicitSend name arguments => name :: arguments.tokens
  | .parenthesized opening inner closing => opening :: (inner.tokens ++ [closing])
  | .braced opening inner closing => opening :: (inner.tokens ++ [closing])
  | .dotSend name target => name :: target.tokens

def Arguments.tokens : Arguments → List Token
  | .absent => []
  | .listed opening inner closing => opening :: (inner.tokens ++ [closing])

def Items.tokens : Items → List Token
  | .empty => []
  | .first item others => item.tokens ++ others.tokens

def MoreItems.tokens : MoreItems → List Token
  | .ended => []
  | .trailing delimiter => [delimiter]
  | .more delimiter item others => delimiter :: (item.tokens ++ others.tokens)

def Expression.tokens : Expression → List Token
  | .single modifier => modifier.tokens
  | .operation left operator right => left.tokens ++ operator :: right.tokens
  | .form first others => first.tokens ++ others.tokens

def Modifiers.tokens : Modifiers → List Token
  | .last modifier => modifier.tokens
  | .more modifier others => modifier.tokens ++ others.tokens

end

def Modifier.IsUnit : Modifier → Prop
  | .dotSend _ _ => False
  | _ => True

end Grammar

namespace Dialect

/-- The atom that a symbol token becomes. A token that is not understood is never read, so what
stands for it does not matter; the same holds for literals. -/
def selector (dialect : Dialect) (token : Token) : Atom :=
  (dialect.symbol token).toOption.getD default

def literal (dialect : Dialect) (token : Token) : Atom :=
  (if token.kind = .number then dialect.number token else dialect.string token).toOption.getD
    default

/-- Only symbols stand between their arguments. -/
def JoinsSymbols (dialect : Dialect) : Prop :=
  ∀ token, dialect.isInfix token = true → token.kind = .symbol

end Dialect

namespace Grammar

section Nodes

variable (dialect : Dialect)

mutual

/-- The node that the grammar assigns to a tree. -/
def Modifier.node : Modifier → Node
  | .literal token => .atom (dialect.literal token)
  | .partialSend _ name arguments =>
      .partialSend (dialect.selector name) arguments.nodes (dialect.selector name).position
  | .implicitSend name arguments =>
      .implicitSend (dialect.selector name) arguments.nodes (dialect.selector name).position
  | .parenthesized opening inner _ => .parenthesized inner.nodes opening.position
  | .braced opening inner _ => .braced inner.nodes opening.position
  | .dotSend name target =>
      .targetedSend target.node (dialect.selector name) [] target.node.position

def Arguments.nodes : Arguments → List Node
  | .absent => []
  | .listed _ inner _ => inner.nodes

def Items.nodes : Items → List Node
  | .empty => []
  | .first item others => item.node :: others.nodes

def MoreItems.nodes : MoreItems → List Node
  | .ended | .trailing _ => []
  | .more _ item others => item.node :: others.nodes

def Expression.node : Expression → Node
  | .single modifier => modifier.node
  | .operation left operator right =>
      .targetedSend left.node (dialect.selector operator) [right.node] left.node.position
  | .form first others => .macroForm (first.node :: others.nodes) first.node.position

def Modifiers.nodes : Modifiers → List Node
  | .last modifier => [modifier.node]
  | .more modifier others => modifier.node :: others.nodes

end

end Nodes

end MessageForms.Grammar
