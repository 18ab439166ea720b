import MessageForms.Fault
import MessageForms.Node.Basic
import MessageForms.Number.Decimal
import MessageForms.Text.Words

set_option autoImplicit false

/-! A dialect settles what the grammar leaves open: the atoms that tokens become, and the symbols
that stand between their arguments. -/

namespace MessageForms

/-- How tokens are understood. Each of the first three functions is only asked about tokens of its
kind; `isInfix` is asked about any token that follows a complete argument. -/
structure Dialect where
  number : Token → Except Fault Atom
  symbol : Token → Except Fault Atom
  string : Token → Except Fault Atom
  isInfix : Token → Bool

namespace Dialect

def numberAtom (token : Token) : Except Fault Atom :=
  match Binary64.ofText? token.raw with
  | some value => .ok { literal := .number value, position := token.position }
  | none => .error (.problem (.located token.position (.notANumber token.raw)))

/-- The infix symbols are those made of operator characters, except for the assignment. -/
def isOperatorSymbol (token : Token) : Bool :=
  token.kind = .symbol && token.raw != Keyword.assignment && token.raw.all Text.isOperator

/-- Numbers are doubles, symbols are known by their names, and strings are taken as they are. -/
def standard : Dialect where
  number := numberAtom
  symbol token :=
    .ok { literal := .symbol (Text.symbolName token.raw), position := token.position }
  string token := .ok { literal := .string token.raw, position := token.position }
  isInfix := isOperatorSymbol

def withInfix (spellings : List Text) (dialect : Dialect) : Dialect :=
  { dialect with isInfix := fun token => spellings.contains token.raw }

def withSpelledSymbols (dialect : Dialect) : Dialect :=
  { dialect with
    symbol := fun token => .ok { literal := .symbol token.raw, position := token.position } }

/-- The dialect whose symbols become atoms without a kind. -/
def withPlainSymbols (dialect : Dialect) : Dialect :=
  { dialect with
    symbol := fun token => .ok { literal := .plain (.text token.raw), position := token.position } }

end Dialect

end MessageForms
