import MessageForms.Node.Basic
import MessageForms.Token.Stream

set_option autoImplicit false

/-! Lists of expressions between delimiters. The reader of one expression is a parameter, so that
a list can stand inside of an expression. Each pass through a list reads a token, and an allowance
of one more than the tokens to come is never used up. -/

namespace MessageForms.Reading

open TokenStream

/-- Runs a reader with an allowance that covers the rest of the stream. -/
def withinAllowance {α : Type} (reader : Nat → Reading α) : Reading α := do
  reader ((← get).allowance + 1)

/-- The items behind the first one, up to the closing token, which is left in place. Each has a
delimiter before it, and one delimiter may stand right before the closing token. Without a closing
kind the list goes to the end of the text. -/
def moreItems (expression : Reading Node) (delimiters : List TokenKind)
    (close : Option TokenKind) : Nat → Reading (List Node)
  | 0 => throw .exhausted
  | allowance + 1 => do
      match ← peekKind with
      | none =>
          match close with
          | none => return []
          | some expected => fail (.endOfInput expected)
      | some found =>
          if close = some found then return []
          else if found ∉ delimiters then fail (.delimiterExpected delimiters found)
          else
            let _ ← read
            if (← peekKind) = close then return []
            else
              let item ← expression
              let others ← moreItems expression delimiters close allowance
              return item :: others

def items (expression : Reading Node) (delimiters : List TokenKind) (close : Option TokenKind)
    (allowance : Nat) : Reading (List Node) := do
  if (← peekKind) = close then return []
  else
    let first ← expression
    let others ← moreItems expression delimiters close allowance
    return first :: others

def delimitedList (expression : Reading Node) (opening : TokenKind)
    (delimiters : List TokenKind) (close : TokenKind) (allowance : Nat) :
    Reading (List Node) := do
  let found ← peekKind
  if found ≠ some opening then throw (.openingExpected opening found)
  else
    let _ ← read
    let inner ← items expression delimiters (some close) allowance
    let _ ← read
    return inner

def argumentDelimiters : List TokenKind := [.comma]

/-- What divides the expressions of a body and of a program. -/
def bodyDelimiters : List TokenKind := [.comma, .semicolon]

/-- The parenthesized arguments of a message; a message need not have any. -/
def messageArguments (expression : Reading Node) (allowance : Nat) : Reading (List Node) := do
  if (← peekKind) = some .openParen then
    delimitedList expression .openParen argumentDelimiters .closeParen allowance
  else return []

def bodyItems (expression : Reading Node) (allowance : Nat) : Reading (List Node) :=
  delimitedList expression .openBrace bodyDelimiters .closeBrace allowance

end MessageForms.Reading
