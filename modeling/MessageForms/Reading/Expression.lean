import MessageForms.Dialect
import MessageForms.Reading.List

set_option autoImplicit false

/-! Expressions. A modifier is a message, a literal, or a delimited form. An expression is a
modifier, perhaps with an infix operator and another expression behind it; several modifiers in a
row make a macro form. The token that ends an expression is left in place. -/

namespace MessageForms.Reading

open TokenStream

def takeAtom (understood : Token → Except Fault Atom) (token : Token) : Reading Atom := do
  let _ ← read
  match understood token with
  | .ok atom => return atom
  | .error fault => throw fault

section Modifiers

variable (dialect : Dialect) (expression : Reading Node) (allowance : Nat)

def literal? : Reading (Option Node) := do
  match ← peek with
  | none => return none
  | some token =>
      match token.kind with
      | .number => return some (.atom (← takeAtom dialect.number token))
      | .string => return some (.atom (← takeAtom dialect.string token))
      | _ => return none

/-- A message, if one is next. Behind a dot stands its selector. A symbol is the selector of a
message to the expression behind it if that starts with a dot; otherwise the message has no
receiver of its own. A dot without a selector is read all the same, though it is no message. -/
def messageSend? : Reading (Option Node) := do
  match ← peek with
  | none => return none
  | some token =>
      match token.kind with
      | .dot =>
          let _ ← read
          match ← peek with
          | none => return none
          | some name =>
              if name.kind = .symbol then
                let selector ← takeAtom dialect.symbol name
                let arguments ← messageArguments expression allowance
                return some (.partialSend selector arguments selector.position)
              else return none
      | .symbol =>
          let selector ← takeAtom dialect.symbol token
          if (← peekKind) = some .dot then
            let target ← expression
            let arguments ← messageArguments expression allowance
            return some (.targetedSend target selector arguments target.position)
          else
            let arguments ← messageArguments expression allowance
            return some (.implicitSend selector arguments selector.position)
      | _ => return none

def parenthesized? : Reading (Option Node) := do
  match ← peek with
  | none => return none
  | some token =>
      if token.kind = .openParen then
        let inner ←
          delimitedList expression .openParen argumentDelimiters .closeParen allowance
        return some (.parenthesized inner token.position)
      else return none

def braced? : Reading (Option Node) := do
  match ← peek with
  | none => return none
  | some token =>
      if token.kind = .openBrace then
        let inner ← bodyItems expression allowance
        return some (.braced inner token.position)
      else return none

/-- The first attempt that gives a node; one that gives none goes back to where it started. -/
def firstMatch : List (Reading (Option Node)) → Reading (Option Node)
  | [] => return none
  | attempt :: others => do
      match ← savingPositionIf Option.isNone attempt with
      | some node => return some node
      | none => firstMatch others

def modifier? : Reading (Option Node) :=
  firstMatch
    [messageSend? dialect expression allowance, literal? dialect,
      parenthesized? expression allowance, braced? expression allowance]

end Modifiers

def modifiers (modifier : Reading (Option Node)) : Nat → Reading (List Node)
  | 0 => throw .exhausted
  | allowance + 1 => do
      match ← modifier with
      | none => return []
      | some node =>
          let others ← modifiers modifier allowance
          return node :: others

/-- Whether an expression ends before a token of this kind; it also ends with the text. -/
def isAtEnd : Option TokenKind → Bool
  | none => true
  | some kind => kind.endsExpression

/-- An argument with the infix operator behind it, if there is one. The operator takes the whole
expression on its right, so infix operators group to the right. -/
def withOperator (dialect : Dialect) (expression : Reading Node) (left : Node) :
    Reading Node := do
  match ← peek with
  | none => return left
  | some token =>
      if dialect.isInfix token then
        let operator ← takeAtom dialect.symbol token
        let right ← expression
        return .targetedSend left operator [right] left.position
      else return left

def expressionStep (dialect : Dialect) (expression : Reading Node) (allowance : Nat) :
    Reading Node := do
  let modifier := modifier? dialect expression allowance
  match ← modifier with
  | none => fail .expressionExpected
  | some argument =>
      let first ← withOperator dialect expression argument
      if isAtEnd (← peekKind) then return first
      else
        let others ← modifiers modifier allowance
        if isAtEnd (← peekKind) then return .macroForm (first :: others) first.position
        else if (others.getLast?.getD first).isBraced then fail .contentAfterBody
        else fail .bodyExpected

/-- One expression with the given allowance. The expressions inside of it start behind its first
token, so each gets by with less. -/
def expressionWithin (dialect : Dialect) : Nat → Reading Node
  | 0 => throw .exhausted
  | allowance + 1 => expressionStep dialect (expressionWithin dialect allowance) allowance

def expression (dialect : Dialect) : Reading Node :=
  withinAllowance (expressionWithin dialect)

end MessageForms.Reading
