import MessageForms.Source.Position
import MessageForms.Text.Basic

set_option autoImplicit false

/-! Tokens: punctuation, symbols, numbers and strings. One character decides which kind of token
starts with it. -/

namespace MessageForms

inductive TokenKind where
  | openBrace
  | closeBrace
  | openParen
  | closeParen
  | dot
  | semicolon
  | comma
  | symbol
  | number
  | string
deriving DecidableEq, Inhabited

/-- A token with its text; the text of a string leaves out the quote marks. The position is that
of the token's first character. -/
structure Token where
  kind : TokenKind
  raw : Text
  position : Position
deriving DecidableEq, Inhabited

namespace TokenKind

def all : List TokenKind :=
  [openBrace, closeBrace, openParen, closeParen, dot, semicolon, comma, symbol, number, string]

def name : TokenKind → Text
  | openBrace => "OpenBrace".toList
  | closeBrace => "CloseBrace".toList
  | openParen => "OpenParen".toList
  | closeParen => "CloseParen".toList
  | dot => "Dot".toList
  | semicolon => "Semicolon".toList
  | comma => "Comma".toList
  | symbol => "Symbol".toList
  | number => "Number".toList
  | string => "String".toList

def punctuation? (character : Char) : Option TokenKind :=
  if character = '{' then some openBrace
  else if character = '}' then some closeBrace
  else if character = '(' then some openParen
  else if character = ')' then some closeParen
  else if character = '.' then some dot
  else if character = ';' then some semicolon
  else if character = ',' then some comma
  else none

/-- The kind whose tokens start with a letter, a digit or an operator character. -/
def ofClass? (character : Char) : Option TokenKind :=
  if Text.isLetter character then some symbol
  else if Text.isDigit character then some number
  else if Text.isOperator character then some symbol
  else none

/-- The kind of the token that starts with the character; `none` if no token does. -/
def ofChar? (character : Char) : Option TokenKind :=
  match punctuation? character with
  | some kind => some kind
  | none => if character = '"' then some string else ofClass? character

/-- The kind suggested by a piece of text: punctuation and the quote mark count only when they
are the whole piece, the other classes go by its first character. -/
def ofText? : Text → Option TokenKind
  | [] => none
  | [character] => ofChar? character
  | first :: _ => ofClass? first

def endsExpression : TokenKind → Bool
  | semicolon | comma | closeBrace | closeParen => true
  | _ => false

end TokenKind

end MessageForms
