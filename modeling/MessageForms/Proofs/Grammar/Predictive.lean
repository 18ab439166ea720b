import MessageForms.Proofs.Grammar.WellFormed
import MessageForms.Proofs.Running
import MessageForms.Reading.Expression

set_option autoImplicit false

/-! A parser on lists of tokens that decides by at most two of them what comes next, and never goes
back. It builds the grammar's trees and is allowed as many steps as the reader of streams, which it
stands for. -/

namespace MessageForms.Grammar

/-- Why a parse stops: with a complaint about the next token, or with a fault that has a place of
its own. -/
inductive Stop where
  | complaint (complaint : Complaint)
  | fault (fault : Fault)

abbrev Parsing := EStateM Stop (List Token)

namespace Predictive

section Tokens

variable (ending : Option Fault)

/-- The next token. What ends the tokens may be a fault, which shows when looking past the last. -/
def peek : Parsing (Option Token) := fun tokens =>
  match tokens, ending with
  | token :: _, _ => .ok (some token) tokens
  | [], none => .ok none []
  | [], some fault => .error (.fault fault) []

def peekKind : Parsing (Option TokenKind) := do
  return (← peek ending).map Token.kind

def read : Parsing (Option Token) := do
  let token ← peek ending
  modify List.tail
  return token

def fail {α : Type} (complaint : Complaint) : Parsing α := do
  let _ ← peek ending
  throw (.complaint complaint)

def take (understood : Token → Except Fault Atom) (token : Token) : Parsing Token := do
  let _ ← read ending
  match understood token with
  | .ok _ => return token
  | .error fault => throw (.fault fault)

end Tokens

section Lists

variable (ending : Option Fault) (expression : Parsing Expression) (delimiters : List TokenKind)
  (close : Option TokenKind)

def moreItems : Nat → Parsing MoreItems
  | 0 => throw (.fault .exhausted)
  | allowance + 1 => do
      match ← peek ending with
      | none =>
          match close with
          | none => return .ended
          | some expected => fail ending (.endOfInput expected)
      | some token =>
          if close = some token.kind then return .ended
          else if token.kind ∉ delimiters then
            fail ending (.delimiterExpected delimiters token.kind)
          else
            let _ ← read ending
            if (← peekKind ending) = close then return .trailing token
            else
              let item ← expression
              let others ← moreItems allowance
              return .more token item others

def items (allowance : Nat) : Parsing Items := do
  if (← peekKind ending) = close then return .empty
  else
    let item ← expression
    let others ← moreItems ending expression delimiters close allowance
    return .first item others

end Lists

section Modifiers

variable (ending : Option Fault) (dialect : Dialect) (expression : Parsing Expression)
  (allowance : Nat)

def delimited (delimiters : List TokenKind) (close : TokenKind) : Parsing (Items × Token) := do
  let _ ← read ending
  let inner ← items ending expression delimiters (some close) allowance
  let closing ← read ending
  return (inner, closing.getD default)

def arguments : Parsing Arguments := do
  match ← peek ending with
  | none => return .absent
  | some token =>
      if token.kind = .openParen then
        let (inner, closing) ←
          delimited ending expression allowance Reading.argumentDelimiters .closeParen
        return .listed token inner closing
      else return .absent

def partialSend? (dot : Token) : Parsing (Option Modifier) := fun tokens =>
  match peek ending tokens.tail with
  | .error stop rest => .error stop rest
  | .ok none _ => .ok none tokens
  | .ok (some name) rest =>
      if name.kind = .symbol then
        (do
          let name ← take ending dialect.symbol name
          let arguments ← arguments ending expression allowance
          return some (.partialSend dot name arguments) : Parsing (Option Modifier)) rest
      else .ok none tokens

def modifier? : Parsing (Option Modifier) := do
  match ← peek ending with
  | none => return none
  | some token =>
      match token.kind with
      | .number => return some (.literal (← take ending dialect.number token))
      | .string => return some (.literal (← take ending dialect.string token))
      | .dot => partialSend? ending dialect expression allowance token
      | .symbol =>
          let name ← take ending dialect.symbol token
          if (← peekKind ending) = some .dot then return some (.dotSend name (← expression))
          else return some (.implicitSend name (← arguments ending expression allowance))
      | .openParen =>
          let (inner, closing) ←
            delimited ending expression allowance Reading.argumentDelimiters .closeParen
          return some (.parenthesized token inner closing)
      | .openBrace =>
          let (inner, closing) ←
            delimited ending expression allowance Reading.bodyDelimiters .closeBrace
          return some (.braced token inner closing)
      | _ => return none

end Modifiers

def push (modifier : Modifier) : Option Modifiers → Modifiers
  | none => .last modifier
  | some others => .more modifier others

def modifiers (modifier : Parsing (Option Modifier)) : Nat → Parsing (Option Modifiers)
  | 0 => throw (.fault .exhausted)
  | allowance + 1 => do
      match ← modifier with
      | none => return none
      | some first => return some (push first (← modifiers modifier allowance))

/-- What the reader finds missing or too much behind the modifiers. -/
def afterModifiers (last : Modifier) : Complaint :=
  match last with
  | .braced _ _ _ => .contentAfterBody
  | _ => .bodyExpected

def lastOf : Modifiers → Modifier
  | .last modifier => modifier
  | .more _ others => lastOf others

section Expressions

variable (ending : Option Fault) (dialect : Dialect)

def form (modifier : Parsing (Option Modifier)) (first : Modifier) (allowance : Nat) :
    Parsing Expression := do
  if Reading.isAtEnd (← peekKind ending) then return .single first
  else
    match ← modifiers modifier allowance with
    | none => fail ending (afterModifiers first)
    | some others =>
        if Reading.isAtEnd (← peekKind ending) then return .form first others
        else fail ending (afterModifiers (lastOf others))

def expressionStep (expression : Parsing Expression) (allowance : Nat) : Parsing Expression := do
  let modifier := modifier? ending dialect expression allowance
  match ← modifier with
  | none => fail ending .expressionExpected
  | some first =>
      match ← peek ending with
      | none => return .single first
      | some token =>
          if dialect.isInfix token then
            let operator ← take ending dialect.symbol token
            let right ← expression
            return .operation first operator right
          else form ending modifier first allowance

def expressionWithin : Nat → Parsing Expression
  | 0 => throw (.fault .exhausted)
  | allowance + 1 => expressionStep ending dialect (expressionWithin allowance) allowance

end Expressions

/-! ### Steps -/

end Predictive

/-- Looking at the next token does no harm: it is there, or the tokens end without a fault. -/
def Clear (ending : Option Fault) (tokens : List Token) : Prop :=
  tokens = [] → ending = none

theorem Clear.append {ending : Option Fault} {following : List Token}
    (clear : Clear ending following) (tokens : List Token) :
    Clear ending (tokens ++ following) := by
  intro none
  exact clear (List.append_eq_nil_iff.mp none).2

namespace Predictive

section Steps

variable {ending : Option Fault} {tokens : List Token} {α : Type}

theorem clear_cons (ending : Option Fault) (token : Token) (tokens : List Token) :
    Clear ending (token :: tokens) := by
  intro impossible
  cases impossible

theorem peek_of_clear (clear : Clear ending tokens) :
    peek ending tokens = .ok tokens.head? tokens := by
  cases tokens with
  | cons token tokens => rfl
  | nil =>
      rw [clear rfl]
      rfl

theorem clear_of_peek {found : Option Token} {rest : List Token}
    (looked : peek ending tokens = .ok found rest) : Clear ending tokens := by
  intro none
  cases ending with
  | none => rfl
  | some fault =>
      subst none
      cases looked

theorem peek_bind (clear : Clear ending tokens) (next : Option Token → Parsing α) :
    (peek ending >>= next) tokens = next tokens.head? tokens := by
  rw [bind_apply, peek_of_clear clear]

theorem peekKind_bind (clear : Clear ending tokens) (next : Option TokenKind → Parsing α) :
    (peekKind ending >>= next) tokens = next (nextKind tokens) tokens := by
  rw [bind_apply, peekKind, bind_apply, peek_of_clear clear]
  rfl

theorem read_bind (clear : Clear ending tokens) (next : Option Token → Parsing α) :
    (read ending >>= next) tokens = next tokens.head? tokens.tail := by
  rw [bind_apply, read, bind_apply, peek_of_clear clear]
  rfl

theorem take_bind {understood : Token → Except Fault Atom} {token : Token} {atom : Atom}
    (clear : Clear ending tokens) (known : understood token = .ok atom)
    (next : Token → Parsing α) :
    (take ending understood token >>= next) tokens = next token tokens.tail := by
  rw [bind_apply, take, read_bind clear, known]
  rfl

variable {result : α} {rest : List Token}

theorem of_peek_bind {next : Option Token → Parsing α}
    (parsed : (peek ending >>= next) tokens = .ok result rest) :
    Clear ending tokens ∧ next tokens.head? tokens = .ok result rest := by
  obtain ⟨found, after, looked, -⟩ := exists_of_bind_ok parsed
  have clear := clear_of_peek looked
  rw [peek_bind clear] at parsed
  exact ⟨clear, parsed⟩

theorem of_peekKind_bind {next : Option TokenKind → Parsing α}
    (parsed : (peekKind ending >>= next) tokens = .ok result rest) :
    Clear ending tokens ∧ next (nextKind tokens) tokens = .ok result rest := by
  obtain ⟨found, after, looked, -⟩ := exists_of_bind_ok parsed
  have clear := (of_peek_bind looked).1
  rw [peekKind_bind clear] at parsed
  exact ⟨clear, parsed⟩

theorem of_read_bind {next : Option Token → Parsing α}
    (parsed : (read ending >>= next) tokens = .ok result rest) :
    Clear ending tokens ∧ next tokens.head? tokens.tail = .ok result rest := by
  obtain ⟨found, after, looked, -⟩ := exists_of_bind_ok parsed
  have clear := (of_peek_bind looked).1
  rw [read_bind clear] at parsed
  exact ⟨clear, parsed⟩

theorem of_take_bind {understood : Token → Except Fault Atom} {token : Token}
    {next : Token → Parsing α}
    (parsed : (take ending understood token >>= next) tokens = .ok result rest) :
    next token tokens.tail = .ok result rest := by
  obtain ⟨found, after, taken, -⟩ := exists_of_bind_ok parsed
  obtain ⟨clear, taken⟩ := of_read_bind taken
  cases known : understood token with
  | ok atom =>
      rw [take_bind clear known] at parsed
      exact parsed
  | error fault =>
      rw [known] at taken
      cases taken

theorem eq_of_take {understood : Token → Except Fault Atom} {token taken : Token}
    (parsed : take ending understood token tokens = .ok taken rest) : taken = token := by
  obtain ⟨-, parsed⟩ := of_read_bind parsed
  cases known : understood token with
  | ok atom =>
      rw [known] at parsed
      cases parsed
      rfl
  | error fault =>
      rw [known] at parsed
      cases parsed

theorem fail_ne_ok (complaint : Complaint) : fail ending complaint tokens ≠ .ok result rest := by
  intro done
  have thrown := (of_peek_bind done).2
  cases thrown

end Steps

end Predictive

end MessageForms.Grammar
