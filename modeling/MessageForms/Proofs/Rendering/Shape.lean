import MessageForms.Node.Basic
import MessageForms.Number.Decimal
import MessageForms.Proofs.Text.Words

set_option autoImplicit false

/-! Trees that can be written down. Atoms and selectors are such that some token denotes them, and
forms are put together so that none of their parts would be read as belonging to another. -/

namespace MessageForms

/-- A literal that a string token or a number token can denote. -/
inductive Literal.IsWritable : Literal → Prop where
  | string {content : Text} (unquoted : '"' ∉ content) : IsWritable (.string content)
  | number {value read : Binary64} {digits : Text} (run : Text.IsDigitRun digits)
      (known : Binary64.ofText? digits = some read)
      (close : read.numericallyEqual value = true) : IsWritable (.number value)

namespace Atom

def IsSelector (atom : Atom) : Prop :=
  ∃ spelling, (Text.IsWord spelling ∨ Text.IsOperatorRun spelling) ∧
    atom.literal = .symbol (Text.symbolName spelling)

/-- The name of an operator that stands between its arguments. -/
def IsInfix (atom : Atom) : Prop :=
  ∃ name, atom.literal = .symbol name ∧ Text.IsOperatorRun name ∧ name ≠ Keyword.assignment

end Atom

namespace Node

def isMacroForm : Node → Bool
  | macroForm _ _ => true
  | _ => false

def isPartialSend : Node → Bool
  | partialSend _ _ _ => true
  | _ => false

def isTargetedSend : Node → Bool
  | targetedSend _ _ _ _ => true
  | _ => false

/-- A message to a receiver with one argument. -/
def isOperation : Node → Bool
  | targetedSend _ _ [_] _ => true
  | _ => false

/-- A message to a receiver without arguments. -/
def isDotSend : Node → Bool
  | targetedSend _ _ [] _ => true
  | _ => false

/-- A node that is written as one modifier. -/
def IsModifier (node : Node) : Prop :=
  node.isMacroForm = false ∧ node.isOperation = false

def StartsWithInfix : Node → Prop
  | implicitSend selector _ _ | targetedSend _ selector [] _ => selector.IsInfix
  | _ => False

/-- A receiver that is written with a dot first. -/
def startsWithDot : Node → Bool
  | partialSend _ _ _ => true
  | targetedSend target _ [_] _ => target.isPartialSend
  | macroForm (first :: _) _ => first.isPartialSend
  | _ => false

/-- The modifiers of a macro form: only the last may reach as far as the form itself, and the second
is not taken for an operator behind the first. -/
structure WellOrdered (modifiers : List Node) : Prop where
  several : 2 ≤ modifiers.length
  simple : ∀ modifier ∈ modifiers, modifier.IsModifier
  closed : ∀ modifier ∈ modifiers.dropLast, modifier.isDotSend = false
  apart : ∀ modifier ∈ modifiers[1]?, ¬ modifier.StartsWithInfix

def WellTargeted (target : Node) (selector : Atom) (arguments : List Node) : Prop :=
  (arguments.length = 1 ∧ selector.IsInfix ∧ target.isTargetedSend = false ∧
    target.isMacroForm = false) ∨ (arguments = [] ∧ target.startsWithDot = true)

mutual

def WellShaped : Node → Prop
  | .atom value => value.literal.IsWritable
  | .macroForm modifiers _ => WellOrdered modifiers ∧ AllWellShaped modifiers
  | .parenthesized inner _ | .braced inner _ => AllWellShaped inner
  | .implicitSend selector arguments _ | .partialSend selector arguments _ =>
      selector.IsSelector ∧ AllWellShaped arguments
  | .targetedSend target selector arguments _ =>
      selector.IsSelector ∧ WellTargeted target selector arguments ∧ WellShaped target ∧
        AllWellShaped arguments
  | .classDefinition _ _ _ _ _ _ _ | .methodDefinition _ _ _ _ _ _
  | .lexicalVariable _ _ _ _ _ _ => False

def AllWellShaped : List Node → Prop
  | [] => True
  | node :: others => WellShaped node ∧ AllWellShaped others

end

end Node

end MessageForms
