import MessageForms.Definition.LexicalVariable
import MessageForms.Definition.Method
import MessageForms.Expansion.Table

set_option autoImplicit false

/-! Expanders that are put together from plain data: a condition on the modifiers of a form, and
what is put in the form's place. -/

namespace MessageForms

inductive Condition where
  | always
  | never
  | has (name : Text)
  | startsWith (name : Text)
  | atLeast (count : Int)
deriving DecidableEq, Inhabited

def Condition.holds (modifiers : List Node) : Condition → Bool
  | always => true
  | never => false
  | has name => MacroForm.hasModifierNamed name modifiers
  | startsWith name => modifiers.head?.any (·.name? = some name)
  | atLeast count => count ≤ modifiers.length

/-- What is put in the place of a form. -/
inductive Replacement where
  | keep
  | copy
  | dropFirst
  | dropLast
  | reverse
  | tail
  | block
  | classDefinition
  | methodDefinition
  | definition
  | lexicalVariable
  | rename (name : Text)
  | fail (message : Text)
  | failUnsupported (message : Text)
  | stop (message : Text)
deriving DecidableEq, Inhabited

namespace Replacement

def withModifiers (form : MacroForm) (modifiers : List Node) : Except Fault (Option Node) :=
  .ok (some (.macroForm modifiers form.position))

def problem (form : MacroForm) (family : ProblemFamily) (message : Text) (hint : Option Text) :
    Fault :=
  .problem { Problem.located form.position (.stated family message) with hint }

def apply (form : MacroForm) : Replacement → Except Fault (Option Node)
  | keep => .ok none
  | copy => withModifiers form form.modifiers
  | dropFirst => withModifiers form form.modifiers.tail
  | dropLast => withModifiers form form.modifiers.dropLast
  | reverse => withModifiers form form.modifiers.reverse
  | tail => .ok form.tail?
  | block => .ok (some (.braced form.body form.position))
  | classDefinition => (ClassDefinition.ofForm form).map (some ·.toNode)
  | methodDefinition => (MethodDefinition.ofForm form).map (some ·.toNode)
  | definition => form.definition.map some
  | lexicalVariable => (LexicalVariable.ofForm form).map (some ·.toNode)
  | rename name =>
      let selector : Atom := { literal := .symbol name, position := form.position }
      withModifiers form (.implicitSend selector [] form.position :: form.modifiers.tail)
  | fail message => .error (problem form .building message none)
  | failUnsupported message => .error (problem form .unsupported message (some "later".toList))
  | stop message => .error (.stated message)

end Replacement

def Expander.ofRecipe (name : Text) (condition : Condition) (replacement : Replacement) :
    Expander where
  name
  applies modifiers := condition.holds modifiers
  expand form := replacement.apply form

end MessageForms
