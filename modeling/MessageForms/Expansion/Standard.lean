import MessageForms.Definition.LexicalVariable
import MessageForms.Definition.Method
import MessageForms.Expansion.Table

set_option autoImplicit false

/-! The standard table, which turns macro forms into definitions. Its order matters: a form with a
write keyword is a variable even if it names a class, and a form that names a class is no method,
whatever access it starts with. -/

namespace MessageForms

def Expander.lexicalVariable : Expander where
  name := "LexicalVariableFormExpander".toList
  applies modifiers := modifiers.any (·.writeKeyword?.isSome)
  expand form := (LexicalVariable.ofForm form).map (some ·.toNode)

def Expander.classDefinition : Expander where
  name := "ClassDefinitionExpander".toList
  applies := MacroForm.hasModifierNamed Keyword.classWord
  expand form := (ClassDefinition.ofForm form).map (some ·.toNode)

/-- Whether modifiers start with an access keyword and end, further on, with a body. -/
def Expander.looksLikeMethod (modifiers : List Node) : Bool :=
  2 ≤ modifiers.length &&
    modifiers.head?.any (fun first => first.name?.any Keyword.accessWords.contains) &&
    modifiers.getLast?.any Node.isBraced

def Expander.methodDefinition : Expander where
  name := "MethodDefinitionExpander".toList
  applies := Expander.looksLikeMethod
  expand form := (MethodDefinition.ofForm form).map (some ·.toNode)

/-- The expanders of variables, classes and methods, in this order. -/
def MacroTable.standard : MacroTable :=
  { expanders := [.lexicalVariable, .classDefinition, .methodDefinition] }

end MessageForms
