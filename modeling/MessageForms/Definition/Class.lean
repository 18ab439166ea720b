import MessageForms.Definition.Parts

set_option autoImplicit false

/-! Class definitions: access modifiers, the keyword, a name that may carry parameters, the
expression that the class extends, parameters of their own, and a body. All but the keyword and
the name may be missing. -/

namespace MessageForms

structure ClassDefinition where
  form : MacroForm
  name : Atom
  parent : Option Node
  parameters : Option Parameters
  access : List Node
  body : List Node
deriving Inhabited

namespace ClassDefinition

def toNode (definition : ClassDefinition) : Node :=
  .classDefinition definition.form.modifiers definition.name definition.parent
    definition.parameters definition.access definition.body definition.form.position

/-- The extended expression and the parameters. Arguments of the name are the parameters; with
none, parameters of their own may stand behind the extended expression. -/
def parentAndParameters (signature : Node) (arguments : List Node) :
    Taking (Option Node × Option Parameters) := do
  if arguments.isEmpty then
    let parent ← Taking.parent?
    let parameters ← Taking.parameters?
    return (parent, parameters)
  else
    let parameters ← Taking.ofOutcome (Parameters.ofNodes arguments signature.position)
    let parent ← Taking.parent?
    return (parent, some parameters)

def take (form : MacroForm) : Taking ClassDefinition := do
  let access ← Taking.untilNamed Keyword.classWord
  match ← Taking.next with
  | none => Taking.complain form.position .notAClass
  | some keyword =>
      match ← Taking.next with
      | none => Taking.complain keyword.position .classNameMissing
      | some signature =>
          match signature.signature? with
          | none => Taking.complain keyword.position .classNameMissing
          | some (name, arguments) =>
              let (parent, parameters) ← parentAndParameters signature arguments
              let body ← Taking.body
              return { form, name, parent, parameters, access, body }

def ofForm (form : MacroForm) : Except Fault ClassDefinition :=
  (take form).onModifiers form.modifiers

end ClassDefinition

/-- Whether a form has the class keyword among its modifiers. -/
def MacroForm.isClass (form : MacroForm) : Bool :=
  MacroForm.hasModifierNamed Keyword.classWord form.modifiers

end MessageForms
