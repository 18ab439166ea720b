import MessageForms.Definition.Class

set_option autoImplicit false

/-! Method definitions: access modifiers, a name that may carry parameters, parameters of their
own, and a body. The name is the last modifier in front of the parameters and the body. -/

namespace MessageForms

structure MethodDefinition where
  form : MacroForm
  name : Atom
  parameters : Option Parameters
  access : List Node
  body : List Node
deriving Inhabited

namespace MethodDefinition

def toNode (definition : MethodDefinition) : Node :=
  .methodDefinition definition.form.modifiers definition.name definition.parameters
    definition.access definition.body definition.form.position

/-- The nodes without the last one, if that is of the given sort. -/
def withoutLast (leavesOut : Node → Bool) (nodes : List Node) : List Node :=
  match nodes.getLast? with
  | none => nodes
  | some last => if leavesOut last then nodes.dropLast else nodes

def isParenthesized : Node → Bool
  | .parenthesized _ _ => true
  | _ => false

/-- The modifiers up to the name: all but a body and the parameters in front of it. -/
def head (modifiers : List Node) : List Node :=
  withoutLast isParenthesized (withoutLast Node.isBraced modifiers)

def parametersFor (signature : Node) (arguments : List Node) : Taking (Option Parameters) := do
  if arguments.isEmpty then Taking.parameters?
  else
    return some (← Taking.ofOutcome (Parameters.ofNodes arguments signature.position))

/-- The method definition with the given name and access modifiers, taken off the modifiers
behind the name. -/
def takeBehind (form : MacroForm) (access : List Node) (signature : Node) (name : Atom)
    (arguments : List Node) : Taking MethodDefinition := do
  let parameters ← parametersFor signature arguments
  let body ← Taking.body
  return { form, name, parameters, access, body }

def ofForm (form : MacroForm) : Except Fault MethodDefinition :=
  if form.isClass then .error (.problem (.located form.position .classNotAMethod))
  else
    let head := head form.modifiers
    match head.getLast? with
    | none => .error (.problem (.located form.position .methodNameMissing))
    | some signature =>
        match signature.signature? with
        | none => .error (.problem (.located signature.position .methodNameMissing))
        | some (name, arguments) =>
            (takeBehind form head.dropLast signature name arguments).onModifiers
              (form.modifiers.drop head.length)

end MethodDefinition

/-- The class or method definition that a form writes, going by the class keyword. -/
def MacroForm.definition (form : MacroForm) : Except Fault Node :=
  if form.isClass then (ClassDefinition.ofForm form).map ClassDefinition.toNode
  else (MethodDefinition.ofForm form).map MethodDefinition.toNode

end MessageForms
