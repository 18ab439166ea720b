import MessageForms.Fault
import MessageForms.Node.Basic

set_option autoImplicit false

/-! Lexical variables: access modifiers, a write keyword, one plain name, the assignment, and one
expression. -/

namespace MessageForms

structure LexicalVariable where
  form : MacroForm
  name : Atom
  write : WriteKeyword
  access : Option Node
  bound : Node
deriving Inhabited

namespace LexicalVariable

def toNode (definition : LexicalVariable) : Node :=
  .lexicalVariable definition.form.modifiers definition.name definition.write
    definition.access definition.bound definition.form.position

def complain {α : Type} (position : Position) (complaint : Complaint) : Except Fault α :=
  .error (.problem (.located position complaint))

/-- The one plain name between the keyword and the assignment. -/
def boundName (keywordPosition : Position) (write : WriteKeyword) :
    List Node → Except Fault Atom
  | [] => complain keywordPosition (.boundNameMissing write)
  | _ :: second :: _ => complain second.position .severalNames
  | [single] =>
      match single.plainName? with
      | some name => .ok name
      | none => complain single.position .bindingNotAName

def boundExpression (assignmentPosition : Position) (write : WriteKeyword) :
    List Node → Except Fault Node
  | [] => complain assignmentPosition (.nothingBound write)
  | _ :: second :: _ => complain second.position .severalExpressions
  | [single] => .ok single

/-- The variable behind its keyword: the nodes up to the assignment name it, and those after the
assignment are bound. -/
def ofBinding (form : MacroForm) (access : List Node) (keyword : Node) (write : WriteKeyword)
    (binding : List Node) : Except Fault LexicalVariable :=
  match keyword.arguments with
  | argument :: _ => complain argument.position .bindingNotAName
  | [] =>
      let isName := fun node : Node => node.name? ≠ some Keyword.assignment
      match binding.dropWhile isName with
      | [] => complain keyword.position (.assignmentMissing write)
      | assignment :: expressions => do
          let name ← boundName keyword.position write (binding.takeWhile isName)
          let bound ← boundExpression assignment.position write expressions
          return { form, name, write, access := access.head?, bound }

def ofForm (form : MacroForm) : Except Fault LexicalVariable :=
  let isAccess := fun node : Node => node.writeKeyword?.isNone
  match form.modifiers.dropWhile isAccess with
  | [] => complain form.position .writeKeywordMissing
  | keyword :: binding =>
      match keyword.writeKeyword? with
      | none => complain form.position .writeKeywordMissing
      | some write =>
          ofBinding form (form.modifiers.takeWhile isAccess) keyword write binding

end LexicalVariable

end MessageForms
