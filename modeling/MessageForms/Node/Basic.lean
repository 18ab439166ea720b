import MessageForms.Keyword
import MessageForms.Number.Binary64
import MessageForms.Source.Position

set_option autoImplicit false

/-! The trees that reading and expansion work on. Reading builds atoms, sends, delimited forms and
macro forms; expansion puts class, method and variable definitions in place of macro forms. A
definition keeps the modifiers of the form that it was made from. -/

namespace MessageForms

inductive AtomKind where
  | plain
  | number
  | symbol
  | string
deriving DecidableEq, Inhabited

/-- What an atom holds, whatever its kind. -/
inductive Content where
  | number (value : Binary64)
  | text (content : Text)
deriving DecidableEq, Inhabited

/-- What is written in one spot of a tree. Which of these a token becomes is up to the reader's
dialect: the kind says nothing about the content. -/
structure Literal where
  kind : AtomKind
  content : Content
deriving DecidableEq, Inhabited

structure Atom where
  literal : Literal
  position : Position
deriving DecidableEq, Inhabited

structure Parameters where
  names : List Atom
  position : Position
deriving DecidableEq, Inhabited

inductive Node where
  | atom (value : Atom)
  | macroForm (modifiers : List Node) (position : Position)
  | parenthesized (inner : List Node) (position : Position)
  | braced (inner : List Node) (position : Position)
  /-- A message to whoever is in charge, such as `move(1, 2)`. -/
  | implicitSend (selector : Atom) (arguments : List Node) (position : Position)
  /-- A message whose receiver the context supplies, such as `.height`. -/
  | partialSend (selector : Atom) (arguments : List Node) (position : Position)
  /-- A message to a receiver; infix operators are messages to their left side. -/
  | targetedSend (target : Node) (selector : Atom) (arguments : List Node) (position : Position)
  | classDefinition (origin : List Node) (name : Atom) (parent : Option Node)
      (parameters : Option Parameters) (access : List Node) (body : List Node)
      (position : Position)
  | methodDefinition (origin : List Node) (name : Atom) (parameters : Option Parameters)
      (access : List Node) (body : List Node) (position : Position)
  /-- Without an access modifier the variable is private. -/
  | lexicalVariable (origin : List Node) (name : Atom) (write : WriteKeyword)
      (access : Option Node) (bound : Node) (position : Position)
deriving Inhabited

structure MacroForm where
  modifiers : List Node
  position : Position
deriving Inhabited

def AtomKind.typeName : AtomKind → Text
  | plain => "Atom".toList
  | number => "NumberAtom".toList
  | symbol => "SymbolAtom".toList
  | string => "StringAtom".toList

namespace Literal

/-! The literals that the standard dialect makes, and atoms without a kind. -/

@[match_pattern] abbrev plain (content : Content) : Literal :=
  { kind := .plain, content }

@[match_pattern] abbrev number (value : Binary64) : Literal :=
  { kind := .number, content := .number value }

@[match_pattern] abbrev symbol (name : Text) : Literal :=
  { kind := .symbol, content := .text name }

@[match_pattern] abbrev string (content : Text) : Literal :=
  { kind := .string, content := .text content }

end Literal

namespace Node

def position : Node → Position
  | atom value => value.position
  | macroForm _ position | parenthesized _ position | braced _ position
  | implicitSend _ _ position | partialSend _ _ position | targetedSend _ _ _ position
  | classDefinition _ _ _ _ _ _ position | methodDefinition _ _ _ _ _ position
  | lexicalVariable _ _ _ _ _ position => position

/-- The name of a node's variant; all atoms are one variant. -/
def variantName : Node → Text
  | atom _ => "Atom".toList
  | macroForm _ _ => "MacroForm".toList
  | parenthesized _ _ => "ParenthesizedForm".toList
  | braced _ _ => "BracedForm".toList
  | implicitSend _ _ _ => "ImplicitSelfSend".toList
  | partialSend _ _ _ => "PartialSend".toList
  | targetedSend _ _ _ _ => "TargettedSend".toList
  | classDefinition _ _ _ _ _ _ _ => "ClassDefinition".toList
  | methodDefinition _ _ _ _ _ _ => "MethodDefinition".toList
  | lexicalVariable _ _ _ _ _ _ => "LexicalVariableForm".toList

/-- The name of a node's type, which tells the kinds of atom apart. -/
def typeName : Node → Text
  | atom value => value.literal.kind.typeName
  | node => node.variantName

def isBraced : Node → Bool
  | braced _ _ => true
  | _ => false

/-- The name of a message to whoever is in charge, if its selector is a symbol that holds one.
Keywords are such names. -/
def name? : Node → Option Text
  | implicitSend { literal := .symbol name, .. } _ _ => some name
  | _ => none

/-- A name with its arguments: an atom by itself, or an implicit send. -/
def signature? : Node → Option (Atom × List Node)
  | atom value => some (value, [])
  | implicitSend selector arguments _ => some (selector, arguments)
  | _ => none

def plainName? (node : Node) : Option Atom :=
  match node.signature? with
  | some (name, []) => some name
  | _ => none

def writeKeyword? (node : Node) : Option WriteKeyword :=
  node.name?.bind WriteKeyword.ofName?

def accessOrDefault : Option Node → Node ⊕ Text
  | some modifier => .inl modifier
  | none => .inr Keyword.defaultAccess

def arguments : Node → List Node
  | implicitSend _ arguments _ | partialSend _ arguments _ | targetedSend _ _ arguments _ =>
      arguments
  | _ => []

def inner : Node → List Node
  | macroForm inner _ | parenthesized inner _ | braced inner _ => inner
  | _ => []

/-- The same sort of form in the same place around other nodes; nodes of other sorts stay as they
are. -/
def withInner (inner : List Node) : Node → Node
  | macroForm _ position => macroForm inner position
  | parenthesized _ position => parenthesized inner position
  | braced _ position => braced inner position
  | node => node

mutual

/-- The number of nodes that expansion reaches, the node itself included. Messages count as one,
since expansion does not look inside of them. -/
def weight : Node → Nat
  | .macroForm modifiers _ => 1 + weights modifiers
  | .parenthesized inner _ | .braced inner _ => 1 + weights inner
  | .classDefinition _ _ _ _ _ body _ => 1 + weights body
  | .methodDefinition _ _ _ _ body _ => 1 + weights body
  | .lexicalVariable _ _ _ _ bound _ => 1 + weight bound
  | .atom _ | .implicitSend _ _ _ | .partialSend _ _ _ | .targetedSend _ _ _ _ => 1

def weights : List Node → Nat
  | [] => 0
  | node :: others => weight node + weights others

end

end Node

namespace MacroForm

def toNode (form : MacroForm) : Node :=
  .macroForm form.modifiers form.position

def tail? (form : MacroForm) : Option Node :=
  form.modifiers.getLast?

def bracedTail? (form : MacroForm) : Option (List Node) :=
  match form.tail? with
  | some (.braced inner _) => some inner
  | _ => none

def body (form : MacroForm) : List Node :=
  form.bracedTail?.getD []

def hasModifierNamed (name : Text) (modifiers : List Node) : Bool :=
  modifiers.any (·.name? = some name)

end MacroForm

end MessageForms
