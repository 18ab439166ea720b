import MessageForms.Fault
import MessageForms.Node.Basic

set_option autoImplicit false

/-! The parts that definitions are made of, taken one after the other from a form's modifiers. A
cursor takes a list apart from the front and counts the items taken so far. -/

namespace MessageForms

/-- The items still ahead, and how many were taken before them. -/
structure ItemCursor (item : Type) where
  position : Nat
  ahead : List item

namespace ItemCursor

variable {item : Type}

def ofList (items : List item) : ItemCursor item :=
  { position := 0, ahead := items }

def peek (cursor : ItemCursor item) : Option item :=
  cursor.ahead.head?

def skip (count : Nat) (cursor : ItemCursor item) : ItemCursor item :=
  { position := cursor.position + min count cursor.ahead.length, ahead := cursor.ahead.drop count }

/-- The next item of a list with gaps; a gap is seen as the end is. -/
def peekPresent (cursor : ItemCursor (Option item)) : Option item :=
  cursor.ahead.head?.join

/-- The next item of a list with gaps, and the cursor behind it. A gap is never passed over. -/
def takePresent (cursor : ItemCursor (Option item)) : Option item × ItemCursor (Option item) :=
  match cursor.peekPresent with
  | none => (none, cursor)
  | some present => (some present, cursor.skip 1)

end ItemCursor

/-- A step along a list of modifiers that may fail; the cursor is known in either case. -/
abbrev Taking := EStateM Fault (ItemCursor Node)

def parameterName (node : Node) : Except Fault Atom :=
  match node.plainName? with
  | some name => .ok name
  | none => .error (.problem (.located node.position .parameterNotAName))

/-- Parameters, if all the nodes are plain names; the first that is not is complained about. -/
def Parameters.ofNodes (nodes : List Node) (position : Position) : Except Fault Parameters := do
  let names ← nodes.mapM parameterName
  return { names, position }

namespace Taking

def onModifiers {α : Type} (taking : Taking α) (modifiers : List Node) : Except Fault α :=
  match taking (.ofList modifiers) with
  | .ok value _ => .ok value
  | .error fault _ => .error fault

def complain {α : Type} (position : Position) (complaint : Complaint) : Taking α :=
  throw (.problem (.located position complaint))

def peek : Taking (Option Node) := do
  return (← get).peek

def next : Taking (Option Node) := do
  let node ← peek
  modify (·.skip 1)
  return node

def ofOutcome {α : Type} : Except Fault α → Taking α
  | .ok value => return value
  | .error fault => throw fault

/-- The modifiers in front of the first one with the given name, or all of them. -/
def untilNamed (name : Text) : Taking (List Node) := do
  let access := (← get).ahead.takeWhile (·.name? ≠ some name)
  modify (·.skip access.length)
  return access

/-- The expression that a class extends. The keyword asks for one, and a body is none. -/
def parent? : Taking (Option Node) := do
  match ← peek with
  | none => return none
  | some keyword =>
      if keyword.name? = some Keyword.extendsWord then
        let _ ← next
        match ← peek with
        | none => complain keyword.position .nothingExtended
        | some expression =>
            if expression.isBraced then complain keyword.position .nothingExtended
            else next
      else return none

/-- Parameters of their own in parentheses. Only a body may stand in their place. -/
def parameters? : Taking (Option Parameters) := do
  match ← peek with
  | none | some (.braced _ _) => return none
  | some (.parenthesized inner position) =>
      let _ ← next
      return some (← ofOutcome (Parameters.ofNodes inner position))
  | some other => complain other.position .bodyOrParametersExpected

def body : Taking (List Node) := do
  match ← next with
  | none => return []
  | some (.braced inner _) =>
      match ← peek with
      | none => return inner
      | some extra => complain extra.position .contentInDefinition
  | some other => complain other.position .contentInDefinition

end Taking

end MessageForms
