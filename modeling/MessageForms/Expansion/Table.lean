import MessageForms.Fault
import MessageForms.Node.Basic

set_option autoImplicit false

/-! Expanders and the tables that hold them. A table only grows, and of the expanders that apply
to a form the one registered first is taken. -/

namespace MessageForms

/-- A named way to replace the forms that it applies to. The outcome `none` leaves a form as it
is; anything else takes the form's place, even if it looks the same. -/
structure Expander where
  name : Text
  applies : List Node → Bool
  expand : MacroForm → Except Fault (Option Node)

/-- Expanders in the order of their registration. -/
structure MacroTable where
  expanders : List Expander

namespace MacroTable

def empty : MacroTable :=
  { expanders := [] }

def names (table : MacroTable) : List Text :=
  table.expanders.map Expander.name

def contains (table : MacroTable) (name : Text) : Bool :=
  table.names.contains name

def size (table : MacroTable) : Nat :=
  table.expanders.length

/-- Work on a table. What it has changed before a fault stays changed. -/
abbrev Registering := EStateM Fault MacroTable

/-- Puts an expander behind all others; a name is given only once. -/
def register (expander : Expander) : Registering Unit := do
  let table ← get
  if table.contains expander.name then throw (.alreadyDefined expander.name)
  else set ({ expanders := table.expanders ++ [expander] } : MacroTable)

def define (name : Text) (applies : List Node → Bool)
    (expand : MacroForm → Except Fault (Option Node)) : Registering Expander := do
  let expander : Expander := { name, applies, expand }
  register expander
  return expander

/-- The first expander that applies to a form with the given modifiers. -/
def find? (table : MacroTable) (modifiers : List Node) : Option Expander :=
  table.expanders.find? (·.applies modifiers)

end MacroTable

end MessageForms
