import MessageForms.Expansion.Table

set_option autoImplicit false

/-! Expansion. A node is expanded step after step, until a step leaves it as it is; its children
are walked after it, while messages are left alone. A node is made anew only if something in it was,
and `none` says that nothing was. -/

namespace MessageForms

/-! ### Chains of steps -/

/-- One replacement of a form: who did it, where, and the type of what came out. -/
structure LogEntry where
  expander : Text
  position : Position
  result : Text
deriving DecidableEq, Inhabited

def LogEntry.message (entry : LogEntry) : Text :=
  entry.expander ++ " expanded form at ".toList ++ Text.ofInt entry.position.row ++ [':'] ++
    Text.ofInt entry.position.column ++ " into ".toList ++ entry.result

/-- A step of expansion that may fail. The log keeps every replacement, also those before a
failure. -/
abbrev Expanding := EStateM Fault (Array LogEntry)

/-- How many times in a row one node may be replaced. -/
inductive StepLimit where
  | atMost (replacements : Int)
  | unlimited
deriving DecidableEq

/-- Ten thousand replacements are taken for a chain without end. -/
def StepLimit.standard : StepLimit := .atMost 10000

namespace MacroTable

/-- One step. The outcome is `none` if the node stays as it is. -/
def expandOnce (table : MacroTable) : Node → Expanding (Option Node)
  | .macroForm modifiers position => do
      match table.find? modifiers with
      | none => return none
      | some expander =>
          match expander.expand { modifiers, position } with
          | .error fault => throw fault
          | .ok none => return none
          | .ok (some result) =>
              modify (·.push { expander := expander.name, position, result := result.typeName })
              return some result
  | _ => return none

/-- Steps on until one leaves the node as it is. One replacement more than allowed is the given
fault. The outcome is `none` if the first step already leaves the node as it is. -/
def expandUpTo (table : MacroTable) (exceeded : Fault) : Nat → Node → Expanding (Option Node)
  | 0, node => do
      match ← table.expandOnce node with
      | none => return none
      | some _ => throw exceeded
  | allowed + 1, node => do
      match ← table.expandOnce node with
      | none => return none
      | some next =>
          let final ← table.expandUpTo exceeded allowed next
          return some (final.getD next)

/-- Expands a node as far as it goes. Under a limit, the fault of a longer chain names the first
step too many. Without a limit the patience is all that ends an endless chain. -/
def expandAll (table : MacroTable) (limit : StepLimit) (patience : Nat) (node : Node) :
    Expanding (Option Node) :=
  match limit with
  | .atMost replacements =>
      table.expandUpTo (.expansionLimit (replacements.toNat + 1)) replacements.toNat node
  | .unlimited => table.expandUpTo .exhausted patience node

/-! ### Walks of whole trees -/

def walkEach (walk : Node → Expanding (Option Node)) :
    List Node → Expanding (Option (List Node))
  | [] => return none
  | node :: others => do
      let walked ← walk node
      let walkedOthers ← walkEach walk others
      match walked, walkedOthers with
      | none, none => return none
      | _, _ => return some (walked.getD node :: walkedOthers.getD others)

/-- Walks the children of a node: the modifiers of a form, the inside of a delimited form, the
body of a definition, a bound expression. -/
def walkChildren (walk : Node → Expanding (Option Node)) : Node → Expanding (Option Node)
  | .macroForm modifiers position => do
      return (← walkEach walk modifiers).map (.macroForm · position)
  | .parenthesized inner position => do
      return (← walkEach walk inner).map (.parenthesized · position)
  | .braced inner position => do
      return (← walkEach walk inner).map (.braced · position)
  | .classDefinition origin name parent parameters access body position => do
      return (← walkEach walk body).map
        (.classDefinition origin name parent parameters access · position)
  | .methodDefinition origin name parameters access body position => do
      return (← walkEach walk body).map
        (.methodDefinition origin name parameters access · position)
  | .lexicalVariable origin name write access bound position => do
      return (← walk bound).map (.lexicalVariable origin name write access · position)
  | _ => return none

/-- Expands a node and then its children. The allowance bounds the depth of the walk, and the
length of chains that have no other limit. -/
def walkWithin (table : MacroTable) (limit : StepLimit) : Nat → Node → Expanding (Option Node)
  | 0, _ => throw .exhausted
  | allowance + 1, node => do
      let expanded ← table.expandAll limit allowance node
      let rebuilt ← walkChildren (table.walkWithin limit allowance) (expanded.getD node)
      return rebuilt.or expanded

/-- The length of a chain that is still waited for when there is no limit. -/
def longChain : Nat := 1000000

/-- The allowance of a walk. Expanders that make no form heavier never go deeper than the node's
weight. -/
def patience (node : Node) : Nat :=
  node.weight + longChain

def walk (table : MacroTable) (limit : StepLimit) (node : Node) : Expanding (Option Node) :=
  table.walkWithin limit (patience node) node

end MacroTable

end MessageForms
