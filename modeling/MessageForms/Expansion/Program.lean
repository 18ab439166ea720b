import MessageForms.Expansion.Walk
import MessageForms.Reading.Program

set_option autoImplicit false

/-! From a text to expanded forms. A form whose expansion runs into a problem is left out and the
problem reported; the other forms are not affected. -/

namespace MessageForms.MacroTable

/-- Walks a form; a problem becomes part of the outcome. -/
def walkReporting (table : MacroTable) (limit : StepLimit) (form : Node) :
    Expanding (Except Problem Node) := fun log =>
  match table.walk limit form log with
  | .ok walked after => .ok (.ok (walked.getD form)) after
  | .error (.problem problem) after => .ok (.error problem) after
  | .error fault after => .error fault after

def walkForms (table : MacroTable) (limit : StepLimit) (file : Option Text) :
    List Node → Expanding Program
  | [] => return { forms := [], diagnostics := [] }
  | form :: others => do
      let outcome ← table.walkReporting limit form
      let program ← table.walkForms limit file others
      match outcome with
      | .ok walked => return { program with forms := walked :: program.forms }
      | .error problem =>
          return { program with diagnostics := problem.diagnostic file :: program.diagnostics }

/-- Reads a program and walks its forms. A text that cannot be read has no forms to walk. -/
def readAndWalk (table : MacroTable) (limit : StepLimit) (dialect : Dialect) (file : Option Text)
    (text : Text) : Expanding Program := do
  match readProgram dialect file text with
  | .error fault => throw fault
  | .ok program =>
      let walked ← table.walkForms limit file program.forms
      return { walked with diagnostics := program.diagnostics ++ walked.diagnostics }

end MessageForms.MacroTable
