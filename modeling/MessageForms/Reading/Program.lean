import MessageForms.Reading.Expression

set_option autoImplicit false

/-! Whole texts: a single expression at the front of a text, or a program, which is a list of
expressions that reaches to the end. -/

namespace MessageForms

/-- What came of a text: the forms at its top level, and the reports about it. -/
structure Program where
  forms : List Node
  diagnostics : List Diagnostic
deriving Inhabited

namespace Reading

def programItems (dialect : Dialect) : Reading (List Node) :=
  withinAllowance fun allowance =>
    items (expressionWithin dialect allowance) bodyDelimiters none allowance

/-- The outcome of a reader on a text, without the stream that it leaves. -/
def onText {α : Type} (reader : Reading α) (text : Text) : Except Fault α :=
  match reader (.ofText text) with
  | .ok value _ => .ok value
  | .error fault _ => .error fault

end Reading

def readText (dialect : Dialect) (text : Text) : Except Fault Node :=
  Reading.onText (Reading.expression dialect) text

/-- The program that a text holds. The first problem ends the reading, and is then all that is
reported. -/
def readProgram (dialect : Dialect) (file : Option Text) (text : Text) : Except Fault Program :=
  match Reading.onText (Reading.programItems dialect) text with
  | .ok forms => .ok { forms, diagnostics := [] }
  | .error (.problem problem) => .ok { forms := [], diagnostics := [problem.diagnostic file] }
  | .error fault => .error fault

end MessageForms
