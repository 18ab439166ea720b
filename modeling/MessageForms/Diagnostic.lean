import MessageForms.Text.Words

set_option autoImplicit false

/-! Diagnostics: what a person is told about a text, with lines and columns counted from one. -/

namespace MessageForms

/-- A report about a text. Everything but the severity and the message may be missing. -/
structure Diagnostic where
  severity : Text
  message : Text
  line : Option Int
  column : Option Int
  hint : Option Text
  file : Option Text
  preview : Option Text
deriving DecidableEq, Inhabited

namespace Diagnostic

def errorSeverity : Text := "error".toList

/-- Where the report points: the file, the line, and the column of a known line. -/
def location (diagnostic : Diagnostic) : Text :=
  let file := diagnostic.file.elim [] (· ++ [':'])
  let place := diagnostic.line.elim [] fun line =>
    Text.ofInt line ++ diagnostic.column.elim [] (':' :: Text.ofInt ·)
  file ++ place

def optionalPart (opening closing : Text) (part : Option Text) : Text :=
  match part with
  | none | some [] => []
  | some content => opening ++ content ++ closing

/-- The whole report: location, severity in capitals, message, hint, and the preview on lines of
its own. -/
def text (diagnostic : Diagnostic) : Text :=
  optionalPart [] [':', ' '] (some diagnostic.location) ++
    Text.uppercase diagnostic.severity ++ [':', ' '] ++ diagnostic.message ++
    optionalPart "  (pista: ".toList [')'] diagnostic.hint ++
    optionalPart ['\n'] [] diagnostic.preview

end Diagnostic

end MessageForms
