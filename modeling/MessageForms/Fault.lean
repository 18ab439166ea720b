import MessageForms.Diagnostic
import MessageForms.Keyword
import MessageForms.Text.Quoted
import MessageForms.Token.Basic

set_option autoImplicit false

/-! What can go wrong. A complaint is the cause of a problem with the text; a problem puts it at a
place and can be reported as a diagnostic. The other faults are misuses of the library, and
characters that no token starts with; they end the run. -/

namespace MessageForms

inductive ProblemFamily where
  | general
  | reading
  | building
  | unsupported
deriving DecidableEq, Inhabited

def ProblemFamily.lineage : ProblemFamily → List ProblemFamily
  | .general => [.general]
  | .reading => [.reading, .general]
  | .building => [.building, .general]
  | .unsupported => [.unsupported, .building, .general]

inductive Complaint where
  | unterminatedString
  | notANumber (raw : Text)
  | endOfInput (expected : TokenKind)
  | delimiterExpected (delimiters : List TokenKind) (found : TokenKind)
  | expressionExpected
  | bodyExpected
  | contentAfterBody
  | notAClass
  | classNotAMethod
  | classNameMissing
  | methodNameMissing
  | nothingExtended
  | bodyOrParametersExpected
  | contentInDefinition
  | parameterNotAName
  | writeKeywordMissing
  | assignmentMissing (keyword : WriteKeyword)
  | boundNameMissing (keyword : WriteKeyword)
  | nothingBound (keyword : WriteKeyword)
  | bindingNotAName
  | severalNames
  | severalExpressions
  | stated (family : ProblemFamily) (message : Text)
deriving DecidableEq, Inhabited

namespace Complaint

def family : Complaint → ProblemFamily
  | unterminatedString | notANumber _ | endOfInput _ | delimiterExpected _ _ | expressionExpected
  | bodyExpected | contentAfterBody => .reading
  | notAClass | classNotAMethod | classNameMissing | methodNameMissing | nothingExtended
  | bodyOrParametersExpected | contentInDefinition | writeKeywordMissing | assignmentMissing _
  | boundNameMissing _ | nothingBound _ => .building
  | parameterNotAName | bindingNotAName | severalNames | severalExpressions => .unsupported
  | stated family _ => family

def message : Complaint → Text
  | unterminatedString => "unterminated string literal".toList
  | notANumber raw => Text.quoted raw ++ " is not a number".toList
  | endOfInput expected => "unexpected end of input, expected ".toList ++ expected.name
  | delimiterExpected delimiters found =>
      "expected a delimiter ".toList ++
        " or ".toList.intercalate (delimiters.map TokenKind.name) ++
        " but got ".toList ++ found.name
  | expressionExpected => "expected an expression".toList
  | bodyExpected => "was expecting a body for this macro form".toList
  | contentAfterBody => "unexpected content after the body of this macro form".toList
  | notAClass => "this form is not a class definition".toList
  | classNotAMethod => "this form is a class definition, not a method definition".toList
  | classNameMissing => "class is missing a name".toList
  | methodNameMissing => "method is missing a name".toList
  | nothingExtended =>
      "extends is used in this class but has no associated expression".toList
  | bodyOrParametersExpected =>
      "there shouldn't be anything but the body or parameters here".toList
  | contentInDefinition => "unexpected content in definition".toList
  | parameterNotAName =>
      "only plain names are supported as parameters, destructuring is not".toList
  | writeKeywordMissing => "there was no const or let in this assignment form".toList
  | assignmentMissing keyword => keyword.name ++ " form is missing '='".toList
  | boundNameMissing keyword => keyword.name ++ " form is missing a name".toList
  | nothingBound keyword => keyword.name ++ " form has nothing bound after '='".toList
  | bindingNotAName =>
      "only a plain name can be bound, destructuring is not supported".toList
  | severalNames => "binding more than one name in a single form is not supported".toList
  | severalExpressions =>
      "binding more than one expression in a single form is not supported".toList
  | stated _ message => message

end Complaint

/-- A complaint at a place of a text, with whatever helps to find and to mend it. -/
structure Problem where
  complaint : Complaint
  position : Option Position
  preview : Option Text
  hint : Option Text
deriving DecidableEq, Inhabited

namespace Problem

/-- A complaint about a node or a token; its text is not at hand, so there is no preview. -/
def located (position : Position) (complaint : Complaint) : Problem :=
  { complaint, position := some position, preview := none, hint := none }

def text (problem : Problem) : Text :=
  problem.complaint.message ++ Diagnostic.optionalPart ['\n'] [] problem.preview

def diagnostic (problem : Problem) (file : Option Text) : Diagnostic :=
  { severity := Diagnostic.errorSeverity
    message := problem.complaint.message
    line := problem.position.map (·.row + 1)
    column := problem.position.map (·.column + 1)
    hint := problem.hint
    file
    preview := problem.preview }

end Problem

/-- Everything that ends a run early. Only a problem can be reported and passed over;
`exhausted` says that a search ran out of its allowance and settles nothing. -/
inductive Fault where
  | problem (reported : Problem)
  | unclassified (character : Char) (position : Position) (preview : Text)
  | symbolStart (found : Option Char)
  | checkpointAhead (checkpoint : Nat)
  | openingExpected (expected : TokenKind) (found : Option TokenKind)
  | alreadyDefined (name : Text)
  | stated (message : Text)
  | expansionLimit (steps : Nat)
  | exhausted
deriving DecidableEq, Inhabited

namespace Fault

/-- The name of a kind in the report of a misused list reader. -/
def constantName : TokenKind → Text
  | .openBrace => "OPEN_BRACE".toList
  | .closeBrace => "CLOSE_BRACE".toList
  | .openParen => "OPEN_PAREN".toList
  | .closeParen => "CLOSE_PAREN".toList
  | .dot => "DOT".toList
  | .semicolon => "SEMICOLON".toList
  | .comma => "COMMA".toList
  | .symbol => "SYMBOL".toList
  | .number => "NUMBER".toList
  | .string => "STRING".toList

def message : Fault → Text
  | problem reported => reported.text
  | unclassified character _ preview =>
      "could not find a token tag for ".toList ++ Text.quoted [character] ++ '\n' :: preview
  | symbolStart (some character) =>
      "symbol token cannot start with ".toList ++ Text.quoted [character]
  | symbolStart none => "expected string or bytes-like object, got 'NoneType'".toList
  | checkpointAhead checkpoint =>
      "checkpoint ".toList ++ Text.ofInt checkpoint ++ " is past the tokens read so far".toList
  | openingExpected expected found =>
      "read_delimited_list expected ".toList ++ expected.name ++ " but got ".toList ++
        found.elim "None".toList ("TokenTag.".toList ++ constantName ·)
  | alreadyDefined name => name ++ " is already defined".toList
  | stated message => message
  | expansionLimit steps =>
      "macro expansion did not reach a fixed point after ".toList ++ Text.ofInt steps ++
        " steps".toList
  | exhausted => "the allowance of this run is used up".toList

end Fault

end MessageForms
