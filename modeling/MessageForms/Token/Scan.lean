import MessageForms.Fault
import MessageForms.Source.Cursor
import MessageForms.Text.Basic

set_option autoImplicit false

/-! Cutting one token off the front of a text. A token goes as far as its characters allow; only a
string names its own end. A scan that fails leaves the cursor where it gave up. -/

namespace MessageForms

/-- A step along a text that may fail; the cursor is known in either case. -/
abbrev Scanning := EStateM Fault Cursor

namespace Token

def scanRun (kind : TokenKind) (accepts : Char → Bool) : Scanning Token := fun cursor =>
  let (raw, after) := cursor.readWhile accepts
  .ok { kind, raw, position := cursor.here } after

def scanPunctuation (kind : TokenKind) : Scanning Token := fun cursor =>
  .ok { kind, raw := cursor.peek.toList, position := cursor.here } cursor.advance

/-- A word, which starts with a letter, or a run of operator characters. -/
def scanSymbol : Scanning Token := fun cursor =>
  match cursor.peek with
  | none => .error (.symbolStart none) cursor
  | some character =>
      if Text.isLetter character then scanRun .symbol Text.isWordPart cursor
      else if Text.isOperator character then scanRun .symbol Text.isOperator cursor
      else .error (.symbolStart (some character)) cursor

/-- A string reaches to the next quote mark. Without one the whole text is consumed and the
problem is put at the opening mark. -/
def scanString : Scanning Token := fun cursor =>
  let (raw, closing) := cursor.advance.readWhile (· ≠ '"')
  match closing.peek with
  | none =>
      .error
        (.problem
          { complaint := .unterminatedString
            position := some cursor.here
            preview := some cursor.preview
            hint := none })
        closing
  | some _ => .ok { kind := .string, raw, position := cursor.here } closing.advance

def scan : TokenKind → Scanning Token
  | .symbol => scanSymbol
  | .number => scanRun .number Text.isDigit
  | .string => scanString
  | kind => scanPunctuation kind

/-- The next token, after any blanks; `none` at the end of the text. -/
def next : Scanning (Option Token) := fun cursor =>
  let start := (cursor.readWhile Text.isBlank).2
  match start.peek with
  | none => .ok none start
  | some character =>
      match TokenKind.ofChar? character with
      | none => .error (.unclassified character start.here start.preview) start
      | some kind =>
          match scan kind start with
          | .ok token after => .ok (some token) after
          | .error fault after => .error fault after

end Token

end MessageForms
