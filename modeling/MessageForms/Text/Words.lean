import MessageForms.Text.Basic
import MessageForms.Text.CaseTables

set_option autoImplicit false

/-! One name for the many spellings of a symbol. Camel case, hyphens, underscores and blanks all
divide a name into words; the name itself is those words in small letters, one space apart. The
small and capital forms are those of every script: one letter may have several characters in the
other case, and the small sigma has a form of its own at the end of a word. -/

namespace MessageForms.Text

/-! ### Letter case -/

/-- Where the runs of a table move a code point to. -/
def shifted? (runs : List (Nat × Nat × Nat × Int)) (code : Nat) : Option Nat :=
  (runs.find? fun run =>
      run.1 ≤ code && code ≤ run.2.1 && (code - run.1) % run.2.2.1 == 0).map
    fun run => ((code : Int) + run.2.2.2).toNat

/-- The small form of a character apart from its neighbours; only the dotted capital I has two
characters. -/
def smallForm (character : Char) : Text :=
  if character = '\u0130' then ['i', '\u0307']
  else [((shifted? smallFormRuns character.toNat).map Char.ofNat).getD character]

def capitalForm (character : Char) : Text :=
  match longCapitalForms.find? (·.1 == character.toNat) with
  | some (_, form) => form.map Char.ofNat
  | none => [((shifted? capitalFormRuns character.toNat).map Char.ofNat).getD character]

/-- Whether the nearest character that is not passed over is a cased letter. -/
def meetsCased (neighbours : Text) : Bool :=
  match neighbours.dropWhile (withinRanges caseIgnorableRanges) with
  | [] => false
  | nearest :: _ => withinRanges casedRanges nearest

/-- The small form of the rest of a text; `before` holds what precedes it, nearest first. A
capital sigma is final when a letter stands before it and none after it. -/
def lowercaseAfter (before : Text) : Text → Text
  | [] => []
  | character :: rest =>
      let small :=
        if character = '\u03a3' && meetsCased before && !meetsCased rest then ['\u03c2']
        else smallForm character
      small ++ lowercaseAfter (character :: before) rest

def lowercase (text : Text) : Text :=
  lowercaseAfter [] text

def uppercase (text : Text) : Text :=
  text.flatMap capitalForm

/-! ### Words -/

/-- A space between a small letter or digit and the capital after it. -/
def divideAtCapital : Text → Text
  | first :: second :: rest =>
      if (isSmall first || isDigit first) && isCapital second then
        first :: ' ' :: second :: divideAtCapital rest
      else first :: divideAtCapital (second :: rest)
  | short => short

/-- A space before the last capital of a run when a small letter follows it. -/
def divideCapitalRun : Text → Text
  | first :: second :: third :: rest =>
      if isCapital first && isCapital second && isSmall third then
        first :: ' ' :: second :: third :: divideCapitalRun rest
      else first :: divideCapitalRun (second :: third :: rest)
  | short => short

def dividesWords (character : Char) : Bool :=
  character = '-' || character = '_' || isBlank character

def spelledWords (spelling : Text) : List Text :=
  (fields dividesWords (divideCapitalRun (divideAtCapital spelling))).map lowercase

/-- The name that a symbol's spelling stands for. A spelling that starts with an operator
character is its own name. -/
def symbolName (spelling : Text) : Text :=
  match spelling with
  | [] => []
  | first :: _ =>
      if isOperator first then spelling
      else [' '].intercalate (spelledWords spelling)

def nameWords (name : Text) : List Text :=
  splitOn ' ' name

end MessageForms.Text
