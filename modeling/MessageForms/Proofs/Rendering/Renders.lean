import MessageForms.Proofs.Rendering.Shape
import MessageForms.Proofs.Token.Lexeme
import MessageForms.Reading.List

set_option autoImplicit false

/-! Writing a tree down. A rendering is free to choose among the numerals of a number, the spellings
of a name and the delimiters of a list, and to leave out empty parentheses where nothing behind
them would be misread; signs are then laid out with blanks between them. -/

namespace MessageForms

/-- A token apart from its place. -/
structure Sign where
  kind : TokenKind
  raw : Text

def Token.sign (token : Token) : Sign :=
  { kind := token.kind, raw := token.raw }

namespace Sign

def mark (kind : TokenKind) : Sign :=
  { kind, raw := kind.mark?.toList }

def text (sign : Sign) : Text :=
  Token.lexeme { kind := sign.kind, raw := sign.raw, position := { row := 0, column := 0 } }

def Fits (sign : Sign) : Prop :=
  Token.Fits { kind := sign.kind, raw := sign.raw, position := { row := 0, column := 0 } }

/-- The sign is a symbol with the selector's name. -/
structure Spells (sign : Sign) (selector : Atom) : Prop where
  kind : sign.kind = .symbol
  written : Text.IsWord sign.raw ∨ Text.IsOperatorRun sign.raw
  named : selector.literal = .symbol (Text.symbolName sign.raw)

/-- The sign is a string with the literal's content, or a numeral of an equal number. -/
inductive Denotes : Sign → Literal → Prop where
  | string {content : Text} (unquoted : '"' ∉ content) :
      Denotes { kind := .string, raw := content } (.string content)
  | number {digits : Text} {value read : Binary64} (run : Text.IsDigitRun digits)
      (known : Binary64.ofText? digits = some read)
      (close : read.numericallyEqual value = true) :
      Denotes { kind := .number, raw := digits } (.number value)

def nextKind (signs : List Sign) : Option TokenKind :=
  signs.head?.map kind

end Sign

open Sign (mark)
open Reading (argumentDelimiters bodyDelimiters)

mutual

/-- The signs write the node down in front of the signs that follow them. -/
inductive Renders : Node → List Sign → List Sign → Prop where
  | atom {atom : Atom} {sign : Sign} {after : List Sign} (denotes : sign.Denotes atom.literal) :
      Renders (.atom atom) [sign] after
  | parenthesized {inner : List Node} {position : Position} {signs after : List Sign}
      (items : RendersItems argumentDelimiters inner signs (mark .closeParen :: after)) :
      Renders (.parenthesized inner position)
        (mark .openParen :: (signs ++ [mark .closeParen])) after
  | braced {inner : List Node} {position : Position} {signs after : List Sign}
      (items : RendersItems bodyDelimiters inner signs (mark .closeBrace :: after)) :
      Renders (.braced inner position) (mark .openBrace :: (signs ++ [mark .closeBrace])) after
  | partialSend {selector : Atom} {arguments : List Node} {position : Position} {name : Sign}
      {signs after : List Sign} (spells : name.Spells selector)
      (listed : RendersArguments arguments signs after) :
      Renders (.partialSend selector arguments position) (mark .dot :: name :: signs) after
  | implicitSend {selector : Atom} {arguments : List Node} {position : Position} {name : Sign}
      {signs after : List Sign} (spells : name.Spells selector)
      (listed : RendersArguments arguments signs after)
      (undotted : Sign.nextKind (signs ++ after) ≠ some .dot) :
      Renders (.implicitSend selector arguments position) (name :: signs) after
  | dotSend {target : Node} {selector : Atom} {position : Position} {name : Sign}
      {signs after : List Sign} (spells : name.Spells selector)
      (receiver : Renders target signs after) :
      Renders (.targetedSend target selector [] position) (name :: signs) after
  | operation {target argument : Node} {selector : Atom} {position : Position} {name : Sign}
      {left right after : List Sign} (receiver : Renders target left (name :: (right ++ after)))
      (spells : name.Spells selector) (operand : Renders argument right after) :
      Renders (.targetedSend target selector [argument] position) (left ++ name :: right) after
  | form {node : Node} {others : List Node} {position : Position} {signs more after : List Sign}
      (first : Renders node signs (more ++ after)) (rest : RendersModifiers others more after) :
      Renders (.macroForm (node :: others) position) (signs ++ more) after

/-- The arguments behind a selector. Parentheses may be missing if there is nothing between them,
unless others follow that would be taken for them. -/
inductive RendersArguments : List Node → List Sign → List Sign → Prop where
  | bare {after : List Sign} (unopened : Sign.nextKind after ≠ some .openParen) :
      RendersArguments [] [] after
  | listed {arguments : List Node} {signs after : List Sign}
      (items : RendersItems argumentDelimiters arguments signs (mark .closeParen :: after)) :
      RendersArguments arguments (mark .openParen :: (signs ++ [mark .closeParen])) after

inductive RendersItems : List TokenKind → List Node → List Sign → List Sign → Prop where
  | empty {delimiters : List TokenKind} {after : List Sign} : RendersItems delimiters [] [] after
  | first {delimiters : List TokenKind} {node : Node} {others : List Node}
      {signs more after : List Sign} (item : Renders node signs (more ++ after))
      (rest : RendersMore delimiters others more after) :
      RendersItems delimiters (node :: others) (signs ++ more) after

inductive RendersMore : List TokenKind → List Node → List Sign → List Sign → Prop where
  | ended {delimiters : List TokenKind} {after : List Sign} : RendersMore delimiters [] [] after
  | trailing {delimiters : List TokenKind} {kind : TokenKind} {after : List Sign}
      (divides : kind ∈ delimiters) : RendersMore delimiters [] [mark kind] after
  | more {delimiters : List TokenKind} {kind : TokenKind} {node : Node} {others : List Node}
      {signs more after : List Sign} (divides : kind ∈ delimiters)
      (item : Renders node signs (more ++ after))
      (rest : RendersMore delimiters others more after) :
      RendersMore delimiters (node :: others) (mark kind :: (signs ++ more)) after

inductive RendersModifiers : List Node → List Sign → List Sign → Prop where
  | last {node : Node} {signs after : List Sign} (modifier : Renders node signs after) :
      RendersModifiers [node] signs after
  | more {node : Node} {others : List Node} {signs more after : List Sign}
      (modifier : Renders node signs (more ++ after))
      (rest : RendersModifiers others more after) :
      RendersModifiers (node :: others) (signs ++ more) after

end

/-- The signs, with a run of blanks between any two of them and perhaps around them. -/
inductive Layout : List Sign → Text → Prop where
  | margin {blanks : Text} (blank : ∀ character ∈ blanks, Text.isBlank character = true) :
      Layout [] blanks
  | sign {gap rest : Text} {sign : Sign} {others : List Sign}
      (blank : ∀ character ∈ gap, Text.isBlank character = true) (laid : Layout others rest)
      (apart : ∀ character ∈ rest.head?, Text.isBlank character = true) :
      Layout (sign :: others) (gap ++ (sign.text ++ rest))

/-! ### The signs are those of tokens -/

theorem Sign.fits_mark {kind : TokenKind} (ends : kind.endsExpression = true) :
    (mark kind).Fits := by
  cases kind <;> cases ends <;> exact rfl

theorem Sign.Spells.fits {sign : Sign} {selector : Atom} (spells : sign.Spells selector) :
    sign.Fits := by
  rcases spells with ⟨kind, written, -⟩
  simp only [Fits, Token.Fits, kind]
  exact written

theorem Sign.Denotes.fits {sign : Sign} {literal : Literal} (denotes : sign.Denotes literal) :
    sign.Fits := by
  cases denotes with
  | string unquoted => exact unquoted
  | number run known close => exact run

section Fits

theorem fits_of_delimited {opening closing : TokenKind} {signs : List Sign}
    (opens : (mark opening).Fits) (closes : (mark closing).Fits)
    (inner : ∀ sign ∈ signs, sign.Fits) :
    ∀ sign ∈ mark opening :: (signs ++ [mark closing]), sign.Fits := by
  intro sign member
  simp only [List.mem_cons, List.mem_append, List.not_mem_nil, or_false] at member
  rcases member with rfl | among | rfl
  · exact opens
  · exact inner sign among
  · exact closes

theorem fits_append {signs more : List Sign} (first : ∀ sign ∈ signs, sign.Fits)
    (rest : ∀ sign ∈ more, sign.Fits) : ∀ sign ∈ signs ++ more, sign.Fits := by
  intro sign member
  rcases List.mem_append.mp member with among | among
  · exact first sign among
  · exact rest sign among

theorem fits_cons {sign : Sign} {signs : List Sign} (first : sign.Fits)
    (rest : ∀ other ∈ signs, other.Fits) : ∀ other ∈ sign :: signs, other.Fits := by
  intro other member
  rcases List.mem_cons.mp member with rfl | among
  · exact first
  · exact rest other among

mutual

theorem Renders.fits {node : Node} {signs after : List Sign} (renders : Renders node signs after) :
    ∀ sign ∈ signs, sign.Fits := by
  match renders with
  | .atom denotes => exact fits_cons denotes.fits (by simp)
  | .parenthesized items =>
      have inner := items.fits (by decide)
      exact fits_of_delimited rfl rfl inner
  | .braced items =>
      have inner := items.fits (by decide)
      exact fits_of_delimited rfl rfl inner
  | .partialSend spells listed => exact fits_cons rfl (fits_cons spells.fits listed.fits)
  | .implicitSend spells listed undotted => exact fits_cons spells.fits listed.fits
  | .dotSend spells receiver => exact fits_cons spells.fits receiver.fits
  | .operation receiver spells operand =>
      exact fits_append receiver.fits (fits_cons spells.fits operand.fits)
  | .form first rest => exact fits_append first.fits rest.fits

theorem RendersArguments.fits {arguments : List Node} {signs after : List Sign}
    (renders : RendersArguments arguments signs after) : ∀ sign ∈ signs, sign.Fits := by
  match renders with
  | .bare unopened => simp
  | .listed items =>
      have inner := items.fits (by decide)
      exact fits_of_delimited rfl rfl inner

theorem RendersItems.fits {delimiters : List TokenKind} {nodes : List Node}
    {signs after : List Sign} (renders : RendersItems delimiters nodes signs after)
    (ends : ∀ kind ∈ delimiters, kind.endsExpression = true) : ∀ sign ∈ signs, sign.Fits := by
  match renders with
  | .empty => simp
  | .first item rest => exact fits_append item.fits (rest.fits ends)

theorem RendersMore.fits {delimiters : List TokenKind} {nodes : List Node}
    {signs after : List Sign} (renders : RendersMore delimiters nodes signs after)
    (ends : ∀ kind ∈ delimiters, kind.endsExpression = true) : ∀ sign ∈ signs, sign.Fits := by
  match renders with
  | .ended => simp
  | .trailing divides => exact fits_cons (Sign.fits_mark (ends _ divides)) (by simp)
  | .more divides item rest =>
      exact fits_cons (Sign.fits_mark (ends _ divides)) (fits_append item.fits (rest.fits ends))

theorem RendersModifiers.fits {nodes : List Node} {signs after : List Sign}
    (renders : RendersModifiers nodes signs after) : ∀ sign ∈ signs, sign.Fits := by
  match renders with
  | .last modifier => exact modifier.fits
  | .more modifier rest => exact fits_append modifier.fits rest.fits

end

end Fits

end MessageForms
