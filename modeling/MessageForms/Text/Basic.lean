set_option autoImplicit false

/-! Text is a list of code points, so that what a reader consumes and what a message quotes are
ordinary lists. The classes of characters decide where a token starts and how far it goes, what
stands between tokens, and what numerals are made of. -/

namespace MessageForms

/-- A text, one element for each code point. -/
abbrev Text := List Char

namespace Text

/-- Whether a table of closed intervals covers the character. -/
def withinRanges (ranges : List (Nat × Nat)) (character : Char) : Bool :=
  ranges.any fun range => range.1 ≤ character.toNat && character.toNat ≤ range.2

def ofInt : Int → Text
  | .ofNat value => Nat.toDigits 10 value
  | .negSucc value => '-' :: Nat.toDigits 10 (value + 1)

/-- The pieces between separators; `n` separators give `n + 1` pieces, empty ones included. -/
def splitOn (separator : Char) : Text → List Text
  | [] => [[]]
  | character :: rest =>
      if character = separator then [] :: splitOn separator rest
      else
        match splitOn separator rest with
        | [] => [[character]]
        | piece :: pieces => (character :: piece) :: pieces

/-- The longest runs without a separator, in order; none of them is empty. -/
def fields (separates : Char → Bool) : Text → List Text
  | [] => []
  | character :: rest =>
      if separates character then fields separates rest
      else
        match rest with
        | [] => [[character]]
        | next :: _ =>
            if separates next then [character] :: fields separates rest
            else
              match fields separates rest with
              | [] => [[character]]
              | field :: others => (character :: field) :: others

/-! ### Classes of characters -/

def isSmall (character : Char) : Bool :=
  'a' ≤ character && character ≤ 'z'

def isCapital (character : Char) : Bool :=
  'A' ≤ character && character ≤ 'Z'

/-- The ASCII letters; one of them starts a word symbol. -/
def isLetter (character : Char) : Bool :=
  isCapital character || isSmall character

def isDigit (character : Char) : Bool :=
  '0' ≤ character && character ≤ '9'

def isOperator (character : Char) : Bool :=
  character ∈ ['-', '+', '=', '<', '>', '&']

def isWordPart (character : Char) : Bool :=
  isLetter character || isDigit character || character ∈ ['_', '-', '<', '>']

/-- The closed intervals of blank characters: line and paragraph ends, the information
separators, and every space of Unicode. -/
def blankRanges : List (Nat × Nat) :=
  [(0x9,0xd), (0x1c,0x20), (0x85,0x85), (0xa0,0xa0), (0x1680,0x1680), (0x2000,0x200a),
    (0x2028,0x2029), (0x202f,0x202f), (0x205f,0x205f), (0x3000,0x3000)]

def isBlank (character : Char) : Bool :=
  withinRanges blankRanges character

/-! A script's ten digits are ten consecutive code points, so a table of the zeros settles them
all. -/

def digitZeros : List Nat :=
  [0x30, 0x660, 0x6f0, 0x7c0, 0x966, 0x9e6, 0xa66, 0xae6, 0xb66, 0xbe6, 0xc66, 0xce6, 0xd66,
    0xde6, 0xe50, 0xed0, 0xf20, 0x1040, 0x1090, 0x17e0, 0x1810, 0x1946, 0x19d0, 0x1a80, 0x1a90,
    0x1b50, 0x1bb0, 0x1c40, 0x1c50, 0xa620, 0xa8d0, 0xa900, 0xa9d0, 0xa9f0, 0xaa50, 0xabf0,
    0xff10, 0x104a0, 0x10d30, 0x11066, 0x110f0, 0x11136, 0x111d0, 0x112f0, 0x11450, 0x114d0,
    0x11650, 0x116c0, 0x11730, 0x118e0, 0x11950, 0x11c50, 0x11d50, 0x11da0, 0x16a60, 0x16ac0,
    0x16b50, 0x1d7ce, 0x1d7d8, 0x1d7e2, 0x1d7ec, 0x1d7f6, 0x1e140, 0x1e2f0, 0x1e950, 0x1fbf0]

def digitValue? (character : Char) : Option Nat :=
  (digitZeros.find? (fun start => start ≤ character.toNat && character.toNat < start + 10)).map
    (character.toNat - ·)

end Text

end MessageForms
