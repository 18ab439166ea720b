import MessageForms.Number.Binary64
import MessageForms.Text.Basic

set_option autoImplicit false

/-! Decimal numerals and the doubles they stand for. A numeral may have blanks around it, a sign,
single underscores between digits, a fraction and an exponent; infinity and the absence of a
number have names of their own. -/

namespace MessageForms

/-- The number `coefficient * 10 ^ exponent`, with a sign. -/
structure Decimal where
  negative : Bool
  coefficient : Nat
  exponent : Int

namespace Decimal

/-- Powers of ten that no double reaches, in either direction. -/
def exponentSpan : Int := 400

/-- The nearest double. Exponents out of reach are settled without computing the power. -/
def toBinary64 (number : Decimal) : Binary64 :=
  let code :=
    if number.coefficient = 0 then 0
    else if exponentSpan < number.exponent then Binary64.infinityCode
    else if number.exponent < -exponentSpan - number.coefficient.log2 then 0
    else
      Binary64.nearestCode (number.coefficient * Nat.pow 10 number.exponent.toNat)
        (Nat.pow 10 (-number.exponent).toNat)
  .signed number.negative code

def digitsValue (digits : Text) : Nat :=
  digits.foldl (fun value digit => 10 * value + (digit.toNat - '0'.toNat)) 0

/-- The blanks that a numeral may have around it; the information separators are not among
them. -/
def isMargin (character : Char) : Bool :=
  Text.isBlank character && !(0x1c ≤ character.toNat && character.toNat ≤ 0x1f)

def trimmed (text : Text) : Text :=
  ((text.dropWhile isMargin).reverse.dropWhile isMargin).reverse

/-- A digit of any script as the ASCII digit of the same value. -/
def asciiDigit (character : Char) : Char :=
  match Text.digitValue? character with
  | some value => Char.ofNat ('0'.toNat + value)
  | none => character

/-- Takes out underscores, each of which must stand between two digits. -/
def withoutUnderscores? (afterDigit : Bool) : Text → Option Text
  | [] => some []
  | character :: rest =>
      if character = '_' then
        if afterDigit && rest.head?.any Text.isDigit then withoutUnderscores? false rest else none
      else (withoutUnderscores? (Text.isDigit character) rest).map (character :: ·)

def signAndRest : Text → Bool × Text
  | '-' :: rest => (true, rest)
  | '+' :: rest => (false, rest)
  | rest => (false, rest)

/-- The exponent part: nothing, or the letter `e`, a sign and at least one digit. -/
def exponent? : Text → Option Int
  | [] => some 0
  | mark :: rest =>
      let (negative, digits) := signAndRest rest
      if (mark = 'e' || mark = 'E') && !digits.isEmpty && digits.all Text.isDigit then
        some (if negative then -(digitsValue digits : Int) else digitsValue digits)
      else none

/-- A numeral without sign, blanks and underscores; it has a digit before its exponent. -/
def unsigned? (negative : Bool) (text : Text) : Option Decimal := do
  let whole := text.takeWhile Text.isDigit
  let afterWhole := text.dropWhile Text.isDigit
  let (fraction, afterFraction) :=
    match afterWhole with
    | '.' :: rest => (rest.takeWhile Text.isDigit, rest.dropWhile Text.isDigit)
    | rest => ([], rest)
  if whole.isEmpty && fraction.isEmpty then none
  else do
    let exponent ← exponent? afterFraction
    return { negative, coefficient := digitsValue (whole ++ fraction),
             exponent := exponent - (fraction.length : Int) }

end Decimal

def Binary64.ofText? (text : Text) : Option Binary64 := do
  let plain ← Decimal.withoutUnderscores? false ((Decimal.trimmed text).map Decimal.asciiDigit)
  let (negative, body) := Decimal.signAndRest plain
  let name := body.map Char.toLower
  if name = "inf".toList || name = "infinity".toList then
    return .signed negative infinityCode
  else if name = "nan".toList then return .notANumber
  else return (← Decimal.unsigned? negative body).toBinary64

end MessageForms
