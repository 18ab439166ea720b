import MessageForms.Number.Decimal
import MessageForms.Proofs.Text.Class

set_option autoImplicit false

/-! A run of digits is a numeral: nothing of it is trimmed or taken for a sign, a name or an
exponent, and its value is that of its digits. -/

namespace MessageForms

namespace Decimal

section Digits

variable {character : Char} {digits : Text}

theorem isMargin_eq_false_of_isDigit (digit : Text.isDigit character = true) :
    isMargin character = false := by
  have code := (Text.isDigit_iff character).mp digit
  have visible : Text.isBlank character = false :=
    Text.isBlank_eq_false_of_printing (by omega) (by omega)
  rw [isMargin, visible, Bool.false_and]

theorem asciiDigit_of_isDigit (digit : Text.isDigit character = true) :
    asciiDigit character = character := by
  have code := (Text.isDigit_iff character).mp digit
  have value : Text.digitValue? character = some (character.toNat - 48) := by
    have within : (decide (48 ≤ character.toNat) && decide (character.toNat < 48 + 10)) = true := by
      rw [Bool.and_eq_true, decide_eq_true_eq, decide_eq_true_eq]
      omega
    have firstZero : Text.digitZeros = 48 :: Text.digitZeros.tail := rfl
    rw [Text.digitValue?, firstZero]
    exact congrArg (Option.map (character.toNat - ·)) (List.find?_cons_of_pos within)
  have sum : '0'.toNat + (character.toNat - 48) = character.toNat := by
    change 48 + (character.toNat - 48) = character.toNat
    omega
  rw [asciiDigit, value]
  dsimp only
  rw [sum, Char.ofNat_toNat]

theorem dropWhile_isMargin (digitsOnly : ∀ digit ∈ digits, Text.isDigit digit = true) :
    digits.dropWhile isMargin = digits := by
  cases digits with
  | nil => rfl
  | cons first others =>
      have kept := isMargin_eq_false_of_isDigit (digitsOnly first List.mem_cons_self)
      exact List.dropWhile_cons_of_neg (by rw [kept]; exact Bool.false_ne_true)

theorem trimmed_of_digits (digitsOnly : ∀ digit ∈ digits, Text.isDigit digit = true) :
    trimmed digits = digits := by
  have backwards : ∀ digit ∈ digits.reverse, Text.isDigit digit = true :=
    fun digit among => digitsOnly digit (List.mem_reverse.mp among)
  rw [trimmed, dropWhile_isMargin digitsOnly, dropWhile_isMargin backwards, List.reverse_reverse]

theorem withoutUnderscores?_of_digits (afterDigit : Bool)
    (digitsOnly : ∀ digit ∈ digits, Text.isDigit digit = true) :
    withoutUnderscores? afterDigit digits = some digits := by
  induction digits generalizing afterDigit with
  | nil => rfl
  | cons first others ih =>
      have code := (Text.isDigit_iff first).mp (digitsOnly first List.mem_cons_self)
      have plain : first ≠ '_' := by
        intro same
        subst same
        revert code
        decide
      rw [withoutUnderscores?, if_neg plain,
        ih _ fun digit among => digitsOnly digit (List.mem_cons_of_mem first among)]
      rfl

theorem signAndRest_of_digits (digitsOnly : ∀ digit ∈ digits, Text.isDigit digit = true) :
    signAndRest digits = (false, digits) := by
  unfold signAndRest
  split
  · exact absurd (digitsOnly '-' List.mem_cons_self) (by decide)
  · exact absurd (digitsOnly '+' List.mem_cons_self) (by decide)
  · rfl

theorem map_toLower_ne {name : Text} (first : Char) {others : Text}
    (named : name = first :: others) (letter : Text.isDigit first = false)
    (digitsOnly : ∀ digit ∈ digits, Text.isDigit digit = true) :
    digits.map Char.toLower ≠ name := by
  intro same
  cases digits with
  | nil =>
      rw [named] at same
      cases same
  | cons digit digits =>
      have isDigit := digitsOnly digit List.mem_cons_self
      have code := (Text.isDigit_iff digit).mp isDigit
      have unchanged : digit.toLower = digit := by
        have small : ¬ (digit.val ≥ 'A'.val ∧ digit.val ≤ 'Z'.val) := by
          intro claimed
          rcases claimed with ⟨capital, -⟩
          have bound : 65 ≤ digit.toNat := capital
          omega
        exact dif_neg small
      rw [List.map_cons, unchanged, named, List.cons.injEq] at same
      rw [same.1, letter] at isDigit
      cases isDigit

theorem unsigned?_of_digits (negative : Bool) (run : Text.IsDigitRun digits) :
    unsigned? negative digits =
      some { negative, coefficient := digitsValue digits, exponent := 0 } := by
  rcases run with ⟨nonempty, digitsOnly⟩
  have stops : ∀ digit ∈ ([] : Text).head?, Text.isDigit digit = false := by
    rintro digit ⟨⟩
  have whole := Text.takeWhile_append_of_stops [] digitsOnly stops
  have rest := Text.dropWhile_append_of_stops [] digitsOnly stops
  rw [List.append_nil] at whole rest
  have present : digits.isEmpty = false := by
    rw [List.isEmpty_eq_false_iff]
    exact nonempty
  unfold unsigned?
  rw [whole, rest]
  dsimp only
  rw [present, Bool.false_and, if_neg Bool.false_ne_true, exponent?, List.append_nil]
  rfl

end Digits

end Decimal

/-- The number of a digit run is the double nearest to the value of its digits. -/
theorem Binary64.ofText?_of_digits {digits : Text} (run : Text.IsDigitRun digits) :
    Binary64.ofText? digits =
      some (Decimal.toBinary64
        { negative := false, coefficient := Decimal.digitsValue digits, exponent := 0 }) := by
  have digitsOnly := run.2
  have ascii : digits.map Decimal.asciiDigit = digits := by
    have unchanged := fun digit among => Decimal.asciiDigit_of_isDigit (digitsOnly digit among)
    rw [List.map_congr_left unchanged]
    exact List.map_id' digits
  have notInf : digits.map Char.toLower ≠ "inf".toList :=
    Decimal.map_toLower_ne 'i' rfl (by decide) digitsOnly
  have notInfinity : digits.map Char.toLower ≠ "infinity".toList :=
    Decimal.map_toLower_ne 'i' rfl (by decide) digitsOnly
  have notNan : digits.map Char.toLower ≠ "nan".toList :=
    Decimal.map_toLower_ne 'n' rfl (by decide) digitsOnly
  rw [Binary64.ofText?, Decimal.trimmed_of_digits digitsOnly, ascii,
    Decimal.withoutUnderscores?_of_digits false digitsOnly, Option.bind_eq_bind, Option.bind_some,
    Decimal.signAndRest_of_digits digitsOnly]
  simp only [notInf, notInfinity, notNan, decide_false, Bool.or_self, if_false]
  rw [Decimal.unsigned?_of_digits false run]
  rfl

end MessageForms
