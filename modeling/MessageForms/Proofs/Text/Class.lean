import MessageForms.Text.Basic

set_option autoImplicit false

/-! The character classes as ranges of code points. A token starts with a letter, a digit, an
operator character, a quote mark or punctuation; these classes are disjoint, and none of them holds
a blank. -/

namespace MessageForms.Text

theorem isSmall_iff (character : Char) :
    isSmall character = true ↔ 97 ≤ character.toNat ∧ character.toNat ≤ 122 := by
  simp only [isSmall, Bool.and_eq_true, decide_eq_true_eq, Char.le_def, UInt32.le_iff_toNat_le]
  rfl

theorem isCapital_iff (character : Char) :
    isCapital character = true ↔ 65 ≤ character.toNat ∧ character.toNat ≤ 90 := by
  simp only [isCapital, Bool.and_eq_true, decide_eq_true_eq, Char.le_def, UInt32.le_iff_toNat_le]
  rfl

theorem isDigit_iff (character : Char) :
    isDigit character = true ↔ 48 ≤ character.toNat ∧ character.toNat ≤ 57 := by
  simp only [isDigit, Bool.and_eq_true, decide_eq_true_eq, Char.le_def, UInt32.le_iff_toNat_le]
  rfl

theorem isLetter_iff (character : Char) :
    isLetter character = true ↔
      (65 ≤ character.toNat ∧ character.toNat ≤ 90) ∨
        (97 ≤ character.toNat ∧ character.toNat ≤ 122) := by
  rw [isLetter, Bool.or_eq_true, isCapital_iff, isSmall_iff]

theorem isOperator_iff (character : Char) :
    isOperator character = true ↔ character ∈ ['-', '+', '=', '<', '>', '&'] := by
  rw [isOperator, decide_eq_true_eq]

theorem toNat_of_isOperator {character : Char} (operator : isOperator character = true) :
    character.toNat ∈ [38, 43, 45, 60, 61, 62] := by
  rw [isOperator_iff] at operator
  simp only [List.mem_cons, List.not_mem_nil, or_false] at operator
  rcases operator with rfl | rfl | rfl | rfl | rfl | rfl <;> decide

theorem isLetter_eq_false_of_isDigit {character : Char} (digit : isDigit character = true) :
    isLetter character = false := by
  rw [isDigit_iff] at digit
  rw [Bool.eq_false_iff, ne_eq, isLetter_iff]
  omega

theorem isLetter_eq_false_of_isOperator {character : Char}
    (operator : isOperator character = true) : isLetter character = false := by
  have code := toNat_of_isOperator operator
  simp only [List.mem_cons, List.not_mem_nil, or_false] at code
  rw [Bool.eq_false_iff, ne_eq, isLetter_iff]
  omega

theorem isOperator_eq_false_of_isLetter {character : Char} (letter : isLetter character = true) :
    isOperator character = false := by
  rw [Bool.eq_false_iff]
  intro operator
  rw [isLetter_eq_false_of_isOperator operator] at letter
  cases letter

theorem isDigit_eq_false_of_isOperator {character : Char}
    (operator : isOperator character = true) : isDigit character = false := by
  have code := toNat_of_isOperator operator
  simp only [List.mem_cons, List.not_mem_nil, or_false] at code
  rw [Bool.eq_false_iff, ne_eq, isDigit_iff]
  omega

theorem isBlank_eq_false_of_printing {character : Char} (lower : 33 ≤ character.toNat)
    (upper : character.toNat ≤ 126) : isBlank character = false := by
  simp only [isBlank, withinRanges, blankRanges, List.any_cons, List.any_nil, Bool.or_false,
    Bool.or_eq_false_iff, Bool.and_eq_false_iff, decide_eq_false_iff_not]
  omega

/-- A word starts with a letter and goes on with word characters. -/
def IsWord (text : Text) : Prop :=
  ∃ first tail, text = first :: tail ∧ isLetter first = true ∧
    ∀ character ∈ tail, isWordPart character = true

def IsOperatorRun (text : Text) : Prop :=
  text ≠ [] ∧ ∀ character ∈ text, isOperator character = true

def IsDigitRun (text : Text) : Prop :=
  text ≠ [] ∧ ∀ character ∈ text, isDigit character = true

theorem takeWhile_append_of_stops {accepts : Char → Bool} {run : Text} (following : Text)
    (accepted : ∀ character ∈ run, accepts character = true)
    (stops : ∀ character ∈ following.head?, accepts character = false) :
    (run ++ following).takeWhile accepts = run := by
  rw [List.takeWhile_append_of_pos accepted]
  cases following with
  | nil => rw [List.takeWhile_nil, List.append_nil]
  | cons next rest =>
      have refused : accepts next = false := stops next rfl
      rw [List.takeWhile_cons_of_neg (by rw [refused]; exact Bool.false_ne_true), List.append_nil]

theorem dropWhile_append_of_stops {accepts : Char → Bool} {run : Text} (following : Text)
    (accepted : ∀ character ∈ run, accepts character = true)
    (stops : ∀ character ∈ following.head?, accepts character = false) :
    (run ++ following).dropWhile accepts = following := by
  have together : (run ++ following).takeWhile accepts ++ (run ++ following).dropWhile accepts =
      run ++ following := List.takeWhile_append_dropWhile
  rw [takeWhile_append_of_stops following accepted stops] at together
  exact List.append_cancel_left together

theorem refused_head?_dropWhile (accepts : Char → Bool) (text : Text) :
    ∀ character ∈ (text.dropWhile accepts).head?, accepts character = false := by
  intro character first
  have refused := List.head?_dropWhile_not accepts text
  rw [Option.mem_def] at first
  rw [first] at refused
  simpa using refused

theorem mem_takeWhile {accepts : Char → Bool} {text : Text} :
    ∀ character ∈ text.takeWhile accepts, accepts character = true := by
  intro character member
  exact List.all_eq_true.mp List.all_takeWhile character member

end MessageForms.Text
