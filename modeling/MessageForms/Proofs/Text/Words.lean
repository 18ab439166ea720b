import MessageForms.Proofs.Text.LetterCase
import MessageForms.Text.Words

set_option autoImplicit false

/-! The names of symbols. A run of operator characters is its own name, and the name of a word
starts with a small letter, so no word is taken for an operator. -/

namespace MessageForms.Text

theorem symbolName_of_isOperatorRun {spelling : Text} (run : IsOperatorRun spelling) :
    symbolName spelling = spelling := by
  rcases run with ⟨nonempty, operators⟩
  cases spelling with
  | nil => exact (nonempty rfl).elim
  | cons first others => exact if_pos (operators first List.mem_cons_self)

theorem exists_divideAtCapital (first : Char) (others : Text) :
    ∃ divided, divideAtCapital (first :: others) = first :: divided := by
  cases others with
  | nil => exact ⟨[], rfl⟩
  | cons second others =>
      rw [divideAtCapital]
      split
      · exact ⟨_, rfl⟩
      · exact ⟨_, rfl⟩

theorem exists_divideCapitalRun (first : Char) (others : Text) :
    ∃ divided, divideCapitalRun (first :: others) = first :: divided := by
  match others with
  | [] => exact ⟨[], rfl⟩
  | [second] => exact ⟨[second], rfl⟩
  | second :: third :: others =>
      rw [divideCapitalRun]
      split
      · exact ⟨_, rfl⟩
      · exact ⟨_, rfl⟩

theorem exists_fields {separates : Char → Bool} {first : Char} (others : Text)
    (kept : separates first = false) :
    ∃ field fields', fields separates (first :: others) = (first :: field) :: fields' := by
  rw [fields.eq_def]
  dsimp only
  rw [if_neg (Bool.eq_false_iff.mp kept)]
  cases others with
  | nil => exact ⟨[], [], rfl⟩
  | cons next others =>
      dsimp only
      split
      · exact ⟨[], _, rfl⟩
      · split
        · exact ⟨[], [], rfl⟩
        · exact ⟨_, _, rfl⟩

theorem exists_lowercase {first : Char} (others : Text) (letter : isLetter first = true) :
    ∃ small others', lowercase (first :: others) = small :: others' ∧ isSmall small = true := by
  obtain ⟨small, form, isSmall⟩ := exists_smallForm_of_isLetter letter
  have code := (isLetter_iff first).mp letter
  have latin : first ≠ '\u03a3' := by
    intro same
    subst same
    revert code
    decide
  refine ⟨small, lowercaseAfter [first] others, ?_, isSmall⟩
  rw [lowercase, lowercaseAfter]
  simp only [latin, decide_false, Bool.false_and, form]
  rfl

theorem dividesWords_eq_false_of_printing {character : Char} (lower : 33 ≤ character.toNat)
    (upper : character.toNat ≤ 126) (noHyphen : character ≠ '-') (noUnderscore : character ≠ '_') :
    dividesWords character = false := by
  have visible : isBlank character = false := isBlank_eq_false_of_printing lower upper
  simp only [dividesWords, noHyphen, noUnderscore, visible, decide_false, Bool.or_self]

theorem dividesWords_eq_false_of_isLetter {character : Char} (letter : isLetter character = true) :
    dividesWords character = false := by
  have code := (isLetter_iff character).mp letter
  refine dividesWords_eq_false_of_printing (by omega) (by omega) ?_ ?_
  · rintro rfl
    cases letter
  · rintro rfl
    cases letter

theorem exists_symbolName_of_isWord {spelling : Text} (word : IsWord spelling) :
    ∃ small others, symbolName spelling = small :: others ∧ isSmall small = true := by
  rcases word with ⟨first, tail, rfl, letter, -⟩
  obtain ⟨atCapital, divided⟩ := exists_divideAtCapital first tail
  obtain ⟨capitalRun, dividedAgain⟩ := exists_divideCapitalRun first atCapital
  obtain ⟨field, others, listed⟩ :=
    exists_fields capitalRun (dividesWords_eq_false_of_isLetter letter)
  obtain ⟨small, rest, lowered, isSmall⟩ := exists_lowercase field letter
  have plain : ¬ isOperator first = true :=
    Bool.eq_false_iff.mp (isOperator_eq_false_of_isLetter letter)
  have words : spelledWords (first :: tail) = (small :: rest) :: others.map lowercase := by
    rw [spelledWords, divided, dividedAgain, listed, List.map_cons, lowered]
  rw [symbolName, if_neg plain, words]
  cases others with
  | nil => exact ⟨small, _, rfl, isSmall⟩
  | cons next others => exact ⟨small, _, rfl, isSmall⟩

/-- Only a run of operator characters has a name made of such characters. -/
theorem eq_of_symbolName_isOperatorRun {spelling : Text}
    (written : IsWord spelling ∨ IsOperatorRun spelling)
    (named : IsOperatorRun (symbolName spelling)) :
    symbolName spelling = spelling ∧ IsOperatorRun spelling := by
  rcases written with word | run
  · obtain ⟨small, others, name, isSmall⟩ := exists_symbolName_of_isWord word
    have operator := named.2 small (by rw [name]; exact List.mem_cons_self)
    have letter : isLetter small = true := by
      rw [isLetter, isSmall, Bool.or_true]
    rw [isLetter_eq_false_of_isOperator operator] at letter
    cases letter
  · exact ⟨symbolName_of_isOperatorRun run, run⟩

end MessageForms.Text
