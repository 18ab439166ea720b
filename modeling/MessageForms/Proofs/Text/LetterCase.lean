import MessageForms.Proofs.Text.Class
import MessageForms.Text.Words

set_option autoImplicit false

/-! The letter case of ASCII characters. The first run of the table is that of the ASCII capitals,
and no other run reaches down to ASCII. So an ASCII text is put into small letters one character at a
time. -/

namespace MessageForms.Text

variable {character : Char}

theorem shifted?_of_isCapital (capital : isCapital character = true) :
    shifted? smallFormRuns character.toNat = some (character.toNat + 32) := by
  have code := (isCapital_iff character).mp capital
  have runs : smallFormRuns = (0x41, 0x5a, 1, 32) :: smallFormRuns.tail := rfl
  have covers : (decide (0x41 ≤ character.toNat) && decide (character.toNat ≤ 0x5a) &&
      (character.toNat - 0x41) % 1 == 0) = true := by
    rw [Nat.mod_one, Bool.and_eq_true, Bool.and_eq_true, decide_eq_true_eq, decide_eq_true_eq]
    exact ⟨⟨by omega, by omega⟩, rfl⟩
  rw [shifted?, runs, List.find?_cons]
  simp only [covers, Option.map_some]
  rfl

theorem shifted?_of_ascii (ascii : character.toNat < 128) (other : isCapital character = false) :
    shifted? smallFormRuns character.toNat = none := by
  have beyond : ∀ run ∈ smallFormRuns.tail, 128 ≤ run.1 := by decide +kernel
  have runs : smallFormRuns = (0x41, 0x5a, 1, 32) :: smallFormRuns.tail := rfl
  rw [shifted?, Option.map_eq_none_iff, List.find?_eq_none, runs]
  intro run member covers
  simp only [Bool.and_eq_true, decide_eq_true_eq] at covers
  rcases List.mem_cons.mp member with rfl | later
  · rw [Bool.eq_false_iff, ne_eq, isCapital_iff] at other
    dsimp only at covers
    omega
  · have high := beyond run later
    omega

/-- The small form of an ASCII character is one character: the small letter of a capital, and any
other character itself. -/
theorem smallForm_of_ascii (ascii : character.toNat < 128) :
    smallForm character =
      [if isCapital character then Char.ofNat (character.toNat + 32) else character] := by
  have plain : character ≠ '\u0130' := by
    intro same
    subst same
    revert ascii
    decide
  rw [smallForm, if_neg plain]
  cases capital : isCapital character with
  | true =>
      rw [shifted?_of_isCapital capital]
      rfl
  | false =>
      rw [shifted?_of_ascii ascii capital]
      rfl

private theorem toNat_ofNat_of_ascii {code : Nat} (ascii : code < 128) :
    (Char.ofNat code).toNat = code := by
  have valid : code.isValidChar := .inl (by omega)
  rw [Char.ofNat, dif_pos valid]
  rfl

theorem isSmall_ofNat_of_isCapital (capital : isCapital character = true) :
    isSmall (Char.ofNat (character.toNat + 32)) = true := by
  have code := (isCapital_iff character).mp capital
  rw [isSmall_iff, toNat_ofNat_of_ascii (by omega)]
  omega

/-! ### Small letters one by one -/

def smallLetter (character : Char) : Char :=
  if isCapital character then Char.ofNat (character.toNat + 32) else character

theorem smallLetter_of_other (other : isCapital character = false) :
    smallLetter character = character := by
  rw [smallLetter, other, if_neg Bool.false_ne_true]

theorem isSmall_smallLetter (capital : isCapital character = true) :
    isSmall (smallLetter character) = true := by
  rw [smallLetter, if_pos capital]
  exact isSmall_ofNat_of_isCapital capital

theorem isCapital_eq_false_of_isSmall (small : isSmall character = true) :
    isCapital character = false := by
  rw [isSmall_iff] at small
  rw [Bool.eq_false_iff, ne_eq, isCapital_iff]
  omega

theorem isCapital_smallLetter (character : Char) : isCapital (smallLetter character) = false := by
  cases capital : isCapital character with
  | true => exact isCapital_eq_false_of_isSmall (isSmall_smallLetter capital)
  | false => rw [smallLetter_of_other capital, capital]

theorem smallLetter_smallLetter (character : Char) :
    smallLetter (smallLetter character) = smallLetter character :=
  smallLetter_of_other (isCapital_smallLetter character)

theorem smallLetter_ascii (ascii : character.toNat < 128) :
    (smallLetter character).toNat < 128 := by
  cases capital : isCapital character with
  | true =>
      have code := (isSmall_iff _).mp (isSmall_smallLetter capital)
      omega
  | false =>
      rw [smallLetter_of_other capital]
      exact ascii

def capitalLetter (character : Char) : Char :=
  if isSmall character then Char.ofNat (character.toNat - 32) else character

theorem isCapital_capitalLetter (small : isSmall character = true) :
    isCapital (capitalLetter character) = true := by
  have code := (isSmall_iff character).mp small
  rw [capitalLetter, if_pos small, isCapital_iff, toNat_ofNat_of_ascii (by omega)]
  omega

theorem smallLetter_capitalLetter (small : isSmall character = true) :
    smallLetter (capitalLetter character) = character := by
  have code := (isSmall_iff character).mp small
  have capital := isCapital_capitalLetter small
  rw [smallLetter, if_pos capital, capitalLetter, if_pos small, toNat_ofNat_of_ascii (by omega),
    Nat.sub_add_cancel (by omega), Char.ofNat_toNat]

def IsAscii (text : Text) : Prop :=
  ∀ character ∈ text, character.toNat < 128

instance (text : Text) : Decidable (IsAscii text) :=
  List.decidableBAll _ text

theorem lowercaseAfter_of_isAscii (before : Text) {text : Text} (ascii : IsAscii text) :
    lowercaseAfter before text = text.map smallLetter := by
  induction text generalizing before with
  | nil => rfl
  | cons first others ih =>
      rcases List.forall_mem_cons.mp ascii with ⟨firstAscii, othersAscii⟩
      have latin : first ≠ '\u03a3' := by
        intro same
        subst same
        revert firstAscii
        decide
      rw [lowercaseAfter, ih (first :: before) othersAscii]
      simp only [latin, decide_false, Bool.false_and, Bool.false_eq_true, if_false,
        smallForm_of_ascii firstAscii]
      rfl

theorem lowercase_of_isAscii {text : Text} (ascii : IsAscii text) :
    lowercase text = text.map smallLetter :=
  lowercaseAfter_of_isAscii [] ascii

theorem exists_smallForm_of_isLetter (letter : isLetter character = true) :
    ∃ small, smallForm character = [small] ∧ isSmall small = true := by
  have code := (isLetter_iff character).mp letter
  refine ⟨_, smallForm_of_ascii (by omega), ?_⟩
  cases capital : isCapital character with
  | true =>
      rw [if_pos rfl]
      exact isSmall_ofNat_of_isCapital capital
  | false =>
      rw [if_neg Bool.false_ne_true]
      rw [isLetter, capital, Bool.false_or] at letter
      exact letter

end MessageForms.Text
