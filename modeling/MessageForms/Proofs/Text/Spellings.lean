import MessageForms.Proofs.Text.Boundaries

set_option autoImplicit false

/-! One name for many spellings. Words of small letters and digits have the same name in camel case,
with hyphens, underscores or blanks between them, and in any mixture of these; and a name is its own
name. -/

namespace MessageForms.Text

/-- A letter with at least one letter or digit behind it, all small. -/
def IsPlainWord (word : Text) : Prop :=
  ∃ first tail, word = first :: tail ∧ isSmall first = true ∧ tail ≠ [] ∧
    ∀ character ∈ tail, isSmall character = true ∨ isDigit character = true

def capitalized : Text → Text
  | [] => []
  | first :: tail => capitalLetter first :: tail

def camelCase : List Text → Text
  | [] => []
  | word :: others => word ++ (others.map capitalized).flatten

def pascalCase (words : List Text) : Text :=
  (words.map capitalized).flatten

def kebabCase (words : List Text) : Text :=
  ['-'].intercalate words

def snakeCase (words : List Text) : Text :=
  ['_'].intercalate words

/-- The text is made of the words, with a run of hyphens, underscores and blanks between any two. -/
inductive Joins : List Text → Text → Prop where
  | last (word : Text) : Joins [word] word
  | more {word gap text : Text} {others : List Text} (nonempty : gap ≠ [])
      (dividers : ∀ character ∈ gap, dividesWords character = true) (behind : Joins others text) :
      Joins (word :: others) (word ++ (gap ++ text))

/-- What may stand behind a word: each further word starts with a capital or behind a gap. -/
inductive Follows : List Text → Text → Prop where
  | nothing : Follows [] []
  | atCapital {word text : Text} {others : List Text} (plain : IsPlainWord word)
      (behind : Follows others text) : Follows (word :: others) (capitalized word ++ text)
  | atGap {gap word text : Text} {others : List Text} (nonempty : gap ≠ [])
      (dividers : ∀ character ∈ gap, dividesWords character = true) (plain : IsPlainWord word)
      (behind : Follows others text) : Follows (word :: others) (gap ++ (word ++ text))

/-! ### The name of a name -/

section Names

variable {first : Char} {rest spelling : Text}

theorem isCapital_of_mem_spacedWords (spelling : Text) :
    ∀ character ∈ spacedWords spelling, isCapital character = false := by
  induction spelling with
  | nil => nofun
  | cons first rest ih =>
      cases divides : dividesWords first with
      | true =>
          rw [spacedWords_of_divides divides]
          exact ih
      | false =>
          have small := isCapital_smallLetter first
          rw [spacedWords_of_kept divides]
          split
          · exact List.forall_mem_cons.mpr ⟨small, List.forall_mem_cons.mpr ⟨rfl, ih⟩⟩
          · exact List.forall_mem_cons.mpr ⟨small, ih⟩

theorem isAscii_spacedWords (ascii : IsAscii spelling) : IsAscii (spacedWords spelling) := by
  induction spelling with
  | nil => nofun
  | cons first rest ih =>
      rcases List.forall_mem_cons.mp ascii with ⟨firstAscii, restAscii⟩
      cases divides : dividesWords first with
      | true =>
          rw [spacedWords_of_divides divides]
          exact ih restAscii
      | false =>
          have small := smallLetter_ascii firstAscii
          rw [spacedWords_of_kept divides]
          split
          · exact List.forall_mem_cons.mpr ⟨small,
              List.forall_mem_cons.mpr ⟨by decide, ih restAscii⟩⟩
          · exact List.forall_mem_cons.mpr ⟨small, ih restAscii⟩

theorem head?_spacedWords (spelling : Text) :
    (spacedWords spelling).head?.any dividesWords = false := by
  induction spelling with
  | nil => rfl
  | cons first rest ih =>
      cases divides : dividesWords first with
      | true =>
          rw [spacedWords_of_divides divides]
          exact ih
      | false =>
          obtain ⟨back, same, -⟩ := exists_spacedWords_of_kept rest divides
          rw [same]
          exact (dividesWords_smallLetter first).trans divides

theorem startsWord_eq_false (others : ∀ second ∈ rest.head?, isCapital second = false) :
    startsWord first rest = false := by
  rw [Bool.eq_false_iff]
  intro starts
  obtain ⟨-, second, behind, rfl, capital⟩ := keeps_of_startsWord starts
  rw [others second rfl] at capital
  cases capital

theorem spacedWords_spacedWords (spelling : Text) :
    spacedWords (spacedWords spelling) = spacedWords spelling := by
  induction spelling with
  | nil => rfl
  | cons first rest ih =>
      cases divides : dividesWords first with
      | true =>
          rw [spacedWords_of_divides divides]
          exact ih
      | false =>
          have kept : dividesWords (smallLetter first) = false :=
            (dividesWords_smallLetter first).trans divides
          rw [spacedWords_of_kept divides]
          split
          · rename_i spaced
            have nonempty := isEmpty_eq_false_of_spaced spaced
            have unstarted : startsWord (smallLetter first) (' ' :: spacedWords rest) = false :=
              startsWord_eq_false (by intro second next; cases next; rfl)
            rw [spacedWords_of_kept kept, unstarted, spacedWords_of_divides (by decide), ih,
              nonempty, smallLetter_smallLetter]
            rfl
          · have unstarted : startsWord (smallLetter first) (spacedWords rest) = false :=
              startsWord_eq_false fun second member =>
                isCapital_of_mem_spacedWords rest second (List.mem_of_mem_head? member)
            rw [spacedWords_of_kept kept, unstarted, head?_spacedWords, ih,
              smallLetter_smallLetter]
            rfl

/-- The name of an ASCII text is its own name, also if it starts with an operator character. -/
theorem symbolName_symbolName (ascii : IsAscii spelling) :
    symbolName (symbolName spelling) = symbolName spelling := by
  cases spelling with
  | nil => rfl
  | cons first rest =>
      cases operator : isOperator first with
      | true =>
          have own : symbolName (first :: rest) = first :: rest := if_pos operator
          rw [own, own]
      | false =>
          have named : symbolName (first :: rest) = spacedWords (first :: rest) :=
            symbolName_eq_spacedWords (fun character member _ => ascii character member)
              (by intro letter leads; cases leads; exact operator)
          rw [named]
          cases name : spacedWords (first :: rest) with
          | nil => rfl
          | cons letter others =>
              cases again : isOperator letter with
              | true => exact if_pos again
              | false =>
                  have nameAscii := isAscii_spacedWords ascii
                  rw [← name, symbolName_eq_spacedWords
                    (fun character member _ => nameAscii character member)
                    (by rw [name]; intro character leads; cases leads; exact again),
                    spacedWords_spacedWords]

end Names

/-! ### Spellings of words -/

section Words

variable {first : Char} {word run gap rest text : Text} {words others : List Text}

def IsRun (run : Text) : Prop :=
  run ≠ [] ∧ ∀ character ∈ run, isSmall character = true ∨ isDigit character = true

theorem isCapital_eq_false_of_run {character : Char}
    (low : isSmall character = true ∨ isDigit character = true) :
    isCapital character = false := by
  rcases low with small | digit
  · exact isCapital_eq_false_of_isSmall small
  · exact isCapital_eq_false_of_isDigit digit

theorem dividesWords_eq_false_of_run {character : Char}
    (low : isSmall character = true ∨ isDigit character = true) :
    dividesWords character = false := by
  rcases low with small | digit
  · exact dividesWords_eq_false_of_isSmall small
  · exact dividesWords_eq_false_of_isDigit digit

theorem spacedWords_before_run {second : Char} (kept : dividesWords first = false)
    (low : isSmall second = true ∨ isDigit second = true) (behind : Text) :
    spacedWords (first :: second :: behind) =
      smallLetter first :: spacedWords (second :: behind) := by
  have unstarted : startsWord first (second :: behind) = false :=
    startsWord_eq_false (by intro character next; cases next; exact isCapital_eq_false_of_run low)
  have goesOn : (List.head? (second :: behind)).any dividesWords = false :=
    dividesWords_eq_false_of_run low
  rw [spacedWords_of_kept kept, unstarted, goesOn]
  rfl

theorem spacedWords_run (isRun : IsRun run) (rest : Text) :
    spacedWords (run ++ rest) = run ++
      if rest.head?.any isCapital ||
          rest.head?.any dividesWords && !(spacedWords rest).isEmpty then ' ' :: spacedWords rest
      else spacedWords rest := by
  rcases isRun with ⟨nonempty, low⟩
  induction run with
  | nil => exact (nonempty rfl).elim
  | cons first tail ih =>
      rcases List.forall_mem_cons.mp low with ⟨firstLow, tailLow⟩
      have own : smallLetter first = first :=
        smallLetter_of_other (isCapital_eq_false_of_run firstLow)
      have kept := dividesWords_eq_false_of_run firstLow
      cases tail with
      | nil =>
          have starts : startsWord first rest = rest.head?.any isCapital := by
            cases rest with
            | nil => rfl
            | cons second behind =>
                rw [startsWord, isCapital_eq_false_of_run firstLow,
                  Bool.or_eq_true_iff.mpr firstLow, Bool.true_and, Bool.false_and,
                  Bool.false_and, Bool.or_false]
                rfl
          rw [List.singleton_append, spacedWords_of_kept kept, own, starts]
          split <;> rfl
      | cons second others =>
          have secondLow := tailLow second List.mem_cons_self
          rw [List.cons_append, List.cons_append, spacedWords_before_run kept secondLow, own,
            ← List.cons_append, ih (List.cons_ne_nil _ _) tailLow]
          rfl

theorem IsPlainWord.isRun (plain : IsPlainWord word) : IsRun word := by
  rcases plain with ⟨first, tail, rfl, small, nonempty, low⟩
  exact ⟨List.cons_ne_nil _ _, List.forall_mem_cons.mpr ⟨.inl small, low⟩⟩

theorem spacedWords_capitalized (plain : IsPlainWord word) :
    ∃ first tail, word = first :: tail ∧ IsRun tail ∧
      isCapital (capitalLetter first) = true ∧ capitalized word = capitalLetter first :: tail ∧
      ∀ rest, spacedWords (capitalLetter first :: (tail ++ rest)) =
        first :: spacedWords (tail ++ rest) := by
  rcases plain with ⟨first, tail, rfl, small, nonempty, low⟩
  have capital := isCapital_capitalLetter small
  refine ⟨first, tail, rfl, ⟨nonempty, low⟩, capital, rfl, fun rest => ?_⟩
  obtain ⟨second, others, rfl⟩ := List.exists_cons_of_ne_nil nonempty
  rw [List.cons_append, spacedWords_before_run (dividesWords_eq_false_of_isCapital capital)
    (low second List.mem_cons_self), smallLetter_capitalLetter small]

/-- The words behind a word come one by one, each behind a space. -/
theorem Follows.spacedWords_eq (follows : Follows others text) (isRun : IsRun run) :
    spacedWords (run ++ text) = [' '].intercalate (run :: others) := by
  induction follows generalizing run with
  | nothing =>
      rw [spacedWords_run isRun, List.intercalate_singleton]
      exact List.append_nil run
  | @atCapital word text others plain behind ih =>
      obtain ⟨first, tail, rfl, tailRun, capital, same, spaced⟩ := spacedWords_capitalized plain
      have starts : (List.head? (capitalLetter first :: (tail ++ text))).any isCapital = true :=
        capital
      rw [same, List.cons_append, spacedWords_run isRun, starts, Bool.true_or, if_pos rfl, spaced,
        ih tailRun, List.intercalate_cons_cons, List.intercalate_cons_cons_left, List.append_assoc]
      rfl
  | @atGap gap word text others nonempty dividers plain behind ih =>
      obtain ⟨divider, more, rfl⟩ := List.exists_cons_of_ne_nil nonempty
      have separated :
          (List.head? (divider :: more ++ (word ++ text))).any dividesWords = true :=
        dividers divider List.mem_cons_self
      have notEmpty : ([' '].intercalate (word :: others)).isEmpty = false := by
        rcases plain with ⟨first, tail, rfl, -⟩
        rw [List.intercalate_cons_cons_left]
        rfl
      rw [spacedWords_run isRun, separated, spacedWords_behind_gap _ dividers, ih plain.isRun,
        notEmpty, Bool.not_false, Bool.and_self, Bool.or_true, if_pos rfl,
        List.intercalate_cons_cons, List.append_assoc]
      rfl

theorem ascii_of_run {character : Char} (low : isSmall character = true ∨ isDigit character = true) :
    character.toNat < 128 := by
  rcases low with small | digit
  · have code := (isSmall_iff character).mp small
    omega
  · have code := (isDigit_iff character).mp digit
    omega

theorem HasAsciiWords.append {left right : Text} (leftAscii : HasAsciiWords left)
    (rightAscii : HasAsciiWords right) : HasAsciiWords (left ++ right) := by
  intro character member
  rcases List.mem_append.mp member with inLeft | inRight
  · exact leftAscii character inLeft
  · exact rightAscii character inRight

theorem IsPlainWord.hasAsciiWords (plain : IsPlainWord word) : HasAsciiWords word :=
  fun character member _ => ascii_of_run (plain.isRun.2 character member)

theorem hasAsciiWords_capitalized (plain : IsPlainWord word) :
    HasAsciiWords (capitalized word) := by
  rcases plain with ⟨first, tail, rfl, small, nonempty, low⟩
  have code := (isCapital_iff _).mp (isCapital_capitalLetter small)
  exact List.forall_mem_cons.mpr
    ⟨fun _ => by omega, fun character member _ => ascii_of_run (low character member)⟩

theorem Follows.hasAsciiWords (follows : Follows others text) : HasAsciiWords text := by
  induction follows with
  | nothing => nofun
  | atCapital plain behind ih => exact (hasAsciiWords_capitalized plain).append ih
  | atGap nonempty dividers plain behind ih =>
      have gapAscii : HasAsciiWords _ := fun character member kept => by
        rw [dividers character member] at kept
        cases kept
      exact gapAscii.append (plain.hasAsciiWords.append ih)

theorem symbolName_of_follows (plain : IsPlainWord word) (follows : Follows others text) :
    symbolName (word ++ text) = [' '].intercalate (word :: others) := by
  rw [symbolName_eq_spacedWords (plain.hasAsciiWords.append follows.hasAsciiWords),
    follows.spacedWords_eq plain.isRun]
  rcases plain with ⟨first, tail, rfl, small, -⟩
  intro letter leads
  cases leads
  exact isOperator_eq_false_of_isLetter (by rw [isLetter, small, Bool.or_true])

theorem symbolName_of_capitalized_follows (plain : IsPlainWord word)
    (follows : Follows others text) :
    symbolName (capitalized word ++ text) = [' '].intercalate (word :: others) := by
  have ascii := (hasAsciiWords_capitalized plain).append follows.hasAsciiWords
  obtain ⟨first, tail, rfl, tailRun, capital, same, spaced⟩ := spacedWords_capitalized plain
  rw [same] at ascii ⊢
  rw [symbolName_eq_spacedWords ascii, List.cons_append, spaced, follows.spacedWords_eq tailRun,
    List.intercalate_cons_cons_left]
  intro letter leads
  cases leads
  exact isOperator_eq_false_of_isLetter (by rw [isLetter, capital, Bool.true_or])

theorem follows_capitalized (plain : ∀ word ∈ others, IsPlainWord word) :
    Follows others (others.map capitalized).flatten := by
  induction others with
  | nil => exact .nothing
  | cons word others ih =>
      rcases List.forall_mem_cons.mp plain with ⟨wordPlain, othersPlain⟩
      exact .atCapital wordPlain (ih othersPlain)

theorem Joins.exists_follows (joins : Joins words text)
    (plain : ∀ word ∈ words, IsPlainWord word) :
    ∃ word others rest, words = word :: others ∧ text = word ++ rest ∧ Follows others rest := by
  induction joins with
  | last word => exact ⟨word, [], [], rfl, (List.append_nil word).symm, .nothing⟩
  | more nonempty dividers behind ih =>
      rcases List.forall_mem_cons.mp plain with ⟨wordPlain, othersPlain⟩
      obtain ⟨next, others, rest, rfl, rfl, follows⟩ := ih othersPlain
      exact ⟨_, _, _, rfl, rfl,
        .atGap nonempty dividers (othersPlain next List.mem_cons_self) follows⟩

theorem joins_intercalate {divider : Char} (divides : dividesWords divider = true)
    (nonempty : words ≠ []) : Joins words ([divider].intercalate words) := by
  induction words with
  | nil => exact (nonempty rfl).elim
  | cons word others ih =>
      cases others with
      | nil =>
          rw [List.intercalate_singleton]
          exact .last word
      | cons next others =>
          rw [List.intercalate_cons_cons, List.append_assoc]
          exact .more (List.cons_ne_nil _ _) (List.forall_mem_singleton.mpr divides)
            (ih (List.cons_ne_nil _ _))

theorem splitOn_eq (separator : Char) (text : Text) :
    splitOn separator text = List.splitOn separator text := by
  induction text with
  | nil => rfl
  | cons first rest ih =>
      rw [splitOn, ih, List.splitOn_cons_eq_if_modifyHead]
      by_cases separates : first = separator
      · rw [if_pos separates, if_pos (beq_iff_eq.mpr separates)]
      · rw [if_neg separates, if_neg (fun same => separates (beq_iff_eq.mp same))]
        cases pieces : List.splitOn separator rest with
        | nil => exact (List.splitOn_ne_nil separator rest pieces).elim
        | cons piece others => rfl

theorem nameWords_intercalate (nonempty : words ≠ [])
    (plain : ∀ word ∈ words, IsPlainWord word) :
    nameWords ([' '].intercalate words) = words := by
  have visible : ∀ word ∈ words, ' ' ∉ word := by
    intro word member inside
    have low := (plain word member).isRun.2 ' ' inside
    revert low
    decide
  rw [nameWords, splitOn_eq]
  exact List.splitOn_intercalate ' ' visible nonempty

end Words

/-- Camel case, with or without a capital in front, hyphens, underscores, and any runs of dividers
between the words: all these spellings of words of small letters and digits have one name, the words
with single spaces between them, and the words of that name are the given ones. The name of the name
of an ASCII text is that name, also where it is the text itself. -/
theorem symbolName_identifies_spellings {words : List Text} (nonempty : words ≠ [])
    (plain : ∀ word ∈ words, IsPlainWord word) {text : Text} (ascii : IsAscii text) :
    (∀ spelling, spelling = camelCase words ∨ spelling = pascalCase words ∨
        spelling = kebabCase words ∨ spelling = snakeCase words ∨ Joins words spelling →
      symbolName spelling = [' '].intercalate words ∧
        nameWords (symbolName spelling) = words) ∧
      symbolName (symbolName text) = symbolName text := by
  refine ⟨fun spelling spells => ?_, symbolName_symbolName ascii⟩
  have joined : ∀ {spelling : Text}, Joins words spelling →
      symbolName spelling = [' '].intercalate words := by
    intro spelling joins
    obtain ⟨word, others, rest, rfl, rfl, follows⟩ := joins.exists_follows plain
    exact symbolName_of_follows (plain word List.mem_cons_self) follows
  have named : symbolName spelling = [' '].intercalate words := by
    obtain ⟨word, others, rfl⟩ := List.exists_cons_of_ne_nil nonempty
    rcases List.forall_mem_cons.mp plain with ⟨wordPlain, othersPlain⟩
    rcases spells with rfl | rfl | rfl | rfl | joins
    · exact symbolName_of_follows wordPlain (follows_capitalized othersPlain)
    · exact symbolName_of_capitalized_follows wordPlain (follows_capitalized othersPlain)
    · exact joined (joins_intercalate (by decide) nonempty)
    · exact joined (joins_intercalate (by decide) nonempty)
    · exact joined joins
  exact ⟨named, by rw [named, nameWords_intercalate nonempty plain]⟩

/-- Two words, the first of which ends with a digit, and a text that starts with an underscore and
goes on with an operator character. -/
theorem symbolName_identifies_spellings_digits :
    symbolName ['A', '1', 'X', 'y'] = ['a', '1', ' ', 'x', 'y'] ∧
      symbolName (symbolName ['_', '+', 'B']) = symbolName ['_', '+', 'B'] := by
  have plain : ∀ word ∈ [['a', '1'], ['x', 'y']], IsPlainWord word := by
    refine List.forall_mem_cons.mpr ⟨⟨'a', ['1'], rfl, rfl, List.cons_ne_nil _ _, ?_⟩,
      List.forall_mem_singleton.mpr ⟨'x', ['y'], rfl, rfl, List.cons_ne_nil _ _, ?_⟩⟩
    · exact List.forall_mem_singleton.mpr (.inr rfl)
    · exact List.forall_mem_singleton.mpr (.inl rfl)
  have ascii : IsAscii ['_', '+', 'B'] := by decide
  obtain ⟨spellings, stable⟩ := symbolName_identifies_spellings (by decide) plain ascii
  exact ⟨(spellings ['A', '1', 'X', 'y'] (.inr (.inl (by decide)))).1, stable⟩

end MessageForms.Text
