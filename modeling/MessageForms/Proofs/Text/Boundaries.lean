import MessageForms.Proofs.Text.Spaced

set_option autoImplicit false

/-! Where a name has its spaces, and what it keeps of its spelling. The result is about ASCII
spellings that start with no operator character; with one, a spelling is its own name. -/

namespace MessageForms.Text

/-- No space at the ends, and none next to another. -/
structure SinglySpaced (text : Text) : Prop where
  first : text.head? ≠ some ' '
  last : text.getLast? ≠ some ' '
  inside : ∀ front back, text ≠ front ++ ' ' :: ' ' :: back

section Spaces

variable {first second : Char} {rest gap behind : Text}

theorem singlySpaced_nil : SinglySpaced [] where
  first := nofun
  last := nofun
  inside front _ := (List.append_ne_nil_of_right_ne_nil front (List.cons_ne_nil _ _)).symm

theorem SinglySpaced.cons (spaced : SinglySpaced rest) (visible : first ≠ ' ') :
    SinglySpaced (first :: rest) where
  first same := visible (Option.some.inj same)
  last := by
    cases rest with
    | nil => exact fun same => visible (Option.some.inj same)
    | cons second behind =>
        rw [List.getLast?_cons_cons]
        exact spaced.last
  inside front back same := by
    cases front with
    | nil => exact visible (List.cons.inj same).1
    | cons other front => exact spaced.inside front back (List.cons.inj same).2

theorem SinglySpaced.cons_space (spaced : SinglySpaced rest) (visible : first ≠ ' ')
    (nonempty : rest ≠ []) : SinglySpaced (first :: ' ' :: rest) where
  first same := visible (Option.some.inj same)
  last := by
    obtain ⟨second, behind, rfl⟩ := List.exists_cons_of_ne_nil nonempty
    rw [List.getLast?_cons_cons, List.getLast?_cons_cons]
    exact spaced.last
  inside front back same := by
    match front, same with
    | [], same => exact visible (List.cons.inj same).1
    | [other], same =>
        have tail := (List.cons.inj (List.cons.inj same).2).2
        exact spaced.first (by rw [tail]; rfl)
    | other :: another :: front, same =>
        exact spaced.inside front back (List.cons.inj (List.cons.inj same).2).2

theorem dividesWords_smallLetter (character : Char) :
    dividesWords (smallLetter character) = dividesWords character := by
  cases capital : isCapital character with
  | true =>
      rw [dividesWords_eq_false_of_isCapital capital,
        dividesWords_eq_false_of_isSmall (isSmall_smallLetter capital)]
  | false => rw [smallLetter_of_other capital]

theorem smallLetter_ne_space (kept : dividesWords first = false) : smallLetter first ≠ ' ' := by
  intro same
  rw [← dividesWords_smallLetter, same] at kept
  revert kept
  decide

theorem singlySpaced_spacedWords (spelling : Text) : SinglySpaced (spacedWords spelling) := by
  induction spelling with
  | nil => exact singlySpaced_nil
  | cons first rest ih =>
      cases divides : dividesWords first with
      | true =>
          rw [spacedWords_of_divides divides]
          exact ih
      | false =>
          rw [spacedWords_of_kept divides]
          split
          · rename_i spaced
            refine ih.cons_space (smallLetter_ne_space divides) ?_
            rw [ne_eq, ← List.isEmpty_iff, isEmpty_eq_false_of_spaced spaced]
            exact Bool.false_ne_true
          · exact ih.cons (smallLetter_ne_space divides)

theorem filter_spacedWords (spelling : Text) :
    (spacedWords spelling).filter (fun character => character ≠ ' ') =
      (spelling.filter fun character => !dividesWords character).map smallLetter := by
  induction spelling with
  | nil => rfl
  | cons first rest ih =>
      cases divides : dividesWords first with
      | true =>
          rw [spacedWords_of_divides divides, List.filter_cons_of_neg (by rw [divides]; decide)]
          exact ih
      | false =>
          have visible := smallLetter_ne_space divides
          rw [List.filter_cons_of_pos (by rw [divides]; rfl), List.map_cons, ← ih,
            spacedWords_of_kept divides]
          split
          · simp only [List.filter_cons, ne_eq, visible, not_false_eq_true, not_true_eq_false,
              decide_true, decide_false, if_true, Bool.false_eq_true, if_false]
          · simp only [List.filter_cons, ne_eq, visible, not_false_eq_true, decide_true, if_true]

theorem spacedWords_behind_gap (gap : Text)
    (dividers : ∀ character ∈ gap, dividesWords character = true) (rest : Text) :
    spacedWords (gap ++ rest) = spacedWords rest := by
  induction gap with
  | nil => rfl
  | cons first others ih =>
      rcases List.forall_mem_cons.mp dividers with ⟨divides, othersDivide⟩
      rw [List.cons_append, spacedWords_of_divides divides, ih othersDivide]

/-- Between two letters that follow one another a name has a space exactly if dividers stand between
them or a word starts at the second. -/
theorem spacedWords_across (behind : Text) (keptFirst : dividesWords first = false)
    (keptSecond : dividesWords second = false)
    (dividers : ∀ character ∈ gap, dividesWords character = true) :
    spacedWords (first :: (gap ++ second :: behind)) =
      smallLetter first :: ((if gap ≠ [] ∨ startsWord first (second :: behind) = true then [' ']
        else []) ++ spacedWords (second :: behind)) := by
  rw [spacedWords_of_kept keptFirst, spacedWords_behind_gap gap dividers,
    isEmpty_spacedWords_of_kept keptSecond]
  cases gap with
  | nil =>
      have goesOn : (List.head? (second :: behind)).any dividesWords = false := keptSecond
      rw [List.nil_append, goesOn, Bool.false_and, Bool.or_false]
      cases startsWord first (second :: behind) <;> rfl
  | cons divider others =>
      have ends : (List.head? (divider :: others ++ second :: behind)).any dividesWords = true :=
        dividers divider List.mem_cons_self
      rw [ends, Bool.not_false, Bool.and_self, Bool.or_true, if_pos rfl,
        if_pos (.inl (List.cons_ne_nil _ _))]
      rfl

theorem exists_spacedWords_append (before rest : Text) :
    ∃ front, spacedWords (before ++ rest) = front ++ spacedWords rest ∧
      front.filter (fun character => character ≠ ' ') =
        (before.filter fun character => !dividesWords character).map smallLetter := by
  have leads : ∃ front, spacedWords (before ++ rest) = front ++ spacedWords rest := by
    induction before with
    | nil => exact ⟨[], rfl⟩
    | cons other before ih =>
        obtain ⟨front, same⟩ := ih
        rw [List.cons_append]
        cases divides : dividesWords other with
        | true => exact ⟨front, by rw [spacedWords_of_divides divides, same]⟩
        | false =>
            rw [spacedWords_of_kept divides, same]
            split
            · exact ⟨smallLetter other :: ' ' :: front, rfl⟩
            · exact ⟨smallLetter other :: front, rfl⟩
  obtain ⟨front, same⟩ := leads
  have kept := filter_spacedWords (before ++ rest)
  rw [same, List.filter_append, List.filter_append, List.map_append, filter_spacedWords rest]
    at kept
  exact ⟨front, same, List.append_cancel_right kept⟩

theorem exists_spacedWords_of_kept (rest : Text) (kept : dividesWords first = false) :
    ∃ back, spacedWords (first :: rest) = smallLetter first :: back ∧
      back.filter (fun character => character ≠ ' ') =
        (rest.filter fun character => !dividesWords character).map smallLetter := by
  have starts : ∃ back, spacedWords (first :: rest) = smallLetter first :: back := by
    rw [spacedWords_of_kept kept]
    split
    · exact ⟨_, rfl⟩
    · exact ⟨_, rfl⟩
  obtain ⟨back, same⟩ := starts
  have visible := smallLetter_ne_space kept
  have letters := filter_spacedWords (first :: rest)
  simp only [same, List.filter_cons, ne_eq, visible, kept, not_false_eq_true, decide_true,
    Bool.not_false, if_true, List.map_cons] at letters
  exact ⟨back, same, (List.cons.inj letters).2⟩

theorem startsWord_iff :
    startsWord first (second :: behind) = true ↔
      (isSmall first = true ∨ isDigit first = true) ∧ isCapital second = true ∨
        isCapital first = true ∧ isCapital second = true ∧
          ∃ third ∈ behind.head?, isSmall third = true := by
  rw [startsWord, Bool.or_eq_true, Bool.and_eq_true, Bool.or_eq_true, Bool.and_eq_true,
    Bool.and_eq_true, Option.any_eq_true, and_assoc]
  rfl

theorem filter_lowercase {text : Text} (ascii : IsAscii text) :
    (lowercase text).filter (fun character => !dividesWords character) =
      (text.filter fun character => !dividesWords character).map smallLetter := by
  rw [lowercase_of_isAscii ascii, List.filter_map]
  simp only [Function.comp_def, dividesWords_smallLetter]

end Spaces

/-- The name of an ASCII spelling that starts with no operator character. Without its spaces it is
the spelling in small letters without its dividers. Its words are one space apart. Between two
characters that follow one another it has a space if and only if a divider stands between them in the
spelling, or the first is a small letter or a digit and the second a capital, or both are capitals and
a small letter comes next. -/
theorem symbolName_has_boundaries {spelling : Text} (ascii : IsAscii spelling)
    (visible : ∀ first ∈ spelling.head?, isOperator first = false) :
    (symbolName spelling).filter (fun character => character ≠ ' ') =
        (lowercase spelling).filter (fun character => !dividesWords character) ∧
      SinglySpaced (symbolName spelling) ∧
      ∀ before first gap second behind,
        spelling = before ++ first :: (gap ++ second :: behind) →
        dividesWords first = false → dividesWords second = false →
        (∀ character ∈ gap, dividesWords character = true) →
        ∃ front between back,
          symbolName spelling =
              front ++ smallLetter first :: (between ++ smallLetter second :: back) ∧
            front.filter (fun character => character ≠ ' ') =
              (lowercase before).filter (fun character => !dividesWords character) ∧
            back.filter (fun character => character ≠ ' ') =
              (lowercase behind).filter (fun character => !dividesWords character) ∧
            (between = [] ∨ between = [' ']) ∧
            (between = [' '] ↔
              gap ≠ [] ∨
                (isSmall first = true ∨ isDigit first = true) ∧ isCapital second = true ∨
                isCapital first = true ∧ isCapital second = true ∧
                  ∃ third ∈ behind.head?, isSmall third = true) := by
  rw [symbolName_eq_spacedWords (fun character member _ => ascii character member) visible]
  refine ⟨?_, singlySpaced_spacedWords spelling, ?_⟩
  · rw [filter_spacedWords, filter_lowercase ascii]
  · intro before first gap second behind parted keptFirst keptSecond dividers
    subst parted
    have beforeAscii : IsAscii before := fun character member =>
      ascii character (List.mem_append_left _ member)
    have behindAscii : IsAscii behind := fun character member =>
      ascii character (List.mem_append_right _ (List.mem_cons_of_mem _
        (List.mem_append_right _ (List.mem_cons_of_mem _ member))))
    obtain ⟨front, led, frontKept⟩ :=
      exists_spacedWords_append before (first :: (gap ++ second :: behind))
    obtain ⟨back, followed, backKept⟩ := exists_spacedWords_of_kept behind keptSecond
    have across := spacedWords_across behind keptFirst keptSecond dividers
    rw [led, across, followed, ← startsWord_iff]
    refine ⟨front, _, back, rfl, ?_, ?_, ?_⟩
    · rw [frontKept, filter_lowercase beforeAscii]
    · rw [backKept, filter_lowercase behindAscii]
    · by_cases spaced : gap ≠ [] ∨ startsWord first (second :: behind) = true
      · rw [if_pos spaced]
        exact ⟨.inr rfl, iff_of_true rfl spaced⟩
      · rw [if_neg spaced]
        exact ⟨.inl rfl, iff_of_false nofun spaced⟩

/-- Two capitals that belong to different words. -/
theorem symbolName_has_boundaries_capitals :
    SinglySpaced (symbolName ['o', 'B', 'A', 'r']) ∧
      ∃ front back, symbolName ['o', 'B', 'A', 'r'] = front ++ 'b' :: ' ' :: 'a' :: back := by
  have ascii : IsAscii ['o', 'B', 'A', 'r'] := by decide
  have visible : ∀ first ∈ ['o', 'B', 'A', 'r'].head?, isOperator first = false := by
    rintro _ ⟨⟩
    rfl
  obtain ⟨-, spaced, boundaries⟩ := symbolName_has_boundaries ascii visible
  obtain ⟨front, between, back, same, -, -, -, cut⟩ :=
    boundaries ['o'] 'B' [] 'A' ['r'] rfl rfl rfl nofun
  rw [cut.mpr (.inr (.inr ⟨rfl, rfl, 'r', rfl, rfl⟩))] at same
  exact ⟨spaced, front, back, same⟩

end MessageForms.Text
