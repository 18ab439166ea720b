import MessageForms.Proofs.Text.Words

set_option autoImplicit false

/-! Names in one pass. A spelling is divided at capitals in two passes, then cut at its dividers, and
the words are put into small letters and joined by spaces. If its words are ASCII, one pass comes to
the same, in which three neighbouring characters decide whether a word ends. -/

namespace MessageForms.Text

/-- Whether a new word starts behind a character, without a divider: at a capital behind a small
letter or a digit, and at the last capital of a run if a small letter follows it. -/
def startsWord (first : Char) : Text → Bool
  | [] => false
  | second :: behind =>
      (isSmall first || isDigit first) && isCapital second ||
        isCapital first && isCapital second && behind.head?.any isSmall

/-- The words of a spelling in small letters, one space apart. -/
def spacedWords : Text → Text
  | [] => []
  | first :: rest =>
      if dividesWords first then spacedWords rest
      else if startsWord first rest ||
          rest.head?.any dividesWords && !(spacedWords rest).isEmpty then
        smallLetter first :: ' ' :: spacedWords rest
      else smallLetter first :: spacedWords rest

/-! ### Two passes in one -/

section Passes

variable {first second : Char}

theorem isCapital_eq_false_of_isDigit {character : Char} (digit : isDigit character = true) :
    isCapital character = false := by
  rw [isDigit_iff] at digit
  rw [Bool.eq_false_iff, ne_eq, isCapital_iff]
  omega

theorem not_smallOrDigit_of_isCapital (capital : isCapital first = true) :
    (isSmall first || isDigit first) = false := by
  rw [Bool.eq_false_iff]
  intro smallOrDigit
  rcases Bool.or_eq_true_iff.mp smallOrDigit with small | digit
  · rw [isCapital_eq_false_of_isSmall small] at capital
    cases capital
  · rw [isCapital_eq_false_of_isDigit digit] at capital
    cases capital

theorem divideAtCapital_of_isCapital (capital : isCapital first = true) (rest : Text) :
    divideAtCapital (first :: rest) = first :: divideAtCapital rest := by
  cases rest with
  | nil => rfl
  | cons second behind =>
      rw [divideAtCapital, not_smallOrDigit_of_isCapital capital, Bool.false_and,
        if_neg Bool.false_ne_true]

theorem divideAtCapital_cons (first second : Char) (behind : Text) :
    divideAtCapital (first :: second :: behind) =
      if (isSmall first || isDigit first) && isCapital second then
        first :: ' ' :: divideAtCapital (second :: behind)
      else first :: divideAtCapital (second :: behind) := by
  rw [divideAtCapital]
  split
  · rename_i boundary
    rw [divideAtCapital_of_isCapital (Bool.and_eq_true_iff.mp boundary).2]
  · rfl

theorem divideCapitalRun_of_other (other : isCapital first = false) (rest : Text) :
    divideCapitalRun (first :: rest) = first :: divideCapitalRun rest := by
  match rest with
  | [] => rfl
  | [second] => rfl
  | second :: third :: behind =>
      rw [divideCapitalRun, other, Bool.false_and, Bool.false_and, if_neg Bool.false_ne_true]

theorem divideCapitalRun_before_other (first : Char) (other : isCapital second = false)
    (behind : Text) :
    divideCapitalRun (first :: second :: behind) =
      first :: divideCapitalRun (second :: behind) := by
  cases behind with
  | nil => rfl
  | cons third more =>
      rw [divideCapitalRun, other, Bool.and_false, Bool.false_and, if_neg Bool.false_ne_true]

/-- Only the small letter behind two capitals decides, and it stays where it is. -/
theorem divideCapitalRun_of_capitals (capital : isCapital first = true)
    (again : isCapital second = true) (third : Char) (behind : Text) :
    divideCapitalRun (first :: second :: third :: behind) =
      if isSmall third then first :: ' ' :: divideCapitalRun (second :: third :: behind)
      else first :: divideCapitalRun (second :: third :: behind) := by
  rw [divideCapitalRun, capital, again, Bool.and_self, Bool.true_and]
  split
  · rename_i small
    have other := isCapital_eq_false_of_isSmall small
    rw [divideCapitalRun_before_other second other, divideCapitalRun_of_other other]
  · rfl

def divided (spelling : Text) : Text :=
  divideCapitalRun (divideAtCapital spelling)

/-- The second pass sees what the first has put in only where it does not look. -/
theorem divided_cons (first : Char) (rest : Text) :
    divided (first :: rest) =
      if startsWord first rest then first :: ' ' :: divided rest else first :: divided rest := by
  cases rest with
  | nil => rfl
  | cons second behind =>
      unfold divided
      rw [divideAtCapital_cons, startsWord]
      by_cases low : ((isSmall first || isDigit first) && isCapital second) = true
      · have other : isCapital first = false := by
          rw [Bool.eq_false_iff]
          intro capital
          rw [not_smallOrDigit_of_isCapital capital] at low
          cases low
        rw [if_pos low, low, Bool.true_or, if_pos rfl, divideCapitalRun_of_other other,
          divideCapitalRun_of_other (by decide)]
      · rw [if_neg low, Bool.eq_false_iff.mpr low, Bool.false_or]
        obtain ⟨later, same⟩ := exists_divideAtCapital second behind
        cases capital : isCapital first with
        | false =>
            rw [divideCapitalRun_of_other capital, Bool.false_and, Bool.false_and,
              if_neg Bool.false_ne_true]
        | true =>
            cases again : isCapital second with
            | false =>
                rw [same, divideCapitalRun_before_other first again, Bool.and_false,
                  Bool.false_and, if_neg Bool.false_ne_true]
            | true =>
                rw [divideAtCapital_of_isCapital again]
                cases behind with
                | nil => rfl
                | cons third more =>
                    obtain ⟨last, same⟩ := exists_divideAtCapital third more
                    rw [same, divideCapitalRun_of_capitals capital again]
                    rfl

end Passes

/-! ### Fields -/

section Fields

variable {separates : Char → Bool} {first next : Char} {rest : Text}

theorem fields_of_separates (separated : separates first = true) :
    fields separates (first :: rest) = fields separates rest := by
  rw [fields.eq_def]
  dsimp only
  rw [if_pos separated]

theorem fields_singleton (kept : separates first = false) :
    fields separates [first] = [[first]] := by
  rw [fields.eq_def]
  dsimp only
  rw [if_neg (Bool.eq_false_iff.mp kept)]

theorem fields_before_separator (kept : separates first = false)
    (separated : separates next = true) :
    fields separates (first :: next :: rest) = [first] :: fields separates (next :: rest) := by
  rw [fields.eq_def]
  dsimp only
  rw [if_neg (Bool.eq_false_iff.mp kept), if_pos separated]

theorem exists_fields_before_kept (rest : Text) (kept : separates first = false)
    (goesOn : separates next = false) :
    ∃ field others, fields separates (next :: rest) = field :: others ∧
      fields separates (first :: next :: rest) = (first :: field) :: others := by
  obtain ⟨field, others, listed⟩ := exists_fields rest goesOn
  refine ⟨next :: field, others, listed, ?_⟩
  rw [fields.eq_def]
  dsimp only
  rw [if_neg (Bool.eq_false_iff.mp kept), if_neg (Bool.eq_false_iff.mp goesOn), listed]

theorem fields_of_kept (rest : Text) (kept : separates first = false) :
    fields separates (first :: rest) = [first] :: fields separates rest ∨
      ∃ field others, fields separates rest = field :: others ∧
        fields separates (first :: rest) = (first :: field) :: others := by
  cases rest with
  | nil => exact .inl (fields_singleton kept)
  | cons next behind =>
      cases ends : separates next with
      | true => exact .inl (fields_before_separator kept ends)
      | false => exact .inr (exists_fields_before_kept behind kept ends)

theorem kept_of_mem_fields {text field : Text} (member : field ∈ fields separates text) :
    field ≠ [] ∧ ∀ character ∈ field, character ∈ text ∧ separates character = false := by
  induction text generalizing field with
  | nil => cases member
  | cons first rest ih =>
      have later : ∀ {field : Text}, field ∈ fields separates rest →
          field ≠ [] ∧ ∀ character ∈ field,
            character ∈ first :: rest ∧ separates character = false := by
        intro field member
        obtain ⟨nonempty, kept⟩ := ih member
        exact ⟨nonempty, fun character inside =>
          ⟨List.mem_cons_of_mem first (kept character inside).1, (kept character inside).2⟩⟩
      cases separated : separates first with
      | true =>
          rw [fields_of_separates separated] at member
          exact later member
      | false =>
          have own : first ∈ first :: rest ∧ separates first = false :=
            ⟨List.mem_cons_self, separated⟩
          rcases fields_of_kept rest separated with alone | ⟨field', others, listed, longer⟩
          · rw [alone] at member
            rcases List.mem_cons.mp member with rfl | behindIt
            · exact ⟨List.cons_ne_nil _ _, List.forall_mem_singleton.mpr own⟩
            · exact later behindIt
          · rw [longer] at member
            rcases List.mem_cons.mp member with rfl | behindIt
            · have kept := (later (listed ▸ List.mem_cons_self)).2
              exact ⟨List.cons_ne_nil _ _, List.forall_mem_cons.mpr ⟨own, kept⟩⟩
            · exact later (listed ▸ List.mem_cons_of_mem _ behindIt)

end Fields

/-! ### One pass -/

/-- The characters of the words are ASCII; there may be any dividers. -/
def HasAsciiWords (text : Text) : Prop :=
  ∀ character ∈ text, dividesWords character = false → character.toNat < 128

/-- The fields of a text in small letters, one space apart. -/
def joined (text : Text) : Text :=
  [' '].intercalate ((fields dividesWords text).map lowercase)

section Joined

variable {first : Char} {rest text : Text}

theorem joined_of_divides (divides : dividesWords first = true) :
    joined (first :: rest) = joined rest := by
  rw [joined, fields_of_separates divides]
  rfl

theorem isAscii_of_mem_fields (ascii : HasAsciiWords text) {field : Text}
    (member : field ∈ fields dividesWords text) : IsAscii field := by
  intro character inside
  obtain ⟨among, kept⟩ := (kept_of_mem_fields member).2 character inside
  exact ascii character among kept

theorem lowercase_cons_of_isAscii {field : Text} (ascii : IsAscii (first :: field)) :
    lowercase (first :: field) = smallLetter first :: lowercase field := by
  rw [lowercase_of_isAscii ascii, List.map_cons,
    lowercase_of_isAscii (List.forall_mem_cons.mp ascii).2]

theorem isEmpty_joined (ascii : HasAsciiWords text) :
    (joined text).isEmpty = (fields dividesWords text).isEmpty := by
  cases listed : fields dividesWords text with
  | nil =>
      rw [joined, listed]
      rfl
  | cons field others =>
      have member : field ∈ fields dividesWords text := by
        rw [listed]
        exact List.mem_cons_self
      have fieldAscii := isAscii_of_mem_fields ascii member
      cases field with
      | nil => exact ((kept_of_mem_fields member).1 rfl).elim
      | cons character tail =>
          rw [joined, listed, List.map_cons, lowercase_cons_of_isAscii fieldAscii,
            List.intercalate_cons_cons_left]
          rfl

theorem joined_of_kept (kept : dividesWords first = false)
    (ascii : HasAsciiWords (first :: rest)) :
    joined (first :: rest) =
      if rest.head?.any dividesWords && !(joined rest).isEmpty then
        smallLetter first :: ' ' :: joined rest
      else smallLetter first :: joined rest := by
  rcases List.forall_mem_cons.mp ascii with ⟨firstAscii, restAscii⟩
  have alone : lowercase [first] = [smallLetter first] :=
    lowercase_of_isAscii (List.forall_mem_singleton.mpr (firstAscii kept))
  cases rest with
  | nil =>
      rw [joined, fields_singleton kept, List.map_singleton, alone, List.intercalate_singleton]
      rfl
  | cons next behind =>
      rw [isEmpty_joined restAscii]
      cases divides : dividesWords next with
      | true =>
          rw [joined, fields_before_separator kept divides, List.map_cons, alone]
          cases listed : fields dividesWords (next :: behind) with
          | nil =>
              rw [joined, listed, List.isEmpty_nil, Bool.not_true, Bool.and_false,
                if_neg Bool.false_ne_true]
              rfl
          | cons field others =>
              have test : (List.head? (next :: behind)).any dividesWords = true := divides
              rw [joined, listed, test, List.isEmpty_cons, Bool.not_false, Bool.and_self,
                if_pos rfl, List.map_cons, List.intercalate_cons_cons]
              rfl
      | false =>
          obtain ⟨field, others, listed, longer⟩ :=
            exists_fields_before_kept behind kept divides
          have member : first :: field ∈ fields dividesWords (first :: next :: behind) := by
            rw [longer]
            exact List.mem_cons_self
          have test : (List.head? (next :: behind)).any dividesWords = false := divides
          rw [joined, longer, List.map_cons,
            lowercase_cons_of_isAscii (isAscii_of_mem_fields ascii member),
            List.intercalate_cons_cons_left, test, Bool.false_and, if_neg Bool.false_ne_true,
            joined, listed, List.map_cons]

end Joined

section OnePass

variable {first : Char} {rest spelling : Text}

theorem spacedWords_of_divides (divides : dividesWords first = true) :
    spacedWords (first :: rest) = spacedWords rest := by
  rw [spacedWords, if_pos divides]

theorem spacedWords_of_kept (kept : dividesWords first = false) :
    spacedWords (first :: rest) =
      if startsWord first rest || rest.head?.any dividesWords && !(spacedWords rest).isEmpty then
        smallLetter first :: ' ' :: spacedWords rest
      else smallLetter first :: spacedWords rest := by
  rw [spacedWords, if_neg (Bool.eq_false_iff.mp kept)]

theorem isEmpty_spacedWords_of_kept (kept : dividesWords first = false) :
    (spacedWords (first :: rest)).isEmpty = false := by
  rw [spacedWords_of_kept kept]
  split <;> rfl

theorem dividesWords_eq_false_of_isDigit {character : Char} (digit : isDigit character = true) :
    dividesWords character = false := by
  have code := (isDigit_iff character).mp digit
  refine dividesWords_eq_false_of_printing (by omega) (by omega) ?_ ?_
  · rintro rfl
    cases digit
  · rintro rfl
    cases digit

theorem dividesWords_eq_false_of_isCapital {character : Char}
    (capital : isCapital character = true) : dividesWords character = false :=
  dividesWords_eq_false_of_isLetter (by rw [isLetter, capital, Bool.true_or])

theorem dividesWords_eq_false_of_isSmall {character : Char}
    (small : isSmall character = true) : dividesWords character = false :=
  dividesWords_eq_false_of_isLetter (by rw [isLetter, small, Bool.or_true])

theorem keeps_of_startsWord (starts : startsWord first rest = true) :
    dividesWords first = false ∧
      ∃ second behind, rest = second :: behind ∧ isCapital second = true := by
  cases rest with
  | nil => cases starts
  | cons second behind =>
      rw [startsWord] at starts
      rcases Bool.or_eq_true_iff.mp starts with low | run
      · rcases Bool.and_eq_true_iff.mp low with ⟨smallOrDigit, capital⟩
        refine ⟨?_, second, behind, rfl, capital⟩
        rcases Bool.or_eq_true_iff.mp smallOrDigit with small | digit
        · exact dividesWords_eq_false_of_isSmall small
        · exact dividesWords_eq_false_of_isDigit digit
      · rcases Bool.and_eq_true_iff.mp (Bool.and_eq_true_iff.mp run).1 with ⟨capital, again⟩
        exact ⟨dividesWords_eq_false_of_isCapital capital, second, behind, rfl, again⟩

theorem isEmpty_eq_false_of_spaced
    (spaced : (startsWord first rest ||
      rest.head?.any dividesWords && !(spacedWords rest).isEmpty) = true) :
    (spacedWords rest).isEmpty = false := by
  rcases Bool.or_eq_true_iff.mp spaced with starts | separated
  · obtain ⟨-, second, behind, rfl, capital⟩ := keeps_of_startsWord starts
    exact isEmpty_spacedWords_of_kept (dividesWords_eq_false_of_isCapital capital)
  · exact (Bool.not_eq_true' _).mp (Bool.and_eq_true_iff.mp separated).2

theorem head?_divided (spelling : Text) : (divided spelling).head? = spelling.head? := by
  cases spelling with
  | nil => rfl
  | cons first rest =>
      rw [divided_cons]
      split <;> rfl

theorem hasAsciiWords_divided (ascii : HasAsciiWords spelling) :
    HasAsciiWords (divided spelling) := by
  induction spelling with
  | nil => nofun
  | cons first rest ih =>
      rcases List.forall_mem_cons.mp ascii with ⟨firstAscii, restAscii⟩
      have later : HasAsciiWords (first :: divided rest) :=
        List.forall_mem_cons.mpr ⟨firstAscii, ih restAscii⟩
      rw [divided_cons]
      split
      · rcases List.forall_mem_cons.mp later with ⟨firstAscii, restAscii⟩
        exact List.forall_mem_cons.mpr ⟨firstAscii,
          List.forall_mem_cons.mpr ⟨fun _ => by decide, restAscii⟩⟩
      · exact later

/-- The two passes, the fields and the small letters in one pass. -/
theorem joined_divided (ascii : HasAsciiWords spelling) :
    joined (divided spelling) = spacedWords spelling := by
  induction spelling with
  | nil => rfl
  | cons first rest ih =>
      rcases List.forall_mem_cons.mp ascii with ⟨firstAscii, restAscii⟩
      have restDivided := hasAsciiWords_divided restAscii
      have whole := hasAsciiWords_divided ascii
      rw [divided_cons] at whole ⊢
      cases divides : dividesWords first with
      | true =>
          have starts : startsWord first rest = false := by
            rw [Bool.eq_false_iff]
            intro starts
            rw [(keeps_of_startsWord starts).1] at divides
            cases divides
          rw [starts, if_neg Bool.false_ne_true, joined_of_divides divides, ih restAscii,
            spacedWords_of_divides divides]
      | false =>
          rw [spacedWords_of_kept divides]
          cases starts : startsWord first rest with
          | true =>
              have nonempty : (spacedWords rest).isEmpty = false :=
                isEmpty_eq_false_of_spaced (by rw [starts, Bool.true_or])
              rw [starts, if_pos rfl] at whole
              rw [if_pos rfl, joined_of_kept divides whole, joined_of_divides (by decide),
                ih restAscii, Bool.true_or, if_pos rfl, nonempty]
              rfl
          | false =>
              rw [starts, if_neg Bool.false_ne_true] at whole
              rw [if_neg Bool.false_ne_true, joined_of_kept divides whole, head?_divided,
                ih restAscii, Bool.false_or]

theorem symbolName_eq_spacedWords (ascii : HasAsciiWords spelling)
    (visible : ∀ first ∈ spelling.head?, isOperator first = false) :
    symbolName spelling = spacedWords spelling := by
  rw [← joined_divided ascii]
  cases spelling with
  | nil => rfl
  | cons first rest =>
      rw [symbolName, if_neg (Bool.eq_false_iff.mp (visible first rfl))]
      rfl

end OnePass

end MessageForms.Text
