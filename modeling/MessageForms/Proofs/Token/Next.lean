import MessageForms.Proofs.Token.Lexeme

set_option autoImplicit false

/-! Scanning finds the next token of a text. What stands behind the blanks is a token that is as
long as it can be, or else scanning stops there: at the end of the text, at a character that starts
no token, or at a quote mark without a partner. -/

namespace MessageForms.Token

open Cursor Text

/-! ### One kind at a time -/

private theorem scanRun_between {kind : TokenKind} {accepts : Char → Bool}
    (before run following : Text) (accepted : ∀ character ∈ run, accepts character = true)
    (stops : ∀ character ∈ following.head?, accepts character = false) :
    scanRun kind accepts (between before (run ++ following)) =
      .ok { kind, raw := run, position := .after before } (between (before ++ run) following) := by
  rw [scanRun, readWhile_between, takeWhile_append_of_stops _ accepted stops,
    dropWhile_append_of_stops _ accepted stops]
  rfl

private theorem scanSymbol_word {start : Char} {tail : Text} (before following : Text)
    (letter : isLetter start = true)
    (accepted : ∀ character ∈ tail, isWordPart character = true)
    (stops : ∀ character ∈ following.head?, isWordPart character = false) :
    scanSymbol (between before (start :: tail ++ following)) =
      .ok { kind := .symbol, raw := start :: tail, position := .after before }
        (between (before ++ start :: tail) following) := by
  have all : ∀ character ∈ start :: tail, isWordPart character = true := by
    intro character member
    rcases List.mem_cons.mp member with rfl | later
    · rw [isWordPart, letter, Bool.true_or, Bool.true_or]
    · exact accepted character later
  rw [scanSymbol]
  simp only [between_peek, List.cons_append, List.head?_cons, if_pos letter]
  exact scanRun_between before (start :: tail) following all stops

private theorem scanSymbol_operators {start : Char} {tail : Text} (before following : Text)
    (operators : ∀ character ∈ start :: tail, isOperator character = true)
    (stops : ∀ character ∈ following.head?, isOperator character = false) :
    scanSymbol (between before (start :: tail ++ following)) =
      .ok { kind := .symbol, raw := start :: tail, position := .after before }
        (between (before ++ start :: tail) following) := by
  have operator := operators start List.mem_cons_self
  rw [scanSymbol]
  simp only [between_peek, List.cons_append, List.head?_cons,
    isLetter_eq_false_of_isOperator operator, Bool.false_eq_true, if_false, if_pos operator]
  exact scanRun_between before (start :: tail) following operators stops

private theorem scanString_between (before content following : Text)
    (unquoted : '"' ∉ content) :
    scanString (between before ('"' :: (content ++ ['"']) ++ following)) =
      .ok { kind := .string, raw := content, position := .after before }
        (between (before ++ '"' :: (content ++ ['"'])) following) := by
  have accepted : ∀ character ∈ content, (decide (character ≠ '"')) = true := by
    intro character member
    exact decide_eq_true (fun same => unquoted (same ▸ member))
  have stops : ∀ character ∈ ('"' :: following).head?, (decide (character ≠ '"')) = false := by
    intro character first
    cases first
    rfl
  rw [List.cons_append, List.append_assoc, List.singleton_append, scanString, advance_between,
    readWhile_between, takeWhile_append_of_stops _ accepted stops,
    dropWhile_append_of_stops _ accepted stops]
  simp only [between_peek, List.head?_cons, between_here, advance_between]
  simp only [List.append_assoc, List.cons_append, List.nil_append]

private theorem scanString_unterminated (before content : Text) (unquoted : '"' ∉ content) :
    scanString (between before ('"' :: content)) =
      .error
        (.problem
          { complaint := .unterminatedString
            position := some (.after before)
            preview := some ((Position.after before).preview (before ++ '"' :: content))
            hint := none })
        (between (before ++ '"' :: content) []) := by
  have accepted : ∀ character ∈ content, (decide (character ≠ '"')) = true := by
    intro character member
    exact decide_eq_true (fun same => unquoted (same ▸ member))
  have run := takeWhile_append_of_stops [] accepted (by simp)
  have rest := dropWhile_append_of_stops [] accepted (by simp)
  rw [List.append_nil] at run rest
  rw [scanString, advance_between, readWhile_between, run, rest]
  simp only [between_peek, List.head?_nil, between_here, between_preview, List.append_assoc,
    List.cons_append, List.nil_append]

/-! ### The kind found at the first character -/

theorem exists_start {token : Token} (fits : token.Fits) :
    ∃ start tail, token.lexeme = start :: tail ∧ TokenKind.ofChar? start = some token.kind := by
  rcases token with ⟨kind, raw, position⟩
  cases kind with
  | symbol =>
      rcases fits with ⟨first, tail, written, letter, -⟩ | ⟨nonempty, operators⟩
      · exact ⟨first, tail, written, TokenKind.ofChar?_of_isLetter letter⟩
      · obtain ⟨first, tail, written⟩ := List.exists_cons_of_ne_nil nonempty
        have operator := operators first (written ▸ List.mem_cons_self)
        exact ⟨first, tail, written, TokenKind.ofChar?_of_isOperator operator⟩
  | number =>
      rcases fits with ⟨nonempty, digits⟩
      obtain ⟨first, tail, written⟩ := List.exists_cons_of_ne_nil nonempty
      have digit := digits first (written ▸ List.mem_cons_self)
      exact ⟨first, tail, written, TokenKind.ofChar?_of_isDigit digit⟩
  | string => exact ⟨'"', raw ++ ['"'], rfl, rfl⟩
  | _ => exact ⟨_, [], fits, rfl⟩

private theorem scan_of_isNext (before : Text) {following : Text} {token : Token}
    (isNext : token.IsNext before [] following) :
    scan token.kind (between before (token.lexeme ++ following)) =
      .ok token (between (before ++ token.lexeme) following) := by
  rcases isNext with ⟨-, fits, placed, longest⟩
  rcases token with ⟨kind, raw, position⟩
  rw [List.append_nil] at placed
  subst placed
  cases kind with
  | symbol =>
      rcases fits with ⟨start, tail, written, letter, accepted⟩ | ⟨nonempty, operators⟩
      · change raw = start :: tail at written
        subst written
        have stops : ∀ character ∈ following.head?, isWordPart character = false := by
          intro character first
          have ended := longest character first
          simpa [goesOn, letter] using ended
        exact scanSymbol_word before following letter accepted stops
      · obtain ⟨start, tail, written⟩ := List.exists_cons_of_ne_nil nonempty
        change raw = start :: tail at written
        subst written
        have noLetter := isLetter_eq_false_of_isOperator (operators start List.mem_cons_self)
        have stops : ∀ character ∈ following.head?, isOperator character = false := by
          intro character first
          have ended := longest character first
          simpa [goesOn, noLetter] using ended
        exact scanSymbol_operators before following operators stops
  | number => exact scanRun_between before raw following fits.2 longest
  | string => exact scanString_between before raw following fits
  | _ =>
      cases fits
      exact congrArg (EStateM.Result.ok _) (advance_between before following _)

/-! ### Behind the blanks -/

private theorem next_behind_blanks {gap : Text} (before rest : Text)
    (blank : ∀ character ∈ gap, isBlank character = true)
    (visible : ∀ character ∈ rest.head?, isBlank character = false) :
    (between before (gap ++ rest)).readWhile isBlank = (gap, between (before ++ gap) rest) := by
  rw [readWhile_between, takeWhile_append_of_stops _ blank visible,
    dropWhile_append_of_stops _ blank visible]

/-- Scanning gives the token that comes next. -/
theorem next_of_isNext {before gap following : Text} {token : Token}
    (isNext : token.IsNext before gap following) :
    next (between before (gap ++ (token.lexeme ++ following))) =
      .ok (some token) (between (before ++ gap ++ token.lexeme) following) := by
  obtain ⟨start, tail, written, starts⟩ := exists_start isNext.fits
  have visible : ∀ character ∈ (token.lexeme ++ following).head?, isBlank character = false := by
    intro character first
    rw [written] at first
    cases first
    exact TokenKind.isBlank_eq_false_of_ofChar? starts
  have scanned := scan_of_isNext (before ++ gap)
    { isNext with blank := by simp, placed := by rw [List.append_nil]; exact isNext.placed }
  rw [next, next_behind_blanks before _ isNext.blank visible]
  rw [written] at scanned ⊢
  simp only [between_peek, List.cons_append, List.head?_cons, starts] at scanned ⊢
  rw [scanned]

theorem next_at_end {margin : Text} (before : Text)
    (blank : ∀ character ∈ margin, isBlank character = true) :
    next (between before margin) = .ok none (between (before ++ margin) []) := by
  have passed := next_behind_blanks before [] blank (by simp)
  rw [List.append_nil] at passed
  rw [next, passed]
  rfl

theorem next_unclassified {margin rest : Text} {character : Char} (before : Text)
    (blank : ∀ character ∈ margin, isBlank character = true)
    (visible : isBlank character = false) (unknown : TokenKind.ofChar? character = none) :
    next (between before (margin ++ character :: rest)) =
      .error
        (.unclassified character (.after (before ++ margin))
          ((Position.after (before ++ margin)).preview (before ++ margin ++ character :: rest)))
        (between (before ++ margin) (character :: rest)) := by
  have passed := next_behind_blanks before (character :: rest) blank
    (by intro first same; cases same; exact visible)
  rw [next, passed]
  simp only [between_peek, List.head?_cons, unknown, between_here, between_preview]

theorem next_unterminated {margin content : Text} (before : Text)
    (blank : ∀ character ∈ margin, isBlank character = true) (unquoted : '"' ∉ content) :
    next (between before (margin ++ '"' :: content)) =
      .error
        (.problem
          { complaint := .unterminatedString
            position := some (.after (before ++ margin))
            preview := some
              ((Position.after (before ++ margin)).preview (before ++ margin ++ '"' :: content))
            hint := none })
        (between (before ++ margin ++ '"' :: content) []) := by
  have passed := next_behind_blanks before ('"' :: content) blank
    (by intro first same; cases same; decide)
  have quote : TokenKind.ofChar? '"' = some .string := rfl
  have scanned := scanString_unterminated (before ++ margin) content unquoted
  rw [next, passed]
  simp only [between_peek, List.head?_cons, quote, scan, scanned]

/-! ### What can stand there -/

/-- No token stands at the front of the text: there is nothing, or a character that starts no
token, or a quote mark that no other one follows. -/
inductive Stuck : Text → Prop where
  | ended : Stuck []
  | unknown {character : Char} {rest : Text} (visible : isBlank character = false)
      (unknown : TokenKind.ofChar? character = none) : Stuck (character :: rest)
  | unclosed {content : Text} (unquoted : '"' ∉ content) : Stuck ('"' :: content)

private theorem isNext_or_unclosed (before tail : Text) {start : Char} {kind : TokenKind}
    (starts : TokenKind.ofChar? start = some kind) :
    (∃ (token : Token) (following : Text), start :: tail = token.lexeme ++ following ∧
        token.IsNext before [] following) ∨
      (start = '"' ∧ '"' ∉ tail) := by
  have noBlank : ∀ character ∈ ([] : Text), isBlank character = true := by simp
  have here : Position.after before = Position.after (before ++ []) := by rw [List.append_nil]
  rcases TokenKind.ofChar?_cases starts with
    marked | ⟨rfl, rfl⟩ | ⟨rfl, letter⟩ | ⟨rfl, digit⟩ | ⟨rfl, operator⟩
  · refine .inl ⟨⟨kind, [start], .after before⟩, tail, ?_, noBlank, ?_, here, ?_⟩
    · cases kind <;> cases marked <;> rfl
    · cases kind <;> cases marked <;> rfl
    · cases kind <;> cases marked <;> exact fun _ _ => rfl
  · by_cases closed : '"' ∈ tail
    · obtain ⟨content, following, same, unquoted⟩ := List.eq_append_cons_of_mem closed
      refine .inl ⟨⟨.string, content, .after before⟩, following, ?_, noBlank, unquoted, here,
        fun _ _ => rfl⟩
      rw [same, lexeme, if_pos rfl, List.cons_append, List.append_assoc, List.singleton_append]
    · exact .inr ⟨rfl, closed⟩
  · refine .inl ⟨⟨.symbol, start :: tail.takeWhile isWordPart, .after before⟩,
      tail.dropWhile isWordPart, ?_, noBlank, ?_, here, ?_⟩
    · exact congrArg (start :: ·) List.takeWhile_append_dropWhile.symm
    · exact .inl ⟨start, _, rfl, letter, mem_takeWhile⟩
    · intro character first
      have ended := refused_head?_dropWhile isWordPart tail character first
      simpa [goesOn, letter] using ended
  · refine .inl ⟨⟨.number, (start :: tail).takeWhile isDigit, .after before⟩,
      (start :: tail).dropWhile isDigit, ?_, noBlank, ?_, here, ?_⟩
    · exact List.takeWhile_append_dropWhile.symm
    · refine ⟨?_, mem_takeWhile⟩
      rw [List.takeWhile_cons_of_pos digit]
      exact List.cons_ne_nil _ _
    · exact refused_head?_dropWhile isDigit (start :: tail)
  · refine .inl ⟨⟨.symbol, start :: tail.takeWhile isOperator, .after before⟩,
      tail.dropWhile isOperator, ?_, noBlank, ?_, here, ?_⟩
    · exact congrArg (start :: ·) List.takeWhile_append_dropWhile.symm
    · refine .inr ⟨List.cons_ne_nil _ _, ?_⟩
      intro character member
      rcases List.mem_cons.mp member with rfl | later
      · exact operator
      · exact mem_takeWhile character later
    · intro character first
      have ended := refused_head?_dropWhile isOperator tail character first
      simpa [goesOn, isLetter_eq_false_of_isOperator operator] using ended

/-- Behind its blanks, every text starts with a token or is stuck. -/
theorem isNext_or_stuck (before text : Text) :
    (∃ (gap : Text) (token : Token) (following : Text), text = gap ++ (token.lexeme ++ following) ∧
        token.IsNext before gap following) ∨
      (∃ margin rest, text = margin ++ rest ∧ (∀ character ∈ margin, isBlank character = true) ∧
        Stuck rest) := by
  have split : text = text.takeWhile isBlank ++ text.dropWhile isBlank :=
    List.takeWhile_append_dropWhile.symm
  have visible := refused_head?_dropWhile isBlank text
  cases body : text.dropWhile isBlank with
  | nil =>
      rw [body] at split
      exact .inr ⟨_, [], split, mem_takeWhile, .ended⟩
  | cons start tail =>
      rw [body] at split visible
      cases starts : TokenKind.ofChar? start with
      | none => exact .inr ⟨_, _, split, mem_takeWhile, .unknown (visible start rfl) starts⟩
      | some kind =>
          rcases isNext_or_unclosed (before ++ text.takeWhile isBlank) tail starts with
            ⟨token, following, same, isNext⟩ | ⟨rfl, unquoted⟩
          · rw [same] at split
            refine .inl ⟨_, token, following, split, mem_takeWhile, isNext.fits, ?_,
              isNext.longest⟩
            rw [isNext.placed, List.append_nil]
          · exact .inr ⟨_, _, split, mem_takeWhile, .unclosed unquoted⟩

end MessageForms.Token
