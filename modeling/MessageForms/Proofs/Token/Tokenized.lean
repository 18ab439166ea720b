import MessageForms.Proofs.Token.Upcoming

set_option autoImplicit false

/-! Reading a whole text token by token gives exactly the tokens of its division, and ends as the
rest of the text says. -/

namespace MessageForms.TokenStream

theorem Offers.readAll_eq {text : Text} {all tokens : List Token} {ending : Option Fault}
    {stream : TokenStream} (offers : stream.Offers text all ending tokens) {allowance : Nat}
    (enough : tokens.length < allowance) :
    ∃ final, readAll allowance stream = .ok (tokens, ending) final := by
  induction tokens generalizing stream allowance with
  | nil =>
      obtain ⟨allowance, rfl⟩ : ∃ less, allowance = less + 1 := ⟨allowance - 1, by omega⟩
      cases ending with
      | none =>
          have ended := offers.peek_of_nil
          refine ⟨advance { stream with cursor := .between text [] }, ?_⟩
          simp only [readAll, read_apply, ended]
      | some fault =>
          rcases offers.peek_of_fault with ⟨cursor, failed, -⟩
          refine ⟨{ stream with cursor }, ?_⟩
          simp only [readAll, read_apply, failed]
  | cons token tokens ih =>
      obtain ⟨allowance, rfl⟩ : ∃ less, allowance = less + 1 := ⟨allowance - 1, by omega⟩
      rcases offers.read_of_cons with ⟨after, found, -, others⟩
      rw [List.length_cons] at enough
      obtain ⟨final, rest⟩ := @ih after others allowance (by omega)
      refine ⟨final, ?_⟩
      simp only [readAll, found, rest]

theorem tokenize_of_division {text margin rest : Text} {pieces : List (Text × Token)}
    (division : MaximalMunch [] text pieces margin rest) :
    (tokenize text).1 = (pieces.map Prod.snd, stopFault? (spelled pieces ++ margin) rest) := by
  have enough : (pieces.map Prod.snd).length < (ofText text).allowance + 1 := by
    have bounded := division.length_le
    rw [List.length_map]
    change pieces.length < 0 + text.length + 1
    omega
  obtain ⟨final, found⟩ := (ofText_offers division).readAll_eq enough
  simp only [tokenize, found]

theorem exists_tokenize_eq (text : Text) :
    ∃ pieces margin rest, MaximalMunch [] text pieces margin rest ∧
      (tokenize text).1 = (pieces.map Prod.snd, stopFault? (spelled pieces ++ margin) rest) := by
  obtain ⟨pieces, margin, rest, division⟩ := MaximalMunch.exists_division [] text
  exact ⟨pieces, margin, rest, division, tokenize_of_division division⟩

theorem exists_place_of_mem_tokenize {text : Text} {token : Token}
    (among : token ∈ (tokenize text).1.1) :
    ∃ before following, text = before ++ (token.lexeme ++ following) ∧
      token.position = Position.after before := by
  obtain ⟨pieces, margin, rest, division, tokenized⟩ := exists_tokenize_eq text
  rw [tokenized] at among
  exact division.exists_place among

/-! ### The ending -/

private theorem stopFault?_eq_none_iff (before : Text) {rest : Text} :
    stopFault? before rest = none ↔ rest = [] := by
  cases rest with
  | nil => exact ⟨fun _ => rfl, fun _ => rfl⟩
  | cons character rest =>
      constructor
      · intro absent
        rw [stopFault?] at absent
        split at absent <;> cases absent
      · intro impossible
        cases impossible

private theorem stopFault?_unclassified_iff (before : Text) {rest : Text}
    (stuck : Token.Stuck rest) (character : Char) :
    (∃ position preview,
        stopFault? before rest = some (.unclassified character position preview)) ↔
      ∃ others, rest = character :: others ∧ Text.isBlank character = false ∧
        TokenKind.ofChar? character = none := by
  cases stuck with
  | ended =>
      constructor
      · intro claimed
        rcases claimed with ⟨position, preview, impossible⟩
        cases impossible
      · intro claimed
        rcases claimed with ⟨others, impossible, -⟩
        cases impossible
  | @unknown found others visible unknown =>
      have other : found ≠ '"' := by
        intro quote
        subst quote
        cases unknown
      rw [stopFault?, if_neg other]
      constructor
      · intro claimed
        rcases claimed with ⟨position, preview, same⟩
        cases same
        exact ⟨others, rfl, visible, unknown⟩
      · intro claimed
        rcases claimed with ⟨others, same, -⟩
        cases same
        exact ⟨_, _, rfl⟩
  | unclosed unquoted =>
      constructor
      · intro claimed
        rcases claimed with ⟨position, preview, impossible⟩
        cases impossible
      · intro claimed
        rcases claimed with ⟨others, same, -, unknown⟩
        cases same
        cases unknown

private theorem stopFault?_unterminated_iff (before : Text) {rest : Text}
    (stuck : Token.Stuck rest) :
    (∃ problem, stopFault? before rest = some (.problem problem) ∧
        problem.complaint = .unterminatedString ∧
        problem.position = some (Position.after before)) ↔
      ∃ content, rest = '"' :: content ∧ '"' ∉ content := by
  cases stuck with
  | ended =>
      constructor
      · intro claimed
        rcases claimed with ⟨problem, impossible, -⟩
        cases impossible
      · intro claimed
        rcases claimed with ⟨content, impossible, -⟩
        cases impossible
  | @unknown found others visible unknown =>
      have other : found ≠ '"' := by
        intro quote
        subst quote
        cases unknown
      rw [stopFault?, if_neg other]
      constructor
      · intro claimed
        rcases claimed with ⟨problem, impossible, -⟩
        cases impossible
      · intro claimed
        rcases claimed with ⟨content, same, -⟩
        cases same
        exact (other rfl).elim
  | @unclosed content unquoted =>
      constructor
      · intro _
        exact ⟨content, rfl, unquoted⟩
      · intro _
        exact ⟨_, rfl, rfl, rfl⟩

/-- Tokenizing a text computes its one division into tokens of greatest length. The text is the
blanks and lexemes of the pieces, blanks, and a rest. The pieces' tokens are those read, and the
reading ends without a fault, at an unknown character, or at the opening mark of a string without
an end, as the rest is empty, starts with such a character, or with such a mark. -/
theorem tokenize_maximalMunch (text : Text) :
    ∃ pieces margin rest,
      MaximalMunch [] text pieces margin rest ∧
      text = (pieces.flatMap fun piece => piece.1 ++ piece.2.lexeme) ++ margin ++ rest ∧
      (tokenize text).1.1 = pieces.map Prod.snd ∧
      ((tokenize text).1.2 = none ↔ rest = []) ∧
      (∀ character,
        (∃ position preview,
            (tokenize text).1.2 = some (.unclassified character position preview)) ↔
          ∃ others, rest = character :: others ∧ Text.isBlank character = false ∧
            TokenKind.ofChar? character = none) ∧
      ((∃ problem, (tokenize text).1.2 = some (.problem problem) ∧
          problem.complaint = .unterminatedString ∧
          problem.position = some (Position.after (spelled pieces ++ margin))) ↔
        ∃ content, rest = '"' :: content ∧ '"' ∉ content) ∧
      ∀ pieces' margin' rest', MaximalMunch [] text pieces' margin' rest' →
        pieces' = pieces ∧ margin' = margin ∧ rest' = rest := by
  obtain ⟨pieces, margin, rest, division, tokenized⟩ := exists_tokenize_eq text
  rw [tokenized]
  exact ⟨pieces, margin, rest, division, division.text_eq, rfl,
    stopFault?_eq_none_iff _,
    stopFault?_unclassified_iff _ division.stuck,
    stopFault?_unterminated_iff _ division.stuck,
    fun _ _ _ other => division.unique other⟩

end MessageForms.TokenStream
