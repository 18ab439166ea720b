import MessageForms.Proofs.Rendering.Renders
import MessageForms.Proofs.Token.Tokenized

set_option autoImplicit false

/-! A layout is cut into tokens with the same signs: no blank carries a token on. -/

namespace MessageForms

theorem TokenKind.ofChar?_of_isBlank {character : Char} (blank : Text.isBlank character = true) :
    ofChar? character = none := by
  cases starts : ofChar? character with
  | none => rfl
  | some kind =>
      rw [isBlank_eq_false_of_ofChar? starts] at blank
      cases blank

theorem Text.isWordPart_eq_false_of_isBlank {character : Char}
    (blank : Text.isBlank character = true) : Text.isWordPart character = false := by
  rw [Bool.eq_false_iff]
  intro part
  have unstarted := TokenKind.ofChar?_of_isBlank blank
  simp only [isWordPart, Bool.or_eq_true, decide_eq_true_eq, List.mem_cons, List.not_mem_nil,
    or_false] at part
  rcases part with (letter | digit) | rfl | rfl | rfl | rfl
  · rw [TokenKind.ofChar?_of_isLetter letter] at unstarted
    cases unstarted
  · rw [TokenKind.ofChar?_of_isDigit digit] at unstarted
    cases unstarted
  all_goals exact absurd blank (by decide)

theorem Token.goesOn_eq_false_of_isBlank (token : Token) {character : Char}
    (blank : Text.isBlank character = true) : token.goesOn character = false := by
  have unstarted := TokenKind.ofChar?_of_isBlank blank
  have noOperator : Text.isOperator character = false := by
    rw [Bool.eq_false_iff]
    intro operator
    rw [TokenKind.ofChar?_of_isOperator operator] at unstarted
    cases unstarted
  have noDigit : Text.isDigit character = false := by
    rw [Bool.eq_false_iff]
    intro digit
    rw [TokenKind.ofChar?_of_isDigit digit] at unstarted
    cases unstarted
  unfold goesOn
  split
  · rw [Text.isWordPart_eq_false_of_isBlank blank, noOperator, ite_self]
  · exact noDigit
  · rfl

theorem Layout.exists_division {signs : List Sign} {text : Text} (laid : Layout signs text)
    (fits : ∀ sign ∈ signs, sign.Fits) (before : Text) :
    ∃ pieces margin, MaximalMunch before text pieces margin [] ∧
      (pieces.map Prod.snd).map Token.sign = signs := by
  induction laid generalizing before with
  | @margin blanks blank =>
      refine ⟨[], blanks, ?_, rfl⟩
      have division := @MaximalMunch.stop before blanks [] blank .ended
      rw [List.append_nil] at division
      exact division
  | @sign gap rest sign others blank laid apart ih =>
      let token : Token := ⟨sign.kind, sign.raw, Position.after (before ++ gap)⟩
      have isNext : token.IsNext before gap rest :=
        { blank
          fits := fits sign List.mem_cons_self
          placed := rfl
          longest := fun character first =>
            token.goesOn_eq_false_of_isBlank (apart character first) }
      obtain ⟨pieces, margin, division, same⟩ :=
        ih (fun other among => fits other (List.mem_cons_of_mem sign among))
          (before ++ gap ++ token.lexeme)
      refine ⟨(gap, token) :: pieces, margin, .piece isNext division, ?_⟩
      rw [List.map_cons, List.map_cons, same]
      rfl

theorem Layout.exists_tokenize {signs : List Sign} {text : Text} (laid : Layout signs text)
    (fits : ∀ sign ∈ signs, sign.Fits) :
    ∃ tokens, (TokenStream.tokenize text).1 = (tokens, none) ∧ tokens.map Token.sign = signs := by
  obtain ⟨pieces, margin, division, same⟩ := laid.exists_division fits []
  refine ⟨pieces.map Prod.snd, ?_, same⟩
  rw [TokenStream.tokenize_of_division division]
  rfl

end MessageForms
