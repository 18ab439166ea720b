import MessageForms.Proofs.Grammar.Moved
import MessageForms.Proofs.Source.Shift
import MessageForms.Proofs.Token.Tokenized

set_option autoImplicit false

/-! Texts that are joined by a mark. No token goes on with a mark, so what stands in front of it is
cut as before; and a mark is complete by itself, so what stands behind it is cut as if it stood
alone, at places that go on counting. -/

namespace MessageForms

theorem Token.goesOn_mark (token : Token) {kind : TokenKind} {mark : Char}
    (marks : kind.mark? = some mark) : token.goesOn mark = false := by
  have classes : Text.isWordPart mark = false ∧ Text.isOperator mark = false ∧
      Text.isDigit mark = false := by
    cases kind <;> cases marks <;> decide
  unfold goesOn
  split
  · rw [classes.1, classes.2.1, ite_self]
  · exact classes.2.2
  · rfl

def Token.ofMark (kind : TokenKind) (mark : Char) (position : Position) : Token :=
  { kind, raw := [mark], position }

theorem Token.isNext_ofMark {before gap : Text} {kind : TokenKind} {mark : Char}
    (marks : kind.mark? = some mark)
    (blank : ∀ character ∈ gap, Text.isBlank character = true) (following : Text) :
    (Token.ofMark kind mark (Position.after (before ++ gap))).IsNext before gap following where
  blank := blank
  fits := by cases kind <;> cases marks <;> rfl
  placed := rfl
  longest := by cases kind <;> cases marks <;> exact fun _ _ => rfl

theorem Token.lexeme_ofMark {kind : TokenKind} {mark : Char} (marks : kind.mark? = some mark)
    (position : Position) : (Token.ofMark kind mark position).lexeme = [mark] := by
  cases kind <;> cases marks <;> rfl

namespace MaximalMunch

variable {before text margin rest : Text} {pieces : List (Text × Token)}

theorem behind (division : MaximalMunch before text pieces margin rest) (front : Text) :
    MaximalMunch (front ++ before) text
      (pieces.map fun piece => (piece.1, piece.2.moved (Position.behind front))) margin rest := by
  induction division with
  | stop blank stuck => exact .stop blank stuck
  | @piece before gap following margin rest token pieces isNext others ih =>
      let moved : Token := token.moved (Position.behind front)
      have isNext' : moved.IsNext (front ++ before) gap following := by
        refine ⟨isNext.blank, isNext.fits, ?_, isNext.longest⟩
        rw [List.append_assoc, Position.after_append, ← isNext.placed]
        rfl
      change MaximalMunch _ (gap ++ (moved.lexeme ++ following)) ((gap, moved) :: _) _ _
      refine .piece isNext' ?_
      rw [List.append_assoc, List.append_assoc, ← List.append_assoc before]
      exact ih

theorem append_mark {kind : TokenKind} {mark : Char} (marks : kind.mark? = some mark)
    (division : MaximalMunch before text pieces margin []) {text' margin' rest' : Text}
    {pieces' : List (Text × Token)}
    (others : MaximalMunch (before ++ text ++ [mark]) text' pieces' margin' rest') :
    MaximalMunch before (text ++ mark :: text')
      (pieces ++ (margin, .ofMark kind mark (.after (before ++ text))) :: pieces')
      margin' rest' := by
  induction pieces generalizing before text with
  | nil =>
      obtain ⟨split, blank, -⟩ := division.of_nil
      rw [List.append_nil] at split
      subst split
      have isNext := @Token.isNext_ofMark before text kind mark marks blank text'
      have lexeme := Token.lexeme_ofMark marks (Position.after (before ++ text))
      rw [← lexeme] at others
      have whole := MaximalMunch.piece isNext others
      rw [lexeme] at whole
      exact whole
  | cons piece pieces ih =>
      obtain ⟨gap, token⟩ := piece
      obtain ⟨following, rfl, isNext, tail⟩ := division.of_cons
      have isNext' : token.IsNext before gap (following ++ mark :: text') := by
        refine ⟨isNext.blank, isNext.fits, isNext.placed, fun character first => ?_⟩
        cases following with
        | nil =>
            cases first
            exact token.goesOn_mark marks
        | cons next following => exact isNext.longest character first
      simp only [← List.append_assoc] at others
      have whole := MaximalMunch.piece isNext' (ih tail others)
      simp only [List.append_assoc] at whole ⊢
      exact whole

end MaximalMunch

namespace TokenStream

theorem exists_division_of_tokenize {text : Text} {tokens : List Token}
    (lexed : (tokenize text).1 = (tokens, none)) :
    ∃ pieces margin, MaximalMunch [] text pieces margin [] ∧ pieces.map Prod.snd = tokens := by
  obtain ⟨pieces, margin, rest, division, tokenized⟩ := exists_tokenize_eq text
  rw [lexed, Prod.mk.injEq] at tokenized
  obtain ⟨same, finished⟩ := tokenized
  cases rest with
  | nil => exact ⟨pieces, margin, division, same.symm⟩
  | cons character others =>
      rw [stopFault?] at finished
      split at finished <;> cases finished

theorem exists_tokenize_append_mark {kind : TokenKind} {mark : Char}
    (marks : kind.mark? = some mark) {text : Text} {tokens : List Token}
    (lexed : (tokenize text).1 = (tokens, none)) (following : Text) :
    ∃ others ending, (tokenize (text ++ mark :: following)).1 =
      (tokens ++ .ofMark kind mark (.after text) :: others, ending) := by
  obtain ⟨pieces, margin, division, rfl⟩ := exists_division_of_tokenize lexed
  obtain ⟨pieces', margin', rest', others⟩ :=
    MaximalMunch.exists_division ([] ++ text ++ [mark]) following
  have joined := tokenize_of_division (division.append_mark marks others)
  rw [List.map_append, List.map_cons] at joined
  exact ⟨_, _, joined⟩

/-- The tokens of two texts that are joined by a mark: those of the first, the mark, and those of
the second at places that go on counting. -/
theorem tokenize_append_mark {kind : TokenKind} {mark : Char} (marks : kind.mark? = some mark)
    {text text' : Text} {tokens tokens' : List Token} (lexed : (tokenize text).1 = (tokens, none))
    (lexed' : (tokenize text').1 = (tokens', none)) :
    (tokenize (text ++ mark :: text')).1 =
      (tokens ++ .ofMark kind mark (.after text) ::
        tokens'.map (Token.moved (Position.behind (text ++ [mark]))), none) := by
  obtain ⟨pieces, margin, division, rfl⟩ := exists_division_of_tokenize lexed
  obtain ⟨pieces', margin', division', rfl⟩ := exists_division_of_tokenize lexed'
  have others := division'.behind (text ++ [mark])
  rw [List.append_nil] at others
  rw [tokenize_of_division (division.append_mark marks others)]
  simp only [List.map_append, List.map_cons, List.map_map]
  rfl

end TokenStream

end MessageForms
