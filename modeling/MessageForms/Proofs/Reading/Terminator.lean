import MessageForms.Proofs.Grammar.Following
import MessageForms.Proofs.Grammar.Program
import MessageForms.Proofs.Reading.Progress
import MessageForms.Proofs.Token.Joining

set_option autoImplicit false

/-! An expression is read without a look past the token that ends it. What makes up a whole text by
itself is read as the same tree in front of a terminator, whatever stands behind that, even where
no token could be cut there. -/

namespace MessageForms

open TokenStream (tokenize)

/-! ### The token that ends an expression -/

namespace TokenStream

theorem not_yields_of_rest_nil {text : Text} {ending : Option Fault} {cursor : Cursor}
    {token : Token} {tokens : List Token} (finished : cursor.rest = []) :
    ¬ cursor.Yields text ending (token :: tokens) := by
  intro yields
  obtain ⟨after, found, -⟩ := yields.next_of_cons
  have passes := Token.next_passes cursor
  rw [found, finished] at passes
  exact Nat.not_lt_zero _ passes

/-- A stream that was lazily read to the end of an expression has scanned the token there, and
nothing behind it. -/
theorem ahead_eq_of_isEnded {text : Text} {all : List Token} {ending : Option Fault}
    {stream : TokenStream} {token : Token} {tokens : List Token}
    (offers : stream.Offers text all ending (token :: tokens)) (isLazy : stream.IsLazy)
    (ended : Reading.IsEnded stream) : stream.ahead = [token] := by
  obtain ⟨unscanned, yields, listed⟩ := offers.upcoming
  cases scanned : stream.ahead with
  | nil =>
      rw [scanned, List.nil_append] at listed
      subst listed
      exact (not_yields_of_rest_nil (ended.2 scanned) yields).elim
  | cons first others =>
      rw [scanned, List.cons_append, List.cons.injEq] at listed
      obtain ⟨rfl, -⟩ := listed
      rcases isLazy with short | ⟨dot, other, same, isDot, -⟩
      · rw [scanned, List.length_cons] at short
        rw [List.eq_nil_of_length_eq_zero (by omega : others.length = 0)]
      · have ends := ended.1
        rw [same, List.head?_cons, Option.map_some, isDot] at ends
        cases ends

theorem Offers.of_peek_none {text : Text} {all tokens : List Token} {ending : Option Fault}
    {stream after : TokenStream} (offers : stream.Offers text all ending tokens)
    (finished : peek stream = .ok none after) : tokens = [] ∧ ending = none := by
  cases tokens with
  | cons token tokens =>
      obtain ⟨seen, ahead, found, -⟩ := offers.peek_of_cons
      rw [found] at finished
      cases finished
  | nil =>
      refine ⟨rfl, ?_⟩
      cases ending with
      | none => rfl
      | some fault =>
          obtain ⟨cursor, failed, -⟩ := offers.peek_of_fault
          rw [failed] at finished
          cases finished

end TokenStream

/-! ### The tree in front of it -/

namespace Grammar

theorem exists_tree_of_expression {text : Text} {node : Node} {after ended : TokenStream}
    (read : Reading.expression .standard (.ofText text) = .ok node after)
    (finished : TokenStream.peek after = .ok none ended) :
    ∃ tree : Expression, (tokenize text).1 = (tree.tokens, none) ∧
      tree.WellFormed .standard [] ∧ tree.node .standard = node := by
  have offers := TokenStream.ofText_offers_tokenize text
  have agrees := agrees_expressionWithin .standard ((TokenStream.ofText text).allowance + 1) _ _
    offers
  rw [Reading.expression] at read
  change Reading.expressionWithin .standard ((TokenStream.ofText text).allowance + 1)
    (.ofText text) = .ok node after at read
  rw [read] at agrees
  cases parsed : Predictive.expressionWithin (tokenize text).1.2 .standard
      ((TokenStream.ofText text).allowance + 1) (tokenize text).1.1 with
  | error stop rest =>
      rw [parsed] at agrees
      obtain ⟨final, impossible⟩ := agrees
      cases impossible
  | ok tree rest =>
      rw [parsed] at agrees
      obtain ⟨final, same, again⟩ := agrees
      cases same
      obtain ⟨rfl, clean⟩ := again.of_peek_none finished
      obtain ⟨all, wellFormed, -⟩ :=
        Predictive.expressionWithin_sound Dialect.standard_joinsSymbols _ _ _ _ parsed
      refine ⟨tree, ?_, wellFormed, rfl⟩
      rw [List.append_nil] at all
      rw [← all, ← clean]

theorem Expression.WellFormed.exists_read {tree : Expression}
    (wellFormed : tree.WellFormed .standard []) {text : Text} {following : List Token}
    {ending : Option Fault} (lexed : (tokenize text).1 = (tree.tokens ++ following, ending))
    (ended : AtEnd ending following) :
    ∃ after, Reading.expression .standard (.ofText text) = .ok (tree.node .standard) after ∧
      after.Offers text (tree.tokens ++ following) ending following := by
  have offers := TokenStream.ofText_offers_tokenize text
  have short := TokenStream.length_tokenize_le text
  have understood : ∀ token ∈ tree.tokens, Dialect.standard.Understands token := by
    intro token among
    apply Dialect.standard_understands
    apply @TokenStream.fits_of_mem_tokenize text
    rw [lexed]
    exact List.mem_append_left _ among
  rw [lexed] at offers short
  have enough : tree.tokens.length < (TokenStream.ofText text).allowance + 1 := by
    change _ < 0 + text.length + 1
    rw [List.length_append] at short
    omega
  have parsed := Predictive.expressionWithin_complete Dialect.standard_joinsSymbols tree
    (wellFormed.weaken (continues_of_isAtEnd [] ended.ends)) understood ended enough
  have agrees := agrees_expressionWithin .standard ((TokenStream.ofText text).allowance + 1) _ _
    offers
  rw [parsed] at agrees
  exact agrees

end Grammar

open Grammar Reading

/-- An expression that makes up a whole text is read as the same tree, at the same places, in front
of a terminator and any text behind that; only the token of the terminator is scanned beyond it. -/
theorem expression_before_terminator {text : Text} {node : Node} {after ended : TokenStream}
    (read : expression .standard (.ofText text) = .ok node after)
    (finished : TokenStream.peek after = .ok none ended) {mark : Char}
    (terminates : mark ∈ [';', ',', '}', ')']) (following : Text) :
    readText .standard (text ++ mark :: following) = .ok node ∧
      ∃ kind after', TokenKind.ofChar? mark = some kind ∧
        expression .standard (.ofText (text ++ mark :: following)) = .ok node after' ∧
        after'.ahead = [{ kind, raw := [mark], position := .after text }] := by
  obtain ⟨kind, starts, marks, ends⟩ : ∃ kind : TokenKind, TokenKind.ofChar? mark = some kind ∧
      kind.mark? = some mark ∧ kind.endsExpression = true := by
    simp only [List.mem_cons, List.not_mem_nil, or_false] at terminates
    rcases terminates with rfl | rfl | rfl | rfl <;> exact ⟨_, rfl, rfl, rfl⟩
  obtain ⟨tree, lexed, wellFormed, rfl⟩ := exists_tree_of_expression read finished
  obtain ⟨others, ending, joined⟩ :=
    TokenStream.exists_tokenize_append_mark marks lexed following
  have atEnd : AtEnd ending (.ofMark kind mark (.after text) :: others) :=
    ⟨Predictive.clear_cons _ _ _, ends⟩
  obtain ⟨after', again, offers⟩ := wellFormed.exists_read joined atEnd
  refine ⟨?_, kind, after', starts, again, ?_⟩
  · rw [readText, onText, again]
  · obtain ⟨onward, isEnded⟩ := onward_of_expression again
    exact TokenStream.ahead_eq_of_isEnded offers (onward.keepsLazy (.inl (Nat.zero_le 1))) isEnded

/-- An open string behind the semicolon does not matter. -/
theorem expression_before_open_string :
    ∃ node after ended, expression .standard (.ofText ['f']) = .ok node after ∧
      TokenStream.peek after = .ok none ended ∧
      readText .standard ['f', ';', '"'] = .ok node := by
  obtain ⟨node, after, ended, read, finished⟩ : ∃ node after ended,
      expression .standard (.ofText ['f']) = .ok node after ∧
        TokenStream.peek after = .ok none ended := ⟨_, _, _, rfl, rfl⟩
  have again := (expression_before_terminator read finished List.mem_cons_self ['"']).1
  exact ⟨node, after, ended, read, finished, again⟩

end MessageForms
