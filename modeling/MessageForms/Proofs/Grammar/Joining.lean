import MessageForms.Proofs.Grammar.Labels
import MessageForms.Proofs.Token.Joining

set_option autoImplicit false

/-! Programs that are joined by a delimiter. The items of the second program go behind those of the
first, unless the first ends with a delimiter of its own. -/

namespace MessageForms

open TokenStream (tokenize)

namespace Grammar

/-! ### Trees -/

/-- No delimiter stands behind the last item. -/
def MoreItems.Untrailed : MoreItems → Prop
  | .ended => True
  | .trailing _ => False
  | .more _ _ others => others.Untrailed

/-- Items of another list behind a delimiter. If a delimiter stands there already, they are left
out. -/
def MoreItems.join (delimiter : Token) (inner : Items) : MoreItems → MoreItems
  | .ended =>
      match inner with
      | .empty => .trailing delimiter
      | .first item others => .more delimiter item others
  | .trailing other => .trailing other
  | .more other item others => .more other item (others.join delimiter inner)

section Join

variable {delimiters : List TokenKind} {delimiter : Token} {inner : Items}

theorem MoreItems.tokens_join {others : MoreItems} (untrailed : others.Untrailed) :
    (others.join delimiter inner).tokens = others.tokens ++ delimiter :: inner.tokens := by
  match others with
  | .ended => cases inner <;> rfl
  | .trailing _ => exact untrailed.elim
  | .more other item others =>
      have rest : others.Untrailed := untrailed
      simp only [join, tokens, tokens_join rest, List.cons_append, List.append_assoc]

theorem MoreItems.nodes_join (dialect : Dialect) {others : MoreItems}
    (untrailed : others.Untrailed) :
    (others.join delimiter inner).nodes dialect = others.nodes dialect ++ inner.nodes dialect := by
  match others with
  | .ended => cases inner <;> rfl
  | .trailing _ => exact untrailed.elim
  | .more other item others =>
      have rest : others.Untrailed := untrailed
      simp only [join, nodes, nodes_join dialect rest, List.cons_append]

theorem MoreItems.WellFormed.join {dialect : Dialect} (divides : Divides delimiters none)
    {others : MoreItems} (untrailed : others.Untrailed)
    (wellFormed : others.WellFormed dialect delimiters [])
    (divider : delimiter.kind ∈ delimiters)
    (innerWellFormed : inner.WellFormed dialect delimiters []) :
    (others.join delimiter inner).WellFormed dialect delimiters [] := by
  match others with
  | .ended =>
      cases inner with
      | empty => exact divider
      | first item others => exact ⟨divider, innerWellFormed⟩
  | .trailing _ => exact untrailed.elim
  | .more other item others =>
      obtain ⟨divides', itemWellFormed, wellFormed⟩ := wellFormed
      have rest : others.Untrailed := untrailed
      have joined := wellFormed.join divides rest divider innerWellFormed
      have ended := joined.atEnd divides closed_nil
      exact ⟨divides', itemWellFormed.weaken (continues_of_isAtEnd _ ended.ends), joined⟩

theorem MoreItems.WellFormed.untrailed {dialect : Dialect} {others : MoreItems}
    {following : List Token} (wellFormed : others.WellFormed dialect delimiters following)
    {front : List Token}
    (undelimited : ∀ last ∈ (front ++ others.tokens).getLast?, last.kind ∉ delimiters) :
    others.Untrailed := by
  match others with
  | .ended => trivial
  | .trailing delimiter =>
      have last : (front ++ [delimiter]).getLast? = some delimiter := List.getLast?_concat
      exact undelimited delimiter last wellFormed
  | .more delimiter item others =>
      obtain ⟨-, -, wellFormed⟩ := wellFormed
      have rest : others.Untrailed := by
        apply wellFormed.untrailed
        intro last among
        apply undelimited
        rw [tokens, ← List.cons_append, ← List.append_assoc]
        exact among
      exact rest

end Join

/-- The items of two lists, with a delimiter between them; an empty list takes no others. -/
def Items.join (items : Items) (delimiter : Token) (inner : Items) : Items :=
  match items with
  | .empty => .empty
  | .first item others => .first item (others.join delimiter inner)

/-- A program and another one behind it, with a delimiter between them, are one program. -/
theorem Items.Derives.join {program others : Items} {tokens tokens' : List Token}
    {delimiter : Token} (derives : program.Derives .standard tokens)
    (nonempty : program.nodes .standard ≠ [])
    (undelimited : ∀ last ∈ tokens.getLast?, last.kind ∉ Reading.bodyDelimiters)
    (divider : delimiter.kind ∈ Reading.bodyDelimiters)
    (derives' : others.Derives .standard tokens') :
    (program.join delimiter others).Derives .standard (tokens ++ delimiter :: tokens') ∧
      (program.join delimiter others).nodes .standard =
        program.nodes .standard ++ others.nodes .standard := by
  obtain ⟨rfl, wellFormed⟩ := derives
  obtain ⟨rfl, wellFormed'⟩ := derives'
  cases program with
  | empty => exact (nonempty rfl).elim
  | first item rest =>
      obtain ⟨itemWellFormed, restWellFormed⟩ := wellFormed
      have untrailed := restWellFormed.untrailed undelimited
      have joined := restWellFormed.join divides_program untrailed divider wellFormed'
      have ended := joined.atEnd divides_program closed_nil
      refine ⟨⟨?_, itemWellFormed.weaken (continues_of_isAtEnd _ ended.ends), joined⟩, ?_⟩
      · simp only [Items.join, Items.tokens, MoreItems.tokens_join untrailed, List.append_assoc]
      · simp only [Items.join, Items.nodes, MoreItems.nodes_join .standard untrailed,
          List.cons_append]

end Grammar

/-! ### Texts -/

open Grammar

theorem readProgram_append_semicolon {text text' : Text} {forms forms' : List Node}
    {file : Option Text}
    (reads : readProgram .standard file text = .ok { forms, diagnostics := [] })
    (nonempty : forms ≠ [])
    (undelimited : ∀ last ∈ (tokenize text).1.1.getLast?,
      last.kind ≠ .comma ∧ last.kind ≠ .semicolon)
    (reads' : readProgram .standard file text' = .ok { forms := forms', diagnostics := [] }) :
    readProgram .standard file (text ++ ';' :: text') =
      .ok { forms := forms ++
              forms'.map (·.relabel (.moving (Position.behind (text ++ [';']))))
            diagnostics := [] } := by
  obtain ⟨tokens, program, lexed, derives, rfl⟩ := exists_derives_of_readProgram reads
  obtain ⟨tokens', program', lexed', derives', rfl⟩ := exists_derives_of_readProgram reads'
  let labels : Relabeling := .moving (Position.behind (text ++ [';']))
  have fits' := allFit_of_tokenize lexed'
  have parsed' := parseTokens_moved labels.place (derives'.parseTokens_eq fits')
  have moved := derives_of_parseTokens (fits'.moved labels.place) parsed'
  rw [lexed] at undelimited
  let semicolon : Token := .ofMark .semicolon ';' (.after text)
  have divider : semicolon.kind ∈ Reading.bodyDelimiters := .tail _ (.head _)
  have undivided : ∀ last ∈ tokens.getLast?, last.kind ∉ Reading.bodyDelimiters := by
    intro last among
    simp only [Reading.bodyDelimiters, List.mem_cons, List.not_mem_nil, or_false, not_or]
    exact undelimited last among
  obtain ⟨joined, nodes⟩ := derives.join nonempty undivided divider moved
  have lexedAll := TokenStream.tokenize_append_mark (rfl : TokenKind.semicolon.mark? = some ';')
    lexed lexed'
  rw [readProgram_of_parse file (joined.parseProgram_eq lexedAll), nodes,
    program'.nodes_moved labels (derives'.tokens_eq ▸ fits')]

end MessageForms
