import MessageForms.Proofs.Grammar.Parts
import MessageForms.Proofs.Grammar.ValidPrefix

set_option autoImplicit false

/-! Where nodes stand. A node takes its place from one of its own tokens, in most cases from the
first. A message with a dot takes it from the name behind the dot: the dot and the selector in front
of the dot come earlier, and so does whatever starts with such a message. -/

namespace MessageForms

open TokenStream (tokenize)
open Grammar
open Node (Within within_self inside)

namespace Grammar

/-! ### The token in front -/

/-- Which of its tokens a node takes its place from: the name behind a dot that comes first, or
behind a selector and a dot, and else the first token. -/
def leadingIndex (span : List Token) : Nat :=
  if nextKind span = some .dot then 1
  else if nextKind span = some .symbol ∧ nextKind span.tail = some .dot then 2
  else 0

theorem leadingIndex_eq_zero_iff (span : List Token) :
    leadingIndex span = 0 ↔ nextKind span ≠ some .dot ∧
      (nextKind span = some .symbol → nextKind span.tail ≠ some .dot) := by
  unfold leadingIndex
  split
  · rename_i dotted
    exact ⟨nofun, fun apart => (apart.1 dotted).elim⟩
  · rename_i undotted
    split
    · rename_i sent
      exact ⟨nofun, fun apart => (apart.2 sent.1 sent.2).elim⟩
    · rename_i unsent
      exact ⟨fun _ => ⟨undotted, fun symbol dotted => unsent ⟨symbol, dotted⟩⟩, fun _ => rfl⟩

/-- The token that a node with these tokens takes its place from stands there. -/
def PlacedAt (span : List Token) (position : Position) : Prop :=
  span[leadingIndex span]?.map Token.position = some position

theorem placedAt_first {first : Token} (rest : List Token) (undotted : first.kind ≠ .dot)
    (unsent : first.kind = .symbol → nextKind rest ≠ some .dot) :
    PlacedAt (first :: rest) first.position := by
  have front : leadingIndex (first :: rest) = 0 := by
    unfold leadingIndex
    rw [if_neg, if_neg]
    · exact fun both => unsent (Option.some.inj both.1) both.2
    · exact fun dotted => undotted (Option.some.inj dotted)
  rw [PlacedAt, front]
  rfl

theorem placedAt_dot {dot : Token} (dotted : dot.kind = .dot) (name : Token) (rest : List Token) :
    PlacedAt (dot :: name :: rest) name.position := by
  have second : leadingIndex (dot :: name :: rest) = 1 := if_pos (congrArg some dotted)
  rw [PlacedAt, second]
  rfl

theorem placedAt_selector {name : Token} {tokens : List Token} {position : Position}
    (symbol : name.kind = .symbol) (dotted : nextKind tokens = some .dot)
    (placed : PlacedAt tokens position) : PlacedAt (name :: tokens) position := by
  have third : leadingIndex (name :: tokens) = 2 := by
    unfold leadingIndex
    rw [if_neg, if_pos ⟨congrArg some symbol, dotted⟩]
    intro impossible
    rw [nextKind, List.head?_cons, Option.map_some, symbol] at impossible
    cases impossible
  rw [PlacedAt, leadingIndex, if_pos dotted] at placed
  rw [PlacedAt, third]
  exact placed

/-! ### Trees -/

section Trees

theorem literal_position {token : Token} (fits : token.Fits) :
    (Dialect.standard.literal token).position = token.position := by
  unfold Dialect.literal
  split
  · rename_i number
    simp only [Token.Fits, number] at fits
    simp only [Dialect.standard, Dialect.numberAtom, Binary64.ofText?_of_digits fits]
    rfl
  · rfl

mutual

theorem Modifier.WellFormed.placedAt {modifier : Modifier} {following : List Token}
    (wellFormed : modifier.WellFormed .standard following) (fits : AllFit modifier.tokens) :
    PlacedAt (modifier.tokens ++ following) (modifier.node .standard).position := by
  match modifier with
  | .literal token =>
      have position := literal_position fits.head
      rw [Modifier.node, Node.position, position]
      apply placedAt_first
      · rcases wellFormed with number | string
        · rw [number]
          decide
        · rw [string]
          decide
      · intro symbol
        rcases wellFormed with number | string
        · rw [number] at symbol
          cases symbol
        · rw [string] at symbol
          cases symbol
  | .partialSend dot name arguments => exact placedAt_dot wellFormed.1 name _
  | .implicitSend name arguments =>
      apply placedAt_first
      · rw [wellFormed.1]
        decide
      · exact fun _ => wellFormed.2.2
  | .parenthesized opening inner closing | .braced opening inner closing =>
      apply placedAt_first
      · rw [wellFormed.1]
        decide
      · intro symbol
        rw [wellFormed.1] at symbol
        cases symbol
  | .dotSend name target =>
      obtain ⟨symbol, dotted, targetWellFormed⟩ := wellFormed
      have goesOn := (Expression.WellFormed.opens targetWellFormed).nextKind_append following
      exact placedAt_selector symbol (goesOn.trans dotted)
        (Expression.WellFormed.placedAt targetWellFormed fits.tail)

theorem Expression.WellFormed.placedAt {tree : Expression} {following : List Token}
    (wellFormed : tree.WellFormed .standard following) (fits : AllFit tree.tokens) :
    PlacedAt (tree.tokens ++ following) (tree.node .standard).position := by
  match tree with
  | .single modifier => exact Modifier.WellFormed.placedAt wellFormed fits
  | .operation left operator right =>
      have placed := Modifier.WellFormed.placedAt wellFormed.2.1 fits.left
      rw [Expression.tokens, List.append_assoc]
      exact placed
  | .form first others =>
      have placed := Modifier.WellFormed.placedAt wellFormed.2.1 fits.left
      rw [Expression.tokens, List.append_assoc]
      exact placed

end

def Part.IsPlaced (part : Part) : Prop :=
  PlacedAt part.span part.node.position

theorem isPlaced_selectorPart {name : Token} (symbol : name.kind = .symbol) :
    (selectorPart .standard name).IsPlaced := by
  apply placedAt_first
  · rw [symbol]
    decide
  · intro _ impossible
    cases impossible

theorem Modifier.WellFormed.isPlaced_part {modifier : Modifier} {following : List Token}
    (wellFormed : modifier.WellFormed .standard following) (fits : AllFit modifier.tokens) :
    (modifier.part .standard).IsPlaced := by
  have ends : Reading.isAtEnd (nextKind []) = true := rfl
  have placed := (wellFormed.weaken (continues_of_isAtEnd following ends)).placedAt fits
  rw [List.append_nil] at placed
  exact placed

theorem Expression.WellFormed.isPlaced_part {tree : Expression} {following : List Token}
    (wellFormed : tree.WellFormed .standard following) (fits : AllFit tree.tokens) :
    (tree.part .standard).IsPlaced := by
  have ends : Reading.isAtEnd (nextKind []) = true := rfl
  have placed := (wellFormed.weaken (continues_of_isAtEnd following ends)).placedAt fits
  rw [List.append_nil] at placed
  exact placed

mutual

theorem Modifier.WellFormed.isPlaced {modifier : Modifier} {following : List Token}
    (wellFormed : modifier.WellFormed .standard following) (fits : AllFit modifier.tokens) :
    ∀ part ∈ modifier.parts .standard, part.IsPlaced := by
  have own := wellFormed.isPlaced_part fits
  match modifier with
  | .literal token => exact List.forall_mem_singleton.mpr own
  | .partialSend dot name arguments =>
      refine List.forall_mem_cons.mpr ⟨own, List.forall_mem_cons.mpr ⟨?_, ?_⟩⟩
      · exact isPlaced_selectorPart wellFormed.2.1
      · exact Arguments.WellFormed.isPlaced wellFormed.2.2 fits.tail.tail
  | .implicitSend name arguments =>
      refine List.forall_mem_cons.mpr ⟨own, List.forall_mem_cons.mpr ⟨?_, ?_⟩⟩
      · exact isPlaced_selectorPart wellFormed.1
      · exact Arguments.WellFormed.isPlaced wellFormed.2.1 fits.tail
  | .parenthesized opening inner closing | .braced opening inner closing =>
      refine List.forall_mem_cons.mpr ⟨own, ?_⟩
      exact Items.WellFormed.isPlaced wellFormed.2.2 fits.tail.left
  | .dotSend name target =>
      refine List.forall_mem_cons.mpr ⟨own, List.forall_mem_cons.mpr ⟨?_, ?_⟩⟩
      · exact isPlaced_selectorPart wellFormed.1
      · exact Expression.WellFormed.isPlaced wellFormed.2.2 fits.tail

theorem Arguments.WellFormed.isPlaced {found : Arguments} {following : List Token}
    (wellFormed : found.WellFormed .standard following) (fits : AllFit found.tokens) :
    ∀ part ∈ found.parts .standard, part.IsPlaced := by
  match found with
  | .absent => exact nofun
  | .listed opening inner closing =>
      exact Items.WellFormed.isPlaced wellFormed.2.2 fits.tail.left

theorem Items.WellFormed.isPlaced {inner : Items} {delimiters : List TokenKind}
    {following : List Token} (wellFormed : inner.WellFormed .standard delimiters following)
    (fits : AllFit inner.tokens) : ∀ part ∈ inner.parts .standard, part.IsPlaced := by
  match inner with
  | .empty => exact nofun
  | .first item others =>
      refine List.forall_mem_append.mpr ⟨?_, ?_⟩
      · exact Expression.WellFormed.isPlaced wellFormed.1 fits.left
      · exact MoreItems.WellFormed.isPlaced wellFormed.2 fits.right

theorem MoreItems.WellFormed.isPlaced {others : MoreItems} {delimiters : List TokenKind}
    {following : List Token} (wellFormed : others.WellFormed .standard delimiters following)
    (fits : AllFit others.tokens) : ∀ part ∈ others.parts .standard, part.IsPlaced := by
  match others with
  | .ended => exact nofun
  | .trailing delimiter => exact nofun
  | .more delimiter item others =>
      refine List.forall_mem_append.mpr ⟨?_, ?_⟩
      · exact Expression.WellFormed.isPlaced wellFormed.2.1 fits.tail.left
      · exact MoreItems.WellFormed.isPlaced wellFormed.2.2 fits.tail.right

theorem Expression.WellFormed.isPlaced {tree : Expression} {following : List Token}
    (wellFormed : tree.WellFormed .standard following) (fits : AllFit tree.tokens) :
    ∀ part ∈ tree.parts .standard, part.IsPlaced := by
  have own := wellFormed.isPlaced_part fits
  match tree with
  | .single modifier => exact Modifier.WellFormed.isPlaced wellFormed fits
  | .operation left operator right =>
      obtain ⟨-, leftWellFormed, joins, rightWellFormed⟩ := wellFormed
      refine List.forall_mem_cons.mpr ⟨own, List.forall_mem_append.mpr ⟨?_, ?_⟩⟩
      · exact Modifier.WellFormed.isPlaced leftWellFormed fits.left
      · refine List.forall_mem_cons.mpr ⟨?_, ?_⟩
        · exact isPlaced_selectorPart (Dialect.standard_joinsSymbols operator joins)
        · exact Expression.WellFormed.isPlaced rightWellFormed fits.right.tail
  | .form first others =>
      obtain ⟨-, firstWellFormed, -, othersWellFormed⟩ := wellFormed
      refine List.forall_mem_cons.mpr ⟨own, List.forall_mem_append.mpr ⟨?_, ?_⟩⟩
      · exact Modifier.WellFormed.isPlaced firstWellFormed fits.left
      · exact Modifiers.WellFormed.isPlaced othersWellFormed fits.right

theorem Modifiers.WellFormed.isPlaced {others : Modifiers} {following : List Token}
    (wellFormed : others.WellFormed .standard following) (fits : AllFit others.tokens) :
    ∀ part ∈ others.parts .standard, part.IsPlaced := by
  match others with
  | .last modifier => exact Modifier.WellFormed.isPlaced wellFormed fits
  | .more modifier others =>
      obtain ⟨-, modifierWellFormed, othersWellFormed⟩ := wellFormed
      refine List.forall_mem_append.mpr ⟨?_, ?_⟩
      · exact Modifier.WellFormed.isPlaced modifierWellFormed fits.left
      · exact Modifiers.WellFormed.isPlaced othersWellFormed fits.right

end

end Trees

/-! ### Texts -/

theorem eq_of_position_eq {text : Text} {tokens : List Token} {ending : Option Fault}
    (lexed : (tokenize text).1 = (tokens, ending)) {index index' : Nat} {token token' : Token}
    (found : tokens[index]? = some token) (found' : tokens[index']? = some token')
    (same : token.position = token'.position) : index = index' := by
  obtain ⟨pieces, margin, rest, division, listed⟩ := TokenStream.exists_tokenize_eq text
  rw [lexed] at listed
  cases listed
  have upcoming {index : Nat} {token : Token} (found : (pieces.map Prod.snd)[index]? = some token) :
      index ≤ pieces.length ∧
        upcomingPosition text ((pieces.map Prod.snd).drop index) = token.position := by
    obtain ⟨bound, rfl⟩ := List.getElem?_eq_some_iff.mp found
    rw [List.drop_eq_getElem_cons bound]
    rw [List.length_map] at bound
    exact ⟨Nat.le_of_lt bound, rfl⟩
  apply division.anchor_injective (upcoming found).1 (upcoming found').1
  rw [List.nil_append, (upcoming found).2, (upcoming found').2, same]

theorem exists_leading_of_isPlaced {part : Part} (placed : part.IsPlaced) :
    ∃ first leading, part.span.head? = some first ∧
      part.span[leadingIndex part.span]? = some leading ∧
      part.node.position = leading.position := by
  obtain ⟨leading, found, same⟩ := Option.map_eq_some_iff.mp placed
  cases listed : part.span with
  | nil =>
      rw [listed] at found
      cases found
  | cons first others =>
      rw [listed] at found
      exact ⟨first, leading, rfl, found, same.symm⟩

/-- Among tokens that stand apart, only the first one stands at the place of the first. -/
theorem leadingIndex_eq_zero_iff_of_infix {text : Text} {tokens : List Token}
    {ending : Option Fault} (lexed : (tokenize text).1 = (tokens, ending)) {span : List Token}
    (among : span <:+: tokens) {first leading : Token} (head : span.head? = some first)
    (found : span[leadingIndex span]? = some leading) :
    leading.position = first.position ↔ leadingIndex span = 0 := by
  obtain ⟨front, back, rfl⟩ := among
  have shifted {index : Nat} {token : Token} (found : span[index]? = some token) :
      (front ++ span ++ back)[front.length + index]? = some token := by
    rw [List.append_assoc, List.getElem?_append_right (Nat.le_add_right _ _),
      Nat.add_sub_cancel_left]
    obtain ⟨bound, -⟩ := List.getElem?_eq_some_iff.mp found
    rw [List.getElem?_append_left bound]
    exact found
  rw [List.head?_eq_getElem?] at head
  constructor
  · intro same
    exact Nat.add_left_cancel (eq_of_position_eq lexed (shifted found) (shifted head) same)
  · intro zero
    rw [zero, head] at found
    rw [Option.some.inj found]

end Grammar

/-- Where the nodes of an accepted text stand. Every node of its forms, at any depth, was read from
tokens that follow one another, and takes its place from one of these. That is the first of them,
unless they start with a dot, or with a name and a dot; then it is the name behind the dot. -/
theorem readProgram_places_nodes {file : Option Text} {text : Text} {forms : List Node}
    (accepted : readProgram .standard file text = .ok { forms, diagnostics := [] }) :
    ∃ tokens program, (tokenize text).1 = (tokens, none) ∧
      Items.Derives .standard program tokens ∧ program.nodes .standard = forms ∧
      (∀ form ∈ forms, ∀ node, Within inside node form →
        ∃ part ∈ program.parts .standard, part.node = node) ∧
      ∀ part ∈ program.parts .standard, part.span <:+: tokens ∧
        ∃ first leading, part.span.head? = some first ∧
          part.span[leadingIndex part.span]? = some leading ∧
          part.node.position = leading.position ∧
          (part.node.position = first.position ↔ nextKind part.span ≠ some .dot ∧
            (nextKind part.span = some .symbol → nextKind part.span.tail ≠ some .dot)) := by
  obtain ⟨tokens, program, lexed, derives, rfl⟩ := exists_derives_of_readProgram accepted
  obtain ⟨rfl, wellFormed⟩ := derives
  refine ⟨_, program, lexed, ⟨rfl, wellFormed⟩, rfl, program.hasPart .standard, ?_⟩
  intro part among
  have spans := program.spans .standard part among
  have placed := Items.WellFormed.isPlaced wellFormed (allFit_of_tokenize lexed) part among
  obtain ⟨first, leading, head, found, same⟩ := exists_leading_of_isPlaced placed
  refine ⟨spans, first, leading, head, found, same, ?_⟩
  rw [same, leadingIndex_eq_zero_iff_of_infix lexed spans head found]
  exact leadingIndex_eq_zero_iff part.span

/-- In `a.b` the message to `.b` stands at `b`, as its receiver does. -/
theorem readProgram_places_nodes_send :
    ∃ form program, readProgram .standard none ['a', '.', 'b'] =
        .ok { forms := [form], diagnostics := [] } ∧
      Items.Derives .standard program (tokenize ['a', '.', 'b']).1.1 ∧
      ∃ part ∈ program.parts .standard, part.node = form ∧
        part.node.position = { row := 0, column := 2 } ∧
        ∃ leading, part.span[leadingIndex part.span]? = some leading ∧
          part.node.position = leading.position := by
  obtain ⟨form, accepted, place⟩ : ∃ form, readProgram .standard none ['a', '.', 'b'] =
      .ok { forms := [form], diagnostics := [] } ∧
        form.position = { row := 0, column := 2 } := ⟨_, rfl, rfl⟩
  obtain ⟨tokens, program, lexed, derives, -, parts, places⟩ := readProgram_places_nodes accepted
  obtain ⟨part, among, rfl⟩ := parts form List.mem_cons_self form (within_self inside form)
  obtain ⟨-, first, leading, -, found, same, -⟩ := places part among
  refine ⟨part.node, program, accepted, ?_, part, among, rfl, place, leading, found, same⟩
  rw [lexed]
  exact derives

/-- In `.a` a dot is the first token of the message, which stands one column further on. -/
theorem partialSend_not_at_first_token :
    ∃ program part first, readProgram .standard none ['.', 'a'] =
        .ok { forms := [part.node], diagnostics := [] } ∧
      Items.Derives .standard program (tokenize ['.', 'a']).1.1 ∧
      part ∈ program.parts .standard ∧ part.span = (tokenize ['.', 'a']).1.1 ∧
      part.span.head? = some first ∧ first.position = { row := 0, column := 0 } ∧
      part.node.position = { row := 0, column := 1 } := by
  let dot : Token := ⟨.dot, ['.'], ⟨0, 0⟩⟩
  let name : Token := ⟨.symbol, ['a'], ⟨0, 1⟩⟩
  let message : Modifier := .partialSend dot name .absent
  have lexed : (tokenize ['.', 'a']).1.1 = [dot, name] := by decide
  rw [lexed]
  refine ⟨.first (.single message) .ended, message.part .standard, dot, rfl, ⟨rfl, ?_⟩,
    List.mem_cons_self, rfl, rfl, rfl, rfl⟩
  exact ⟨⟨rfl, rfl, nofun⟩, trivial⟩

end MessageForms
