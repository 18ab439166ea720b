import MessageForms.Proofs.Grammar.Plain
import MessageForms.Proofs.Grammar.Understood
import MessageForms.Proofs.Reading.Progress
import MessageForms.Proofs.Rendering.Shape

set_option autoImplicit false

/-! The shape of what is read, in any dialect whose infix tokens are symbols. A message with a
receiver behind its selector and a dot takes all that is left of the expression; so it can only be
the last of several modifiers, and no arguments are left for it. An infix operator takes the rest of
the expression as well, and is looked for behind the first modifier only. Symbols become selectors
and nothing else. -/

namespace MessageForms

open TokenStream (tokenize)
open Node (Within children)

namespace Dialect

section Atoms

variable (dialect : Dialect) (tokens : List Token)

/-- The dialect made the atom of one of the tokens, which is a symbol. -/
def MakesSelector (atom : Atom) : Prop :=
  ∃ token ∈ tokens, token.kind = .symbol ∧ dialect.symbol token = .ok atom

def MakesOperator (atom : Atom) : Prop :=
  ∃ token ∈ tokens, dialect.isInfix token = true ∧ dialect.symbol token = .ok atom

def MakesLiteral (atom : Atom) : Prop :=
  ∃ token ∈ tokens, (token.kind = .number ∧ dialect.number token = .ok atom) ∨
    (token.kind = .string ∧ dialect.string token = .ok atom)

end Atoms

variable {dialect : Dialect} {tokens : List Token} {token : Token}

theorem UnderstandsSelector.symbol_eq (known : dialect.UnderstandsSelector token) :
    dialect.symbol token = .ok (dialect.selector token) := by
  obtain ⟨atom, made⟩ := known
  rw [selector, made]
  rfl

theorem UnderstandsSelector.makesSelector (known : dialect.UnderstandsSelector token)
    (symbol : token.kind = .symbol) (among : token ∈ tokens) :
    dialect.MakesSelector tokens (dialect.selector token) :=
  ⟨token, among, symbol, known.symbol_eq⟩

theorem UnderstandsLiteral.makesLiteral (known : dialect.UnderstandsLiteral token)
    (among : token ∈ tokens) : dialect.MakesLiteral tokens (dialect.literal token) := by
  refine ⟨token, among, ?_⟩
  rcases known with ⟨number, atom, made⟩ | ⟨string, atom, made⟩
  · refine .inl ⟨number, ?_⟩
    rw [literal, if_pos number, made]
    rfl
  · have other : token.kind ≠ .number := by
      rw [string]
      decide
    refine .inr ⟨string, ?_⟩
    rw [literal, if_neg other, made]
    rfl

end Dialect

namespace Node

/-- The modifiers of a macro form that was read: two at least, none of them a macro form or an infix
message, and none but the last a message with a receiver. -/
structure FormShape (modifiers : List Node) : Prop where
  several : 2 ≤ modifiers.length
  simple : ∀ modifier ∈ modifiers, modifier.IsModifier
  first : ∀ modifier ∈ modifiers.head?, modifier.isTargetedSend = false
  others : ∀ modifier ∈ modifiers.dropLast, modifier.isTargetedSend = false

/-- The receiver, selector and arguments of a message with a receiver that was read. -/
inductive SendShape (dialect : Dialect) (tokens : List Token) (target : Node) (selector : Atom) :
    List Node → Prop where
  /-- An infix message has one argument, and its receiver is a single modifier. -/
  | infixed (argument : Node) (operator : dialect.MakesOperator tokens selector)
      (noSend : target.isTargetedSend = false) (noForm : target.isMacroForm = false) :
      SendShape dialect tokens target selector [argument]
  /-- A message to what starts with a dot has no arguments. -/
  | dotted (starts : target.startsWithDot = true) : SendShape dialect tokens target selector []

/-- What is known of a node that was read from the tokens, apart from the nodes in it. -/
def ReadShape (dialect : Dialect) (tokens : List Token) : Node → Prop
  | .atom value => dialect.MakesLiteral tokens value
  | .macroForm modifiers _ => FormShape modifiers
  | .parenthesized _ _ | .braced _ _ => True
  | .implicitSend selector _ _ | .partialSend selector _ _ => dialect.MakesSelector tokens selector
  | .targetedSend target selector arguments _ =>
      dialect.MakesSelector tokens selector ∧ SendShape dialect tokens target selector arguments
  | .classDefinition _ _ _ _ _ _ _ | .methodDefinition _ _ _ _ _ _
  | .lexicalVariable _ _ _ _ _ _ => False

/-- The node and all nodes in it, at any depth, have that shape. -/
def IsReadShaped (dialect : Dialect) (tokens : List Token) (node : Node) : Prop :=
  ∀ inner, Within children inner node → inner.ReadShape dialect tokens

theorem isReadShaped_of_children {dialect : Dialect} {tokens : List Token} {node : Node}
    (own : node.ReadShape dialect tokens)
    (reached : ∀ child ∈ node.reached, child.IsReadShaped dialect tokens)
    (passed : ∀ child ∈ node.passed, child.IsReadShaped dialect tokens) :
    node.IsReadShaped dialect tokens := by
  intro inner within
  rcases within.cases with rfl | ⟨child, among, further⟩
  · exact own
  · rcases List.mem_append.mp among with isReached | isPassed
    · exact reached child isReached inner further
    · exact passed child isPassed inner further

end Node

namespace Grammar

/-! ### Single nodes -/

section Nodes

variable {dialect : Dialect} {following : List Token}

theorem Modifier.node_isModifier (modifier : Modifier) : (modifier.node dialect).IsModifier := by
  cases modifier <;> exact ⟨rfl, rfl⟩

theorem Modifier.IsUnit.node_isTargetedSend {modifier : Modifier} (unit : modifier.IsUnit) :
    (modifier.node dialect).isTargetedSend = false := by
  cases modifier with
  | dotSend name target => exact unit.elim
  | _ => rfl

theorem Modifier.WellFormed.node_isPartialSend {modifier : Modifier}
    (wellFormed : modifier.WellFormed dialect following)
    (dotted : nextKind modifier.tokens = some .dot) :
    (modifier.node dialect).isPartialSend = true := by
  have isDot {token : Token} {others : List Token}
      (first : nextKind (token :: others) = some .dot) : token.kind = .dot :=
    Option.some.inj first
  cases modifier with
  | partialSend dot name arguments => rfl
  | literal token =>
      rcases wellFormed with number | string
      · rw [isDot dotted] at number
        cases number
      · rw [isDot dotted] at string
        cases string
  | implicitSend name arguments | parenthesized opening inner closing
  | braced opening inner closing | dotSend name target =>
      have other := wellFormed.1
      rw [isDot dotted] at other
      cases other

theorem Expression.WellFormed.startsWithDot {tree : Expression}
    (wellFormed : tree.WellFormed dialect following)
    (dotted : nextKind tree.tokens = some .dot) : (tree.node dialect).startsWithDot = true := by
  cases tree with
  | single modifier =>
      have partialFirst := Modifier.WellFormed.node_isPartialSend wellFormed dotted
      rw [Expression.node]
      cases made : modifier.node dialect <;> rw [made] at partialFirst <;> cases partialFirst
      rfl
  | operation left operator right =>
      have opens := Modifier.WellFormed.opens wellFormed.2.1
      rw [Expression.tokens, opens.nextKind_append] at dotted
      exact Modifier.WellFormed.node_isPartialSend wellFormed.2.1 dotted
  | form first others =>
      have opens := Modifier.WellFormed.opens wellFormed.2.1
      rw [Expression.tokens, opens.nextKind_append] at dotted
      exact Modifier.WellFormed.node_isPartialSend wellFormed.2.1 dotted

theorem Modifiers.nodes_ne_nil (modifiers : Modifiers) : modifiers.nodes dialect ≠ [] := by
  cases modifiers <;> exact List.cons_ne_nil _ _

theorem Modifiers.nodes_isModifier (modifiers : Modifiers) :
    ∀ node ∈ modifiers.nodes dialect, node.IsModifier := by
  cases modifiers with
  | last modifier => exact List.forall_mem_singleton.mpr modifier.node_isModifier
  | more modifier others =>
      exact List.forall_mem_cons.mpr ⟨modifier.node_isModifier, others.nodes_isModifier⟩

theorem Modifiers.WellFormed.dropLast_isTargetedSend {modifiers : Modifiers}
    (wellFormed : modifiers.WellFormed dialect following) :
    ∀ node ∈ (modifiers.nodes dialect).dropLast, node.isTargetedSend = false := by
  cases modifiers with
  | last modifier => exact List.forall_mem_nil _
  | more modifier others =>
      obtain ⟨unit, -, more⟩ := wellFormed
      rw [Modifiers.nodes, List.dropLast_cons_of_ne_nil others.nodes_ne_nil]
      exact List.forall_mem_cons.mpr
        ⟨unit.node_isTargetedSend, Modifiers.WellFormed.dropLast_isTargetedSend more⟩

theorem formShape {first : Modifier} {others : Modifiers} (unit : first.IsUnit)
    (wellFormed : others.WellFormed dialect following) :
    Node.FormShape (first.node dialect :: others.nodes dialect) where
  several := by
    have positive : 0 < (others.nodes dialect).length := List.length_pos_iff.mpr others.nodes_ne_nil
    rw [List.length_cons]
    omega
  simple := List.forall_mem_cons.mpr ⟨first.node_isModifier, others.nodes_isModifier⟩
  first := by
    rintro modifier ⟨rfl⟩
    exact unit.node_isTargetedSend
  others := by
    rw [List.dropLast_cons_of_ne_nil others.nodes_ne_nil]
    exact List.forall_mem_cons.mpr ⟨unit.node_isTargetedSend, wellFormed.dropLast_isTargetedSend⟩

end Nodes

/-! ### Trees -/

section Trees

variable {dialect : Dialect} {all : List Token}

mutual

theorem Modifier.WellFormed.isReadShaped {modifier : Modifier} {following : List Token}
    (symbols : dialect.JoinsSymbols) (wellFormed : modifier.WellFormed dialect following)
    (understood : modifier.Understood dialect) (among : modifier.tokens ⊆ all) :
    (modifier.node dialect).IsReadShaped dialect all := by
  match modifier with
  | .literal token =>
      have own := Dialect.UnderstandsLiteral.makesLiteral understood (among List.mem_cons_self)
      exact Node.isReadShaped_of_children own nofun nofun
  | .partialSend dot name arguments =>
      rw [Modifier.tokens, List.cons_subset, List.cons_subset] at among
      have own := understood.1.makesSelector wellFormed.2.1 among.2.1
      exact Node.isReadShaped_of_children own nofun
        (Arguments.WellFormed.isReadShaped symbols wellFormed.2.2 understood.2 among.2.2)
  | .implicitSend name arguments =>
      rw [Modifier.tokens, List.cons_subset] at among
      have own := understood.1.makesSelector wellFormed.1 among.1
      exact Node.isReadShaped_of_children own nofun
        (Arguments.WellFormed.isReadShaped symbols wellFormed.2.1 understood.2 among.2)
  | .parenthesized opening inner closing | .braced opening inner closing =>
      rw [Modifier.tokens, List.cons_subset, List.append_subset] at among
      refine Node.isReadShaped_of_children trivial ?_ nofun
      exact Items.WellFormed.isReadShaped symbols wellFormed.2.2 understood among.2.1
  | .dotSend name target =>
      rw [Modifier.tokens, List.cons_subset] at among
      obtain ⟨symbol, dotted, targetWellFormed⟩ := wellFormed
      have own := understood.1.makesSelector symbol among.1
      have starts := Expression.WellFormed.startsWithDot targetWellFormed dotted
      refine Node.isReadShaped_of_children ⟨own, .dotted starts⟩ nofun ?_
      refine List.forall_mem_cons.mpr ⟨?_, nofun⟩
      exact Expression.WellFormed.isReadShaped symbols targetWellFormed understood.2 among.2

theorem Arguments.WellFormed.isReadShaped {arguments : Arguments} {following : List Token}
    (symbols : dialect.JoinsSymbols) (wellFormed : arguments.WellFormed dialect following)
    (understood : arguments.Understood dialect) (among : arguments.tokens ⊆ all) :
    ∀ node ∈ arguments.nodes dialect, node.IsReadShaped dialect all := by
  match arguments with
  | .absent => exact nofun
  | .listed opening inner closing =>
      rw [Arguments.tokens, List.cons_subset, List.append_subset] at among
      exact Items.WellFormed.isReadShaped symbols wellFormed.2.2 understood among.2.1

theorem Items.WellFormed.isReadShaped {items : Items} {delimiters : List TokenKind}
    {following : List Token}
    (symbols : dialect.JoinsSymbols) (wellFormed : items.WellFormed dialect delimiters following)
    (understood : items.Understood dialect) (among : items.tokens ⊆ all) :
    ∀ node ∈ items.nodes dialect, node.IsReadShaped dialect all := by
  match items with
  | .empty => exact nofun
  | .first item others =>
      rw [Items.tokens, List.append_subset] at among
      refine List.forall_mem_cons.mpr ⟨?_, ?_⟩
      · exact Expression.WellFormed.isReadShaped symbols wellFormed.1 understood.1 among.1
      · exact MoreItems.WellFormed.isReadShaped symbols wellFormed.2 understood.2 among.2

theorem MoreItems.WellFormed.isReadShaped {items : MoreItems} {delimiters : List TokenKind}
    {following : List Token}
    (symbols : dialect.JoinsSymbols) (wellFormed : items.WellFormed dialect delimiters following)
    (understood : items.Understood dialect) (among : items.tokens ⊆ all) :
    ∀ node ∈ items.nodes dialect, node.IsReadShaped dialect all := by
  match items with
  | .ended => exact nofun
  | .trailing delimiter => exact nofun
  | .more delimiter item others =>
      rw [MoreItems.tokens, List.cons_subset, List.append_subset] at among
      refine List.forall_mem_cons.mpr ⟨?_, ?_⟩
      · exact Expression.WellFormed.isReadShaped symbols wellFormed.2.1 understood.1 among.2.1
      · exact MoreItems.WellFormed.isReadShaped symbols wellFormed.2.2 understood.2 among.2.2

theorem Expression.WellFormed.isReadShaped {tree : Expression} {following : List Token}
    (symbols : dialect.JoinsSymbols) (wellFormed : tree.WellFormed dialect following)
    (understood : tree.Understood dialect) (among : tree.tokens ⊆ all) :
    (tree.node dialect).IsReadShaped dialect all := by
  match tree with
  | .single modifier => exact Modifier.WellFormed.isReadShaped symbols wellFormed understood among
  | .operation left operator right =>
      rw [Expression.tokens, List.append_subset, List.cons_subset] at among
      obtain ⟨unit, leftWellFormed, joins, rightWellFormed⟩ := wellFormed
      obtain ⟨leftKnown, known, rightKnown⟩ := understood
      have own := known.makesSelector (symbols operator joins) among.2.1
      have made : dialect.MakesOperator all (dialect.selector operator) :=
        ⟨operator, among.2.1, joins, known.symbol_eq⟩
      refine Node.isReadShaped_of_children
        ⟨own, .infixed _ made unit.node_isTargetedSend left.node_isModifier.1⟩ nofun ?_
      refine List.forall_mem_cons.mpr ⟨?_, List.forall_mem_singleton.mpr ?_⟩
      · exact Modifier.WellFormed.isReadShaped symbols leftWellFormed leftKnown among.1
      · exact Expression.WellFormed.isReadShaped symbols rightWellFormed rightKnown among.2.2
  | .form first others =>
      rw [Expression.tokens, List.append_subset] at among
      obtain ⟨unit, firstWellFormed, -, othersWellFormed⟩ := wellFormed
      refine Node.isReadShaped_of_children (formShape unit othersWellFormed) ?_ nofun
      refine List.forall_mem_cons.mpr ⟨?_, ?_⟩
      · exact Modifier.WellFormed.isReadShaped symbols firstWellFormed understood.1 among.1
      · exact Modifiers.WellFormed.isReadShaped symbols othersWellFormed understood.2 among.2

theorem Modifiers.WellFormed.isReadShaped {modifiers : Modifiers} {following : List Token}
    (symbols : dialect.JoinsSymbols) (wellFormed : modifiers.WellFormed dialect following)
    (understood : modifiers.Understood dialect) (among : modifiers.tokens ⊆ all) :
    ∀ node ∈ modifiers.nodes dialect, node.IsReadShaped dialect all := by
  match modifiers with
  | .last modifier =>
      refine List.forall_mem_singleton.mpr ?_
      exact Modifier.WellFormed.isReadShaped symbols wellFormed understood among
  | .more modifier others =>
      rw [Modifiers.tokens, List.append_subset] at among
      obtain ⟨-, modifierWellFormed, othersWellFormed⟩ := wellFormed
      refine List.forall_mem_cons.mpr ⟨?_, ?_⟩
      · exact Modifier.WellFormed.isReadShaped symbols modifierWellFormed understood.1 among.1
      · exact Modifiers.WellFormed.isReadShaped symbols othersWellFormed understood.2 among.2

end

end Trees

end Grammar

open Grammar

/-! ### Texts -/

section Texts

variable {dialect : Dialect} {text : Text}

theorem readText_isReadShaped (symbols : dialect.JoinsSymbols) {node : Node}
    (reads : readText dialect text = .ok node) :
    node.IsReadShaped dialect (tokenize text).1.1 := by
  obtain ⟨tree, rest, parsed, rfl⟩ := exists_parse_of_readText reads
  obtain ⟨whole, wellFormed, -⟩ := Predictive.expressionWithin_sound symbols _ _ _ _ parsed
  have understood := Predictive.gives_expressionWithin _ dialect _ _ _ _ parsed
  apply wellFormed.isReadShaped symbols understood
  rw [whole]
  exact List.subset_append_left _ _

theorem readProgram_isReadShaped (symbols : dialect.JoinsSymbols) {file : Option Text}
    {program : Program} (reads : readProgram dialect file text = .ok program) :
    ∀ form ∈ program.forms, form.IsReadShaped dialect (tokenize text).1.1 := by
  intro form among
  obtain ⟨tree, rest, parsed, nodes⟩ := exists_parse_of_form reads among
  obtain ⟨whole, wellFormed, -⟩ :=
    Predictive.items_sound (Predictive.expressionWithin_sound symbols _) parsed
  have understood :=
    Predictive.gives_items (Predictive.gives_expressionWithin _ dialect _) _ _ _ parsed
  rw [← nodes] at among
  refine wellFormed.isReadShaped symbols understood ?_ form among
  rw [whole]
  exact List.subset_append_left _ _

end Texts

/-- Where an expression ends, no arguments are found, and nothing is passed over. -/
theorem messageArguments_of_isEnded {stream : TokenStream} (ended : Reading.IsEnded stream)
    (expression : Reading Node) (allowance : Nat) :
    Reading.messageArguments expression allowance stream = .ok [] stream := by
  obtain ⟨ends, finished⟩ := ended
  rcases stream with ⟨behind, ahead, cursor⟩
  cases ahead with
  | nil =>
      rcases cursor with ⟨consumed, rest, row, column⟩
      cases finished rfl
      rfl
  | cons token others =>
      have other : some token.kind ≠ some .openParen := by
        intro opens
        rw [List.head?_cons, Option.map_some, opens] at ends
        cases ends
      have looked : TokenStream.peekKind ⟨behind, token :: others, cursor⟩ =
          .ok (some token.kind) ⟨behind, token :: others, cursor⟩ := rfl
      rw [Reading.messageArguments, bind_of_ok looked, if_neg other]
      rfl

/-- All that is read of a text, as an expression or as a program, has the shape of what is read, at
every depth. When the receiver behind a selector and its dot has been read, or any other expression,
no arguments are found behind it. -/
theorem reading_shapes_nodes {dialect : Dialect} (symbols : dialect.JoinsSymbols) (text : Text) :
    (∀ node, readText dialect text = .ok node → ∀ inner, Within children inner node →
      inner.ReadShape dialect (tokenize text).1.1) ∧
    (∀ file program, readProgram dialect file text = .ok program → ∀ form ∈ program.forms,
      ∀ inner, Within children inner form → inner.ReadShape dialect (tokenize text).1.1) ∧
    ∀ allowance stream target after,
      Reading.expressionWithin dialect allowance stream = .ok target after →
      ∀ (expression : Reading Node) (allowance' : Nat),
        Reading.messageArguments expression allowance' after = .ok [] after := by
  refine ⟨fun node reads => readText_isReadShaped symbols reads,
    fun file program reads => readProgram_isReadShaped symbols reads, ?_⟩
  intro allowance stream target after read expression allowance'
  have passes : Reading.Passes True (Reading.expressionWithin dialect allowance)
      (Reading.expressionWithin dialect allowance) stream :=
    Reading.passes_expressionWithin (fun _ => trivial) (.inr ⟨rfl, trivial⟩)
  exact messageArguments_of_isEnded (passes.holds target after read).2 expression allowance'

/-- In `a f.g+h` the name `a` stands in front of a message to `.g+h`. -/
theorem reading_shapes_nodes_form :
    ∃ modifiers position,
      readText .standard "a f.g+h".toList = .ok (.macroForm modifiers position) ∧
        Node.FormShape modifiers := by
  let name (character : Char) (column : Nat) : Token := ⟨.symbol, [character], ⟨0, column⟩⟩
  let target : Expression := .operation
    (.partialSend ⟨.dot, ['.'], ⟨0, 3⟩⟩ (name 'g' 4) .absent) (name '+' 5)
    (.single (.implicitSend (name 'h' 6) .absent))
  let tree : Expression :=
    .form (.implicitSend (name 'a' 0) .absent) (.last (.dotSend (name 'f' 2) target))
  have lexed : (tokenize "a f.g+h".toList).1 = (tree.tokens, none) := by decide
  have targetWellFormed : target.WellFormed .standard [] :=
    ⟨trivial, ⟨rfl, rfl, nofun⟩, rfl, rfl, nofun, nofun⟩
  have wellFormed : tree.WellFormed .standard [] := by
    refine ⟨trivial, ⟨rfl, nofun, nofun⟩, ?_, rfl, rfl, targetWellFormed⟩
    rintro token ⟨rfl⟩
    rfl
  have reads := wellFormed.readText_eq lexed
  have shaped := (reading_shapes_nodes Dialect.standard_joinsSymbols _).1 _ reads
  exact ⟨_, _, reads, shaped _ (Node.within_self children _)⟩

end MessageForms
