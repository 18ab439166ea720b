import MessageForms.Node.Equality
import MessageForms.Proofs.Grammar.Program
import MessageForms.Proofs.Rendering.Laid

set_option autoImplicit false

/-! What the grammar makes of a rendering. The signs of a well-shaped tree are derived, and the node
of the derivation is the tree up to positions. -/

namespace MessageForms

open Grammar
open Sign (mark)

/-! ### First signs -/

theorem nextKind_eq_of_sign {tokens : List Token} {signs : List Sign}
    (listed : tokens.map Token.sign = signs) : nextKind tokens = Sign.nextKind signs := by
  subst listed
  cases tokens with
  | nil => rfl
  | cons token tokens => rfl

theorem kind_of_sign_mark {token : Token} {kind : TokenKind} (same : token.sign = .mark kind) :
    token.kind = kind :=
  congrArg Sign.kind same

theorem Renders.ne_nil {node : Node} {signs after : List Sign} (renders : Renders node signs after)
    (unformed : node.isMacroForm = false) : signs ≠ [] := by
  cases renders with
  | operation receiver spells operand =>
      exact List.append_ne_nil_of_right_ne_nil _ (List.cons_ne_nil _ _)
  | form first rest => cases unformed
  | _ => exact List.cons_ne_nil _ _

theorem Renders.nextKind_of_startsWithDot {node : Node} {signs after : List Sign}
    (renders : Renders node signs after) (dotted : node.startsWithDot = true) :
    Sign.nextKind signs = some .dot := by
  have partialSend {target : Node} {signs after : List Sign} (renders : Renders target signs after)
      (isPartial : target.isPartialSend = true) (more : List Sign) :
      Sign.nextKind (signs ++ more) = some .dot := by
    cases renders with
    | partialSend spells listed => rfl
    | _ => cases isPartial
  cases renders with
  | partialSend spells listed => rfl
  | operation receiver spells operand => exact partialSend receiver dotted _
  | form first rest => exact partialSend first dotted _
  | _ => cases dotted

theorem Sign.Spells.isInfix_iff {sign : Sign} {selector : Atom} (spells : sign.Spells selector)
    {token : Token} (same : token.sign = sign) :
    Dialect.standard.isInfix token = true ↔ selector.IsInfix := by
  rcases spells with ⟨kind, written, named⟩
  subst same
  rw [Dialect.standard_isInfix_iff]
  constructor
  · intro claimed
    rcases claimed with ⟨-, noAssignment, operators⟩
    have run : Text.IsOperatorRun token.raw := by
      refine ⟨?_, operators⟩
      rcases written with ⟨first, tail, spelled, -, -⟩ | run
      · rw [show token.raw = first :: tail from spelled]
        exact List.cons_ne_nil first tail
      · exact run.1
    refine ⟨token.raw, ?_, run, noAssignment⟩
    rw [named]
    exact congrArg Literal.symbol (Text.symbolName_of_isOperatorRun run)
  · intro claimed
    rcases claimed with ⟨name, literal, run, noAssignment⟩
    rw [named] at literal
    cases literal
    obtain ⟨same, raw⟩ := Text.eq_of_symbolName_isOperatorRun written run
    rw [same] at noAssignment
    exact ⟨kind, noAssignment, raw.2⟩

theorem Sign.Denotes.kind {sign : Sign} {literal : Literal} (denotes : sign.Denotes literal) :
    sign.kind = .number ∨ sign.kind = .string := by
  cases denotes with
  | string unquoted => exact .inr rfl
  | number run known close => exact .inl rfl

/-- A modifier that does not start with an infix selector is not taken for an operator. -/
theorem Renders.isInfix_eq_false {node : Node} {signs after : List Sign}
    (renders : Renders node signs after)
    (simple : node.IsModifier)
    (apart : ¬ node.StartsWithInfix) {token : Token} {tokens : List Token}
    (listed : (token :: tokens).map Token.sign = signs) :
    Dialect.standard.isInfix token = false := by
  rw [Bool.eq_false_iff]
  intro joins
  have symbol := Dialect.standard_joinsSymbols token joins
  have unmarked {kind : TokenKind} (ends : kind ≠ .symbol) (same : token.sign = mark kind) :
      False := by
    rw [kind_of_sign_mark same] at symbol
    exact ends symbol
  cases renders with
  | @atom atom sign after denotes =>
      have same : token.sign = sign := (List.cons.inj listed).1
      subst same
      rcases denotes.kind with number | string
      · cases symbol.symm.trans number
      · cases symbol.symm.trans string
  | parenthesized items => exact unmarked TokenKind.noConfusion (List.cons.inj listed).1
  | braced items => exact unmarked TokenKind.noConfusion (List.cons.inj listed).1
  | partialSend spells arguments => exact unmarked TokenKind.noConfusion (List.cons.inj listed).1
  | implicitSend spells arguments undotted =>
      exact apart ((spells.isInfix_iff (List.cons.inj listed).1).mp joins)
  | dotSend spells receiver =>
      exact apart ((spells.isInfix_iff (List.cons.inj listed).1).mp joins)
  | operation receiver spells operand => cases simple.2
  | form first rest => cases simple.1

/-! ### Literals and selectors -/

/-- The comparison takes names and contents as they are and numbers by their value. -/
structure Literal.Faithful (equal : Literal → Literal → Bool) : Prop where
  symbol : ∀ name, equal (.symbol name) (.symbol name) = true
  string : ∀ content, equal (.string content) (.string content) = true
  number : ∀ left right, left.numericallyEqual right = true →
    equal (.number left) (.number right) = true

theorem Literal.faithful_same : Faithful same :=
  { symbol := fun name => beq_self_eq_true name
    string := fun content => beq_self_eq_true content
    number := fun _ _ equal => equal }

theorem Literal.faithful_alike : Faithful alike :=
  { symbol := fun name => beq_self_eq_true name
    string := fun content => beq_self_eq_true content
    number := fun _ _ equal => equal }

section Faithful

variable {equal : Literal → Literal → Bool} (faithful : Literal.Faithful equal)

include faithful

theorem Sign.Spells.equal_selector {token : Token} {selector : Atom}
    (spells : token.sign.Spells selector) :
    equal (Dialect.standard.selector token).literal selector.literal = true := by
  rw [spells.named]
  exact faithful.symbol (Text.symbolName token.raw)

theorem Sign.Denotes.equal_literal {token : Token} {literal : Literal}
    (denotes : token.sign.Denotes literal) :
    equal (Dialect.standard.literal token).literal literal = true := by
  generalize same : token.sign = sign at denotes
  cases denotes with
  | @string content unquoted =>
      have kind : token.kind = .string := congrArg Sign.kind same
      have raw : token.raw = content := congrArg Sign.raw same
      have read : Dialect.standard.literal token = ⟨.string token.raw, token.position⟩ := by
        rw [Dialect.literal, kind]
        rfl
      rw [read, raw]
      exact faithful.string content
  | @number digits value read run known close =>
      have kind : token.kind = .number := congrArg Sign.kind same
      have raw : token.raw = digits := congrArg Sign.raw same
      have understood : Dialect.standard.literal token = ⟨.number read, token.position⟩ := by
        rw [Dialect.literal, if_pos kind]
        change (Dialect.numberAtom token).toOption.getD default = _
        rw [Dialect.numberAtom, raw, known]
        rfl
      rw [understood]
      exact faithful.number read value close

end Faithful

/-! ### Derivations of renderings -/

section Written

variable {equal : Literal → Literal → Bool}

/-- The tokens are derived in front of those that follow, with a node that is equal to the given
one. A node that is written as one modifier comes from a single modifier. -/
def Node.Written (equal : Literal → Literal → Bool) (node : Node) (tokens following : List Token) :
    Prop :=
  ∃ tree : Expression, tree.tokens = tokens ∧ tree.WellFormed .standard following ∧
    (tree.node .standard).equalBy equal node = true ∧
    (node.IsModifier →
      ∃ modifier, tree = .single modifier ∧ (node.isDotSend = false → modifier.IsUnit))

theorem Node.written_of_modifier {node : Node} (modifier : Modifier) {following : List Token}
    (wellFormed : modifier.WellFormed .standard following)
    (same : (modifier.node .standard).equalBy equal node = true)
    (unit : node.isDotSend = false → modifier.IsUnit) :
    node.Written equal modifier.tokens following :=
  ⟨.single modifier, rfl, wellFormed, same, fun _ => ⟨modifier, rfl, unit⟩⟩

theorem Node.Written.exists_modifier {node : Node} {tokens following : List Token}
    (written : node.Written equal tokens following)
    (simple : node.IsModifier) :
    ∃ modifier : Modifier, modifier.tokens = tokens ∧ modifier.WellFormed .standard following ∧
      (modifier.node .standard).equalBy equal node = true ∧
      (node.isDotSend = false → modifier.IsUnit) := by
  rcases written with ⟨tree, listed, wellFormed, same, single⟩
  obtain ⟨modifier, rfl, unit⟩ := single simple
  exact ⟨modifier, listed, wellFormed, same, unit⟩

theorem exists_delimited {tokens : List Token} {opening closing : TokenKind} {signs : List Sign}
    (listed : tokens.map Token.sign = mark opening :: (signs ++ [mark closing])) :
    ∃ first inner last, tokens = first :: (inner ++ [last]) ∧ first.sign = mark opening ∧
      inner.map Token.sign = signs ∧ last.sign = mark closing := by
  obtain ⟨first, others, rfl, opens, remaining⟩ := List.map_eq_cons_iff.mp listed
  obtain ⟨inner, ending, rfl, inside, ended⟩ := List.map_eq_append_iff.mp remaining
  obtain ⟨last, rfl, closes⟩ := List.map_eq_singleton_iff.mp ended
  exact ⟨first, inner, last, rfl, opens, inside, closes⟩

theorem RendersModifiers.isInfix_eq_false {nodes : List Node} {signs after : List Sign}
    (renders : RendersModifiers nodes signs after)
    (simple : ∀ node ∈ nodes, node.IsModifier)
    (apart : ∀ node ∈ nodes.head?, ¬ node.StartsWithInfix) {tokens : List Token}
    (listed : tokens.map Token.sign = signs) :
    ∀ token ∈ tokens.head?, Dialect.standard.isInfix token = false := by
  intro token first
  cases tokens with
  | nil => cases first
  | cons head others =>
      cases first
      cases renders with
      | last modifier =>
          exact modifier.isInfix_eq_false (simple _ List.mem_cons_self) (apart _ rfl) listed
      | more modifier rest =>
          obtain ⟨front, back, divided, written, -⟩ := List.map_eq_append_iff.mp listed
          cases front with
          | nil =>
              have unformed := (simple _ List.mem_cons_self).1
              exact (modifier.ne_nil unformed written.symm).elim
          | cons start front =>
              cases divided
              exact modifier.isInfix_eq_false (simple _ List.mem_cons_self) (apart _ rfl) written

theorem RendersModifiers.ne_nil {nodes : List Node} {signs after : List Sign}
    (renders : RendersModifiers nodes signs after) : nodes ≠ [] := by
  cases renders with
  | last modifier => exact List.cons_ne_nil _ _
  | more modifier rest => exact List.cons_ne_nil _ _

theorem Node.isOperation_eq_false {node : Node} (untargeted : node.isTargetedSend = false) :
    node.isOperation = false ∧ node.isDotSend = false := by
  cases node with
  | targetedSend target selector arguments position => cases untargeted
  | _ => exact ⟨rfl, rfl⟩

theorem map_sign_append {front back : List Token} {signs more : List Sign}
    (first : front.map Token.sign = signs) (second : back.map Token.sign = more) :
    (front ++ back).map Token.sign = signs ++ more := by
  rw [List.map_append, first, second]

theorem map_sign_cons {token : Token} {tokens : List Token} {sign : Sign} {signs : List Sign}
    (first : token.sign = sign) (others : tokens.map Token.sign = signs) :
    (token :: tokens).map Token.sign = sign :: signs := by
  rw [List.map_cons, first, others]

theorem Node.written_operation {target argument : Node} {selector : Atom} {position : Position}
    {operator : Token} {front others following : List Token}
    (joins : Dialect.standard.isInfix operator = true)
    (selected : equal (Dialect.standard.selector operator).literal selector.literal = true)
    (untargeted : target.isTargetedSend = false) (unformed : target.isMacroForm = false)
    (receiver : target.Written equal front (operator :: (others ++ following)))
    (operand : argument.Written equal others following) :
    (Node.targetedSend target selector [argument] position).Written equal
      (front ++ operator :: others) following := by
  obtain ⟨right, rfl, rightFormed, rightSame, -⟩ := operand
  obtain ⟨unoperated, undotted⟩ := Node.isOperation_eq_false untargeted
  obtain ⟨left, rfl, leftFormed, leftSame, unit⟩ := receiver.exists_modifier ⟨unformed, unoperated⟩
  let tree := Expression.operation left operator right
  have formed : tree.WellFormed .standard following :=
    ⟨unit undotted, leftFormed, joins, rightFormed⟩
  refine ⟨tree, rfl, formed, ?_, fun simple => by cases simple.2⟩
  exact Bool.and_eq_true_iff.mpr ⟨Bool.and_eq_true_iff.mpr ⟨leftSame, selected⟩,
    Bool.and_eq_true_iff.mpr ⟨rightSame, rfl⟩⟩

theorem Node.written_form {node : Node} {nodes : List Node} {position : Position}
    {others : Modifiers} {front following : List Token} (simple : node.IsModifier)
    (closed : node.isDotSend = false)
    (apart : ∀ token ∈ others.tokens.head?, Dialect.standard.isInfix token = false)
    (first : node.Written equal front (others.tokens ++ following))
    (othersFormed : others.WellFormed .standard following)
    (othersSame : Node.allEqualBy equal (others.nodes .standard) nodes = true) :
    (Node.macroForm (node :: nodes) position).Written equal (front ++ others.tokens) following := by
  obtain ⟨head, rfl, headFormed, headSame, unit⟩ := first.exists_modifier simple
  let tree := Expression.form head others
  have formed : tree.WellFormed .standard following :=
    ⟨unit closed, headFormed, apart, othersFormed⟩
  refine ⟨tree, rfl, formed, ?_, fun simple => by cases simple.1⟩
  exact Bool.and_eq_true_iff.mpr ⟨headSame, othersSame⟩

-- The induction is on the renderings. The tokens that follow come along, since what is well formed
-- depends on them.
mutual

theorem Renders.written (faithful : Literal.Faithful equal) {node : Node} {signs after : List Sign}
    (renders : Renders node signs after) (shaped : node.WellShaped) {tokens following : List Token}
    (listed : tokens.map Token.sign = signs) (followed : following.map Token.sign = after) :
    node.Written equal tokens following := by
  match renders with
  | .atom denotes =>
      obtain ⟨token, rfl, rfl⟩ := List.map_eq_singleton_iff.mp listed
      have same := denotes.equal_literal faithful
      exact Node.written_of_modifier (.literal token) denotes.kind same fun _ => trivial
  | .parenthesized items =>
      obtain ⟨opening, middle, closing, rfl, opens, inside, closes⟩ := exists_delimited listed
      obtain ⟨tree, rfl, wellFormed, same⟩ :=
        items.written faithful shaped inside (map_sign_cons closes followed)
      let modifier := Modifier.parenthesized opening tree closing
      have formed : modifier.WellFormed .standard following :=
        ⟨kind_of_sign_mark opens, kind_of_sign_mark closes, wellFormed⟩
      exact Node.written_of_modifier modifier formed same fun _ => trivial
  | .braced items =>
      obtain ⟨opening, middle, closing, rfl, opens, inside, closes⟩ := exists_delimited listed
      obtain ⟨tree, rfl, wellFormed, same⟩ :=
        items.written faithful shaped inside (map_sign_cons closes followed)
      let modifier := Modifier.braced opening tree closing
      have formed : modifier.WellFormed .standard following :=
        ⟨kind_of_sign_mark opens, kind_of_sign_mark closes, wellFormed⟩
      exact Node.written_of_modifier modifier formed same fun _ => trivial
  | .partialSend spells arguments =>
      obtain ⟨dot, others, rfl, isDot, named⟩ := List.map_eq_cons_iff.mp listed
      obtain ⟨name, others, rfl, rfl, between⟩ := List.map_eq_cons_iff.mp named
      obtain ⟨tree, rfl, wellFormed, same⟩ := arguments.written faithful shaped.2 between followed
      let modifier := Modifier.partialSend dot name tree
      have formed : modifier.WellFormed .standard following :=
        ⟨kind_of_sign_mark isDot, spells.kind, wellFormed⟩
      have equal := Bool.and_eq_true_iff.mpr ⟨spells.equal_selector faithful, same⟩
      exact Node.written_of_modifier modifier formed equal fun _ => trivial
  | .implicitSend spells arguments undotted =>
      obtain ⟨name, others, rfl, rfl, between⟩ := List.map_eq_cons_iff.mp listed
      obtain ⟨tree, rfl, wellFormed, same⟩ := arguments.written faithful shaped.2 between followed
      let modifier := Modifier.implicitSend name tree
      have formed : modifier.WellFormed .standard following := by
        refine ⟨spells.kind, wellFormed, ?_⟩
        rw [nextKind_eq_of_sign (map_sign_append between followed)]
        exact undotted
      have equal := Bool.and_eq_true_iff.mpr ⟨spells.equal_selector faithful, same⟩
      exact Node.written_of_modifier modifier formed equal fun _ => trivial
  | .dotSend spells receiver =>
      obtain ⟨name, others, rfl, rfl, between⟩ := List.map_eq_cons_iff.mp listed
      rcases shaped with ⟨-, targeted, target, -⟩
      obtain ⟨tree, rfl, wellFormed, same, -⟩ := receiver.written faithful target between followed
      rcases targeted with ⟨one, -⟩ | ⟨-, dotted⟩
      · cases one
      · let modifier := Modifier.dotSend name tree
        have formed : modifier.WellFormed .standard following := by
          refine ⟨spells.kind, ?_, wellFormed⟩
          rw [nextKind_eq_of_sign between]
          exact receiver.nextKind_of_startsWithDot dotted
        have equal := Bool.and_eq_true_iff.mpr
          ⟨Bool.and_eq_true_iff.mpr ⟨same, spells.equal_selector faithful⟩, rfl⟩
        exact Node.written_of_modifier modifier formed equal fun apart => by cases apart
  | .operation receiver spells operand =>
      obtain ⟨front, back, rfl, before, remaining⟩ := List.map_eq_append_iff.mp listed
      -- the operator's sign is not replaced before the receiver, in front of it, is done with
      obtain ⟨operator, others, rfl, names, behind⟩ := List.map_eq_cons_iff.mp remaining
      obtain ⟨-, targeted, target, argument, -⟩ := shaped
      rcases targeted with ⟨-, isInfix, untargeted, unformed⟩ | ⟨several, -⟩
      · have right := operand.written faithful argument behind followed
        have left := receiver.written faithful target before
          (map_sign_cons names (map_sign_append behind followed))
        rw [← names] at spells
        have joins := (spells.isInfix_iff rfl).mpr isInfix
        have selected := spells.equal_selector faithful
        exact Node.written_operation joins selected untargeted unformed left right
      · cases several
  | .form first rest =>
      obtain ⟨front, back, rfl, before, behind⟩ := List.map_eq_append_iff.mp listed
      obtain ⟨⟨several, simple, closed, apart⟩, headShaped, othersShaped⟩ := shaped
      rw [List.dropLast_cons_of_ne_nil rest.ne_nil] at closed
      rw [List.getElem?_cons_succ, ← List.head?_eq_getElem?] at apart
      have othersSimple := fun node among => simple node (List.mem_cons_of_mem _ among)
      have othersClosed := fun node among => closed node (List.mem_cons_of_mem _ among)
      have second := rest.isInfix_eq_false othersSimple apart behind
      have head := first.written faithful headShaped before (map_sign_append behind followed)
      obtain ⟨others, rfl, formed, same⟩ :=
        rest.written faithful othersShaped othersSimple othersClosed behind followed
      exact Node.written_form (simple _ List.mem_cons_self) (closed _ List.mem_cons_self) second
        head formed same

theorem RendersArguments.written (faithful : Literal.Faithful equal) {arguments : List Node}
    {signs after : List Sign}
    (renders : RendersArguments arguments signs after) (shaped : Node.AllWellShaped arguments)
    {tokens following : List Token} (listed : tokens.map Token.sign = signs)
    (followed : following.map Token.sign = after) :
    ∃ tree : Arguments, tree.tokens = tokens ∧ tree.WellFormed .standard following ∧
      Node.allEqualBy equal (tree.nodes .standard) arguments = true := by
  match renders with
  | .bare unopened =>
      rw [List.map_eq_nil_iff] at listed
      subst listed
      refine ⟨.absent, rfl, ?_, rfl⟩
      rw [← nextKind_eq_of_sign followed] at unopened
      exact unopened
  | .listed items =>
      obtain ⟨opening, middle, closing, rfl, opens, inside, closes⟩ := exists_delimited listed
      obtain ⟨tree, rfl, wellFormed, same⟩ :=
        items.written faithful shaped inside (map_sign_cons closes followed)
      exact ⟨.listed opening tree closing, rfl,
        ⟨kind_of_sign_mark opens, kind_of_sign_mark closes, wellFormed⟩, same⟩

theorem RendersItems.written (faithful : Literal.Faithful equal) {delimiters : List TokenKind}
    {nodes : List Node} {signs after : List Sign}
    (renders : RendersItems delimiters nodes signs after)
    (shaped : Node.AllWellShaped nodes) {tokens following : List Token}
    (listed : tokens.map Token.sign = signs) (followed : following.map Token.sign = after) :
    ∃ tree : Items, tree.tokens = tokens ∧ tree.WellFormed .standard delimiters following ∧
      Node.allEqualBy equal (tree.nodes .standard) nodes = true := by
  match renders with
  | .empty =>
      rw [List.map_eq_nil_iff] at listed
      subst listed
      exact ⟨.empty, rfl, trivial, rfl⟩
  | .first item rest =>
      obtain ⟨front, back, rfl, before, behind⟩ := List.map_eq_append_iff.mp listed
      obtain ⟨others, rfl, othersFormed, othersSame⟩ :=
        rest.written faithful shaped.2 behind followed
      obtain ⟨tree, rfl, wellFormed, same, -⟩ :=
        item.written faithful shaped.1 before (map_sign_append behind followed)
      exact ⟨.first tree others, rfl, ⟨wellFormed, othersFormed⟩,
        Bool.and_eq_true_iff.mpr ⟨same, othersSame⟩⟩

theorem RendersMore.written (faithful : Literal.Faithful equal) {delimiters : List TokenKind}
    {nodes : List Node} {signs after : List Sign}
    (renders : RendersMore delimiters nodes signs after)
    (shaped : Node.AllWellShaped nodes) {tokens following : List Token}
    (listed : tokens.map Token.sign = signs) (followed : following.map Token.sign = after) :
    ∃ tree : MoreItems, tree.tokens = tokens ∧ tree.WellFormed .standard delimiters following ∧
      Node.allEqualBy equal (tree.nodes .standard) nodes = true := by
  match renders with
  | .ended =>
      rw [List.map_eq_nil_iff] at listed
      subst listed
      exact ⟨.ended, rfl, trivial, rfl⟩
  | .trailing divides =>
      obtain ⟨delimiter, rfl, marks⟩ := List.map_eq_singleton_iff.mp listed
      rw [← kind_of_sign_mark marks] at divides
      exact ⟨.trailing delimiter, rfl, divides, rfl⟩
  | .more divides item rest =>
      obtain ⟨delimiter, remaining, rfl, marks, between⟩ := List.map_eq_cons_iff.mp listed
      obtain ⟨front, back, rfl, before, behind⟩ := List.map_eq_append_iff.mp between
      rw [← kind_of_sign_mark marks] at divides
      obtain ⟨others, rfl, othersFormed, othersSame⟩ :=
        rest.written faithful shaped.2 behind followed
      obtain ⟨tree, rfl, wellFormed, same, -⟩ :=
        item.written faithful shaped.1 before (map_sign_append behind followed)
      exact ⟨.more delimiter tree others, rfl, ⟨divides, wellFormed, othersFormed⟩,
        Bool.and_eq_true_iff.mpr ⟨same, othersSame⟩⟩

theorem RendersModifiers.written (faithful : Literal.Faithful equal) {nodes : List Node}
    {signs after : List Sign}
    (renders : RendersModifiers nodes signs after) (shaped : Node.AllWellShaped nodes)
    (simple : ∀ node ∈ nodes, node.IsModifier)
    (closed : ∀ node ∈ nodes.dropLast, node.isDotSend = false) {tokens following : List Token}
    (listed : tokens.map Token.sign = signs) (followed : following.map Token.sign = after) :
    ∃ tree : Modifiers, tree.tokens = tokens ∧ tree.WellFormed .standard following ∧
      Node.allEqualBy equal (tree.nodes .standard) nodes = true := by
  match renders with
  | .last modifier =>
      have written := modifier.written faithful shaped.1 listed followed
      obtain ⟨tree, rfl, wellFormed, same, -⟩ :=
        written.exists_modifier (simple _ List.mem_cons_self)
      exact ⟨.last tree, rfl, wellFormed, Bool.and_eq_true_iff.mpr ⟨same, rfl⟩⟩
  | .more modifier rest =>
      obtain ⟨front, back, rfl, before, behind⟩ := List.map_eq_append_iff.mp listed
      rw [List.dropLast_cons_of_ne_nil rest.ne_nil] at closed
      have written := modifier.written faithful shaped.1 before (map_sign_append behind followed)
      obtain ⟨tree, rfl, wellFormed, same, unit⟩ :=
        written.exists_modifier (simple _ List.mem_cons_self)
      obtain ⟨others, rfl, othersFormed, othersSame⟩ := rest.written faithful shaped.2
        (fun node among => simple node (List.mem_cons_of_mem _ among))
        (fun node among => closed node (List.mem_cons_of_mem _ among)) behind followed
      exact ⟨.more tree others, rfl, ⟨unit (closed _ List.mem_cons_self), wellFormed, othersFormed⟩,
        Bool.and_eq_true_iff.mpr ⟨same, othersSame⟩⟩

end

end Written

end MessageForms
