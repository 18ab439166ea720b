import MessageForms.Proofs.Grammar.Completeness
import MessageForms.Proofs.Grammar.Following
import MessageForms.Proofs.Token.Lexeme

set_option autoImplicit false

/-! Beginnings of trees. Tokens complete to a tree of some sort if others, which some text can have,
can be put behind them so that all of them are those of a well-formed tree. Each way to be in the
middle of a tree gives one statement: a list is closed, an operator gets a name for its right side,
and a name in front of a dot that goes nowhere stands for itself. -/

namespace MessageForms.Grammar

def AllFit (tokens : List Token) : Prop :=
  ∀ token ∈ tokens, token.Fits

theorem allFit_nil : AllFit [] := List.forall_mem_nil _

theorem AllFit.append {tokens others : List Token} (fits : AllFit tokens) (fits' : AllFit others) :
    AllFit (tokens ++ others) :=
  List.forall_mem_append.mpr ⟨fits, fits'⟩

theorem AllFit.head {token : Token} {tokens : List Token} (fits : AllFit (token :: tokens)) :
    token.Fits :=
  fits token List.mem_cons_self

theorem AllFit.tail {token : Token} {tokens : List Token} (fits : AllFit (token :: tokens)) :
    AllFit tokens :=
  (List.forall_mem_cons.mp fits).2

theorem AllFit.left {tokens others : List Token} (fits : AllFit (tokens ++ others)) :
    AllFit tokens :=
  (List.forall_mem_append.mp fits).1

theorem AllFit.right {tokens others : List Token} (fits : AllFit (tokens ++ others)) :
    AllFit others :=
  (List.forall_mem_append.mp fits).2

def closingToken (kind : TokenKind) : Token :=
  { kind, raw := kind.mark?.toList, position := default }

theorem fits_closingToken {kind : TokenKind} (ends : kind.endsExpression = true) :
    (closingToken kind).Fits := by
  cases kind <;> cases ends <;> rfl

/-- A name that can stand for any expression that is missing. -/
def placeholder : Token :=
  { kind := .symbol, raw := ['x'], position := default }

theorem fits_placeholder : placeholder.Fits :=
  .inl ⟨'x', [], rfl, rfl, List.forall_mem_nil _⟩

section Completes

variable (dialect : Dialect)

/-- The tokens can be completed to an expression, wherever an expression may end. -/
def CompletesExpression (front : List Token) : Prop :=
  ∃ (tree : Expression) (rest : List Token), tree.tokens = front ++ rest ∧ AllFit rest ∧
    ∀ following, Reading.isAtEnd (nextKind following) = true → tree.WellFormed dialect following

def CompletesMoreItems (delimiters : List TokenKind) (close : Option TokenKind)
    (front : List Token) : Prop :=
  ∃ (others : MoreItems) (rest : List Token), others.tokens = front ++ rest ∧ AllFit rest ∧
    ∀ following, nextKind following = close → others.WellFormed dialect delimiters following

def CompletesItems (delimiters : List TokenKind) (close : Option TokenKind)
    (front : List Token) : Prop :=
  ∃ (inner : Items) (rest : List Token), inner.tokens = front ++ rest ∧ AllFit rest ∧
    ∀ following, nextKind following = close → inner.WellFormed dialect delimiters following

/-- The tokens behind an opening one can be completed up to the closing one. -/
def CompletesDelimited (delimiters : List TokenKind) (close : TokenKind) (front : List Token) :
    Prop :=
  ∃ (inner : Items) (closing : Token) (rest : List Token),
    inner.tokens ++ [closing] = front ++ rest ∧ AllFit rest ∧ closing.kind = close ∧
      ∀ following, inner.WellFormed dialect delimiters (closing :: following)

def CompletesArguments (front : List Token) : Prop :=
  ∃ (found : Arguments) (rest : List Token), found.tokens = front ++ rest ∧ AllFit rest ∧
    nextKind found.tokens = some .openParen ∧ ∀ following, found.WellFormed dialect following

def CompletesModifier (front : List Token) : Prop :=
  front ≠ [] ∧
    ∃ (modifier : Modifier) (rest : List Token), modifier.tokens = front ++ rest ∧ AllFit rest ∧
      ∀ following, Reading.isAtEnd (nextKind following) = true →
        modifier.WellFormed dialect following

def CompletesModifiers (front : List Token) : Prop :=
  front ≠ [] ∧
    ∃ (others : Modifiers) (rest : List Token), others.tokens = front ++ rest ∧ AllFit rest ∧
      ∀ following, Reading.isAtEnd (nextKind following) = true →
        others.WellFormed dialect following

end Completes

variable {dialect : Dialect} {delimiters : List TokenKind} {close : Option TokenKind}
  {front : List Token}

/-! ### Lists -/

theorem completesMoreItems_nil : CompletesMoreItems dialect delimiters close [] :=
  ⟨.ended, [], rfl, allFit_nil, fun _ _ => trivial⟩

theorem isAtEnd_of_closes (divides : Divides delimiters close) {following : List Token}
    (closes : nextKind following = close) : Reading.isAtEnd (nextKind following) = true := by
  have closed : Closed none close following := ⟨fun _ => rfl, closes⟩
  exact (closed.atEnd divides).ends

theorem CompletesExpression.moreItems (divides : Divides delimiters close) {delimiter : Token}
    (divider : delimiter.kind ∈ delimiters) (completes : CompletesExpression dialect front) :
    CompletesMoreItems dialect delimiters close (delimiter :: front) := by
  rcases completes with ⟨tree, rest, listed, fits, wellFormed⟩
  refine ⟨.more delimiter tree .ended, rest, ?_, fits, fun following closes => ?_⟩
  · simp only [MoreItems.tokens, List.append_nil, listed, List.cons_append]
  · exact ⟨divider, wellFormed following (isAtEnd_of_closes divides closes), trivial⟩

/-- What an item was in front of, it ended there; so it may end in front of other items. -/
theorem CompletesMoreItems.more (divides : Divides delimiters close) {delimiter : Token}
    (divider : delimiter.kind ∈ delimiters) {item : Expression} {following : List Token}
    (itemWellFormed : item.WellFormed dialect following)
    (completes : CompletesMoreItems dialect delimiters close front) :
    CompletesMoreItems dialect delimiters close (delimiter :: (item.tokens ++ front)) := by
  rcases completes with ⟨others, rest, listed, fits, wellFormed⟩
  refine ⟨.more delimiter item others, rest, ?_, fits, fun following' closes => ?_⟩
  · simp only [MoreItems.tokens, listed, List.cons_append, List.append_assoc]
  · have closed : Closed none close following' := ⟨fun _ => rfl, closes⟩
    have ended := (wellFormed following' closes).atEnd divides closed
    exact ⟨divider, itemWellFormed.weaken (continues_of_isAtEnd _ ended.ends),
      wellFormed following' closes⟩

theorem CompletesExpression.items (divides : Divides delimiters close)
    (completes : CompletesExpression dialect front) :
    CompletesItems dialect delimiters close front := by
  rcases completes with ⟨tree, rest, listed, fits, wellFormed⟩
  refine ⟨.first tree .ended, rest, ?_, fits, fun following closes => ?_⟩
  · simp only [Items.tokens, MoreItems.tokens, List.append_nil, listed]
  · exact ⟨wellFormed following (isAtEnd_of_closes divides closes), trivial⟩

theorem CompletesMoreItems.items (divides : Divides delimiters close) {item : Expression}
    {following : List Token} (itemWellFormed : item.WellFormed dialect following)
    (completes : CompletesMoreItems dialect delimiters close front) :
    CompletesItems dialect delimiters close (item.tokens ++ front) := by
  rcases completes with ⟨others, rest, listed, fits, wellFormed⟩
  refine ⟨.first item others, rest, ?_, fits, fun following' closes => ?_⟩
  · simp only [Items.tokens, listed, List.append_assoc]
  · have closed : Closed none close following' := ⟨fun _ => rfl, closes⟩
    have ended := (wellFormed following' closes).atEnd divides closed
    exact ⟨itemWellFormed.weaken (continues_of_isAtEnd _ ended.ends),
      wellFormed following' closes⟩

theorem CompletesItems.delimited {kind : TokenKind} (divides : Divides delimiters (some kind))
    (completes : CompletesItems dialect delimiters (some kind) front) :
    CompletesDelimited dialect delimiters kind front := by
  rcases completes with ⟨inner, rest, listed, fits, wellFormed⟩
  refine ⟨inner, closingToken kind, rest ++ [closingToken kind], ?_, ?_, rfl, fun following => ?_⟩
  · rw [listed, List.append_assoc]
  · have ends := divides.closing kind rfl
    exact fits.append (List.forall_mem_singleton.mpr (fits_closingToken ends))
  · exact wellFormed (closingToken kind :: following) rfl

theorem CompletesDelimited.arguments {opening : Token} (opens : opening.kind = .openParen)
    (completes : CompletesDelimited dialect Reading.argumentDelimiters .closeParen front) :
    CompletesArguments dialect (opening :: front) := by
  rcases completes with ⟨inner, closing, rest, listed, fits, closes, wellFormed⟩
  refine ⟨.listed opening inner closing, rest, ?_, fits, congrArg some opens, fun following => ?_⟩
  · simp only [Arguments.tokens, listed, List.cons_append]
  · exact ⟨opens, closes, wellFormed following⟩

/-! ### Modifiers -/

theorem CompletesDelimited.parenthesized {opening : Token} (opens : opening.kind = .openParen)
    (completes : CompletesDelimited dialect Reading.argumentDelimiters .closeParen front) :
    CompletesModifier dialect (opening :: front) := by
  rcases completes with ⟨inner, closing, rest, listed, fits, closes, wellFormed⟩
  refine ⟨List.cons_ne_nil _ _, .parenthesized opening inner closing, rest, ?_, fits,
    fun following _ => ⟨opens, closes, wellFormed following⟩⟩
  simp only [Modifier.tokens, listed, List.cons_append]

theorem CompletesDelimited.braced {opening : Token} (opens : opening.kind = .openBrace)
    (completes : CompletesDelimited dialect Reading.bodyDelimiters .closeBrace front) :
    CompletesModifier dialect (opening :: front) := by
  rcases completes with ⟨inner, closing, rest, listed, fits, closes, wellFormed⟩
  refine ⟨List.cons_ne_nil _ _, .braced opening inner closing, rest, ?_, fits,
    fun following _ => ⟨opens, closes, wellFormed following⟩⟩
  simp only [Modifier.tokens, listed, List.cons_append]

theorem CompletesArguments.partialSend {dot name : Token} (isDot : dot.kind = .dot)
    (symbol : name.kind = .symbol) (completes : CompletesArguments dialect front) :
    CompletesModifier dialect (dot :: name :: front) := by
  rcases completes with ⟨found, rest, listed, fits, -, wellFormed⟩
  refine ⟨List.cons_ne_nil _ _, .partialSend dot name found, rest, ?_, fits,
    fun following _ => ⟨isDot, symbol, wellFormed following⟩⟩
  simp only [Modifier.tokens, listed, List.cons_append]

theorem CompletesArguments.implicitSend {name : Token} (symbol : name.kind = .symbol)
    (completes : CompletesArguments dialect front) :
    CompletesModifier dialect (name :: front) := by
  rcases completes with ⟨found, rest, listed, fits, opens, wellFormed⟩
  refine ⟨List.cons_ne_nil _ _, .implicitSend name found, rest, ?_, fits,
    fun following _ => ⟨symbol, wellFormed following, ?_⟩⟩
  · simp only [Modifier.tokens, listed, List.cons_append]
  · cases tokens : found.tokens with
    | nil =>
        rw [tokens] at opens
        cases opens
    | cons opening others =>
        rw [tokens] at opens
        intro dotted
        cases opens.symm.trans dotted

theorem wellFormed_name {name : Token} (symbol : name.kind = .symbol) {following : List Token}
    (ends : Reading.isAtEnd (nextKind following) = true) :
    (Modifier.implicitSend name .absent).WellFormed dialect following := by
  have unlike (kind : TokenKind) (goesOn : kind.endsExpression = false) :
      nextKind following ≠ some kind := by
    intro next
    rw [next] at ends
    exact Bool.false_ne_true (goesOn.symm.trans ends)
  exact ⟨symbol, unlike .openParen rfl, unlike .dot rfl⟩

/-- A receiver that starts with the dot behind a name is completed behind the name; if there is
nothing of it yet, the name stands for itself. -/
theorem CompletesExpression.dotSend {name : Token} (symbol : name.kind = .symbol)
    {rest : List Token} (dotted : nextKind (front ++ rest) = some .dot)
    (completes : CompletesExpression dialect front) :
    CompletesModifier dialect (name :: front) := by
  refine ⟨List.cons_ne_nil _ _, ?_⟩
  cases front with
  | nil =>
      exact ⟨.implicitSend name .absent, [], rfl, allFit_nil,
        fun following ends => wellFormed_name symbol ends⟩
  | cons dot others =>
      rcases completes with ⟨tree, rest, listed, fits, wellFormed⟩
      refine ⟨.dotSend name tree, rest, ?_, fits, fun following ends => ⟨symbol, ?_, ?_⟩⟩
      · rw [Modifier.tokens, listed]
        rfl
      · rw [listed]
        exact dotted
      · exact wellFormed following ends

theorem CompletesModifier.last (completes : CompletesModifier dialect front) :
    CompletesModifiers dialect front := by
  rcases completes with ⟨nonempty, modifier, rest, listed, fits, wellFormed⟩
  exact ⟨nonempty, .last modifier, rest, listed, fits, wellFormed⟩

theorem CompletesModifiers.weaken_first {modifier : Modifier} {others : Modifiers}
    {rest following : List Token} (nonempty : front ≠ [])
    (listed : others.tokens = front ++ rest) {rest' : List Token}
    (modifierWellFormed : modifier.WellFormed dialect (front ++ rest')) :
    modifier.WellFormed dialect (others.tokens ++ following) := by
  apply modifierWellFormed.weaken
  apply continues_of_nextKind_eq
  obtain ⟨token, tokens, rfl⟩ := List.exists_cons_of_ne_nil nonempty
  rw [listed]
  rfl

theorem CompletesModifiers.more {modifier : Modifier} (unit : modifier.IsUnit)
    {rest : List Token} (modifierWellFormed : modifier.WellFormed dialect (front ++ rest))
    (completes : CompletesModifiers dialect front) :
    CompletesModifiers dialect (modifier.tokens ++ front) := by
  rcases completes with ⟨nonempty, others, more, listed, fits, wellFormed⟩
  refine ⟨List.append_ne_nil_of_right_ne_nil _ nonempty, .more modifier others, more, ?_, fits,
    fun following ends => ⟨unit, ?_, wellFormed following ends⟩⟩
  · rw [Modifiers.tokens, listed, List.append_assoc]
  · exact weaken_first nonempty listed modifierWellFormed

theorem Modifiers.WellFormed.completesModifiers {others : Modifiers} {following : List Token}
    (wellFormed : others.WellFormed dialect following) :
    CompletesModifiers dialect others.tokens := by
  refine ⟨?_, others, [], (List.append_nil _).symm, allFit_nil,
    fun _ ends => wellFormed.weaken (continues_of_isAtEnd _ ends)⟩
  exact List.ne_nil_of_length_pos wellFormed.opens.length_pos

/-! ### Expressions -/

theorem completesExpression_nil : CompletesExpression dialect [] := by
  refine ⟨.single (.implicitSend placeholder .absent), [placeholder], rfl, ?_,
    fun following ends => wellFormed_name rfl ends⟩
  exact List.forall_mem_singleton.mpr fits_placeholder

theorem CompletesModifier.expression (completes : CompletesModifier dialect front) :
    CompletesExpression dialect front := by
  rcases completes with ⟨-, modifier, rest, listed, fits, wellFormed⟩
  exact ⟨.single modifier, rest, listed, fits, wellFormed⟩

theorem Modifier.WellFormed.completesExpression {modifier : Modifier} {following : List Token}
    (wellFormed : modifier.WellFormed dialect following) :
    CompletesExpression dialect modifier.tokens :=
  ⟨.single modifier, [], (List.append_nil _).symm, allFit_nil,
    fun _ ends => wellFormed.weaken (continues_of_isAtEnd _ ends)⟩

theorem CompletesExpression.operation {left : Modifier} {operator : Token} {rest : List Token}
    (unit : left.IsUnit) (leftWellFormed : left.WellFormed dialect (operator :: rest))
    (joins : dialect.isInfix operator = true) (completes : CompletesExpression dialect front) :
    CompletesExpression dialect (left.tokens ++ operator :: front) := by
  rcases completes with ⟨right, more, listed, fits, wellFormed⟩
  refine ⟨.operation left operator right, more, ?_, fits,
    fun following ends => ⟨unit, ?_, joins, wellFormed following ends⟩⟩
  · simp only [Expression.tokens, listed, List.append_assoc, List.cons_append]
  · exact leftWellFormed.weaken (continues_of_nextKind_eq rfl)

theorem CompletesModifiers.form {first : Modifier} {rest : List Token} (unit : first.IsUnit)
    (firstWellFormed : first.WellFormed dialect (front ++ rest))
    (standsApart : ∀ token ∈ (front ++ rest).head?, dialect.isInfix token = false)
    (completes : CompletesModifiers dialect front) :
    CompletesExpression dialect (first.tokens ++ front) := by
  rcases completes with ⟨nonempty, others, more, listed, fits, wellFormed⟩
  refine ⟨.form first others, more, ?_, fits,
    fun following ends => ⟨unit, ?_, ?_, wellFormed following ends⟩⟩
  · rw [Expression.tokens, listed, List.append_assoc]
  · exact weaken_first nonempty listed firstWellFormed
  · obtain ⟨token, tokens, rfl⟩ := List.exists_cons_of_ne_nil nonempty
    rw [listed]
    exact standsApart

end MessageForms.Grammar
