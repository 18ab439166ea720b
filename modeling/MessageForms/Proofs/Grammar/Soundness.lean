import MessageForms.Proofs.Grammar.Predictive

set_option autoImplicit false

/-! Whatever the predictive parser accepts is in the grammar: the tokens that it consumes are those
of the tree that it builds, and the tree is well formed in front of the tokens that it leaves. -/

namespace MessageForms.Grammar

/-- An expression may end in front of these tokens. -/
structure AtEnd (ending : Option Fault) (tokens : List Token) : Prop where
  clear : Clear ending tokens
  ends : Reading.isAtEnd (nextKind tokens) = true

/-- A list may end in front of these tokens. -/
structure Closed (ending : Option Fault) (close : Option TokenKind) (tokens : List Token) :
    Prop where
  clear : Clear ending tokens
  next : nextKind tokens = close

theorem closed_nil : Closed none none [] :=
  ⟨fun _ => rfl, rfl⟩

theorem Closed.eq_nil {ending : Option Fault} {tokens : List Token}
    (closed : Closed ending none tokens) : tokens = [] := by
  cases tokens with
  | nil => rfl
  | cons token tokens => cases closed.next

def Opens (tokens : List Token) : Prop :=
  ∃ token others, tokens = token :: others ∧ token.kind.endsExpression = false

theorem Opens.append {tokens : List Token} (opens : Opens tokens) (rest : List Token) :
    Opens (tokens ++ rest) := by
  rcases opens with ⟨token, others, rfl, starts⟩
  exact ⟨token, others ++ rest, rfl, starts⟩

theorem Opens.nextKind_append {tokens : List Token} (opens : Opens tokens) (rest : List Token) :
    nextKind (tokens ++ rest) = nextKind tokens := by
  rcases opens with ⟨token, others, rfl, starts⟩
  rfl

theorem Opens.not_atEnd {ending : Option Fault} {tokens : List Token} (opens : Opens tokens) :
    ¬ AtEnd ending tokens := by
  intro claimed
  rcases claimed with ⟨-, ends⟩
  rcases opens with ⟨token, others, rfl, starts⟩
  change token.kind.endsExpression = true at ends
  rw [starts] at ends
  cases ends

theorem Opens.length_pos {tokens : List Token} (opens : Opens tokens) : 0 < tokens.length := by
  rcases opens with ⟨token, others, rfl, -⟩
  exact Nat.zero_lt_succ others.length

theorem Opens.clear {tokens : List Token} (opens : Opens tokens) (ending : Option Fault) :
    Clear ending tokens := by
  rcases opens with ⟨token, others, rfl, -⟩
  exact Predictive.clear_cons ending token others

theorem AtEnd.isInfix_eq_false {ending : Option Fault} {dialect : Dialect} {token : Token}
    {others : List Token} (ended : AtEnd ending (token :: others))
    (symbols : dialect.JoinsSymbols) :
    dialect.isInfix token = false := by
  rw [Bool.eq_false_iff]
  intro joins
  have ends : token.kind.endsExpression = true := ended.ends
  rw [symbols token joins] at ends
  cases ends

section WellFormed

variable {dialect : Dialect} {following : List Token}

theorem Modifier.WellFormed.opens {modifier : Modifier}
    (wellFormed : modifier.WellFormed dialect following) : Opens modifier.tokens := by
  have opens {token : Token} {kind : TokenKind} (others : List Token) (same : token.kind = kind)
      (starts : kind.endsExpression = false) : Opens (token :: others) :=
    ⟨token, others, rfl, by rw [same]; exact starts⟩
  cases modifier with
  | literal token =>
      rcases wellFormed with number | string
      · exact opens [] number rfl
      · exact opens [] string rfl
  | partialSend dot name arguments => exact opens _ wellFormed.1 rfl
  | implicitSend name arguments => exact opens _ wellFormed.1 rfl
  | parenthesized opening inner closing => exact opens _ wellFormed.1 rfl
  | braced opening inner closing => exact opens _ wellFormed.1 rfl
  | dotSend name target => exact opens _ wellFormed.1 rfl

theorem Modifiers.WellFormed.opens {modifiers : Modifiers}
    (wellFormed : modifiers.WellFormed dialect following) : Opens modifiers.tokens := by
  cases modifiers with
  | last modifier => exact Modifier.WellFormed.opens wellFormed
  | more modifier others => exact (Modifier.WellFormed.opens wellFormed.2.1).append others.tokens

theorem Expression.WellFormed.opens {expression : Expression}
    (wellFormed : expression.WellFormed dialect following) : Opens expression.tokens := by
  cases expression with
  | single modifier => exact Modifier.WellFormed.opens wellFormed
  | operation left operator right => exact (Modifier.WellFormed.opens wellFormed.2.1).append _
  | form first others => exact (Modifier.WellFormed.opens wellFormed.2.1).append _

end WellFormed

namespace Predictive

section Ends

variable {ending : Option Fault} {dialect : Dialect} {expression : Parsing Expression}
  {allowance : Nat} {following : List Token}

theorem form_atEnd {modifier : Parsing (Option Modifier)} {first : Modifier}
    (ended : AtEnd ending following) :
    form ending modifier first allowance following = .ok (.single first) following := by
  rw [form, peekKind_bind ended.clear, if_pos ended.ends]
  rfl

theorem modifier?_atEnd (ended : AtEnd ending following) :
    modifier? ending dialect expression allowance following = .ok none following := by
  rw [modifier?, peek_bind ended.clear]
  cases following with
  | nil => rfl
  | cons token following =>
      have ends : token.kind.endsExpression = true := ended.ends
      simp only [List.head?_cons]
      cases kind : token.kind <;> rw [kind] at ends <;> cases ends <;> rfl

theorem modifier?_dot {dot : Token} (isDot : dot.kind = .dot) (clear : Clear ending following)
    (unnamed : nextKind following ≠ some .symbol) :
    modifier? ending dialect expression allowance (dot :: following) =
      .ok none (dot :: following) := by
  rw [modifier?, peek_bind (clear_cons _ _ _), List.head?_cons]
  simp only [isDot]
  rw [partialSend?, List.tail_cons, peek_of_clear clear]
  cases following with
  | nil => rfl
  | cons name following => exact if_neg fun symbol => unnamed (congrArg some symbol)

end Ends

section Lists

variable {ending : Option Fault} {dialect : Dialect} {expression : Parsing Expression}

/-- What the parser of the expressions inside of a list or a modifier has to do. -/
def Sound (ending : Option Fault) (dialect : Dialect) (expression : Parsing Expression) : Prop :=
  ∀ tokens tree rest, expression tokens = .ok tree rest →
    tokens = tree.tokens ++ rest ∧ tree.WellFormed dialect rest ∧ AtEnd ending rest

variable {delimiters : List TokenKind} {close : Option TokenKind} {allowance : Nat}
  {tokens rest : List Token}

theorem moreItems_sound (sound : Sound ending dialect expression) {others : MoreItems}
    (parsed : moreItems ending expression delimiters close allowance tokens = .ok others rest) :
    tokens = others.tokens ++ rest ∧ others.WellFormed dialect delimiters rest ∧
      Closed ending close rest := by
  induction allowance generalizing tokens others rest with
  | zero => cases parsed
  | succ allowance ih =>
      rw [moreItems.eq_def] at parsed
      obtain ⟨clear, parsed⟩ := of_peek_bind parsed
      cases tokens with
      | nil =>
          cases close with
          | none =>
              cases parsed
              exact ⟨rfl, trivial, clear, rfl⟩
          | some expected => exact (fail_ne_ok _ parsed).elim
      | cons token tokens =>
          simp only [List.head?_cons] at parsed
          by_cases closes : close = some token.kind
          · rw [if_pos closes] at parsed
            cases parsed
            exact ⟨rfl, trivial, clear, closes.symm⟩
          · rw [if_neg closes] at parsed
            by_cases other : token.kind ∉ delimiters
            · rw [if_pos other] at parsed
              exact (fail_ne_ok _ parsed).elim
            · rw [if_neg other] at parsed
              have divides := Decidable.not_not.mp other
              obtain ⟨-, parsed⟩ := of_read_bind parsed
              obtain ⟨behind, parsed⟩ := of_peekKind_bind parsed
              by_cases ends : nextKind tokens = close
              · rw [List.tail_cons, if_pos ends] at parsed
                cases parsed
                exact ⟨rfl, divides, behind, ends⟩
              · rw [List.tail_cons, if_neg ends] at parsed
                obtain ⟨item, middle, first, parsed⟩ := exists_of_bind_ok parsed
                obtain ⟨more, after, further, done⟩ := exists_of_bind_ok parsed
                cases done
                obtain ⟨rfl, wellFormed, -⟩ := sound _ _ _ first
                obtain ⟨rfl, others, closed⟩ := ih further
                refine ⟨?_, ⟨divides, wellFormed, others⟩, closed⟩
                rw [MoreItems.tokens, List.cons_append, List.append_assoc]

theorem items_sound (sound : Sound ending dialect expression) {inner : Items}
    (parsed : items ending expression delimiters close allowance tokens = .ok inner rest) :
    tokens = inner.tokens ++ rest ∧ inner.WellFormed dialect delimiters rest ∧
      Closed ending close rest := by
  obtain ⟨clear, parsed⟩ := of_peekKind_bind parsed
  by_cases ends : nextKind tokens = close
  · rw [if_pos ends] at parsed
    cases parsed
    exact ⟨rfl, trivial, clear, ends⟩
  · rw [if_neg ends] at parsed
    obtain ⟨item, middle, first, parsed⟩ := exists_of_bind_ok parsed
    obtain ⟨others, after, further, done⟩ := exists_of_bind_ok parsed
    cases done
    obtain ⟨rfl, wellFormed, -⟩ := sound _ _ _ first
    obtain ⟨rfl, others, closed⟩ := moreItems_sound sound further
    refine ⟨?_, ⟨wellFormed, others⟩, closed⟩
    rw [Items.tokens, List.append_assoc]

theorem delimited_sound (sound : Sound ending dialect expression) {kind : TokenKind}
    {inner : Items} {closing : Token}
    (parsed : delimited ending expression allowance delimiters kind tokens =
      .ok (inner, closing) rest) :
    tokens.tail = inner.tokens ++ closing :: rest ∧ closing.kind = kind ∧
      inner.WellFormed dialect delimiters (closing :: rest) := by
  obtain ⟨-, parsed⟩ := of_read_bind parsed
  obtain ⟨found, middle, first, parsed⟩ := exists_of_bind_ok parsed
  obtain ⟨listed, wellFormed, closed⟩ := items_sound sound first
  obtain ⟨-, parsed⟩ := of_read_bind parsed
  cases middle with
  | nil => cases closed.next
  | cons token middle =>
      cases parsed
      exact ⟨listed, Option.some.inj closed.next, wellFormed⟩

theorem arguments_sound (sound : Sound ending dialect expression) {found : Arguments}
    (parsed : arguments ending expression allowance tokens = .ok found rest) :
    tokens = found.tokens ++ rest ∧ found.WellFormed dialect rest ∧
      (found = .absent → Clear ending rest) := by
  obtain ⟨clear, parsed⟩ := of_peek_bind parsed
  cases tokens with
  | nil =>
      cases parsed
      exact ⟨rfl, by rintro ⟨⟩, fun _ => clear⟩
  | cons token tokens =>
      simp only [List.head?_cons] at parsed
      by_cases opens : token.kind = .openParen
      · rw [if_pos opens] at parsed
        obtain ⟨⟨inner, closing⟩, after, listed, done⟩ := exists_of_bind_ok parsed
        cases done
        obtain ⟨same, closes, wellFormed⟩ := delimited_sound sound listed
        rw [List.tail_cons] at same
        subst same
        refine ⟨?_, ⟨opens, closes, wellFormed⟩, by rintro ⟨⟩⟩
        rw [Arguments.tokens, List.cons_append, List.append_assoc, List.singleton_append]
      · rw [if_neg opens] at parsed
        cases parsed
        exact ⟨rfl, fun same => opens (Option.some.inj same), fun _ => clear⟩

end Lists

section Modifiers

variable {ending : Option Fault} {dialect : Dialect} {expression : Parsing Expression}
  {allowance : Nat} {tokens rest : List Token}

/-- What a parser of modifiers has to do: without a modifier it leaves the tokens as they are. Only
a modifier with a receiver behind its dot may reach to the end of the expression. -/
def Found (ending : Option Fault) (dialect : Dialect) (tokens : List Token) :
    Option Modifier → List Token → Prop
  | none, rest => rest = tokens
  | some modifier, rest =>
      tokens = modifier.tokens ++ rest ∧ modifier.WellFormed dialect rest ∧
        (modifier.IsUnit ∨ AtEnd ending rest)

theorem partialSend?_sound (sound : Sound ending dialect expression) {dot : Token}
    (isDot : dot.kind = .dot) {found : Option Modifier}
    (parsed : partialSend? ending dialect expression allowance dot (dot :: tokens) =
      .ok found rest) :
    Found ending dialect (dot :: tokens) found rest := by
  rw [partialSend?, List.tail_cons] at parsed
  cases tokens with
  | nil =>
      cases ending with
      | none =>
          cases parsed
          rfl
      | some fault => cases parsed
  | cons name tokens =>
      rw [peek_of_clear (clear_cons ending name tokens), List.head?_cons] at parsed
      by_cases symbol : name.kind = .symbol
      · simp only [if_pos symbol] at parsed
        have parsed := of_take_bind parsed
        obtain ⟨listed, after, further, done⟩ := exists_of_bind_ok parsed
        cases done
        obtain ⟨same, wellFormed, -⟩ := arguments_sound sound further
        rw [List.tail_cons] at same
        subst same
        exact ⟨rfl, ⟨isDot, symbol, wellFormed⟩, .inl trivial⟩
      · simp only [if_neg symbol] at parsed
        cases parsed
        rfl

theorem modifier?_sound (sound : Sound ending dialect expression) {found : Option Modifier}
    (parsed : modifier? ending dialect expression allowance tokens = .ok found rest) :
    Found ending dialect tokens found rest := by
  obtain ⟨clear, parsed⟩ := of_peek_bind parsed
  cases tokens with
  | nil =>
      cases parsed
      rfl
  | cons token tokens =>
      simp only [List.head?_cons] at parsed
      cases kind : token.kind with
      | number =>
          simp only [kind] at parsed
          have parsed := of_take_bind parsed
          cases parsed
          exact ⟨rfl, .inl kind, .inl trivial⟩
      | string =>
          simp only [kind] at parsed
          have parsed := of_take_bind parsed
          cases parsed
          exact ⟨rfl, .inr kind, .inl trivial⟩
      | dot =>
          simp only [kind] at parsed
          exact partialSend?_sound sound kind parsed
      | symbol =>
          simp only [kind] at parsed
          have parsed := of_take_bind parsed
          obtain ⟨-, parsed⟩ := of_peekKind_bind parsed
          rw [List.tail_cons] at parsed
          by_cases dotted : nextKind tokens = some .dot
          · rw [if_pos dotted] at parsed
            obtain ⟨target, after, further, done⟩ := exists_of_bind_ok parsed
            cases done
            obtain ⟨rfl, wellFormed, ended⟩ := sound _ _ _ further
            rw [wellFormed.opens.nextKind_append] at dotted
            exact ⟨rfl, ⟨kind, dotted, wellFormed⟩, .inr ended⟩
          · rw [if_neg dotted] at parsed
            obtain ⟨listed, after, further, done⟩ := exists_of_bind_ok parsed
            cases done
            obtain ⟨rfl, wellFormed, -⟩ := arguments_sound sound further
            exact ⟨rfl, ⟨kind, wellFormed, dotted⟩, .inl trivial⟩
      | openParen =>
          simp only [kind] at parsed
          obtain ⟨⟨inner, closing⟩, after, listed, done⟩ := exists_of_bind_ok parsed
          cases done
          obtain ⟨same, closes, wellFormed⟩ := delimited_sound sound listed
          rw [List.tail_cons] at same
          subst same
          refine ⟨?_, ⟨kind, closes, wellFormed⟩, .inl trivial⟩
          rw [Modifier.tokens, List.cons_append, List.append_assoc, List.singleton_append]
      | openBrace =>
          simp only [kind] at parsed
          obtain ⟨⟨inner, closing⟩, after, listed, done⟩ := exists_of_bind_ok parsed
          cases done
          obtain ⟨same, closes, wellFormed⟩ := delimited_sound sound listed
          rw [List.tail_cons] at same
          subst same
          refine ⟨?_, ⟨kind, closes, wellFormed⟩, .inl trivial⟩
          rw [Modifier.tokens, List.cons_append, List.append_assoc, List.singleton_append]
      | closeBrace | closeParen | semicolon | comma =>
          simp only [kind] at parsed
          cases parsed
          rfl

theorem modifiers_sound (sound : Sound ending dialect expression) {steps : Nat}
    {found : Option Modifiers}
    (parsed : modifiers (modifier? ending dialect expression allowance) steps tokens =
      .ok found rest) :
    match found with
    | none => rest = tokens
    | some others => tokens = others.tokens ++ rest ∧ others.WellFormed dialect rest := by
  induction steps generalizing tokens found rest with
  | zero => cases parsed
  | succ steps ih =>
      rw [modifiers] at parsed
      obtain ⟨first, middle, looked, parsed⟩ := exists_of_bind_ok parsed
      have start := modifier?_sound sound looked
      cases first with
      | none =>
          cases parsed
          exact start
      | some modifier =>
          obtain ⟨others, after, further, done⟩ := exists_of_bind_ok parsed
          cases done
          rcases start with ⟨rfl, wellFormed, reach⟩
          have behind := ih further
          cases others with
          | none =>
              dsimp only at behind
              subst behind
              exact ⟨rfl, wellFormed⟩
          | some others =>
              rcases behind with ⟨rfl, more⟩
              refine ⟨?_, ?_, wellFormed, more⟩
              · rw [push, Modifiers.tokens, List.append_assoc]
              · rcases reach with unit | ended
                · exact unit
                · exact ((more.opens.append rest).not_atEnd ended).elim

end Modifiers

section Expressions

variable {ending : Option Fault} {dialect : Dialect} {tokens rest : List Token}

theorem form_sound {expression : Parsing Expression} (sound : Sound ending dialect expression)
    {first : Modifier} {allowance : Nat} {tree : Expression} {token : Token}
    (wellFormed : first.WellFormed dialect (token :: tokens))
    (reach : first.IsUnit ∨ AtEnd ending (token :: tokens))
    (standsApart : dialect.isInfix token = false)
    (parsed : form ending (modifier? ending dialect expression allowance) first allowance
      (token :: tokens) = .ok tree rest) :
    first.tokens ++ token :: tokens = tree.tokens ++ rest ∧ tree.WellFormed dialect rest ∧
      AtEnd ending rest := by
  obtain ⟨clear, parsed⟩ := of_peekKind_bind parsed
  by_cases ends : Reading.isAtEnd (nextKind (token :: tokens)) = true
  · rw [if_pos ends] at parsed
    cases parsed
    exact ⟨rfl, wellFormed, clear, ends⟩
  · rw [if_neg ends] at parsed
    have unit : first.IsUnit := reach.resolve_right fun ended => ends ended.ends
    obtain ⟨found, middle, followed, parsed⟩ := exists_of_bind_ok parsed
    have start := modifiers_sound sound followed
    cases found with
    | none => exact (fail_ne_ok _ parsed).elim
    | some others =>
        rcases start with ⟨same, more⟩
        obtain ⟨clearBehind, parsed⟩ := of_peekKind_bind parsed
        by_cases endsBehind : Reading.isAtEnd (nextKind middle) = true
        · rw [if_pos endsBehind] at parsed
          cases parsed
          rw [same] at wellFormed ⊢
          refine ⟨?_, ⟨unit, wellFormed, ?_, more⟩, clearBehind, endsBehind⟩
          · rw [Expression.tokens, List.append_assoc]
          · rcases more.opens with ⟨opening, behind, listed, -⟩
            rw [listed, List.cons_append, List.cons.injEq] at same
            rcases same with ⟨rfl, -⟩
            intro first among
            rw [listed] at among
            cases among
            exact standsApart
        · rw [if_neg endsBehind] at parsed
          exact (fail_ne_ok _ parsed).elim

theorem expressionStep_sound {expression : Parsing Expression}
    (symbols : dialect.JoinsSymbols)
    (sound : Sound ending dialect expression) (allowance : Nat) :
    Sound ending dialect (expressionStep ending dialect expression allowance) := by
  intro tokens tree rest stepped
  obtain ⟨found, middle, looked, parsed⟩ := exists_of_bind_ok stepped
  have start := modifier?_sound sound looked
  cases found with
  | none => exact (fail_ne_ok _ parsed).elim
  | some first =>
      rcases start with ⟨rfl, wellFormed, reach⟩
      obtain ⟨clear, parsed⟩ := of_peek_bind parsed
      cases middle with
      | nil =>
          cases parsed
          exact ⟨rfl, wellFormed, clear, rfl⟩
      | cons token middle =>
          simp only [List.head?_cons] at parsed
          by_cases joins : dialect.isInfix token = true
          · rw [if_pos joins] at parsed
            have parsed := of_take_bind parsed
            rw [List.tail_cons] at parsed
            obtain ⟨right, after, further, done⟩ := exists_of_bind_ok parsed
            cases done
            obtain ⟨rfl, rightWellFormed, ended⟩ := sound _ _ _ further
            have unit : first.IsUnit := by
              apply reach.resolve_right
              intro ended
              rw [ended.isInfix_eq_false symbols] at joins
              cases joins
            refine ⟨?_, ⟨unit, wellFormed, joins, rightWellFormed⟩, ended⟩
            rw [Expression.tokens, List.append_assoc, List.cons_append]
          · rw [if_neg joins] at parsed
            exact form_sound sound wellFormed reach (Bool.eq_false_iff.mpr joins) parsed

theorem expressionWithin_sound
    (symbols : dialect.JoinsSymbols) (allowance : Nat) :
    Sound ending dialect (expressionWithin ending dialect allowance) := by
  induction allowance with
  | zero =>
      intro tokens tree rest parsed
      cases parsed
  | succ allowance ih => exact expressionStep_sound symbols ih allowance

end Expressions

end Predictive

end MessageForms.Grammar
