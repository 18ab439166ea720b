import MessageForms.Proofs.Grammar.Completion

set_option autoImplicit false

/-! Where the predictive parser stops. A complaint is about the first token that does not go with
those before it: what is in front of it is always the beginning of a tree. An allowance beyond the
number of tokens never runs out, and tokens that the dialect understands are never refused, so that
the only fault is the one that ends the tokens. -/

namespace MessageForms

/-- The complaint is about how tokens follow one another. -/
def Complaint.IsSyntactic : Complaint → Prop
  | endOfInput _ | delimiterExpected _ _ | expressionExpected | bodyExpected | contentAfterBody =>
      True
  | _ => False

namespace Grammar

/-- The dialect understands the tokens, and they are fewer than the bound. -/
structure Readable (dialect : Dialect) (bound : Nat) (tokens : List Token) : Prop where
  short : tokens.length < bound
  understood : ∀ token ∈ tokens, dialect.Understands token

namespace Readable

variable {dialect : Dialect} {bound : Nat} {token : Token} {front tokens : List Token}

theorem tail (readable : Readable dialect (bound + 1) (token :: tokens)) :
    Readable dialect bound tokens :=
  ⟨Nat.lt_of_succ_lt_succ readable.short, (List.forall_mem_cons.mp readable.understood).2⟩

theorem weaken (readable : Readable dialect bound tokens) {bound' : Nat}
    (weaker : bound ≤ bound') : Readable dialect bound' tokens :=
  ⟨Nat.lt_of_lt_of_le readable.short weaker, readable.understood⟩

theorem behind (readable : Readable dialect (bound + 1) (front ++ tokens)) (opens : Opens front) :
    Readable dialect bound tokens := by
  have positive := opens.length_pos
  have short := readable.short
  rw [List.length_append] at short
  exact ⟨by omega, (List.forall_mem_append.mp readable.understood).2⟩

end Readable

section Stops

variable (ending : Option Fault)

/-- If the parser stops, then with a complaint about the token behind a front that can be completed,
or with the fault that ends the tokens. -/
def Stops (Completes : List Token → Prop) {α : Type} (parser : Parsing α) (tokens : List Token) :
    Prop :=
  ∀ stop rest, parser tokens = .error stop rest →
    match stop with
    | .complaint cause => cause.IsSyntactic ∧ ∃ front, tokens = front ++ rest ∧ Completes front
    | .fault fault => ending = some fault

end Stops

namespace Predictive

variable {ending : Option Fault}

/-! ### Composition -/

section Composition

variable {α β : Type} {Completes Completes' : List Token → Prop} {tokens : List Token}
  {token : Token}

theorem stops_of_ok {parser : Parsing α} {result : α} {rest : List Token}
    (parsed : parser tokens = .ok result rest) : Stops ending Completes parser tokens := by
  intro stop rest stopped
  rw [parsed] at stopped
  cases stopped

theorem stops_pure (result : α) : Stops ending Completes (pure result) tokens :=
  stops_of_ok rfl

theorem stops_bind {first : Parsing α} {next : α → Parsing β}
    (stops : Stops ending Completes' first tokens)
    (completes : ∀ front rest, tokens = front ++ rest → Completes' front → Completes front)
    (others : ∀ result rest, first tokens = .ok result rest →
      ∃ front, tokens = front ++ rest ∧
        Stops ending (fun more => Completes (front ++ more)) (next result) rest) :
    Stops ending Completes (first >>= next) tokens := by
  intro stop rest stopped
  rw [bind_apply] at stopped
  cases parsed : first tokens with
  | ok result middle =>
      rw [parsed] at stopped
      obtain ⟨front, rfl, further⟩ := others result middle parsed
      have outcome := further stop rest stopped
      cases stop with
      | fault fault => exact outcome
      | complaint cause =>
          obtain ⟨syntactic, more, rfl, completed⟩ := outcome
          exact ⟨syntactic, front ++ more, (List.append_assoc _ _ _).symm, completed⟩
  | error stop' middle =>
      rw [parsed] at stopped
      cases stopped
      have outcome := stops stop rest parsed
      cases stop with
      | fault fault => exact outcome
      | complaint cause =>
          obtain ⟨syntactic, front, split, completed⟩ := outcome
          exact ⟨syntactic, front, split, completes front rest split completed⟩

theorem stops_ite {condition : Prop} [Decidable condition] {yes no : Parsing α}
    (stopsYes : condition → Stops ending Completes yes tokens)
    (stopsNo : ¬ condition → Stops ending Completes no tokens) :
    Stops ending Completes (if condition then yes else no) tokens := by
  by_cases decided : condition
  · rw [if_pos decided]
    exact stopsYes decided
  · rw [if_neg decided]
    exact stopsNo decided

theorem stops_peek_bind {next : Option Token → Parsing α}
    (others : Clear ending tokens → Stops ending Completes (next tokens.head?) tokens) :
    Stops ending Completes (peek ending >>= next) tokens := by
  intro stop rest stopped
  by_cases clear : Clear ending tokens
  · rw [peek_bind clear] at stopped
    exact others clear stop rest stopped
  · cases tokens with
    | cons token tokens => exact (clear (clear_cons _ _ _)).elim
    | nil =>
        cases ending with
        | none => exact (clear fun _ => rfl).elim
        | some fault =>
            cases stopped
            rfl

theorem stops_peekKind_bind {next : Option TokenKind → Parsing α}
    (others : Clear ending tokens → Stops ending Completes (next (nextKind tokens)) tokens) :
    Stops ending Completes (peekKind ending >>= next) tokens := by
  have looked : peekKind ending >>= next =
      peek ending >>= fun found => next (found.map Token.kind) :=
    funext fun tokens => by
      simp only [peekKind, bind_apply]
      cases peek ending tokens <;> rfl
  rw [looked]
  exact stops_peek_bind others

theorem stops_behind {parser outer : Parsing α}
    (stops : Stops ending (fun more => Completes (token :: more)) parser tokens)
    (passes : outer (token :: tokens) = parser tokens) :
    Stops ending Completes outer (token :: tokens) := by
  intro stop rest stopped
  rw [passes] at stopped
  have outcome := stops stop rest stopped
  cases stop with
  | fault fault => exact outcome
  | complaint cause =>
      obtain ⟨syntactic, more, rfl, completed⟩ := outcome
      exact ⟨syntactic, token :: more, rfl, completed⟩

theorem stops_read_bind {next : Option Token → Parsing α}
    (others : Stops ending (fun more => Completes (token :: more)) (next (some token)) tokens) :
    Stops ending Completes (read ending >>= next) (token :: tokens) :=
  stops_behind others (read_bind (clear_cons _ _ _) next)

theorem stops_take_bind {understood : Token → Except Fault Atom} {atom : Atom}
    {next : Token → Parsing α} (known : understood token = .ok atom)
    (others : Stops ending (fun more => Completes (token :: more)) (next token) tokens) :
    Stops ending Completes (take ending understood token >>= next) (token :: tokens) :=
  stops_behind others (take_bind (clear_cons _ _ _) known next)

theorem stops_fail {cause : Complaint} (syntactic : cause.IsSyntactic) (completes : Completes []) :
    Stops ending Completes (fail ending cause : Parsing α) tokens := by
  refine stops_peek_bind fun _ stop rest stopped => ?_
  cases stopped
  exact ⟨syntactic, [], rfl, completes⟩

end Composition

/-! ### Lists -/

section Lists

variable {dialect : Dialect} {expression : Parsing Expression} {allowance : Nat}
  {delimiters : List TokenKind} {close : Option TokenKind} {tokens : List Token}
  (sound : Sound ending dialect expression)
  (stops : ∀ tokens, Readable dialect allowance tokens →
    Stops ending (CompletesExpression dialect) expression tokens)

include sound

theorem delimited_split {kind : TokenKind} {opening : Token} {listed : Items × Token}
    {rest : List Token}
    (parsed : delimited ending expression allowance delimiters kind (opening :: tokens) =
      .ok listed rest) :
    opening :: tokens = opening :: (listed.1.tokens ++ [listed.2]) ++ rest := by
  have split := (delimited_sound sound parsed).1
  rw [List.tail_cons] at split
  rw [split, List.cons_append, List.append_assoc, List.singleton_append]

include stops

theorem stops_moreItems (divides : Divides delimiters close) {steps : Nat}
    (enough : steps ≤ allowance + 1) (readable : Readable dialect steps tokens) :
    Stops ending (CompletesMoreItems dialect delimiters close)
      (moreItems ending expression delimiters close steps) tokens := by
  induction steps generalizing tokens with
  | zero => exact (Nat.not_lt_zero _ readable.short).elim
  | succ steps ih =>
      rw [moreItems.eq_def]
      refine stops_peek_bind fun _ => ?_
      cases tokens with
      | nil =>
          cases close with
          | none => exact stops_pure _
          | some expected => exact stops_fail trivial completesMoreItems_nil
      | cons token tokens =>
          refine stops_ite (fun _ => stops_pure _) fun _ => ?_
          refine stops_ite (fun _ => stops_fail trivial completesMoreItems_nil) fun other => ?_
          have divider := Decidable.not_not.mp other
          refine stops_read_bind (stops_peekKind_bind fun _ => ?_)
          refine stops_ite (fun _ => stops_pure _) fun _ => ?_
          have start := stops tokens (readable.tail.weaken (by omega))
          refine stops_bind start (fun _ _ _ completes => completes.moreItems divides divider) ?_
          intro item rest parsed
          obtain ⟨rfl, wellFormed, -⟩ := sound _ _ _ parsed
          refine ⟨item.tokens, rfl, ?_⟩
          have behind := (readable.tail.weaken (Nat.le_succ _)).behind wellFormed.opens
          refine stops_bind (ih (by omega) behind)
            (fun _ _ _ completes => completes.more divides divider wellFormed) ?_
          intro others rest parsed
          exact ⟨others.tokens, (moreItems_sound sound parsed).1, stops_pure _⟩

theorem stops_items (divides : Divides delimiters close)
    (readable : Readable dialect allowance tokens) :
    Stops ending (CompletesItems dialect delimiters close)
      (items ending expression delimiters close allowance) tokens := by
  refine stops_peekKind_bind fun _ => ?_
  refine stops_ite (fun _ => stops_pure _) fun _ => ?_
  refine stops_bind (stops tokens readable) (fun _ _ _ completes => completes.items divides) ?_
  intro item rest parsed
  obtain ⟨rfl, wellFormed, -⟩ := sound _ _ _ parsed
  refine ⟨item.tokens, rfl, ?_⟩
  have behind := (readable.weaken (Nat.le_succ _)).behind wellFormed.opens
  refine stops_bind (stops_moreItems sound stops divides (Nat.le_succ _) behind)
    (fun _ _ _ completes => completes.items divides wellFormed) ?_
  intro others rest parsed
  exact ⟨others.tokens, (moreItems_sound sound parsed).1, stops_pure _⟩

theorem stops_delimited {kind : TokenKind} (divides : Divides delimiters (some kind))
    {opening : Token} (readable : Readable dialect allowance tokens) :
    Stops ending (fun front => ∃ more, front = opening :: more ∧
        CompletesDelimited dialect delimiters kind more)
      (delimited ending expression allowance delimiters kind) (opening :: tokens) := by
  refine stops_read_bind ?_
  refine stops_bind (stops_items sound stops divides readable)
    (fun _ _ _ completes => ⟨_, rfl, completes.delimited divides⟩) ?_
  intro inner rest parsed
  obtain ⟨split, -, closed⟩ := items_sound sound parsed
  refine ⟨inner.tokens, split, ?_⟩
  cases rest with
  | nil => cases closed.next
  | cons closing rest => exact stops_read_bind (stops_pure _)

theorem stops_arguments (readable : Readable dialect (allowance + 1) tokens) :
    Stops ending (CompletesArguments dialect) (arguments ending expression allowance) tokens := by
  refine stops_peek_bind fun _ => ?_
  cases tokens with
  | nil => exact stops_pure _
  | cons token tokens =>
      refine stops_ite (fun opens => ?_) fun _ => stops_pure _
      refine stops_bind (stops_delimited sound stops divides_arguments readable.tail) ?_ ?_
      · intro front rest _ completes
        obtain ⟨more, rfl, completes⟩ := completes
        exact completes.arguments opens
      · intro listed rest parsed
        exact ⟨_, delimited_split sound parsed, stops_pure _⟩

end Lists

/-! ### Modifiers -/

section Modifiers

variable {dialect : Dialect} {expression : Parsing Expression} {allowance : Nat}
  {tokens : List Token}

theorem modifiers_atEnd (ended : AtEnd ending tokens) {steps : Nat} :
    modifiers (modifier? ending dialect expression allowance) (steps + 1) tokens =
      .ok none tokens := by
  rw [modifiers, bind_of_ok (modifier?_atEnd ended)]
  rfl

variable (sound : Sound ending dialect expression)
  (stops : ∀ tokens, Readable dialect allowance tokens →
    Stops ending (CompletesExpression dialect) expression tokens)

include sound stops

theorem stops_partialSend? {dot : Token} (isDot : dot.kind = .dot)
    (readable : Readable dialect (allowance + 1) (dot :: tokens)) :
    Stops ending (CompletesModifier dialect)
      (partialSend? ending dialect expression allowance dot) (dot :: tokens) := by
  cases tokens with
  | nil =>
      cases ending with
      | none => exact stops_of_ok rfl
      | some fault =>
          intro stop rest stopped
          cases stopped
          rfl
  | cons name tokens =>
      have looked := peek_of_clear (clear_cons ending name tokens)
      by_cases symbol : name.kind = .symbol
      · obtain ⟨atom, known⟩ :=
          (readable.tail.understood name List.mem_cons_self).exists_symbol symbol
        have inner : Stops ending (fun front => CompletesModifier dialect (dot :: front))
            (do
              let name ← take ending dialect.symbol name
              let arguments ← arguments ending expression allowance
              return some (Modifier.partialSend dot name arguments)) (name :: tokens) := by
          have behind := (readable.tail.weaken (Nat.le_succ _)).tail
          refine stops_take_bind known ?_
          refine stops_bind (stops_arguments sound stops (behind.weaken (Nat.le_succ _)))
            (fun _ _ _ completes => completes.partialSend isDot symbol) ?_
          intro listed rest parsed
          exact ⟨listed.tokens, (arguments_sound sound parsed).1, stops_pure _⟩
        refine stops_behind inner ?_
        rw [partialSend?, List.tail_cons, looked, List.head?_cons]
        simp only [if_pos symbol]
      · apply stops_of_ok
        rw [partialSend?, List.tail_cons, looked, List.head?_cons]
        exact if_neg symbol

theorem stops_modifier? (readable : Readable dialect (allowance + 1) tokens) :
    Stops ending (CompletesModifier dialect)
      (modifier? ending dialect expression allowance) tokens := by
  refine stops_peek_bind fun _ => ?_
  cases tokens with
  | nil => exact stops_pure _
  | cons token tokens =>
      have understood := readable.understood token List.mem_cons_self
      simp only [List.head?_cons]
      cases kind : token.kind with
      | number | string =>
          simp only [Dialect.Understands, kind] at understood
          obtain ⟨atom, known⟩ := understood
          exact stops_take_bind known (stops_pure _)
      | dot => exact stops_partialSend? sound stops kind readable
      | symbol =>
          obtain ⟨atom, known⟩ := understood.exists_symbol kind
          refine stops_take_bind known (stops_peekKind_bind fun _ => ?_)
          refine stops_ite (fun dotted => ?_) fun _ => ?_
          · refine stops_bind (stops tokens readable.tail) ?_ ?_
            · intro front rest split completes
              rw [split] at dotted
              exact completes.dotSend kind dotted
            · intro target rest parsed
              exact ⟨target.tokens, (sound _ _ _ parsed).1, stops_pure _⟩
          · refine stops_bind (stops_arguments sound stops (readable.tail.weaken (Nat.le_succ _)))
              (fun _ _ _ completes => completes.implicitSend kind) ?_
            intro listed rest parsed
            exact ⟨listed.tokens, (arguments_sound sound parsed).1, stops_pure _⟩
      | openParen =>
          refine stops_bind (stops_delimited sound stops divides_arguments readable.tail) ?_ ?_
          · intro front rest _ completes
            obtain ⟨more, rfl, completes⟩ := completes
            exact completes.parenthesized kind
          · intro listed rest parsed
            exact ⟨_, delimited_split sound parsed, stops_pure _⟩
      | openBrace =>
          refine stops_bind (stops_delimited sound stops divides_body readable.tail) ?_ ?_
          · intro front rest _ completes
            obtain ⟨more, rfl, completes⟩ := completes
            exact completes.braced kind
          · intro listed rest parsed
            exact ⟨_, delimited_split sound parsed, stops_pure _⟩
      | closeBrace | closeParen | semicolon | comma => exact stops_pure _

theorem stops_modifiers {steps : Nat} (enough : steps ≤ allowance + 1)
    (readable : Readable dialect steps tokens) :
    Stops ending (CompletesModifiers dialect)
      (modifiers (modifier? ending dialect expression allowance) steps) tokens := by
  induction steps generalizing tokens with
  | zero => exact (Nat.not_lt_zero _ readable.short).elim
  | succ steps ih =>
      refine stops_bind (stops_modifier? sound stops (readable.weaken enough))
        (fun _ _ _ completes => completes.last) ?_
      intro found rest parsed
      have start := modifier?_sound sound parsed
      cases found with
      | none =>
          subst start
          exact ⟨[], rfl, stops_pure _⟩
      | some modifier =>
          obtain ⟨rfl, wellFormed, reach⟩ := start
          have behind := readable.behind wellFormed.opens
          refine ⟨modifier.tokens, rfl, ?_⟩
          rcases reach with unit | ended
          · refine stops_bind (ih (by omega) behind) ?_ ?_
            · intro front rest split completes
              rw [split] at wellFormed
              exact completes.more unit wellFormed
            · intro others after followed
              have more := modifiers_sound sound followed
              cases others with
              | none =>
                  dsimp only at more
                  subst more
                  exact ⟨[], rfl, stops_pure _⟩
              | some others => exact ⟨others.tokens, more.1, stops_pure _⟩
          · obtain ⟨steps, rfl⟩ : ∃ less, steps = less + 1 :=
              ⟨steps - 1, by have short := behind.short; omega⟩
            exact stops_of_ok (bind_of_ok (modifiers_atEnd ended))

end Modifiers

/-! ### Expressions -/

section Expressions

variable {dialect : Dialect} {allowance : Nat} {tokens : List Token}

theorem syntactic_afterModifiers (last : Modifier) : (afterModifiers last).IsSyntactic := by
  cases last <;> trivial

theorem stops_form {expression : Parsing Expression} (sound : Sound ending dialect expression)
    (stops : ∀ tokens, Readable dialect allowance tokens →
      Stops ending (CompletesExpression dialect) expression tokens)
    {first : Modifier} {token : Token} (wellFormed : first.WellFormed dialect (token :: tokens))
    (reach : first.IsUnit ∨ AtEnd ending (token :: tokens))
    (standsApart : dialect.isInfix token = false)
    (readable : Readable dialect allowance (token :: tokens)) :
    Stops ending (fun front => CompletesExpression dialect (first.tokens ++ front))
      (form ending (modifier? ending dialect expression allowance) first allowance)
      (token :: tokens) := by
  rcases reach with unit | ended
  · refine stops_peekKind_bind fun _ => ?_
    refine stops_ite (fun _ => stops_pure _) fun _ => ?_
    have apart {front rest : List Token} (split : token :: tokens = front ++ rest) :
        ∀ first ∈ (front ++ rest).head?, dialect.isInfix first = false := by
      rw [← split]
      intro first among
      cases among
      exact standsApart
    refine stops_bind (stops_modifiers sound stops (Nat.le_succ _) readable) ?_ ?_
    · intro front rest split completes
      rw [split] at wellFormed
      exact completes.form unit wellFormed (apart split)
    · intro found rest followed
      have more := modifiers_sound sound followed
      cases found with
      | none =>
          dsimp only at more
          subst more
          refine ⟨[], rfl, stops_fail (syntactic_afterModifiers first) ?_⟩
          rw [List.nil_append, List.append_nil]
          exact wellFormed.completesExpression
      | some others =>
          obtain ⟨split, othersWellFormed⟩ := more
          refine ⟨others.tokens, split, stops_peekKind_bind fun _ => ?_⟩
          refine stops_ite (fun _ => stops_pure _) fun _ => ?_
          refine stops_fail (syntactic_afterModifiers _) ?_
          rw [List.append_nil]
          rw [split] at wellFormed
          exact othersWellFormed.completesModifiers.form unit wellFormed (apart split)
  · exact stops_of_ok (form_atEnd ended)

theorem stops_expressionStep {expression : Parsing Expression} (symbols : dialect.JoinsSymbols)
    (sound : Sound ending dialect expression)
    (stops : ∀ tokens, Readable dialect allowance tokens →
      Stops ending (CompletesExpression dialect) expression tokens)
    (readable : Readable dialect (allowance + 1) tokens) :
    Stops ending (CompletesExpression dialect)
      (expressionStep ending dialect expression allowance) tokens := by
  refine stops_bind (stops_modifier? sound stops readable)
    (fun _ _ _ completes => completes.expression) ?_
  intro found rest parsed
  have start := modifier?_sound sound parsed
  cases found with
  | none =>
      subst start
      exact ⟨[], rfl, stops_fail trivial completesExpression_nil⟩
  | some first =>
      obtain ⟨rfl, wellFormed, reach⟩ := start
      have behind := readable.behind wellFormed.opens
      refine ⟨first.tokens, rfl, stops_peek_bind fun _ => ?_⟩
      cases rest with
      | nil => exact stops_pure _
      | cons token rest =>
          refine stops_ite (fun joins => ?_) fun apart => ?_
          · have symbol := symbols token joins
            obtain ⟨atom, known⟩ :=
              (behind.understood token List.mem_cons_self).exists_symbol symbol
            have unit : first.IsUnit := by
              apply reach.resolve_right
              intro ended
              rw [ended.isInfix_eq_false symbols] at joins
              cases joins
            refine stops_take_bind known ?_
            have right := (behind.weaken (Nat.le_succ _)).tail
            refine stops_bind (stops rest right)
              (fun _ _ _ completes => completes.operation unit wellFormed joins) ?_
            intro tree after further
            exact ⟨tree.tokens, (sound _ _ _ further).1, stops_pure _⟩
          · exact stops_form sound stops wellFormed reach (Bool.eq_false_iff.mpr apart) behind

theorem stops_expressionWithin (symbols : dialect.JoinsSymbols)
    (readable : Readable dialect allowance tokens) :
    Stops ending (CompletesExpression dialect) (expressionWithin ending dialect allowance)
      tokens := by
  induction allowance generalizing tokens with
  | zero => exact (Nat.not_lt_zero _ readable.short).elim
  | succ allowance ih =>
      exact stops_expressionStep symbols (expressionWithin_sound symbols allowance)
        (fun _ readable => ih readable) readable

end Expressions

end Predictive

end Grammar

end MessageForms
