import MessageForms.Proofs.Grammar.Soundness

set_option autoImplicit false

/-! The predictive parser accepts everything that is in the grammar, and builds the very tree that
the tokens come from; so no tokens have two trees. An allowance beyond the number of tokens is
enough. -/

namespace MessageForms

def Dialect.Understands (dialect : Dialect) (token : Token) : Prop :=
  match token.kind with
  | .number => ∃ atom, dialect.number token = .ok atom
  | .string => ∃ atom, dialect.string token = .ok atom
  | .symbol => ∃ atom, dialect.symbol token = .ok atom
  | _ => True

theorem Dialect.Understands.exists_symbol {dialect : Dialect} {token : Token}
    (understood : dialect.Understands token) (kind : token.kind = .symbol) :
    ∃ atom, dialect.symbol token = .ok atom := by
  unfold Understands at understood
  rw [kind] at understood
  exact understood

namespace Grammar

/-- The delimiters and the closing token of a list end the expressions inside of it, and can be
told apart. -/
structure Divides (delimiters : List TokenKind) (close : Option TokenKind) : Prop where
  dividing : ∀ kind ∈ delimiters, kind.endsExpression = true
  closing : ∀ kind ∈ close, kind.endsExpression = true
  apart : ∀ kind ∈ close, kind ∉ delimiters

theorem divides_arguments : Divides Reading.argumentDelimiters (some .closeParen) := by
  constructor <;> decide

theorem divides_body : Divides Reading.bodyDelimiters (some .closeBrace) := by
  constructor <;> decide

theorem divides_program : Divides Reading.bodyDelimiters none := by
  constructor <;> decide

theorem Closed.atEnd {ending : Option Fault} {delimiters : List TokenKind}
    {close : Option TokenKind} {tokens : List Token} (closed : Closed ending close tokens)
    (divides : Divides delimiters close) : AtEnd ending tokens := by
  refine ⟨closed.clear, ?_⟩
  rw [closed.next]
  cases close with
  | none => rfl
  | some kind => exact divides.closing kind rfl

theorem Opens.nextKind_ne {tokens : List Token} {delimiters : List TokenKind}
    {close : Option TokenKind} (opens : Opens tokens) (divides : Divides delimiters close) :
    nextKind tokens ≠ close := by
  rcases opens with ⟨token, others, rfl, starts⟩
  intro same
  have ends := divides.closing token.kind same.symm
  rw [starts] at ends
  cases ends

theorem MoreItems.WellFormed.atEnd {ending : Option Fault} {dialect : Dialect}
    {delimiters : List TokenKind} {close : Option TokenKind} {others : MoreItems}
    {following : List Token} (divides : Divides delimiters close)
    (wellFormed : others.WellFormed dialect delimiters following)
    (closed : Closed ending close following) : AtEnd ending (others.tokens ++ following) := by
  cases others with
  | ended => exact closed.atEnd divides
  | trailing delimiter =>
      exact ⟨Predictive.clear_cons _ _ _, divides.dividing _ wellFormed⟩
  | more delimiter item others =>
      exact ⟨Predictive.clear_cons _ _ _, divides.dividing _ wellFormed.1⟩

namespace Predictive

section Steps

variable {ending : Option Fault} {dialect : Dialect} {expression : Parsing Expression}
  {allowance : Nat} {following : List Token}

theorem delimited_eq {delimiters : List TokenKind} {kind : TokenKind} {inner : Items}
    (opening : Token) {closing : Token}
    (listed : items ending expression delimiters (some kind) allowance
      (inner.tokens ++ closing :: following) = .ok inner (closing :: following)) :
    delimited ending expression allowance delimiters kind
      (opening :: (inner.tokens ++ closing :: following)) = .ok (inner, closing) following := by
  rw [delimited, read_bind (clear_cons _ _ _), List.tail_cons, bind_of_ok listed,
    read_bind (clear_cons _ _ _)]
  rfl

end Steps

section Trees

variable {ending : Option Fault} {dialect : Dialect}

/-! The parser takes each tree off the front of the tokens. The induction is on the trees; what
may follow a tree is part of each statement, since a tree is well formed only in front of it. -/

mutual

theorem modifier?_complete
    (symbols : dialect.JoinsSymbols) (modifier : Modifier)
    {following : List Token} {allowance : Nat}
    (wellFormed : modifier.WellFormed dialect following)
    (understood : ∀ token ∈ modifier.tokens, dialect.Understands token)
    (clear : Clear ending following) (reach : modifier.IsUnit ∨ AtEnd ending following)
    (enough : modifier.tokens.length ≤ allowance) :
    modifier? ending dialect (expressionWithin ending dialect allowance) allowance
      (modifier.tokens ++ following) = .ok (some modifier) following := by
  cases modifier with
  | literal token =>
      have known := understood token (List.mem_singleton.mpr rfl)
      rw [Modifier.tokens, List.singleton_append, modifier?, peek_bind (clear_cons _ _ _),
        List.head?_cons]
      rcases wellFormed with kind | kind
      · simp only [Dialect.Understands, kind] at known ⊢
        rcases known with ⟨atom, known⟩
        exact take_bind (clear_cons _ _ _) known _
      · simp only [Dialect.Understands, kind] at known ⊢
        rcases known with ⟨atom, known⟩
        exact take_bind (clear_cons _ _ _) known _
  | partialSend dot name arguments =>
      rcases wellFormed with ⟨isDot, symbol, wellFormed⟩
      obtain ⟨atom, known⟩ := (understood name (by simp [Modifier.tokens])).exists_symbol symbol
      rw [Modifier.tokens, List.length_cons, List.length_cons] at enough
      have listed := arguments_complete symbols arguments wellFormed
        (fun token among => understood token (by simp [Modifier.tokens, among])) clear
        (show arguments.tokens.length ≤ allowance by omega)
      rw [Modifier.tokens, List.cons_append, List.cons_append, modifier?,
        peek_bind (clear_cons _ _ _), List.head?_cons]
      simp only [isDot]
      rw [partialSend?, List.tail_cons, peek_of_clear (clear_cons _ _ _), List.head?_cons]
      simp only [if_pos symbol]
      rw [take_bind (clear_cons _ _ _) known, List.tail_cons, bind_of_ok listed]
      rfl
  | implicitSend name arguments =>
      rcases wellFormed with ⟨symbol, wellFormed, undotted⟩
      obtain ⟨atom, known⟩ := (understood name (by simp [Modifier.tokens])).exists_symbol symbol
      rw [Modifier.tokens, List.length_cons] at enough
      have listed := arguments_complete symbols arguments wellFormed
        (fun token among => understood token (by simp [Modifier.tokens, among])) clear
        (show arguments.tokens.length ≤ allowance by omega)
      rw [Modifier.tokens, List.cons_append, modifier?, peek_bind (clear_cons _ _ _),
        List.head?_cons]
      simp only [symbol]
      rw [take_bind (clear_cons _ _ _) known, List.tail_cons,
        peekKind_bind (clear.append _), if_neg undotted, bind_of_ok listed]
      rfl
  | parenthesized opening inner closing =>
      rcases wellFormed with ⟨opens, closes, wellFormed⟩
      rw [Modifier.tokens, List.length_cons, List.length_append, List.length_singleton] at enough
      have listed := items_complete symbols inner divides_arguments wellFormed
        (fun token among => understood token (by simp [Modifier.tokens, among]))
        ⟨clear_cons ending closing following, congrArg some closes⟩
        (show inner.tokens.length < allowance by omega)
      rw [Modifier.tokens, List.cons_append, List.append_assoc, List.singleton_append, modifier?,
        peek_bind (clear_cons _ _ _), List.head?_cons]
      simp only [opens]
      rw [bind_of_ok (delimited_eq opening listed)]
      rfl
  | braced opening inner closing =>
      rcases wellFormed with ⟨opens, closes, wellFormed⟩
      rw [Modifier.tokens, List.length_cons, List.length_append, List.length_singleton] at enough
      have listed := items_complete symbols inner divides_body wellFormed
        (fun token among => understood token (by simp [Modifier.tokens, among]))
        ⟨clear_cons ending closing following, congrArg some closes⟩
        (show inner.tokens.length < allowance by omega)
      rw [Modifier.tokens, List.cons_append, List.append_assoc, List.singleton_append, modifier?,
        peek_bind (clear_cons _ _ _), List.head?_cons]
      simp only [opens]
      rw [bind_of_ok (delimited_eq opening listed)]
      rfl
  | dotSend name target =>
      rcases wellFormed with ⟨symbol, dotted, wellFormed⟩
      obtain ⟨atom, known⟩ := (understood name (by simp [Modifier.tokens])).exists_symbol symbol
      have ended : AtEnd ending following := reach.resolve_left fun impossible => impossible
      rw [Modifier.tokens, List.length_cons] at enough
      have parsed := expressionWithin_complete symbols target wellFormed
        (fun token among => understood token (by simp [Modifier.tokens, among])) ended
        (show target.tokens.length < allowance by omega)
      rw [Modifier.tokens, List.cons_append, modifier?, peek_bind (clear_cons _ _ _),
        List.head?_cons]
      simp only [symbol]
      rw [take_bind (clear_cons _ _ _) known, List.tail_cons, peekKind_bind (clear.append _),
        wellFormed.opens.nextKind_append, if_pos dotted, bind_of_ok parsed]
      rfl

theorem arguments_complete
    (symbols : dialect.JoinsSymbols) (found : Arguments) {following : List Token} {allowance : Nat}
    (wellFormed : found.WellFormed dialect following)
    (understood : ∀ token ∈ found.tokens, dialect.Understands token)
    (clear : Clear ending following) (enough : found.tokens.length ≤ allowance) :
    arguments ending (expressionWithin ending dialect allowance) allowance
      (found.tokens ++ following) = .ok found following := by
  cases found with
  | absent =>
      rw [Arguments.tokens, List.nil_append, arguments, peek_bind clear]
      cases following with
      | nil => rfl
      | cons token following =>
          have other : token.kind ≠ .openParen := fun same => wellFormed (congrArg some same)
          simp only [List.head?_cons, if_neg other]
          rfl
  | listed opening inner closing =>
      rcases wellFormed with ⟨opens, closes, wellFormed⟩
      rw [Arguments.tokens, List.length_cons, List.length_append, List.length_singleton] at enough
      have listed := items_complete symbols inner divides_arguments wellFormed
        (fun token among => understood token (by simp [Arguments.tokens, among]))
        ⟨clear_cons ending closing following, congrArg some closes⟩
        (show inner.tokens.length < allowance by omega)
      rw [Arguments.tokens, List.cons_append, List.append_assoc, List.singleton_append, arguments,
        peek_bind (clear_cons _ _ _), List.head?_cons]
      simp only [if_pos opens]
      rw [bind_of_ok (delimited_eq opening listed)]
      rfl

theorem items_complete
    (symbols : dialect.JoinsSymbols) (inner : Items)
    {delimiters : List TokenKind} {close : Option TokenKind}
    (divides : Divides delimiters close) {following : List Token} {allowance : Nat}
    (wellFormed : inner.WellFormed dialect delimiters following)
    (understood : ∀ token ∈ inner.tokens, dialect.Understands token)
    (closed : Closed ending close following) (enough : inner.tokens.length < allowance) :
    items ending (expressionWithin ending dialect allowance) delimiters close allowance
      (inner.tokens ++ following) = .ok inner following := by
  cases inner with
  | empty =>
      rw [Items.tokens, List.nil_append, items, peekKind_bind closed.clear, if_pos closed.next]
      rfl
  | first item others =>
      rcases wellFormed with ⟨itemWellFormed, wellFormed⟩
      rw [Items.tokens, List.length_append] at enough
      have opens := itemWellFormed.opens.append (others.tokens ++ following)
      have parsed := expressionWithin_complete symbols item itemWellFormed
        (fun token among => understood token (by simp [Items.tokens, among]))
        (wellFormed.atEnd divides closed) (show item.tokens.length < allowance by omega)
      have further := moreItems_complete symbols others divides wellFormed
        (fun token among => understood token (by simp [Items.tokens, among])) closed
        (show others.tokens.length < allowance by omega)
        (show others.tokens.length < allowance by omega)
      rw [Items.tokens, List.append_assoc, items, peekKind_bind (opens.clear ending),
        if_neg (opens.nextKind_ne divides), bind_of_ok parsed, bind_of_ok further]
      rfl

theorem moreItems_complete
    (symbols : dialect.JoinsSymbols) (others : MoreItems)
    {delimiters : List TokenKind} {close : Option TokenKind}
    (divides : Divides delimiters close) {following : List Token} {allowance steps : Nat}
    (wellFormed : others.WellFormed dialect delimiters following)
    (understood : ∀ token ∈ others.tokens, dialect.Understands token)
    (closed : Closed ending close following) (enough : others.tokens.length < allowance)
    (passes : others.tokens.length < steps) :
    moreItems ending (expressionWithin ending dialect allowance) delimiters close steps
      (others.tokens ++ following) = .ok others following := by
  obtain ⟨steps, rfl⟩ : ∃ less, steps = less + 1 := ⟨steps - 1, by omega⟩
  cases others with
  | ended =>
      rw [MoreItems.tokens, List.nil_append, moreItems.eq_def]
      dsimp only
      rw [peek_bind closed.clear]
      cases following with
      | nil =>
          cases closed.next
          rfl
      | cons token following =>
          have closes : close = some token.kind := closed.next.symm
          simp only [List.head?_cons]
          rw [if_pos closes]
          rfl
  | trailing delimiter =>
      have divider : delimiter.kind ∈ delimiters := wellFormed
      have unclosed : close ≠ some delimiter.kind := fun same => divides.apart _ same divider
      rw [MoreItems.tokens, List.singleton_append, moreItems.eq_def]
      dsimp only
      rw [peek_bind (clear_cons _ _ _)]
      simp only [List.head?_cons, if_neg unclosed, if_neg (not_not_intro divider)]
      rw [read_bind (clear_cons _ _ _), List.tail_cons, peekKind_bind closed.clear,
        if_pos closed.next]
      rfl
  | more delimiter item others =>
      rcases wellFormed with ⟨divider, itemWellFormed, wellFormed⟩
      have unclosed : close ≠ some delimiter.kind := fun same => divides.apart _ same divider
      rw [MoreItems.tokens, List.length_cons, List.length_append] at enough passes
      have opens := itemWellFormed.opens.append (others.tokens ++ following)
      have parsed := expressionWithin_complete symbols item itemWellFormed
        (fun token among => understood token (by simp [MoreItems.tokens, among]))
        (wellFormed.atEnd divides closed) (show item.tokens.length < allowance by omega)
      have further := moreItems_complete symbols others divides wellFormed
        (fun token among => understood token (by simp [MoreItems.tokens, among])) closed
        (show others.tokens.length < allowance by omega)
        (show others.tokens.length < steps by omega)
      rw [MoreItems.tokens, List.cons_append, List.append_assoc, moreItems.eq_def]
      dsimp only
      rw [peek_bind (clear_cons _ _ _)]
      simp only [List.head?_cons, if_neg unclosed, if_neg (not_not_intro divider)]
      rw [read_bind (clear_cons _ _ _), List.tail_cons, peekKind_bind (opens.clear ending),
        if_neg (opens.nextKind_ne divides), bind_of_ok parsed, bind_of_ok further]
      rfl

theorem expressionWithin_complete
    (symbols : dialect.JoinsSymbols) (tree : Expression) {following : List Token} {allowance : Nat}
    (wellFormed : tree.WellFormed dialect following)
    (understood : ∀ token ∈ tree.tokens, dialect.Understands token)
    (ended : AtEnd ending following) (enough : tree.tokens.length < allowance) :
    expressionWithin ending dialect allowance (tree.tokens ++ following) = .ok tree following := by
  obtain ⟨allowance, rfl⟩ : ∃ less, allowance = less + 1 := ⟨allowance - 1, by omega⟩
  rw [expressionWithin, expressionStep]
  cases tree with
  | single modifier =>
      have found := modifier?_complete symbols modifier wellFormed understood ended.clear
        (.inr ended) (Nat.le_of_lt_succ enough)
      rw [Expression.tokens, bind_of_ok found]
      dsimp only
      rw [peek_bind ended.clear]
      cases following with
      | nil => rfl
      | cons token following =>
          simp only [List.head?_cons, ended.isInfix_eq_false symbols]
          exact form_atEnd ended
  | operation left operator right =>
      rcases wellFormed with ⟨unit, leftWellFormed, joins, rightWellFormed⟩
      have understandable := understood operator (by simp [Expression.tokens])
      obtain ⟨atom, known⟩ := understandable.exists_symbol (symbols operator joins)
      rw [Expression.tokens, List.length_append, List.length_cons] at enough
      have found := modifier?_complete symbols left leftWellFormed
        (fun token among => understood token (by simp [Expression.tokens, among]))
        (clear_cons ending _ _) (.inl unit) (show left.tokens.length ≤ allowance by omega)
      have parsed := expressionWithin_complete symbols right rightWellFormed
        (fun token among => understood token (by simp [Expression.tokens, among])) ended
        (show right.tokens.length < allowance by omega)
      rw [Expression.tokens, List.append_assoc, List.cons_append, bind_of_ok found]
      dsimp only
      rw [peek_bind (clear_cons _ _ _)]
      simp only [List.head?_cons, if_pos joins]
      rw [take_bind (clear_cons _ _ _) known, List.tail_cons, bind_of_ok parsed]
      rfl
  | form first others =>
      rcases wellFormed with ⟨unit, firstWellFormed, standsApart, wellFormed⟩
      rw [Expression.tokens, List.length_append] at enough
      have opens := wellFormed.opens
      have clear := (opens.append following).clear ending
      have nonempty : 0 < first.tokens.length := firstWellFormed.opens.length_pos
      have found := modifier?_complete symbols first firstWellFormed
        (fun token among => understood token (by simp [Expression.tokens, among])) clear
        (.inl unit) (show first.tokens.length ≤ allowance by omega)
      have followed := modifiers_complete symbols others wellFormed
        (fun token among => understood token (by simp [Expression.tokens, among])) ended
        (show others.tokens.length ≤ allowance by omega)
        (show others.tokens.length < allowance by omega)
      rw [Expression.tokens, List.append_assoc, bind_of_ok found]
      dsimp only
      rw [peek_bind clear]
      rcases opens with ⟨token, behind, listed, starts⟩
      have apart : dialect.isInfix token = false := by
        apply standsApart token
        rw [listed]
        rfl
      have goesOn : ¬ Reading.isAtEnd (nextKind (others.tokens ++ following)) = true := by
        rw [listed]
        exact Bool.eq_false_iff.mp starts
      have next : (others.tokens ++ following).head? = some token := by
        rw [listed]
        rfl
      simp only [next, apart]
      apply (peekKind_bind clear _).trans
      rw [if_neg goesOn, bind_of_ok followed]
      dsimp only
      rw [peekKind_bind ended.clear, if_pos ended.ends]
      rfl

theorem modifiers_complete
    (symbols : dialect.JoinsSymbols) (others : Modifiers)
    {following : List Token} {allowance steps : Nat}
    (wellFormed : others.WellFormed dialect following)
    (understood : ∀ token ∈ others.tokens, dialect.Understands token)
    (ended : AtEnd ending following) (enough : others.tokens.length ≤ allowance)
    (passes : others.tokens.length < steps) :
    modifiers (modifier? ending dialect (expressionWithin ending dialect allowance) allowance)
      steps (others.tokens ++ following) = .ok (some others) following := by
  obtain ⟨steps, rfl⟩ : ∃ less, steps = less + 1 := ⟨steps - 1, by omega⟩
  rw [modifiers]
  cases others with
  | last modifier =>
      have found := modifier?_complete symbols modifier wellFormed understood ended.clear
        (.inr ended) enough
      obtain ⟨steps, rfl⟩ : ∃ less, steps = less + 1 := by
        have more : 0 < (Modifiers.last modifier).tokens.length :=
          (Modifier.WellFormed.opens wellFormed).length_pos
        exact ⟨steps - 1, by omega⟩
      have finished : modifiers
          (modifier? ending dialect (expressionWithin ending dialect allowance) allowance)
          (steps + 1) following = .ok none following := by
        rw [modifiers, bind_of_ok (modifier?_atEnd ended)]
        rfl
      rw [Modifiers.tokens, bind_of_ok found]
      dsimp only
      rw [bind_of_ok finished]
      rfl
  | more modifier others =>
      rcases wellFormed with ⟨unit, firstWellFormed, wellFormed⟩
      rw [Modifiers.tokens, List.length_append] at enough passes
      have nonempty : 0 < modifier.tokens.length := firstWellFormed.opens.length_pos
      have found := modifier?_complete symbols modifier firstWellFormed
        (fun token among => understood token (by simp [Modifiers.tokens, among]))
        ((wellFormed.opens.append following).clear ending) (.inl unit)
        (show modifier.tokens.length ≤ allowance by omega)
      have followed := modifiers_complete symbols others wellFormed
        (fun token among => understood token (by simp [Modifiers.tokens, among])) ended
        (show others.tokens.length ≤ allowance by omega)
        (show others.tokens.length < steps by omega)
      rw [Modifiers.tokens, List.append_assoc, bind_of_ok found]
      dsimp only
      rw [bind_of_ok followed]
      rfl

end

end Trees

end Predictive

end Grammar

end MessageForms
