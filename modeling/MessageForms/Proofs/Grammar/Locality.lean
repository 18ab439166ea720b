import MessageForms.Proofs.Grammar.Moved
import MessageForms.Proofs.Grammar.Soundness

set_option autoImplicit false

/-! What the parser decides by. It sees the kind and the text of the tokens that it consumes, and of
the token behind them; behind a dot it sees one token more. So the outcome of a run carries over to
every run that starts with the same tokens at other places, whatever comes later, as long as it is
allowed as many steps. -/

namespace MessageForms

/-- What is made of a token does not hang on its place. -/
structure Dialect.PlaceFree (dialect : Dialect) : Prop where
  number : ∀ place token atom, dialect.number token = .ok atom →
    ∃ atom', dialect.number (token.moved place) = .ok atom'
  symbol : ∀ place token atom, dialect.symbol token = .ok atom →
    ∃ atom', dialect.symbol (token.moved place) = .ok atom'
  string : ∀ place token atom, dialect.string token = .ok atom →
    ∃ atom', dialect.string (token.moved place) = .ok atom'
  isInfix : ∀ place token, dialect.isInfix (token.moved place) = dialect.isInfix token

namespace Grammar

open Predictive

/-- The tokens cannot be told apart by looking ahead: they start with the same token, and if that is
a dot, the tokens behind it are the same too. -/
def SameStart : List Token → List Token → Prop
  | [], [] => True
  | token :: others, token' :: others' =>
      token' = token ∧ (token.kind = .dot → others'.head? = others.head?)
  | _, _ => False

theorem SameStart.refl (tokens : List Token) : SameStart tokens tokens := by
  cases tokens with
  | nil => trivial
  | cons token tokens => exact ⟨rfl, fun _ => rfl⟩

theorem SameStart.eq_nil {tokens' : List Token} (same : SameStart [] tokens') : tokens' = [] := by
  cases tokens' with
  | nil => rfl
  | cons token' tokens' => exact same.elim

theorem SameStart.exists_cons {token : Token} {tokens tokens' : List Token}
    (same : SameStart (token :: tokens) tokens') :
    ∃ others', tokens' = token :: others' ∧ (token.kind = .dot → others'.head? = tokens.head?) := by
  cases tokens' with
  | nil => exact same.elim
  | cons token' others' =>
      obtain ⟨rfl, behind⟩ := same
      exact ⟨others', rfl, behind⟩

theorem SameStart.head?_eq {tokens tokens' : List Token} (same : SameStart tokens tokens') :
    tokens'.head? = tokens.head? := by
  cases tokens with
  | nil => rw [same.eq_nil]
  | cons token tokens =>
      obtain ⟨others', rfl, -⟩ := same.exists_cons
      rfl

theorem SameStart.append {tokens tokens' : List Token} (same : SameStart tokens tokens')
    (front : List Token) : SameStart (front ++ tokens) (front ++ tokens') := by
  cases front with
  | nil => exact same
  | cons token front =>
      refine ⟨rfl, fun _ => ?_⟩
      change (front ++ tokens').head? = (front ++ tokens).head?
      rw [List.head?_append, List.head?_append, same.head?_eq]

section Carries

variable (place : Position → Position)

/-- The outcome of the parser carries over to the other one: on the tokens that it consumes, at
other places and in front of any others that start alike, that one finds what is moved in the same
way, or stops with the same complaint. Faults are not carried over. -/
def Carries {α : Type} (move : α → α) (parser parser' : Parsing α) (tokens : List Token) : Prop :=
  match parser tokens with
  | .ok result rest =>
      ∃ front, tokens = front ++ rest ∧
        ∀ rest', SameStart (rest.map (Token.moved place)) rest' →
          parser' (front.map (Token.moved place) ++ rest') = .ok (move result) rest'
  | .error (.complaint cause) rest =>
      ∃ front, tokens = front ++ rest ∧
        ∀ rest', SameStart (rest.map (Token.moved place)) rest' →
          parser' (front.map (Token.moved place) ++ rest') = .error (.complaint cause) rest'
  | .error (.fault _) _ => True

variable {place} {α β : Type} {tokens : List Token} {ending : Option Fault}

/-! ### Composition -/

theorem carries_pure {move : α → α} {result result' : α} (same : result' = move result) :
    Carries place move (pure result) (pure result') tokens := by
  subst same
  exact ⟨[], rfl, fun _ _ => rfl⟩

theorem carries_fault {move : α → α} (fault : Fault) (parser' : Parsing α) :
    Carries place move (throw (.fault fault)) parser' tokens :=
  trivial

theorem Carries.bind {move : α → α} {move' : β → β} {first first' : Parsing α}
    {next next' : α → Parsing β} (carries : Carries place move first first' tokens)
    (others : ∀ result rest, first tokens = .ok result rest →
      Carries place move' (next result) (next' (move result)) rest) :
    Carries place move' (first >>= next) (first' >>= next') tokens := by
  rw [Carries, bind_apply]
  cases parsed : first tokens with
  | ok result middle =>
      rw [Carries, parsed] at carries
      obtain ⟨front, rfl, again⟩ := carries
      have further := others result middle parsed
      rw [Carries] at further
      dsimp only
      cases outcome : next result middle with
      | ok final rest =>
          rw [outcome] at further
          obtain ⟨more, rfl, againFurther⟩ := further
          refine ⟨front ++ more, (List.append_assoc _ _ _).symm, fun rest' same => ?_⟩
          have start := again (more.map (Token.moved place) ++ rest')
            (by rw [List.map_append]; exact same.append _)
          rw [List.map_append, List.append_assoc, bind_of_ok start]
          exact againFurther rest' same
      | error stop rest =>
          rw [outcome] at further
          cases stop with
          | fault fault => trivial
          | complaint cause =>
              obtain ⟨more, rfl, againFurther⟩ := further
              refine ⟨front ++ more, (List.append_assoc _ _ _).symm, fun rest' same => ?_⟩
              have start := again (more.map (Token.moved place) ++ rest')
                (by rw [List.map_append]; exact same.append _)
              rw [List.map_append, List.append_assoc, bind_of_ok start]
              exact againFurther rest' same
  | error stop rest =>
      rw [Carries, parsed] at carries
      cases stop with
      | fault fault => trivial
      | complaint cause =>
          obtain ⟨front, rfl, again⟩ := carries
          exact ⟨front, rfl, fun rest' same => bind_of_error (again rest' same)⟩

theorem Carries.ite {move : α → α} {condition : Prop} [Decidable condition]
    {yes no yes' no' : Parsing α}
    (carriesYes : condition → Carries place move yes yes' tokens)
    (carriesNo : ¬ condition → Carries place move no no' tokens) :
    Carries place move (if condition then yes else no) (if condition then yes' else no')
      tokens := by
  by_cases decided : condition
  · rw [if_pos decided, if_pos decided]
    exact carriesYes decided
  · rw [if_neg decided, if_neg decided]
    exact carriesNo decided

theorem Carries.behind {move : α → α} {parser parser' outer outer' : Parsing α}
    {first second : Token}
    (carries : Carries place move parser parser' (second :: tokens))
    (passes : outer (first :: second :: tokens) = parser (second :: tokens))
    (passes' : ∀ rest, rest.head? = some (second.moved place) →
      outer' (first.moved place :: rest) = parser' rest) :
    Carries place move outer outer' (first :: second :: tokens) := by
  rw [Carries, passes]
  rw [Carries] at carries
  have seen {front rest rest' : List Token} (split : second :: tokens = front ++ rest)
      (same : SameStart (rest.map (Token.moved place)) rest') :
      (front.map (Token.moved place) ++ rest').head? = some (second.moved place) := by
    rw [(same.append (front.map (Token.moved place))).head?_eq, ← List.map_append, ← split]
    rfl
  cases parsed : parser (second :: tokens) with
  | ok result rest =>
      rw [parsed] at carries
      obtain ⟨front, split, again⟩ := carries
      refine ⟨first :: front, congrArg (first :: ·) split, fun rest' same => ?_⟩
      rw [List.map_cons, List.cons_append, passes' _ (seen split same)]
      exact again rest' same
  | error stop rest =>
      rw [parsed] at carries
      cases stop with
      | fault fault => trivial
      | complaint cause =>
          obtain ⟨front, split, again⟩ := carries
          refine ⟨first :: front, congrArg (first :: ·) split, fun rest' same => ?_⟩
          rw [List.map_cons, List.cons_append, passes' _ (seen split same)]
          exact again rest' same

/-! ### Single steps -/

theorem carries_peek :
    Carries place (Option.map (Token.moved place)) (peek ending) (peek ending) tokens := by
  cases tokens with
  | cons token tokens =>
      refine ⟨[], rfl, fun rest' same => ?_⟩
      obtain ⟨others', rfl, -⟩ := same.exists_cons
      rfl
  | nil =>
      cases ending with
      | some fault => trivial
      | none =>
          refine ⟨[], rfl, fun rest' same => ?_⟩
          rw [same.eq_nil]
          rfl

theorem carries_peekKind :
    Carries place id (peekKind ending) (peekKind ending) tokens := by
  refine carries_peek.bind fun found rest _ => carries_pure ?_
  cases found <;> rfl

theorem carries_read :
    Carries place (Option.map (Token.moved place)) (read ending) (read ending) tokens := by
  cases tokens with
  | cons token tokens => exact ⟨[token], rfl, fun rest' _ => rfl⟩
  | nil =>
      cases ending with
      | some fault => trivial
      | none =>
          refine ⟨[], rfl, fun rest' same => ?_⟩
          rw [same.eq_nil]
          rfl

theorem carries_fail {move : α → α} (cause : Complaint) :
    Carries place move (fail ending cause) (fail ending cause) tokens := by
  cases tokens with
  | cons token tokens =>
      refine ⟨[], rfl, fun rest' same => ?_⟩
      obtain ⟨others', rfl, -⟩ := same.exists_cons
      rfl
  | nil =>
      cases ending with
      | some fault => trivial
      | none =>
          refine ⟨[], rfl, fun rest' same => ?_⟩
          rw [same.eq_nil]
          rfl

theorem carries_take {understood : Token → Except Fault Atom} {token : Token}
    (known : ∀ atom, understood token = .ok atom →
      ∃ atom', understood (token.moved place) = .ok atom') :
    Carries place (Token.moved place) (take ending understood token)
      (take ending understood (token.moved place)) tokens := by
  refine carries_read.bind fun _ rest _ => ?_
  cases same : understood token with
  | error fault => exact carries_fault fault _
  | ok atom =>
      obtain ⟨atom', same'⟩ := known atom same
      simp only [same']
      exact carries_pure rfl

end Carries

/-! ### Forms -/

theorem afterModifiers_moved (place : Position → Position) (last : Modifier) :
    afterModifiers (last.moved place) = afterModifiers last := by
  cases last <;> rfl

theorem lastOf_moved (place : Position → Position) (others : Modifiers) :
    lastOf (others.moved place) = (lastOf others).moved place := by
  match others with
  | .last modifier => rfl
  | .more modifier others => exact lastOf_moved place others

section Forms

variable {place : Position → Position} {ending : Option Fault}
  {modifier modifier' : Parsing (Option Modifier)} {allowance allowance' : Nat}
  (carries : ∀ tokens, Carries place (Option.map (Modifier.moved place)) modifier modifier' tokens)
  (enough : allowance ≤ allowance')

include carries enough

theorem carries_modifiers (tokens : List Token) :
    Carries place (Option.map (Modifiers.moved place)) (modifiers modifier allowance)
      (modifiers modifier' allowance') tokens := by
  induction allowance generalizing allowance' tokens with
  | zero => exact carries_fault .exhausted _
  | succ allowance ih =>
      obtain ⟨allowance', rfl⟩ : ∃ less, allowance' = less + 1 := ⟨allowance' - 1, by omega⟩
      apply (carries _).bind
      intro first rest _
      cases first with
      | none => exact carries_pure rfl
      | some modifier =>
          refine (ih (by omega) _).bind fun others rest _ => carries_pure ?_
          cases others <;> rfl

theorem carries_form (first : Modifier) (tokens : List Token) :
    Carries place (Expression.moved place) (form ending modifier first allowance)
      (form ending modifier' (first.moved place) allowance') tokens := by
  apply carries_peekKind.bind
  intro kind rest _
  refine Carries.ite (fun _ => carries_pure rfl) fun _ => ?_
  apply (carries_modifiers carries enough _).bind
  intro found rest _
  cases found with
  | none =>
      rw [Option.map_none, afterModifiers_moved]
      exact carries_fail _
  | some others =>
      apply carries_peekKind.bind
      intro kind rest _
      refine Carries.ite (fun _ => carries_pure rfl) fun _ => ?_
      rw [lastOf_moved, afterModifiers_moved]
      exact carries_fail _

end Forms

/-! ### Lists -/

section Parsers

variable {place : Position → Position} {ending : Option Fault} {dialect : Dialect}
  {expression expression' : Parsing Expression} {allowance allowance' : Nat}
  (carries : ∀ tokens, Carries place (Expression.moved place) expression expression' tokens)

include carries

theorem carries_moreItems (delimiters : List TokenKind) (close : Option TokenKind)
    (enough : allowance ≤ allowance') (tokens : List Token) :
    Carries place (MoreItems.moved place)
      (moreItems ending expression delimiters close allowance)
      (moreItems ending expression' delimiters close allowance') tokens := by
  induction allowance generalizing allowance' tokens with
  | zero => exact carries_fault .exhausted _
  | succ allowance ih =>
      obtain ⟨allowance', rfl⟩ : ∃ less, allowance' = less + 1 := ⟨allowance' - 1, by omega⟩
      rw [moreItems.eq_def, moreItems.eq_def]
      apply carries_peek.bind
      intro found rest _
      cases found with
      | none =>
          cases close with
          | none => exact carries_pure rfl
          | some expected => exact carries_fail _
      | some token =>
          refine Carries.ite (fun _ => carries_pure rfl) fun _ => ?_
          refine Carries.ite (fun _ => carries_fail _) fun _ => ?_
          apply carries_read.bind
          intro _ rest _
          apply carries_peekKind.bind
          intro kind rest _
          refine Carries.ite (fun _ => carries_pure rfl) fun _ => ?_
          apply (carries _).bind
          intro item rest _
          exact (ih (by omega) _).bind fun others rest _ => carries_pure rfl

theorem carries_items (delimiters : List TokenKind) (close : Option TokenKind)
    (enough : allowance ≤ allowance') (tokens : List Token) :
    Carries place (Items.moved place)
      (items ending expression delimiters close allowance)
      (items ending expression' delimiters close allowance') tokens := by
  apply carries_peekKind.bind
  intro kind rest _
  refine Carries.ite (fun _ => carries_pure rfl) fun _ => ?_
  apply (carries _).bind
  intro item rest _
  exact (carries_moreItems carries delimiters close enough _).bind fun others rest _ =>
    carries_pure rfl

theorem carries_delimited (sound : Sound ending dialect expression) (delimiters : List TokenKind)
    (close : TokenKind) (enough : allowance ≤ allowance') (tokens : List Token) :
    Carries place (fun listed => (listed.1.moved place, listed.2.moved place))
      (delimited ending expression allowance delimiters close)
      (delimited ending expression' allowance' delimiters close) tokens := by
  apply carries_read.bind
  intro _ rest _
  apply (carries_items carries delimiters (some close) enough _).bind
  intro inner rest parsed
  have closed := (items_sound sound parsed).2.2
  refine carries_read.bind fun closing after found => carries_pure ?_
  cases rest with
  | nil => cases closed.next
  | cons token rest =>
      cases found
      rfl

theorem carries_arguments (sound : Sound ending dialect expression)
    (enough : allowance ≤ allowance') (tokens : List Token) :
    Carries place (Arguments.moved place) (arguments ending expression allowance)
      (arguments ending expression' allowance') tokens := by
  apply carries_peek.bind
  intro found rest _
  cases found with
  | none => exact carries_pure rfl
  | some token =>
      refine Carries.ite (fun _ => ?_) fun _ => carries_pure rfl
      exact (carries_delimited carries sound _ _ enough _).bind fun listed rest _ =>
        carries_pure rfl

/-! ### Modifiers -/

theorem carries_partialSend? (sound : Sound ending dialect expression) (free : dialect.PlaceFree)
    (enough : allowance ≤ allowance') {dot : Token} (isDot : dot.kind = .dot)
    (tokens : List Token) :
    Carries place (Option.map (Modifier.moved place))
      (partialSend? ending dialect expression allowance dot)
      (partialSend? ending dialect expression' allowance' (dot.moved place))
      (dot :: tokens) := by
  cases tokens with
  | nil =>
      cases ending with
      | some fault => trivial
      | none =>
          refine ⟨[], rfl, fun rest' same => ?_⟩
          obtain ⟨others', rfl, behind⟩ := same.exists_cons
          have last : others' = [] := List.head?_eq_none_iff.mp (behind isDot)
          subst last
          rfl
  | cons name tokens =>
      by_cases symbol : name.kind = .symbol
      · have inner : Carries place (Option.map (Modifier.moved place))
            (do
              let name ← take ending dialect.symbol name
              let arguments ← arguments ending expression allowance
              return some (.partialSend dot name arguments))
            (do
              let name ← take ending dialect.symbol (name.moved place)
              let arguments ← arguments ending expression' allowance'
              return some (.partialSend (dot.moved place) name arguments))
            (name :: tokens) := by
          refine (carries_take (free.symbol place name)).bind fun taken rest _ => ?_
          exact (carries_arguments carries sound enough _).bind fun listed rest _ =>
            carries_pure rfl
        refine inner.behind ?_ ?_
        · rw [partialSend?, List.tail_cons, peek_of_clear (clear_cons _ _ _), List.head?_cons]
          simp only [if_pos symbol]
        · intro rest seen
          cases rest with
          | nil => cases seen
          | cons name' rest =>
              cases seen
              rw [partialSend?, List.tail_cons, peek_of_clear (clear_cons _ _ _), List.head?_cons]
              exact if_pos symbol
      · have refused : partialSend? ending dialect expression allowance dot
            (dot :: name :: tokens) = .ok none (dot :: name :: tokens) := by
          rw [partialSend?, List.tail_cons, peek_of_clear (clear_cons _ _ _), List.head?_cons]
          simp only [if_neg symbol]
        rw [Carries, refused]
        refine ⟨[], rfl, fun rest' same => ?_⟩
        obtain ⟨others', rfl, behind⟩ := same.exists_cons
        cases others' with
        | nil => cases behind isDot
        | cons name' others' =>
            cases behind isDot
            rw [List.map_nil, List.nil_append, partialSend?, List.tail_cons,
              peek_of_clear (clear_cons _ _ _), List.head?_cons]
            exact if_neg symbol

theorem carries_modifier? (sound : Sound ending dialect expression) (free : dialect.PlaceFree)
    (enough : allowance ≤ allowance') (tokens : List Token) :
    Carries place (Option.map (Modifier.moved place))
      (modifier? ending dialect expression allowance)
      (modifier? ending dialect expression' allowance') tokens := by
  apply carries_peek.bind
  intro found rest looked
  have clear := clear_of_peek looked
  rw [peek_of_clear clear] at looked
  cases looked
  cases tokens with
  | nil => exact carries_pure rfl
  | cons token tokens =>
      simp only [List.head?_cons, Option.map_some, Token.kind_moved]
      cases kind : token.kind with
      | number =>
          exact (carries_take (free.number place token)).bind fun taken rest _ => carries_pure rfl
      | string =>
          exact (carries_take (free.string place token)).bind fun taken rest _ => carries_pure rfl
      | dot => exact carries_partialSend? carries sound free enough kind tokens
      | symbol =>
          refine (carries_take (free.symbol place token)).bind fun name rest _ => ?_
          refine carries_peekKind.bind fun next rest _ => ?_
          refine Carries.ite (fun _ => ?_) fun _ => ?_
          · exact (carries _).bind fun target rest _ => carries_pure rfl
          · exact (carries_arguments carries sound enough _).bind fun listed rest _ =>
              carries_pure rfl
      | openParen | openBrace =>
          exact (carries_delimited carries sound _ _ enough _).bind fun listed rest _ =>
            carries_pure rfl
      | closeBrace | closeParen | semicolon | comma => exact carries_pure rfl

/-! ### Expressions -/

theorem carries_expressionStep (sound : Sound ending dialect expression) (free : dialect.PlaceFree)
    (enough : allowance ≤ allowance') (tokens : List Token) :
    Carries place (Expression.moved place) (expressionStep ending dialect expression allowance)
      (expressionStep ending dialect expression' allowance') tokens := by
  apply (carries_modifier? carries sound free enough _).bind
  intro found rest _
  cases found with
  | none => exact carries_fail _
  | some first =>
      apply carries_peek.bind
      intro seen rest _
      cases seen with
      | none => exact carries_pure rfl
      | some token =>
          simp only [Option.map_some, free.isInfix]
          refine Carries.ite (fun _ => ?_) fun _ => ?_
          · refine (carries_take (free.symbol place token)).bind fun operator rest _ => ?_
            exact (carries _).bind fun right rest _ => carries_pure rfl
          · exact carries_form (carries_modifier? carries sound free enough) enough first _

end Parsers

theorem carries_expressionWithin {place : Position → Position} {ending : Option Fault}
    {dialect : Dialect} {allowance allowance' : Nat} (symbols : dialect.JoinsSymbols)
    (free : dialect.PlaceFree) (enough : allowance ≤ allowance') (tokens : List Token) :
    Carries place (Expression.moved place) (expressionWithin ending dialect allowance)
      (expressionWithin ending dialect allowance') tokens := by
  induction allowance generalizing allowance' tokens with
  | zero => exact carries_fault .exhausted _
  | succ allowance ih =>
      obtain ⟨allowance', rfl⟩ : ∃ less, allowance' = less + 1 := ⟨allowance' - 1, by omega⟩
      have less : allowance ≤ allowance' := by omega
      exact carries_expressionStep (ih less) (expressionWithin_sound symbols allowance) free less
        tokens

end Grammar

end MessageForms
