import MessageForms.Proofs.Grammar.Agreement
import MessageForms.Proofs.Grammar.Soundness
import MessageForms.Proofs.Token.Cache

set_option autoImplicit false

/-! The reader of expressions agrees with the predictive parser, for any dialect: it finds the same
trees, and where one of them stops the other does. The attempts that the reader makes at a modifier
one after another, going back after each, come to one decision. -/

namespace MessageForms.Grammar

open Predictive (Found)

section Simulation

variable {text : Text} {all : List Token} {ending : Option Fault} {dialect : Dialect}
  {expression : Reading Node} {parser : Parsing Expression} {β : Type}

/-! ### Lists -/

theorem agrees_moreItems
    (agrees : ∀ tokens, Agrees text all ending expression parser (Expression.node dialect) tokens)
    (delimiters : List TokenKind) (close : Option TokenKind) (allowance : Nat)
    (tokens : List Token) :
    Agrees text all ending (Reading.moreItems expression delimiters close allowance)
      (Predictive.moreItems ending parser delimiters close allowance) (MoreItems.nodes dialect)
      tokens := by
  induction allowance generalizing tokens with
  | zero => exact agrees_throw .exhausted
  | succ allowance ih =>
      rw [Reading.moreItems.eq_def, Predictive.moreItems.eq_def]
      apply agrees_peekKind_peek.bind
      intro found rest _
      cases found with
      | none =>
          cases close with
          | none => exact agrees_pure rfl
          | some expected => exact agrees_fail _
      | some token =>
          refine Agrees.ite Iff.rfl (fun _ => agrees_pure rfl) fun _ => ?_
          apply Agrees.ite Iff.rfl (fun _ => agrees_fail _)
          intro _
          apply agrees_read.bind
          intro _ rest _
          apply agrees_peekKind.bind
          intro found rest _
          refine Agrees.ite Iff.rfl (fun _ => agrees_pure rfl) fun _ => ?_
          apply (agrees _).bind
          intro item rest _
          exact (ih _).bind fun others rest _ => agrees_pure rfl

theorem agrees_items
    (agrees : ∀ tokens, Agrees text all ending expression parser (Expression.node dialect) tokens)
    (delimiters : List TokenKind) (close : Option TokenKind) (allowance : Nat)
    (tokens : List Token) :
    Agrees text all ending (Reading.items expression delimiters close allowance)
      (Predictive.items ending parser delimiters close allowance) (Items.nodes dialect) tokens := by
  apply agrees_peekKind.bind
  intro found rest _
  refine Agrees.ite Iff.rfl (fun _ => agrees_pure rfl) fun _ => ?_
  apply (agrees _).bind
  intro item rest _
  exact (agrees_moreItems agrees delimiters close allowance _).bind fun others rest _ =>
    agrees_pure rfl

theorem agrees_delimited
    (agrees : ∀ tokens, Agrees text all ending expression parser (Expression.node dialect) tokens)
    (delimiters : List TokenKind) (close : TokenKind) (allowance : Nat) {opening : TokenKind}
    {tokens : List Token} (opens : nextKind tokens = some opening) :
    Agrees text all ending
      (Reading.delimitedList expression opening delimiters close allowance)
      (Predictive.delimited ending parser allowance delimiters close)
      (fun listed => listed.1.nodes dialect) tokens := by
  have clear : Clear ending tokens := by
    intro none
    subst none
    cases opens
  refine Agrees.after ?_ fun stream offers => exists_peekKind clear offers
  rw [opens, if_neg (not_not_intro rfl)]
  apply agrees_read.bind
  intro _ rest _
  apply (agrees_items agrees delimiters (some close) allowance _).bind
  intro inner rest _
  exact agrees_read.bind fun closing rest _ => agrees_pure rfl

theorem agrees_arguments
    (agrees : ∀ tokens, Agrees text all ending expression parser (Expression.node dialect) tokens)
    (allowance : Nat) (tokens : List Token) :
    Agrees text all ending (Reading.messageArguments expression allowance)
      (Predictive.arguments ending parser allowance) (Arguments.nodes dialect) tokens := by
  apply agrees_peekKind_peek.bind
  intro found rest looked
  have clear := Predictive.clear_of_peek looked
  rw [Predictive.peek_of_clear clear] at looked
  cases looked
  cases tokens with
  | nil => exact agrees_pure rfl
  | cons token tokens =>
      refine Agrees.ite Option.some_inj (fun opens => ?_) fun _ => agrees_pure rfl
      have next : nextKind (token :: tokens) = some .openParen := congrArg some opens
      exact Agrees.build (agrees_delimited agrees _ _ allowance next)
        (fun listed => Arguments.listed token listed.1 listed.2) fun _ => rfl

/-! ### Modifiers -/

/-- A modifier starts with these tokens. -/
def Starts : List Token → Prop
  | [] => False
  | token :: tokens =>
      match token.kind with
      | .symbol | .number | .string | .openParen | .openBrace => True
      | .dot => nextKind tokens = some .symbol
      | _ => False

theorem isSome_of_starts {tokens rest : List Token} {allowance : Nat} {found : Option Modifier}
    (starts : Starts tokens)
    (parsed : Predictive.modifier? ending dialect parser allowance tokens = .ok found rest) :
    found.isSome = true := by
  obtain ⟨-, parsed⟩ := Predictive.of_peek_bind parsed
  cases tokens with
  | nil => cases starts
  | cons token tokens =>
      simp only [List.head?_cons] at parsed
      cases kind : token.kind with
      | number | string =>
          simp only [kind] at parsed
          have parsed := Predictive.of_take_bind parsed
          cases parsed
          rfl
      | symbol =>
          simp only [kind] at parsed
          obtain ⟨-, parsed⟩ := Predictive.of_peekKind_bind (Predictive.of_take_bind parsed)
          by_cases dotted : nextKind tokens = some .dot
          · rw [List.tail_cons, if_pos dotted] at parsed
            obtain ⟨target, after, -, done⟩ := exists_of_bind_ok parsed
            cases done
            rfl
          · rw [List.tail_cons, if_neg dotted] at parsed
            obtain ⟨listed, after, -, done⟩ := exists_of_bind_ok parsed
            cases done
            rfl
      | openParen | openBrace =>
          simp only [kind] at parsed
          obtain ⟨listed, after, -, done⟩ := exists_of_bind_ok parsed
          cases done
          rfl
      | dot =>
          simp only [Starts, kind] at starts
          simp only [kind] at parsed
          cases tokens with
          | nil => cases starts
          | cons name tokens =>
              have symbol : name.kind = .symbol := Option.some.inj starts
              rw [Predictive.partialSend?, List.tail_cons,
                Predictive.peek_of_clear (Predictive.clear_cons _ _ _), List.head?_cons] at parsed
              simp only [if_pos symbol] at parsed
              have parsed := Predictive.of_take_bind parsed
              obtain ⟨listed, after, -, done⟩ := exists_of_bind_ok parsed
              cases done
              rfl
      | closeBrace | closeParen | semicolon | comma =>
          simp only [Starts, kind] at starts

/-- The attempt finds nothing, and does not go back before where it started. -/
def Passes (text : Text) (all : List Token) (ending : Option Fault)
    (attempt : Reading (Option Node)) (tokens : List Token) : Prop :=
  ∀ stream : TokenStream, stream.Offers text all ending tokens →
    ∃ after rest, attempt stream = .ok none after ∧ after.Offers text all ending rest ∧
      rest.length ≤ tokens.length

theorem passes_of_peek {next : Option Token → Reading (Option Node)} {tokens : List Token}
    (clear : Clear ending tokens) (refuses : next tokens.head? = pure none) :
    Passes text all ending (TokenStream.peek >>= next) tokens := by
  intro stream offers
  obtain ⟨after, found, again⟩ := exists_peek clear offers
  refine ⟨after, tokens, ?_, again, Nat.le_refl _⟩
  rw [bind_of_ok found, refuses]
  rfl

/-- Going back after an attempt that finds nothing offers the same tokens again. -/
theorem exists_restored {attempt : Reading (Option Node)} {tokens : List Token}
    (passes : Passes text all ending attempt tokens) {stream : TokenStream}
    (offers : stream.Offers text all ending tokens) :
    ∃ back, TokenStream.savingPositionIf Option.isNone attempt stream = .ok none back ∧
      back.Offers text all ending tokens := by
  obtain ⟨after, rest, nothing, again, shorter⟩ := passes stream offers
  have within : stream.position ≤ after.scanned.length := by
    have whole := congrArg List.length offers.behind
    have wholeAfter := congrArg List.length again.behind
    have bound := TokenStream.position_le after
    rw [List.length_append, List.length_reverse] at whole wholeAfter
    rw [TokenStream.position] at bound ⊢
    omega
  refine ⟨after.moveTo stream.position, ?_, ?_⟩
  · rw [TokenStream.savingPositionIf_apply, bind_of_ok nothing, if_pos Option.isNone_none,
      bind_of_ok (TokenStream.restore_of_le within)]
    rfl
  · have moved := (again.caches.moveTo stream.position).offers
    rw [TokenStream.position_moveTo_of_le within, ← offers.tokens_eq] at moved
    exact moved

theorem agrees_firstMatch_of_passes {attempt : Reading (Option Node)}
    {others : List (Reading (Option Node))} {parser : Parsing β} {value : β → Option Node}
    {tokens : List Token} (passes : Passes text all ending attempt tokens)
    (agrees : Agrees text all ending (Reading.firstMatch others) parser value tokens) :
    Agrees text all ending (Reading.firstMatch (attempt :: others)) parser value tokens := by
  refine Agrees.after ?_ fun stream offers => exists_restored passes offers
  exact agrees

theorem agrees_firstMatch_of_found {attempt : Reading (Option Node)}
    {others : List (Reading (Option Node))} {parser : Parsing β} {value : β → Option Node}
    {tokens : List Token} (agrees : Agrees text all ending attempt parser value tokens)
    (found : ∀ result rest, parser tokens = .ok result rest → (value result).isSome = true) :
    Agrees text all ending (Reading.firstMatch (attempt :: others)) parser value tokens := by
  intro stream offers
  have start := agrees stream offers
  rw [Reading.firstMatch, bind_apply, TokenStream.savingPositionIf_apply]
  cases parsed : parser tokens with
  | ok result rest =>
      rw [parsed] at start
      rcases start with ⟨after, done, again⟩
      obtain ⟨node, same⟩ := Option.isSome_iff_exists.mp (found result rest parsed)
      refine ⟨after, ?_, again⟩
      rw [bind_of_ok done, same]
      rfl
  | error stop rest =>
      rw [parsed] at start
      rcases start with ⟨after, failed⟩
      refine ⟨after, ?_⟩
      rw [bind_of_error failed]

theorem exists_messageArguments {tokens : List Token} (ended : AtEnd ending tokens)
    {stream : TokenStream} (offers : stream.Offers text all ending tokens) (allowance : Nat) :
    ∃ after, Reading.messageArguments expression allowance stream = .ok [] after ∧
      after.Offers text all ending tokens := by
  obtain ⟨after, found, again⟩ := exists_peekKind ended.clear offers
  refine ⟨after, ?_, again⟩
  have unopened : nextKind tokens ≠ some .openParen := by
    intro opens
    have ends := ended.ends
    rw [opens] at ends
    cases ends
  rw [Reading.messageArguments, bind_of_ok found, if_neg unopened]
  rfl

section Attempts

variable {token : Token} {tokens : List Token} {allowance : Nat}

theorem agrees_literal? (literal : token.kind = .number ∨ token.kind = .string) :
    Agrees text all ending (Reading.literal? dialect)
      (Predictive.modifier? ending dialect parser allowance) (Option.map (Modifier.node dialect))
      (token :: tokens) := by
  apply agrees_peek.bind
  intro found rest looked
  cases looked
  rcases literal with kind | kind
  · simp only [id_eq, kind]
    refine (agrees_takeAtom _ _).bind fun taken rest parsed => agrees_pure ?_
    cases Predictive.eq_of_take parsed
    rw [Option.map_some, Modifier.node, Dialect.literal, if_pos kind]
  · simp only [id_eq, kind]
    refine (agrees_takeAtom _ _).bind fun taken rest parsed => agrees_pure ?_
    cases Predictive.eq_of_take parsed
    have other : token.kind ≠ .number := by
      rw [kind]
      decide
    rw [Option.map_some, Modifier.node, Dialect.literal, if_neg other]

theorem passes_messageSend? (other : token.kind ≠ .dot ∧ token.kind ≠ .symbol) :
    Passes text all ending (Reading.messageSend? dialect expression allowance)
      (token :: tokens) := by
  apply passes_of_peek (Predictive.clear_cons _ _ _)
  simp only [List.head?_cons]
  cases kind : token.kind with
  | dot => exact (other.1 kind).elim
  | symbol => exact (other.2 kind).elim
  | _ => rfl

theorem passes_literal? (clear : Clear ending tokens)
    (other : nextKind tokens ≠ some .number ∧ nextKind tokens ≠ some .string) :
    Passes text all ending (Reading.literal? dialect) tokens := by
  apply passes_of_peek clear
  cases tokens with
  | nil => rfl
  | cons token tokens =>
      simp only [List.head?_cons]
      cases kind : token.kind with
      | number => exact (other.1 (congrArg some kind)).elim
      | string => exact (other.2 (congrArg some kind)).elim
      | _ => rfl

theorem passes_parenthesized? (clear : Clear ending tokens)
    (other : nextKind tokens ≠ some .openParen) :
    Passes text all ending (Reading.parenthesized? expression allowance) tokens := by
  apply passes_of_peek clear
  cases tokens with
  | nil => rfl
  | cons token tokens => exact if_neg fun kind => other (congrArg some kind)

theorem passes_braced? (clear : Clear ending tokens)
    (other : nextKind tokens ≠ some .openBrace) :
    Passes text all ending (Reading.braced? expression allowance) tokens := by
  apply passes_of_peek clear
  cases tokens with
  | nil => rfl
  | cons token tokens => exact if_neg fun kind => other (congrArg some kind)

theorem agrees_nothing (clear : Clear ending tokens)
    (message : Passes text all ending (Reading.messageSend? dialect expression allowance) tokens)
    (other : ∀ kind ∈ nextKind tokens, kind = .dot ∨ kind.endsExpression = true)
    (none : Predictive.modifier? ending dialect parser allowance tokens = .ok none tokens) :
    Agrees text all ending (Reading.modifier? dialect expression allowance)
      (Predictive.modifier? ending dialect parser allowance) (Option.map (Modifier.node dialect))
      tokens := by
  have unlike (kind : TokenKind) (starts : kind ≠ .dot ∧ kind.endsExpression = false) :
      nextKind tokens ≠ some kind := by
    intro same
    rcases other kind same with dot | ends
    · exact starts.1 dot
    · rw [starts.2] at ends
      cases ends
  apply agrees_firstMatch_of_passes message
  refine agrees_firstMatch_of_passes
    (passes_literal? clear ⟨unlike _ (by decide), unlike _ (by decide)⟩) ?_
  apply agrees_firstMatch_of_passes (passes_parenthesized? clear (unlike _ (by decide)))
  apply agrees_firstMatch_of_passes (passes_braced? clear (unlike _ (by decide)))
  have finished : Agrees text all ending (Reading.firstMatch [])
      (pure Option.none : Parsing (Option Modifier)) (Option.map (Modifier.node dialect)) tokens :=
    agrees_pure rfl
  exact finished.congr none

/-- Behind a dot the reader looks one token further, and goes back unless that is a symbol. -/
theorem passes_messageSend?_dot (isDot : token.kind = .dot) (clear : Clear ending tokens)
    (other : nextKind tokens ≠ some .symbol) :
    Passes text all ending (Reading.messageSend? dialect expression allowance)
      (token :: tokens) := by
  intro stream offers
  rcases offers.peek_of_cons with ⟨seen, ahead, found, -, -, again⟩
  rcases again.read_of_cons with ⟨passed, done, -, behind⟩
  obtain ⟨after, second, final⟩ := exists_peek clear behind
  refine ⟨after, tokens, ?_, final, Nat.le_succ _⟩
  rw [Reading.messageSend?, bind_of_ok found]
  simp only [isDot]
  rw [bind_of_ok done, bind_of_ok second]
  cases tokens with
  | nil => rfl
  | cons name tokens =>
      have unnamed : name.kind ≠ .symbol := fun same => other (congrArg some same)
      simp only [List.head?_cons, if_neg unnamed]
      rfl

theorem agrees_modifier?_fault (isDot : token.kind = .dot) (unclear : ¬ Clear ending tokens) :
    Agrees text all ending (Reading.modifier? dialect expression allowance)
      (Predictive.modifier? ending dialect parser allowance) (Option.map (Modifier.node dialect))
      (token :: tokens) := by
  cases tokens with
  | cons name tokens => exact (unclear (Predictive.clear_cons _ _ _)).elim
  | nil =>
      cases ending with
      | none => exact (unclear fun _ => rfl).elim
      | some fault =>
          have stopped : Predictive.modifier? (some fault) dialect parser allowance [token] =
              .error (.fault fault) [] := by
            rw [Predictive.modifier?, Predictive.peek_bind (Predictive.clear_cons _ _ _),
              List.head?_cons]
            simp only [isDot]
            rfl
          refine agrees_firstMatch_of_found ?_ fun result rest parsed => ?_
          · intro stream offers
            rcases offers.peek_of_cons with ⟨seen, ahead, found, -, -, again⟩
            rcases again.read_of_cons with ⟨passed, done, -, behind⟩
            rcases behind.peek_of_fault with ⟨cursor, failed, -⟩
            rw [stopped]
            refine ⟨{ passed with cursor }, ?_⟩
            rw [Reading.messageSend?, bind_of_ok found]
            simp only [isDot]
            rw [bind_of_ok done, bind_of_error failed]
            rfl
          · rw [stopped] at parsed
            cases parsed

variable
  (agrees : ∀ tokens, Agrees text all ending expression parser (Expression.node dialect) tokens)

include agrees

theorem agrees_messageSend?_symbol
    (ends : ∀ tokens tree rest, parser tokens = .ok tree rest → AtEnd ending rest)
    (symbol : token.kind = .symbol) :
    Agrees text all ending (Reading.messageSend? dialect expression allowance)
      (Predictive.modifier? ending dialect parser allowance) (Option.map (Modifier.node dialect))
      (token :: tokens) := by
  apply agrees_peek.bind
  intro found rest looked
  cases looked
  simp only [id_eq, symbol]
  apply (agrees_takeAtom _ _).bind
  intro name rest _
  apply agrees_peekKind.bind
  intro next rest _
  refine Agrees.ite Iff.rfl (fun _ => ?_) fun _ => ?_
  · apply (agrees _).bind
    intro target rest parsed
    refine Agrees.after (agrees_pure rfl) fun stream offers => ?_
    exact exists_messageArguments (ends _ _ _ parsed) offers allowance
  · exact (agrees_arguments agrees allowance _).bind fun listed rest _ => agrees_pure rfl

theorem agrees_messageSend?_dot {name : Token} (isDot : token.kind = .dot)
    (symbol : name.kind = .symbol) :
    Agrees text all ending (Reading.messageSend? dialect expression allowance)
      (Predictive.modifier? ending dialect parser allowance) (Option.map (Modifier.node dialect))
      (token :: name :: tokens) := by
  have decided : Predictive.modifier? ending dialect parser allowance (token :: name :: tokens) =
      (do
        let _ ← Predictive.peek ending
        let _ ← Predictive.read ending
        let _ ← Predictive.peek ending
        let selector ← Predictive.take ending dialect.symbol name
        let arguments ← Predictive.arguments ending parser allowance
        return some (.partialSend token selector arguments) : Parsing (Option Modifier))
        (token :: name :: tokens) := by
    rw [Predictive.modifier?, Predictive.peek_bind (Predictive.clear_cons _ _ _),
      Predictive.peek_bind (Predictive.clear_cons _ _ _),
      Predictive.read_bind (Predictive.clear_cons _ _ _), List.tail_cons,
      Predictive.peek_bind (Predictive.clear_cons _ _ _), List.head?_cons]
    simp only [isDot]
    rw [Predictive.partialSend?, List.tail_cons,
      Predictive.peek_of_clear (Predictive.clear_cons _ _ _), List.head?_cons]
    simp only [if_pos symbol]
  refine Agrees.congr ?_ decided
  apply agrees_peek.bind
  intro found rest looked
  cases looked
  simp only [id_eq, isDot]
  apply agrees_read.bind
  intro passed rest looked
  cases looked
  apply agrees_peek.bind
  intro found rest looked
  cases looked
  simp only [id_eq, if_pos symbol]
  apply (agrees_takeAtom _ _).bind
  intro selector rest _
  exact (agrees_arguments agrees allowance _).bind fun listed rest _ => agrees_pure rfl

theorem agrees_parenthesized? (opens : token.kind = .openParen) :
    Agrees text all ending (Reading.parenthesized? expression allowance)
      (Predictive.modifier? ending dialect parser allowance) (Option.map (Modifier.node dialect))
      (token :: tokens) := by
  apply agrees_peek.bind
  intro found rest looked
  cases looked
  simp only [id_eq, opens, if_true]
  have next : nextKind (token :: tokens) = some .openParen := congrArg some opens
  exact (agrees_delimited agrees _ _ allowance next).bind fun listed rest _ => agrees_pure rfl

theorem agrees_braced? (opens : token.kind = .openBrace) :
    Agrees text all ending (Reading.braced? expression allowance)
      (Predictive.modifier? ending dialect parser allowance) (Option.map (Modifier.node dialect))
      (token :: tokens) := by
  apply agrees_peek.bind
  intro found rest looked
  cases looked
  simp only [id_eq, opens, if_true]
  have next : nextKind (token :: tokens) = some .openBrace := congrArg some opens
  exact (agrees_delimited agrees _ _ allowance next).bind fun listed rest _ => agrees_pure rfl

theorem agrees_modifier?
    (ends : ∀ tokens tree rest, parser tokens = .ok tree rest → AtEnd ending rest)
    (tokens : List Token) :
    Agrees text all ending (Reading.modifier? dialect expression allowance)
      (Predictive.modifier? ending dialect parser allowance) (Option.map (Modifier.node dialect))
      tokens := by
  have found (starts : Starts tokens) (result : Option Modifier) (rest : List Token)
      (parsed : Predictive.modifier? ending dialect parser allowance tokens = .ok result rest) :
      (Option.map (Modifier.node dialect) result).isSome = true := by
    rw [Option.isSome_map]
    exact isSome_of_starts starts parsed
  cases tokens with
  | nil =>
      cases ending with
      | none =>
          refine agrees_nothing (fun _ => rfl) ?_ (by rintro kind ⟨⟩) rfl
          exact passes_of_peek (fun _ => rfl) rfl
      | some fault =>
          refine agrees_firstMatch_of_found ?_ fun result rest parsed => by cases parsed
          exact agrees_peek.bind fun seen rest looked => by cases looked
  | cons token tokens =>
      have clear := Predictive.clear_cons ending token tokens
      cases kind : token.kind with
      | symbol =>
          refine agrees_firstMatch_of_found (agrees_messageSend?_symbol agrees ends kind) ?_
          exact found (by simp only [Starts, kind])
      | number =>
          apply agrees_firstMatch_of_passes (passes_messageSend? (by simp [kind]))
          apply agrees_firstMatch_of_found (agrees_literal? (.inl kind))
          exact found (by simp only [Starts, kind])
      | string =>
          apply agrees_firstMatch_of_passes (passes_messageSend? (by simp [kind]))
          apply agrees_firstMatch_of_found (agrees_literal? (.inr kind))
          exact found (by simp only [Starts, kind])
      | openParen =>
          apply agrees_firstMatch_of_passes (passes_messageSend? (by simp [kind]))
          refine agrees_firstMatch_of_passes (passes_literal? clear ?_) ?_
          · simp [nextKind, kind]
          apply agrees_firstMatch_of_found (agrees_parenthesized? agrees kind)
          exact found (by simp only [Starts, kind])
      | openBrace =>
          apply agrees_firstMatch_of_passes (passes_messageSend? (by simp [kind]))
          refine agrees_firstMatch_of_passes (passes_literal? clear ?_) ?_
          · simp [nextKind, kind]
          refine agrees_firstMatch_of_passes (passes_parenthesized? clear ?_) ?_
          · simp [nextKind, kind]
          apply agrees_firstMatch_of_found (agrees_braced? agrees kind)
          exact found (by simp only [Starts, kind])
      | dot =>
          by_cases symbol : nextKind tokens = some .symbol
          · cases tokens with
            | nil => cases symbol
            | cons name tokens =>
                have named : name.kind = .symbol := Option.some.inj symbol
                refine agrees_firstMatch_of_found (agrees_messageSend?_dot agrees kind named) ?_
                exact found (by simpa only [Starts, kind] using symbol)
          · by_cases clearBehind : Clear ending tokens
            · refine agrees_nothing clear (passes_messageSend?_dot kind clearBehind symbol) ?_
                (Predictive.modifier?_dot kind clearBehind symbol)
              rintro found ⟨⟩
              exact .inl kind
            · exact agrees_modifier?_fault kind clearBehind
      | closeBrace | closeParen | semicolon | comma =>
          refine agrees_nothing clear (passes_messageSend? (by simp [kind])) ?_ ?_
          · rintro found ⟨⟩
            rw [kind]
            exact .inr rfl
          · refine Predictive.modifier?_atEnd ⟨clear, ?_⟩
            change token.kind.endsExpression = true
            rw [kind]
            rfl

end Attempts

/-! ### Expressions -/

theorem eq_of_modifier?_none {tokens rest : List Token} {allowance : Nat}
    (parsed : Predictive.modifier? ending dialect parser allowance tokens = .ok none rest) :
    rest = tokens := by
  have unstarted : ¬ Starts tokens := by
    intro starts
    cases isSome_of_starts starts parsed
  obtain ⟨-, parsed⟩ := Predictive.of_peek_bind parsed
  cases tokens with
  | nil =>
      cases parsed
      rfl
  | cons token tokens =>
      simp only [List.head?_cons] at parsed
      cases kind : token.kind with
      | symbol | number | string | openParen | openBrace =>
          exact (unstarted (by simp only [Starts, kind])).elim
      | dot =>
          simp only [Starts, kind] at unstarted
          simp only [kind] at parsed
          rw [Predictive.partialSend?, List.tail_cons] at parsed
          cases seen : Predictive.peek ending tokens with
          | error stop after =>
              rw [seen] at parsed
              cases parsed
          | ok found after =>
              have clear := Predictive.clear_of_peek seen
              rw [Predictive.peek_of_clear clear] at parsed
              cases tokens with
              | nil =>
                  cases parsed
                  rfl
              | cons name tokens =>
                  have unnamed : name.kind ≠ .symbol := fun same => unstarted (congrArg some same)
                  simp only [List.head?_cons, if_neg unnamed] at parsed
                  cases parsed
                  rfl
      | closeBrace | closeParen | semicolon | comma =>
          simp only [kind] at parsed
          cases parsed
          rfl

theorem eq_of_modifiers_none {tokens rest : List Token} {allowance steps : Nat}
    (parsed : Predictive.modifiers (Predictive.modifier? ending dialect parser allowance) steps
      tokens = .ok none rest) : rest = tokens := by
  cases steps with
  | zero => cases parsed
  | succ steps =>
      obtain ⟨first, after, looked, parsed⟩ := exists_of_bind_ok parsed
      cases first with
      | none =>
          cases parsed
          exact eq_of_modifier?_none looked
      | some modifier =>
          obtain ⟨others, final, -, done⟩ := exists_of_bind_ok parsed
          cases done

theorem atEnd_of_expressionStep {allowance : Nat}
    (ends : ∀ tokens tree rest, parser tokens = .ok tree rest → AtEnd ending rest)
    {tokens rest : List Token} {tree : Expression}
    (stepped : Predictive.expressionStep ending dialect parser allowance tokens =
      .ok tree rest) : AtEnd ending rest := by
  obtain ⟨found, middle, -, parsed⟩ := exists_of_bind_ok stepped
  cases found with
  | none => exact (Predictive.fail_ne_ok _ parsed).elim
  | some first =>
      obtain ⟨clear, parsed⟩ := Predictive.of_peek_bind parsed
      cases middle with
      | nil =>
          cases parsed
          exact ⟨clear, rfl⟩
      | cons token middle =>
          simp only [List.head?_cons] at parsed
          by_cases joins : dialect.isInfix token = true
          · rw [if_pos joins] at parsed
            have parsed := Predictive.of_take_bind parsed
            obtain ⟨right, after, further, done⟩ := exists_of_bind_ok parsed
            cases done
            exact ends _ _ _ further
          · rw [if_neg joins] at parsed
            obtain ⟨clear, parsed⟩ := Predictive.of_peekKind_bind parsed
            by_cases ended : Reading.isAtEnd (nextKind (token :: middle)) = true
            · rw [if_pos ended] at parsed
              cases parsed
              exact ⟨clear, ended⟩
            · rw [if_neg ended] at parsed
              obtain ⟨others, after, -, parsed⟩ := exists_of_bind_ok parsed
              cases others with
              | none => exact (Predictive.fail_ne_ok _ parsed).elim
              | some others =>
                  obtain ⟨clearAfter, parsed⟩ := Predictive.of_peekKind_bind parsed
                  by_cases endedAfter : Reading.isAtEnd (nextKind after) = true
                  · rw [if_pos endedAfter] at parsed
                    cases parsed
                    exact ⟨clearAfter, endedAfter⟩
                  · rw [if_neg endedAfter] at parsed
                    exact (Predictive.fail_ne_ok _ parsed).elim

theorem atEnd_of_expressionWithin {allowance : Nat} {tokens rest : List Token}
    {tree : Expression}
    (parsed : Predictive.expressionWithin ending dialect allowance tokens = .ok tree rest) :
    AtEnd ending rest := by
  induction allowance generalizing tokens rest tree with
  | zero => cases parsed
  | succ allowance ih => exact atEnd_of_expressionStep (fun _ _ _ => ih) parsed

theorem agrees_modifiers {reader : Reading (Option Node)} {parser : Parsing (Option Modifier)}
    (agrees : ∀ tokens,
      Agrees text all ending reader parser (Option.map (Modifier.node dialect)) tokens)
    (allowance : Nat) (tokens : List Token) :
    Agrees text all ending (Reading.modifiers reader allowance)
      (Predictive.modifiers parser allowance)
      (fun found => (found.map (Modifiers.nodes dialect)).getD []) tokens := by
  induction allowance generalizing tokens with
  | zero => exact agrees_throw .exhausted
  | succ allowance ih =>
      apply (agrees _).bind
      intro first rest _
      cases first with
      | none => exact agrees_pure rfl
      | some modifier =>
          refine (ih _).bind fun others rest _ => agrees_pure ?_
          cases others <;> rfl

theorem agrees_afterModifiers {tokens : List Token} {node : Node} (last : Modifier)
    (same : node = last.node dialect) :
    Agrees text all ending
      (if node.isBraced then TokenStream.fail .contentAfterBody
        else TokenStream.fail .bodyExpected)
      (Predictive.fail ending (Predictive.afterModifiers last)) (Expression.node dialect)
      tokens := by
  subst same
  cases last <;> exact agrees_fail _

theorem getLast?_nodes_eq_some (others : Modifiers) :
    (others.nodes dialect).getLast? = some ((Predictive.lastOf others).node dialect) := by
  match others with
  | .last modifier => rfl
  | .more modifier others =>
      rw [Modifiers.nodes, List.getLast?_cons, getLast?_nodes_eq_some others]
      rfl

theorem getLast?_nodes (others : Modifiers) (first : Node) :
    (others.nodes dialect).getLast?.getD first = (Predictive.lastOf others).node dialect := by
  have listed : (others.nodes dialect).getLast? =
      some ((Predictive.lastOf others).node dialect) := by
    exact getLast?_nodes_eq_some others
  rw [listed]
  rfl

theorem agrees_ended {tokens : List Token} {node : Node} {tree : Expression}
    {others : Reading Node} (ended : AtEnd ending tokens) (same : node = tree.node dialect) :
    Agrees text all ending
      (do if Reading.isAtEnd (← TokenStream.peekKind) then return node else others)
      (pure tree) (Expression.node dialect) tokens := by
  refine Agrees.after ?_ fun stream offers => exists_peekKind ended.clear offers
  rw [if_pos ended.ends]
  exact agrees_pure same

section Expressions

variable {allowance : Nat}
  (agrees : ∀ tokens, Agrees text all ending expression parser (Expression.node dialect) tokens)
  (ends : ∀ tokens tree rest, parser tokens = .ok tree rest → AtEnd ending rest)

include agrees ends

theorem agrees_expressionStep (tokens : List Token) :
    Agrees text all ending (Reading.expressionStep dialect expression allowance)
      (Predictive.expressionStep ending dialect parser allowance) (Expression.node dialect)
      tokens := by
  have agreesModifier : ∀ tokens, Agrees text all ending
      (Reading.modifier? dialect expression allowance)
      (Predictive.modifier? ending dialect parser allowance)
      (Option.map (Modifier.node dialect)) tokens :=
    agrees_modifier? agrees ends
  apply (agreesModifier tokens).bind
  intro found rest _
  cases found with
  | none => exact agrees_fail _
  | some first =>
      simp only [Option.map_some, Reading.withOperator, bind_assoc]
      apply agrees_peek.bind
      intro seen rest looked
      have clear := Predictive.clear_of_peek looked
      rw [Predictive.peek_of_clear clear] at looked
      cases looked
      cases rest with
      | nil =>
          simp only [List.head?_nil, id_eq, pure_bind]
          exact agrees_ended ⟨clear, rfl⟩ rfl
      | cons token rest =>
          simp only [List.head?_cons, id_eq]
          by_cases joins : dialect.isInfix token = true
          · simp only [if_pos joins, bind_assoc, pure_bind]
            apply (agrees_takeAtom _ _).bind
            intro operator rest _
            apply (agrees _).bind
            intro right rest parsed
            exact agrees_ended (ends _ _ _ parsed) rfl
          · simp only [if_neg joins, pure_bind]
            apply agrees_peekKind.bind
            intro kind rest looked
            refine Agrees.ite Iff.rfl (fun _ => agrees_pure rfl) fun goesOn => ?_
            cases looked
            have goesOn : ¬ Reading.isAtEnd (nextKind (token :: rest)) = true := goesOn
            apply (agrees_modifiers agreesModifier _ _).bind
            intro others rest parsed
            cases others with
            | none =>
                cases eq_of_modifiers_none parsed
                refine Agrees.after ?_ fun stream offers => exists_peekKind clear offers
                rw [if_neg goesOn]
                exact agrees_afterModifiers first rfl
            | some others =>
                apply agrees_peekKind.bind
                intro kind rest _
                refine Agrees.ite Iff.rfl (fun _ => agrees_pure rfl) fun _ => ?_
                exact agrees_afterModifiers (Predictive.lastOf others) (getLast?_nodes others _)

end Expressions

theorem agrees_expressionWithin (dialect : Dialect) (allowance : Nat) (tokens : List Token) :
    Agrees text all ending (Reading.expressionWithin dialect allowance)
      (Predictive.expressionWithin ending dialect allowance) (Expression.node dialect) tokens := by
  induction allowance generalizing tokens with
  | zero => exact agrees_throw .exhausted
  | succ allowance ih =>
      exact agrees_expressionStep ih (fun _ _ _ => atEnd_of_expressionWithin) tokens

end Simulation

end MessageForms.Grammar
