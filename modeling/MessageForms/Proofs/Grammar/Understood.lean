import MessageForms.Proofs.Grammar.Predictive

set_option autoImplicit false

/-! Whatever the predictive parser gives is understood: the dialect has made an atom of every
selector and every literal of the tree. Which tokens are selectors and which are literals shows in
the tree, so that the steps of the parser can be followed without a look at the tokens they start
from. -/

namespace MessageForms

namespace Dialect

def UnderstandsSelector (dialect : Dialect) (token : Token) : Prop :=
  ∃ atom, dialect.symbol token = .ok atom

def UnderstandsLiteral (dialect : Dialect) (token : Token) : Prop :=
  (token.kind = .number ∧ ∃ atom, dialect.number token = .ok atom) ∨
    (token.kind = .string ∧ ∃ atom, dialect.string token = .ok atom)

end Dialect

namespace Grammar

section Trees

variable (dialect : Dialect)

mutual

/-- The dialect understands all selectors and all literals of the tree. -/
def Modifier.Understood : Modifier → Prop
  | .literal token => dialect.UnderstandsLiteral token
  | .partialSend _ name arguments => dialect.UnderstandsSelector name ∧ arguments.Understood
  | .implicitSend name arguments => dialect.UnderstandsSelector name ∧ arguments.Understood
  | .parenthesized _ inner _ => inner.Understood
  | .braced _ inner _ => inner.Understood
  | .dotSend name target => dialect.UnderstandsSelector name ∧ target.Understood

def Arguments.Understood : Arguments → Prop
  | .absent => True
  | .listed _ inner _ => inner.Understood

def Items.Understood : Items → Prop
  | .empty => True
  | .first item others => item.Understood ∧ others.Understood

def MoreItems.Understood : MoreItems → Prop
  | .ended | .trailing _ => True
  | .more _ item others => item.Understood ∧ others.Understood

def Expression.Understood : Expression → Prop
  | .single modifier => modifier.Understood
  | .operation left operator right =>
      left.Understood ∧ dialect.UnderstandsSelector operator ∧ right.Understood
  | .form first others => first.Understood ∧ others.Understood

def Modifiers.Understood : Modifiers → Prop
  | .last modifier => modifier.Understood
  | .more modifier others => modifier.Understood ∧ others.Understood

end

end Trees

namespace Predictive

/-- Whatever the parser gives has the property. -/
def Gives {α : Type} (parser : Parsing α) (property : α → Prop) : Prop :=
  ∀ tokens result rest, parser tokens = .ok result rest → property result

/-! ### Composition -/

section Composition

variable {α β : Type} {property : α → Prop} {property' : β → Prop} {ending : Option Fault}

theorem gives_any (parser : Parsing α) : Gives parser fun _ => True :=
  fun _ _ _ _ => trivial

theorem gives_pure {result : α} (holds : property result) :
    Gives (pure result) property := by
  intro tokens found rest done
  cases done
  exact holds

theorem gives_throw (stop : Stop) : Gives (throw stop : Parsing α) property := by
  intro tokens found rest done
  cases done

theorem gives_fail (complaint : Complaint) : Gives (fail ending complaint) property :=
  fun _ _ _ done => (fail_ne_ok complaint done).elim

theorem Gives.bind {first : Parsing α} {next : α → Parsing β} (gives : Gives first property)
    (others : ∀ result, property result → Gives (next result) property') :
    Gives (first >>= next) property' := by
  intro tokens result rest done
  obtain ⟨value, after, start, further⟩ := exists_of_bind_ok done
  exact others value (gives tokens value after start) after result rest further

theorem gives_behind (first : Parsing α) {next : α → Parsing β}
    (others : ∀ result, Gives (next result) property') : Gives (first >>= next) property' :=
  (gives_any first).bind fun result _ => others result

theorem gives_ite {condition : Prop} [Decidable condition] {yes no : Parsing α}
    (givesYes : Gives yes property) (givesNo : Gives no property) :
    Gives (if condition then yes else no) property := by
  split
  · exact givesYes
  · exact givesNo

theorem gives_take (understood : Token → Except Fault Atom) (token : Token) :
    Gives (take ending understood token) fun taken =>
      taken = token ∧ ∃ atom, understood token = .ok atom := by
  intro tokens taken rest done
  refine ⟨eq_of_take done, ?_⟩
  obtain ⟨-, done⟩ := of_read_bind done
  cases known : understood token with
  | ok atom => exact ⟨atom, rfl⟩
  | error fault =>
      rw [known] at done
      cases done

end Composition

/-! ### Parsers -/

section Parsers

variable {ending : Option Fault} {dialect : Dialect} {expression : Parsing Expression}
  {allowance : Nat} {delimiters : List TokenKind} {close : Option TokenKind}
  (inner : Gives expression fun tree => tree.Understood dialect)

include inner

theorem gives_moreItems :
    Gives (moreItems ending expression delimiters close allowance) fun others =>
      others.Understood dialect := by
  induction allowance with
  | zero => exact gives_throw _
  | succ allowance ih =>
      refine gives_behind _ fun found => ?_
      cases found with
      | none =>
          cases close with
          | none => exact gives_pure trivial
          | some expected => exact gives_fail _
      | some token =>
          refine gives_ite (gives_pure trivial) (gives_ite (gives_fail _) ?_)
          refine gives_behind _ fun _ => gives_behind _ fun _ => gives_ite (gives_pure trivial) ?_
          refine inner.bind fun item known => ih.bind fun others further => ?_
          exact gives_pure ⟨known, further⟩

theorem gives_items :
    Gives (items ending expression delimiters close allowance) fun listed =>
      listed.Understood dialect := by
  refine gives_behind _ fun _ => gives_ite (gives_pure trivial) ?_
  refine inner.bind fun item known => (gives_moreItems inner).bind fun others further => ?_
  exact gives_pure ⟨known, further⟩

theorem gives_delimited {kind : TokenKind} :
    Gives (delimited ending expression allowance delimiters kind) fun listed =>
      listed.1.Understood dialect := by
  refine gives_behind _ fun _ => (gives_items inner).bind fun listed known => ?_
  exact gives_behind _ fun _ => gives_pure known

theorem gives_arguments :
    Gives (arguments ending expression allowance) fun found => found.Understood dialect := by
  refine gives_behind _ fun found => ?_
  cases found with
  | none => exact gives_pure trivial
  | some token =>
      refine gives_ite ?_ (gives_pure trivial)
      exact (gives_delimited inner).bind fun listed known => gives_pure known

theorem gives_partialSend? (dot : Token) :
    Gives (partialSend? ending dialect expression allowance dot) fun found =>
      ∀ modifier ∈ found, modifier.Understood dialect := by
  intro tokens found rest done
  rw [partialSend?] at done
  cases looked : peek ending tokens.tail with
  | error stop after =>
      rw [looked] at done
      cases done
  | ok name after =>
      cases name with
      | none =>
          rw [looked] at done
          cases done
          rintro modifier ⟨⟩
      | some name =>
          simp only [looked] at done
          split at done
          case isFalse other =>
            cases done
            rintro modifier ⟨⟩
          case isTrue symbol =>
            obtain ⟨taken, middle, read, further⟩ := exists_of_bind_ok done
            obtain ⟨arguments, last, listed, final⟩ := exists_of_bind_ok further
            obtain ⟨rfl, known⟩ := gives_take dialect.symbol name _ _ _ read
            cases final
            rintro modifier ⟨rfl⟩
            exact ⟨known, gives_arguments inner _ _ _ listed⟩

theorem gives_modifier? :
    Gives (modifier? ending dialect expression allowance) fun found =>
      ∀ modifier ∈ found, modifier.Understood dialect := by
  refine gives_behind _ fun found => ?_
  cases found with
  | none => exact gives_pure nofun
  | some token =>
      dsimp only
      cases kind : token.kind with
      | number =>
          refine (gives_take dialect.number token).bind ?_
          rintro taken ⟨rfl, known⟩
          refine gives_pure ?_
          rintro modifier ⟨rfl⟩
          exact .inl ⟨kind, known⟩
      | string =>
          refine (gives_take dialect.string token).bind ?_
          rintro taken ⟨rfl, known⟩
          refine gives_pure ?_
          rintro modifier ⟨rfl⟩
          exact .inr ⟨kind, known⟩
      | dot => exact gives_partialSend? inner token
      | symbol =>
          refine (gives_take dialect.symbol token).bind ?_
          rintro taken ⟨rfl, known⟩
          refine gives_behind _ fun next => gives_ite ?_ ?_
          · refine inner.bind fun target further => gives_pure ?_
            rintro modifier ⟨rfl⟩
            exact ⟨known, further⟩
          · refine (gives_arguments inner).bind fun arguments further => gives_pure ?_
            rintro modifier ⟨rfl⟩
            exact ⟨known, further⟩
      | openParen | openBrace =>
          refine (gives_delimited inner).bind fun listed known => gives_pure ?_
          rintro modifier ⟨rfl⟩
          exact known
      | closeBrace | closeParen | semicolon | comma => exact gives_pure nofun

omit inner in
theorem gives_modifiers {modifier : Parsing (Option Modifier)}
    (gives : Gives modifier fun found => ∀ first ∈ found, first.Understood dialect)
    (steps : Nat) :
    Gives (modifiers modifier steps) fun found =>
      ∀ others ∈ found, others.Understood dialect := by
  induction steps with
  | zero => exact gives_throw _
  | succ steps ih =>
      refine gives.bind fun found known => ?_
      cases found with
      | none => exact gives_pure nofun
      | some first =>
          refine ih.bind fun others further => gives_pure ?_
          rintro pushed ⟨rfl⟩
          cases others with
          | none => exact known first rfl
          | some others => exact ⟨known first rfl, further others rfl⟩

theorem gives_expressionStep :
    Gives (expressionStep ending dialect expression allowance) fun tree =>
      tree.Understood dialect := by
  refine (gives_modifier? inner).bind fun found known => ?_
  cases found with
  | none => exact gives_fail _
  | some first =>
      have single := known first rfl
      refine gives_behind _ fun next => ?_
      cases next with
      | none => exact gives_pure single
      | some token =>
          refine gives_ite ?_ ?_
          · refine (gives_take dialect.symbol token).bind ?_
            rintro taken ⟨rfl, operator⟩
            exact inner.bind fun right further => gives_pure ⟨single, operator, further⟩
          · refine gives_behind _ fun _ => gives_ite (gives_pure single) ?_
            refine (gives_modifiers (gives_modifier? inner) _).bind fun others further => ?_
            cases others with
            | none => exact gives_fail _
            | some others =>
                refine gives_behind _ fun _ => gives_ite (gives_pure ?_) (gives_fail _)
                exact ⟨single, further others rfl⟩

end Parsers

theorem gives_expressionWithin (ending : Option Fault) (dialect : Dialect) (allowance : Nat) :
    Gives (expressionWithin ending dialect allowance) fun tree => tree.Understood dialect := by
  induction allowance with
  | zero => exact gives_throw _
  | succ allowance ih => exact gives_expressionStep ih

end Predictive

end Grammar

end MessageForms
