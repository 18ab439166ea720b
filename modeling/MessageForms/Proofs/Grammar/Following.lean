import MessageForms.Proofs.Grammar.Soundness

set_option autoImplicit false

/-! A tree stays well formed in front of other tokens, unless these start with a parenthesis or a
dot that the tree was not in front of before. In particular it stays so wherever an expression ends.
-/

namespace MessageForms.Grammar

/-- Whatever could be taken for a part of the tree in front of `following'` stands in front of
`following` as well. -/
def Continues (following following' : List Token) : Prop :=
  ∀ kind, kind = .openParen ∨ kind = .dot → nextKind following' = some kind →
    nextKind following = some kind

theorem continues_of_nextKind_eq {following following' : List Token}
    (same : nextKind following' = nextKind following) : Continues following following' :=
  fun _ _ next => same.symm.trans next

theorem continues_of_isAtEnd (following : List Token) {following' : List Token}
    (ends : Reading.isAtEnd (nextKind following') = true) : Continues following following' := by
  intro kind opens next
  rw [next] at ends
  rcases opens with rfl | rfl <;> cases ends

theorem Continues.append {following following' : List Token}
    (continues : Continues following following') (tokens : List Token) :
    Continues (tokens ++ following) (tokens ++ following') := by
  cases tokens with
  | nil => exact continues
  | cons token tokens => exact continues_of_nextKind_eq rfl

theorem Continues.ne {following following' : List Token}
    (continues : Continues following following') {kind : TokenKind}
    (opens : kind = .openParen ∨ kind = .dot)
    (other : nextKind following ≠ some kind) : nextKind following' ≠ some kind :=
  fun next => other (continues kind opens next)

section WellFormed

variable {dialect : Dialect}

mutual

theorem Modifier.WellFormed.weaken {modifier : Modifier} {following following' : List Token}
    (wellFormed : modifier.WellFormed dialect following)
    (continues : Continues following following') : modifier.WellFormed dialect following' := by
  match modifier with
  | .literal token => exact wellFormed
  | .partialSend dot name arguments =>
      rcases wellFormed with ⟨isDot, symbol, wellFormed⟩
      exact ⟨isDot, symbol, Arguments.WellFormed.weaken wellFormed continues⟩
  | .implicitSend name arguments =>
      rcases wellFormed with ⟨symbol, wellFormed, undotted⟩
      exact ⟨symbol, Arguments.WellFormed.weaken wellFormed continues,
        (continues.append arguments.tokens).ne (.inr rfl) undotted⟩
  | .parenthesized opening inner closing =>
      rcases wellFormed with ⟨opens, closes, wellFormed⟩
      exact ⟨opens, closes,
        Items.WellFormed.weaken wellFormed (continues_of_nextKind_eq rfl)⟩
  | .braced opening inner closing =>
      rcases wellFormed with ⟨opens, closes, wellFormed⟩
      exact ⟨opens, closes,
        Items.WellFormed.weaken wellFormed (continues_of_nextKind_eq rfl)⟩
  | .dotSend name target =>
      rcases wellFormed with ⟨symbol, dotted, wellFormed⟩
      exact ⟨symbol, dotted, Expression.WellFormed.weaken wellFormed continues⟩

theorem Arguments.WellFormed.weaken {found : Arguments} {following following' : List Token}
    (wellFormed : found.WellFormed dialect following)
    (continues : Continues following following') : found.WellFormed dialect following' := by
  match found with
  | .absent => exact continues.ne (.inl rfl) wellFormed
  | .listed opening inner closing =>
      rcases wellFormed with ⟨opens, closes, wellFormed⟩
      exact ⟨opens, closes,
        Items.WellFormed.weaken wellFormed (continues_of_nextKind_eq rfl)⟩

theorem Items.WellFormed.weaken {delimiters : List TokenKind} {inner : Items}
    {following following' : List Token}
    (wellFormed : inner.WellFormed dialect delimiters following)
    (continues : Continues following following') :
    inner.WellFormed dialect delimiters following' := by
  match inner with
  | .empty => trivial
  | .first item others =>
      rcases wellFormed with ⟨itemWellFormed, wellFormed⟩
      exact ⟨Expression.WellFormed.weaken itemWellFormed (continues.append _),
        MoreItems.WellFormed.weaken wellFormed continues⟩

theorem MoreItems.WellFormed.weaken {delimiters : List TokenKind} {others : MoreItems}
    {following following' : List Token}
    (wellFormed : others.WellFormed dialect delimiters following)
    (continues : Continues following following') :
    others.WellFormed dialect delimiters following' := by
  match others with
  | .ended => trivial
  | .trailing delimiter => exact wellFormed
  | .more delimiter item others =>
      rcases wellFormed with ⟨divides, itemWellFormed, wellFormed⟩
      exact ⟨divides, Expression.WellFormed.weaken itemWellFormed (continues.append _),
        MoreItems.WellFormed.weaken wellFormed continues⟩

theorem Expression.WellFormed.weaken {tree : Expression} {following following' : List Token}
    (wellFormed : tree.WellFormed dialect following)
    (continues : Continues following following') : tree.WellFormed dialect following' := by
  match tree with
  | .single modifier => exact Modifier.WellFormed.weaken wellFormed continues
  | .operation left operator right =>
      rcases wellFormed with ⟨unit, leftWellFormed, joins, rightWellFormed⟩
      exact ⟨unit, Modifier.WellFormed.weaken leftWellFormed (continues_of_nextKind_eq rfl), joins,
        Expression.WellFormed.weaken rightWellFormed continues⟩
  | .form first others =>
      rcases wellFormed with ⟨unit, firstWellFormed, standsApart, wellFormed⟩
      exact ⟨unit, Modifier.WellFormed.weaken firstWellFormed (continues.append _), standsApart,
        Modifiers.WellFormed.weaken wellFormed continues⟩

theorem Modifiers.WellFormed.weaken {others : Modifiers} {following following' : List Token}
    (wellFormed : others.WellFormed dialect following)
    (continues : Continues following following') : others.WellFormed dialect following' := by
  match others with
  | .last modifier => exact Modifier.WellFormed.weaken wellFormed continues
  | .more modifier others =>
      rcases wellFormed with ⟨unit, modifierWellFormed, wellFormed⟩
      exact ⟨unit, Modifier.WellFormed.weaken modifierWellFormed (continues.append _),
        Modifiers.WellFormed.weaken wellFormed continues⟩

end

end WellFormed

end MessageForms.Grammar
