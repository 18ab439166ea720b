import MessageForms.Proofs.Node.Erased

set_option autoImplicit false

/-! References to nodes. What two trees have in common is equal without a look inside. As long as
every literal equals itself, this is only a shortcut: the comparison of references comes to the same
result as the comparison of the trees. -/

namespace MessageForms.Node

/-- The node to which a way down from the root leads. -/
def at? (node : Node) : List Nat → Option Node
  | [] => some node
  | number :: way => (node.parts[number]?).bind (·.at? way)

/-- The ways that are told to lead to one node in both trees do so. -/
def Shares (shared : List Nat → Bool) (left right : Node) : Prop :=
  ∀ way, shared way = true → left.at? way = right.at? way

/-- The same for lists of parts, the first of which has the given number. -/
def SharesFrom (shared : List Nat → Bool) (index : Nat) (lefts rights : List Node) : Prop :=
  ∀ number way, shared ((index + number) :: way) = true →
    (lefts[number]?).bind (·.at? way) = (rights[number]?).bind (·.at? way)

section Sharing

variable {equal : Literal → Literal → Bool} {shared : List Nat → Bool} {index : Nat}
  {left right : Node} {lefts rights : List Node} {selector selector' : Atom}

theorem Shares.parts (shares : Shares shared left right) :
    SharesFrom shared 0 left.parts right.parts := by
  intro number way told
  rw [Nat.zero_add] at told
  exact shares (number :: way) told

theorem SharesFrom.head (shares : SharesFrom shared index (left :: lefts) (right :: rights)) :
    Shares (fun way => shared (index :: way)) left right :=
  fun way told => shares 0 way told

theorem SharesFrom.tail (shares : SharesFrom shared index (left :: lefts) (right :: rights)) :
    SharesFrom shared (index + 1) lefts rights := by
  intro number way told
  rw [Nat.add_assoc, Nat.add_comm 1] at told
  exact shares (number + 1) way told

theorem equalBy_self (own : ∀ literal ∈ left.literals, equal literal literal = true) :
    equalBy equal left left = true :=
  (equalBy_iff (keeps_nothing equal) left left).mpr ⟨rfl, List.forall₂_same.mpr own⟩

theorem equalSharing_eq_of_inside
    (own : ∀ literal ∈ left.literals, equal literal literal = true)
    (shares : Shares shared left right)
    (inside : equalInside equal shared left right = equalBy equal left right) :
    equalSharing equal shared left right = equalBy equal left right := by
  cases told : shared [] with
  | false => rw [equalSharing, told, Bool.false_or, inside]
  | true =>
      have one : left = right := Option.some.inj (shares [] told)
      rw [equalSharing, told, Bool.true_or, ← one, equalBy_self own]

theorem equal_selectors_eq (own : equal selector.literal selector.literal = true)
    (shares : Shares shared (.atom selector) (.atom selector')) :
    (shared [] || equal selector.literal selector'.literal) =
      equal selector.literal selector'.literal := by
  refine equalSharing_eq_of_inside ?_ shares rfl
  rintro literal inside
  rwa [List.mem_singleton.mp inside]

end Sharing

section Comparison

variable {equal : Literal → Literal → Bool}

mutual

theorem equalInside_eq {shared : List Nat → Bool} (left right : Node)
    (own : ∀ literal ∈ left.literals, equal literal literal = true)
    (shares : Shares shared left right) :
    equalInside equal shared left right = equalBy equal left right := by
  cases left with
  | atom left => cases right <;> rfl
  | macroForm left _ =>
      cases right with
      | macroForm right _ => exact allEqualInside_eq left right own shares.parts
      | _ => rfl
  | parenthesized left _ =>
      cases right with
      | parenthesized right _ => exact allEqualInside_eq left right own shares.parts
      | _ => rfl
  | braced left _ =>
      cases right with
      | braced right _ => exact allEqualInside_eq left right own shares.parts
      | _ => rfl
  | implicitSend selector left _ =>
      cases right with
      | implicitSend selector' right _ =>
          rw [literals, List.forall_mem_cons] at own
          rw [equalInside, equalBy, equal_selectors_eq own.1 shares.parts.head,
            allEqualInside_eq left right own.2 shares.parts.tail]
      | _ => rfl
  | partialSend selector left _ =>
      cases right with
      | partialSend selector' right _ =>
          rw [literals, List.forall_mem_cons] at own
          rw [equalInside, equalBy, equal_selectors_eq own.1 shares.parts.head,
            allEqualInside_eq left right own.2 shares.parts.tail]
      | _ => rfl
  | targetedSend target selector left _ =>
      cases right with
      | targetedSend target' selector' right _ =>
          rw [literals, List.forall_mem_append, List.forall_mem_cons] at own
          obtain ⟨ownTarget, ownSelector, ownArguments⟩ := own
          have targets := equalSharing_eq_of_inside ownTarget shares.parts.head
            (equalInside_eq target target' ownTarget shares.parts.head)
          rw [equalSharing] at targets
          rw [equalInside, equalBy, targets, equal_selectors_eq ownSelector shares.parts.tail.head,
            allEqualInside_eq left right ownArguments shares.parts.tail.tail]
      | _ => rfl
  | classDefinition _ _ _ _ _ _ _ | methodDefinition _ _ _ _ _ _ | lexicalVariable _ _ _ _ _ _ =>
      cases right <;> rfl

theorem allEqualInside_eq {shared : List Nat → Bool} {index : Nat} (lefts rights : List Node)
    (own : ∀ literal ∈ literalsOf lefts, equal literal literal = true)
    (shares : SharesFrom shared index lefts rights) :
    allEqualInside equal shared index lefts rights = allEqualBy equal lefts rights := by
  match lefts, rights with
  | [], [] | [], right :: rights | left :: lefts, [] => rfl
  | left :: lefts, right :: rights =>
      rw [literalsOf, List.forall_mem_append] at own
      have first := equalSharing_eq_of_inside own.1 shares.head
        (equalInside_eq left right own.1 shares.head)
      rw [equalSharing] at first
      rw [allEqualInside, allEqualBy, first, allEqualInside_eq lefts rights own.2 shares.tail]

end

/-- Comparing references comes to the same as comparing the trees. -/
theorem equalSharing_eq {shared : List Nat → Bool} {left right : Node}
    (own : ∀ literal ∈ left.literals, equal literal literal = true)
    (shares : Shares shared left right) :
    equalSharing equal shared left right = equalBy equal left right :=
  equalSharing_eq_of_inside own shares (equalInside_eq left right own shares)

end Comparison

end MessageForms.Node
