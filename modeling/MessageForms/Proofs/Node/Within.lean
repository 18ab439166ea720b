import Mathlib.Logic.Relation
import MessageForms.Proofs.Definition.Bounded

set_option autoImplicit false

/-! Where nodes stand in other nodes. Expansion goes into some of the children of a node and passes
by the others; a definition also keeps the modifiers of the form that it was made from. -/

namespace MessageForms.Node

/-- The children that expansion goes into. -/
def reached : Node → List Node
  | macroForm inner _ | parenthesized inner _ | braced inner _ => inner
  | classDefinition _ _ _ _ _ body _ => body
  | methodDefinition _ _ _ _ body _ => body
  | lexicalVariable _ _ _ _ bound _ => [bound]
  | atom _ | implicitSend _ _ _ | partialSend _ _ _ | targetedSend _ _ _ _ => []

/-- The children that expansion passes by: receivers and arguments of messages, the expression that
a class extends, and access modifiers. -/
def passed : Node → List Node
  | implicitSend _ arguments _ | partialSend _ arguments _ => arguments
  | targetedSend target _ arguments _ => target :: arguments
  | classDefinition _ _ parent _ access _ _ => parent.toList ++ access
  | methodDefinition _ _ _ access _ _ => access
  | lexicalVariable _ _ _ access _ _ => access.toList
  | atom _ | macroForm _ _ | parenthesized _ _ | braced _ _ => []

def origin : Node → List Node
  | classDefinition origin _ _ _ _ _ _ => origin
  | methodDefinition origin _ _ _ _ _ => origin
  | lexicalVariable origin _ _ _ _ _ => origin
  | atom _ | macroForm _ _ | parenthesized _ _ | braced _ _ | implicitSend _ _ _
  | partialSend _ _ _ | targetedSend _ _ _ _ => []

/-- All children. The form behind a definition is not one of them. -/
def children (node : Node) : List Node :=
  node.reached ++ node.passed

/-- All children, and the modifiers of the form behind a definition. -/
def contents (node : Node) : List Node :=
  node.children ++ node.origin

/-- Going from node to node by the given step, `outer` leads to `inner`, which may be `outer`
itself. -/
def Within (below : Node → List Node) (inner outer : Node) : Prop :=
  Relation.ReflTransGen (fun node child => child ∈ below node) outer inner

def isDefinition : Node → Bool
  | classDefinition _ _ _ _ _ _ _ | methodDefinition _ _ _ _ _ _ | lexicalVariable _ _ _ _ _ _ =>
      true
  | atom _ | macroForm _ _ | parenthesized _ _ | braced _ _ | implicitSend _ _ _
  | partialSend _ _ _ | targetedSend _ _ _ _ => false

/-- No definition stands anywhere in the node, as in all that reading gives. -/
def IsPlain (node : Node) : Prop :=
  ∀ inner, Within contents inner node → inner.isDefinition = false

/-- The node around other children in the place of those that expansion goes into. -/
def withReached : Node → List Node → Node
  | macroForm _ position, inner => macroForm inner position
  | parenthesized _ position, inner => parenthesized inner position
  | braced _ position, inner => braced inner position
  | classDefinition origin name parent parameters access _ position, body =>
      classDefinition origin name parent parameters access body position
  | methodDefinition origin name parameters access _ position, body =>
      methodDefinition origin name parameters access body position
  | lexicalVariable origin name write access bound position, inner =>
      lexicalVariable origin name write access (inner.headD bound) position
  | node, _ => node

def word (name : Text) (position : Position) : Node :=
  implicitSend { literal := .symbol name, position } [] position

section Within

variable {below : Node → List Node} {inner outer node child : Node}

theorem within_self (below : Node → List Node) (node : Node) : Within below node node :=
  .refl

theorem Within.of_child (among : child ∈ below node) (within : Within below inner child) :
    Within below inner node :=
  .head among within

theorem Within.cases (within : Within below inner node) :
    inner = node ∨ ∃ child ∈ below node, Within below inner child := by
  cases Relation.ReflTransGen.cases_head within with
  | inl same => exact .inl same.symm
  | inr rest =>
      obtain ⟨child, among, further⟩ := rest
      exact .inr ⟨child, among, further⟩

theorem mem_contents_of_reached (among : child ∈ node.reached) : child ∈ node.contents :=
  List.mem_append_left _ (List.mem_append_left _ among)

theorem mem_contents_of_passed (among : child ∈ node.passed) : child ∈ node.contents :=
  List.mem_append_left _ (List.mem_append_right _ among)

theorem mem_contents_of_origin (among : child ∈ node.origin) : child ∈ node.contents :=
  List.mem_append_right _ among

theorem mem_contents_cases (among : child ∈ node.contents) :
    child ∈ node.reached ∨ child ∈ node.passed ∨ child ∈ node.origin := by
  rcases List.mem_append.mp among with inChildren | inOrigin
  · rcases List.mem_append.mp inChildren with isReached | isPassed
    · exact .inl isReached
    · exact .inr (.inl isPassed)
  · exact .inr (.inr inOrigin)

end Within

/-! ### Plain nodes -/

section Plain

variable {node child : Node}

theorem IsPlain.isDefinition_eq_false (plain : node.IsPlain) : node.isDefinition = false :=
  plain node (within_self contents node)

theorem IsPlain.inside (plain : node.IsPlain) (among : child ∈ node.contents) : child.IsPlain :=
  fun inner within => plain inner (within.of_child among)

/-- What the node has, all that it holds has as well. -/
def Inherited (holds : Node → Prop) : Prop :=
  ∀ node, holds node → ∀ child ∈ node.contents, holds child

theorem inherited_isPlain : Inherited IsPlain :=
  fun _ plain _ among => plain.inside among

theorem inherited_within (root : Node) : Inherited fun node => Within contents node root :=
  fun _ within _ among => .tail within among

theorem Inherited.and {holds holds' : Node → Prop} (inherited : Inherited holds)
    (inherited' : Inherited holds') : Inherited fun node => holds node ∧ holds' node :=
  fun node both child among =>
    ⟨inherited node both.1 child among, inherited' node both.2 child among⟩

theorem origin_of_isDefinition_eq_false (undefined : node.isDefinition = false) :
    node.origin = [] := by
  cases node with
  | classDefinition _ _ _ _ _ _ _ => cases undefined
  | methodDefinition _ _ _ _ _ _ => cases undefined
  | lexicalVariable _ _ _ _ _ _ => cases undefined
  | _ => rfl

theorem isPlain_of_children (undefined : node.isDefinition = false)
    (reached : ∀ child ∈ node.reached, child.IsPlain)
    (passed : ∀ child ∈ node.passed, child.IsPlain) : node.IsPlain := by
  intro inner within
  rcases within.cases with rfl | ⟨child, among, further⟩
  · exact undefined
  · rcases mem_contents_cases among with isReached | isPassed | inOrigin
    · exact reached child isReached inner further
    · exact passed child isPassed inner further
    · rw [origin_of_isDefinition_eq_false undefined] at inOrigin
      cases inOrigin

theorem isPlain_word (name : Text) (position : Position) : (word name position).IsPlain :=
  isPlain_of_children rfl nofun nofun

end Plain

/-! ### Other children in the place of those that expansion goes into -/

section Reached

variable (node : Node) {inner : List Node}

theorem weight_eq_reached : node.weight = 1 + weights node.reached := by
  cases node <;> simp only [weight, reached, weights, Nat.add_zero]

variable {node} in
theorem weight_lt_of_reached {child : Node} (among : child ∈ node.reached) :
    child.weight < node.weight := by
  have lighter := weight_le_weights among
  rw [node.weight_eq_reached]
  omega

theorem withReached_reached : node.withReached node.reached = node := by
  cases node <;> rfl

theorem isDefinition_withReached (inner : List Node) :
    (node.withReached inner).isDefinition = node.isDefinition := by
  cases node <;> rfl

theorem passed_withReached (inner : List Node) :
    (node.withReached inner).passed = node.passed := by
  cases node <;> rfl

theorem origin_withReached (inner : List Node) :
    (node.withReached inner).origin = node.origin := by
  cases node <;> rfl

variable {node} in
theorem reached_withReached (sizes : inner.length = node.reached.length) :
    (node.withReached inner).reached = inner := by
  cases node with
  | lexicalVariable origin name write access bound position =>
      obtain ⟨only, rfl⟩ := List.length_eq_one_iff.mp sizes
      rfl
  | macroForm _ _ | parenthesized _ _ | braced _ _ => rfl
  | classDefinition _ _ _ _ _ _ _ => rfl
  | methodDefinition _ _ _ _ _ _ => rfl
  | atom _ | implicitSend _ _ _ | partialSend _ _ _ | targetedSend _ _ _ _ =>
      exact (List.length_eq_zero_iff.mp sizes).symm

end Reached

end MessageForms.Node
