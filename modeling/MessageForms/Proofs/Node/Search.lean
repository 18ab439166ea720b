import MessageForms.Proofs.Node.Within

set_option autoImplicit false

/-! Searching a node and all that stands in it. The form behind a definition is not searched. -/

namespace MessageForms.Node

/-- The node, or a node in it, passes the test. -/
def Holds (test : Node → Bool) (node : Node) : Prop :=
  ∃ inner, Within children inner node ∧ test inner = true

section Search

variable (test : Node → Bool)

theorem holds_iff_children {node : Node} :
    node.Holds test ↔ test node = true ∨ ∃ child ∈ node.children, child.Holds test := by
  constructor
  · rintro ⟨inner, within, passes⟩
    rcases within.cases with rfl | ⟨child, among, further⟩
    · exact .inl passes
    · exact .inr ⟨child, among, inner, further, passes⟩
  · rintro (passes | ⟨child, among, inner, within, passes⟩)
    · exact ⟨node, within_self children node, passes⟩
    · exact ⟨inner, within.of_child among, passes⟩

mutual

def any : Node → Bool
  | .atom value => test (.atom value)
  | .macroForm inner position => test (.macroForm inner position) || anyOf inner
  | .parenthesized inner position => test (.parenthesized inner position) || anyOf inner
  | .braced inner position => test (.braced inner position) || anyOf inner
  | .implicitSend selector arguments position =>
      test (.implicitSend selector arguments position) || anyOf arguments
  | .partialSend selector arguments position =>
      test (.partialSend selector arguments position) || anyOf arguments
  | .targetedSend target selector arguments position =>
      test (.targetedSend target selector arguments position) || (target.any || anyOf arguments)
  | .classDefinition origin name parent parameters access body position =>
      test (.classDefinition origin name parent parameters access body position) ||
        (anyOf body || (anyOption parent || anyOf access))
  | .methodDefinition origin name parameters access body position =>
      test (.methodDefinition origin name parameters access body position) ||
        (anyOf body || anyOf access)
  | .lexicalVariable origin name write access bound position =>
      test (.lexicalVariable origin name write access bound position) ||
        (bound.any || anyOption access)

def anyOf : List Node → Bool
  | [] => false
  | node :: others => node.any || anyOf others

def anyOption : Option Node → Bool
  | none => false
  | some node => node.any

end

mutual

theorem any_iff (node : Node) : node.any test = true ↔ node.Holds test := by
  rw [holds_iff_children]
  cases node <;>
    simp [any, children, reached, passed, any_iff, anyOf_iff, anyOption_iff, or_and_right,
      exists_or]

theorem anyOf_iff (nodes : List Node) :
    anyOf test nodes = true ↔ ∃ node ∈ nodes, node.Holds test := by
  cases nodes with
  | nil => simp [anyOf]
  | cons node others => simp [anyOf, any_iff, anyOf_iff]

theorem anyOption_iff (node : Option Node) :
    anyOption test node = true ↔ ∃ inner ∈ node, inner.Holds test := by
  cases node with
  | none => simp [anyOption]
  | some node => simp [anyOption, any_iff]

end

instance (node : Node) : Decidable (node.Holds test) :=
  decidable_of_iff _ (any_iff test node)

end Search

end MessageForms.Node
