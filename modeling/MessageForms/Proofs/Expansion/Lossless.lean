import MessageForms.Proofs.Expansion.Standard
import MessageForms.Proofs.Expansion.WalksTo

set_option autoImplicit false

/-! Walks with the standard table lose nothing. Every definition in a walked tree keeps the form that
it was made from as that form was before, so putting the forms back in the place of the definitions
gives the tree that was walked; and a definition is what its builder makes of that form, but for the
body or the bound expression, which is walked. -/

namespace MessageForms

/-! ### Putting the forms back -/

namespace Node

mutual

/-- The node with the forms in the place of the definitions that were made from them. What expansion
does not go into stays as it is. -/
def unexpanded : Node → Node
  | .classDefinition origin _ _ _ _ _ position => .macroForm origin position
  | .methodDefinition origin _ _ _ _ position => .macroForm origin position
  | .lexicalVariable origin _ _ _ _ position => .macroForm origin position
  | .macroForm modifiers position => .macroForm (unexpandedAll modifiers) position
  | .parenthesized inner position => .parenthesized (unexpandedAll inner) position
  | .braced inner position => .braced (unexpandedAll inner) position
  | node => node

def unexpandedAll : List Node → List Node
  | [] => []
  | node :: others => node.unexpanded :: unexpandedAll others

end

theorem unexpandedAll_eq {originals results : List Node}
    (same : List.Forall₂ (fun original result => result.unexpanded = original) originals results) :
    unexpandedAll results = originals := by
  induction same with
  | nil => rfl
  | cons head others ih => rw [unexpandedAll, head, ih]

theorem unexpanded_withReached {node : Node} {children : List Node}
    (undefined : node.isDefinition = false)
    (same : List.Forall₂ (fun original result => result.unexpanded = original) node.reached
      children) : (node.withReached children).unexpanded = node := by
  cases node with
  | macroForm modifiers position =>
      rw [withReached, unexpanded, unexpandedAll_eq same]
      rfl
  | parenthesized inner position =>
      rw [withReached, unexpanded, unexpandedAll_eq same]
      rfl
  | braced inner position =>
      rw [withReached, unexpanded, unexpandedAll_eq same]
      rfl
  | classDefinition _ _ _ _ _ _ _ => cases undefined
  | methodDefinition _ _ _ _ _ _ => cases undefined
  | lexicalVariable _ _ _ _ _ _ => cases undefined
  | _ => rfl

end Node

/-! ### Parts of forms -/

section Parts

variable {holds : Node → Prop}

theorem BodyPart.inherits {block body : List Node} (part : BodyPart block body)
    (inherited : Node.Inherited holds) (held : ∀ node ∈ block, holds node) :
    ∀ node ∈ body, holds node := by
  cases part with
  | absent => exact nofun
  | given =>
      intro node among
      have whole := held _ (List.mem_singleton_self _)
      exact inherited _ whole node (Node.mem_contents_of_reached among)

theorem ExtendsPart.inherits {extension : List Node} {parent : Option Node}
    (part : ExtendsPart extension parent) (held : ∀ node ∈ extension, holds node) :
    ∀ node ∈ parent.toList, holds node := by
  cases part with
  | absent => exact nofun
  | given named noBody =>
      intro node among
      apply held
      exact List.mem_cons_of_mem _ among

variable {form : MacroForm} {child : Node} (inherited : Node.Inherited holds)
  (held : ∀ modifier ∈ form.modifiers, holds modifier)

include inherited held

theorem ClassDefinition.inherits_of_made {definition : ClassDefinition}
    (made : ofForm form = .ok definition) (among : child ∈ definition.toNode.contents) :
    holds child := by
  obtain ⟨rfl, keyword, signature, arguments, extension, own, block, division⟩ :=
    exists_division made
  rw [division.modifiers_eq] at held
  rcases Node.mem_contents_cases among with inBody | inPassed | inOrigin
  · apply division.body.inherits inherited ?_ child inBody
    intro node inBlock
    apply held
    simp only [List.mem_append, List.mem_cons, inBlock, or_true]
  · rcases List.mem_append.mp inPassed with inParent | inAccess
    · apply division.parent.inherits ?_ child inParent
      intro node inExtension
      apply held
      simp only [List.mem_append, List.mem_cons, inExtension, or_true, true_or]
    · exact held child (List.mem_append_left _ inAccess)
  · rw [← division.modifiers_eq] at held
    exact held child inOrigin

theorem MethodDefinition.inherits_of_made {definition : MethodDefinition}
    (made : ofForm form = .ok definition) (among : child ∈ definition.toNode.contents) :
    holds child := by
  obtain ⟨rfl, signature, arguments, own, block, division⟩ := exists_division made
  rw [division.modifiers_eq] at held
  rcases Node.mem_contents_cases among with inBody | inAccess | inOrigin
  · apply division.body.inherits inherited ?_ child inBody
    intro node inBlock
    apply held
    simp only [List.mem_append, List.mem_cons, inBlock, or_true]
  · exact held child (List.mem_append_left _ inAccess)
  · rw [← division.modifiers_eq] at held
    exact held child inOrigin

omit inherited in
theorem LexicalVariable.inherits_of_made {definition : LexicalVariable}
    (made : ofForm form = .ok definition) (among : child ∈ definition.toNode.contents) :
    holds child := by
  obtain ⟨rfl, access, keyword, name, assignment, division⟩ := exists_division made
  rw [division.modifiers_eq] at held
  rcases Node.mem_contents_cases among with isBound | inAccess | inOrigin
  · obtain rfl := List.mem_singleton.mp isBound
    apply held
    simp only [List.mem_append, List.mem_cons, or_true, true_or]
  · change child ∈ definition.access.toList at inAccess
    rw [division.access_eq, Option.mem_toList] at inAccess
    exact held child (List.mem_append_left _ (List.mem_of_mem_head? inAccess))
  · rw [← division.modifiers_eq] at held
    exact held child inOrigin

theorem MacroForm.Makes.inherits_contents {definition : Node} (makes : form.Makes definition) :
    ∀ child ∈ definition.contents, holds child := by
  intro child among
  cases makes with
  | classDefinition made => exact ClassDefinition.inherits_of_made inherited held made among
  | methodDefinition made => exact MethodDefinition.inherits_of_made inherited held made among
  | lexicalVariable made => exact LexicalVariable.inherits_of_made held made among

end Parts

namespace MacroForm

variable {form : MacroForm} {definition : Node}

theorem Makes.unexpanded_withReached (makes : form.Makes definition) (children : List Node) :
    (definition.withReached children).unexpanded = form.toNode := by
  cases makes with
  | classDefinition made =>
      obtain ⟨rfl, -⟩ := ClassDefinition.exists_division made
      rfl
  | methodDefinition made =>
      obtain ⟨rfl, -⟩ := MethodDefinition.exists_division made
      rfl
  | lexicalVariable made =>
      obtain ⟨rfl, -⟩ := LexicalVariable.exists_division made
      rfl

end MacroForm

/-! ### Walks -/

namespace MacroTable

variable {limit : StepLimit}

/-- The definition is what its builder makes of the form that it keeps, except that the body or the
bound expression is walked, node by node. -/
inductive FollowsBuilder (limit : StepLimit) : Node → Prop where
  | classDefinition {definition : ClassDefinition} {body : List Node}
      (made : ClassDefinition.ofForm definition.form = .ok definition)
      (walked : List.Forall₂ (standard.WalksTo limit) definition.body body) :
      FollowsBuilder limit { definition with body }.toNode
  | methodDefinition {definition : MethodDefinition} {body : List Node}
      (made : MethodDefinition.ofForm definition.form = .ok definition)
      (walked : List.Forall₂ (standard.WalksTo limit) definition.body body) :
      FollowsBuilder limit { definition with body }.toNode
  | lexicalVariable {definition : LexicalVariable} {bound : Node}
      (made : LexicalVariable.ofForm definition.form = .ok definition)
      (walked : standard.WalksTo limit definition.bound bound) :
      FollowsBuilder limit { definition with bound }.toNode

theorem followsBuilder_of_makes {form : MacroForm} {definition : Node} {children : List Node}
    (makes : form.Makes definition)
    (walked : List.Forall₂ (standard.WalksTo limit) definition.reached children) :
    FollowsBuilder limit (definition.withReached children) := by
  cases makes with
  | classDefinition made =>
      obtain ⟨rfl, -⟩ := ClassDefinition.exists_division made
      exact .classDefinition made walked
  | methodDefinition made =>
      obtain ⟨rfl, -⟩ := MethodDefinition.exists_division made
      exact .methodDefinition made walked
  | lexicalVariable made =>
      obtain ⟨rfl, -⟩ := LexicalVariable.exists_division made
      cases walked with
      | cons bound others =>
          exact .lexicalVariable made bound

theorem Expands.inherits_contents {holds : Node → Prop} {node expanded : Node}
    (expands : standard.Expands node expanded) (inherited : Node.Inherited holds)
    (held : holds node) : ∀ child ∈ expanded.contents, holds child := by
  cases expands with
  | kept leaves => exact inherited node held
  | made found made =>
      apply (standard_makes found made).inherits_contents inherited
      exact fun modifier among => inherited _ held modifier (Node.mem_contents_of_reached among)

/-- The result is the node, if the forms are put back, and all its definitions follow their
builders. -/
structure Preserves (limit : StepLimit) (node result : Node) : Prop where
  unexpanded_eq : result.unexpanded = node
  follows : ∀ record, record.isDefinition = true → Node.Within Node.contents record result →
    FollowsBuilder limit record

/-- All definitions in a node follow their builders if the node itself does, what it held before the
walk is plain, and the children that were walked are preserved. -/
theorem followsBuilder_of_within {node : Node} {children : List Node}
    (itself : (node.withReached children).isDefinition = true →
      FollowsBuilder limit (node.withReached children))
    (plain : ∀ child ∈ node.contents, child.IsPlain)
    (preserved : List.Forall₂ (fun original result => original.IsPlain →
      Preserves limit original result) node.reached children)
    {record : Node} (isDefinition : record.isDefinition = true)
    (within : Node.Within Node.contents record (node.withReached children)) :
    FollowsBuilder limit record := by
  have holdsNone {child : Node} (among : child ∈ node.contents)
      (further : Node.Within Node.contents record child) : False := by
    have undefined := plain child among record further
    rw [isDefinition] at undefined
    cases undefined
  rcases within.cases with rfl | ⟨child, among, further⟩
  · exact itself isDefinition
  · rcases Node.mem_contents_cases among with isReached | isPassed | inOrigin
    · rw [Node.reached_withReached preserved.length_eq.symm] at isReached
      obtain ⟨original, amongOriginals, preserves⟩ := exists_partner preserved isReached
      have plainOriginal := plain original (Node.mem_contents_of_reached amongOriginals)
      exact (preserves plainOriginal).follows record isDefinition further
    · rw [Node.passed_withReached] at isPassed
      exact (holdsNone (Node.mem_contents_of_passed isPassed) further).elim
    · rw [Node.origin_withReached] at inOrigin
      exact (holdsNone (Node.mem_contents_of_origin inOrigin) further).elim

/-- The induction follows the walk. A definition that is made holds plain nodes, so its body is
walked as the node itself was. -/
theorem WalksTo.preserves {node result : Node} (walks : standard.WalksTo limit node result)
    (plain : node.IsPlain) : Preserves limit node result := by
  revert plain
  apply walks.induct standard_makesDefinitions
  intro node expanded children expands walked preserved plain
  have inside := expands.inherits_contents Node.inherited_isPlain plain
  cases expands with
  | kept leaves =>
      have undefined := plain.isDefinition_eq_false
      constructor
      · apply Node.unexpanded_withReached undefined
        apply ((List.forall₂_and_left _ _).mpr
          ⟨fun child among => inside child (Node.mem_contents_of_reached among), preserved⟩).imp
        rintro child result ⟨plainChild, preserves⟩
        exact (preserves plainChild).unexpanded_eq
      · intro record isDefinition within
        apply followsBuilder_of_within ?_ inside preserved isDefinition within
        intro defined
        rw [Node.isDefinition_withReached, undefined] at defined
        cases defined
  | @made modifiers position expander definition found made =>
      have makes := standard_makes found made
      constructor
      · exact makes.unexpanded_withReached children
      · intro record isDefinition within
        exact followsBuilder_of_within (fun _ => followsBuilder_of_makes makes walked) inside
          preserved isDefinition within

/-- Walking a tree without definitions is lossless, whatever the limit. The tree comes back, places
included, when the forms are put back in the place of the definitions, and every definition
anywhere in the result is what its builder makes of its form, with the body or the bound expression
walked. -/
theorem standard_walk_lossless {node : Node} {log after : Array LogEntry} {walked : Option Node}
    (plain : node.IsPlain) (done : standard.walk limit node log = .ok walked after) :
    (walked.getD node).unexpanded = node ∧
      ∀ record, record.isDefinition = true →
        Node.Within Node.contents record (walked.getD node) → FollowsBuilder limit record := by
  have preserves := (walksTo_of_walk done).preserves plain
  exact ⟨preserves.unexpanded_eq, preserves.follows⟩

/-- The variable of `let a = { const b = c }`, which binds another one. -/
theorem standard_walk_lossless_let :
    let inner := [.word ['c', 'o', 'n', 's', 't'] ⟨0, 10⟩, .word ['b'] ⟨0, 16⟩,
      .word ['='] ⟨0, 18⟩, .word ['c'] ⟨0, 20⟩]
    let modifiers := [.word ['l', 'e', 't'] ⟨0, 0⟩, .word ['a'] ⟨0, 4⟩, .word ['='] ⟨0, 6⟩,
      .braced [.macroForm inner ⟨0, 10⟩] ⟨0, 8⟩]
    let constant := Node.lexicalVariable inner ⟨.symbol ['b'], ⟨0, 16⟩⟩ .constant none
      (.word ['c'] ⟨0, 20⟩) ⟨0, 10⟩
    let definition := Node.lexicalVariable modifiers ⟨.symbol ['a'], ⟨0, 4⟩⟩ .assignable none
      (.braced [constant] ⟨0, 8⟩) ⟨0, 0⟩
    ∃ log, standard.walk .standard (.macroForm modifiers ⟨0, 0⟩) #[] = .ok (some definition) log ∧
      definition.unexpanded = .macroForm modifiers ⟨0, 0⟩ ∧
      FollowsBuilder .standard definition ∧ FollowsBuilder .standard constant := by
  intro inner modifiers constant definition
  have plainInner : (Node.macroForm inner ⟨0, 10⟩).IsPlain := by
    apply Node.isPlain_of_children rfl
    · simp [Node.reached, inner, Node.isPlain_word]
    · exact nofun
  have plainBody : (Node.braced [.macroForm inner ⟨0, 10⟩] ⟨0, 8⟩).IsPlain := by
    apply Node.isPlain_of_children rfl
    · exact List.forall_mem_singleton.mpr plainInner
    · exact nofun
  have plain : (Node.macroForm modifiers ⟨0, 0⟩).IsPlain := by
    apply Node.isPlain_of_children rfl
    · simp [Node.reached, modifiers, Node.isPlain_word, plainBody]
    · exact nofun
  have walks : ∃ log, standard.walk .standard (.macroForm modifiers ⟨0, 0⟩) #[] =
      .ok (some definition) log := by
    rw [walk_eq standard_makesDefinitions]
    exact ⟨_, rfl⟩
  obtain ⟨log, done⟩ := walks
  obtain ⟨unexpanded, follows⟩ := standard_walk_lossless plain done
  refine ⟨log, done, unexpanded, ?_, ?_⟩
  · exact follows definition rfl (Node.within_self _ _)
  · have inBody : constant ∈ (Node.braced [constant] ⟨0, 8⟩).contents :=
      Node.mem_contents_of_reached (List.mem_singleton_self constant)
    have inDefinition : Node.braced [constant] ⟨0, 8⟩ ∈ definition.contents :=
      Node.mem_contents_of_reached (List.mem_singleton_self (Node.braced [constant] ⟨0, 8⟩))
    have within := (Node.within_self Node.contents constant).of_child inBody
    exact follows constant rfl (within.of_child inDefinition)

end MacroTable

end MessageForms
