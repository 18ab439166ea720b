import MessageForms.Proofs.Expansion.Standard
import MessageForms.Proofs.Expansion.WalksTo

set_option autoImplicit false

/-! Normal trees: wherever expansion goes in them, the table leaves the node. A normal tree is walked
to itself. What a table asks of a form shows in the faces of its modifiers, and a walk changes no
face, so the form around an expanded child is left if it was left before. A walk therefore comes to
a normal tree, and a second walk changes nothing. -/

namespace MessageForms

/-! ### Faces -/

namespace Node

/-- What a table may ask of a modifier: its name, and whether it is a body. -/
def face (node : Node) : Option Text × Bool :=
  (node.name?, node.isBraced)

theorem face_withReached (node : Node) (inner : List Node) :
    (node.withReached inner).face = node.face := by
  cases node <;> rfl

end Node

namespace Expander

theorem lexicalVariable_applies_eq (modifiers : List Node) :
    lexicalVariable.applies modifiers =
      (modifiers.map Node.face).any fun face => (face.1.bind WriteKeyword.ofName?).isSome := by
  rw [List.any_map]
  rfl

theorem classDefinition_applies_eq (modifiers : List Node) :
    classDefinition.applies modifiers =
      (modifiers.map Node.face).any fun face => face.1 = some Keyword.classWord := by
  rw [List.any_map]
  rfl

theorem methodDefinition_applies_eq (modifiers : List Node) :
    methodDefinition.applies modifiers =
      (2 ≤ (modifiers.map Node.face).length &&
        (modifiers.map Node.face).head?.any (fun face => face.1.any Keyword.accessWords.contains) &&
        (modifiers.map Node.face).getLast?.any Prod.snd) := by
  rw [List.length_map, List.head?_map, List.getLast?_map, Option.any_map, Option.any_map]
  rfl

end Expander

namespace MacroTable

/-- Which expander takes a form hangs on the faces of its modifiers, and a definition shows the same
face as the form in whose place it is put. -/
structure LooksAtFaces (table : MacroTable) : Prop where
  find?_congr : ∀ modifiers modifiers' : List Node,
    modifiers.map Node.face = modifiers'.map Node.face →
      table.find? modifiers = table.find? modifiers'
  face_made : ∀ modifiers position expander definition, table.find? modifiers = some expander →
    expander.expand { modifiers, position } = .ok (some definition) →
      definition.face = (Node.macroForm modifiers position).face

theorem standard_looksAtFaces : standard.LooksAtFaces where
  find?_congr modifiers modifiers' same := by
    simp only [find?, standard, List.find?_cons, List.find?_nil,
      Expander.lexicalVariable_applies_eq, Expander.classDefinition_applies_eq,
      Expander.methodDefinition_applies_eq, same]
  face_made modifiers position expander definition found made := by
    cases standard_makes found made <;> rfl

/-! ### Normal trees -/

/-- Wherever expansion goes in the node, the table leaves what it finds. -/
inductive IsNormal (table : MacroTable) : Node → Prop where
  | intro {node : Node} (leaves : table.Leaves node)
      (inner : ∀ child ∈ node.reached, table.IsNormal child) : table.IsNormal node

variable {table : MacroTable} {limit : StepLimit}

theorem isNormal_iff_leaves {node : Node} :
    table.IsNormal node ↔ ∀ inner, Node.Within Node.reached inner node → table.Leaves inner := by
  constructor
  · intro normal
    induction normal with
    | intro leaves inner ih =>
        intro found within
        rcases within.cases with rfl | ⟨child, among, further⟩
        · exact leaves
        · exact ih child among found further
  · intro leaves
    induction size : node.weight using Nat.strongRecOn generalizing node with
    | ind weight ih =>
        apply IsNormal.intro
        · exact leaves node (Node.within_self _ node)
        · intro child among
          have below := Node.weight_lt_of_reached among
          apply ih child.weight (by omega) ?_ rfl
          exact fun inner within => leaves inner (within.of_child among)

theorem step_of_leaves {node : Node} (leaves : table.Leaves node) :
    table.step node = .ok none := by
  cases node with
  | macroForm modifiers position => rw [step_macroForm, leaves modifiers position rfl]
  | _ => rfl

theorem walkEach_of_none {walk : Node → Expanding (Option Node)} {nodes : List Node}
    (stays : ∀ node ∈ nodes, walk node = pure none) : walkEach walk nodes = pure none := by
  induction nodes with
  | nil => rfl
  | cons node others ih =>
      rw [walkEach, stays node List.mem_cons_self,
        ih fun other among => stays other (List.mem_cons_of_mem node among)]
      rfl

theorem IsNormal.walk_eq_none (makes : table.MakesDefinitions) {node : Node}
    (normal : table.IsNormal node) (limit : StepLimit) :
    table.walk limit node = pure none := by
  induction normal with
  | @intro node leaves inner ih =>
      have each := walkEach_of_none ih
      rw [walk_eq makes, expandAll_of_stays (step_of_leaves leaves)]
      change (walkChildren (table.walk limit) node >>= fun rebuilt => pure (rebuilt.or none)) = _
      rw [walkChildren_eq_walkEach, each]
      rfl

/-! ### Results of walks -/

section Results

variable (makes : table.MakesDefinitions) (looks : table.LooksAtFaces)

include makes

theorem leaves_of_made {modifiers : List Node} {position : Position} {expander : Expander}
    {definition : Node} (found : table.find? modifiers = some expander)
    (made : expander.expand { modifiers, position } = .ok (some definition)) (inner : List Node) :
    table.Leaves (definition.withReached inner) := by
  rcases makes.expands modifiers position expander found with
    ⟨replacement, done, settled⟩ | ⟨problem, failed⟩
  · rw [made] at done
    cases done
    apply leaves_of_ne_macroForm
    intro modifiers place same
    cases definition with
    | macroForm own ownPlace => exact settled.final own ownPlace rfl
    | _ => cases same
  · rw [made] at failed
    cases failed

include looks

theorem WalksTo.face_eq {node result : Node} (walks : table.WalksTo limit node result) :
    result.face = node.face := by
  obtain ⟨expanded, children, expands, -, -, rfl⟩ := walks.exists_step makes
  rw [Node.face_withReached]
  cases expands with
  | kept leaves => rfl
  | made found made => exact looks.face_made _ _ _ _ found made

theorem leaves_withReached {node : Node} {children : List Node} (leaves : table.Leaves node)
    (walked : List.Forall₂ (table.WalksTo limit) node.reached children) :
    table.Leaves (node.withReached children) := by
  cases node with
  | macroForm modifiers position =>
      have faces : modifiers.map Node.face = children.map Node.face := by
        have faced := walked.imp fun child result walks => (walks.face_eq makes looks).symm
        rw [← List.forall₂_eq_eq_eq, List.forall₂_map_left_iff, List.forall₂_map_right_iff]
        exact faced
      intro inner place same
      cases same
      rw [← looks.find?_congr _ _ faces]
      exact leaves modifiers position rfl
  | _ => exact leaves_of_ne_macroForm nofun

/-- A walk comes to a normal tree: a form that is left has modifiers with the faces that they had
before, and a definition is no form. -/
theorem WalksTo.isNormal {node result : Node} (walks : table.WalksTo limit node result) :
    table.IsNormal result := by
  apply walks.induct makes
  intro node expanded children expands walked normal
  have inner : ∀ child ∈ (expanded.withReached children).reached, table.IsNormal child := by
    intro child among
    rw [Node.reached_withReached walked.length_eq.symm] at among
    obtain ⟨_, _, isNormal⟩ := exists_partner normal among
    exact isNormal
  cases expands with
  | kept leaves => exact .intro (leaves_withReached makes looks leaves walked) inner
  | made found made => exact .intro (leaves_of_made makes found made children) inner

end Results

/-- A second walk changes nothing and logs nothing, whatever number of steps it is allowed. -/
theorem standard_walk_idempotent {node : Node} {log after : Array LogEntry} {walked : Option Node}
    (done : standard.walk limit node log = .ok walked after) (again : StepLimit)
    (entries : Array LogEntry) :
    standard.walk again (walked.getD node) entries = .ok none entries := by
  have normal := (walksTo_of_walk done).isNormal standard_makesDefinitions standard_looksAtFaces
  rw [normal.walk_eq_none standard_makesDefinitions again]
  rfl

/-- A variable inside of braces is made once. -/
theorem standard_walk_idempotent_let :
    let modifiers := [.word ['l', 'e', 't'] ⟨0, 2⟩, .word ['a'] ⟨0, 6⟩, .word ['='] ⟨0, 8⟩,
      .word ['b'] ⟨0, 10⟩]
    let definition := Node.lexicalVariable modifiers ⟨.symbol ['a'], ⟨0, 6⟩⟩ .assignable none
      (.word ['b'] ⟨0, 10⟩) ⟨0, 2⟩
    ∃ log, standard.walk .standard (.braced [.macroForm modifiers ⟨0, 2⟩] ⟨0, 0⟩) #[] =
        .ok (some (.braced [definition] ⟨0, 0⟩)) log ∧
      standard.walk (.atMost (-1)) (.braced [definition] ⟨0, 0⟩) #[] = .ok none #[] := by
  intro modifiers definition
  have walks : ∃ log, standard.walk .standard (.braced [.macroForm modifiers ⟨0, 2⟩] ⟨0, 0⟩) #[] =
      .ok (some (.braced [definition] ⟨0, 0⟩)) log := by
    rw [walk_eq standard_makesDefinitions]
    exact ⟨_, rfl⟩
  obtain ⟨log, done⟩ := walks
  exact ⟨log, done, standard_walk_idempotent done (.atMost (-1)) #[]⟩

end MacroTable

end MessageForms
