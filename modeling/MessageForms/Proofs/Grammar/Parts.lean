import MessageForms.Proofs.Grammar.Following
import MessageForms.Proofs.Grammar.Outcome
import MessageForms.Proofs.Node.Within

set_option autoImplicit false

/-! The parts of a tree: every node that it stands for, at any depth, with the tokens that were read
for the node. The tokens of a part follow one another in the text. A node stands at the first of its
tokens, unless that is a dot or a name in front of a dot: then it stands at the name behind the
dot. -/

namespace MessageForms

open TokenStream (tokenize)

namespace Node

def selector? : Node → Option Atom
  | implicitSend selector _ _ | partialSend selector _ _ | targetedSend _ selector _ _ =>
      some selector
  | _ => none

/-- The nodes right inside of a node, the selector of a message among them. -/
def inside (node : Node) : List Node :=
  (node.selector?.map atom).toList ++ node.children

end Node

namespace Grammar

/-- A node with the tokens that were read for it. -/
structure Part where
  node : Node
  span : List Token

section Parts

variable (dialect : Dialect)

def selectorPart (name : Token) : Part :=
  { node := .atom (dialect.selector name), span := [name] }

def Modifier.part (modifier : Modifier) : Part :=
  { node := modifier.node dialect, span := modifier.tokens }

def Expression.part (tree : Expression) : Part :=
  { node := tree.node dialect, span := tree.tokens }

mutual

/-- The parts of a tree. An expression that is a single modifier is the same part. -/
def Modifier.parts : Modifier → List Part
  | .literal token => [(Modifier.literal token).part dialect]
  | .partialSend dot name arguments =>
      (Modifier.partialSend dot name arguments).part dialect :: selectorPart dialect name ::
        arguments.parts
  | .implicitSend name arguments =>
      (Modifier.implicitSend name arguments).part dialect :: selectorPart dialect name ::
        arguments.parts
  | .parenthesized opening inner closing =>
      (Modifier.parenthesized opening inner closing).part dialect :: inner.parts
  | .braced opening inner closing =>
      (Modifier.braced opening inner closing).part dialect :: inner.parts
  | .dotSend name target =>
      (Modifier.dotSend name target).part dialect :: selectorPart dialect name :: target.parts

def Arguments.parts : Arguments → List Part
  | .absent => []
  | .listed _ inner _ => inner.parts

def Items.parts : Items → List Part
  | .empty => []
  | .first item others => item.parts ++ others.parts

def MoreItems.parts : MoreItems → List Part
  | .ended | .trailing _ => []
  | .more _ item others => item.parts ++ others.parts

def Expression.parts : Expression → List Part
  | .single modifier => modifier.parts
  | .operation left operator right =>
      (Expression.operation left operator right).part dialect ::
        (left.parts ++ selectorPart dialect operator :: right.parts)
  | .form first others =>
      (Expression.form first others).part dialect :: (first.parts ++ others.parts)

def Modifiers.parts : Modifiers → List Part
  | .last modifier => modifier.parts
  | .more modifier others => modifier.parts ++ others.parts

end

end Parts

/-! ### Every node has its part -/

section Nodes

open Node (Within inside)

variable (dialect : Dialect)

/-- Some part is that of the node. -/
def HasPart (parts : List Part) (node : Node) : Prop :=
  ∃ part ∈ parts, part.node = node

theorem HasPart.mono {parts parts' : List Part} {node : Node} (has : HasPart parts node)
    (sub : parts ⊆ parts') : HasPart parts' node := by
  obtain ⟨part, among, same⟩ := has
  exact ⟨part, sub among, same⟩

/-- A node and all that is inside of its children have parts if the node has one. -/
theorem hasPart_of_inside {node : Node} {parts : List Part} (own : HasPart parts node)
    (below : ∀ child ∈ node.inside, ∀ inner, Within inside inner child → HasPart parts inner) :
    ∀ inner, Within inside inner node → HasPart parts inner := by
  intro inner within
  rcases within.cases with rfl | ⟨child, among, further⟩
  · exact own
  · exact below child among inner further

theorem hasPart_selector (parts : List Part) {name : Token}
    (among : selectorPart dialect name ∈ parts) :
    ∀ inner, Within inside inner (.atom (dialect.selector name)) → HasPart parts inner := by
  refine hasPart_of_inside ⟨_, among, rfl⟩ ?_
  intro child impossible
  cases impossible

mutual

theorem Modifier.hasPart (modifier : Modifier) :
    ∀ inner, Within inside inner (modifier.node dialect) →
      HasPart (modifier.parts dialect) inner := by
  match modifier with
  | .literal token =>
      refine hasPart_of_inside ⟨_, List.mem_cons_self, rfl⟩ ?_
      intro child impossible
      cases impossible
  | .partialSend dot name arguments | .implicitSend name arguments =>
      refine hasPart_of_inside ⟨_, List.mem_cons_self, rfl⟩ ?_
      intro child among inner within
      rcases List.mem_cons.mp among with rfl | later
      · exact hasPart_selector dialect _ (List.mem_cons_of_mem _ List.mem_cons_self) inner within
      · refine (arguments.hasPart child later inner within).mono ?_
        exact fun part among => List.mem_cons_of_mem _ (List.mem_cons_of_mem _ among)
  | .parenthesized opening inner closing | .braced opening inner closing =>
      refine hasPart_of_inside ⟨_, List.mem_cons_self, rfl⟩ ?_
      intro child among node within
      have below : child ∈ inner.nodes dialect := by
        simpa [Modifier.node, inside, Node.selector?, Node.children, Node.reached, Node.passed]
          using among
      refine (inner.hasPart child below node within).mono ?_
      exact fun part among => List.mem_cons_of_mem _ among
  | .dotSend name target =>
      refine hasPart_of_inside ⟨_, List.mem_cons_self, rfl⟩ ?_
      intro child among inner within
      rcases List.mem_cons.mp among with rfl | later
      · exact hasPart_selector dialect _ (List.mem_cons_of_mem _ List.mem_cons_self) inner within
      · obtain rfl := List.mem_singleton.mp later
        refine (target.hasPart inner within).mono ?_
        exact fun part among => List.mem_cons_of_mem _ (List.mem_cons_of_mem _ among)

theorem Arguments.hasPart (found : Arguments) :
    ∀ node ∈ found.nodes dialect, ∀ inner, Within inside inner node →
      HasPart (found.parts dialect) inner := by
  match found with
  | .absent => exact nofun
  | .listed opening inner closing => exact inner.hasPart

theorem Items.hasPart (inner : Items) :
    ∀ node ∈ inner.nodes dialect, ∀ deeper, Within inside deeper node →
      HasPart (inner.parts dialect) deeper := by
  match inner with
  | .empty => exact nofun
  | .first item others =>
      intro node among deeper within
      rcases List.mem_cons.mp among with rfl | later
      · exact (item.hasPart deeper within).mono (List.subset_append_left _ _)
      · exact (others.hasPart node later deeper within).mono (List.subset_append_right _ _)

theorem MoreItems.hasPart (others : MoreItems) :
    ∀ node ∈ others.nodes dialect, ∀ deeper, Within inside deeper node →
      HasPart (others.parts dialect) deeper := by
  match others with
  | .ended => exact nofun
  | .trailing delimiter => exact nofun
  | .more delimiter item others =>
      intro node among deeper within
      rcases List.mem_cons.mp among with rfl | later
      · exact (item.hasPart deeper within).mono (List.subset_append_left _ _)
      · exact (others.hasPart node later deeper within).mono (List.subset_append_right _ _)

theorem Expression.hasPart (tree : Expression) :
    ∀ inner, Within inside inner (tree.node dialect) → HasPart (tree.parts dialect) inner := by
  match tree with
  | .single modifier => exact modifier.hasPart
  | .operation left operator right =>
      refine hasPart_of_inside ⟨_, List.mem_cons_self, rfl⟩ ?_
      intro child among inner within
      have below : child = .atom (dialect.selector operator) ∨ child = left.node dialect ∨
          child = right.node dialect := by
        simpa [Expression.node, inside, Node.selector?, Node.children, Node.reached, Node.passed]
          using among
      rcases below with rfl | rfl | rfl
      · apply hasPart_selector dialect _ _ inner within
        exact List.mem_cons_of_mem _ (List.mem_append_right _ List.mem_cons_self)
      · refine (left.hasPart inner within).mono fun part among => ?_
        exact List.mem_cons_of_mem _ (List.mem_append_left _ among)
      · refine (right.hasPart inner within).mono fun part among => ?_
        exact List.mem_cons_of_mem _ (List.mem_append_right _ (List.mem_cons_of_mem _ among))
  | .form first others =>
      refine hasPart_of_inside ⟨_, List.mem_cons_self, rfl⟩ ?_
      intro child among inner within
      have below : child = first.node dialect ∨ child ∈ others.nodes dialect := by
        simpa [Expression.node, inside, Node.selector?, Node.children, Node.reached, Node.passed]
          using among
      rcases below with rfl | later
      · refine (first.hasPart inner within).mono fun part among => ?_
        exact List.mem_cons_of_mem _ (List.mem_append_left _ among)
      · refine (others.hasPart child later inner within).mono fun part among => ?_
        exact List.mem_cons_of_mem _ (List.mem_append_right _ among)

theorem Modifiers.hasPart (others : Modifiers) :
    ∀ node ∈ others.nodes dialect, ∀ inner, Within inside inner node →
      HasPart (others.parts dialect) inner := by
  match others with
  | .last modifier => exact List.forall_mem_singleton.mpr modifier.hasPart
  | .more modifier others =>
      intro node among deeper within
      rcases List.mem_cons.mp among with rfl | later
      · exact (modifier.hasPart deeper within).mono (List.subset_append_left _ _)
      · exact (others.hasPart node later deeper within).mono (List.subset_append_right _ _)

end

end Nodes

/-! ### Spans -/

section Spans

variable (dialect : Dialect)

theorem spans_cons {first : Token} {tokens : List Token} {parts : List Part}
    (spans : ∀ part ∈ parts, part.span <:+: tokens) :
    ∀ part ∈ parts, part.span <:+: first :: tokens :=
  fun part among => List.infix_cons (spans part among)

theorem spans_left {tokens : List Token} {parts : List Part}
    (spans : ∀ part ∈ parts, part.span <:+: tokens) (others : List Token) :
    ∀ part ∈ parts, part.span <:+: tokens ++ others :=
  fun part among => (spans part among).trans (List.prefix_append tokens others).isInfix

theorem spans_right {tokens : List Token} {parts : List Part}
    (spans : ∀ part ∈ parts, part.span <:+: tokens) (others : List Token) :
    ∀ part ∈ parts, part.span <:+: others ++ tokens :=
  fun part among => (spans part among).trans (List.suffix_append others tokens).isInfix

theorem spans_selector {name : Token} {tokens : List Token} (among : name ∈ tokens) :
    (selectorPart dialect name).span <:+: tokens := by
  obtain ⟨front, rest, rfl⟩ := List.append_of_mem among
  exact ⟨front, rest, by rw [selectorPart, List.append_assoc]; rfl⟩

mutual

theorem Modifier.spans (modifier : Modifier) :
    ∀ part ∈ modifier.parts dialect, part.span <:+: modifier.tokens := by
  match modifier with
  | .literal token => exact List.forall_mem_singleton.mpr List.infix_rfl
  | .partialSend dot name arguments =>
      refine List.forall_mem_cons.mpr ⟨List.infix_rfl, List.forall_mem_cons.mpr ⟨?_, ?_⟩⟩
      · exact spans_selector dialect (List.mem_cons_of_mem _ List.mem_cons_self)
      · exact spans_cons (spans_cons arguments.spans)
  | .implicitSend name arguments =>
      refine List.forall_mem_cons.mpr ⟨List.infix_rfl, List.forall_mem_cons.mpr ⟨?_, ?_⟩⟩
      · exact spans_selector dialect List.mem_cons_self
      · exact spans_cons arguments.spans
  | .parenthesized opening inner closing | .braced opening inner closing =>
      refine List.forall_mem_cons.mpr ⟨List.infix_rfl, ?_⟩
      exact spans_cons (spans_left inner.spans [closing])
  | .dotSend name target =>
      refine List.forall_mem_cons.mpr ⟨List.infix_rfl, List.forall_mem_cons.mpr ⟨?_, ?_⟩⟩
      · exact spans_selector dialect List.mem_cons_self
      · exact spans_cons target.spans

theorem Arguments.spans (found : Arguments) :
    ∀ part ∈ found.parts dialect, part.span <:+: found.tokens := by
  match found with
  | .absent => exact nofun
  | .listed opening inner closing => exact spans_cons (spans_left inner.spans [closing])

theorem Items.spans (inner : Items) :
    ∀ part ∈ inner.parts dialect, part.span <:+: inner.tokens := by
  match inner with
  | .empty => exact nofun
  | .first item others =>
      exact List.forall_mem_append.mpr
        ⟨spans_left item.spans others.tokens, spans_right others.spans item.tokens⟩

theorem MoreItems.spans (others : MoreItems) :
    ∀ part ∈ others.parts dialect, part.span <:+: others.tokens := by
  match others with
  | .ended => exact nofun
  | .trailing delimiter => exact nofun
  | .more delimiter item others =>
      apply spans_cons
      exact List.forall_mem_append.mpr
        ⟨spans_left item.spans others.tokens, spans_right others.spans item.tokens⟩

theorem Expression.spans (tree : Expression) :
    ∀ part ∈ tree.parts dialect, part.span <:+: tree.tokens := by
  match tree with
  | .single modifier => exact modifier.spans
  | .operation left operator right =>
      refine List.forall_mem_cons.mpr ⟨List.infix_rfl, List.forall_mem_append.mpr ⟨?_, ?_⟩⟩
      · exact spans_left left.spans _
      · refine List.forall_mem_cons.mpr ⟨?_, ?_⟩
        · exact spans_selector dialect (List.mem_append_right _ List.mem_cons_self)
        · exact spans_right (spans_cons right.spans) left.tokens
  | .form first others =>
      refine List.forall_mem_cons.mpr ⟨List.infix_rfl, List.forall_mem_append.mpr ⟨?_, ?_⟩⟩
      · exact spans_left first.spans others.tokens
      · exact spans_right others.spans first.tokens

theorem Modifiers.spans (others : Modifiers) :
    ∀ part ∈ others.parts dialect, part.span <:+: others.tokens := by
  match others with
  | .last modifier => exact modifier.spans
  | .more modifier others =>
      exact List.forall_mem_append.mpr
        ⟨spans_left modifier.spans others.tokens, spans_right others.spans modifier.tokens⟩

end

end Spans

end Grammar

end MessageForms
