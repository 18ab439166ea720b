import MessageForms.Proofs.Node.Sharing

set_option autoImplicit false

/-! The two equalities of nodes. Nodes are alike if they become one and the same without places and
kinds of atoms, and the same if the kinds agree as well. Both are equivalences as long as no atom
holds something that is no number, which does not even equal itself. -/

namespace MessageForms

/-! ### Equal literals -/

def Binary64.unsignedZero : Binary64 → Binary64
  | .signed _ 0 => .signed false 0
  | value => value

theorem Binary64.numericallyEqual_iff {left right : Binary64} (number : left ≠ .notANumber) :
    left.numericallyEqual right = true ↔ left.unsignedZero = right.unsignedZero := by
  cases left with
  | notANumber => exact absurd rfl number
  | signed leftNegative left =>
      cases right with
      | notANumber => cases left <;> simp [numericallyEqual, unsignedZero]
      | signed rightNegative right =>
          cases left <;> cases right <;>
            simp [numericallyEqual, unsignedZero, and_comm]

namespace Content

def unsignedZero : Content → Content
  | number value => number value.unsignedZero
  | text content => text content

theorem equal_iff {left right : Content} (numeric : left ≠ number .notANumber) :
    left.equal right = true ↔ left.unsignedZero = right.unsignedZero := by
  cases left with
  | number left =>
      have isNumber : left ≠ .notANumber := fun same => numeric (same ▸ rfl)
      cases right with
      | number right =>
          rw [equal, unsignedZero, unsignedZero, number.injEq]
          exact Binary64.numericallyEqual_iff isNumber
      | text right => simp [equal, unsignedZero]
  | text left => cases right <;> simp [equal, unsignedZero]

end Content

namespace Literal

/-- The content with the kind left out, and the sign of a zero too. -/
def withoutKind (literal : Literal) : Literal :=
  plain literal.content.unsignedZero

theorem alike_iff_withoutKind {left right : Literal}
    (numeric : left.content ≠ .number .notANumber) :
    left.alike right = true ↔ left.withoutKind = right.withoutKind := by
  rw [alike, Content.equal_iff numeric, withoutKind, withoutKind, mk.injEq]
  exact (and_iff_right rfl).symm

theorem keeps_withoutKind : Keeps alike withoutKind := by
  intro left right equals
  refine (alike_iff_withoutKind ?_).mp equals
  intro same
  rw [alike, same] at equals
  cases other : right.content with
  | number value =>
      rw [other] at equals
      cases equals
  | text content =>
      rw [other] at equals
      cases equals

theorem same_iff (left right : Literal) :
    left.same right = true ↔ left.alike right = true ∧ left.kind = right.kind := by
  rw [same, alike, Bool.and_eq_true, beq_iff_eq, and_comm]

end Literal

/-! ### Equal nodes -/

theorem literalsEqual_same_iff (left right : List Literal) :
    LiteralsEqual Literal.same left right ↔
      LiteralsEqual Literal.alike left right ∧
        left.map Literal.kind = right.map Literal.kind := by
  rw [← List.forall₂_eq_eq_eq, List.forall₂_map_left_iff, List.forall₂_map_right_iff]
  constructor
  · intro equals
    exact ⟨equals.imp fun one other same => ((Literal.same_iff one other).mp same).1,
      equals.imp fun one other same => ((Literal.same_iff one other).mp same).2⟩
  · rintro ⟨alike, kinds⟩
    exact alike.mp (fun one other equals kind => (Literal.same_iff one other).mpr ⟨equals, kind⟩)
      kinds

namespace Node

/-- No atom, of whatever kind, holds something that is no number. -/
def IsNumeric (node : Node) : Prop :=
  ∀ literal ∈ node.literals, literal.content ≠ .number .notANumber

def kinds (node : Node) : List AtomKind :=
  node.literals.map Literal.kind

theorem IsNumeric.alike_self {node : Node} (numeric : node.IsNumeric) :
    ∀ literal ∈ node.literals, literal.alike literal = true :=
  fun literal inside =>
    (Literal.alike_iff_withoutKind (numeric literal inside)).mpr rfl

theorem IsNumeric.same_self {node : Node} (numeric : node.IsNumeric) :
    ∀ literal ∈ node.literals, literal.same literal = true :=
  fun literal inside =>
    (Literal.same_iff literal literal).mpr ⟨numeric.alike_self literal inside, rfl⟩

/-- Erasing places and kinds decides which nodes are alike. -/
theorem alike_iff_erased {left : Node} (numeric : left.IsNumeric) (right : Node) :
    left.alike right = true ↔
      left.erased Literal.withoutKind = right.erased Literal.withoutKind := by
  rw [alike, equalBy_iff Literal.keeps_withoutKind, and_iff_left_iff_imp]
  intro same
  have contents := congrArg literals same
  rw [literals_erased, literals_erased, ← List.forall₂_eq_eq_eq, List.forall₂_map_left_iff,
    List.forall₂_map_right_iff] at contents
  refine ((List.forall₂_and_left _ _).mpr ⟨numeric, contents⟩).imp ?_
  rintro one other ⟨number, equals⟩
  exact (Literal.alike_iff_withoutKind number).mpr equals

theorem same_iff (left right : Node) :
    left.same right = true ↔ left.alike right = true ∧ left.kinds = right.kinds := by
  rw [same, alike, equalBy_iff (keeps_nothing _), equalBy_iff (keeps_nothing _),
    literalsEqual_same_iff, and_assoc, kinds, kinds]

theorem variantName_erased (kept : Literal → Literal) (node : Node) :
    (node.erased kept).variantName = node.variantName := by
  cases node <;> rfl

theorem allEqualBy_iff_forall₂ (equal : Literal → Literal → Bool) (left right : List Node) :
    allEqualBy equal left right = true ↔
      List.Forall₂ (fun one other => equalBy equal one other = true) left right := by
  induction left generalizing right with
  | nil => cases right <;> simp [allEqualBy]
  | cons node others ih => cases right <;> simp [allEqualBy, ih]

/-- Nodes built by the same constructor from related parts, in whatever places. -/
inductive Congruent (related : Node → Node → Prop) : Node → Node → Prop where
  | atom {left right : Literal} (place place' : Position)
      (contents : left.alike right = true) :
      Congruent related (.atom ⟨left, place⟩) (.atom ⟨right, place'⟩)
  | macroForm {left right : List Node} (place place' : Position)
      (inner : List.Forall₂ related left right) :
      Congruent related (.macroForm left place) (.macroForm right place')
  | parenthesized {left right : List Node} (place place' : Position)
      (inner : List.Forall₂ related left right) :
      Congruent related (.parenthesized left place) (.parenthesized right place')
  | braced {left right : List Node} (place place' : Position)
      (inner : List.Forall₂ related left right) :
      Congruent related (.braced left place) (.braced right place')
  | implicitSend {selector selector' : Atom} {left right : List Node} (place place' : Position)
      (selectors : related (.atom selector) (.atom selector'))
      (arguments : List.Forall₂ related left right) :
      Congruent related (.implicitSend selector left place) (.implicitSend selector' right place')
  | partialSend {selector selector' : Atom} {left right : List Node} (place place' : Position)
      (selectors : related (.atom selector) (.atom selector'))
      (arguments : List.Forall₂ related left right) :
      Congruent related (.partialSend selector left place) (.partialSend selector' right place')
  | targetedSend {target target' : Node} {selector selector' : Atom} {left right : List Node}
      (place place' : Position) (targets : related target target')
      (selectors : related (.atom selector) (.atom selector'))
      (arguments : List.Forall₂ related left right) :
      Congruent related (.targetedSend target selector left place)
        (.targetedSend target' selector' right place')

theorem alike_of_congruent {left right : Node}
    (congruent : Congruent (fun one other => one.alike other = true) left right) :
    left.alike right = true := by
  cases congruent with
  | atom _ _ contents => exact contents
  | macroForm _ _ inner | parenthesized _ _ inner | braced _ _ inner =>
      exact (allEqualBy_iff_forall₂ _ _ _).mpr inner
  | implicitSend _ _ selectors arguments | partialSend _ _ selectors arguments =>
      rw [alike, equalBy, Bool.and_eq_true]
      exact ⟨selectors, (allEqualBy_iff_forall₂ _ _ _).mpr arguments⟩
  | targetedSend _ _ targets selectors arguments =>
      rw [alike, equalBy, Bool.and_eq_true, Bool.and_eq_true]
      exact ⟨⟨targets, selectors⟩, (allEqualBy_iff_forall₂ _ _ _).mpr arguments⟩

/-- What the comparisons of three nodes say. -/
structure ComparesStructurally (left middle right : Node) : Prop where
  /-- Which nodes the trees have in common makes no difference. -/
  references : ∀ shared, Shares shared left right →
    equalSharing Literal.alike shared left right = left.alike right ∧
      equalSharing Literal.same shared left right = left.same right
  erasure : left.alike right = true ↔
    left.erased Literal.withoutKind = right.erased Literal.withoutKind
  reflexive : left.alike left = true
  symmetric : left.alike right = right.alike left
  transitive : left.alike middle = true → middle.alike right = true → left.alike right = true
  variants : left.variantName ≠ right.variantName → left.alike right = false
  congruence : Congruent (fun one other => one.alike other = true) left right →
    left.alike right = true
  /-- Alike nodes have their atoms in the same spots, so that the kinds correspond one by one. -/
  kinds : left.same right = true ↔ left.alike right = true ∧ left.kinds = right.kinds

/-- Nodes are compared by their structure alone. -/
theorem compares_structurally {left middle right : Node} (leftNumeric : left.IsNumeric)
    (middleNumeric : middle.IsNumeric) (rightNumeric : right.IsNumeric) :
    ComparesStructurally left middle right where
  references := fun _ shares =>
    ⟨equalSharing_eq leftNumeric.alike_self shares, equalSharing_eq leftNumeric.same_self shares⟩
  erasure := alike_iff_erased leftNumeric right
  reflexive := (alike_iff_erased leftNumeric left).mpr rfl
  symmetric := by
    rw [Bool.eq_iff_iff, alike_iff_erased leftNumeric, alike_iff_erased rightNumeric, eq_comm]
  transitive := by
    rw [alike_iff_erased leftNumeric, alike_iff_erased middleNumeric, alike_iff_erased leftNumeric]
    exact Eq.trans
  variants := by
    intro variants
    rw [Bool.eq_false_iff, Ne, alike_iff_erased leftNumeric]
    intro same
    have names := congrArg variantName same
    rw [variantName_erased, variantName_erased] at names
    exact variants names
  congruence := alike_of_congruent
  kinds := same_iff left right

/-- A symbol and a string of one name are alike, and so are the two zeros, one of which is held by
an atom without a kind. -/
theorem compares_structurally_kinds :
    let left : Node := .implicitSend ⟨.symbol ['f'], ⟨0, 0⟩⟩
      [.atom ⟨.number (.signed true 0), ⟨0, 2⟩⟩] ⟨0, 0⟩
    let middle : Node := .implicitSend ⟨.symbol ['f'], ⟨3, 1⟩⟩
      [.atom ⟨.number (.signed false 0), ⟨3, 3⟩⟩] ⟨3, 1⟩
    let right : Node := .implicitSend ⟨.string ['f'], ⟨0, 0⟩⟩
      [.atom ⟨.plain (.number (.signed false 0)), ⟨0, 4⟩⟩] ⟨0, 0⟩
    ComparesStructurally left middle right ∧ left.same middle = true ∧
      left.alike right = true ∧ left.same right = false := by
  intro left middle right
  have leftNumeric : left.IsNumeric := by unfold IsNumeric; decide
  have middleNumeric : middle.IsNumeric := by unfold IsNumeric; decide
  have rightNumeric : right.IsNumeric := by unfold IsNumeric; decide
  have compares := compares_structurally leftNumeric middleNumeric rightNumeric
  refine ⟨compares, by decide, compares.erasure.mpr rfl, by decide⟩

end Node

end MessageForms
