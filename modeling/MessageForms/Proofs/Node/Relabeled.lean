import MessageForms.Expansion.Table
import MessageForms.Node.Equality
import MessageForms.Node.Basic

set_option autoImplicit false

/-! Nodes with their labels exchanged: the places, and whatever stands for a value that is no
number. Nothing that expansion asks of a node hangs on its labels, and trees that differ in their
labels only are equal, since equality ignores places and the exchange can put a number in every such
spot. -/

namespace MessageForms

/-- What is put in the place of the labels. -/
structure Relabeling where
  place : Position → Position
  notANumber : Binary64

namespace Relabeling

/-- Everything is put somewhere else, and nothing more. -/
def moving (place : Position → Position) : Relabeling :=
  { place, notANumber := .notANumber }

/-- What is no number becomes zero. -/
def settling (place : Position → Position) : Relabeling :=
  { place, notANumber := .signed false 0 }

end Relabeling

section Relabel

variable (labels : Relabeling)

def Binary64.relabel : Binary64 → Binary64
  | .notANumber => labels.notANumber
  | .signed negative magnitude => .signed negative magnitude

def Content.relabel : Content → Content
  | .number value => .number (value.relabel labels)
  | .text content => .text content

def Literal.relabel (literal : Literal) : Literal :=
  { literal with content := literal.content.relabel labels }

def Atom.relabel (atom : Atom) : Atom :=
  { literal := atom.literal.relabel labels, position := labels.place atom.position }

def Parameters.relabel (parameters : Parameters) : Parameters :=
  { names := parameters.names.map (·.relabel labels)
    position := labels.place parameters.position }

mutual

def Node.relabel : Node → Node
  | .atom value => .atom (value.relabel labels)
  | .macroForm modifiers position => .macroForm (relabelAll modifiers) (labels.place position)
  | .parenthesized inner position => .parenthesized (relabelAll inner) (labels.place position)
  | .braced inner position => .braced (relabelAll inner) (labels.place position)
  | .implicitSend selector arguments position =>
      .implicitSend (selector.relabel labels) (relabelAll arguments) (labels.place position)
  | .partialSend selector arguments position =>
      .partialSend (selector.relabel labels) (relabelAll arguments) (labels.place position)
  | .targetedSend target selector arguments position =>
      .targetedSend target.relabel (selector.relabel labels) (relabelAll arguments)
        (labels.place position)
  | .classDefinition origin name parent parameters access body position =>
      .classDefinition (relabelAll origin) (name.relabel labels) (relabelOption parent)
        (parameters.map (·.relabel labels)) (relabelAll access) (relabelAll body)
        (labels.place position)
  | .methodDefinition origin name parameters access body position =>
      .methodDefinition (relabelAll origin) (name.relabel labels)
        (parameters.map (·.relabel labels)) (relabelAll access) (relabelAll body)
        (labels.place position)
  | .lexicalVariable origin name write access bound position =>
      .lexicalVariable (relabelAll origin) (name.relabel labels) write (relabelOption access)
        bound.relabel (labels.place position)

def Node.relabelAll : List Node → List Node
  | [] => []
  | node :: others => node.relabel :: relabelAll others

def Node.relabelOption : Option Node → Option Node
  | none => none
  | some node => some node.relabel

end

def MacroForm.relabel (form : MacroForm) : MacroForm :=
  { modifiers := Node.relabelAll labels form.modifiers, position := labels.place form.position }

def Problem.relabel (problem : Problem) : Problem :=
  { problem with position := problem.position.map labels.place }

def Fault.relabel : Fault → Fault
  | .problem reported => .problem (reported.relabel labels)
  | fault => fault

end Relabel

namespace Node

@[simp] theorem relabelAll_eq_map (labels : Relabeling) (nodes : List Node) :
    relabelAll labels nodes = nodes.map (·.relabel labels) := by
  induction nodes with
  | nil => rfl
  | cons node others ih => rw [relabelAll, ih, List.map_cons]

@[simp] theorem relabelOption_eq_map (labels : Relabeling) (node : Option Node) :
    relabelOption labels node = node.map (·.relabel labels) := by
  cases node <;> rfl

/-! ### What a node is asked for -/

section Questions

variable (labels : Relabeling) (node : Node)

@[simp] theorem position_relabel : (node.relabel labels).position = labels.place node.position := by
  cases node <;> rfl

@[simp] theorem isBraced_relabel : (node.relabel labels).isBraced = node.isBraced := by
  cases node <;> rfl

@[simp] theorem name?_relabel : (node.relabel labels).name? = node.name? := by
  cases node with
  | implicitSend selector arguments position =>
      rcases selector with ⟨⟨kind, content⟩, place⟩
      cases kind <;> cases content <;> rfl
  | _ => rfl

@[simp] theorem writeKeyword?_relabel :
    (node.relabel labels).writeKeyword? = node.writeKeyword? := by
  rw [writeKeyword?, writeKeyword?, name?_relabel]

@[simp] theorem arguments_relabel :
    (node.relabel labels).arguments = node.arguments.map (·.relabel labels) := by
  cases node <;> simp only [relabel, arguments, relabelAll_eq_map, List.map_nil]

@[simp] theorem signature?_relabel :
    (node.relabel labels).signature? =
      node.signature?.map fun found =>
        (found.1.relabel labels, found.2.map (·.relabel labels)) := by
  cases node <;> simp only [relabel, signature?, relabelAll_eq_map, Option.map_some,
    Option.map_none, List.map_nil]

@[simp] theorem plainName?_relabel :
    (node.relabel labels).plainName? = node.plainName?.map (·.relabel labels) := by
  rw [plainName?, plainName?, signature?_relabel]
  cases node.signature? with
  | none => rfl
  | some found =>
      rcases found with ⟨name, arguments⟩
      cases arguments <;> rfl

end Questions

theorem hasModifierNamed_relabel (labels : Relabeling) (name : Text) (modifiers : List Node) :
    MacroForm.hasModifierNamed name (modifiers.map (·.relabel labels)) =
      MacroForm.hasModifierNamed name modifiers := by
  simp only [MacroForm.hasModifierNamed, List.any_map, Function.comp_def, name?_relabel]

/-! ### Weight -/

mutual

@[simp] theorem weight_relabel (labels : Relabeling) (node : Node) :
    (node.relabel labels).weight = node.weight := by
  cases node with
  | macroForm inner _ | parenthesized inner _ | braced inner _ =>
      rw [relabel, weight, weight, weights_relabelAll labels inner]
  | classDefinition origin name parent parameters access body _ =>
      rw [relabel, weight, weight, weights_relabelAll labels body]
  | methodDefinition origin name parameters access body _ =>
      rw [relabel, weight, weight, weights_relabelAll labels body]
  | lexicalVariable origin name write access bound _ =>
      rw [relabel, weight, weight, weight_relabel labels bound]
  | atom _ | implicitSend _ _ _ | partialSend _ _ _ | targetedSend _ _ _ _ => rfl

theorem weights_relabelAll (labels : Relabeling) (nodes : List Node) :
    weights (relabelAll labels nodes) = weights nodes := by
  match nodes with
  | [] => rfl
  | node :: others =>
      rw [relabelAll, weights, weights, weight_relabel labels node,
        weights_relabelAll labels others]

end

end Node

/-! ### Equality -/

section Equality

variable {equal : Literal → Literal → Bool} {labels labels' : Relabeling}

/-- Literals stay equal to themselves when their labels are exchanged in two ways. -/
def Settles (equal : Literal → Literal → Bool) (labels labels' : Relabeling) : Prop :=
  ∀ literal : Literal, equal (literal.relabel labels) (literal.relabel labels') = true

theorem Parameters.equalBy_relabel (equals : Settles equal labels labels')
    (parameters : Parameters) :
    (parameters.relabel labels).equalBy equal (parameters.relabel labels') = true := by
  simp only [equalBy, relabel, List.length_map, BEq.rfl, Bool.true_and, List.zip_map', List.all_map,
    List.all_eq_true, Function.comp_apply, Atom.relabel]
  exact fun name _ => equals name.literal

theorem Parameters.optionEqualBy_relabel (equals : Settles equal labels labels')
    (parameters : Option Parameters) :
    optionEqualBy equal (parameters.map (·.relabel labels)) (parameters.map (·.relabel labels')) =
      true := by
  cases parameters with
  | none => rfl
  | some parameters => exact equalBy_relabel equals parameters

namespace Node

mutual

theorem equalBy_relabel (equals : Settles equal labels labels') (node : Node) :
    equalBy equal (node.relabel labels) (node.relabel labels') = true := by
  match node with
  | .atom value => exact equals value.literal
  | .macroForm inner _ | .parenthesized inner _ | .braced inner _ =>
      exact allEqualBy_relabel equals inner
  | .implicitSend selector arguments _ | .partialSend selector arguments _ =>
      simp only [relabel, equalBy, Atom.relabel, equals selector.literal,
        allEqualBy_relabel equals arguments, Bool.true_and]
  | .targetedSend target selector arguments _ =>
      simp only [relabel, equalBy, Atom.relabel, equals selector.literal,
        equalBy_relabel equals target, allEqualBy_relabel equals arguments, Bool.true_and]
  | .classDefinition origin name parent parameters access body _ =>
      simp only [relabel, equalBy, Atom.relabel, equals name.literal,
        allEqualBy_relabel equals origin, optionEqualBy_relabel equals parent,
        Parameters.optionEqualBy_relabel equals parameters, allEqualBy_relabel equals access,
        allEqualBy_relabel equals body, Bool.true_and]
  | .methodDefinition origin name parameters access body _ =>
      simp only [relabel, equalBy, Atom.relabel, equals name.literal,
        allEqualBy_relabel equals origin, Parameters.optionEqualBy_relabel equals parameters,
        allEqualBy_relabel equals access, allEqualBy_relabel equals body, Bool.true_and]
  | .lexicalVariable origin name write access bound _ =>
      simp only [relabel, equalBy, Atom.relabel, equals name.literal,
        allEqualBy_relabel equals origin, optionEqualBy_relabel equals access,
        equalBy_relabel equals bound, BEq.rfl, Bool.true_and]

theorem allEqualBy_relabel (equals : Settles equal labels labels') (nodes : List Node) :
    allEqualBy equal (relabelAll labels nodes) (relabelAll labels' nodes) = true := by
  match nodes with
  | [] => rfl
  | node :: others =>
      simp only [relabelAll, allEqualBy, equalBy_relabel equals node,
        allEqualBy_relabel equals others, Bool.true_and]

theorem optionEqualBy_relabel (equals : Settles equal labels labels') (node : Option Node) :
    optionEqualBy equal (relabelOption labels node) (relabelOption labels' node) = true := by
  match node with
  | none => rfl
  | some node => exact equalBy_relabel equals node

end

end Node

end Equality

/-! Both equalities ignore places; settled values are numbers, so each equals itself. -/

theorem Content.equal_settling (place place' : Position → Position) (content : Content) :
    (content.relabel (.settling place)).equal (content.relabel (.settling place')) = true := by
  cases content with
  | number value =>
      cases value <;> simp [relabel, Binary64.relabel, equal, Binary64.numericallyEqual,
        Relabeling.settling]
  | text content => exact beq_self_eq_true content

theorem settles_same (place place' : Position → Position) :
    Settles Literal.same (.settling place) (.settling place') := by
  intro literal
  rw [Literal.same, Literal.relabel, Literal.relabel, BEq.rfl, Bool.true_and]
  exact literal.content.equal_settling place place'

theorem settles_alike (place place' : Position → Position) :
    Settles Literal.alike (.settling place) (.settling place') :=
  fun literal => literal.content.equal_settling place place'

end MessageForms
