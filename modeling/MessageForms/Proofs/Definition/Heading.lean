import MessageForms.Proofs.Definition.Division

set_option autoImplicit false

/-! The name of a class or a method, with its parameters and its body. Parameters are the arguments
of the name, or stand in parentheses behind it, but never both. What is said here of these parts is
said of the modifiers alone; the steps that take the parts are shown to find them wherever they
stand. -/

namespace MessageForms

namespace Node

/-- A name without arguments: an atom, or an implicit send with nothing but a selector. -/
def IsPlainName (node : Node) : Prop :=
  (∃ value, node = .atom value) ∨ ∃ selector position, node = .implicitSend selector [] position

def IsNaming (node : Node) : Prop :=
  (∃ value, node = .atom value) ∨
    ∃ selector arguments position, node = .implicitSend selector arguments position

theorem isPlainName_iff {node : Node} :
    node.IsPlainName ↔ ∃ name, node.plainName? = some name := by
  constructor
  · rintro (⟨value, rfl⟩ | ⟨selector, position, rfl⟩)
    · exact ⟨value, rfl⟩
    · exact ⟨selector, rfl⟩
  · rintro ⟨name, named⟩
    cases node with
    | atom value => exact .inl ⟨value, rfl⟩
    | implicitSend selector arguments position =>
        cases arguments with
        | nil => exact .inr ⟨selector, position, rfl⟩
        | cons argument others => cases named
    | _ => cases named

theorem isNaming_of_signature? {node : Node} {found : Atom × List Node}
    (signed : node.signature? = some found) : node.IsNaming := by
  cases node with
  | atom value => exact .inl ⟨value, rfl⟩
  | implicitSend selector arguments position => exact .inr ⟨selector, arguments, position, rfl⟩
  | _ => cases signed

theorem arguments_of_signature? {node : Node} {name : Atom} {arguments : List Node}
    (signed : node.signature? = some (name, arguments)) : node.arguments = arguments := by
  cases node with
  | atom value =>
      cases signed
      rfl
  | implicitSend selector found position =>
      cases signed
      rfl
  | _ => cases signed

theorem IsNaming.exists_signature? {node : Node} (naming : node.IsNaming) :
    ∃ name, node.signature? = some (name, node.arguments) := by
  rcases naming with ⟨value, rfl⟩ | ⟨selector, arguments, position, rfl⟩
  · exact ⟨value, rfl⟩
  · exact ⟨selector, rfl⟩

end Node

/-- The fault is a problem with a form that was to become a definition, or with something in it that
is not supported. -/
def Fault.IsOfBuilding (fault : Fault) : Prop :=
  ∃ problem, fault = .problem problem ∧
    (problem.complaint.family = .building ∨ problem.complaint.family = .unsupported)

theorem Fault.IsInForm.isOfBuilding {fault : Fault} (inForm : fault.IsInForm) :
    fault.IsOfBuilding := by
  cases fault with
  | problem problem => exact ⟨problem, rfl, inForm.1.family⟩
  | _ => exact inForm.elim

theorem MacroForm.isClass_eq_false_iff {form : MacroForm} :
    form.isClass = false ↔
      ∀ modifier ∈ form.modifiers, modifier.name? ≠ some Keyword.classWord := by
  rw [MacroForm.isClass, MacroForm.hasModifierNamed, List.any_eq_false]
  simp only [decide_eq_true_eq, ne_eq]

def Parameters.naming (nodes : List Node) (position : Position) : Parameters :=
  { names := nodes.filterMap Node.plainName?, position }

/-- The keyword with the expression that is extended, which is no body; or nothing. -/
def IsExtension (extension : List Node) : Prop :=
  extension = [] ∨ ∃ keyword expression, extension = [keyword, expression] ∧
    keyword.name? = some Keyword.extendsWord ∧ expression.isBraced = false

/-- The modifiers that give a class or a method its name, its parameters and its body. -/
structure Heading where
  signature : Node
  own : List Node
  block : List Node

namespace Heading

/-- A name, perhaps with arguments; a list in parentheses if it has none; and a body in braces. The
list and the body may be missing, and all that is listed are plain names. -/
structure WellFormed (heading : Heading) : Prop where
  naming : heading.signature.IsNaming
  own_listed : heading.own = [] ∨
    ∃ inner position, heading.own = [.parenthesized inner position]
  own_absent : heading.signature.arguments ≠ [] → heading.own = []
  block_braced : heading.block = [] ∨ ∃ inner position, heading.block = [.braced inner position]
  arguments_plain : ∀ argument ∈ heading.signature.arguments, argument.IsPlainName
  own_plain : ∀ list ∈ heading.own, ∀ parameter ∈ list.inner, parameter.IsPlainName

def name? (heading : Heading) : Option Atom :=
  heading.signature.signature?.map Prod.fst

/-- The arguments of the name as parameters, in its place, if there are any; else the own list, in
the place of that, if there is one. -/
def parameters (heading : Heading) : Option Parameters :=
  if heading.signature.arguments = [] then
    heading.own.head?.map fun list => .naming list.inner list.position
  else some (.naming heading.signature.arguments heading.signature.position)

def body (heading : Heading) : List Node :=
  heading.block.flatMap Node.inner

end Heading

theorem Heading.WellFormed.unnamed_behind {heading : Heading} (wellFormed : heading.WellFormed) :
    ∀ next ∈ (heading.own ++ heading.block).head?, next.name? = none := by
  intro next first
  rcases wellFormed.own_listed with own | ⟨inner, position, own⟩
  · rcases wellFormed.block_braced with block | ⟨inner, position, block⟩
    · rw [own, block] at first
      cases first
    · rw [own, block] at first
      cases first
      rfl
  · rw [own] at first
    cases first
    rfl

/-! ### From the parts of a definition -/

theorem Parameters.Name.isPlainName {parameters : Parameters} {nodes : List Node}
    {position : Position} (named : parameters.Name nodes position) :
    ∀ node ∈ nodes, node.IsPlainName := by
  intro node among
  have found := List.mem_map_of_mem (f := Node.plainName?) among
  rw [named.names_eq] at found
  obtain ⟨name, -, same⟩ := List.mem_map.mp found
  exact Node.isPlainName_iff.mpr ⟨name, same.symm⟩

theorem ExtendsPart.isExtension {extension : List Node} {parent : Option Node}
    (part : ExtendsPart extension parent) : IsExtension extension := by
  cases part with
  | absent => exact .inl rfl
  | given named noBody => exact .inr ⟨_, _, rfl, named, noBody⟩

theorem SignatureParameters.wellFormed {signature : Node} {name : Atom}
    {arguments own block body : List Node} {parameters : Option Parameters}
    (given : SignatureParameters signature arguments own parameters)
    (signed : signature.signature? = some (name, arguments)) (isBlock : BodyPart block body) :
    Heading.WellFormed { signature, own, block } := by
  obtain rfl := Node.arguments_of_signature? signed
  have naming := Node.isNaming_of_signature? signed
  have braced : block = [] ∨ ∃ inner position, block = [.braced inner position] := by
    cases isBlock with
    | absent => exact .inl rfl
    | given => exact .inr ⟨_, _, rfl⟩
  generalize listed : signature.arguments = arguments at given
  cases given with
  | own part =>
      have none : ∀ argument ∈ signature.arguments, argument.IsPlainName := by
        rw [listed]
        exact nofun
      cases part with
      | absent => exact ⟨naming, .inl rfl, fun _ => rfl, braced, none, nofun⟩
      | listed named =>
          refine ⟨naming, .inr ⟨_, _, rfl⟩, fun some => (some listed).elim, braced, none, ?_⟩
          exact List.forall_mem_singleton.mpr named.isPlainName
  | carried named =>
      refine ⟨naming, .inl rfl, fun _ => rfl, braced, ?_, nofun⟩
      rw [listed]
      exact named.isPlainName

/-- What is made has parts, and of any parts something is made that they describe. So nothing else
is made of them. -/
theorem recognizes_of_parts {Part Made : Type} {outcome : Except Fault Made} {divides : Part → Prop}
    {describes : Part → Made → Prop}
    (found : ∀ made, outcome = .ok made → ∃ parts, divides parts)
    (makes : ∀ parts, divides parts → ∃ made, outcome = .ok made ∧ describes parts made) :
    ((∃ made, outcome = .ok made) ↔ ∃ parts, divides parts) ∧
      ∀ parts made, divides parts → outcome = .ok made → describes parts made := by
  refine ⟨⟨?_, ?_⟩, ?_⟩
  · rintro ⟨made, done⟩
    exact found made done
  · rintro ⟨parts, isDivided⟩
    obtain ⟨made, done, -⟩ := makes parts isDivided
    exact ⟨made, done⟩
  · intro parts made isDivided done
    obtain ⟨again, doneAgain, described⟩ := makes parts isDivided
    cases done.symm.trans doneAgain
    exact described

/-! ### Steps on given parts -/

theorem Parameters.ofNodes_of_plain {nodes : List Node} (position : Position)
    (plain : ∀ node ∈ nodes, node.IsPlainName) :
    Parameters.ofNodes nodes position = .ok (.naming nodes position) := by
  have names : nodes.mapM parameterName = .ok (nodes.filterMap Node.plainName?) := by
    induction nodes with
    | nil => rfl
    | cons node others ih =>
        obtain ⟨first, further⟩ := List.forall_mem_cons.mp plain
        obtain ⟨name, named⟩ := Node.isPlainName_iff.mp first
        rw [List.mapM_cons, parameterName, named, ih further, List.filterMap_cons_some named]
        rfl
  rw [Parameters.ofNodes, names]
  rfl

namespace Taking

variable {cursor : ItemCursor Node}

theorem peek_apply (cursor : ItemCursor Node) : peek cursor = .ok cursor.ahead.head? cursor :=
  rfl

theorem next_of_cons {node : Node} {rest : List Node} (ahead : cursor.ahead = node :: rest) :
    next cursor = .ok (some node) (cursor.skip 1) ∧ (cursor.skip 1).ahead = rest := by
  rcases cursor with ⟨position, nodes⟩
  cases ahead
  exact ⟨rfl, rfl⟩

theorem untilNamed_of_split {name : Text} {front rest : List Node} {first : Node}
    (ahead : cursor.ahead = front ++ first :: rest)
    (others : ∀ node ∈ front, node.name? ≠ some name) (named : first.name? = some name) :
    ∃ after, untilNamed name cursor = .ok front after ∧ after.ahead = first :: rest := by
  have taken : cursor.ahead.takeWhile (·.name? ≠ some name) = front := by
    rw [ahead, List.takeWhile_append_of_pos, List.takeWhile_cons_of_neg, List.append_nil]
    · simpa using named
    · simpa using others
  refine ⟨cursor.skip front.length, ?_, ?_⟩
  · rw [← taken]
    rfl
  · change cursor.ahead.drop front.length = first :: rest
    rw [ahead, List.drop_left]

theorem ofOutcome_of_ok {α : Type} {outcome : Except Fault α} {value : α}
    (done : outcome = .ok value) : ofOutcome outcome cursor = .ok value cursor := by
  rw [done]
  rfl

theorem parent?_of_extension {extension rest : List Node} (given : IsExtension extension)
    (needed : ∀ first ∈ (extension ++ rest).head?,
      first.name? = some Keyword.extendsWord → extension ≠ [])
    (ahead : cursor.ahead = extension ++ rest) :
    ∃ after, parent? cursor = .ok extension[1]? after ∧ after.ahead = rest := by
  rw [parent?, bind_of_ok (peek_apply cursor), ahead]
  rcases given with rfl | ⟨keyword, expression, rfl, named, noBody⟩
  · refine ⟨cursor, ?_, ahead⟩
    cases rest with
    | nil => rfl
    | cons first others =>
        simp only [List.nil_append, List.head?_cons]
        rw [if_neg fun named => needed first rfl named rfl]
        rfl
  · have behind : cursor.ahead = keyword :: expression :: rest := ahead
    obtain ⟨read, left⟩ := next_of_cons behind
    obtain ⟨readAgain, leftAgain⟩ := next_of_cons left
    refine ⟨(cursor.skip 1).skip 1, ?_, leftAgain⟩
    simp only [List.cons_append, List.head?_cons]
    rw [if_pos named, bind_of_ok read, bind_of_ok (peek_apply _), left]
    simp only [List.head?_cons]
    rw [if_neg (Bool.eq_false_iff.mp noBody), readAgain]
    rfl

theorem parameters?_of_heading {heading : Heading} (wellFormed : heading.WellFormed)
    (ahead : cursor.ahead = heading.own ++ heading.block) :
    ∃ after, parameters? cursor =
        .ok (heading.own.head?.map fun list => .naming list.inner list.position) after ∧
      after.ahead = heading.block := by
  rw [parameters?, bind_of_ok (peek_apply cursor), ahead]
  rcases wellFormed.own_listed with own | ⟨inner, position, own⟩
  · rw [own, List.nil_append] at ahead
    refine ⟨cursor, ?_, ahead⟩
    rcases wellFormed.block_braced with block | ⟨nodes, place, block⟩
    · rw [own, block]
      rfl
    · rw [own, block]
      rfl
  · have plain := wellFormed.own_plain
    rw [own] at ahead plain
    obtain ⟨read, left⟩ := next_of_cons ahead
    have named : ∀ parameter ∈ inner, parameter.IsPlainName := plain _ List.mem_cons_self
    refine ⟨cursor.skip 1, ?_, left⟩
    simp only [own, List.cons_append, List.head?_cons]
    rw [bind_of_ok read, Parameters.ofNodes_of_plain position named]
    rfl

theorem body_of_heading {heading : Heading} (wellFormed : heading.WellFormed)
    (ahead : cursor.ahead = heading.block) : ∃ after, body cursor = .ok heading.body after := by
  rcases cursor with ⟨position, nodes⟩
  subst ahead
  rw [Heading.body]
  rcases wellFormed.block_braced with block | ⟨inner, place, block⟩
  · rw [block]
    exact ⟨_, rfl⟩
  · rw [block, List.flatMap_singleton]
    exact ⟨_, rfl⟩

end Taking

end MessageForms
