import MessageForms.Proofs.Definition.Heading
import MessageForms.Proofs.Node.Within

set_option autoImplicit false

/-! Which forms are method definitions, said of their modifiers alone: access modifiers, a name,
parameters unless the name has some, and perhaps a body. A method has no keyword. Its name is found
from the end, by setting off the body and the parameters, and what is behind it is then taken from
the front; both ways lead to the same sections, since a name is neither in braces nor in
parentheses. -/

namespace MessageForms

namespace Taking

/-- Whatever the step complains about, it is not that a method has no name. -/
def KnowsName {α : Type} (taking : Taking α) : Prop :=
  ∀ cursor problem after, taking cursor = .error (.problem problem) after →
    problem.complaint ≠ .methodNameMissing

variable {α β : Type}

theorem knowsName_pure (value : α) : KnowsName (pure value) := by
  intro cursor problem after failed
  cases failed

theorem knowsName_peek : KnowsName peek := by
  intro cursor problem after failed
  cases failed

theorem knowsName_next : KnowsName next := by
  intro cursor problem after failed
  cases failed

theorem knowsName_complain {cause : Complaint} (other : cause ≠ .methodNameMissing)
    (position : Position) : KnowsName (complain position cause : Taking α) := by
  intro cursor problem after failed
  cases failed
  exact other

theorem KnowsName.bind {taking : Taking α} {next : α → Taking β} (known : KnowsName taking)
    (others : ∀ value, KnowsName (next value)) : KnowsName (taking >>= next) := by
  intro cursor problem after failed
  rw [bind_apply] at failed
  cases outcome : taking cursor with
  | ok value middle =>
      rw [outcome] at failed
      exact others value middle problem after failed
  | error fault last =>
      rw [outcome] at failed
      cases failed
      exact known cursor problem after outcome

theorem KnowsName.of_onModifiers {taking : Taking α} {modifiers : List Node} {problem : Problem}
    (known : KnowsName taking) (failed : taking.onModifiers modifiers = .error (.problem problem)) :
    problem.complaint ≠ .methodNameMissing := by
  rw [Taking.onModifiers] at failed
  cases outcome : taking (.ofList modifiers) with
  | ok value after =>
      rw [outcome] at failed
      cases failed
  | error fault after =>
      rw [outcome] at failed
      cases failed
      exact known _ problem after outcome

theorem knowsName_ofNodes (nodes : List Node) (position : Position) :
    KnowsName (ofOutcome (Parameters.ofNodes nodes position)) := by
  have names : ∀ problem, nodes.mapM parameterName = .error (.problem problem) →
      problem.complaint ≠ .methodNameMissing := by
    induction nodes with
    | nil =>
        intro problem failed
        cases failed
    | cons node others ih =>
        intro problem failed
        rw [List.mapM_cons, parameterName] at failed
        cases plain : node.plainName? with
        | none =>
            rw [plain] at failed
            cases failed
            intro same
            cases same
        | some name =>
            rw [plain] at failed
            cases further : others.mapM parameterName with
            | ok found =>
                rw [further] at failed
                cases failed
            | error fault =>
                rw [further] at failed
                cases failed
                exact ih problem further
  rw [Parameters.ofNodes]
  cases made : nodes.mapM parameterName with
  | ok found => exact knowsName_pure _
  | error fault =>
      intro cursor problem after failed
      cases failed
      exact names problem made

theorem knowsName_parameters? : KnowsName parameters? := by
  refine knowsName_peek.bind fun found => ?_
  cases found with
  | none => exact knowsName_pure none
  | some node =>
      cases node with
      | braced inner position => exact knowsName_pure none
      | parenthesized inner position =>
          exact knowsName_next.bind fun _ => (knowsName_ofNodes inner position).bind fun _ =>
            knowsName_pure _
      | _ => exact knowsName_complain (by decide) _

theorem knowsName_body : KnowsName body := by
  refine knowsName_next.bind fun found => ?_
  cases found with
  | none => exact knowsName_pure []
  | some node =>
      cases node with
      | braced inner position =>
          refine knowsName_peek.bind fun extra => ?_
          cases extra with
          | none => exact knowsName_pure inner
          | some node => exact knowsName_complain (by decide) _
      | _ => exact knowsName_complain (by decide) _

end Taking

namespace MethodDefinition

/-- The modifiers of a form, divided as those of a method. -/
structure Sections where
  access : List Node
  heading : Heading

namespace Sections

/-- The sections are those of a method, and make up the modifiers. -/
structure Divides (sections : Sections) (modifiers : List Node) : Prop where
  other : ∀ modifier ∈ modifiers, modifier.name? ≠ some Keyword.classWord
  modifiers_eq : modifiers = sections.access ++ [sections.heading.signature] ++
    sections.heading.own ++ sections.heading.block
  heading_wellFormed : sections.heading.WellFormed

/-- The definition of the form that is made of the sections. -/
structure Describes (sections : Sections) (form : MacroForm) (definition : MethodDefinition) :
    Prop where
  form_eq : definition.form = form
  position_eq : definition.toNode.position = form.position
  access_eq : definition.access = sections.access
  name_eq : sections.heading.name? = some definition.name
  parameters_eq : definition.parameters = sections.heading.parameters
  body_eq : definition.body = sections.heading.body

end Sections

/-! ### From the end -/

/-- The last of the nodes, if it is of the given sort, apart from those in front of it. -/
structure SetsOff (sort : Node → Bool) (nodes front last : List Node) : Prop where
  nodes_eq : nodes = front ++ last
  single : last = [] ∨ ∃ node, last = [node] ∧ sort node = true
  needed : last = [] → ∀ node ∈ front.getLast?, sort node = false

/-- The modifiers in front of a body, and of parameters in front of that. -/
def IsFront (front modifiers : List Node) : Prop :=
  ∃ own block, SetsOff Node.isBraced modifiers (front ++ own) block ∧
    SetsOff isParenthesized (front ++ own) front own

theorem exists_setsOff (sort : Node → Bool) (nodes : List Node) :
    ∃ front last, SetsOff sort nodes front last := by
  cases found : nodes.getLast? with
  | none =>
      refine ⟨nodes, [], (List.append_nil nodes).symm, .inl rfl, fun _ => ?_⟩
      rw [found]
      exact nofun
  | some node =>
      cases sorted : sort node with
      | false =>
          refine ⟨nodes, [], (List.append_nil nodes).symm, .inl rfl, fun _ => ?_⟩
          rw [found]
          rintro last ⟨rfl⟩
          exact sorted
      | true =>
          obtain ⟨front, whole⟩ := List.getLast?_eq_some_iff.mp found
          exact ⟨front, [node], whole, .inr ⟨node, rfl, sorted⟩, nofun⟩

theorem exists_isFront (modifiers : List Node) : ∃ front, IsFront front modifiers := by
  obtain ⟨others, block, isBlock⟩ := exists_setsOff Node.isBraced modifiers
  obtain ⟨front, own, isOwn⟩ := exists_setsOff isParenthesized others
  obtain rfl := isOwn.nodes_eq
  exact ⟨front, own, block, isBlock, isOwn⟩

theorem SetsOff.withoutLast_eq {sort : Node → Bool} {nodes front last : List Node}
    (isLast : SetsOff sort nodes front last) : withoutLast sort nodes = front := by
  obtain ⟨rfl, rfl | ⟨node, rfl, sorted⟩, needed⟩ := isLast
  · rw [List.append_nil, withoutLast]
    cases found : front.getLast? with
    | none => rfl
    | some node => exact if_neg (Bool.eq_false_iff.mp (needed rfl node found))
  · rw [withoutLast, List.getLast?_concat, List.dropLast_concat]
    exact if_pos sorted

theorem IsFront.head_eq {front modifiers : List Node} (isFront : IsFront front modifiers) :
    head modifiers = front := by
  obtain ⟨own, block, isBlock, isOwn⟩ := isFront
  rw [head, isBlock.withoutLast_eq, isOwn.withoutLast_eq]

section Recognition

variable {form : MacroForm} {sections : Sections} {definition : MethodDefinition}

theorem Sections.Divides.isFront {modifiers : List Node} (divides : sections.Divides modifiers) :
    IsFront (sections.access ++ [sections.heading.signature]) modifiers := by
  have wellFormed := divides.heading_wellFormed
  -- Were the name in brackets, it would be set off with what is behind it.
  have signature : isParenthesized sections.heading.signature = false ∧
      sections.heading.signature.isBraced = false := by
    rcases wellFormed.naming with ⟨value, named⟩ | ⟨selector, arguments, position, named⟩
    · rw [named]
      exact ⟨rfl, rfl⟩
    · rw [named]
      exact ⟨rfl, rfl⟩
  refine ⟨sections.heading.own, sections.heading.block, ⟨divides.modifiers_eq, ?_, ?_⟩, rfl, ?_, ?_⟩
  · rcases wellFormed.block_braced with none | ⟨inner, position, block⟩
    · exact .inl none
    · exact .inr ⟨_, block, rfl⟩
  · intro _ node
    rcases wellFormed.own_listed with none | ⟨inner, position, own⟩
    · rw [none, List.append_nil, List.getLast?_concat]
      rintro ⟨rfl⟩
      exact signature.2
    · rw [own, List.getLast?_concat]
      rintro ⟨rfl⟩
      rfl
  · rcases wellFormed.own_listed with none | ⟨inner, position, own⟩
    · exact .inl none
    · exact .inr ⟨_, own, rfl⟩
  · intro _ node
    rw [List.getLast?_concat]
    rintro ⟨rfl⟩
    exact signature.1

theorem own_of_behind {heading : Heading} (wellFormed : heading.WellFormed) :
    heading.own = (heading.own ++ heading.block).filter isParenthesized ∧
      heading.block = (heading.own ++ heading.block).filter Node.isBraced := by
  rcases wellFormed.own_listed with own | ⟨inner, position, own⟩ <;>
    rcases wellFormed.block_braced with block | ⟨nodes, place, block⟩ <;>
      rw [own, block] <;>
      exact ⟨rfl, rfl⟩

theorem Sections.Divides.unique {others : Sections} {modifiers : List Node}
    (divides : sections.Divides modifiers) (again : others.Divides modifiers) :
    sections = others := by
  have front := divides.isFront.head_eq.symm.trans again.isFront.head_eq
  have behind : sections.heading.own ++ sections.heading.block =
      others.heading.own ++ others.heading.block := by
    have whole := divides.modifiers_eq.symm.trans again.modifiers_eq
    rw [front, List.append_assoc, List.append_assoc _ others.heading.own] at whole
    exact List.append_cancel_left whole
  obtain ⟨access, named⟩ := List.append_inj' front rfl
  obtain ⟨own, block⟩ := own_of_behind divides.heading_wellFormed
  obtain ⟨ownAgain, blockAgain⟩ := own_of_behind again.heading_wellFormed
  rw [behind, ← ownAgain] at own
  rw [behind, ← blockAgain] at block
  rcases sections with ⟨_, _, _, _⟩
  rcases others with ⟨_, _, _, _⟩
  cases access
  cases named
  cases own
  cases block
  rfl

/-! ### Making the definition -/

theorem exists_divides (made : ofForm form = .ok definition) :
    ∃ sections : Sections, sections.Divides form.modifiers := by
  obtain ⟨rfl, signature, arguments, own, block, division⟩ := exists_division made
  refine ⟨⟨definition.access, ⟨signature, own, block⟩⟩, ?_⟩
  exact {
    other := MacroForm.isClass_eq_false_iff.mp division.other
    modifiers_eq := by
      rw [division.modifiers_eq]
      simp only [List.append_assoc, List.cons_append, List.nil_append]
    heading_wellFormed := division.parameters.wellFormed division.signature_eq division.body }

theorem parametersFor_of_heading {heading : Heading} {cursor : ItemCursor Node}
    (wellFormed : heading.WellFormed) (ahead : cursor.ahead = heading.own ++ heading.block) :
    ∃ after, parametersFor heading.signature heading.signature.arguments cursor =
        .ok heading.parameters after ∧ after.ahead = heading.block := by
  by_cases bare : heading.signature.arguments = []
  · rw [parametersFor, if_pos (List.isEmpty_iff.mpr bare), Heading.parameters, if_pos bare]
    exact Taking.parameters?_of_heading wellFormed ahead
  · have made := Parameters.ofNodes_of_plain heading.signature.position wellFormed.arguments_plain
    refine ⟨cursor, ?_, ?_⟩
    · rw [parametersFor, if_neg (mt List.isEmpty_iff.mp bare),
        bind_of_ok (Taking.ofOutcome_of_ok made), Heading.parameters, if_neg bare]
      rfl
    · rw [ahead, wellFormed.own_absent bare, List.nil_append]

theorem ofForm_of_divides (divides : sections.Divides form.modifiers) :
    ∃ definition, ofForm form = .ok definition ∧ sections.Describes form definition := by
  have wellFormed := divides.heading_wellFormed
  obtain ⟨name, signed⟩ := wellFormed.naming.exists_signature?
  have behind : form.modifiers.drop (sections.access ++ [sections.heading.signature]).length =
      sections.heading.own ++ sections.heading.block := by
    rw [divides.modifiers_eq, List.append_assoc _ sections.heading.own, List.drop_left]
  have start : (ItemCursor.ofList (sections.heading.own ++ sections.heading.block)).ahead =
      sections.heading.own ++ sections.heading.block := rfl
  obtain ⟨middle, parameters, left⟩ := parametersFor_of_heading wellFormed start
  obtain ⟨last, body⟩ := Taking.body_of_heading wellFormed left
  refine ⟨{
    form
    name
    parameters := sections.heading.parameters
    access := sections.access
    body := sections.heading.body }, ?_, ?_⟩
  · rw [ofForm, MacroForm.isClass_eq_false_iff.mpr divides.other, if_neg Bool.false_ne_true]
    simp only [divides.isFront.head_eq, List.getLast?_concat, List.dropLast_concat, signed, behind]
    rw [Taking.onModifiers, takeBehind, bind_of_ok parameters, bind_of_ok body]
    rfl
  · exact {
      form_eq := rfl
      position_eq := rfl
      access_eq := rfl
      name_eq := by
        rw [Heading.name?, signed]
        rfl
      parameters_eq := rfl
      body_eq := rfl }

/-! ### Complaints -/

theorem isOfBuilding_of_ofForm {fault : Fault} (failed : ofForm form = .error fault) :
    fault.IsOfBuilding := by
  cases isClass : form.isClass with
  | true =>
      rw [ofForm, isClass, if_pos rfl] at failed
      cases failed
      exact ⟨_, rfl, .inl rfl⟩
  | false =>
      have bounded := bounded_ofForm isClass
      rw [failed] at bounded
      exact Fault.IsInForm.isOfBuilding bounded

theorem knowsName_takeBehind (access : List Node) (signature : Node) (name : Atom)
    (arguments : List Node) :
    (takeBehind form access signature name arguments).KnowsName := by
  have parameters : (parametersFor signature arguments).KnowsName := by
    rw [parametersFor]
    split
    · exact Taking.knowsName_parameters?
    · exact (Taking.knowsName_ofNodes arguments signature.position).bind fun _ =>
        Taking.knowsName_pure _
  exact parameters.bind fun _ => Taking.knowsName_body.bind fun _ => Taking.knowsName_pure _

/-- The name is missed where it should stand, which is right in front of what is set off. -/
theorem nameMissing_iff {front : List Node} {problem : Problem}
    (isFront : IsFront front form.modifiers) (missing : problem.complaint = .methodNameMissing) :
    ofForm form = .error (.problem problem) ↔
      (∀ modifier ∈ form.modifiers, modifier.name? ≠ some Keyword.classWord) ∧
        (∀ last ∈ front.getLast?, ¬ last.IsNaming) ∧
        problem = .located ((front.getLast?.map Node.position).getD form.position)
          .methodNameMissing := by
  rw [← MacroForm.isClass_eq_false_iff, ofForm]
  cases isClass : form.isClass with
  | true =>
      refine ⟨fun failed => ?_, fun other => by cases other.1⟩
      cases failed
      cases missing
  | false =>
      rw [if_neg Bool.false_ne_true, isFront.head_eq]
      dsimp only
      cases front.getLast? with
      | none =>
          refine ⟨fun failed => ?_, ?_⟩
          · cases failed
            refine ⟨rfl, ?_, rfl⟩
            rintro last ⟨⟩
          · rintro ⟨-, -, rfl⟩
            rfl
      | some last =>
          dsimp only
          cases signed : last.signature? with
          | none =>
              refine ⟨fun failed => ?_, ?_⟩
              · cases failed
                refine ⟨rfl, ?_, rfl⟩
                rintro node ⟨rfl⟩ naming
                obtain ⟨name, some⟩ := naming.exists_signature?
                cases signed.symm.trans some
              · rintro ⟨-, -, rfl⟩
                rfl
          | some found =>
              refine ⟨fun failed => ?_, fun unnamed => ?_⟩
              · have known : (takeBehind form front.dropLast last found.1 found.2).KnowsName :=
                  knowsName_takeBehind _ _ _ _
                exact (known.of_onModifiers failed missing).elim
              · exact (unnamed.2.1 last rfl (Node.isNaming_of_signature? signed)).elim

/-- The method definitions are the forms whose modifiers divide into sections, which they do in one
way at most, and the definition is made of these sections. Every other form is complained about; if
for want of a name, then where the name should stand, or in the place of the form if nothing is
there. -/
theorem recognizes_methods (form : MacroForm) :
    ((∃ definition, ofForm form = .ok definition) ↔
      ∃ sections : Sections, sections.Divides form.modifiers) ∧
    (∀ sections others : Sections, sections.Divides form.modifiers →
      others.Divides form.modifiers → sections = others) ∧
    (∀ sections : Sections, ∀ definition, sections.Divides form.modifiers →
      ofForm form = .ok definition → sections.Describes form definition) ∧
    (∀ fault, ofForm form = .error fault → fault.IsOfBuilding) ∧
    ∃ front, IsFront front form.modifiers ∧
      ∀ problem : Problem, problem.complaint = .methodNameMissing →
        (ofForm form = .error (.problem problem) ↔
          (∀ modifier ∈ form.modifiers, modifier.name? ≠ some Keyword.classWord) ∧
          (∀ last ∈ front.getLast?, ¬ last.IsNaming) ∧
          problem = .located ((front.getLast?.map Node.position).getD form.position)
            .methodNameMissing) := by
  obtain ⟨front, isFront⟩ := exists_isFront form.modifiers
  obtain ⟨recognizes, describes⟩ := recognizes_of_parts
    (fun _ made => exists_divides made) (fun _ divides => ofForm_of_divides divides)
  refine ⟨recognizes, ?_, describes, ?_, front, isFront, fun problem => nameMissing_iff isFront⟩
  · intro sections others divides again
    exact divides.unique again
  · intro fault failed
    exact isOfBuilding_of_ofForm failed

theorem recognizes_methods_move :
    let move : Node := .implicitSend ⟨.symbol "move".toList, ⟨0, 7⟩⟩ [.word ['x'] ⟨0, 12⟩] ⟨0, 7⟩
    let sections : Sections := {
      access := [.word "public".toList ⟨0, 0⟩]
      heading := { signature := move, own := [], block := [.braced [] ⟨0, 15⟩] } }
    let form : MacroForm := {
      modifiers := [.word "public".toList ⟨0, 0⟩, move, .braced [] ⟨0, 15⟩]
      position := ⟨0, 0⟩ }
    let nameless : MacroForm := {
      modifiers := [.word "public".toList ⟨0, 0⟩, .parenthesized [] ⟨0, 7⟩,
        .parenthesized [] ⟨0, 10⟩]
      position := ⟨0, 0⟩ }
    sections.Divides form.modifiers ∧
      (∃ definition, ofForm form = .ok definition ∧ sections.Describes form definition) ∧
      ofForm nameless = .error (.problem (.located ⟨0, 7⟩ .methodNameMissing)) := by
  intro move sections form nameless
  have divides : sections.Divides form.modifiers := {
    other := by decide
    modifiers_eq := rfl
    heading_wellFormed := {
      naming := .inr ⟨_, _, _, rfl⟩
      own_listed := .inl rfl
      own_absent := fun _ => rfl
      block_braced := .inr ⟨_, _, rfl⟩
      arguments_plain := List.forall_mem_singleton.mpr (.inr ⟨_, _, rfl⟩)
      own_plain := nofun } }
  obtain ⟨recognizes, -, describes, -⟩ := recognizes_methods form
  obtain ⟨definition, made⟩ := recognizes.mpr ⟨sections, divides⟩
  obtain ⟨-, -, -, -, front, isFront, missing⟩ := recognizes_methods nameless
  obtain rfl : front = nameless.modifiers.take 2 := isFront.head_eq.symm
  refine ⟨divides, ⟨definition, made, describes sections definition divides made⟩, ?_⟩
  refine (missing (.located ⟨0, 7⟩ .methodNameMissing) rfl).mpr ⟨by decide, ?_, rfl⟩
  rintro last ⟨rfl⟩ (⟨value, named⟩ | ⟨selector, arguments, position, named⟩)
  · cases named
  · cases named

end Recognition

end MethodDefinition

end MessageForms
