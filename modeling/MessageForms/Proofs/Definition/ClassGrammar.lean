import MessageForms.Proofs.Definition.Heading
import MessageForms.Proofs.Node.Within

set_option autoImplicit false

/-! Which forms are class definitions, said of their modifiers alone: access modifiers, the keyword,
a name, perhaps an extended expression, parameters unless the name has some, and perhaps a body. The
definition is made of exactly these sections. -/

namespace MessageForms.ClassDefinition

/-- The modifiers of a form, divided as those of a class. -/
structure Sections where
  access : List Node
  keyword : Node
  extension : List Node
  heading : Heading

namespace Sections

/-- The sections are those of a class, and make up the modifiers. -/
structure Divides (sections : Sections) (modifiers : List Node) : Prop where
  modifiers_eq : modifiers = sections.access ++ [sections.keyword, sections.heading.signature] ++
    sections.extension ++ sections.heading.own ++ sections.heading.block
  access_other : ∀ modifier ∈ sections.access, modifier.name? ≠ some Keyword.classWord
  keyword_named : sections.keyword.name? = some Keyword.classWord
  extension_given : IsExtension sections.extension
  /-- The keyword behind the name is not passed over. -/
  extension_needed :
    ∀ next ∈ (sections.extension ++ sections.heading.own ++ sections.heading.block).head?,
      next.name? = some Keyword.extendsWord → sections.extension ≠ []
  heading_wellFormed : sections.heading.WellFormed

/-- The definition of the form that is made of the sections. -/
structure Describes (sections : Sections) (form : MacroForm) (definition : ClassDefinition) :
    Prop where
  form_eq : definition.form = form
  position_eq : definition.toNode.position = form.position
  access_eq : definition.access = sections.access
  name_eq : sections.heading.name? = some definition.name
  parent_eq : definition.parent = sections.extension[1]?
  parameters_eq : definition.parameters = sections.heading.parameters
  body_eq : definition.body = sections.heading.body

end Sections

section Recognition

variable {form : MacroForm} {sections : Sections} {definition : ClassDefinition}

theorem ofForm_of_other (other : form.isClass = false) :
    ofForm form = .error (.problem (.located form.position .notAClass)) := by
  have none : form.modifiers.dropWhile (·.name? ≠ some Keyword.classWord) = [] := by
    obtain ⟨whole, -, stops⟩ := division_at_name Keyword.classWord form.modifiers
    cases left : form.modifiers.dropWhile (·.name? ≠ some Keyword.classWord) with
    | nil => rfl
    | cons keyword others =>
        rw [left] at whole stops
        have among : keyword ∈ form.modifiers := by
          rw [whole]
          exact List.mem_append_right _ List.mem_cons_self
        exact (MacroForm.isClass_eq_false_iff.mp other keyword among (stops keyword rfl)).elim
  obtain ⟨access, after, taken⟩ : ∃ access after,
      Taking.untilNamed Keyword.classWord (.ofList form.modifiers) = .ok access after :=
    ⟨_, _, rfl⟩
  have ahead : after.ahead = [] := (Taking.ahead_of_untilNamed taken).trans none
  have absent : Taking.next after = .ok Option.none (after.skip 1) := by
    rcases after with ⟨position, nodes⟩
    cases ahead
    rfl
  rw [ofForm, Taking.onModifiers, take, bind_of_ok taken, bind_of_ok absent]
  rfl

theorem isOfBuilding_of_ofForm {fault : Fault} (failed : ofForm form = .error fault) :
    fault.IsOfBuilding := by
  cases isClass : form.isClass with
  | false =>
      rw [ofForm_of_other isClass] at failed
      cases failed
      exact ⟨_, rfl, .inl rfl⟩
  | true =>
      have bounded := bounded_ofForm isClass
      rw [failed] at bounded
      exact Fault.IsInForm.isOfBuilding bounded

theorem exists_divides (made : ofForm form = .ok definition) :
    ∃ sections : Sections, sections.Divides form.modifiers := by
  obtain ⟨rfl, keyword, signature, arguments, extension, own, block, division⟩ :=
    exists_division made
  have wellFormed := division.parameters.wellFormed division.signature_eq division.body
  refine ⟨⟨definition.access, keyword, extension, ⟨signature, own, block⟩⟩, ?_⟩
  exact {
    modifiers_eq := by
      rw [division.modifiers_eq]
      simp only [List.append_assoc, List.cons_append, List.nil_append]
    access_other := division.access_other
    keyword_named := division.keyword_name
    extension_given := division.parent.isExtension
    extension_needed := by
      rintro next first named rfl
      have unnamed := wellFormed.unnamed_behind next first
      rw [named] at unnamed
      cases unnamed
    heading_wellFormed := wellFormed }

theorem parentAndParameters_of_parts {extension : List Node} {heading : Heading}
    {cursor : ItemCursor Node} (wellFormed : heading.WellFormed) (given : IsExtension extension)
    (needed : ∀ first ∈ (extension ++ (heading.own ++ heading.block)).head?,
      first.name? = some Keyword.extendsWord → extension ≠ [])
    (ahead : cursor.ahead = extension ++ (heading.own ++ heading.block)) :
    ∃ after, parentAndParameters heading.signature heading.signature.arguments cursor =
        .ok (extension[1]?, heading.parameters) after ∧ after.ahead = heading.block := by
  obtain ⟨middle, extended, behind⟩ := Taking.parent?_of_extension given needed ahead
  by_cases bare : heading.signature.arguments = []
  · obtain ⟨after, taken, left⟩ := Taking.parameters?_of_heading wellFormed behind
    refine ⟨after, ?_, left⟩
    rw [parentAndParameters, if_pos (List.isEmpty_iff.mpr bare), bind_of_ok extended,
      bind_of_ok taken, Heading.parameters, if_pos bare]
    rfl
  · have made := Parameters.ofNodes_of_plain heading.signature.position wellFormed.arguments_plain
    refine ⟨middle, ?_, ?_⟩
    · rw [parentAndParameters, if_neg (mt List.isEmpty_iff.mp bare),
        bind_of_ok (Taking.ofOutcome_of_ok made), bind_of_ok extended, Heading.parameters,
        if_neg bare]
      rfl
    · rw [behind, wellFormed.own_absent bare, List.nil_append]

theorem ofForm_of_divides (divides : sections.Divides form.modifiers) :
    ∃ definition, ofForm form = .ok definition ∧ sections.Describes form definition := by
  have wellFormed := divides.heading_wellFormed
  obtain ⟨name, signed⟩ := wellFormed.naming.exists_signature?
  have start : (ItemCursor.ofList form.modifiers).ahead =
      sections.access ++ sections.keyword :: sections.heading.signature ::
        (sections.extension ++ (sections.heading.own ++ sections.heading.block)) := by
    refine divides.modifiers_eq.trans ?_
    simp only [List.append_assoc, List.cons_append, List.nil_append]
  have needed := divides.extension_needed
  rw [List.append_assoc] at needed
  obtain ⟨first, access, behindAccess⟩ :=
    Taking.untilNamed_of_split start divides.access_other divides.keyword_named
  obtain ⟨keyword, behindKeyword⟩ := Taking.next_of_cons behindAccess
  obtain ⟨signature, behindName⟩ := Taking.next_of_cons behindKeyword
  obtain ⟨last, parts, behindOwn⟩ := parentAndParameters_of_parts wellFormed
    divides.extension_given needed behindName
  obtain ⟨final, body⟩ := Taking.body_of_heading wellFormed behindOwn
  refine ⟨{
    form
    name
    parent := sections.extension[1]?
    parameters := sections.heading.parameters
    access := sections.access
    body := sections.heading.body }, ?_, ?_⟩
  · rw [ofForm, Taking.onModifiers, take, bind_of_ok access, bind_of_ok keyword]
    dsimp only
    rw [bind_of_ok signature]
    dsimp only
    rw [signed]
    dsimp only
    rw [bind_of_ok parts, bind_of_ok body]
    rfl
  · exact {
      form_eq := rfl
      position_eq := rfl
      access_eq := rfl
      name_eq := by
        rw [Heading.name?, signed]
        rfl
      parent_eq := rfl
      parameters_eq := rfl
      body_eq := rfl }

/-- The class definitions are the forms whose modifiers divide into sections, and however they
divide, the definition is made of these sections. Every other form is complained about. -/
theorem recognizes_classes (form : MacroForm) :
    ((∃ definition, ofForm form = .ok definition) ↔
      ∃ sections : Sections, sections.Divides form.modifiers) ∧
    (∀ sections : Sections, ∀ definition, sections.Divides form.modifiers →
      ofForm form = .ok definition → sections.Describes form definition) ∧
    ∀ fault, ofForm form = .error fault → fault.IsOfBuilding := by
  obtain ⟨recognizes, describes⟩ := recognizes_of_parts
    (fun _ made => exists_divides made) (fun _ divides => ofForm_of_divides divides)
  exact ⟨recognizes, describes, fun fault failed => isOfBuilding_of_ofForm failed⟩

theorem recognizes_classes_point :
    let point : Node :=
      .implicitSend ⟨.symbol "Point".toList, ⟨0, 14⟩⟩ [.word ['x'] ⟨0, 20⟩] ⟨0, 14⟩
    let sections : Sections := {
      access := [.word "private".toList ⟨0, 0⟩]
      keyword := .word "class".toList ⟨0, 8⟩
      extension := [.word "extends".toList ⟨0, 23⟩, .word "Base".toList ⟨0, 31⟩]
      heading := { signature := point, own := [], block := [.braced [] ⟨0, 36⟩] } }
    let form : MacroForm := {
      modifiers := [.word "private".toList ⟨0, 0⟩, .word "class".toList ⟨0, 8⟩, point,
        .word "extends".toList ⟨0, 23⟩, .word "Base".toList ⟨0, 31⟩, .braced [] ⟨0, 36⟩]
      position := ⟨0, 0⟩ }
    sections.Divides form.modifiers ∧
      ∃ definition, ofForm form = .ok definition ∧ sections.Describes form definition := by
  intro point sections form
  have divides : sections.Divides form.modifiers := {
    modifiers_eq := rfl
    access_other := List.forall_mem_singleton.mpr (by decide)
    keyword_named := by decide
    extension_given := .inr ⟨_, _, rfl, by decide, rfl⟩
    extension_needed := fun _ _ _ => List.cons_ne_nil _ _
    heading_wellFormed := {
      naming := .inr ⟨_, _, _, rfl⟩
      own_listed := .inl rfl
      own_absent := fun _ => rfl
      block_braced := .inr ⟨_, _, rfl⟩
      arguments_plain := List.forall_mem_singleton.mpr (.inr ⟨_, _, rfl⟩)
      own_plain := nofun } }
  obtain ⟨recognizes, describes, -⟩ := recognizes_classes form
  obtain ⟨definition, made⟩ := recognizes.mpr ⟨sections, divides⟩
  exact ⟨divides, definition, made, describes sections definition divides made⟩

end Recognition

end MessageForms.ClassDefinition
