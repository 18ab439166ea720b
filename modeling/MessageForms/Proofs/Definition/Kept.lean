import MessageForms.Proofs.Definition.Division
import MessageForms.Proofs.Grammar.Program
import MessageForms.Proofs.Node.Within

set_option autoImplicit false

/-! What a definition keeps of its form. Every modifier has a part in the definition or is a bare
keyword, with two exceptions: `class`, `extends` and `=` may have arguments that go nowhere, and of
the access modifiers of a variable only the first is kept. Nothing is reported in these cases,
although arguments of a write keyword, a second name and a second expression are. -/

namespace MessageForms

/-! ### Keeping -/

namespace Node

structure IsBareKeyword (modifier : Node) : Prop where
  named : ∃ keyword ∈ [Keyword.classWord, Keyword.extendsWord, Keyword.constantWord,
    Keyword.assignableWord, Keyword.assignment], modifier.name? = some keyword
  bare : modifier.arguments = []

def KeptAsSignature (modifier : Node) (name : Atom) (parameters : Option Parameters) : Prop :=
  ∃ arguments, modifier.signature? = some (name, arguments) ∧
    (arguments = [] ∨
      ∃ listed, parameters = some listed ∧ listed.Name arguments modifier.position)

def KeptAsParameters (modifier : Node) (parameters : Option Parameters) : Prop :=
  ∃ inner position listed, modifier = .parenthesized inner position ∧
    parameters = some listed ∧ listed.Name inner position

def KeptAsBody (modifier : Node) (body : List Node) : Prop :=
  ∃ position, modifier = .braced body position

/-- The definition keeps the modifier, and not only in its form. -/
def Keeps : Node → Node → Prop
  | .classDefinition _ name parent parameters access body _, modifier =>
      modifier ∈ access ∨ modifier.KeptAsSignature name parameters ∨ parent = some modifier ∨
        modifier.KeptAsParameters parameters ∨ modifier.KeptAsBody body
  | .methodDefinition _ name parameters access body _, modifier =>
      modifier ∈ access ∨ modifier.KeptAsSignature name parameters ∨
        modifier.KeptAsParameters parameters ∨ modifier.KeptAsBody body
  | .lexicalVariable _ name _ access bound _, modifier =>
      access = some modifier ∨ modifier.plainName? = some name ∨ bound = modifier
  | _, _ => False

/-- The definition loses the modifier, or the arguments of it. -/
def Loses : Node → Node → Prop
  | .classDefinition _ _ _ _ _ _ _, modifier =>
      modifier.arguments ≠ [] ∧
        (modifier.name? = some Keyword.classWord ∨ modifier.name? = some Keyword.extendsWord)
  | .lexicalVariable origin _ _ _ _ _, modifier =>
      modifier.arguments ≠ [] ∧ modifier.name? = some Keyword.assignment ∨
        modifier ∈ (origin.takeWhile (·.writeKeyword?.isNone)).tail
  | _, _ => False

end Node

/-! ### Parts -/

section Parts

variable {modifier : Node} {parameters : Option Parameters}

theorem SignatureParameters.keptAsSignature {name : Atom} {arguments own : List Node}
    (part : SignatureParameters modifier arguments own parameters)
    (named : modifier.signature? = some (name, arguments)) :
    modifier.KeptAsSignature name parameters := by
  refine ⟨arguments, named, ?_⟩
  cases part with
  | own part => exact .inl rfl
  | carried listed => exact .inr ⟨_, rfl, listed⟩

theorem SignatureParameters.keptAsParameters {signature : Node} {arguments own : List Node}
    (part : SignatureParameters signature arguments own parameters) (among : modifier ∈ own) :
    modifier.KeptAsParameters parameters := by
  cases part with
  | carried listed => cases among
  | own part =>
      cases part with
      | absent => cases among
      | listed name =>
          obtain rfl := List.mem_singleton.mp among
          exact ⟨_, _, _, rfl, rfl, name⟩

theorem BodyPart.keptAsBody {block body : List Node} (part : BodyPart block body)
    (among : modifier ∈ block) : modifier.KeptAsBody body := by
  cases part with
  | absent => cases among
  | given =>
      obtain rfl := List.mem_singleton.mp among
      exact ⟨_, rfl⟩

theorem Node.isBareKeyword_or_arguments {keyword : Text} (named : modifier.name? = some keyword)
    (among : keyword ∈ [Keyword.classWord, Keyword.extendsWord, Keyword.constantWord,
      Keyword.assignableWord, Keyword.assignment]) :
    modifier.IsBareKeyword ∨ modifier.arguments ≠ [] := by
  by_cases bare : modifier.arguments = []
  · exact .inl ⟨⟨keyword, among, named⟩, bare⟩
  · exact .inr bare

end Parts

/-! ### Definitions -/

section Definitions

variable {form : MacroForm} {modifier : Node}

theorem ClassDefinition.keeps_of_made {definition : ClassDefinition}
    (made : ofForm form = .ok definition) (among : modifier ∈ form.modifiers) :
    definition.toNode.Keeps modifier ∨ modifier.IsBareKeyword ∨
      definition.toNode.Loses modifier := by
  obtain ⟨rfl, keyword, signature, arguments, extension, own, block, division⟩ :=
    exists_division made
  simp only [division.modifiers_eq, List.mem_append, List.mem_cons] at among
  rcases among with inAccess | rfl | rfl | inExtension | inOwn | inBlock
  · exact .inl (.inl inAccess)
  · rcases Node.isBareKeyword_or_arguments division.keyword_name (by decide) with bare | given
    · exact .inr (.inl bare)
    · exact .inr (.inr ⟨given, .inl division.keyword_name⟩)
  · exact .inl (.inr (.inl (division.parameters.keptAsSignature division.signature_eq)))
  · generalize extended : definition.parent = parent
    have part := division.parent
    rw [extended] at part
    cases part with
    | absent => cases inExtension
    | @given keyword expression named noBody =>
        simp only [List.mem_cons, List.not_mem_nil, or_false] at inExtension
        rcases inExtension with rfl | rfl
        · rcases Node.isBareKeyword_or_arguments named (by decide) with bare | given
          · exact .inr (.inl bare)
          · exact .inr (.inr ⟨given, .inr named⟩)
        · exact .inl (.inr (.inr (.inl extended)))
  · exact .inl (.inr (.inr (.inr (.inl (division.parameters.keptAsParameters inOwn)))))
  · exact .inl (.inr (.inr (.inr (.inr (division.body.keptAsBody inBlock)))))

theorem MethodDefinition.keeps_of_made {definition : MethodDefinition}
    (made : ofForm form = .ok definition) (among : modifier ∈ form.modifiers) :
    definition.toNode.Keeps modifier := by
  obtain ⟨rfl, signature, arguments, own, block, division⟩ := exists_division made
  simp only [division.modifiers_eq, List.mem_append, List.mem_cons] at among
  rcases among with inAccess | rfl | inOwn | inBlock
  · exact .inl inAccess
  · exact .inr (.inl (division.parameters.keptAsSignature division.signature_eq))
  · exact .inr (.inr (.inl (division.parameters.keptAsParameters inOwn)))
  · exact .inr (.inr (.inr (division.body.keptAsBody inBlock)))

namespace LexicalVariable.Division

variable {definition : LexicalVariable} {access : List Node} {keyword name assignment : Node}

theorem front (division : definition.Division access keyword name assignment) :
    definition.form.modifiers.takeWhile (·.writeKeyword?.isNone) = access := by
  have stops : keyword.writeKeyword?.isNone = false := by
    rw [division.keyword_eq]
    rfl
  rw [division.modifiers_eq, List.takeWhile_append_of_pos, List.takeWhile_cons_of_neg,
    List.append_nil]
  · rw [stops]
    exact Bool.false_ne_true
  · intro modifier among
    rw [division.access_other modifier among]
    rfl

theorem name?_keyword (division : definition.Division access keyword name assignment) :
    keyword.name? = some definition.write.name := by
  obtain ⟨text, named, known⟩ := Option.bind_eq_some_iff.mp division.keyword_eq
  rw [named, WriteKeyword.ofName?_eq_some_iff.mp known]

end LexicalVariable.Division

theorem LexicalVariable.keeps_of_made {definition : LexicalVariable}
    (made : ofForm form = .ok definition) (among : modifier ∈ form.modifiers) :
    definition.toNode.Keeps modifier ∨ modifier.IsBareKeyword ∨
      definition.toNode.Loses modifier := by
  obtain ⟨rfl, access, keyword, name, assignment, division⟩ := exists_division made
  simp only [division.modifiers_eq, List.mem_append, List.mem_cons, List.not_mem_nil,
    or_false] at among
  rcases among with inAccess | rfl | rfl | rfl | rfl
  · cases access with
    | nil => cases inAccess
    | cons first others =>
        rcases List.mem_cons.mp inAccess with rfl | later
        · exact .inl (.inl division.access_eq)
        · refine .inr (.inr (.inr ?_))
          rw [division.front]
          exact later
  · exact .inr (.inl ⟨⟨definition.write.name, by cases definition.write <;> decide,
      division.name?_keyword⟩, division.keyword_bare⟩)
  · exact .inl (.inr (.inl division.name_eq))
  · rcases Node.isBareKeyword_or_arguments division.assignment_name (by decide) with bare | given
    · exact .inr (.inl bare)
    · exact .inr (.inr (.inl ⟨given, division.assignment_name⟩))
  · exact .inl (.inr (.inr rfl))

end Definitions

/-- Whatever a builder makes of a form, each modifier is kept, or is a bare keyword, or is lost in
one of two ways: with the arguments of `class`, `extends` or `=`, or behind the first access modifier
of a variable. -/
theorem MacroForm.Makes.keeps_or_loses {form : MacroForm} {definition modifier : Node}
    (makes : form.Makes definition) (among : modifier ∈ form.modifiers) :
    definition.Keeps modifier ∨ modifier.IsBareKeyword ∨ definition.Loses modifier := by
  cases makes with
  | classDefinition made => exact ClassDefinition.keeps_of_made made among
  | methodDefinition made => exact .inl (MethodDefinition.keeps_of_made made among)
  | lexicalVariable made => exact LexicalVariable.keeps_of_made made among

/-- The form `public let x = y`: an access modifier, two bare keywords, a name and an expression. -/
theorem MacroForm.Makes.keeps_or_loses_let :
    let modifiers : List Node := [.word "public".toList ⟨0, 0⟩, .word ['l', 'e', 't'] ⟨0, 7⟩,
      .word ['x'] ⟨0, 11⟩, .word ['='] ⟨0, 13⟩, .word ['y'] ⟨0, 15⟩]
    ∃ definition, MacroForm.Makes { modifiers, position := ⟨0, 0⟩ } definition ∧
      ∀ modifier ∈ modifiers,
        definition.Keeps modifier ∨ modifier.IsBareKeyword ∨ definition.Loses modifier := by
  intro modifiers
  have made : LexicalVariable.ofForm { modifiers, position := ⟨0, 0⟩ } = .ok {
      form := { modifiers, position := ⟨0, 0⟩ }, name := ⟨.symbol ['x'], ⟨0, 11⟩⟩
      write := .assignable, access := some (.word "public".toList ⟨0, 0⟩)
      bound := .word ['y'] ⟨0, 15⟩ } := rfl
  have makes := MacroForm.Makes.lexicalVariable made
  exact ⟨_, makes, fun modifier among => makes.keeps_or_loses among⟩

open Grammar (Expression Modifier)

/-- The `(a)` of `let x =(a)b` is read as an argument of `=`, and lost. -/
theorem arguments_of_assignment_lost :
    ∃ (form : MacroForm) (definition modifier : Node),
      readText .standard "let x =(a)b".toList = .ok form.toNode ∧ form.Makes definition ∧
      modifier ∈ form.modifiers ∧ ¬ definition.Keeps modifier ∧ ¬ modifier.IsBareKeyword := by
  let keyword : Token := ⟨.symbol, ['l', 'e', 't'], ⟨0, 0⟩⟩
  let name : Token := ⟨.symbol, ['x'], ⟨0, 4⟩⟩
  let equals : Token := ⟨.symbol, ['='], ⟨0, 6⟩⟩
  let argument : Expression := .single (.implicitSend ⟨.symbol, ['a'], ⟨0, 8⟩⟩ .absent)
  let assignment : Modifier := .implicitSend equals
    (.listed ⟨.openParen, ['('], ⟨0, 7⟩⟩ (.first argument .ended) ⟨.closeParen, [')'], ⟨0, 9⟩⟩)
  let bound : Modifier := .implicitSend ⟨.symbol, ['b'], ⟨0, 10⟩⟩ .absent
  let tree : Expression := .form (.implicitSend keyword .absent)
    (.more (.implicitSend name .absent) (.more assignment (.last bound)))
  let form : MacroForm := {
    modifiers := [.word keyword.raw ⟨0, 0⟩, .word name.raw ⟨0, 4⟩,
      assignment.node .standard, bound.node .standard]
    position := ⟨0, 0⟩ }
  have lexed : (TokenStream.tokenize "let x =(a)b".toList).1 = (tree.tokens, none) := by decide
  have wellFormed : tree.WellFormed .standard [] := by
    refine ⟨trivial, ⟨rfl, nofun, nofun⟩, ?_, trivial, ⟨rfl, nofun, nofun⟩, trivial, ?_, ?_⟩
    · intro token first
      cases first
      rfl
    · exact ⟨rfl, ⟨rfl, rfl, ⟨rfl, nofun, nofun⟩, trivial⟩, nofun⟩
    · exact ⟨rfl, nofun, nofun⟩
  have made : LexicalVariable.ofForm form = .ok {
      form, name := ⟨.symbol ['x'], ⟨0, 4⟩⟩, write := .assignable, access := none
      bound := bound.node .standard } := rfl
  refine ⟨form, _, assignment.node .standard, wellFormed.readText_eq lexed, .lexicalVariable made,
    ?_, ?_, ?_⟩
  · simp [form]
  · rintro (access | named | isBound)
    · cases access
    · cases named
    · cases isBound
  · intro keyword
    cases keyword.bare

end MessageForms
