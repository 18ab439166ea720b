import MessageForms.Proofs.Definition.Bounded

set_option autoImplicit false

/-! How the modifiers of a form are divided among the parts of a definition. A definition that is
made accounts for every modifier, in order: access modifiers, keyword, name, extended expression,
parameters and body of a class; access modifiers, name, parameters and body of a method; access
modifiers, keyword, name, assignment and expression of a variable. -/

namespace MessageForms

/-! ### Parts -/

/-- The nodes are plain names, and the parameters list these names in order. -/
structure Parameters.Name (parameters : Parameters) (nodes : List Node) (position : Position) :
    Prop where
  names_eq : nodes.map Node.plainName? = parameters.names.map some
  position_eq : parameters.position = position

/-- A keyword and the expression that is extended, or nothing. -/
inductive ExtendsPart : List Node → Option Node → Prop where
  | absent : ExtendsPart [] none
  | given {keyword expression : Node} (named : keyword.name? = some Keyword.extendsWord)
      (noBody : expression.isBraced = false) : ExtendsPart [keyword, expression] (some expression)

/-- Parameters in parentheses of their own, or nothing. -/
inductive ParametersPart : List Node → Option Parameters → Prop where
  | absent : ParametersPart [] none
  | listed {inner : List Node} {position : Position} {parameters : Parameters}
      (name : parameters.Name inner position) :
      ParametersPart [.parenthesized inner position] (some parameters)

/-- Parameters that the signature has as its arguments. Only if it has none, parameters of their own
may follow. -/
inductive SignatureParameters (signature : Node) :
    List Node → List Node → Option Parameters → Prop where
  | own {own : List Node} {parameters : Option Parameters} (part : ParametersPart own parameters) :
      SignatureParameters signature [] own parameters
  | carried {argument : Node} {arguments : List Node} {parameters : Parameters}
      (name : parameters.Name (argument :: arguments) signature.position) :
      SignatureParameters signature (argument :: arguments) [] (some parameters)

/-- A body in braces, or nothing. -/
inductive BodyPart : List Node → List Node → Prop where
  | absent : BodyPart [] []
  | given {inner : List Node} {position : Position} : BodyPart [.braced inner position] inner

theorem names_of_mapM {nodes : List Node} {names : List Atom}
    (done : nodes.mapM parameterName = .ok names) :
    nodes.map Node.plainName? = names.map some := by
  induction nodes generalizing names with
  | nil =>
      cases done
      rfl
  | cons node others ih =>
      rw [List.mapM_cons, parameterName] at done
      cases plain : node.plainName? with
      | none =>
          rw [plain] at done
          cases done
      | some name =>
          rw [plain] at done
          cases rest : others.mapM parameterName with
          | error fault =>
              rw [rest] at done
              cases done
          | ok further =>
              rw [rest] at done
              cases done
              rw [List.map_cons, List.map_cons, plain, ih rest]

theorem Parameters.name_of_ofNodes {nodes : List Node} {position : Position}
    {parameters : Parameters} (made : Parameters.ofNodes nodes position = .ok parameters) :
    parameters.Name nodes position := by
  rw [Parameters.ofNodes] at made
  cases done : nodes.mapM parameterName with
  | error fault =>
      rw [done] at made
      cases made
  | ok names =>
      rw [done] at made
      cases made
      exact ⟨names_of_mapM done, rfl⟩

theorem division_at_name (name : Text) (nodes : List Node) :
    nodes = nodes.takeWhile (·.name? ≠ some name) ++ nodes.dropWhile (·.name? ≠ some name) ∧
      (∀ node ∈ nodes.takeWhile (·.name? ≠ some name), node.name? ≠ some name) ∧
      ∀ first ∈ (nodes.dropWhile (·.name? ≠ some name)).head?, first.name? = some name := by
  refine ⟨List.takeWhile_append_dropWhile.symm, ?_, ?_⟩
  · intro node among
    exact of_decide_eq_true (List.all_eq_true.mp List.all_takeWhile node among)
  · intro first isFirst
    have stops := List.head?_dropWhile_not (·.name? ≠ some name) nodes
    rw [Option.mem_def.mp isFirst] at stops
    simpa using stops

/-! ### Steps -/

namespace Taking

variable {cursor after : ItemCursor Node}

theorem exists_of_onModifiers {α : Type} {taking : Taking α} {modifiers : List Node} {value : α}
    (done : taking.onModifiers modifiers = .ok value) :
    ∃ after, taking (.ofList modifiers) = .ok value after := by
  rw [Taking.onModifiers] at done
  cases outcome : taking (.ofList modifiers) with
  | ok result after =>
      rw [outcome] at done
      cases done
      exact ⟨after, rfl⟩
  | error fault after =>
      rw [outcome] at done
      cases done

theorem ahead_of_next {node : Node} (taken : next cursor = .ok (some node) after) :
    cursor.ahead = node :: after.ahead := by
  rcases cursor with ⟨position, ahead⟩
  cases ahead with
  | nil => cases taken
  | cons first others =>
      cases taken
      rfl

theorem of_ofOutcome {α : Type} {outcome : Except Fault α} {value : α}
    (done : ofOutcome outcome cursor = .ok value after) : outcome = .ok value ∧ after = cursor := by
  cases outcome with
  | error fault => cases done
  | ok result =>
      cases done
      exact ⟨rfl, rfl⟩

theorem ahead_eq_of_untilNamed {name : Text} {access : List Node}
    (taken : untilNamed name cursor = .ok access after) :
    cursor.ahead = access ++ after.ahead ∧ (∀ modifier ∈ access, modifier.name? ≠ some name) ∧
      ∀ first ∈ after.ahead.head?, first.name? = some name := by
  have behind := ahead_of_untilNamed taken
  have front : access = cursor.ahead.takeWhile (·.name? ≠ some name) := by
    cases taken
    rfl
  rw [front, behind]
  exact division_at_name name cursor.ahead

theorem division_of_parent? {parent : Option Node} (taken : parent? cursor = .ok parent after) :
    ∃ front, cursor.ahead = front ++ after.ahead ∧ ExtendsPart front parent := by
  rw [parent?] at taken
  obtain ⟨found, start, peeked, rest⟩ := exists_of_bind_ok taken
  cases peeked
  cases first : cursor.peek with
  | none =>
      rw [first] at rest
      cases rest
      exact ⟨[], rfl, .absent⟩
  | some keyword =>
      simp only [first] at rest
      split at rest
      case isFalse other =>
        cases rest
        exact ⟨[], rfl, .absent⟩
      case isTrue named =>
        obtain ⟨passed, middle, read, further⟩ := exists_of_bind_ok rest
        obtain ⟨extended, same, peeked, last⟩ := exists_of_bind_ok further
        have isKeyword : passed = some keyword := by
          cases read
          exact first
        subst isKeyword
        cases peeked
        cases second : middle.peek with
        | none =>
            rw [second] at last
            cases last
        | some expression =>
            simp only [second] at last
            split at last
            case isTrue body => cases last
            case isFalse content =>
              have isExpression : parent = some expression := by
                cases last
                exact second
              subst isExpression
              refine ⟨[keyword, expression], ?_, .given named (Bool.eq_false_iff.mpr content)⟩
              rw [ahead_of_next read, ahead_of_next last]
              rfl

theorem division_of_parameters? {parameters : Option Parameters}
    (taken : parameters? cursor = .ok parameters after) :
    ∃ front, cursor.ahead = front ++ after.ahead ∧ ParametersPart front parameters := by
  rw [parameters?] at taken
  obtain ⟨found, start, peeked, rest⟩ := exists_of_bind_ok taken
  cases peeked
  cases first : cursor.peek with
  | none =>
      rw [first] at rest
      cases rest
      exact ⟨[], rfl, .absent⟩
  | some node =>
      cases node with
      | braced inner position =>
          rw [first] at rest
          cases rest
          exact ⟨[], rfl, .absent⟩
      | parenthesized inner position =>
          simp only [first] at rest
          obtain ⟨passed, middle, read, further⟩ := exists_of_bind_ok rest
          obtain ⟨listed, last, made, final⟩ := exists_of_bind_ok further
          have isList : passed = some (.parenthesized inner position) := by
            cases read
            exact first
          subst isList
          obtain ⟨named, rfl⟩ := of_ofOutcome made
          cases final
          exact ⟨[.parenthesized inner position], ahead_of_next read,
            .listed (Parameters.name_of_ofNodes named)⟩
      | _ =>
          rw [first] at rest
          cases rest

theorem bodyPart_of_body {inner : List Node} (taken : body cursor = .ok inner after) :
    BodyPart cursor.ahead inner := by
  rcases cursor with ⟨position, ahead⟩
  cases ahead with
  | nil =>
      cases taken
      exact .absent
  | cons node others =>
      cases node with
      | braced nodes place =>
          cases others with
          | nil =>
              cases taken
              exact .given
          | cons extra rest => cases taken
      | _ => cases taken

end Taking

/-! ### Definitions -/

namespace ClassDefinition

/-- The modifiers of a class: access modifiers, none of them the keyword, then the keyword and the
name, then what is extended, parameters, and a body. -/
structure Division (definition : ClassDefinition)
    (keyword signature : Node) (arguments extension own block : List Node) : Prop where
  modifiers_eq : definition.form.modifiers =
    definition.access ++ keyword :: signature :: (extension ++ (own ++ block))
  access_other : ∀ modifier ∈ definition.access, modifier.name? ≠ some Keyword.classWord
  keyword_name : keyword.name? = some Keyword.classWord
  signature_eq : signature.signature? = some (definition.name, arguments)
  parent : ExtendsPart extension definition.parent
  parameters : SignatureParameters signature arguments own definition.parameters
  body : BodyPart block definition.body

theorem division_of_parentAndParameters {signature : Node} {arguments : List Node}
    {cursor after : ItemCursor Node} {parts : Option Node × Option Parameters}
    (taken : parentAndParameters signature arguments cursor = .ok parts after) :
    ∃ extension own, cursor.ahead = extension ++ (own ++ after.ahead) ∧
      ExtendsPart extension parts.1 ∧ SignatureParameters signature arguments own parts.2 := by
  rw [parentAndParameters] at taken
  cases arguments with
  | nil =>
      obtain ⟨parent, middle, extended, rest⟩ := exists_of_bind_ok taken
      obtain ⟨parameters, last, listed, final⟩ := exists_of_bind_ok rest
      cases final
      obtain ⟨extension, front, isExtension⟩ := Taking.division_of_parent? extended
      obtain ⟨own, back, isOwn⟩ := Taking.division_of_parameters? listed
      exact ⟨extension, own, by rw [front, back], isExtension, .own isOwn⟩
  | cons argument others =>
      obtain ⟨parameters, middle, made, rest⟩ := exists_of_bind_ok taken
      obtain ⟨parent, last, extended, final⟩ := exists_of_bind_ok rest
      cases final
      obtain ⟨named, rfl⟩ := Taking.of_ofOutcome made
      obtain ⟨extension, front, isExtension⟩ := Taking.division_of_parent? extended
      exact ⟨extension, [], front, isExtension, .carried (Parameters.name_of_ofNodes named)⟩

theorem exists_division {form : MacroForm} {definition : ClassDefinition}
    (made : ofForm form = .ok definition) :
    definition.form = form ∧ ∃ keyword signature arguments extension own block,
      definition.Division keyword signature arguments extension own block := by
  obtain ⟨final, taken⟩ := Taking.exists_of_onModifiers made
  rw [take] at taken
  obtain ⟨access, first, accessTaken, rest⟩ := exists_of_bind_ok taken
  obtain ⟨found, second, keywordTaken, rest⟩ := exists_of_bind_ok rest
  obtain ⟨front, others, stops⟩ := Taking.ahead_eq_of_untilNamed accessTaken
  cases found with
  | none => cases rest
  | some keyword =>
      obtain ⟨found, third, signatureTaken, rest⟩ := exists_of_bind_ok rest
      have behindAccess := Taking.ahead_of_next keywordTaken
      cases found with
      | none => cases rest
      | some signature =>
          have behindKeyword := Taking.ahead_of_next signatureTaken
          dsimp only at rest
          cases signed : signature.signature? with
          | none =>
              rw [signed] at rest
              cases rest
          | some named =>
              rw [signed] at rest
              obtain ⟨parts, fourth, partsTaken, rest⟩ := exists_of_bind_ok rest
              obtain ⟨inner, fifth, bodyTaken, final⟩ := exists_of_bind_ok rest
              obtain ⟨extension, own, behindSignature, isExtension, isOwn⟩ :=
                division_of_parentAndParameters partsTaken
              cases final
              refine ⟨rfl, keyword, signature, named.2, extension, own, fourth.ahead, ?_⟩
              exact {
                modifiers_eq := by
                  rw [← behindSignature, ← behindKeyword, ← behindAccess]
                  exact front
                access_other := others
                keyword_name := stops keyword (by rw [behindAccess, List.head?_cons]; rfl)
                signature_eq := signed
                parent := isExtension
                parameters := isOwn
                body := Taking.bodyPart_of_body bodyTaken }

end ClassDefinition

namespace MethodDefinition

/-- The modifiers of a method: access modifiers and the name, then parameters and a body. None of
them is the class keyword. -/
structure Division (definition : MethodDefinition) (signature : Node)
    (arguments own block : List Node) : Prop where
  modifiers_eq : definition.form.modifiers = definition.access ++ signature :: (own ++ block)
  other : definition.form.isClass = false
  signature_eq : signature.signature? = some (definition.name, arguments)
  parameters : SignatureParameters signature arguments own definition.parameters
  body : BodyPart block definition.body

theorem isPrefix_withoutLast (leavesOut : Node → Bool) (nodes : List Node) :
    withoutLast leavesOut nodes <+: nodes := by
  rw [withoutLast]
  cases nodes.getLast? with
  | none => exact List.prefix_refl nodes
  | some last =>
      dsimp only
      split
      · exact List.dropLast_prefix nodes
      · exact List.prefix_refl nodes

theorem head_append_drop (modifiers : List Node) :
    head modifiers ++ modifiers.drop (head modifiers).length = modifiers := by
  have front : head modifiers <+: modifiers :=
    (isPrefix_withoutLast isParenthesized _).trans (isPrefix_withoutLast Node.isBraced modifiers)
  exact List.prefix_iff_eq_append.mp front

theorem division_of_parametersFor {signature : Node} {arguments : List Node}
    {cursor after : ItemCursor Node} {parameters : Option Parameters}
    (taken : parametersFor signature arguments cursor = .ok parameters after) :
    ∃ own, cursor.ahead = own ++ after.ahead ∧
      SignatureParameters signature arguments own parameters := by
  rw [parametersFor] at taken
  cases arguments with
  | nil =>
      obtain ⟨own, front, isOwn⟩ := Taking.division_of_parameters? taken
      exact ⟨own, front, .own isOwn⟩
  | cons argument others =>
      obtain ⟨listed, middle, made, final⟩ := exists_of_bind_ok taken
      cases final
      obtain ⟨named, rfl⟩ := Taking.of_ofOutcome made
      exact ⟨[], rfl, .carried (Parameters.name_of_ofNodes named)⟩

theorem exists_division {form : MacroForm} {definition : MethodDefinition}
    (made : ofForm form = .ok definition) :
    definition.form = form ∧ ∃ signature arguments own block,
      definition.Division signature arguments own block := by
  rw [ofForm] at made
  split at made
  case isTrue isClass => cases made
  case isFalse other =>
    dsimp only at made
    cases last : (head form.modifiers).getLast? with
    | none =>
        rw [last] at made
        cases made
    | some signature =>
        simp only [last] at made
        cases signed : signature.signature? with
        | none =>
            rw [signed] at made
            cases made
        | some named =>
            simp only [signed] at made
            obtain ⟨final, taken⟩ := Taking.exists_of_onModifiers made
            rw [takeBehind] at taken
            obtain ⟨parameters, middle, parametersTaken, rest⟩ := exists_of_bind_ok taken
            obtain ⟨inner, stop, bodyTaken, done⟩ := exists_of_bind_ok rest
            obtain ⟨own, behind, isOwn⟩ := division_of_parametersFor parametersTaken
            obtain ⟨before, front⟩ := List.getLast?_eq_some_iff.mp last
            have access : (head form.modifiers).dropLast = before := by
              rw [front, List.dropLast_concat]
            cases done
            refine ⟨rfl, signature, named.2, own, middle.ahead, ?_⟩
            exact {
              modifiers_eq := by
                calc form.modifiers
                    = head form.modifiers ++ form.modifiers.drop (head form.modifiers).length :=
                      (head_append_drop form.modifiers).symm
                  _ = (before ++ [signature]) ++ (own ++ middle.ahead) := by
                      rw [← behind, ← front]
                      rfl
                  _ = (head form.modifiers).dropLast ++ signature :: (own ++ middle.ahead) := by
                      rw [access, List.append_assoc, List.singleton_append]
              other := Bool.eq_false_iff.mpr other
              signature_eq := signed
              parameters := isOwn
              body := Taking.bodyPart_of_body bodyTaken }

end MethodDefinition

namespace LexicalVariable

/-- The modifiers of a variable: access modifiers, of which the first is kept, the keyword, the name,
the assignment, and the expression. -/
structure Division (definition : LexicalVariable) (access : List Node)
    (keyword name assignment : Node) : Prop where
  modifiers_eq : definition.form.modifiers =
    access ++ [keyword, name, assignment, definition.bound]
  access_other : ∀ modifier ∈ access, modifier.writeKeyword? = none
  access_eq : definition.access = access.head?
  keyword_eq : keyword.writeKeyword? = some definition.write
  keyword_bare : keyword.arguments = []
  name_other : name.name? ≠ some Keyword.assignment
  name_eq : name.plainName? = some definition.name
  assignment_name : assignment.name? = some Keyword.assignment

theorem of_boundName {position : Position} {write : WriteKeyword} {nodes : List Node} {name : Atom}
    (done : boundName position write nodes = .ok name) :
    ∃ node, nodes = [node] ∧ node.plainName? = some name := by
  match nodes with
  | [] => cases done
  | [single] =>
      rw [boundName] at done
      cases plain : single.plainName? with
      | none =>
          rw [plain] at done
          cases done
      | some found =>
          rw [plain] at done
          cases done
          exact ⟨single, rfl, plain⟩
  | _ :: second :: _ => cases done

theorem of_boundExpression {position : Position} {write : WriteKeyword} {nodes : List Node}
    {bound : Node} (done : boundExpression position write nodes = .ok bound) : nodes = [bound] := by
  match nodes with
  | [] => cases done
  | [single] =>
      cases done
      rfl
  | _ :: second :: _ => cases done

theorem of_ofBinding {form : MacroForm} {access binding : List Node} {keyword : Node}
    {write : WriteKeyword} {definition : LexicalVariable}
    (made : ofBinding form access keyword write binding = .ok definition) :
    definition.form = form ∧ definition.write = write ∧ definition.access = access.head? ∧
      keyword.arguments = [] ∧ ∃ name assignment, binding = [name, assignment, definition.bound] ∧
        name.name? ≠ some Keyword.assignment ∧ name.plainName? = some definition.name ∧
          assignment.name? = some Keyword.assignment := by
  rw [ofBinding] at made
  cases bare : keyword.arguments with
  | cons argument others =>
      rw [bare] at made
      cases made
  | nil =>
      simp only [bare] at made
      cases behind : binding.dropWhile fun node => decide (node.name? ≠ some Keyword.assignment) with
      | nil =>
          rw [behind] at made
          cases made
      | cons assignment expressions =>
          simp only [behind] at made
          cases named : boundName keyword.position write
              (binding.takeWhile fun node => decide (node.name? ≠ some Keyword.assignment)) with
          | error fault =>
              rw [named] at made
              cases made
          | ok found =>
              rw [named] at made
              cases taken : boundExpression assignment.position write expressions with
              | error fault =>
                  rw [taken] at made
                  cases made
              | ok bound =>
                  rw [taken] at made
                  cases made
                  obtain ⟨name, front, plain⟩ := of_boundName named
                  have back := of_boundExpression taken
                  subst back
                  obtain ⟨whole, others, stops⟩ := division_at_name Keyword.assignment binding
                  rw [behind] at whole stops
                  rw [front] at whole others
                  have nameOther := others name (List.mem_singleton_self name)
                  have assigns := stops assignment rfl
                  exact ⟨rfl, rfl, rfl, rfl, name, assignment, whole, nameOther, plain, assigns⟩

theorem exists_division {form : MacroForm} {definition : LexicalVariable}
    (made : ofForm form = .ok definition) :
    definition.form = form ∧ ∃ access keyword name assignment,
      definition.Division access keyword name assignment := by
  rw [ofForm] at made
  cases behind : form.modifiers.dropWhile fun node => node.writeKeyword?.isNone with
  | nil =>
      simp only [behind] at made
      cases made
  | cons keyword binding =>
      simp only [behind] at made
      cases writes : keyword.writeKeyword? with
      | none =>
          rw [writes] at made
          cases made
      | some write =>
          simp only [writes] at made
          obtain ⟨rfl, rfl, accessEq, bare, name, assignment, rfl, other, plain, assigns⟩ :=
            of_ofBinding made
          refine ⟨rfl, definition.form.modifiers.takeWhile fun node => node.writeKeyword?.isNone,
            keyword, name, assignment, ?_⟩
          exact {
            modifiers_eq := by
              rw [← behind]
              exact List.takeWhile_append_dropWhile.symm
            access_other := by
              intro modifier among
              exact Option.isNone_iff_eq_none.mp
                (List.all_eq_true.mp List.all_takeWhile modifier among)
            access_eq := accessEq
            keyword_eq := writes
            keyword_bare := bare
            name_other := other
            name_eq := plain
            assignment_name := assigns }

end LexicalVariable

/-- One of the builders makes the definition of the form. -/
inductive MacroForm.Makes (form : MacroForm) : Node → Prop where
  | classDefinition {definition : ClassDefinition}
      (made : ClassDefinition.ofForm form = .ok definition) : form.Makes definition.toNode
  | methodDefinition {definition : MethodDefinition}
      (made : MethodDefinition.ofForm form = .ok definition) : form.Makes definition.toNode
  | lexicalVariable {definition : LexicalVariable}
      (made : LexicalVariable.ofForm form = .ok definition) : form.Makes definition.toNode

end MessageForms
