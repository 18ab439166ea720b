import MessageForms.Proofs.Definition.Heading
import MessageForms.Proofs.Node.Within

set_option autoImplicit false

/-! Which forms are variables, said of their modifiers alone: access modifiers, a write keyword, one
plain name, the assignment, and one expression. In a form that is none several things may be wrong
at once; they are looked for in a fixed order, and the first one is reported. -/

namespace MessageForms

namespace Node

def IsWriteKeyword (node : Node) : Prop :=
  ∃ write : WriteKeyword, node.name? = some write.name

def IsAssignment (node : Node) : Prop :=
  node.name? = some Keyword.assignment

theorem writeKeyword?_eq_some_iff {node : Node} {write : WriteKeyword} :
    node.writeKeyword? = some write ↔ node.name? = some write.name := by
  rw [writeKeyword?, Option.bind_eq_some_iff]
  simp only [WriteKeyword.ofName?_eq_some_iff, exists_eq_right]

theorem write_unique {node : Node} {write other : WriteKeyword}
    (writes : node.name? = some write.name) (again : node.name? = some other.name) :
    write = other := by
  rw [← writeKeyword?_eq_some_iff] at writes again
  exact Option.some.inj (writes.symm.trans again)

theorem isNone_writeKeyword?_eq_false_iff (node : Node) :
    node.writeKeyword?.isNone = false ↔ node.IsWriteKeyword := by
  rw [Option.isNone_eq_false_iff, Option.isSome_iff_exists]
  simp only [writeKeyword?_eq_some_iff, IsWriteKeyword]

theorem not_assignment_eq_false_iff (node : Node) :
    decide (node.name? ≠ some Keyword.assignment) = false ↔ node.IsAssignment := by
  rw [decide_eq_false_iff_not, ne_eq, Decidable.not_not, IsAssignment]

end Node

/-! ### The first of its sort -/

/-- The nodes in front of the first of a sort, that one, and those behind it. -/
structure FirstAt (sort : Node → Prop) (nodes front : List Node) (first : Node)
    (rest : List Node) : Prop where
  nodes_eq : nodes = front ++ first :: rest
  others : ∀ node ∈ front, ¬ sort node
  sorted : sort first

section FirstAt

variable {sort : Node → Prop} {skips : Node → Bool} {nodes front rest : List Node} {first : Node}

theorem FirstAt.mem (isFirst : FirstAt sort nodes front first rest) : first ∈ nodes := by
  rw [isFirst.nodes_eq]
  exact List.mem_append_right _ List.mem_cons_self

theorem FirstAt.takeWhile_eq (isFirst : FirstAt sort nodes front first rest)
    (decides : ∀ node, skips node = false ↔ sort node) : nodes.takeWhile skips = front := by
  have stops : skips first = false := (decides first).mpr isFirst.sorted
  have passes : ∀ node ∈ front, skips node = true := fun node among =>
    Bool.of_not_eq_false fun stops => isFirst.others node among ((decides node).mp stops)
  rw [isFirst.nodes_eq, List.takeWhile_append_of_pos passes,
    List.takeWhile_cons_of_neg (Bool.eq_false_iff.mp stops), List.append_nil]

theorem FirstAt.dropWhile_eq (isFirst : FirstAt sort nodes front first rest)
    (decides : ∀ node, skips node = false ↔ sort node) :
    nodes.dropWhile skips = first :: rest := by
  have whole : nodes.takeWhile skips ++ nodes.dropWhile skips = front ++ first :: rest :=
    List.takeWhile_append_dropWhile.trans isFirst.nodes_eq
  rw [isFirst.takeWhile_eq decides] at whole
  exact List.append_cancel_left whole

theorem not_of_mem_takeWhile (decides : ∀ node, skips node = false ↔ sort node) :
    ∀ node ∈ nodes.takeWhile skips, ¬ sort node := by
  intro node among sorted
  have passes := List.all_eq_true.mp List.all_takeWhile node among
  rw [(decides node).mpr sorted] at passes
  cases passes

theorem firstAt_of_dropWhile (decides : ∀ node, skips node = false ↔ sort node)
    (behind : nodes.dropWhile skips = first :: rest) :
    FirstAt sort nodes (nodes.takeWhile skips) first rest where
  nodes_eq := by
    rw [← behind]
    exact List.takeWhile_append_dropWhile.symm
  others := not_of_mem_takeWhile decides
  sorted := by
    have stops := List.head?_dropWhile_not skips nodes
    rw [behind] at stops
    exact (decides first).mp stops

theorem none_of_dropWhile (decides : ∀ node, skips node = false ↔ sort node)
    (behind : nodes.dropWhile skips = []) : ∀ node ∈ nodes, ¬ sort node := by
  have whole := @List.takeWhile_append_dropWhile _ skips nodes
  rw [behind, List.append_nil] at whole
  rw [← whole]
  exact not_of_mem_takeWhile decides

theorem FirstAt.unique {front' rest' : List Node} {first' : Node}
    (isFirst : FirstAt sort nodes front first rest)
    (again : FirstAt sort nodes front' first' rest') :
    front = front' ∧ first = first' ∧ rest = rest' := by
  classical
  have decides : ∀ node, decide (¬ sort node) = false ↔ sort node := by
    intro node
    rw [decide_eq_false_iff_not, Decidable.not_not]
  have same := (isFirst.dropWhile_eq decides).symm.trans (again.dropWhile_eq decides)
  obtain ⟨same, rest⟩ := List.cons.inj same
  exact ⟨(isFirst.takeWhile_eq decides).symm.trans (again.takeWhile_eq decides), same, rest⟩

end FirstAt

namespace LexicalVariable

/-- The modifiers of a form, divided as those of a variable. -/
structure Sections where
  access : List Node
  keyword : Node
  name : Node
  assignment : Node
  bound : Node

namespace Sections

/-- The sections are those of a variable, and make up the modifiers. -/
structure Divides (sections : Sections) (modifiers : List Node) : Prop where
  modifiers_eq : modifiers = sections.access ++
    [sections.keyword, sections.name, sections.assignment, sections.bound]
  access_other : ∀ modifier ∈ sections.access, ¬ modifier.IsWriteKeyword
  keyword_writes : sections.keyword.IsWriteKeyword
  keyword_bare : sections.keyword.arguments = []
  name_other : ¬ sections.name.IsAssignment
  name_plain : sections.name.IsPlainName
  assignment_assigns : sections.assignment.IsAssignment

/-- The variable of the form that is made of the sections. -/
structure Describes (sections : Sections) (form : MacroForm) (definition : LexicalVariable) :
    Prop where
  form_eq : definition.form = form
  write_eq : sections.keyword.name? = some definition.write.name
  name_eq : sections.name.plainName? = some definition.name
  /-- Only the first access modifier counts. -/
  access_eq : Node.accessOrDefault definition.access =
    match sections.access with
    | [] => .inr Keyword.defaultAccess
    | first :: _ => .inl first
  bound_eq : definition.bound = sections.bound

end Sections

/-! ### Defects -/

/-- What may be wrong with a form that was to become a variable. -/
inductive Defect where
  | keywordMissing
  | keywordArguments
  | assignmentMissing
  | nameMissing
  | severalNames
  | notAName
  | nothingBound
  | severalExpressions

/-- All defects, the sooner one being the one that counts. -/
def Defect.inOrder : List Defect :=
  [.keywordMissing, .keywordArguments, .assignmentMissing, .nameMissing, .severalNames, .notAName,
    .nothingBound, .severalExpressions]

/-- The form has the defect, and the problem reports it. What stands between the first write keyword
and the first assignment behind it is meant as names, and what follows as expressions. -/
inductive Defect.Reports (form : MacroForm) : Defect → Problem → Prop where
  | keywordMissing (none : ∀ modifier ∈ form.modifiers, ¬ modifier.IsWriteKeyword) :
      Reports form .keywordMissing (.located form.position .writeKeywordMissing)
  | keywordArguments {access binding arguments : List Node} {keyword argument : Node}
      (opens : FirstAt Node.IsWriteKeyword form.modifiers access keyword binding)
      (given : keyword.arguments = argument :: arguments) :
      Reports form .keywordArguments (.located argument.position .bindingNotAName)
  | assignmentMissing {access binding : List Node} {keyword : Node} {write : WriteKeyword}
      (opens : FirstAt Node.IsWriteKeyword form.modifiers access keyword binding)
      (writes : keyword.name? = some write.name)
      (none : ∀ node ∈ binding, ¬ node.IsAssignment) :
      Reports form .assignmentMissing (.located keyword.position (.assignmentMissing write))
  | nameMissing {access binding expressions : List Node} {keyword assignment : Node}
      {write : WriteKeyword}
      (opens : FirstAt Node.IsWriteKeyword form.modifiers access keyword binding)
      (writes : keyword.name? = some write.name)
      (assigns : FirstAt Node.IsAssignment binding [] assignment expressions) :
      Reports form .nameMissing (.located keyword.position (.boundNameMissing write))
  | severalNames {access binding names expressions : List Node}
      {keyword first second assignment : Node}
      (opens : FirstAt Node.IsWriteKeyword form.modifiers access keyword binding)
      (assigns : FirstAt Node.IsAssignment binding (first :: second :: names) assignment
        expressions) :
      Reports form .severalNames (.located second.position .severalNames)
  | notAName {access binding expressions : List Node} {keyword name assignment : Node}
      (opens : FirstAt Node.IsWriteKeyword form.modifiers access keyword binding)
      (assigns : FirstAt Node.IsAssignment binding [name] assignment expressions)
      (unnamed : ¬ name.IsPlainName) :
      Reports form .notAName (.located name.position .bindingNotAName)
  | nothingBound {access binding names : List Node} {keyword assignment : Node}
      {write : WriteKeyword}
      (opens : FirstAt Node.IsWriteKeyword form.modifiers access keyword binding)
      (writes : keyword.name? = some write.name)
      (assigns : FirstAt Node.IsAssignment binding names assignment []) :
      Reports form .nothingBound (.located assignment.position (.nothingBound write))
  | severalExpressions {access binding names expressions : List Node}
      {keyword assignment first second : Node}
      (opens : FirstAt Node.IsWriteKeyword form.modifiers access keyword binding)
      (assigns : FirstAt Node.IsAssignment binding names assignment
        (first :: second :: expressions)) :
      Reports form .severalExpressions (.located second.position .severalExpressions)

def LacksAll (form : MacroForm) (defects : List Defect) : Prop :=
  ∀ defect ∈ defects, ∀ problem, ¬ defect.Reports form problem

/-- The problem reports the first defect that the form has. -/
def IsFirstProblem (form : MacroForm) (problem : Problem) : Prop :=
  ∃ earlier defect later, Defect.inOrder = earlier ++ defect :: later ∧
    LacksAll form earlier ∧ defect.Reports form problem

section Defects

variable {form : MacroForm} {earlier later : List Defect} {defect : Defect} {problem : Problem}

theorem lacksAll_nil : LacksAll form [] :=
  nofun

theorem LacksAll.and (lacks : LacksAll form earlier)
    (next : ∀ problem, ¬ defect.Reports form problem) : LacksAll form (earlier ++ [defect]) :=
  List.forall_mem_append.mpr ⟨lacks, List.forall_mem_singleton.mpr next⟩

theorem LacksAll.isFirstProblem (lacks : LacksAll form earlier)
    (reports : defect.Reports form problem)
    (order : Defect.inOrder = earlier ++ defect :: later) : IsFirstProblem form problem :=
  ⟨earlier, defect, later, order, lacks, reports⟩

variable {access binding names expressions : List Node} {keyword assignment name : Node}
  {write : WriteKeyword}

theorem lacks_keywordMissing
    (opens : FirstAt Node.IsWriteKeyword form.modifiers access keyword binding)
    (problem : Problem) : ¬ Defect.keywordMissing.Reports form problem := by
  rintro ⟨none⟩
  exact none keyword opens.mem opens.sorted

theorem lacks_keywordArguments
    (opens : FirstAt Node.IsWriteKeyword form.modifiers access keyword binding)
    (bare : keyword.arguments = []) (problem : Problem) :
    ¬ Defect.keywordArguments.Reports form problem := by
  intro reports
  cases reports with
  | keywordArguments again given =>
      obtain ⟨-, rfl, -⟩ := again.unique opens
      cases given.symm.trans bare

theorem lacks_assignmentMissing
    (opens : FirstAt Node.IsWriteKeyword form.modifiers access keyword binding)
    (assigns : FirstAt Node.IsAssignment binding names assignment expressions)
    (problem : Problem) : ¬ Defect.assignmentMissing.Reports form problem := by
  intro reports
  cases reports with
  | assignmentMissing again writes none =>
      obtain ⟨-, -, rfl⟩ := again.unique opens
      exact none assignment assigns.mem assigns.sorted

theorem lacks_nameMissing
    (opens : FirstAt Node.IsWriteKeyword form.modifiers access keyword binding)
    (assigns : FirstAt Node.IsAssignment binding (name :: names) assignment expressions)
    (problem : Problem) : ¬ Defect.nameMissing.Reports form problem := by
  intro reports
  cases reports with
  | nameMissing again writes assignsAgain =>
      obtain ⟨-, -, rfl⟩ := again.unique opens
      cases (assignsAgain.unique assigns).1

theorem lacks_severalNames
    (opens : FirstAt Node.IsWriteKeyword form.modifiers access keyword binding)
    (assigns : FirstAt Node.IsAssignment binding [name] assignment expressions)
    (problem : Problem) : ¬ Defect.severalNames.Reports form problem := by
  intro reports
  cases reports with
  | severalNames again assignsAgain =>
      obtain ⟨-, -, rfl⟩ := again.unique opens
      cases (assignsAgain.unique assigns).1

theorem lacks_notAName
    (opens : FirstAt Node.IsWriteKeyword form.modifiers access keyword binding)
    (assigns : FirstAt Node.IsAssignment binding [name] assignment expressions)
    (plain : name.IsPlainName) (problem : Problem) :
    ¬ Defect.notAName.Reports form problem := by
  intro reports
  cases reports with
  | notAName again assignsAgain unnamed =>
      obtain ⟨-, -, rfl⟩ := again.unique opens
      cases (assignsAgain.unique assigns).1
      exact unnamed plain

theorem lacks_nothingBound {expression : Node}
    (opens : FirstAt Node.IsWriteKeyword form.modifiers access keyword binding)
    (assigns : FirstAt Node.IsAssignment binding names assignment (expression :: expressions))
    (problem : Problem) : ¬ Defect.nothingBound.Reports form problem := by
  intro reports
  cases reports with
  | nothingBound again writes assignsAgain =>
      obtain ⟨-, -, rfl⟩ := again.unique opens
      cases (assignsAgain.unique assigns).2.2

theorem lacks_severalExpressions {expression : Node}
    (opens : FirstAt Node.IsWriteKeyword form.modifiers access keyword binding)
    (assigns : FirstAt Node.IsAssignment binding names assignment [expression])
    (problem : Problem) : ¬ Defect.severalExpressions.Reports form problem := by
  intro reports
  cases reports with
  | severalExpressions again assignsAgain =>
      obtain ⟨-, -, rfl⟩ := again.unique opens
      cases (assignsAgain.unique assigns).2.2

theorem Defect.Reports.unique {other : Problem} (reports : defect.Reports form problem)
    (again : defect.Reports form other) : problem = other := by
  cases reports with
  | keywordMissing none =>
      cases again
      rfl
  | keywordArguments opens given =>
      cases again with
      | keywordArguments opensAgain givenAgain =>
          obtain ⟨-, rfl, -⟩ := opens.unique opensAgain
          cases given.symm.trans givenAgain
          rfl
  | assignmentMissing opens writes none =>
      cases again with
      | assignmentMissing opensAgain writesAgain noneAgain =>
          obtain ⟨-, rfl, -⟩ := opens.unique opensAgain
          cases Node.write_unique writes writesAgain
          rfl
  | nameMissing opens writes assigns =>
      cases again with
      | nameMissing opensAgain writesAgain assignsAgain =>
          obtain ⟨-, rfl, -⟩ := opens.unique opensAgain
          cases Node.write_unique writes writesAgain
          rfl
  | severalNames opens assigns =>
      cases again with
      | severalNames opensAgain assignsAgain =>
          obtain ⟨-, -, rfl⟩ := opens.unique opensAgain
          cases (assigns.unique assignsAgain).1
          rfl
  | notAName opens assigns unnamed =>
      cases again with
      | notAName opensAgain assignsAgain unnamedAgain =>
          obtain ⟨-, -, rfl⟩ := opens.unique opensAgain
          cases (assigns.unique assignsAgain).1
          rfl
  | nothingBound opens writes assigns =>
      cases again with
      | nothingBound opensAgain writesAgain assignsAgain =>
          obtain ⟨-, rfl, rfl⟩ := opens.unique opensAgain
          obtain ⟨-, rfl, -⟩ := assigns.unique assignsAgain
          cases Node.write_unique writes writesAgain
          rfl
  | severalExpressions opens assigns =>
      cases again with
      | severalExpressions opensAgain assignsAgain =>
          obtain ⟨-, -, rfl⟩ := opens.unique opensAgain
          cases (assigns.unique assignsAgain).2.2
          rfl

/-- The sooner one of two defects would be in the way of the other. -/
theorem IsFirstProblem.unique {other : Problem} (isFirst : IsFirstProblem form problem)
    (again : IsFirstProblem form other) : problem = other := by
  obtain ⟨earlier, defect, later, order, lacks, reports⟩ := isFirst
  obtain ⟨earlier', defect', later', order', lacks', reports'⟩ := again
  rcases List.append_eq_append_iff.mp (order.symm.trans order') with
    ⟨between, front, behind⟩ | ⟨between, front, behind⟩
  · cases between with
    | nil =>
        cases behind
        exact reports.unique reports'
    | cons first others =>
        cases behind
        have among : defect ∈ earlier' := by
          rw [front]
          exact List.mem_append_right _ List.mem_cons_self
        exact (lacks' defect among problem reports).elim
  · cases between with
    | nil =>
        cases behind
        exact reports.unique reports'
    | cons first others =>
        cases behind
        have among : defect' ∈ earlier := by
          rw [front]
          exact List.mem_append_right _ List.mem_cons_self
        exact (lacks defect' among other reports').elim

/-! ### Which defect is reported -/

variable {fault : Fault}

theorem isFirstProblem_of_boundName
    (opens : FirstAt Node.IsWriteKeyword form.modifiers access keyword binding)
    (writes : keyword.name? = some write.name)
    (assigns : FirstAt Node.IsAssignment binding names assignment expressions)
    (lacks : LacksAll form [.keywordMissing, .keywordArguments, .assignmentMissing])
    (failed : boundName keyword.position write names = .error fault) :
    ∃ problem, fault = .problem problem ∧ IsFirstProblem form problem := by
  match names with
  | [] =>
      cases failed
      exact ⟨_, rfl, lacks.isFirstProblem (.nameMissing opens writes assigns) rfl⟩
  | _ :: second :: others =>
      cases failed
      have named := lacks.and (lacks_nameMissing opens assigns)
      exact ⟨_, rfl, named.isFirstProblem (.severalNames opens assigns) rfl⟩
  | [single] =>
      have named := (lacks.and (lacks_nameMissing opens assigns)).and
        (lacks_severalNames opens assigns)
      rw [boundName] at failed
      cases plain : single.plainName? with
      | some name =>
          rw [plain] at failed
          cases failed
      | none =>
          rw [plain] at failed
          cases failed
          have unnamed : ¬ single.IsPlainName := by
            rw [Node.isPlainName_iff, plain]
            rintro ⟨name, some⟩
            cases some
          exact ⟨_, rfl, named.isFirstProblem (.notAName opens assigns unnamed) rfl⟩

theorem isFirstProblem_of_boundExpression
    (opens : FirstAt Node.IsWriteKeyword form.modifiers access keyword binding)
    (writes : keyword.name? = some write.name)
    (assigns : FirstAt Node.IsAssignment binding [name] assignment expressions)
    (plain : name.IsPlainName)
    (lacks : LacksAll form [.keywordMissing, .keywordArguments, .assignmentMissing])
    (failed : boundExpression assignment.position write expressions = .error fault) :
    ∃ problem, fault = .problem problem ∧ IsFirstProblem form problem := by
  have named := ((lacks.and (lacks_nameMissing opens assigns)).and
    (lacks_severalNames opens assigns)).and (lacks_notAName opens assigns plain)
  match expressions with
  | [] =>
      cases failed
      exact ⟨_, rfl, named.isFirstProblem (.nothingBound opens writes assigns) rfl⟩
  | [single] => cases failed
  | _ :: second :: others =>
      cases failed
      have bound := named.and (lacks_nothingBound opens assigns)
      exact ⟨_, rfl, bound.isFirstProblem (.severalExpressions opens assigns) rfl⟩

theorem isFirstProblem_of_ofBinding
    (opens : FirstAt Node.IsWriteKeyword form.modifiers access keyword binding)
    (writes : keyword.name? = some write.name)
    (failed : ofBinding form access keyword write binding = .error fault) :
    ∃ problem, fault = .problem problem ∧ IsFirstProblem form problem := by
  -- Each check that is passed adds its defect to those that the form is known to lack.
  have opened : LacksAll form [.keywordMissing] := lacksAll_nil.and (lacks_keywordMissing opens)
  rw [ofBinding] at failed
  cases given : keyword.arguments with
  | cons argument others =>
      rw [given] at failed
      cases failed
      exact ⟨_, rfl, opened.isFirstProblem (.keywordArguments opens given) rfl⟩
  | nil =>
      have bare : LacksAll form [.keywordMissing, .keywordArguments] :=
        opened.and (lacks_keywordArguments opens given)
      simp only [given] at failed
      cases behind : binding.dropWhile fun node => decide (node.name? ≠ some Keyword.assignment) with
      | nil =>
          have none := none_of_dropWhile Node.not_assignment_eq_false_iff behind
          rw [behind] at failed
          cases failed
          exact ⟨_, rfl, bare.isFirstProblem (.assignmentMissing opens writes none) rfl⟩
      | cons assignment expressions =>
          have assigns := firstAt_of_dropWhile Node.not_assignment_eq_false_iff behind
          have assigned := bare.and (lacks_assignmentMissing opens assigns)
          simp only [behind] at failed
          cases named : boundName keyword.position write
              (binding.takeWhile fun node => decide (node.name? ≠ some Keyword.assignment)) with
          | error reported =>
              rw [named] at failed
              cases failed
              exact isFirstProblem_of_boundName opens writes assigns assigned named
          | ok found =>
              rw [named] at failed
              obtain ⟨name, single, plain⟩ := of_boundName named
              rw [single] at assigns
              have isPlain := Node.isPlainName_iff.mpr ⟨found, plain⟩
              cases taken : boundExpression assignment.position write expressions with
              | error reported =>
                  rw [taken] at failed
                  cases failed
                  exact isFirstProblem_of_boundExpression opens writes assigns isPlain assigned
                    taken
              | ok bound =>
                  rw [taken] at failed
                  cases failed

/-- The scans and the checks that come between them keep to the order. -/
theorem isFirstProblem_of_ofForm (failed : ofForm form = .error fault) :
    ∃ problem, fault = .problem problem ∧ IsFirstProblem form problem := by
  rw [ofForm] at failed
  cases behind : form.modifiers.dropWhile fun node => node.writeKeyword?.isNone with
  | nil =>
      have none := none_of_dropWhile Node.isNone_writeKeyword?_eq_false_iff behind
      simp only [behind] at failed
      cases failed
      exact ⟨_, rfl, lacksAll_nil.isFirstProblem (.keywordMissing none) rfl⟩
  | cons keyword binding =>
      have opens := firstAt_of_dropWhile Node.isNone_writeKeyword?_eq_false_iff behind
      obtain ⟨write, writes⟩ := opens.sorted
      simp only [behind, Node.writeKeyword?_eq_some_iff.mpr writes] at failed
      exact isFirstProblem_of_ofBinding opens writes failed

end Defects

/-! ### Making the variable -/

section Recognition

variable {form : MacroForm} {sections : Sections} {definition : LexicalVariable}

theorem exists_divides (made : ofForm form = .ok definition) :
    ∃ sections : Sections, sections.Divides form.modifiers := by
  obtain ⟨rfl, access, keyword, name, assignment, division⟩ := exists_division made
  refine ⟨⟨access, keyword, name, assignment, definition.bound⟩, ?_⟩
  exact {
    modifiers_eq := division.modifiers_eq
    access_other := by
      rintro modifier among writes
      rw [← Node.isNone_writeKeyword?_eq_false_iff, division.access_other modifier among] at writes
      cases writes
    keyword_writes := ⟨definition.write, Node.writeKeyword?_eq_some_iff.mp division.keyword_eq⟩
    keyword_bare := division.keyword_bare
    name_other := division.name_other
    name_plain := Node.isPlainName_iff.mpr ⟨definition.name, division.name_eq⟩
    assignment_assigns := division.assignment_name }

theorem Sections.Divides.opens (divides : sections.Divides form.modifiers) :
    FirstAt Node.IsWriteKeyword form.modifiers sections.access sections.keyword
      [sections.name, sections.assignment, sections.bound] where
  nodes_eq := divides.modifiers_eq
  others := divides.access_other
  sorted := divides.keyword_writes

theorem Sections.Divides.assigns (divides : sections.Divides form.modifiers) :
    FirstAt Node.IsAssignment [sections.name, sections.assignment, sections.bound] [sections.name]
      sections.assignment [sections.bound] where
  nodes_eq := rfl
  others := List.forall_mem_singleton.mpr divides.name_other
  sorted := divides.assignment_assigns

theorem ofForm_of_divides (divides : sections.Divides form.modifiers) :
    ∃ definition, ofForm form = .ok definition ∧ sections.Describes form definition := by
  obtain ⟨write, writes⟩ := divides.keyword_writes
  obtain ⟨name, named⟩ := Node.isPlainName_iff.mp divides.name_plain
  have access := divides.opens.takeWhile_eq Node.isNone_writeKeyword?_eq_false_iff
  have behind := divides.opens.dropWhile_eq Node.isNone_writeKeyword?_eq_false_iff
  have names := divides.assigns.takeWhile_eq Node.not_assignment_eq_false_iff
  have expressions := divides.assigns.dropWhile_eq Node.not_assignment_eq_false_iff
  refine ⟨{ form, name, write, access := sections.access.head?, bound := sections.bound }, ?_, ?_⟩
  · rw [ofForm]
    simp only [behind, access, Node.writeKeyword?_eq_some_iff.mpr writes]
    rw [ofBinding]
    simp only [divides.keyword_bare, expressions, names]
    rw [boundName, named]
    rfl
  · exact {
      form_eq := rfl
      write_eq := writes
      name_eq := named
      access_eq := by cases sections.access <;> rfl
      bound_eq := rfl }

theorem Sections.Divides.lacksAll (divides : sections.Divides form.modifiers) :
    LacksAll form Defect.inOrder := by
  have opens := divides.opens
  have assigns := divides.assigns
  have opened : LacksAll form [.keywordMissing, .keywordArguments, .assignmentMissing] :=
    ((lacksAll_nil.and (lacks_keywordMissing opens)).and
      (lacks_keywordArguments opens divides.keyword_bare)).and
      (lacks_assignmentMissing opens assigns)
  have named := ((opened.and (lacks_nameMissing opens assigns)).and
    (lacks_severalNames opens assigns)).and (lacks_notAName opens assigns divides.name_plain)
  exact (named.and (lacks_nothingBound opens assigns)).and (lacks_severalExpressions opens assigns)

theorem ofForm_of_isFirstProblem {problem : Problem} (isFirst : IsFirstProblem form problem) :
    ofForm form = .error (.problem problem) := by
  cases outcome : ofForm form with
  | ok definition =>
      obtain ⟨sections, divides⟩ := exists_divides outcome
      obtain ⟨earlier, defect, later, order, -, reports⟩ := isFirst
      have among : defect ∈ Defect.inOrder := by
        rw [order]
        exact List.mem_append_right _ List.mem_cons_self
      exact (divides.lacksAll defect among problem reports).elim
  | error fault =>
      obtain ⟨reported, rfl, again⟩ := isFirstProblem_of_ofForm outcome
      rw [again.unique isFirst]

/-- The variables are the forms whose modifiers divide into sections, and however they divide, the
variable is made of these sections. Of every other form the first defect is reported. -/
theorem recognizes_variables (form : MacroForm) :
    ((∃ definition, ofForm form = .ok definition) ↔
      ∃ sections : Sections, sections.Divides form.modifiers) ∧
    (∀ sections : Sections, ∀ definition, sections.Divides form.modifiers →
      ofForm form = .ok definition → sections.Describes form definition) ∧
    ∀ fault, ofForm form = .error fault ↔
      ∃ problem, fault = .problem problem ∧ IsFirstProblem form problem := by
  obtain ⟨recognizes, describes⟩ := recognizes_of_parts
    (fun _ made => exists_divides made) (fun _ divides => ofForm_of_divides divides)
  refine ⟨recognizes, describes, fun fault => ⟨?_, ?_⟩⟩
  · intro failed
    exact isFirstProblem_of_ofForm failed
  · rintro ⟨problem, rfl, isFirst⟩
    exact ofForm_of_isFirstProblem isFirst

/-- In `let x y =` there are too many names and nothing is bound; only the former is reported. -/
theorem recognizes_variables_let :
    let sections : Sections := {
      access := [.word "public".toList ⟨0, 0⟩]
      keyword := .word ['l', 'e', 't'] ⟨0, 7⟩
      name := .word ['x'] ⟨0, 11⟩
      assignment := .word ['='] ⟨0, 13⟩
      bound := .word ['y'] ⟨0, 15⟩ }
    let form : MacroForm := {
      modifiers := [.word "public".toList ⟨0, 0⟩, .word ['l', 'e', 't'] ⟨0, 7⟩,
        .word ['x'] ⟨0, 11⟩, .word ['='] ⟨0, 13⟩, .word ['y'] ⟨0, 15⟩]
      position := ⟨0, 0⟩ }
    let crowded : MacroForm := {
      modifiers := [.word ['l', 'e', 't'] ⟨0, 0⟩, .word ['x'] ⟨0, 4⟩, .word ['y'] ⟨0, 6⟩,
        .word ['='] ⟨0, 8⟩]
      position := ⟨0, 0⟩ }
    sections.Divides form.modifiers ∧
      (∃ definition, ofForm form = .ok definition ∧ sections.Describes form definition) ∧
      IsFirstProblem crowded (.located ⟨0, 6⟩ .severalNames) := by
  intro sections form crowded
  have divides : sections.Divides form.modifiers := {
    modifiers_eq := rfl
    access_other := by
      refine List.forall_mem_singleton.mpr ?_
      rintro ⟨write, named⟩
      cases write <;> revert named <;> decide
    keyword_writes := ⟨.assignable, rfl⟩
    keyword_bare := rfl
    name_other := by
      rw [Node.IsAssignment]
      decide
    name_plain := .inr ⟨_, _, rfl⟩
    assignment_assigns := rfl }
  obtain ⟨recognizes, describes, -⟩ := recognizes_variables form
  obtain ⟨definition, made⟩ := recognizes.mpr ⟨sections, divides⟩
  obtain ⟨-, -, reported⟩ := recognizes_variables crowded
  obtain ⟨problem, same, isFirst⟩ :=
    (reported (.problem (.located ⟨0, 6⟩ .severalNames))).mp rfl
  cases same
  exact ⟨divides, ⟨definition, made, describes sections definition divides made⟩, isFirst⟩

end Recognition

end LexicalVariable

end MessageForms
