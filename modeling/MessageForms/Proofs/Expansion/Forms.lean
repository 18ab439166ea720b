import MessageForms.Proofs.Expansion.Walked

set_option autoImplicit false

/-! Walks of many forms. With a table that makes definitions, each form is walked or reported, and
no form has a part in what becomes of another. -/

namespace MessageForms

/-- The report with its line and column counted at another place; only both together are one. -/
def Diagnostic.moved (place : Position → Position) (diagnostic : Diagnostic) : Diagnostic :=
  match diagnostic.line, diagnostic.column with
  | some line, some column =>
      let position := place { row := line - 1, column := column - 1 }
      { diagnostic with line := some (position.row + 1), column := some (position.column + 1) }
  | _, _ => diagnostic

theorem Problem.diagnostic_relabel (labels : Relabeling) (problem : Problem) (file : Option Text) :
    (problem.relabel labels).diagnostic file = (problem.diagnostic file).moved labels.place := by
  rcases problem with ⟨complaint, position, preview, hint⟩
  cases position with
  | none => rfl
  | some position =>
      simp only [diagnostic, relabel, Diagnostic.moved, Option.map_some, Int.add_sub_cancel]

namespace Program

def append (program others : Program) : Program :=
  { forms := program.forms ++ others.forms
    diagnostics := program.diagnostics ++ others.diagnostics }

def relabel (labels : Relabeling) (program : Program) : Program :=
  { forms := program.forms.map (·.relabel labels)
    diagnostics := program.diagnostics.map (·.moved labels.place) }

end Program

namespace Program

@[simp] theorem relabel_append (labels : Relabeling) (program others : Program) :
    (program.append others).relabel labels =
      (program.relabel labels).append (others.relabel labels) := by
  simp only [append, relabel, List.map_append]

theorem append_assoc (program others more : Program) :
    (program.append others).append more = program.append (others.append more) := by
  simp only [append, List.append_assoc]

end Program

namespace MacroTable

variable {table : MacroTable} {labels : Relabeling} {limit : StepLimit} {file : Option Text}

def contribution (file : Option Text) : Except Problem Node → Program
  | .ok walked => { forms := [walked], diagnostics := [] }
  | .error problem => { forms := [], diagnostics := [problem.diagnostic file] }

/-! Whoever compares two runs of a walk counts its allowance down; behind an equation the definition
is opened without a comparison. -/

theorem walkReporting_of_ok {form : Node} {walked : Option Node} {log after : Array LogEntry}
    (done : table.walk limit form log = .ok walked after) :
    table.walkReporting limit form log = .ok (.ok (walked.getD form)) after := by
  generalize opened : table.walkReporting limit form = reporting
  delta walkReporting at opened
  subst opened
  simp only [done]

theorem walkReporting_of_error {form : Node} {fault : Fault} {log after : Array LogEntry}
    (failed : table.walk limit form log = .error fault after) :
    table.walkReporting limit form log =
      match fault with
      | .problem problem => .ok (.error problem) after
      | fault => .error fault after := by
  generalize opened : table.walkReporting limit form = reporting
  delta walkReporting at opened
  subst opened
  simp only [failed]
  cases fault <;> rfl

theorem comes_walkReporting {form : Node} {outcome : Except Problem (Option Node)}
    (comes : Comes (table.walk limit form) outcome) :
    Comes (table.walkReporting limit form) (.ok (outcome.map (·.getD form))) := by
  intro log
  obtain ⟨after, done⟩ := comes log
  cases outcome with
  | ok walked => exact ⟨after, walkReporting_of_ok done⟩
  | error problem => exact ⟨after, walkReporting_of_error done⟩

theorem comes_walkForms_cons {form : Node} {others : List Node} {outcome : Except Problem Node}
    {program : Program} (comes : Comes (table.walkReporting limit form) (.ok outcome))
    (further : Comes (table.walkForms limit file others) (.ok program)) :
    Comes (table.walkForms limit file (form :: others))
      (.ok ((contribution file outcome).append program)) := by
  refine comes.bind (further.bind ?_)
  cases outcome <;> exact comes_pure _

section Forms

variable (makes : table.MakesDefinitions) (allowed : limit.AllowsOne)

include makes allowed

theorem exists_walkReporting (file : Option Text) (form : Node) :
    ∃ outcome outcome', Comes (table.walkReporting limit form) (.ok outcome) ∧
      Comes (table.walkReporting limit (form.relabel labels)) (.ok outcome') ∧
      contribution file outcome' = (contribution file outcome).relabel labels ∧
      (contribution file outcome).forms.length +
        (contribution file outcome).diagnostics.length = 1 ∧
      ∀ report ∈ (contribution file outcome).diagnostics, ∃ problem, table.Raises problem ∧
        report = problem.diagnostic file := by
  cases @follows_walk table labels makes limit allowed form with
  | ok walked comes comes' =>
      refine ⟨_, _, comes_walkReporting comes, comes_walkReporting comes', ?_, rfl,
        fun _ impossible => nomatch impossible⟩
      cases walked <;> rfl
  | problem raised source comes comes' =>
      refine ⟨_, _, comes_walkReporting comes, comes_walkReporting comes', ?_, rfl, ?_⟩
      · change ({ forms := [], diagnostics := [(raised.relabel labels).diagnostic file] } :
          Program) = _
        rw [raised.diagnostic_relabel]
        rfl
      · intro report among
        obtain rfl := List.mem_singleton.mp among
        exact ⟨raised, source, rfl⟩

theorem exists_walkForms (labels : Relabeling) (file : Option Text) (forms : List Node) :
    ∃ program, Comes (table.walkForms limit file forms) (.ok program) ∧
      Comes (table.walkForms limit file (forms.map (·.relabel labels)))
        (.ok (program.relabel labels)) ∧
      program.forms.length + program.diagnostics.length = forms.length ∧
      ∀ report ∈ program.diagnostics, ∃ problem, table.Raises problem ∧
        report = problem.diagnostic file := by
  induction forms with
  | nil =>
      exact ⟨{ forms := [], diagnostics := [] }, comes_pure _, comes_pure _, rfl,
        fun _ impossible => nomatch impossible⟩
  | cons form others ih =>
      obtain ⟨program, comes, comes', count, sources⟩ := ih
      obtain ⟨outcome, outcome', done, done', same, one, source⟩ :=
        @exists_walkReporting table labels limit makes allowed file form
      refine ⟨_, comes_walkForms_cons done comes, ?_, ?_, ?_⟩
      · rw [Program.relabel_append, ← same]
        exact comes_walkForms_cons done' comes'
      · simp only [Program.append, List.length_append, List.length_cons]
        omega
      · intro report among
        rcases List.mem_append.mp among with first | later
        · exact source report first
        · exact sources report later

theorem comes_walkForms_append {forms others : List Node} {program program' : Program}
    (comes : Comes (table.walkForms limit file forms) (.ok program))
    (comes' : Comes (table.walkForms limit file others) (.ok program')) :
    Comes (table.walkForms limit file (forms ++ others)) (.ok (program.append program')) := by
  induction forms generalizing program with
  | nil =>
      cases comes.unique (comes_pure _)
      exact comes'
  | cons form rest ih =>
      obtain ⟨outcome, -, done, -⟩ :=
        @exists_walkReporting table (.moving id) limit makes allowed file form
      obtain ⟨first, further, -⟩ := exists_walkForms makes allowed (.moving id) file rest
      cases comes.unique (comes_walkForms_cons done further)
      rw [Program.append_assoc]
      exact comes_walkForms_cons done (ih further)

end Forms

/-! ### Texts -/

section Texts

variable {dialect : Dialect} {text : Text}

theorem comes_readAndWalk {read program : Program}
    (reads : readProgram dialect file text = .ok read)
    (comes : Comes (table.walkForms limit file read.forms) (.ok program)) :
    Comes (table.readAndWalk limit dialect file text)
      (.ok { program with diagnostics := read.diagnostics ++ program.diagnostics }) := by
  rw [readAndWalk, reads]
  exact comes.bind (comes_pure _)

theorem readAndWalk_of_error {fault : Fault} (failed : readProgram dialect file text = .error fault)
    (log : Array LogEntry) :
    table.readAndWalk limit dialect file text log = .error fault log := by
  rw [readAndWalk, failed]
  rfl

end Texts

end MacroTable

end MessageForms
