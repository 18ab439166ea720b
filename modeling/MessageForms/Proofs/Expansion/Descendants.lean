import MessageForms.Proofs.Expansion.Forms
import MessageForms.Proofs.Expansion.Lossless
import MessageForms.Proofs.Expansion.Normal
import MessageForms.Proofs.Grammar.Plain
import MessageForms.Proofs.Node.Search

set_option autoImplicit false

/-! What is left in the forms that a text comes to. Nothing that the standard table would expand
stands where expansion goes: among the modifiers of a form, inside of delimiters, in a body, or as a
bound expression, at any depth. Receivers and arguments of messages, extended expressions and access
modifiers are passed by. They are nodes of the forms that were read, as these were, and forms that the
table would expand may stand in them. -/

namespace MessageForms

namespace MacroTable

def applies (table : MacroTable) : Node → Bool
  | .macroForm modifiers _ => table.expanders.any (·.applies modifiers)
  | _ => false

variable {table : MacroTable} {limit : StepLimit} {dialect : Dialect} {file : Option Text}

theorem Leaves.applies_eq_false {node : Node} (leaves : table.Leaves node) :
    table.applies node = false := by
  cases node with
  | macroForm modifiers position =>
      have none_applies := List.find?_eq_none.mp (leaves modifiers position rfl)
      rw [applies, List.any_eq_false]
      exact none_applies
  | _ => rfl

/-! ### Programs -/

theorem walksTo_of_walkReporting {form walked : Node} {log after : Array LogEntry}
    (done : table.walkReporting limit form log = .ok (.ok walked) after) :
    table.WalksTo limit form walked := by
  generalize opened : table.walkReporting limit form = reporting at done
  delta walkReporting at opened
  subst opened
  cases outcome : table.walk limit form log with
  | ok result last =>
      simp only [outcome] at done
      cases done
      exact walksTo_of_walk outcome
  | error fault last =>
      simp only [outcome] at done
      cases fault <;> cases done

theorem exists_walksTo_of_walkForms {forms : List Node} {program : Program}
    {log after : Array LogEntry} (done : table.walkForms limit file forms log = .ok program after) :
    ∀ walked ∈ program.forms, ∃ form ∈ forms, table.WalksTo limit form walked := by
  induction forms generalizing program log after with
  | nil =>
      cases done
      exact nofun
  | cons form others ih =>
      obtain ⟨outcome, middle, first, rest⟩ := exists_of_bind_ok done
      obtain ⟨further, last, later, final⟩ := exists_of_bind_ok rest
      intro walked among
      have fromOthers (amongOthers : walked ∈ further.forms) :
          ∃ origin ∈ form :: others, table.WalksTo limit origin walked := by
        obtain ⟨origin, member, walks⟩ := ih later walked amongOthers
        exact ⟨origin, List.mem_cons_of_mem form member, walks⟩
      cases outcome with
      | ok result =>
          cases final
          rcases List.mem_cons.mp among with rfl | amongOthers
          · exact ⟨form, List.mem_cons_self, walksTo_of_walkReporting first⟩
          · exact fromOthers amongOthers
      | error problem =>
          cases final
          exact fromOthers among

theorem exists_walksTo_of_readAndWalk {text : Text} {program : Program} {log after : Array LogEntry}
    (done : table.readAndWalk limit dialect file text log = .ok program after) :
    ∃ read, readProgram dialect file text = .ok read ∧
      ∀ walked ∈ program.forms, ∃ form ∈ read.forms, table.WalksTo limit form walked := by
  rw [readAndWalk] at done
  cases reads : readProgram dialect file text with
  | error fault =>
      rw [reads] at done
      cases done
  | ok read =>
      simp only [reads] at done
      obtain ⟨forms, middle, walks, final⟩ := exists_of_bind_ok done
      cases final
      refine ⟨read, rfl, ?_⟩
      intro walked among
      exact exists_walksTo_of_walkForms walks walked among

/-! ### What is passed by -/

/-- Wherever expansion goes, it passes by nothing but what the node held before. -/
theorem WalksTo.inherits_passed {holds : Node → Prop} (inherited : Node.Inherited holds)
    {node result : Node} (walks : standard.WalksTo limit node result) (held : holds node) :
    ∀ inner, Node.Within Node.reached inner result → ∀ other ∈ inner.passed, holds other := by
  revert held
  apply walks.induct standard_makesDefinitions
  intro node expanded children expands walked passes held inner within
  have contents := expands.inherits_contents inherited held
  rcases within.cases with rfl | ⟨child, among, further⟩
  · intro other isPassed
    rw [Node.passed_withReached] at isPassed
    exact contents other (Node.mem_contents_of_passed isPassed)
  · rw [Node.reached_withReached walked.length_eq.symm] at among
    obtain ⟨original, amongOriginals, passesOriginal⟩ := exists_partner passes among
    exact passesOriginal (contents original (Node.mem_contents_of_reached amongOriginals)) inner
      further

/-- Each form that a text comes to is walked from one that was read. The standard table applies to
nothing in it that expansion goes into, and what expansion passes by is a node of the form that was
read, in which no definition stands. -/
theorem standard_readAndWalk_normal {text : Text} {program : Program} {log after : Array LogEntry}
    (done : standard.readAndWalk limit dialect file text log = .ok program after) :
    ∃ read, readProgram dialect file text = .ok read ∧
      ∀ form ∈ program.forms, ∃ origin ∈ read.forms,
        ∀ inner, Node.Within Node.reached inner form →
          standard.applies inner = false ∧
            ∀ other ∈ inner.passed, other.IsPlain ∧ Node.Within Node.contents other origin := by
  obtain ⟨read, reads, walked⟩ := exists_walksTo_of_readAndWalk done
  refine ⟨read, reads, ?_⟩
  intro form among
  obtain ⟨origin, amongRead, walks⟩ := walked form among
  refine ⟨origin, amongRead, ?_⟩
  intro inner within
  have normal := walks.isNormal standard_makesDefinitions standard_looksAtFaces
  have leaves := isNormal_iff_leaves.mp normal inner within
  have inherited := Node.inherited_isPlain.and (Node.inherited_within origin)
  have plain := readProgram_isPlain reads origin amongRead
  exact ⟨leaves.applies_eq_false,
    walks.inherits_passed inherited ⟨plain, Node.within_self _ origin⟩ inner within⟩

/-- The variables of `let a={const b=f(c)}` are made, and the arguments of the message stay. -/
theorem standard_readAndWalk_normal_let :
    ∃ program log read,
      standard.readAndWalk .standard .standard none "let a={const b=f(c)}".toList #[] =
        .ok program log ∧
      readProgram .standard none "let a={const b=f(c)}".toList = .ok read ∧
      program.forms.length = 1 ∧
      ∀ form ∈ program.forms, ∃ origin ∈ read.forms,
        ∀ inner, Node.Within Node.reached inner form →
          standard.applies inner = false ∧
            ∀ other ∈ inner.passed, other.IsPlain ∧ Node.Within Node.contents other origin := by
  have succeeds : succeedsWith (fun program => decide (program.forms.length = 1))
      (standard.readAndWalk .standard .standard none "let a={const b=f(c)}".toList #[]) = true := by
    decide +kernel
  obtain ⟨program, log, done, one⟩ := exists_of_succeedsWith succeeds
  obtain ⟨read, reads, normal⟩ := standard_readAndWalk_normal done
  exact ⟨program, log, read, done, reads, of_decide_eq_true one, normal⟩

/-- The text is read and walked without a report, and a form that the table applies to is left. -/
def LeavesForm (text : Text) : Prop :=
  ∃ program log, standard.readAndWalk .standard .standard none text #[] = .ok program log ∧
    program.diagnostics = [] ∧ ∃ form ∈ program.forms, form.Holds standard.applies

theorem leavesForm_of_succeeds {text : Text}
    (succeeds : succeedsWith (fun program => program.diagnostics.isEmpty &&
        decide (∃ form ∈ program.forms, form.Holds standard.applies))
      (standard.readAndWalk .standard .standard none text #[]) = true) : LeavesForm text := by
  obtain ⟨program, log, done, passes⟩ := exists_of_succeedsWith succeeds
  simp only [Bool.and_eq_true, List.isEmpty_iff, decide_eq_true_eq] at passes
  exact ⟨program, log, done, passes⟩

/-- As an argument, as a receiver, inside of what a class extends and inside of an access modifier
a variable is not made. -/
theorem standard_readAndWalk_leaves :
    LeavesForm "f(let a=b)".toList ∧ LeavesForm "f.g let a=b".toList ∧
      LeavesForm "class c extends()(let a=b)".toList ∧ LeavesForm "(let a=b)class c".toList := by
  refine ⟨?_, ?_, ?_, ?_⟩
  all_goals
    apply leavesForm_of_succeeds
    decide +kernel

end MacroTable

end MessageForms
