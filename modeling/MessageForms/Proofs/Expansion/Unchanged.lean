import MessageForms.Expansion.Standard
import MessageForms.Proofs.Expansion.Finishing

set_option autoImplicit false

/-! What a walk leaves as it is. Each replacement is logged, and a chain of replacements does not
come back to the node that it started from, so a walk keeps a node if and only if it logs nothing.
A node that is not replaced itself is made anew from the walks of its children, and of these each
that logs nothing keeps its child. -/

namespace MessageForms

/-! ### Logged replacements -/

/-- The run adds to the log, and it keeps what it is given exactly if it adds nothing. -/
def LogsChanges {α : Type} (run : Expanding (Option α)) : Prop :=
  ∀ log found after, run log = .ok found after →
    ∃ entries, after = log ++ entries ∧ (found = none ↔ entries = #[])

section LogsChanges

variable {α β : Type} {run : Expanding (Option α)}

theorem logsChanges_pure_none : LogsChanges (pure none : Expanding (Option α)) := by
  intro log found after done
  cases done
  exact ⟨#[], Array.append_empty.symm, by simp⟩

theorem logsChanges_throw (fault : Fault) : LogsChanges (throw fault : Expanding (Option α)) := by
  intro log found after done
  cases done

theorem LogsChanges.bind (logs : LogsChanges run) {next : Option α → Expanding (Option β)}
    (others : ∀ found log last after, next found log = .ok last after →
      ∃ entries, after = log ++ entries ∧ (last = none ↔ found = none ∧ entries = #[])) :
    LogsChanges (run >>= next) := by
  intro log last after done
  obtain ⟨found, middle, first, rest⟩ := exists_of_bind_ok done
  obtain ⟨entries, rfl, kept⟩ := logs log found middle first
  obtain ⟨further, rfl, keptBoth⟩ := others found _ last after rest
  refine ⟨entries ++ further, Array.append_assoc, ?_⟩
  rw [Array.append_eq_empty_iff, ← kept, keptBoth]

theorem LogsChanges.map (logs : LogsChanges run) (build : α → β) :
    LogsChanges (do return (← run).map build) := by
  apply logs.bind
  intro found log last after done
  cases done
  exact ⟨#[], Array.append_empty.symm, by simp⟩

theorem LogsChanges.kept_iff (logs : LogsChanges run) {log after : Array LogEntry}
    {found : Option α} (done : run log = .ok found after) : found = none ↔ after = log := by
  obtain ⟨entries, rfl, kept⟩ := logs log found after done
  rw [kept, Array.append_right_eq_self]

end LogsChanges

/-- The walk of one node: what it came to, and the log before and after. -/
structure Visit where
  node : Node
  walked : Option Node
  before : Array LogEntry
  after : Array LogEntry

def Visit.result (visit : Visit) : Node :=
  visit.walked.getD visit.node

/-- Walks in a row, each with the log that the one before has left. -/
inductive Visits (walk : Node → Expanding (Option Node)) :
    List Visit → Array LogEntry → Array LogEntry → Prop where
  | nil {log : Array LogEntry} : Visits walk [] log log
  | cons {visit : Visit} {others : List Visit} {after : Array LogEntry}
      (done : walk visit.node visit.before = .ok visit.walked visit.after)
      (rest : Visits walk others visit.after after) :
      Visits walk (visit :: others) visit.before after

/-- The result is the node around what the walks of its children come to. A child stays the same
exactly if its own walk logs nothing. -/
structure Rebuilds (walk : Node → Expanding (Option Node)) (node result : Node)
    (log after : Array LogEntry) : Prop where
  typeName : result.typeName = node.typeName
  position : result.position = node.position
  size : result.children.length = node.children.length
  around : result = node.withReached result.reached
  visits : ∃ visits, Visits walk visits log after ∧ visits.map Visit.node = node.reached ∧
    visits.map Visit.result = result.reached ∧
    ∀ visit ∈ visits, visit.walked = none ↔ visit.after = visit.before

namespace MacroTable

variable {table : MacroTable}

section Replacements

variable (table)

theorem logsChanges_expandOnce (node : Node) : LogsChanges (table.expandOnce node) := by
  rcases expandOnce_cases table node with ⟨-, same⟩ | ⟨fault, -, same⟩ | ⟨next, entry, -, taken⟩
  · rw [same]
    exact logsChanges_pure_none
  · rw [same]
    exact logsChanges_throw fault
  · intro log found after done
    rw [taken] at done
    cases done
    exact ⟨#[entry], Array.push_eq_append, by simp⟩

theorem logsChanges_expandUpTo (exceeded : Fault) (allowed : Nat) (node : Node) :
    LogsChanges (table.expandUpTo exceeded allowed node) := by
  induction allowed generalizing node with
  | zero =>
      rw [expandUpTo]
      apply (table.logsChanges_expandOnce node).bind
      intro step log last after done
      cases step with
      | none =>
          cases done
          exact ⟨#[], Array.append_empty.symm, by simp⟩
      | some next => cases done
  | succ allowed ih =>
      rw [expandUpTo]
      apply (table.logsChanges_expandOnce node).bind
      intro step log last after done
      cases step with
      | none =>
          cases done
          exact ⟨#[], Array.append_empty.symm, by simp⟩
      | some next =>
          obtain ⟨final, _, further, rest⟩ := exists_of_bind_ok done
          cases rest
          obtain ⟨entries, same, -⟩ := ih next log final after further
          exact ⟨entries, same, by simp⟩

theorem logsChanges_expandAll (limit : StepLimit) (patience : Nat) (node : Node) :
    LogsChanges (table.expandAll limit patience node) := by
  obtain ⟨exceeded, same⟩ := exists_expandAll_eq table limit patience node
  rw [same]
  exact table.logsChanges_expandUpTo exceeded _ node

/-- A chain ends with a node that it does not replace, so with another than the one it started
from, which it has replaced. -/
theorem ne_of_expandAll {limit : StepLimit} {patience : Nat} {node made : Node}
    {log after : Array LogEntry}
    (done : table.expandAll limit patience node log = .ok (some made) after) : made ≠ node := by
  obtain ⟨steps, replaces, stays, unchanged⟩ := exists_replaces_of_expandAll log done
  rw [Option.getD_some] at replaces stays
  rintro rfl
  cases replaces with
  | start => cases unchanged.mpr rfl
  | more replaced others =>
      rw [stays] at replaced
      cases replaced

end Replacements

/-! ### Walks -/

section Walks

variable {walk : Node → Expanding (Option Node)}

theorem logsChanges_walkEach (logs : ∀ node, LogsChanges (walk node)) (nodes : List Node) :
    LogsChanges (walkEach walk nodes) := by
  induction nodes with
  | nil => exact logsChanges_pure_none
  | cons node others ih =>
      apply (logs node).bind
      intro walked log last after done
      obtain ⟨walkedOthers, later, further, rest⟩ := exists_of_bind_ok done
      obtain ⟨entries, same, kept⟩ := ih log walkedOthers later further
      have both : after = later ∧ (last = none ↔ walked = none ∧ walkedOthers = none) := by
        cases walked <;> cases walkedOthers <;> cases rest <;> simp
      refine ⟨entries, both.1.trans same, ?_⟩
      rw [both.2, kept]

theorem logsChanges_walkChildren (logs : ∀ node, LogsChanges (walk node)) (node : Node) :
    LogsChanges (walkChildren walk node) := by
  rw [walkChildren_eq_walkEach]
  exact (logsChanges_walkEach logs node.reached).map node.withReached

theorem logsChanges_walkWithin (table : MacroTable) (limit : StepLimit) (allowance : Nat)
    (node : Node) : LogsChanges (table.walkWithin limit allowance node) := by
  induction allowance generalizing node with
  | zero => exact logsChanges_throw .exhausted
  | succ allowance ih =>
      rw [walkWithin]
      apply (table.logsChanges_expandAll limit allowance node).bind
      intro expanded log last after done
      obtain ⟨rebuilt, _, further, rest⟩ := exists_of_bind_ok done
      obtain ⟨entries, same, kept⟩ :=
        logsChanges_walkChildren ih (expanded.getD node) log rebuilt _ further
      cases rest
      refine ⟨entries, same, ?_⟩
      rw [Option.or_eq_none_iff, kept, and_comm]

theorem exists_visits_of_walkEach {nodes : List Node} {log after : Array LogEntry}
    {walked : Option (List Node)} (done : walkEach walk nodes log = .ok walked after) :
    ∃ visits, Visits walk visits log after ∧ visits.map Visit.node = nodes ∧
      visits.map Visit.result = walked.getD nodes := by
  induction nodes generalizing log after walked with
  | nil =>
      cases done
      exact ⟨[], .nil, rfl, rfl⟩
  | cons node others ih =>
      obtain ⟨first, middle, doneFirst, rest⟩ := exists_of_bind_ok done
      obtain ⟨further, last, doneOthers, final⟩ := exists_of_bind_ok rest
      obtain ⟨visits, inOrder, rfl, results⟩ := ih doneOthers
      let visit : Visit := { node, walked := first, before := log, after := middle }
      have result : visit.result :: visits.map Visit.result =
          first.getD node :: further.getD (visits.map Visit.node) :=
        congrArg (visit.result :: ·) results
      cases first <;> cases further <;> cases final <;>
        exact ⟨visit :: visits, .cons doneFirst inOrder, rfl, result⟩

theorem walked_iff_of_visits (logs : ∀ node, LogsChanges (walk node)) {visits : List Visit}
    {log after : Array LogEntry} (inOrder : Visits walk visits log after) :
    ∀ visit ∈ visits, visit.walked = none ↔ visit.after = visit.before := by
  induction inOrder with
  | nil => exact nofun
  | @cons visit others after done rest ih =>
      intro other among
      rcases List.mem_cons.mp among with rfl | later
      · exact (logs other.node).kept_iff done
      · exact ih other later

theorem rebuilds_of_walkChildren (logs : ∀ node, LogsChanges (walk node)) {node result : Node}
    {log after : Array LogEntry}
    (done : walkChildren walk node log = .ok (some result) after) :
    Rebuilds walk node result log after := by
  rw [walkChildren_eq_walkEach] at done
  obtain ⟨walked, last, each, built⟩ := exists_of_bind_ok done
  obtain ⟨visits, inOrder, nodes, results⟩ := exists_visits_of_walkEach each
  cases walked with
  | none => cases built
  | some children =>
      cases built
      have results : visits.map Visit.result = children := results
      have sizes : children.length = node.reached.length := by
        rw [← results, ← nodes, List.length_map, List.length_map]
      have reached := Node.reached_withReached sizes
      refine ⟨?_, ?_, ?_, ?_, visits, inOrder, nodes, ?_, walked_iff_of_visits logs inOrder⟩
      · cases node <;> rfl
      · cases node <;> rfl
      · rw [Node.children, Node.children, reached, Node.passed_withReached, List.length_append,
          List.length_append, sizes]
      · rw [reached]
      · rw [reached, results]

end Walks

/-! ### What stays the same -/

/-- A walk adds to the log, and keeps its node if and only if it adds nothing; a chain that replaces
the node ends with another one. If a node is not replaced itself and the walk does not keep it, it
is made anew in the same place around the same number of children, and of these the walk keeps
those whose own walk logs nothing. -/
theorem walkWithin_keeps_iff {limit : StepLimit} {allowance : Nat} {node : Node}
    {log after : Array LogEntry} {walked : Option Node}
    (done : table.walkWithin limit allowance node log = .ok walked after) :
    (∃ entries, after = log ++ entries ∧ (walked = none ↔ entries = #[])) ∧
    (∀ patience made middle,
      table.expandAll limit patience node log = .ok (some made) middle → made ≠ node) ∧
    ∀ result, table.step node = .ok none → walked = some result →
      ∃ less, allowance = less + 1 ∧
        Rebuilds (table.walkWithin limit less) node result log after := by
  refine ⟨logsChanges_walkWithin table limit allowance node log walked after done,
    fun patience made middle chain => table.ne_of_expandAll chain, ?_⟩
  rintro result stays rfl
  cases allowance with
  | zero => cases done
  | succ less =>
      rw [walkWithin, expandAll_of_stays stays] at done
      obtain ⟨expanded, start, kept, rest⟩ := exists_of_bind_ok done
      cases kept
      obtain ⟨rebuilt, last, children, built⟩ := exists_of_bind_ok rest
      cases rebuilt with
      | none => cases built
      | some other =>
          cases built
          exact ⟨less, rfl, rebuilds_of_walkChildren (logsChanges_walkWithin table limit less)
            children⟩

/-- In braces a variable is made of a form, and the word beside it is kept. -/
theorem walkWithin_keeps_iff_let :
    let form : Node := .macroForm [.word ['l', 'e', 't'] ⟨0, 2⟩, .word ['a'] ⟨0, 6⟩,
      .word ['='] ⟨0, 8⟩, .word ['b'] ⟨0, 10⟩] ⟨0, 2⟩
    let node : Node := .braced [form, .word ['c'] ⟨1, 0⟩] ⟨0, 0⟩
    ∃ result after, standard.walkWithin .standard 9 node #[] = .ok (some result) after ∧
      Rebuilds (standard.walkWithin .standard 8) node result #[] after := by
  intro form node
  have done : ∃ result after,
      standard.walkWithin .standard 9 node #[] = .ok (some result) after := ⟨_, _, rfl⟩
  obtain ⟨result, after, walked⟩ := done
  obtain ⟨less, spent, rebuilds⟩ := (walkWithin_keeps_iff walked).2.2 result rfl rfl
  obtain rfl := Nat.succ_injective spent
  exact ⟨result, after, walked, rebuilds⟩

end MacroTable

end MessageForms
