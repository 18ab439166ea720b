import Mathlib.Data.List.Forall2
import MessageForms.Proofs.Expansion.Unfolding

set_option autoImplicit false

/-! What a walk comes to, as a relation of trees. The log has no part in it, so one run of a walk
says what every run comes to. A walk puts a definition in the place of a node or keeps it, and
relates the children that the node then has to those of the result, one by one; what each such step
preserves is true of every walk. -/

namespace MessageForms

/-! ### The log -/

/-- What the run comes to once, it comes to whatever the log holds. -/
def IgnoresLog {α : Type} (run : Expanding α) : Prop :=
  ∀ log result after, run log = .ok result after → Comes run (.ok result)

section IgnoresLog

variable {α β : Type} {run : Expanding α} {next : α → Expanding β}

theorem ignoresLog_pure (value : α) : IgnoresLog (pure value) := by
  intro log result after done
  cases done
  exact comes_pure value

theorem ignoresLog_throw (fault : Fault) : IgnoresLog (throw fault : Expanding α) := by
  intro log result after done
  cases done

theorem IgnoresLog.bind (ignores : IgnoresLog run) (others : ∀ value, IgnoresLog (next value)) :
    IgnoresLog (run >>= next) := by
  intro log result after done
  obtain ⟨value, middle, first, rest⟩ := exists_of_bind_ok done
  exact (ignores log value middle first).bind (others value middle result after rest)

end IgnoresLog

namespace MacroTable

section Logs

variable (table : MacroTable)

theorem ignoresLog_expandOnce (node : Node) : IgnoresLog (table.expandOnce node) := by
  rcases expandOnce_cases table node with ⟨-, same⟩ | ⟨fault, -, same⟩ | ⟨next, entry, -, taken⟩
  · rw [same]
    exact ignoresLog_pure none
  · rw [same]
    exact ignoresLog_throw fault
  · intro log outcome after done
    rw [taken] at done
    cases done
    exact fun other => ⟨_, taken other⟩

theorem ignoresLog_expandUpTo (exceeded : Fault) (allowed : Nat) (node : Node) :
    IgnoresLog (table.expandUpTo exceeded allowed node) := by
  induction allowed generalizing node with
  | zero =>
      rw [expandUpTo]
      apply (table.ignoresLog_expandOnce node).bind
      intro step
      cases step with
      | none => exact ignoresLog_pure none
      | some next => exact ignoresLog_throw exceeded
  | succ allowed ih =>
      rw [expandUpTo]
      apply (table.ignoresLog_expandOnce node).bind
      intro step
      cases step with
      | none => exact ignoresLog_pure none
      | some next => exact (ih next).bind fun final => ignoresLog_pure _

theorem ignoresLog_expandAll (limit : StepLimit) (patience : Nat) (node : Node) :
    IgnoresLog (table.expandAll limit patience node) := by
  obtain ⟨exceeded, same⟩ := exists_expandAll_eq table limit patience node
  rw [same]
  exact table.ignoresLog_expandUpTo exceeded _ node

theorem ignoresLog_walkEach {walk : Node → Expanding (Option Node)}
    (ignores : ∀ node, IgnoresLog (walk node)) (nodes : List Node) :
    IgnoresLog (walkEach walk nodes) := by
  induction nodes with
  | nil => exact ignoresLog_pure none
  | cons node others ih =>
      apply (ignores node).bind
      intro walked
      apply ih.bind
      intro walkedOthers
      cases walked <;> cases walkedOthers <;> exact ignoresLog_pure _

theorem ignoresLog_walkWithin (limit : StepLimit) (allowance : Nat) (node : Node) :
    IgnoresLog (table.walkWithin limit allowance node) := by
  induction allowance generalizing node with
  | zero => exact ignoresLog_throw .exhausted
  | succ allowance ih =>
      rw [walkWithin]
      apply (table.ignoresLog_expandAll limit allowance node).bind
      intro expanded
      rw [walkChildren_eq_walkEach]
      apply IgnoresLog.bind
      · exact (ignoresLog_walkEach ih _).bind fun walked => ignoresLog_pure _
      · exact fun rebuilt => ignoresLog_pure _

theorem ignoresLog_walk (limit : StepLimit) (node : Node) : IgnoresLog (table.walk limit node) :=
  table.ignoresLog_walkWithin limit (patience node) node

end Logs

/-! ### Steps -/

theorem exists_partner {α β : Type} {related : α → β → Prop} {left : List α} {right : List β}
    (pairs : List.Forall₂ related left right) {item : β} (among : item ∈ right) :
    ∃ partner ∈ left, related partner item := by
  induction pairs with
  | nil => cases among
  | cons pair others ih =>
      rcases List.mem_cons.mp among with rfl | later
      · exact ⟨_, List.mem_cons_self, pair⟩
      · obtain ⟨partner, amongLeft, isRelated⟩ := ih later
        exact ⟨partner, List.mem_cons_of_mem _ amongLeft, isRelated⟩

def Leaves (table : MacroTable) (node : Node) : Prop :=
  ∀ modifiers position, node = .macroForm modifiers position → table.find? modifiers = none

/-- What one expansion makes of a node: the node itself if the table leaves it, and otherwise what
the expander makes of the form. -/
inductive Expands (table : MacroTable) : Node → Node → Prop where
  | kept {node : Node} (leaves : table.Leaves node) : Expands table node node
  | made {modifiers : List Node} {position : Position} {expander : Expander} {definition : Node}
      (found : table.find? modifiers = some expander)
      (made : expander.expand { modifiers, position } = .ok (some definition)) :
      Expands table (.macroForm modifiers position) definition

/-- A walk of the node comes to the result. -/
def WalksTo (table : MacroTable) (limit : StepLimit) (node result : Node) : Prop :=
  ∃ walked, Comes (table.walk limit node) (.ok walked) ∧ walked.getD node = result

variable {table : MacroTable} {limit : StepLimit}

theorem walksTo_of_walk {node : Node} {log after : Array LogEntry} {walked : Option Node}
    (done : table.walk limit node log = .ok walked after) :
    table.WalksTo limit node (walked.getD node) :=
  ⟨walked, table.ignoresLog_walk limit node log walked after done, rfl⟩

theorem leaves_of_ne_macroForm {node : Node}
    (other : ∀ modifiers position, node ≠ .macroForm modifiers position) : table.Leaves node :=
  fun modifiers position same => (other modifiers position same).elim

theorem walksTo_of_walkEach {nodes : List Node} {log after : Array LogEntry}
    {walked : Option (List Node)}
    (done : walkEach (table.walk limit) nodes log = .ok walked after) :
    List.Forall₂ (table.WalksTo limit) nodes (walked.getD nodes) := by
  induction nodes generalizing log after walked with
  | nil =>
      cases done
      exact .nil
  | cons node others ih =>
      obtain ⟨first, middle, doneFirst, rest⟩ := exists_of_bind_ok done
      obtain ⟨further, last, doneOthers, final⟩ := exists_of_bind_ok rest
      have step := walksTo_of_walk doneFirst
      have steps := ih doneOthers
      cases first <;> cases further <;> cases final <;> exact .cons step steps

section Makes

variable (makes : table.MakesDefinitions)

include makes

theorem expands_of_expandOnce {node : Node} {log after : Array LogEntry} {expanded : Option Node}
    (done : table.expandOnce node log = .ok expanded after) :
    table.Expands node (expanded.getD node) := by
  cases node with
  | macroForm modifiers position =>
      rw [expandOnce] at done
      cases found : table.find? modifiers with
      | none =>
          rw [found] at done
          cases done
          apply Expands.kept
          intro inner place same
          cases same
          exact found
      | some expander =>
          simp only [found] at done
          rcases makes.expands modifiers position expander found with
            ⟨definition, made, -⟩ | ⟨problem, failed⟩
          · rw [made] at done
            cases done
            exact .made found made
          · rw [failed] at done
            cases done
  | _ =>
      cases done
      apply Expands.kept
      apply leaves_of_ne_macroForm
      intro modifiers position same
      cases same

theorem WalksTo.exists_step {node result : Node} (walks : table.WalksTo limit node result) :
    ∃ expanded children, table.Expands node expanded ∧ expanded.weight ≤ node.weight ∧
      List.Forall₂ (table.WalksTo limit) expanded.reached children ∧
      expanded.withReached children = result := by
  obtain ⟨walked, comes, same⟩ := walks
  obtain ⟨after, done⟩ := comes #[]
  rw [walk_eq makes] at done
  obtain ⟨step, middle, first, rest⟩ := exists_of_bind_ok done
  obtain ⟨rebuilt, last, second, final⟩ := exists_of_bind_ok rest
  rw [walkChildren_eq_walkEach] at second
  obtain ⟨children, _, each, built⟩ := exists_of_bind_ok second
  have expands := expands_of_expandOnce makes (expandOnce_of_expandAll makes Nat.one_pos first)
  have lighter := makes.growsNothing.weight_le_of_expandAll first
  refine ⟨_, _, expands, lighter, walksTo_of_walkEach each, ?_⟩
  cases built
  cases final
  cases children with
  | some inner => exact same
  | none =>
      rw [Option.getD_none, Node.withReached_reached]
      exact same

/-- What every step preserves is true of every walk. The induction is on the weight of the node,
since what is walked next stands in the definition and not in the node itself. -/
theorem WalksTo.induct {motive : Node → Node → Prop}
    (step : ∀ node expanded children, table.Expands node expanded →
      List.Forall₂ (table.WalksTo limit) expanded.reached children →
      List.Forall₂ motive expanded.reached children →
      motive node (expanded.withReached children))
    {node result : Node} (walks : table.WalksTo limit node result) : motive node result := by
  induction size : node.weight using Nat.strongRecOn generalizing node result with
  | ind weight ih =>
      obtain ⟨expanded, children, expands, lighter, walked, rfl⟩ := walks.exists_step makes
      have below : ∀ child ∈ expanded.reached, child.weight < weight := by
        intro child among
        have lighterChild := Node.weight_lt_of_reached among
        omega
      apply step node expanded children expands walked
      apply ((List.forall₂_and_left _ _).mpr ⟨below, walked⟩).imp
      rintro child walkedChild ⟨lighterChild, walksChild⟩
      exact ih child.weight lighterChild walksChild rfl

end Makes

end MacroTable

end MessageForms
