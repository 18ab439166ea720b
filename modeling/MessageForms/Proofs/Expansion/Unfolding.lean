import MessageForms.Proofs.Expansion.Finishing
import MessageForms.Proofs.Expansion.Walked

set_option autoImplicit false

/-! A walk expands a node and then walks the children that expansion goes into. With a table that
makes definitions this holds of walks as such: chains have one step at most, so neither the limit nor
the allowance shows in what a walk comes to. -/

namespace MessageForms.MacroTable

variable {table : MacroTable} (makes : table.MakesDefinitions)

include makes

theorem MakesDefinitions.growsNothing : table.GrowsNothing := by
  intro modifiers position expander result found made
  rcases makes.expands modifiers position expander found with
    ⟨replacement, done, settled⟩ | ⟨problem, failed⟩
  · rw [made] at done
    cases done
    exact settled.lighter
  · rw [made] at failed
    cases failed

theorem MakesDefinitions.step_of_replaced {node next : Node}
    (replaced : table.step node = .ok (some next)) : table.step next = .ok none := by
  obtain ⟨entry, taken⟩ := exists_expandOnce_of_replaced replaced
  have final := (settled_of_expandOnce makes (taken #[])).1
  cases next with
  | macroForm modifiers position => exact (final modifiers position rfl).elim
  | _ => rfl

theorem MakesDefinitions.steps_le_one {steps : Nat} {node last : Node}
    (replaces : table.Replaces steps node last) : steps ≤ 1 := by
  cases replaces with
  | start => exact Nat.zero_le 1
  | more replaced others =>
      cases others with
      | start => exact Nat.le_refl 1
      | more again _ =>
          rw [makes.step_of_replaced replaced] at again
          cases again

theorem MakesDefinitions.chainsEnd (limit : StepLimit) : table.ChainsEnd 1 limit := by
  cases limit with
  | atMost replacements => trivial
  | unlimited => exact fun _ _ _ => makes.steps_le_one

theorem expandOnce_of_expandAll {limit : StepLimit} {patience : Nat} (patient : 0 < patience)
    {node : Node} {log after : Array LogEntry} {expanded : Option Node}
    (done : table.expandAll limit patience node log = .ok expanded after) :
    table.expandOnce node log = .ok expanded after := by
  by_cases allowed : limit.AllowsOne
  · rw [expandAll_eq_expandOnce makes allowed patient] at done
    exact done
  · cases limit with
    | unlimited => exact (allowed trivial).elim
    | atMost replacements =>
        have none_left : replacements.toNat = 0 := by
          have few : ¬ 1 ≤ replacements := allowed
          omega
        rw [expandAll, none_left, expandUpTo] at done
        obtain ⟨step, middle, first, rest⟩ := exists_of_bind_ok done
        cases step with
        | some next => cases rest
        | none =>
            cases rest
            exact first

theorem walk_eq (limit : StepLimit) (node : Node) :
    table.walk limit node = do
      let expanded ← table.expandAll limit 1 node
      let rebuilt ← walkChildren (table.walk limit) (expanded.getD node)
      return rebuilt.or expanded :=
  walk_eq_of_growsNothing makes.growsNothing (makes.chainsEnd limit) (by decide) node

end MessageForms.MacroTable
