import MessageForms.Expansion.Recipe
import MessageForms.Proofs.Expansion.Standard
import MessageForms.Proofs.Expansion.Unfolding

set_option autoImplicit false

/-! Walks end. Under a limit this takes no more than a table that makes no form heavier; it can still
put forms in the place of forms. The standard table makes definitions, which are not expanded again,
so its walks end without a limit, and any limit that allows one replacement is like none. -/

namespace MessageForms

/-! ### What is made of a form is no heavier -/

theorem Bounded.le_of_ok {α : Type} {heavy : α → Nat} {bound : Nat} {outcome : Except Fault α}
    {value : α} (bounded : Bounded heavy bound outcome) (made : outcome = .ok value) :
    heavy value ≤ bound := by
  rw [made] at bounded
  exact bounded

theorem ClassDefinition.Division.isClass {definition : ClassDefinition} {keyword signature : Node}
    {arguments extension own block : List Node}
    (division : definition.Division keyword signature arguments extension own block) :
    definition.form.isClass = true := by
  unfold MacroForm.isClass MacroForm.hasModifierNamed
  rw [division.modifiers_eq, List.any_eq_true]
  exact ⟨keyword, by simp, by simp [division.keyword_name]⟩

theorem LexicalVariable.Division.writes {definition : LexicalVariable} {access : List Node}
    {keyword name assignment : Node} (division : definition.Division access keyword name assignment) :
    definition.form.modifiers.any (·.writeKeyword?.isSome) = true := by
  rw [division.modifiers_eq, List.any_eq_true]
  exact ⟨keyword, by simp, by simp [division.keyword_eq]⟩

/-- A builder gives no definition that is heavier than its form, whichever form it is given. -/
theorem MacroForm.Makes.weight_le {form : MacroForm} {definition : Node}
    (makes : form.Makes definition) : definition.weight ≤ form.toNode.weight := by
  cases makes with
  | @classDefinition definition made =>
      obtain ⟨rfl, _, _, _, _, _, _, division⟩ := ClassDefinition.exists_division made
      have bounded := ClassDefinition.bounded_ofForm division.isClass
      exact Nat.add_le_add_left (bounded.le_of_ok made) 1
  | @methodDefinition definition made =>
      obtain ⟨rfl, _, _, _, _, division⟩ := MethodDefinition.exists_division made
      have bounded := MethodDefinition.bounded_ofForm division.other
      exact Nat.add_le_add_left (bounded.le_of_ok made) 1
  | @lexicalVariable definition made =>
      obtain ⟨rfl, _, _, _, _, division⟩ := LexicalVariable.exists_division made
      have bounded := LexicalVariable.bounded_ofForm division.writes
      exact Nat.add_le_add_left (bounded.le_of_ok made) 1

namespace MacroTable

/-! ### Limits that allow one replacement -/

section Limits

variable {table : MacroTable} (makes : table.MakesDefinitions) {limit limit' : StepLimit}

include makes

/-- Limits that allow one replacement make no difference to a walk. -/
theorem walk_eq_of_allowsOne (allowed : limit.AllowsOne) (allowed' : limit'.AllowsOne)
    (node : Node) : table.walk limit node = table.walk limit' node := by
  induction size : node.weight using Nat.strongRecOn generalizing node with
  | ind weight ih =>
      have chain : table.expandAll limit 1 node = table.expandAll limit' 1 node := by
        rw [expandAll_eq_expandOnce makes allowed Nat.one_pos,
          expandAll_eq_expandOnce makes allowed' Nat.one_pos]
      rw [walk_eq makes limit, walk_eq makes limit', chain]
      funext log
      apply bind_congr_of_ok
      intro expanded after done
      have lighter := makes.growsNothing.weight_le_of_expandAll done
      have same : walkChildren (table.walk limit) (expanded.getD node) =
          walkChildren (table.walk limit') (expanded.getD node) := by
        apply walkChildren_congr
        intro child among
        have inside := Node.weight_lt_of_reached among
        exact ih child.weight (by omega) child rfl
      rw [same]

end Limits

/-! ### Walks that end -/

/-- Under any limit in numbers, walks end with every table that makes no form heavier. The standard
table is one, as its builders are; with it walks end without a limit, no node is replaced more than
once, and a limit that allows one replacement is like none. -/
theorem walk_terminates :
    (∀ table : MacroTable, table.GrowsNothing → ∀ replacements node,
      table.WalkEnds (.atMost replacements) 0 node) ∧
    (∀ (form : MacroForm) definition, form.Makes definition →
      definition.weight ≤ form.toNode.weight) ∧
    standard.GrowsNothing ∧
    (∀ node, standard.WalkEnds .unlimited 1 node) ∧
    (∀ steps node last, standard.Replaces steps node last → steps ≤ 1) ∧
    ∀ limit : StepLimit, limit.AllowsOne → ∀ node,
      standard.walk limit node = standard.walk .unlimited node := by
  have makes := standard_makesDefinitions
  refine ⟨?_, ?_, makes.growsNothing, ?_, ?_, ?_⟩
  · intro table grows replacements node
    have ends : table.ChainsEnd 0 (.atMost replacements) := trivial
    exact walkEnds grows ends (Nat.zero_le longChain) node
  · intro form definition made
    exact made.weight_le
  · intro node
    exact walkEnds makes.growsNothing (makes.chainsEnd .unlimited) (by decide) node
  · intro steps node last replaces
    exact makes.steps_le_one replaces
  · intro limit allowed node
    have unlimited : StepLimit.unlimited.AllowsOne := trivial
    exact walk_eq_of_allowsOne makes allowed unlimited node

/-- A table that takes the first modifier away, as long as there are others, makes no form heavier.
Its walk ends within a form too, where it finds another one. -/
theorem walk_terminates_dropping :
    let table : MacroTable := { expanders := [.ofRecipe [] (.atLeast 2) .dropFirst] }
    let word (character : Char) : Node := .atom ⟨.symbol [character], ⟨0, 0⟩⟩
    let nested : Node := .macroForm [word 'y', word 'z'] ⟨0, 3⟩
    let form : Node := .macroForm [word 'x', .braced [nested] ⟨0, 2⟩] ⟨0, 0⟩
    table.GrowsNothing ∧ table.WalkEnds (.atMost 2) 0 form ∧
      table.walk (.atMost 2) form #[] =
        .ok (some (.macroForm [.braced [.macroForm [word 'z'] ⟨0, 3⟩] ⟨0, 2⟩] ⟨0, 0⟩))
          #[⟨[], ⟨0, 0⟩, "MacroForm".toList⟩, ⟨[], ⟨0, 3⟩, "MacroForm".toList⟩] := by
  intro table word nested form
  have grows : table.GrowsNothing := by
    intro modifiers position expander result found made
    cases List.mem_singleton.mp (List.mem_of_find?_eq_some found)
    cases made
    cases modifiers with
    | nil => exact Nat.le_refl _
    | cons first others =>
        change 1 + Node.weights others ≤ 1 + (first.weight + Node.weights others)
        omega
  have ends := walk_terminates.1 table grows 2 form
  refine ⟨grows, ends, ?_⟩
  rw [← (ends 6 (by decide)).same]
  rfl

end MacroTable

end MessageForms
