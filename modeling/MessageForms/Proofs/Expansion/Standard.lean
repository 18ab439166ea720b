import MessageForms.Expansion.Standard
import MessageForms.Proofs.Definition.Bounded
import MessageForms.Proofs.Definition.Division
import MessageForms.Proofs.Expansion.Follows

set_option autoImplicit false

/-! The standard table makes definitions. Which expander takes a form is settled by names, and an
expander is only ever given a form with the keywords that it looks for. -/

namespace MessageForms

/-! ### The expanders -/

namespace Expander

variable (labels : Relabeling)

theorem lexicalVariable_applies_relabel (modifiers : List Node) :
    lexicalVariable.applies (modifiers.map (·.relabel labels)) =
      lexicalVariable.applies modifiers := by
  change (modifiers.map _).any _ = modifiers.any _
  simp only [List.any_map, Function.comp_def, Node.writeKeyword?_relabel]

theorem classDefinition_applies_relabel (modifiers : List Node) :
    classDefinition.applies (modifiers.map (·.relabel labels)) =
      classDefinition.applies modifiers :=
  Node.hasModifierNamed_relabel labels Keyword.classWord modifiers

theorem methodDefinition_applies_relabel (modifiers : List Node) :
    methodDefinition.applies (modifiers.map (·.relabel labels)) =
      methodDefinition.applies modifiers := by
  change looksLikeMethod (modifiers.map _) = looksLikeMethod modifiers
  simp only [looksLikeMethod, List.length_map, List.head?_map, List.getLast?_map, Option.any_map,
    Node.name?_relabel, Node.isBraced_relabel]

theorem outcome_toNode {α : Type} {labels : Relabeling} {relabel : α → α} {toNode : α → Node}
    (same : ∀ definition, toNode (relabel definition) = (toNode definition).relabel labels)
    (outcome : Except Fault α) :
    (labels.outcome relabel outcome).map (fun definition => some (toNode definition)) =
      labels.outcome (Option.map (·.relabel labels))
        (outcome.map fun definition => some (toNode definition)) := by
  cases outcome with
  | ok definition => exact congrArg (fun node => Except.ok (some node)) (same definition)
  | error fault => rfl

end Expander

/-! ### The table -/

namespace MacroTable

theorem standard_find?_cases {modifiers : List Node} {expander : Expander}
    (found : standard.find? modifiers = some expander) :
    (expander = .lexicalVariable ∧ modifiers.any (·.writeKeyword?.isSome) = true) ∨
      (expander = .classDefinition ∧
        MacroForm.hasModifierNamed Keyword.classWord modifiers = true) ∨
      (expander = .methodDefinition ∧
        MacroForm.hasModifierNamed Keyword.classWord modifiers = false) := by
  simp only [find?, standard, List.find?_cons] at found
  cases isVariable : Expander.lexicalVariable.applies modifiers with
  | true =>
      rw [isVariable] at found
      cases found
      exact .inl ⟨rfl, isVariable⟩
  | false =>
      rw [isVariable] at found
      cases isClass : Expander.classDefinition.applies modifiers with
      | true =>
          rw [isClass] at found
          cases found
          exact .inr (.inl ⟨rfl, isClass⟩)
      | false =>
          rw [isClass] at found
          cases method : Expander.methodDefinition.applies modifiers with
          | true =>
              rw [method] at found
              cases found
              exact .inr (.inr ⟨rfl, isClass⟩)
          | false =>
              rw [method] at found
              cases found

/-- What an expander of the standard table makes of a form that it is given: a definition, or a
problem inside of the form. -/
theorem standard_expands {modifiers : List Node} {expander : Expander} (position : Position)
    (found : standard.find? modifiers = some expander) :
    (∃ replacement, expander.expand { modifiers, position } = .ok (some replacement) ∧
      Settled modifiers replacement) ∨
    ∃ problem, expander.expand { modifiers, position } = .error (.problem problem) ∧
      problem.complaint.IsInForm ∧ problem.position.isSome = true := by
  have settles {α : Type} {heavy : α → Nat} {toNode : α → Node} {outcome : Except Fault α}
      (bounded : Bounded heavy (Node.weights modifiers) outcome)
      (final : ∀ definition inner position, toNode definition ≠ .macroForm inner position)
      (weight : ∀ definition, (toNode definition).weight = 1 + heavy definition) :
      (∃ replacement, outcome.map (fun definition => some (toNode definition)) =
          .ok (some replacement) ∧ Settled modifiers replacement) ∨
        ∃ problem, outcome.map (fun definition => some (toNode definition)) =
          .error (.problem problem) ∧ problem.complaint.IsInForm ∧
            problem.position.isSome = true := by
    cases outcome with
    | ok definition =>
        refine .inl ⟨_, rfl, final definition, ?_⟩
        rw [weight]
        exact Nat.add_le_add_left bounded 1
    | error fault =>
        cases fault with
        | problem problem => exact .inr ⟨problem, rfl, bounded⟩
        | _ => exact bounded.elim
  rcases standard_find?_cases found with ⟨rfl, writes⟩ | ⟨rfl, isClass⟩ | ⟨rfl, other⟩
  · exact settles (LexicalVariable.bounded_ofForm writes) (fun _ _ _ => nofun) fun _ => rfl
  · exact settles (ClassDefinition.bounded_ofForm isClass) (fun _ _ _ => nofun) fun _ => rfl
  · exact settles (MethodDefinition.bounded_ofForm other) (fun _ _ _ => nofun) fun _ => rfl

theorem standard_makes {modifiers : List Node} {position : Position} {expander : Expander}
    {definition : Node} (found : standard.find? modifiers = some expander)
    (made : expander.expand { modifiers, position } = .ok (some definition)) :
    MacroForm.Makes { modifiers, position } definition := by
  have built {α : Type} {outcome : Except Fault α} {toNode : α → Node}
      (done : outcome.map (fun definition => some (toNode definition)) = .ok (some definition)) :
      ∃ value, outcome = .ok value ∧ toNode value = definition := by
    cases outcome with
    | error fault => cases done
    | ok value =>
        cases done
        exact ⟨value, rfl, rfl⟩
  rcases standard_find?_cases found with ⟨rfl, -⟩ | ⟨rfl, -⟩ | ⟨rfl, -⟩
  · obtain ⟨value, done, rfl⟩ := built made
    exact .lexicalVariable done
  · obtain ⟨value, done, rfl⟩ := built made
    exact .classDefinition done
  · obtain ⟨value, done, rfl⟩ := built made
    exact .methodDefinition done

theorem standard_makesDefinitions : standard.MakesDefinitions where
  find?_relabel labels modifiers := by
    simp only [find?, standard, List.find?_cons, Expander.lexicalVariable_applies_relabel,
      Expander.classDefinition_applies_relabel, Expander.methodDefinition_applies_relabel,
      List.find?_nil]
  expand_relabel labels form expander among := by
    simp only [standard, List.mem_cons, List.not_mem_nil, or_false] at among
    rcases among with rfl | rfl | rfl
    · change (LexicalVariable.ofForm (form.relabel labels)).map _ = _
      rw [LexicalVariable.ofForm_relabel]
      exact Expander.outcome_toNode (LexicalVariable.toNode_relabel labels) _
    · change (ClassDefinition.ofForm (form.relabel labels)).map _ = _
      rw [ClassDefinition.ofForm_relabel]
      exact Expander.outcome_toNode (ClassDefinition.toNode_relabel labels) _
    · change (MethodDefinition.ofForm (form.relabel labels)).map _ = _
      rw [MethodDefinition.ofForm_relabel]
      exact Expander.outcome_toNode (MethodDefinition.toNode_relabel labels) _
  expands modifiers position expander found := by
    rcases standard_expands position found with settled | ⟨problem, failed, -⟩
    · exact .inl settled
    · exact .inr ⟨problem, failed⟩

end MacroTable

def Problem.IsOfDefinition (problem : Problem) : Prop :=
  ∃ form : MacroForm, LexicalVariable.ofForm form = .error (.problem problem) ∨
    ClassDefinition.ofForm form = .error (.problem problem) ∨
    MethodDefinition.ofForm form = .error (.problem problem)

theorem MacroTable.Raises.isInForm {problem : Problem}
    (raises : MacroTable.standard.Raises problem) : (Fault.problem problem).IsInForm := by
  obtain ⟨modifiers, position, expander, found, failed⟩ := raises
  rcases MacroTable.standard_expands position found with ⟨_, expanded, -⟩ | ⟨_, again, inForm⟩
  · rw [failed] at expanded
    cases expanded
  · rw [failed] at again
    cases again
    exact inForm

theorem MacroTable.Raises.isOfDefinition {problem : Problem}
    (raises : MacroTable.standard.Raises problem) :
    problem.IsOfDefinition ∧ problem.complaint.IsInForm := by
  have raised {α : Type} {toNode : α → Node} {outcome : Except Fault α}
      (failed : outcome.map (fun definition => some (toNode definition)) =
        .error (.problem problem)) : outcome = .error (.problem problem) := by
    cases outcome with
    | ok definition => cases failed
    | error fault =>
        cases failed
        rfl
  refine ⟨?_, raises.isInForm.1⟩
  obtain ⟨modifiers, position, expander, found, failed⟩ := raises
  refine ⟨{ modifiers, position }, ?_⟩
  rcases MacroTable.standard_find?_cases found with ⟨rfl, -⟩ | ⟨rfl, -⟩ | ⟨rfl, -⟩
  · exact .inl (raised failed)
  · exact .inr (.inl (raised failed))
  · exact .inr (.inr (raised failed))

end MessageForms
