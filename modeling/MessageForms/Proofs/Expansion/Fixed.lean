import MessageForms.Proofs.Expansion.Forms

set_option autoImplicit false

/-! Walks of nodes that an exchange of labels leaves as they are. What such a node becomes, and what
is reported about it, are left as they are as well, whatever the limit: a walk takes its labels from
the nodes that it is given. -/

namespace MessageForms

def Node.IsFixed (labels : Relabeling) (node : Node) : Prop :=
  node.relabel labels = node

theorem Node.map_relabel_of_isFixed {labels : Relabeling} {nodes : List Node}
    (fixed : ∀ node ∈ nodes, node.IsFixed labels) : nodes.map (·.relabel labels) = nodes := by
  rw [List.map_congr_left fixed]
  exact List.map_id nodes

theorem Node.isFixed_of_map_relabel {labels : Relabeling} {nodes : List Node}
    (same : nodes.map (·.relabel labels) = nodes) : ∀ node ∈ nodes, node.IsFixed labels := by
  intro node among
  obtain ⟨index, bound, rfl⟩ := List.mem_iff_getElem.mp among
  have whole := congrArg (·[index]?) same
  simp only [List.getElem?_map, List.getElem?_eq_getElem bound] at whole
  exact Option.some.inj whole

section Fixes

variable (table : MacroTable) (labels : Relabeling)

/-- The run comes to nothing that the exchange of labels would change; a problem is one that an
expander of the table raises. -/
structure Fixes {α : Type} (IsFixed : α → Prop) (run : Expanding α) : Prop where
  ok : ∀ log result after, run log = .ok result after → IsFixed result
  problem : ∀ log problem after, run log = .error (.problem problem) after →
    problem.relabel labels = problem ∧ table.Raises problem

variable {table labels} {α β : Type} {IsFixed : α → Prop} {IsFixed' : β → Prop}

theorem fixes_pure {result : α} (fixed : IsFixed result) :
    Fixes table labels IsFixed (pure result) where
  ok log result' after done := by
    cases done
    exact fixed
  problem log problem after failed := by cases failed

theorem fixes_throw {fault : Fault} (other : ∀ problem, fault ≠ .problem problem) :
    Fixes table labels IsFixed (throw fault) where
  ok log result after done := by cases done
  problem log problem after failed := by
    cases failed
    exact (other problem rfl).elim

theorem fixes_modify (change : Array LogEntry → Array LogEntry) :
    Fixes table labels (fun _ => True) (modify change) where
  ok log result after done := trivial
  problem log problem after failed := by cases failed

theorem fixes_none {holds : α → Prop} :
    Fixes table labels (fun outcome : Option α => ∀ found ∈ outcome, holds found) (pure none) := by
  refine fixes_pure fun found impossible => ?_
  cases impossible

theorem Fixes.bind {run : Expanding α} {next : α → Expanding β}
    (fixes : Fixes table labels IsFixed run)
    (others : ∀ result, IsFixed result → Fixes table labels IsFixed' (next result)) :
    Fixes table labels IsFixed' (run >>= next) where
  ok log result after done := by
    obtain ⟨first, middle, start, further⟩ := exists_of_bind_ok done
    exact (others first (fixes.ok log first middle start)).ok middle result after further
  problem log problem after failed := by
    rw [bind_apply] at failed
    cases start : run log with
    | ok first middle =>
        rw [start] at failed
        exact (others first (fixes.ok log first middle start)).problem middle problem after failed
    | error fault middle =>
        rw [start] at failed
        cases failed
        exact fixes.problem log problem after start

end Fixes

namespace MacroTable

variable {table : MacroTable} {labels : Relabeling}

def OptionIsFixed (labels : Relabeling) (node : Option Node) : Prop :=
  ∀ found ∈ node, found.IsFixed labels

theorem OptionIsFixed.getD {found : Option Node} {node : Node} (fixed : OptionIsFixed labels found)
    (otherwise : node.IsFixed labels) : (found.getD node).IsFixed labels := by
  cases found with
  | none => exact otherwise
  | some replacement => exact fixed replacement rfl

/-! ### One node -/

section Node

variable (makes : table.MakesDefinitions)

include makes

theorem fixes_expandOnce {node : Node} (fixed : node.IsFixed labels) :
    Fixes table labels (OptionIsFixed labels) (table.expandOnce node) := by
  cases node with
  | macroForm modifiers position =>
      rw [expandOnce]
      cases found : table.find? modifiers with
      | none => exact fixes_none
      | some expander =>
          have same := makes.expand_relabel labels { modifiers, position } expander
            (List.mem_of_find?_eq_some found)
          rw [Node.IsFixed, Node.relabel, Node.macroForm.injEq] at fixed
          rw [MacroForm.relabel, fixed.1, fixed.2] at same
          dsimp only
          cases expanded : expander.expand { modifiers, position } with
          | error fault =>
              rw [expanded] at same
              refine ⟨fun log result after done => ?_, fun log problem after failed => ?_⟩
              · cases done
              · cases failed
                have kept := Except.error.inj same
                exact ⟨(Fault.problem.inj kept).symm, modifiers, position, expander, found, expanded⟩
          | ok outcome =>
              rw [expanded] at same
              cases outcome with
              | none => exact fixes_none
              | some replacement =>
                  refine (fixes_modify _).bind fun _ _ => fixes_pure ?_
                  intro found is
                  cases is
                  exact (Option.some.inj (Except.ok.inj same)).symm
  | _ => exact fixes_none

theorem fixes_expandUpTo {exceeded : Fault} (other : ∀ problem, exceeded ≠ .problem problem)
    (allowed : Nat) {node : Node} (fixed : node.IsFixed labels) :
    Fixes table labels (OptionIsFixed labels) (table.expandUpTo exceeded allowed node) := by
  induction allowed generalizing node with
  | zero =>
      refine (fixes_expandOnce makes fixed).bind fun expanded _ => ?_
      cases expanded with
      | none => exact fixes_none
      | some next => exact fixes_throw other
  | succ allowed ih =>
      refine (fixes_expandOnce makes fixed).bind fun expanded kept => ?_
      cases expanded with
      | none => exact fixes_none
      | some next =>
          refine (ih (kept next rfl)).bind fun final keptFinal => fixes_pure ?_
          intro found is
          cases is
          exact keptFinal.getD (kept next rfl)

theorem fixes_expandAll (limit : StepLimit) (patience : Nat) {node : Node}
    (fixed : node.IsFixed labels) :
    Fixes table labels (OptionIsFixed labels) (table.expandAll limit patience node) := by
  cases limit with
  | atMost replacements =>
      apply fixes_expandUpTo makes _ _ fixed
      intro problem impossible
      cases impossible
  | unlimited =>
      apply fixes_expandUpTo makes _ _ fixed
      intro problem impossible
      cases impossible

end Node

/-! ### A tree -/

section Tree

variable {walk : Node → Expanding (Option Node)}

theorem fixes_walkEach
    (fixes : ∀ node : Node, node.IsFixed labels → Fixes table labels (OptionIsFixed labels) (walk node))
    {nodes : List Node} (fixed : ∀ node ∈ nodes, node.IsFixed labels) :
    Fixes table labels (fun walked : Option (List Node) =>
      ∀ found ∈ walked, ∀ node ∈ found, node.IsFixed labels) (walkEach walk nodes) := by
  induction nodes with
  | nil => exact fixes_none
  | cons node others ih =>
      rw [List.forall_mem_cons] at fixed
      refine (fixes node fixed.1).bind fun walked kept => ?_
      refine (ih fixed.2).bind fun walkedOthers keptOthers => ?_
      have keptAll : ∀ found ∈ some (walked.getD node :: walkedOthers.getD others),
          ∀ node ∈ found, node.IsFixed labels := by
        intro found is
        cases is
        rw [List.forall_mem_cons]
        refine ⟨kept.getD fixed.1, ?_⟩
        cases walkedOthers with
        | none => exact fixed.2
        | some changed => exact keptOthers changed rfl
      cases walked with
      | none =>
          cases walkedOthers with
          | none => exact fixes_none
          | some changed => exact fixes_pure keptAll
      | some replacement => exact fixes_pure keptAll

theorem fixes_walkChildren
    (fixes : ∀ node : Node, node.IsFixed labels → Fixes table labels (OptionIsFixed labels) (walk node))
    {node : Node} (fixed : node.IsFixed labels) :
    Fixes table labels (OptionIsFixed labels) (walkChildren walk node) := by
  -- Around fixed nodes in the place of the old ones the node stays a fixed one.
  have around {inner : List Node} {rebuild : List Node → Node}
      (same : inner.map (·.relabel labels) = inner)
      (rebuilt : ∀ nodes : List Node, nodes.map (·.relabel labels) = nodes →
        (rebuild nodes).IsFixed labels) :
      Fixes table labels (OptionIsFixed labels) (do return (← walkEach walk inner).map rebuild) := by
    refine (fixes_walkEach fixes (Node.isFixed_of_map_relabel same)).bind fun walked kept =>
      fixes_pure ?_
    intro found is
    obtain ⟨nodes, rfl, rfl⟩ := Option.map_eq_some_iff.mp is
    exact rebuilt nodes (Node.map_relabel_of_isFixed (kept nodes rfl))
  cases node with
  | macroForm inner position | parenthesized inner position | braced inner position =>
      simp only [Node.IsFixed, Node.relabel, Node.relabelAll_eq_map, Node.macroForm.injEq,
        Node.parenthesized.injEq, Node.braced.injEq] at fixed
      refine around fixed.1 fun nodes same => ?_
      simp only [Node.IsFixed, Node.relabel, Node.relabelAll_eq_map, same, fixed.2]
  | classDefinition origin name parent parameters access body position =>
      simp only [Node.IsFixed, Node.relabel, Node.relabelAll_eq_map, Node.classDefinition.injEq]
        at fixed
      obtain ⟨originFixed, nameFixed, parentFixed, parametersFixed, accessFixed, bodyFixed, place⟩ :=
        fixed
      refine around bodyFixed fun nodes same => ?_
      simp only [Node.IsFixed, Node.relabel, Node.relabelAll_eq_map, same, originFixed, nameFixed,
        parentFixed, parametersFixed, accessFixed, place]
  | methodDefinition origin name parameters access body position =>
      simp only [Node.IsFixed, Node.relabel, Node.relabelAll_eq_map, Node.methodDefinition.injEq]
        at fixed
      obtain ⟨originFixed, nameFixed, parametersFixed, accessFixed, bodyFixed, place⟩ := fixed
      refine around bodyFixed fun nodes same => ?_
      simp only [Node.IsFixed, Node.relabel, Node.relabelAll_eq_map, same, originFixed, nameFixed,
        parametersFixed, accessFixed, place]
  | lexicalVariable origin name write access bound position =>
      simp only [Node.IsFixed, Node.relabel, Node.lexicalVariable.injEq] at fixed
      obtain ⟨originFixed, nameFixed, -, accessFixed, boundFixed, place⟩ := fixed
      refine (fixes bound boundFixed).bind fun walked kept => fixes_pure ?_
      intro found is
      obtain ⟨replacement, rfl, rfl⟩ := Option.map_eq_some_iff.mp is
      have same : replacement.relabel labels = replacement := kept replacement rfl
      simp only [Node.IsFixed, Node.relabel, same, originFixed, nameFixed, accessFixed, place]
  | _ => exact fixes_none

theorem fixes_walkWithin (makes : table.MakesDefinitions) (limit : StepLimit) (allowance : Nat)
    {node : Node} (fixed : node.IsFixed labels) :
    Fixes table labels (OptionIsFixed labels) (table.walkWithin limit allowance node) := by
  induction allowance generalizing node with
  | zero =>
      apply fixes_throw
      intro problem impossible
      cases impossible
  | succ allowance ih =>
      refine (fixes_expandAll makes limit allowance fixed).bind fun expanded kept => ?_
      refine (fixes_walkChildren (fun child => ih) (kept.getD fixed)).bind
        fun rebuilt keptRebuilt => fixes_pure ?_
      cases rebuilt with
      | none => exact kept
      | some result => exact keptRebuilt

end Tree

/-! ### Forms -/

section Forms

variable (makes : table.MakesDefinitions) (limit : StepLimit) (file : Option Text)

include makes

theorem fixes_walk {form : Node} (fixed : form.IsFixed labels) :
    Fixes table labels (OptionIsFixed labels) (table.walk limit form) := by
  rw [walk]
  exact fixes_walkWithin makes limit (patience form) fixed

theorem fixes_walkReporting {form : Node} (fixed : form.IsFixed labels) :
    Fixes table labels (fun outcome => ∀ problem, outcome = .error problem →
      problem.relabel labels = problem ∧ table.Raises problem) (table.walkReporting limit form) := by
  have walks := fixes_walk makes limit fixed
  constructor
  · intro log outcome after done problem failed
    cases walked : table.walk limit form log with
    | ok result final =>
        rw [walkReporting_of_ok walked] at done
        cases done
        cases failed
    | error fault final =>
        rw [walkReporting_of_error walked] at done
        cases fault with
        | problem raised =>
            cases done
            cases failed
            exact walks.problem log _ _ walked
        | _ => cases done
  · intro log problem after failed
    cases walked : table.walk limit form log with
    | ok result final =>
        rw [walkReporting_of_ok walked] at failed
        cases failed
    | error fault final =>
        rw [walkReporting_of_error walked] at failed
        cases fault <;> cases failed

theorem fixes_walkForms {forms : List Node} (fixed : ∀ form ∈ forms, form.IsFixed labels) :
    Fixes table labels (fun program => ∀ report ∈ program.diagnostics, ∃ problem : Problem,
      problem.relabel labels = problem ∧ table.Raises problem ∧
      report = problem.diagnostic file) (table.walkForms limit file forms) := by
  induction forms with
  | nil => exact fixes_pure nofun
  | cons form others ih =>
      rw [List.forall_mem_cons] at fixed
      refine (fixes_walkReporting makes limit fixed.1).bind fun outcome kept => ?_
      refine (ih fixed.2).bind fun program keptOthers => ?_
      cases outcome with
      | ok walked => exact fixes_pure keptOthers
      | error problem =>
          refine fixes_pure fun report among => ?_
          rcases List.mem_cons.mp among with rfl | later
          · exact ⟨problem, (kept problem rfl).1, (kept problem rfl).2, rfl⟩
          · exact keptOthers report later

end Forms

end MacroTable

end MessageForms
