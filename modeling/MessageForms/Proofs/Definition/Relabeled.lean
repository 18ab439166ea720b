import MessageForms.Definition.LexicalVariable
import MessageForms.Definition.Method
import MessageForms.Proofs.Node.Relabeled
import MessageForms.Proofs.Running

set_option autoImplicit false

/-! Making definitions commutes with exchanging labels: a form with other labels makes the same
definition with these labels, or fails with the same complaint at the place that stands for its
own. -/

namespace MessageForms

section Outcomes

variable (labels : Relabeling)

def Relabeling.outcome {α : Type} (relabel : α → α) : Except Fault α → Except Fault α
  | .ok value => .ok (relabel value)
  | .error fault => .error (fault.relabel labels)

def ItemCursor.relabel (cursor : ItemCursor Node) : ItemCursor Node :=
  { position := cursor.position, ahead := cursor.ahead.map (·.relabel labels) }

end Outcomes

variable {labels : Relabeling}

theorem Relabeling.outcome_bind {α β : Type} {relabel : α → α} {relabel' : β → β}
    {next next' : α → Except Fault β} (outcome : Except Fault α)
    (others : ∀ value, next' (relabel value) = labels.outcome relabel' (next value)) :
    labels.outcome relabel outcome >>= next' = labels.outcome relabel' (outcome >>= next) := by
  cases outcome with
  | ok value => exact others value
  | error fault => rfl

theorem parameterName_relabel (node : Node) :
    parameterName (node.relabel labels) =
      labels.outcome (·.relabel labels) (parameterName node) := by
  rw [parameterName, parameterName, Node.plainName?_relabel]
  cases node.plainName? with
  | none =>
      simp only [Option.map_none, Node.position_relabel]
      rfl
  | some name => rfl

theorem Parameters.ofNodes_relabel (nodes : List Node) (position : Position) :
    ofNodes (nodes.map (·.relabel labels)) (labels.place position) =
      labels.outcome (·.relabel labels) (ofNodes nodes position) := by
  have names : (nodes.map (·.relabel labels)).mapM parameterName =
      labels.outcome (List.map (·.relabel labels)) (nodes.mapM parameterName) := by
    induction nodes with
    | nil => rfl
    | cons node others ih =>
        rw [List.map_cons, List.mapM_cons, List.mapM_cons, parameterName_relabel, ih]
        refine Relabeling.outcome_bind _ fun name => ?_
        exact Relabeling.outcome_bind _ fun names => rfl
  rw [ofNodes, ofNodes, names]
  exact Relabeling.outcome_bind _ fun names => rfl

namespace Taking

variable (labels) in
/-- Started at a cursor with other labels, the second step comes to what the first one comes to with
these labels. -/
def Commutes {α : Type} (relabel : α → α) (taking taking' : Taking α) : Prop :=
  ∀ cursor : ItemCursor Node, taking' (cursor.relabel labels) =
    match taking cursor with
    | .ok value after => .ok (relabel value) (after.relabel labels)
    | .error fault after => .error (fault.relabel labels) (after.relabel labels)

variable {α β : Type} {relabel : α → α} {relabel' : β → β}

theorem commutes_pure {value value' : α} (same : value' = relabel value) :
    Commutes labels relabel (pure value) (pure value') := by
  subst same
  exact fun _ => rfl

theorem commutes_complain (position : Position) (complaint : Complaint) :
    Commutes labels relabel (complain position complaint)
      (complain (labels.place position) complaint) :=
  fun _ => rfl

theorem commutes_ofOutcome (outcome : Except Fault α) :
    Commutes labels relabel (ofOutcome outcome) (ofOutcome (labels.outcome relabel outcome)) := by
  cases outcome <;> exact fun _ => rfl

theorem Commutes.bind {taking taking' : Taking α} {next next' : α → Taking β}
    (commutes : Commutes labels relabel taking taking')
    (others : ∀ value, Commutes labels relabel' (next value) (next' (relabel value))) :
    Commutes labels relabel' (taking >>= next) (taking' >>= next') := by
  intro cursor
  have start := commutes cursor
  rw [bind_apply, bind_apply, start]
  cases taking cursor with
  | ok value after => exact others value after
  | error fault after => rfl

theorem commutes_ite {condition : Prop} [Decidable condition] {yes no yes' no' : Taking α}
    (commutesYes : Commutes labels relabel yes yes') (commutesNo : Commutes labels relabel no no') :
    Commutes labels relabel (if condition then yes else no)
      (if condition then yes' else no') := by
  split
  · exact commutesYes
  · exact commutesNo

theorem Commutes.onModifiers {taking taking' : Taking α}
    (commutes : Commutes labels relabel taking taking') (modifiers : List Node) :
    taking'.onModifiers (modifiers.map (·.relabel labels)) =
      labels.outcome relabel (taking.onModifiers modifiers) := by
  have start : taking' (.ofList (modifiers.map (·.relabel labels))) = _ :=
    commutes (.ofList modifiers)
  rw [Taking.onModifiers, start, Taking.onModifiers]
  cases taking (.ofList modifiers) <;> rfl

/-! ### Steps -/

theorem commutes_peek : Commutes labels (Option.map (·.relabel labels)) peek peek := by
  intro cursor
  change EStateM.Result.ok _ _ = EStateM.Result.ok _ _
  simp only [ItemCursor.peek, ItemCursor.relabel, List.head?_map]

theorem commutes_skip (count : Nat) :
    Commutes labels id (modify (·.skip count)) (modify (·.skip count)) := by
  intro cursor
  change EStateM.Result.ok _ _ = EStateM.Result.ok _ _
  simp only [ItemCursor.skip, ItemCursor.relabel, List.length_map, List.map_drop, id]

theorem commutes_next : Commutes labels (Option.map (·.relabel labels)) next next :=
  commutes_peek.bind fun _ => (commutes_skip 1).bind fun _ => commutes_pure rfl

theorem commutes_untilNamed (name : Text) :
    Commutes labels (List.map (·.relabel labels)) (untilNamed name) (untilNamed name) := by
  intro cursor
  change EStateM.Result.ok _ _ = EStateM.Result.ok _ _
  simp only [ItemCursor.relabel, ItemCursor.skip, List.takeWhile_map, Function.comp_def,
    Node.name?_relabel, List.length_map, List.map_drop]

theorem commutes_parent? :
    Commutes labels (Option.map (·.relabel labels)) parent? parent? := by
  refine commutes_peek.bind fun found => ?_
  cases found with
  | none => exact commutes_pure rfl
  | some keyword =>
      simp only [Option.map_some, Node.name?_relabel, Node.position_relabel]
      refine commutes_ite ?_ (commutes_pure rfl)
      refine commutes_next.bind fun _ => commutes_peek.bind fun extended => ?_
      cases extended with
      | none => exact commutes_complain _ _
      | some expression =>
          simp only [Option.map_some, Node.isBraced_relabel]
          exact commutes_ite (commutes_complain _ _) commutes_next

theorem commutes_parameters? :
    Commutes labels (Option.map (·.relabel labels)) parameters? parameters? := by
  refine commutes_peek.bind fun found => ?_
  cases found with
  | none => exact commutes_pure rfl
  | some node =>
      cases node with
      | braced inner position => exact commutes_pure rfl
      | parenthesized inner position =>
          simp only [Option.map_some, Node.relabel, Node.relabelAll_eq_map]
          refine commutes_next.bind fun _ => ?_
          rw [Parameters.ofNodes_relabel]
          exact (commutes_ofOutcome _).bind fun parameters => commutes_pure rfl
      | _ => exact commutes_complain _ _

theorem commutes_body : Commutes labels (List.map (·.relabel labels)) body body := by
  refine commutes_next.bind fun found => ?_
  cases found with
  | none => exact commutes_pure rfl
  | some node =>
      cases node with
      | braced inner position =>
          simp only [Option.map_some, Node.relabel, Node.relabelAll_eq_map]
          refine commutes_peek.bind fun extra => ?_
          cases extra with
          | none => exact commutes_pure rfl
          | some extra =>
              simp only [Option.map_some, Node.position_relabel]
              exact commutes_complain _ _
      | _ => exact commutes_complain _ _

end Taking

/-! ### Definitions -/

section Definitions

variable (labels : Relabeling)

def ClassDefinition.relabel (definition : ClassDefinition) : ClassDefinition :=
  { form := definition.form.relabel labels
    name := definition.name.relabel labels
    parent := definition.parent.map (·.relabel labels)
    parameters := definition.parameters.map (·.relabel labels)
    access := definition.access.map (·.relabel labels)
    body := definition.body.map (·.relabel labels) }

def MethodDefinition.relabel (definition : MethodDefinition) : MethodDefinition :=
  { form := definition.form.relabel labels
    name := definition.name.relabel labels
    parameters := definition.parameters.map (·.relabel labels)
    access := definition.access.map (·.relabel labels)
    body := definition.body.map (·.relabel labels) }

def LexicalVariable.relabel (definition : LexicalVariable) : LexicalVariable :=
  { form := definition.form.relabel labels
    name := definition.name.relabel labels
    write := definition.write
    access := definition.access.map (·.relabel labels)
    bound := definition.bound.relabel labels }

theorem MacroForm.isClass_relabel (form : MacroForm) :
    (form.relabel labels).isClass = form.isClass := by
  rw [isClass, isClass, relabel, Node.relabelAll_eq_map, Node.hasModifierNamed_relabel]

namespace ClassDefinition

theorem toNode_relabel (definition : ClassDefinition) :
    (definition.relabel labels).toNode = definition.toNode.relabel labels := by
  simp only [toNode, relabel, MacroForm.relabel, Node.relabel, Node.relabelAll_eq_map,
    Node.relabelOption_eq_map]

theorem commutes_parentAndParameters (signature : Node) (arguments : List Node) :
    Taking.Commutes labels
      (Prod.map (Option.map (·.relabel labels)) (Option.map (·.relabel labels)))
      (parentAndParameters signature arguments)
      (parentAndParameters (signature.relabel labels) (arguments.map (·.relabel labels))) := by
  simp only [parentAndParameters, List.isEmpty_map, Node.position_relabel]
  refine Taking.commutes_ite ?_ ?_
  · exact Taking.commutes_parent?.bind fun parent =>
      Taking.commutes_parameters?.bind fun parameters => Taking.commutes_pure rfl
  · rw [Parameters.ofNodes_relabel]
    exact (Taking.commutes_ofOutcome _).bind fun parameters =>
      Taking.commutes_parent?.bind fun parent => Taking.commutes_pure rfl

theorem commutes_take (form : MacroForm) :
    Taking.Commutes labels (relabel labels) (take form) (take (form.relabel labels)) := by
  refine (Taking.commutes_untilNamed _).bind fun access => ?_
  refine Taking.commutes_next.bind fun keyword => ?_
  cases keyword with
  | none => exact Taking.commutes_complain _ _
  | some keyword =>
      refine Taking.commutes_next.bind fun signature => ?_
      simp only [Node.position_relabel]
      cases signature with
      | none => exact Taking.commutes_complain _ _
      | some signature =>
          simp only [Option.map_some, Node.signature?_relabel]
          cases signature.signature? with
          | none => exact Taking.commutes_complain _ _
          | some found =>
              refine (commutes_parentAndParameters labels signature found.2).bind fun parts => ?_
              exact Taking.commutes_body.bind fun body => Taking.commutes_pure rfl

theorem ofForm_relabel (form : MacroForm) :
    ofForm (form.relabel labels) = labels.outcome (relabel labels) (ofForm form) := by
  rw [ofForm, ofForm, ← (commutes_take labels form).onModifiers, MacroForm.relabel,
    Node.relabelAll_eq_map]

end ClassDefinition

namespace MethodDefinition

theorem toNode_relabel (definition : MethodDefinition) :
    (definition.relabel labels).toNode = definition.toNode.relabel labels := by
  simp only [toNode, relabel, MacroForm.relabel, Node.relabel, Node.relabelAll_eq_map]

theorem withoutLast_relabel {leavesOut : Node → Bool}
    (same : ∀ node : Node, leavesOut (node.relabel labels) = leavesOut node) (nodes : List Node) :
    withoutLast leavesOut (nodes.map (·.relabel labels)) =
      (withoutLast leavesOut nodes).map (·.relabel labels) := by
  rw [withoutLast, withoutLast, List.getLast?_map]
  cases nodes.getLast? with
  | none => rfl
  | some last =>
      simp only [Option.map_some, same]
      split
      · exact (List.map_dropLast).symm
      · rfl

theorem head_relabel (modifiers : List Node) :
    head (modifiers.map (·.relabel labels)) = (head modifiers).map (·.relabel labels) := by
  rw [head, head, withoutLast_relabel labels (Node.isBraced_relabel labels),
    withoutLast_relabel labels fun node => by cases node <;> rfl]

theorem commutes_parametersFor (signature : Node) (arguments : List Node) :
    Taking.Commutes labels (Option.map (·.relabel labels)) (parametersFor signature arguments)
      (parametersFor (signature.relabel labels) (arguments.map (·.relabel labels))) := by
  simp only [parametersFor, List.isEmpty_map, Node.position_relabel]
  refine Taking.commutes_ite Taking.commutes_parameters? ?_
  rw [Parameters.ofNodes_relabel]
  exact (Taking.commutes_ofOutcome _).bind fun parameters => Taking.commutes_pure rfl

theorem commutes_takeBehind (form : MacroForm) (access : List Node) (signature : Node)
    (name : Atom) (arguments : List Node) :
    Taking.Commutes labels (relabel labels) (takeBehind form access signature name arguments)
      (takeBehind (form.relabel labels) (access.map (·.relabel labels)) (signature.relabel labels)
        (name.relabel labels) (arguments.map (·.relabel labels))) :=
  (commutes_parametersFor labels signature arguments).bind fun _ =>
    Taking.commutes_body.bind fun _ => Taking.commutes_pure rfl

theorem ofForm_relabel (form : MacroForm) :
    ofForm (form.relabel labels) = labels.outcome (relabel labels) (ofForm form) := by
  have modifiers : (form.relabel labels).modifiers = form.modifiers.map (·.relabel labels) :=
    Node.relabelAll_eq_map labels form.modifiers
  rw [ofForm, ofForm, MacroForm.isClass_relabel]
  split
  · rfl
  · simp only [modifiers, head_relabel, List.getLast?_map]
    cases (head form.modifiers).getLast? with
    | none => rfl
    | some signature =>
        simp only [Option.map_some, Node.signature?_relabel, Node.position_relabel]
        cases signature.signature? with
        | none => rfl
        | some found =>
            simp only [Option.map_some, List.length_map, ← List.map_dropLast, ← List.map_drop]
            exact (commutes_takeBehind labels form _ signature _ _).onModifiers _

end MethodDefinition

namespace LexicalVariable

theorem toNode_relabel (definition : LexicalVariable) :
    (definition.relabel labels).toNode = definition.toNode.relabel labels := by
  simp only [toNode, relabel, MacroForm.relabel, Node.relabel, Node.relabelAll_eq_map,
    Node.relabelOption_eq_map]

theorem boundName_relabel (position : Position) (write : WriteKeyword) (nodes : List Node) :
    boundName (labels.place position) write (nodes.map (·.relabel labels)) =
      labels.outcome (·.relabel labels) (boundName position write nodes) := by
  match nodes with
  | [] => rfl
  | [single] =>
      simp only [List.map_cons, List.map_nil, boundName, Node.plainName?_relabel,
        Node.position_relabel]
      cases single.plainName? <;> rfl
  | _ :: second :: _ =>
      simp only [List.map_cons, boundName, Node.position_relabel]
      rfl

theorem boundExpression_relabel (position : Position) (write : WriteKeyword) (nodes : List Node) :
    boundExpression (labels.place position) write (nodes.map (·.relabel labels)) =
      labels.outcome (·.relabel labels) (boundExpression position write nodes) := by
  match nodes with
  | [] => rfl
  | [single] => rfl
  | _ :: second :: _ =>
      simp only [List.map_cons, boundExpression, Node.position_relabel]
      rfl

theorem ofBinding_relabel (form : MacroForm) (access : List Node) (keyword : Node)
    (write : WriteKeyword) (binding : List Node) :
    ofBinding (form.relabel labels) (access.map (·.relabel labels)) (keyword.relabel labels) write
        (binding.map (·.relabel labels)) =
      labels.outcome (relabel labels) (ofBinding form access keyword write binding) := by
  rw [ofBinding, ofBinding, Node.arguments_relabel]
  cases keyword.arguments with
  | cons argument _ =>
      simp only [List.map_cons, Node.position_relabel]
      rfl
  | nil =>
      simp only [List.map_nil, List.dropWhile_map, List.takeWhile_map, Function.comp_def,
        Node.name?_relabel, Node.position_relabel]
      cases binding.dropWhile (·.name? ≠ some Keyword.assignment) with
      | nil => rfl
      | cons assignment expressions =>
          simp only [List.map_cons, Node.position_relabel, boundName_relabel,
            boundExpression_relabel]
          refine Relabeling.outcome_bind _ fun name => ?_
          refine Relabeling.outcome_bind _ fun bound => ?_
          rw [List.head?_map]
          rfl

theorem ofForm_relabel (form : MacroForm) :
    ofForm (form.relabel labels) = labels.outcome (relabel labels) (ofForm form) := by
  have modifiers : (form.relabel labels).modifiers = form.modifiers.map (·.relabel labels) :=
    Node.relabelAll_eq_map labels form.modifiers
  simp only [ofForm, modifiers, List.dropWhile_map, List.takeWhile_map, Function.comp_def,
    Node.writeKeyword?_relabel]
  cases form.modifiers.dropWhile (·.writeKeyword?.isNone) with
  | nil => rfl
  | cons keyword binding =>
      simp only [List.map_cons, Node.writeKeyword?_relabel]
      cases keyword.writeKeyword? with
      | none => rfl
      | some write => exact ofBinding_relabel labels form _ keyword write binding

end LexicalVariable

end Definitions

end MessageForms
