import MessageForms.Definition.LexicalVariable
import MessageForms.Definition.Method
import MessageForms.Node.Basic
import MessageForms.Proofs.Running

set_option autoImplicit false

/-! What can come of making a definition. Its body or bound expression is part of the form, so a
definition is never heavier than its form. If there is none, something is wrong inside of the form:
whether the form is one of the right sort is not asked again once that is settled. -/

namespace MessageForms

/-- The complaint is about something inside of a form that has the right keywords. -/
def Complaint.IsInForm : Complaint → Prop
  | classNameMissing | methodNameMissing | nothingExtended | bodyOrParametersExpected
  | contentInDefinition | parameterNotAName | assignmentMissing _ | boundNameMissing _
  | nothingBound _ | bindingNotAName | severalNames | severalExpressions => True
  | _ => False

theorem Complaint.IsInForm.family {cause : Complaint} (inForm : cause.IsInForm) :
    cause.family = .building ∨ cause.family = .unsupported := by
  cases cause <;> first
    | exact .inl rfl
    | exact .inr rfl
    | exact inForm.elim

theorem Complaint.IsInForm.not_guard {cause : Complaint} (inForm : cause.IsInForm) :
    cause ∉ [.notAClass, .classNotAMethod, .writeKeywordMissing] := by
  intro among
  simp only [List.mem_cons, List.not_mem_nil, or_false] at among
  rcases among with rfl | rfl | rfl <;> exact inForm

def Fault.IsInForm : Fault → Prop
  | .problem reported => reported.complaint.IsInForm ∧ reported.position.isSome = true
  | _ => False

namespace Node

theorem weight_pos (node : Node) : 0 < node.weight := by
  cases node <;> simp only [weight] <;> omega

theorem weight_le_weights {node : Node} {nodes : List Node} (among : node ∈ nodes) :
    node.weight ≤ weights nodes := by
  induction nodes with
  | nil => cases among
  | cons first others ih =>
      rw [weights]
      rcases List.mem_cons.mp among with rfl | later
      · omega
      · have inner := ih later
        omega

theorem weights_drop_le (count : Nat) (nodes : List Node) :
    weights (nodes.drop count) ≤ weights nodes := by
  induction count generalizing nodes with
  | zero => exact Nat.le_refl _
  | succ count ih =>
      cases nodes with
      | nil => exact Nat.le_refl _
      | cons node others =>
          rw [List.drop_succ_cons, weights]
          exact Nat.le_trans (ih others) (Nat.le_add_left _ _)

theorem weights_dropWhile_le (skips : Node → Bool) (nodes : List Node) :
    weights (nodes.dropWhile skips) ≤ weights nodes := by
  rw [List.dropWhile_eq_drop_findIdx_not]
  exact weights_drop_le _ nodes

end Node

/-- The value is not heavier than the bound, and any fault is one inside of the form. -/
def Bounded {α : Type} (heavy : α → Nat) (bound : Nat) : Except Fault α → Prop
  | .ok value => heavy value ≤ bound
  | .error fault => fault.IsInForm

theorem Bounded.weaken {α : Type} {heavy : α → Nat} {bound bound' : Nat}
    {outcome : Except Fault α} (bounded : Bounded heavy bound outcome) (weaker : bound ≤ bound') :
    Bounded heavy bound' outcome := by
  cases outcome with
  | ok value => exact Nat.le_trans bounded weaker
  | error fault => exact bounded

theorem Bounded.bind {α β : Type} {heavy : α → Nat} {heavy' : β → Nat} {bound bound' : Nat}
    {outcome : Except Fault α} {next : α → Except Fault β} (bounded : Bounded heavy bound outcome)
    (others : ∀ value, Bounded heavy' bound' (next value)) :
    Bounded heavy' bound' (outcome >>= next) := by
  cases outcome with
  | ok value => exact others value
  | error fault => exact bounded

theorem Bounded.map {α β : Type} {heavy : α → Nat} {heavy' : β → Nat} {bound bound' : Nat}
    {outcome : Except Fault α} (bounded : Bounded heavy bound outcome) (weaker : bound ≤ bound')
    {form : α → β} (same : ∀ value, heavy' (form value) = heavy value) :
    Bounded heavy' bound' (do return form (← outcome)) := by
  cases outcome with
  | ok value => exact Nat.le_trans (Nat.le_of_eq (same value)) (Nat.le_trans bounded weaker)
  | error fault => exact bounded

theorem bounded_ofNodes (nodes : List Node) (position : Position) :
    Bounded (fun _ => 0) 0 (Parameters.ofNodes nodes position) := by
  have names : Bounded (fun _ => 0) 0 (nodes.mapM parameterName) := by
    induction nodes with
    | nil => exact Nat.le_refl 0
    | cons node others ih =>
        rw [List.mapM_cons, parameterName]
        cases node.plainName? with
        | none => exact ⟨trivial, rfl⟩
        | some name =>
            cases named : others.mapM parameterName with
            | ok names => exact Nat.le_refl 0
            | error fault =>
                rw [named] at ih
                exact ih
  rw [Parameters.ofNodes]
  cases named : nodes.mapM parameterName with
  | ok names => exact Nat.le_refl 0
  | error fault =>
      rw [named] at names
      exact names

namespace Taking

/-- From the cursor the step takes no more than what is ahead, and any fault is one inside of the
form. -/
def TakesPartAt {α : Type} (heavy : α → Nat) (taking : Taking α) (cursor : ItemCursor Node) :
    Prop :=
  match taking cursor with
  | .ok value after => heavy value ≤ Node.weights cursor.ahead ∧
      Node.weights after.ahead ≤ Node.weights cursor.ahead
  | .error fault _ => fault.IsInForm

def TakesPart {α : Type} (heavy : α → Nat) (taking : Taking α) : Prop :=
  ∀ cursor, TakesPartAt heavy taking cursor

abbrev TakesSome {α : Type} (taking : Taking α) : Prop :=
  TakesPart (fun _ => 0) taking

variable {α β : Type} {heavy : α → Nat} {heavy' : β → Nat}

theorem takesSome_pure (value : α) : TakesSome (pure value) :=
  fun _ => ⟨Nat.zero_le _, Nat.le_refl _⟩

theorem takesPart_complain {complaint : Complaint} (inForm : complaint.IsInForm)
    (position : Position) : TakesPart heavy (complain position complaint) :=
  fun _ => ⟨inForm, rfl⟩

theorem takesSome_ofOutcome {outcome : Except Fault α} {bound : Nat}
    (bounded : Bounded (fun _ => 0) bound outcome) : TakesSome (ofOutcome outcome) := by
  cases outcome with
  | ok value => exact takesSome_pure value
  | error fault => exact fun _ => bounded

theorem takesPartAt_bind {taking : Taking α} {next : α → Taking β} {cursor : ItemCursor Node}
    (takes : TakesPartAt heavy taking cursor)
    (others : ∀ value after, taking cursor = .ok value after →
      TakesPartAt heavy' (next value) after) :
    TakesPartAt heavy' (taking >>= next) cursor := by
  rw [TakesPartAt, bind_apply]
  rw [TakesPartAt] at takes
  cases outcome : taking cursor with
  | error fault after =>
      rw [outcome] at takes
      exact takes
  | ok value middle =>
      rw [outcome] at takes
      have further := others value middle outcome
      rw [TakesPartAt] at further
      dsimp only
      cases final : next value middle with
      | error fault after =>
          rw [final] at further
          exact further
      | ok result after =>
          rw [final] at further
          exact ⟨Nat.le_trans further.1 takes.2, Nat.le_trans further.2 takes.2⟩

theorem TakesPart.bind {taking : Taking α} {next : α → Taking β}
    (takes : TakesPart heavy taking) (others : ∀ value, TakesPart heavy' (next value)) :
    TakesPart heavy' (taking >>= next) :=
  fun cursor => takesPartAt_bind (takes cursor) fun value after _ => others value after

theorem TakesPart.map {taking : Taking α} (takes : TakesPart heavy taking) {form : α → β}
    (same : ∀ value, heavy' (form value) = heavy value) :
    TakesPart heavy' (do return form (← taking)) := by
  intro cursor
  have start := takes cursor
  rw [TakesPartAt] at start
  rw [TakesPartAt, bind_apply]
  cases outcome : taking cursor with
  | error fault after =>
      rw [outcome] at start
      exact start
  | ok value after =>
      rw [outcome] at start
      refine ⟨?_, start.2⟩
      rw [same]
      exact start.1

theorem takesPart_ite {condition : Prop} [Decidable condition] {yes no : Taking α}
    (takesYes : TakesPart heavy yes) (takesNo : TakesPart heavy no) :
    TakesPart heavy (if condition then yes else no) := by
  split
  · exact takesYes
  · exact takesNo

theorem TakesPartAt.onModifiers {taking : Taking α} {modifiers : List Node}
    (takes : TakesPartAt heavy taking (.ofList modifiers)) :
    Bounded heavy (Node.weights modifiers) (taking.onModifiers modifiers) := by
  rw [TakesPartAt] at takes
  rw [Taking.onModifiers]
  cases outcome : taking (.ofList modifiers) with
  | error fault after =>
      rw [outcome] at takes
      exact takes
  | ok value after =>
      rw [outcome] at takes
      exact takes.1

/-! ### Steps -/

theorem takesSome_peek : TakesSome peek :=
  fun _ => ⟨Nat.zero_le _, Nat.le_refl _⟩

theorem takesSome_next : TakesSome next :=
  fun cursor => ⟨Nat.zero_le _, Node.weights_drop_le 1 cursor.ahead⟩

theorem takesSome_untilNamed (name : Text) : TakesSome (untilNamed name) :=
  fun cursor => ⟨Nat.zero_le _, Node.weights_drop_le _ cursor.ahead⟩

theorem ahead_of_untilNamed {name : Text} {cursor after : ItemCursor Node} {access : List Node}
    (taken : untilNamed name cursor = .ok access after) :
    after.ahead = cursor.ahead.dropWhile (·.name? ≠ some name) := by
  cases taken
  have whole := @List.takeWhile_append_dropWhile _
    (fun node : Node => decide (node.name? ≠ some name)) cursor.ahead
  exact (congrArg (List.drop _) whole.symm).trans List.drop_left

theorem takesSome_parent? : TakesSome parent? := by
  refine takesSome_peek.bind fun found => ?_
  cases found with
  | none => exact takesSome_pure none
  | some keyword =>
      refine takesPart_ite ?_ (takesSome_pure none)
      refine takesSome_next.bind fun _ => takesSome_peek.bind fun extended => ?_
      cases extended with
      | none => exact takesPart_complain (by trivial) _
      | some expression => exact takesPart_ite (takesPart_complain (by trivial) _) takesSome_next

theorem takesSome_parameters? : TakesSome parameters? := by
  refine takesSome_peek.bind fun found => ?_
  cases found with
  | none => exact takesSome_pure none
  | some node =>
      cases node with
      | braced inner position => exact takesSome_pure none
      | parenthesized inner position =>
          refine takesSome_next.bind fun _ => ?_
          exact (takesSome_ofOutcome (bounded_ofNodes inner position)).bind fun _ =>
            takesSome_pure _
      | _ => exact takesPart_complain (by trivial) _

/-- The body is the inside of a braced form, which is one heavier. -/
theorem takesPart_body : TakesPart Node.weights body := by
  intro cursor
  rcases cursor with ⟨position, ahead⟩
  cases ahead with
  | nil => exact ⟨Nat.le_refl 0, Nat.le_refl 0⟩
  | cons node others =>
      cases node with
      | braced inner place =>
          cases others with
          | nil =>
              refine ⟨?_, Nat.zero_le _⟩
              simp only [Node.weights, Node.weight]
              omega
          | cons extra others => exact ⟨trivial, rfl⟩
      | _ => exact ⟨trivial, rfl⟩

end Taking

/-! ### Definitions -/

theorem exists_of_dropWhile {skips : Node → Bool} {nodes : List Node}
    (stops : nodes.any (fun node => !skips node) = true) :
    ∃ first others, nodes.dropWhile skips = first :: others ∧ skips first = false := by
  have first := List.head?_dropWhile_not skips nodes
  cases left : nodes.dropWhile skips with
  | cons node others =>
      rw [left] at first
      exact ⟨node, others, rfl, first⟩
  | nil =>
      have none := @List.any_dropWhile _ skips nodes
      rw [left, List.any_nil] at none
      rw [List.any_eq_not_all_not] at stops
      simp only [Bool.not_not] at stops
      rw [stops] at none
      cases none

namespace ClassDefinition

theorem takesSome_parentAndParameters (signature : Node) (arguments : List Node) :
    Taking.TakesSome (parentAndParameters signature arguments) := by
  refine Taking.takesPart_ite ?_ ?_
  · exact Taking.takesSome_parent?.bind fun parent =>
      Taking.takesSome_parameters?.bind fun parameters => Taking.takesSome_pure _
  · exact (Taking.takesSome_ofOutcome (bounded_ofNodes _ _)).bind fun parameters =>
      Taking.takesSome_parent?.bind fun parent => Taking.takesSome_pure _

theorem bounded_ofForm {form : MacroForm} (isClass : form.isClass = true) :
    Bounded (fun definition => Node.weights definition.body) (Node.weights form.modifiers)
      (ofForm form) := by
  have named : form.modifiers.any
      (fun node => !decide (node.name? ≠ some Keyword.classWord)) = true := by
    rw [MacroForm.isClass, MacroForm.hasModifierNamed] at isClass
    simpa using isClass
  obtain ⟨first, others, left, -⟩ := exists_of_dropWhile named
  refine Taking.TakesPartAt.onModifiers ?_
  refine Taking.takesPartAt_bind (Taking.takesSome_untilNamed _ _) fun access middle taken => ?_
  have ahead := (Taking.ahead_of_untilNamed taken).trans left
  refine Taking.takesPartAt_bind (Taking.takesSome_next middle) fun keyword after read => ?_
  have found : middle.ahead.head? = keyword := by
    cases read
    rfl
  rw [ahead] at found
  subst found
  dsimp only [List.head?_cons]
  refine Taking.takesPartAt_bind (Taking.takesSome_next after) fun signature last _ => ?_
  cases signature with
  | none => exact Taking.takesPart_complain (by trivial) _ last
  | some signature =>
      dsimp only
      cases signature.signature? with
      | none => exact Taking.takesPart_complain (by trivial) _ last
      | some found =>
          refine (takesSome_parentAndParameters signature found.2).bind (fun parts => ?_) last
          exact Taking.takesPart_body.map fun _ => rfl

end ClassDefinition

namespace MethodDefinition

theorem takesSome_parametersFor (signature : Node) (arguments : List Node) :
    Taking.TakesSome (parametersFor signature arguments) := by
  refine Taking.takesPart_ite Taking.takesSome_parameters? ?_
  exact (Taking.takesSome_ofOutcome (bounded_ofNodes _ _)).bind fun parameters =>
    Taking.takesSome_pure _

theorem takesPart_takeBehind (form : MacroForm) (access : List Node) (signature : Node)
    (name : Atom) (arguments : List Node) :
    Taking.TakesPart (fun definition => Node.weights definition.body)
      (takeBehind form access signature name arguments) :=
  (takesSome_parametersFor signature arguments).bind fun _ =>
    Taking.takesPart_body.map fun _ => rfl

theorem bounded_ofForm {form : MacroForm} (other : form.isClass = false) :
    Bounded (fun definition => Node.weights definition.body) (Node.weights form.modifiers)
      (ofForm form) := by
  rw [ofForm, other, if_neg Bool.false_ne_true]
  dsimp only
  cases (head form.modifiers).getLast? with
  | none => exact ⟨trivial, rfl⟩
  | some signature =>
      dsimp only
      cases signature.signature? with
      | none => exact ⟨trivial, rfl⟩
      | some found =>
          have takes := takesPart_takeBehind form (head form.modifiers).dropLast signature found.1
            found.2
          exact (takes _).onModifiers.weaken (Node.weights_drop_le _ _)

end MethodDefinition

namespace LexicalVariable

theorem bounded_boundName (position : Position) (write : WriteKeyword) (nodes : List Node) :
    Bounded (fun _ => 0) 0 (boundName position write nodes) := by
  match nodes with
  | [] => exact ⟨trivial, rfl⟩
  | [single] =>
      rw [boundName]
      cases single.plainName? with
      | none => exact ⟨trivial, rfl⟩
      | some name => exact Nat.le_refl 0
  | _ :: second :: _ => exact ⟨trivial, rfl⟩

theorem bounded_boundExpression (position : Position) (write : WriteKeyword) (nodes : List Node) :
    Bounded Node.weight (Node.weights nodes) (boundExpression position write nodes) := by
  match nodes with
  | [] => exact ⟨trivial, rfl⟩
  | [single] => exact Node.weight_le_weights List.mem_cons_self
  | _ :: second :: _ => exact ⟨trivial, rfl⟩

theorem bounded_ofBinding (form : MacroForm) (access : List Node) (keyword : Node)
    (write : WriteKeyword) (binding : List Node) :
    Bounded (fun definition => definition.bound.weight) (Node.weights binding)
      (ofBinding form access keyword write binding) := by
  rw [ofBinding]
  cases keyword.arguments with
  | cons argument _ => exact ⟨trivial, rfl⟩
  | nil =>
      dsimp only
      have reach := Node.weights_dropWhile_le (·.name? ≠ some Keyword.assignment) binding
      cases left : binding.dropWhile (·.name? ≠ some Keyword.assignment) with
      | nil => exact ⟨trivial, rfl⟩
      | cons assignment expressions =>
          rw [left, Node.weights] at reach
          refine (bounded_boundName _ write _).bind fun name => ?_
          refine Bounded.map (bounded_boundExpression _ write expressions) ?_ fun _ => rfl
          omega

theorem bounded_ofForm {form : MacroForm}
    (writes : form.modifiers.any (·.writeKeyword?.isSome) = true) :
    Bounded (fun definition => definition.bound.weight) (Node.weights form.modifiers)
      (ofForm form) := by
  have stops : form.modifiers.any (fun node => !node.writeKeyword?.isNone) = true := by
    simp only [Option.not_isNone]
    exact writes
  obtain ⟨keyword, binding, left, keyed⟩ := exists_of_dropWhile stops
  have reach := Node.weights_dropWhile_le (·.writeKeyword?.isNone) form.modifiers
  rw [left, Node.weights] at reach
  simp only [ofForm, left]
  cases named : keyword.writeKeyword? with
  | none =>
      rw [named] at keyed
      cases keyed
  | some write => exact (bounded_ofBinding form _ keyword write binding).weaken (by omega)

end LexicalVariable

end MessageForms
