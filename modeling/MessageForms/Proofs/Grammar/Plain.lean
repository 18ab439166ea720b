import MessageForms.Proofs.Grammar.Program
import MessageForms.Proofs.Node.Within

set_option autoImplicit false

/-! Reading makes no definitions: the trees of the grammar stand for plain nodes. What is read of a
text, in any dialect, is the node of such a tree. -/

namespace MessageForms

namespace Grammar

section Nodes

variable (dialect : Dialect)

mutual

theorem Modifier.node_isPlain (modifier : Modifier) : (modifier.node dialect).IsPlain := by
  cases modifier with
  | literal token => exact Node.isPlain_of_children rfl nofun nofun
  | partialSend dot name arguments =>
      exact Node.isPlain_of_children rfl nofun arguments.nodes_isPlain
  | implicitSend name arguments =>
      exact Node.isPlain_of_children rfl nofun arguments.nodes_isPlain
  | parenthesized opening inner closing =>
      exact Node.isPlain_of_children rfl inner.nodes_isPlain nofun
  | braced opening inner closing =>
      exact Node.isPlain_of_children rfl inner.nodes_isPlain nofun
  | dotSend name target =>
      exact Node.isPlain_of_children rfl nofun
        (List.forall_mem_cons.mpr ⟨target.node_isPlain, nofun⟩)

theorem Arguments.nodes_isPlain (arguments : Arguments) :
    ∀ node ∈ arguments.nodes dialect, node.IsPlain := by
  cases arguments with
  | absent => exact nofun
  | listed opening inner closing => exact inner.nodes_isPlain

theorem Items.nodes_isPlain (items : Items) : ∀ node ∈ items.nodes dialect, node.IsPlain := by
  cases items with
  | empty => exact nofun
  | first item others => exact List.forall_mem_cons.mpr ⟨item.node_isPlain, others.nodes_isPlain⟩

theorem MoreItems.nodes_isPlain (items : MoreItems) :
    ∀ node ∈ items.nodes dialect, node.IsPlain := by
  cases items with
  | ended => exact nofun
  | trailing delimiter => exact nofun
  | more delimiter item others =>
      exact List.forall_mem_cons.mpr ⟨item.node_isPlain, others.nodes_isPlain⟩

theorem Expression.node_isPlain (expression : Expression) :
    (expression.node dialect).IsPlain := by
  cases expression with
  | single modifier => exact modifier.node_isPlain
  | operation left operator right =>
      exact Node.isPlain_of_children rfl nofun
        (List.forall_mem_cons.mpr
          ⟨left.node_isPlain, List.forall_mem_singleton.mpr right.node_isPlain⟩)
  | form first others =>
      exact Node.isPlain_of_children rfl
        (List.forall_mem_cons.mpr ⟨first.node_isPlain, others.nodes_isPlain⟩) nofun

theorem Modifiers.nodes_isPlain (modifiers : Modifiers) :
    ∀ node ∈ modifiers.nodes dialect, node.IsPlain := by
  cases modifiers with
  | last modifier => exact List.forall_mem_singleton.mpr modifier.node_isPlain
  | more modifier others =>
      exact List.forall_mem_cons.mpr ⟨modifier.node_isPlain, others.nodes_isPlain⟩

end

end Nodes

theorem exists_of_answer_ok {α β : Type} {text : Text} {value : β → α}
    {outcome : EStateM.Result Stop (List Token) β} {result : α}
    (given : answer text value outcome = .ok result) :
    ∃ tree rest, outcome = .ok tree rest ∧ value tree = result := by
  cases outcome with
  | ok tree rest =>
      cases given
      exact ⟨tree, rest, rfl, rfl⟩
  | error stop rest => cases given

section Texts

variable {dialect : Dialect} {text : Text}

theorem exists_parse_of_readText {node : Node} (reads : readText dialect text = .ok node) :
    ∃ tree rest, parseExpression dialect text = .ok tree rest ∧ tree.node dialect = node := by
  rw [readText, Reading.onText_expression] at reads
  exact exists_of_answer_ok reads

theorem exists_parse_of_form {file : Option Text} {program : Program} {form : Node}
    (reads : readProgram dialect file text = .ok program) (among : form ∈ program.forms) :
    ∃ tree rest, parseProgram dialect text = .ok tree rest ∧
      tree.nodes dialect = program.forms := by
  rw [readProgram] at reads
  cases outcome : Reading.onText (Reading.programItems dialect) text with
  | ok forms =>
      rw [outcome] at reads
      cases reads
      rw [Reading.onText_programItems] at outcome
      exact exists_of_answer_ok outcome
  | error fault =>
      rw [outcome] at reads
      cases fault with
      | problem problem =>
          cases reads
          cases among
      | _ => cases reads

end Texts

end Grammar

open Grammar

theorem readProgram_isPlain {dialect : Dialect} {file : Option Text} {text : Text}
    {program : Program} (reads : readProgram dialect file text = .ok program) :
    ∀ form ∈ program.forms, form.IsPlain := by
  intro form among
  obtain ⟨tree, rest, -, nodes⟩ := exists_parse_of_form reads among
  rw [← nodes] at among
  exact tree.nodes_isPlain dialect form among

end MessageForms
