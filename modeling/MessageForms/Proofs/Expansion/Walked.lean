import MessageForms.Proofs.Definition.Bounded
import MessageForms.Proofs.Expansion.Follows

set_option autoImplicit false

/-! Walks with a table that makes definitions. One step expands a form for good, so no chain is
longer than that and no limit is hit; the weight of a node bounds the depth of the walk, so the
patience is never used up. -/

namespace MessageForms.MacroTable

variable {table : MacroTable} {labels : Relabeling}

/-! ### One form -/

section Once

variable (makes : table.MakesDefinitions)

include makes

theorem follows_expandOnce (node : Node) :
    Follows table labels (Option.map (·.relabel labels)) (table.expandOnce node)
      (table.expandOnce (node.relabel labels)) := by
  cases node with
  | macroForm modifiers position =>
      simp only [Node.relabel, Node.relabelAll_eq_map, expandOnce, makes.find?_relabel]
      cases found : table.find? modifiers with
      | none => exact follows_pure rfl
      | some expander =>
          have same := makes.expand_relabel labels { modifiers, position } expander
            (List.mem_of_find?_eq_some found)
          simp only [MacroForm.relabel, Node.relabelAll_eq_map] at same
          simp only [same]
          rcases makes.expands modifiers position expander found with
            ⟨replacement, expanded, -⟩ | ⟨problem, failed⟩
          · rw [expanded]
            refine .ok (some replacement) ?_ ?_
            · exact fun log => ⟨_, rfl⟩
            · exact fun log => ⟨_, rfl⟩
          · rw [failed]
            refine .problem problem ⟨modifiers, position, expander, found, failed⟩ ?_ ?_
            · exact fun log => ⟨log, rfl⟩
            · exact fun log => ⟨log, rfl⟩
  | _ => exact follows_pure rfl

/-- What a step puts in the place of a node is not expanded again, and is no heavier. -/
theorem settled_of_expandOnce {node replacement : Node} {log after : Array LogEntry}
    (expanded : table.expandOnce node log = .ok (some replacement) after) :
    (∀ inner position, replacement ≠ .macroForm inner position) ∧
      replacement.weight ≤ node.weight := by
  cases node with
  | macroForm modifiers position =>
      rw [expandOnce] at expanded
      cases found : table.find? modifiers with
      | none =>
          rw [found] at expanded
          cases expanded
      | some expander =>
          simp only [found] at expanded
          rcases makes.expands modifiers position expander found with
            ⟨result, done, settled⟩ | ⟨problem, failed⟩
          · rw [done] at expanded
            cases expanded
            refine ⟨settled.final, ?_⟩
            rw [Node.weight]
            exact settled.lighter
          · rw [failed] at expanded
            cases expanded
  | _ => cases expanded

theorem expandUpTo_eq_expandOnce (exceeded : Fault) (allowed : Nat) (node : Node) :
    table.expandUpTo exceeded (allowed + 1) node = table.expandOnce node := by
  funext log
  rw [expandUpTo, bind_apply]
  cases expanded : table.expandOnce node log with
  | error fault after => rfl
  | ok result after =>
      cases result with
      | none => rfl
      | some next =>
          have final := (settled_of_expandOnce makes expanded).1
          have unchanged : table.expandUpTo exceeded allowed next = pure none := by
            cases next with
            | macroForm inner position => exact (final inner position rfl).elim
            | _ => cases allowed <;> rfl
          dsimp only
          rw [unchanged]
          rfl

theorem expandAll_eq_expandOnce {limit : StepLimit} (allowed : limit.AllowsOne) {patience : Nat}
    (patient : 0 < patience) (node : Node) :
    table.expandAll limit patience node = table.expandOnce node := by
  cases limit with
  | atMost replacements =>
      have positive : 1 ≤ replacements := allowed
      obtain ⟨less, same⟩ : ∃ less, replacements.toNat = less + 1 :=
        ⟨replacements.toNat - 1, by omega⟩
      rw [expandAll, same]
      exact expandUpTo_eq_expandOnce makes _ less node
  | unlimited =>
      obtain ⟨less, rfl⟩ : ∃ less, patience = less + 1 := ⟨patience - 1, by omega⟩
      exact expandUpTo_eq_expandOnce makes _ less node

end Once

/-! ### A tree -/

section Tree

variable {walk walk' : Node → Expanding (Option Node)}

theorem follows_walkEach {nodes : List Node}
    (follows : ∀ node ∈ nodes, Follows table labels (Option.map (·.relabel labels)) (walk node)
      (walk' (node.relabel labels))) :
    Follows table labels (Option.map (List.map (·.relabel labels))) (walkEach walk nodes)
      (walkEach walk' (nodes.map (·.relabel labels))) := by
  induction nodes with
  | nil => exact follows_pure rfl
  | cons node others ih =>
      refine (follows node List.mem_cons_self).bind fun walked _ => ?_
      refine (ih fun other among => follows other (List.mem_cons_of_mem node among)).bind
        fun walkedOthers _ => ?_
      cases walked <;> cases walkedOthers <;> exact follows_pure rfl

theorem follows_walkChildren {node : Node}
    (follows : ∀ child : Node, child.weight < node.weight →
      Follows table labels (Option.map (·.relabel labels)) (walk child)
        (walk' (child.relabel labels))) :
    Follows table labels (Option.map (·.relabel labels)) (walkChildren walk node)
      (walkChildren walk' (node.relabel labels)) := by
  have each {nodes : List Node} (within : 1 + Node.weights nodes ≤ node.weight) :
      Follows table labels (Option.map (List.map (·.relabel labels))) (walkEach walk nodes)
        (walkEach walk' (nodes.map (·.relabel labels))) := by
    apply follows_walkEach
    intro child among
    have lighter := Node.weight_le_weights among
    exact follows child (by omega)
  cases node with
  | macroForm inner position | parenthesized inner position | braced inner position =>
      simp only [Node.relabel, Node.relabelAll_eq_map]
      refine (each (Nat.le_refl _)).bind fun walked _ => follows_pure ?_
      cases walked <;> simp only [Option.map_none, Option.map_some, Node.relabel,
        Node.relabelAll_eq_map]
  | classDefinition origin name parent parameters access body position =>
      simp only [Node.relabel, Node.relabelAll_eq_map]
      refine (each (Nat.le_refl _)).bind fun walked _ => follows_pure ?_
      cases walked <;> simp only [Option.map_none, Option.map_some, Node.relabel,
        Node.relabelAll_eq_map]
  | methodDefinition origin name parameters access body position =>
      simp only [Node.relabel, Node.relabelAll_eq_map]
      refine (each (Nat.le_refl _)).bind fun walked _ => follows_pure ?_
      cases walked <;> simp only [Option.map_none, Option.map_some, Node.relabel,
        Node.relabelAll_eq_map]
  | lexicalVariable origin name write access bound position =>
      simp only [Node.relabel, Node.relabelAll_eq_map]
      have lighter : bound.weight < 1 + bound.weight := by omega
      refine (follows bound lighter).bind fun walked _ => follows_pure ?_
      cases walked <;> simp only [Option.map_none, Option.map_some, Node.relabel,
        Node.relabelAll_eq_map]
  | _ => exact follows_pure rfl

variable (makes : table.MakesDefinitions) {limit : StepLimit} (allowed : limit.AllowsOne)

include makes allowed

theorem follows_walkWithin {allowance : Nat} {node : Node} (enough : node.weight < allowance) :
    Follows table labels (Option.map (·.relabel labels)) (table.walkWithin limit allowance node)
      (table.walkWithin limit allowance (node.relabel labels)) := by
  induction allowance generalizing node with
  | zero => exact (Nat.not_lt_zero _ enough).elim
  | succ allowance ih =>
      have patient : 0 < allowance := Nat.lt_of_lt_of_le node.weight_pos (Nat.le_of_lt_succ enough)
      rw [walkWithin, walkWithin, expandAll_eq_expandOnce makes allowed patient,
        expandAll_eq_expandOnce makes allowed patient]
      refine (follows_expandOnce makes node).bind fun expanded comes => ?_
      have reached : (expanded.map (·.relabel labels)).getD (node.relabel labels) =
          (expanded.getD node).relabel labels := by
        cases expanded <;> rfl
      have lighter : (expanded.getD node).weight ≤ node.weight := by
        cases expanded with
        | none => exact Nat.le_refl _
        | some replacement =>
            obtain ⟨after, done⟩ := comes #[]
            exact (settled_of_expandOnce makes done).2
      rw [reached]
      refine (follows_walkChildren fun child within => ih (by omega)).bind
        fun rebuilt _ => follows_pure ?_
      cases rebuilt <;> rfl

theorem follows_walk (node : Node) :
    Follows table labels (Option.map (·.relabel labels)) (table.walk limit node)
      (table.walk limit (node.relabel labels)) := by
  have same : patience (node.relabel labels) = patience node := by
    rw [patience, patience, Node.weight_relabel]
  rw [walk, walk, same]
  exact follows_walkWithin makes allowed (Nat.lt_add_of_pos_right (by decide))

end Tree

end MessageForms.MacroTable
