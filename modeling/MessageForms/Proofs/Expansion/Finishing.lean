import MessageForms.Expansion.Walk
import MessageForms.Proofs.Expansion.Chain
import MessageForms.Proofs.Node.Within

set_option autoImplicit false

/-! How walks end. A walk goes on into the children of what a node is expanded to, so what bounds it
is not the tree that it starts from. If no expander makes a form heavier, the weight of that tree
still bounds the depth of the walk and, times the length of the chains, the replacements. -/

namespace MessageForms

namespace StepLimit

/-- The number of replacements that an expansion makes at most, if no chain is longer than this
without a limit. -/
def most (longest : Nat) : StepLimit → Nat
  | .atMost replacements => replacements.toNat + 1
  | .unlimited => longest

def Exceeded : StepLimit → Fault → Prop
  | .atMost replacements, fault => fault = .expansionLimit (replacements.toNat + 1)
  | .unlimited, _ => False

theorem allowance_le_most (limit : StepLimit) (longest : Nat) :
    limit.allowance longest ≤ limit.most longest := by
  cases limit with
  | atMost replacements => exact Nat.le_succ _
  | unlimited => exact Nat.le_refl longest

theorem allowance_mono (limit : StepLimit) {patience patience' : Nat}
    (more : patience ≤ patience') : limit.allowance patience ≤ limit.allowance patience' := by
  cases limit with
  | atMost replacements => exact Nat.le_refl _
  | unlimited => exact more

end StepLimit

/-! ### Runs that end -/

def logLeft {α : Type} : EStateM.Result Fault (Array LogEntry) α → Array LogEntry
  | .ok _ log => log
  | .error _ log => log

/-- The two runs are the same. They add so many entries to the log at most, and fail with none but
the given faults. -/
structure EndsAlike {α : Type} (faults : Fault → Prop) (most : Nat) (run run' : Expanding α) :
    Prop where
  same : run = run'
  logs : ∀ log, (logLeft (run log)).size ≤ log.size + most
  fails : ∀ log fault after, run log = .error fault after → faults fault

section EndsAlike

variable {α β : Type} {faults : Fault → Prop} {most more : Nat} {run run' : Expanding α}

theorem endsAlike_pure (most : Nat) (value : α) :
    EndsAlike faults most (pure value) (pure value) where
  same := rfl
  logs log := Nat.le_add_right log.size most
  fails log fault after failed := by cases failed

theorem EndsAlike.weaken (alike : EndsAlike faults most run run') (weaker : most ≤ more) :
    EndsAlike faults more run run' where
  same := alike.same
  logs log := Nat.le_trans (alike.logs log) (Nat.add_le_add_left weaker log.size)
  fails := alike.fails

theorem EndsAlike.bind (alike : EndsAlike faults most run run') {next next' : α → Expanding β}
    (others : ∀ value log after, run log = .ok value after →
      EndsAlike faults more (next value) (next' value)) :
    EndsAlike faults (most + more) (run >>= next) (run' >>= next') where
  same := by
    rw [← alike.same]
    funext log
    apply bind_congr_of_ok
    intro value after done
    rw [(others value log after done).same]
  logs log := by
    have first := alike.logs log
    rw [bind_apply]
    cases outcome : run log with
    | error fault after =>
        rw [outcome] at first
        exact Nat.le_trans first (Nat.add_le_add_left (Nat.le_add_right most more) log.size)
    | ok value after =>
        rw [outcome] at first
        have second := (others value log after outcome).logs after
        change after.size ≤ log.size + most at first
        dsimp only
        omega
  fails log fault last failed := by
    rw [bind_apply] at failed
    cases outcome : run log with
    | error other after =>
        rw [outcome] at failed
        cases failed
        exact alike.fails log fault last outcome
    | ok value after =>
        rw [outcome] at failed
        exact (others value log after outcome).fails after fault last failed

end EndsAlike

namespace MacroTable

/-- No expander makes a form that it expands heavier. -/
def GrowsNothing (table : MacroTable) : Prop :=
  ∀ modifiers position expander result, table.find? modifiers = some expander →
    expander.expand { modifiers, position } = .ok (some result) →
    result.weight ≤ (Node.macroForm modifiers position).weight

def RaisesFault (table : MacroTable) (fault : Fault) : Prop :=
  ∃ modifiers position expander, table.find? modifiers = some expander ∧
    expander.expand { modifiers, position } = .error fault

/-- Under the limit all chains end, without one since none has more replacements than this. -/
def ChainsEnd (table : MacroTable) (longest : Nat) : StepLimit → Prop
  | .atMost _ => True
  | .unlimited => ∀ steps node last, table.Replaces steps node last → steps ≤ longest

/-- A walk of the node ends: from some allowance on, more makes no difference to it. For each node
that the weight counts it makes no more replacements than a chain can have, and it fails only if an
expander does or a chain is too long for the limit. -/
def WalkEnds (table : MacroTable) (limit : StepLimit) (longest : Nat) (node : Node) : Prop :=
  ∀ allowance, node.weight + longest ≤ allowance →
    EndsAlike (fun fault => limit.Exceeded fault ∨ table.RaisesFault fault)
      (node.weight * limit.most longest)
      (table.walkWithin limit allowance node) (table.walk limit node)

/-! ### Chains -/

section Chains

variable {table : MacroTable} {node next last : Node} {steps : Nat} {fault : Fault}

theorem step_macroForm (table : MacroTable) (modifiers : List Node) (position : Position) :
    table.step (.macroForm modifiers position) =
      match table.find? modifiers with
      | none => .ok none
      | some expander => expander.expand { modifiers, position } := by
  unfold step
  rw [expandOnce]
  cases table.find? modifiers with
  | none => rfl
  | some expander =>
      dsimp only
      cases expander.expand { modifiers, position } with
      | error fault => rfl
      | ok replacement => cases replacement <;> rfl

theorem exists_expander_of_step (changes : table.step node ≠ .ok none) :
    ∃ modifiers position expander, node = .macroForm modifiers position ∧
      table.find? modifiers = some expander ∧
      expander.expand { modifiers, position } = table.step node := by
  cases node with
  | macroForm modifiers position =>
      rw [step_macroForm] at changes ⊢
      cases found : table.find? modifiers with
      | none =>
          rw [found] at changes
          exact (changes rfl).elim
      | some expander => exact ⟨modifiers, position, expander, rfl, found, rfl⟩
  | _ => exact (changes rfl).elim

theorem raisesFault_of_step (fails : table.step node = .error fault) :
    table.RaisesFault fault := by
  have changes : table.step node ≠ .ok none := by
    rw [fails]
    exact nofun
  obtain ⟨modifiers, position, expander, -, found, same⟩ := exists_expander_of_step changes
  exact ⟨modifiers, position, expander, found, same.trans fails⟩

theorem GrowsNothing.weight_le_of_step (grows : table.GrowsNothing)
    (replaced : table.step node = .ok (some next)) : next.weight ≤ node.weight := by
  have changes : table.step node ≠ .ok none := by
    rw [replaced]
    exact nofun
  obtain ⟨modifiers, position, expander, rfl, found, same⟩ := exists_expander_of_step changes
  exact grows modifiers position expander next found (same.trans replaced)

theorem Replaces.weight_le (replaces : table.Replaces steps node last)
    (grows : table.GrowsNothing) : last.weight ≤ node.weight := by
  induction replaces with
  | start => exact Nat.le_refl _
  | more replaced others ih => exact Nat.le_trans ih (grows.weight_le_of_step replaced)

theorem exists_end_of_chain {limit : StepLimit} {longest : Nat}
    (ends : table.ChainsEnd longest limit) (node : Node) (log : Array LogEntry) :
    ∃ steps last after, table.Replaces steps node last ∧ steps ≤ limit.most longest ∧
      after.size = log.size + steps ∧
      ((∃ found : Option Node, found.getD node = last ∧ ∀ patience, longest ≤ patience →
          table.expandAll limit patience node log = .ok found after) ∨
        ∃ fault, (limit.Exceeded fault ∨ table.RaisesFault fault) ∧
          ∀ patience, longest ≤ patience →
            table.expandAll limit patience node log = .error fault after) := by
  have few := limit.allowance_le_most longest
  rcases stops_or_replaces table (limit.allowance longest + 1) node with
    ⟨steps, last, below, replaces, stays | ⟨fault, fails⟩⟩ | ⟨last, replaces⟩
  · obtain ⟨found, after, done, same, -, counted⟩ := replaces.exists_expandUpTo_of_stays log stays
    refine ⟨steps, last, after, replaces, by omega, counted, .inl ⟨found, same, ?_⟩⟩
    intro patience patient
    have enough := limit.allowance_mono patient
    obtain ⟨exceeded, bounded⟩ := exists_expandAll_eq table limit patience node
    rw [bounded]
    exact done exceeded _ (by omega)
  · obtain ⟨after, failed, counted⟩ := replaces.exists_expandUpTo_of_fails log fails
    refine ⟨steps, last, after, replaces, by omega, counted,
      .inr ⟨fault, .inr (raisesFault_of_step fails), ?_⟩⟩
    intro patience patient
    have enough := limit.allowance_mono patient
    obtain ⟨exceeded, bounded⟩ := exists_expandAll_eq table limit patience node
    rw [bounded]
    exact failed exceeded _ (by omega)
  · cases limit with
    | unlimited => exact (Nat.not_succ_le_self _ (ends _ _ _ replaces)).elim
    | atMost replacements =>
        obtain ⟨after, failed, counted⟩ := exists_expandUpTo_of_replaces log replaces
        exact ⟨_, last, after, replaces, Nat.le_refl _, counted,
          .inr ⟨_, .inl rfl, fun patience _ => failed _⟩⟩

variable {limit : StepLimit} {longest patience patience' : Nat}

theorem endsAlike_expandAll (ends : table.ChainsEnd longest limit) (patient : longest ≤ patience)
    (patient' : longest ≤ patience') (node : Node) :
    EndsAlike (fun fault => limit.Exceeded fault ∨ table.RaisesFault fault) (limit.most longest)
      (table.expandAll limit patience node) (table.expandAll limit patience' node) where
  same := by
    funext log
    obtain ⟨_, _, _, -, -, -, ⟨found, -, done⟩ | ⟨fault, -, failed⟩⟩ :=
      exists_end_of_chain ends node log
    · rw [done _ patient, done _ patient']
    · rw [failed _ patient, failed _ patient']
  logs log := by
    obtain ⟨_, _, _, -, few, counted, ⟨found, -, done⟩ | ⟨fault, -, failed⟩⟩ :=
      exists_end_of_chain ends node log
    · rw [done _ patient, logLeft, counted]
      omega
    · rw [failed _ patient, logLeft, counted]
      omega
  fails log fault after failed := by
    obtain ⟨_, _, _, -, -, -, ⟨found, -, done⟩ | ⟨other, isFault, failing⟩⟩ :=
      exists_end_of_chain ends node log
    · rw [done _ patient] at failed
      cases failed
    · rw [failing _ patient] at failed
      cases failed
      exact isFault

theorem GrowsNothing.weight_le_of_expandAll (grows : table.GrowsNothing)
    {log after : Array LogEntry} {found : Option Node}
    (done : table.expandAll limit patience node log = .ok found after) :
    (found.getD node).weight ≤ node.weight := by
  obtain ⟨_, replaces, -⟩ := exists_replaces_of_expandAll log done
  exact replaces.weight_le grows

end Chains

/-! ### Children -/

section Children

variable {walk walk' : Node → Expanding (Option Node)}

theorem walkChildren_eq_walkEach (walk : Node → Expanding (Option Node)) (node : Node) :
    walkChildren walk node = do return (← walkEach walk node.reached).map node.withReached := by
  cases node with
  | lexicalVariable origin name write access bound position =>
      funext log
      simp only [walkChildren, Node.reached, walkEach, bind_apply]
      cases walk bound log with
      | error fault after => rfl
      | ok walked after => cases walked <;> rfl
  | _ => rfl

theorem walkEach_congr {nodes : List Node} (same : ∀ node ∈ nodes, walk node = walk' node) :
    walkEach walk nodes = walkEach walk' nodes := by
  induction nodes with
  | nil => rfl
  | cons node others ih =>
      have sameOthers := ih fun other among => same other (List.mem_cons_of_mem node among)
      rw [walkEach, walkEach, same node List.mem_cons_self, sameOthers]

theorem walkChildren_congr {node : Node} (same : ∀ child ∈ node.reached, walk child = walk' child) :
    walkChildren walk node = walkChildren walk' node := by
  rw [walkChildren_eq_walkEach, walkChildren_eq_walkEach, walkEach_congr same]

variable {faults : Fault → Prop} {most : Nat}

theorem endsAlike_walkEach {nodes : List Node}
    (alike : ∀ node ∈ nodes, EndsAlike faults (node.weight * most) (walk node) (walk' node)) :
    EndsAlike faults (Node.weights nodes * most) (walkEach walk nodes) (walkEach walk' nodes) := by
  induction nodes with
  | nil => exact endsAlike_pure _ none
  | cons node others ih =>
      have later := ih fun other among => alike other (List.mem_cons_of_mem node among)
      rw [Node.weights, Nat.add_mul]
      apply (alike node List.mem_cons_self).bind
      intro walked _ _ _
      rw [← Nat.add_zero (Node.weights others * most)]
      apply later.bind
      intro walkedOthers _ _ _
      cases walked <;> cases walkedOthers <;> exact endsAlike_pure 0 _

theorem endsAlike_walkChildren {node : Node}
    (alike : ∀ child ∈ node.reached,
      EndsAlike faults (child.weight * most) (walk child) (walk' child)) :
    EndsAlike faults (Node.weights node.reached * most) (walkChildren walk node)
      (walkChildren walk' node) := by
  rw [walkChildren_eq_walkEach, walkChildren_eq_walkEach]
  exact (endsAlike_walkEach alike).bind fun walked _ _ _ => endsAlike_pure 0 _

end Children

/-! ### Walks -/

section Walks

variable {table : MacroTable} (grows : table.GrowsNothing) {limit : StepLimit} {longest : Nat}
  (ends : table.ChainsEnd longest limit)

include grows ends

/-- The induction is on the allowance: each level spends one, and the children of what a node is
expanded to are together lighter than the node. -/
theorem endsAlike_walkWithin {allowance allowance' : Nat} {node : Node}
    (enough : node.weight + longest ≤ allowance) (enough' : node.weight + longest ≤ allowance') :
    EndsAlike (fun fault => limit.Exceeded fault ∨ table.RaisesFault fault)
      (node.weight * limit.most longest)
      (table.walkWithin limit allowance node) (table.walkWithin limit allowance' node) := by
  have positive := node.weight_pos
  induction allowance generalizing allowance' node with
  | zero => omega
  | succ less ih =>
      obtain ⟨less', rfl⟩ : ∃ less', allowance' = less' + 1 := ⟨allowance' - 1, by omega⟩
      obtain ⟨below, same⟩ : ∃ below, node.weight = 1 + below := ⟨node.weight - 1, by omega⟩
      rw [walkWithin, walkWithin, same, Nat.add_mul, Nat.one_mul]
      apply (endsAlike_expandAll ends (by omega) (by omega) node).bind
      intro expanded log after done
      have lighter := grows.weight_le_of_expandAll done
      rw [Node.weight_eq_reached] at lighter
      rw [← Nat.add_zero (below * limit.most longest)]
      have lessBelow : Node.weights (expanded.getD node).reached ≤ below := by omega
      refine (EndsAlike.weaken ?_ (Nat.mul_le_mul_right _ lessBelow)).bind
        fun rebuilt _ _ _ => endsAlike_pure 0 _
      apply endsAlike_walkChildren
      intro child among
      have inside := Node.weight_le_weights among
      exact ih (by omega) (by omega) child.weight_pos

theorem walkEnds (short : longest ≤ longChain) (node : Node) :
    table.WalkEnds limit longest node := by
  intro allowance enough
  exact endsAlike_walkWithin grows ends enough (Nat.add_le_add_left short node.weight)

theorem walk_eq_of_growsNothing (short : longest < longChain) (node : Node) :
    table.walk limit node = do
      let expanded ← table.expandAll limit longest node
      let rebuilt ← walkChildren (table.walk limit) (expanded.getD node)
      return rebuilt.or expanded := by
  have positive := node.weight_pos
  obtain ⟨less, spent⟩ : ∃ less, patience node = less + 1 :=
    ⟨patience node - 1, by rw [patience]; omega⟩
  have above : node.weight + longest ≤ less := by
    rw [patience] at spent
    omega
  have patient : longest ≤ less := by omega
  funext log
  rw [walk, spent, walkWithin,
    (endsAlike_expandAll ends patient (Nat.le_refl longest) node).same]
  apply bind_congr_of_ok
  intro expanded after done
  have lighter := grows.weight_le_of_expandAll done
  have same : walkChildren (table.walkWithin limit less) (expanded.getD node) =
      walkChildren (table.walk limit) (expanded.getD node) := by
    apply walkChildren_congr
    intro child among
    have inside := Node.weight_lt_of_reached among
    exact (walkEnds grows ends (Nat.le_of_lt short) child less (by omega)).same
  rw [same]

end Walks

end MacroTable

end MessageForms
