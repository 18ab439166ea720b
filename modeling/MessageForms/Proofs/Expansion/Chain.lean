import Mathlib.Order.Bounds.Basic
import MessageForms.Expansion.Walk
import MessageForms.Expansion.Recipe
import MessageForms.Proofs.Running

set_option autoImplicit false

/-! Chains of steps. A step replaces a node, leaves it as it is or fails, whatever the log holds.
Expansion of one node repeats the step up to the first one that leaves its node or fails, unless more
steps replace the node than the limit allows. Without a limit an expansion ends if its chain does,
and the patience has no part in how it ends. -/

namespace MessageForms

namespace StepLimit

/-- The limit lets a chain have so many replacements. A limit below zero is as one of zero. -/
def Allows : StepLimit → Nat → Prop
  | .atMost replacements, steps => (steps : Int) ≤ max replacements 0
  | .unlimited, _ => True

instance (limit : StepLimit) (steps : Nat) : Decidable (limit.Allows steps) :=
  match limit with
  | .atMost replacements => inferInstanceAs (Decidable ((steps : Int) ≤ max replacements 0))
  | .unlimited => inferInstanceAs (Decidable True)

def IsWithin : StepLimit → StepLimit → Prop
  | .atMost replacements, .atMost more => replacements ≤ more
  | _, .unlimited => True
  | .unlimited, .atMost _ => False

def allowance (patience : Nat) : StepLimit → Nat
  | .atMost replacements => replacements.toNat
  | .unlimited => patience

theorem Allows.le_allowance {limit : StepLimit} {steps patience : Nat} (allows : limit.Allows steps)
    (patient : steps ≤ patience) : steps ≤ limit.allowance patience := by
  cases limit with
  | atMost replacements =>
      have within : (steps : Int) ≤ max replacements 0 := allows
      change steps ≤ replacements.toNat
      omega
  | unlimited => exact patient

theorem allows_of_le_allowance {limit : StepLimit} {steps patience : Nat}
    (within : steps ≤ limit.allowance patience) : limit.Allows steps := by
  cases limit with
  | atMost replacements =>
      have counted : steps ≤ replacements.toNat := within
      change (steps : Int) ≤ max replacements 0
      omega
  | unlimited => trivial

theorem Allows.weaken {limit wider : StepLimit} {steps : Nat} (allows : limit.Allows steps)
    (within : limit.IsWithin wider) : wider.Allows steps := by
  cases wider with
  | unlimited => trivial
  | atMost more =>
      cases limit with
      | unlimited => exact within.elim
      | atMost replacements =>
          have fewer : replacements ≤ more := within
          have counted : (steps : Int) ≤ max replacements 0 := allows
          change (steps : Int) ≤ max more 0
          omega

end StepLimit

namespace MacroTable

/-- What one step makes of a node: `none` if the node stays as it is. -/
def step (table : MacroTable) (node : Node) : Except Fault (Option Node) :=
  match table.expandOnce node #[] with
  | .ok next _ => .ok next
  | .error fault _ => .error fault

/-- The node after so many steps, counting those that leave it as it is. -/
def nodeAfter (table : MacroTable) (node : Node) : Nat → Except Fault Node
  | 0 => .ok node
  | steps + 1 => do
      let reached ← table.nodeAfter node steps
      return (← table.step reached).getD reached

/-- Behind so many steps, one more leaves the node as it is. -/
def StaysAfter (table : MacroTable) (node : Node) (steps : Nat) : Prop :=
  ∃ reached, table.nodeAfter node steps = .ok reached ∧ table.step reached = .ok none

/-- Behind so many steps, one more fails, or one did before. -/
def FailsAfter (table : MacroTable) (node : Node) (steps : Nat) : Prop :=
  ∃ fault, table.nodeAfter node (steps + 1) = .error fault

/-- The expansion of a node ends like this, however much more patience it is given. -/
def ExpansionEnds (table : MacroTable) (limit : StepLimit) (node : Node) (log : Array LogEntry)
    (ending : EStateM.Result Fault (Array LogEntry) (Option Node)) : Prop :=
  ∃ enough, ∀ patience, enough ≤ patience → table.expandAll limit patience node log = ending

/-- So many steps, each of which replaces its node, lead from one node to the other. -/
inductive Replaces (table : MacroTable) : Nat → Node → Node → Prop where
  | start {node : Node} : Replaces table 0 node node
  | more {steps : Nat} {node next last : Node} (replaced : table.step node = .ok (some next))
      (others : Replaces table steps next last) : Replaces table (steps + 1) node last

variable {table : MacroTable} {node next last : Node} {steps : Nat} {fault : Fault}

/-! ### One step -/

/-- All that a step can do, and what it logs. -/
theorem expandOnce_cases (table : MacroTable) (node : Node) :
    (table.step node = .ok none ∧ table.expandOnce node = pure none) ∨
    (∃ fault, table.step node = .error fault ∧ table.expandOnce node = throw fault) ∨
    ∃ next entry, table.step node = .ok (some next) ∧
      ∀ log, table.expandOnce node log = .ok (some next) (log.push entry) := by
  unfold step
  cases node with
  | macroForm modifiers position =>
      rw [expandOnce]
      cases table.find? modifiers with
      | none => exact .inl ⟨rfl, rfl⟩
      | some expander =>
          dsimp only
          cases expander.expand { modifiers, position } with
          | error fault => exact .inr (.inl ⟨fault, rfl, rfl⟩)
          | ok replacement =>
              cases replacement with
              | none => exact .inl ⟨rfl, rfl⟩
              | some result => exact .inr (.inr ⟨result, _, rfl, fun log => rfl⟩)
  | _ => exact .inl ⟨rfl, rfl⟩

theorem expandOnce_of_stays (stays : table.step node = .ok none) :
    table.expandOnce node = pure none := by
  rcases expandOnce_cases table node with ⟨-, same⟩ | ⟨fault, fails, -⟩ | ⟨next, _, replaced, -⟩
  · exact same
  · rw [stays] at fails
    cases fails
  · rw [stays] at replaced
    cases replaced

theorem expandOnce_of_fails (fails : table.step node = .error fault) :
    table.expandOnce node = throw fault := by
  rcases expandOnce_cases table node with ⟨stays, -⟩ | ⟨other, again, same⟩ | ⟨next, _, replaced, -⟩
  · rw [fails] at stays
    cases stays
  · rw [fails] at again
    cases again
    exact same
  · rw [fails] at replaced
    cases replaced

theorem exists_expandOnce_of_replaced (replaced : table.step node = .ok (some next)) :
    ∃ entry, ∀ log, table.expandOnce node log = .ok (some next) (log.push entry) := by
  rcases expandOnce_cases table node with ⟨stays, -⟩ | ⟨fault, fails, -⟩ | ⟨other, entry, again, same⟩
  · rw [replaced] at stays
    cases stays
  · rw [replaced] at fails
    cases fails
  · rw [replaced] at again
    cases again
    exact ⟨entry, same⟩

/-! ### Chains -/

theorem nodeAfter_succ_of_replaced (replaced : table.step node = .ok (some next)) (count : Nat) :
    table.nodeAfter node (count + 1) = table.nodeAfter next count := by
  induction count with
  | zero =>
      rw [nodeAfter, nodeAfter, nodeAfter]
      change (do return (← table.step node).getD node : Except Fault Node) = _
      rw [replaced]
      rfl
  | succ count ih => rw [nodeAfter, ih, ← nodeAfter]

theorem nodeAfter_of_stays (stays : table.step node = .ok none) (count : Nat) :
    table.nodeAfter node count = .ok node := by
  induction count with
  | zero => rfl
  | succ count ih =>
      rw [nodeAfter, ih]
      change (do return (← table.step node).getD node : Except Fault Node) = _
      rw [stays]
      rfl

theorem nodeAfter_succ_of_fails (fails : table.step node = .error fault) (count : Nat) :
    table.nodeAfter node (count + 1) = .error fault := by
  induction count with
  | zero =>
      rw [nodeAfter, nodeAfter]
      change (do return (← table.step node).getD node : Except Fault Node) = _
      rw [fails]
      rfl
  | succ count ih =>
      rw [nodeAfter, ih]
      rfl

namespace Replaces

theorem nodeAfter_add (replaces : table.Replaces steps node last) (count : Nat) :
    table.nodeAfter node (steps + count) = table.nodeAfter last count := by
  induction replaces with
  | start => rw [Nat.zero_add]
  | @more steps node next last replaced others ih =>
      rw [Nat.succ_add, nodeAfter_succ_of_replaced replaced, ih]

theorem nodeAfter_eq (replaces : table.Replaces steps node last) :
    table.nodeAfter node steps = .ok last :=
  replaces.nodeAfter_add 0

theorem exists_between (replaces : table.Replaces steps node last) {count : Nat}
    (before : count < steps) :
    ∃ reached following, table.nodeAfter node count = .ok reached ∧
      table.step reached = .ok (some following) ∧
      table.nodeAfter node (count + 1) = .ok following := by
  induction replaces generalizing count with
  | start => exact (Nat.not_lt_zero _ before).elim
  | @more steps node next last replaced others ih =>
      cases count with
      | zero =>
          refine ⟨node, next, rfl, replaced, ?_⟩
          rw [nodeAfter_succ_of_replaced replaced, nodeAfter]
      | succ count =>
          obtain ⟨reached, following, reachedAt, again, followingAt⟩ :=
            ih (Nat.lt_of_succ_lt_succ before)
          rw [nodeAfter_succ_of_replaced replaced, nodeAfter_succ_of_replaced replaced]
          exact ⟨reached, following, reachedAt, again, followingAt⟩

theorem isLeast_stays (replaces : table.Replaces steps node last)
    (stays : table.step last = .ok none) : IsLeast {count | table.StaysAfter node count} steps := by
  refine ⟨⟨last, replaces.nodeAfter_eq, stays⟩, ?_⟩
  rintro count ⟨reached, reachedAt, staysEarlier⟩
  apply Nat.le_of_not_lt
  intro before
  obtain ⟨other, following, otherAt, replaced, -⟩ := replaces.exists_between before
  rw [reachedAt] at otherAt
  cases otherAt
  rw [staysEarlier] at replaced
  cases replaced

theorem isLeast_fails (replaces : table.Replaces steps node last)
    (fails : table.step last = .error fault) :
    IsLeast {count | table.FailsAfter node count} steps := by
  refine ⟨⟨fault, ?_⟩, ?_⟩
  · rw [replaces.nodeAfter_add, nodeAfter_succ_of_fails fails 0]
  · rintro count ⟨other, failed⟩
    apply Nat.le_of_not_lt
    intro before
    obtain ⟨_, _, -, -, followingAt⟩ := replaces.exists_between before
    rw [failed] at followingAt
    cases followingAt

theorem not_failsAfter (replaces : table.Replaces steps node last)
    (stays : table.step last = .ok none) (count : Nat) : ¬ table.FailsAfter node count := by
  rintro ⟨fault, failed⟩
  by_cases before : count < steps
  · obtain ⟨_, _, -, -, followingAt⟩ := replaces.exists_between before
    rw [failed] at followingAt
    cases followingAt
  · obtain ⟨more, rfl⟩ := Nat.exists_eq_add_of_le (Nat.le_of_not_lt before)
    rw [Nat.add_assoc, replaces.nodeAfter_add, nodeAfter_of_stays stays] at failed
    cases failed

theorem not_staysAfter (replaces : table.Replaces steps node last)
    (fails : table.step last = .error fault) (count : Nat) : ¬ table.StaysAfter node count := by
  rintro ⟨reached, reachedAt, stays⟩
  by_cases before : count < steps
  · obtain ⟨other, _, otherAt, replaced, -⟩ := replaces.exists_between before
    rw [reachedAt] at otherAt
    cases otherAt
    rw [stays] at replaced
    cases replaced
  · obtain ⟨more, rfl⟩ := Nat.exists_eq_add_of_le (Nat.le_of_not_lt before)
    rw [replaces.nodeAfter_add] at reachedAt
    cases more with
    | zero =>
        cases reachedAt
        rw [fails] at stays
        cases stays
    | succ more =>
        rw [nodeAfter_succ_of_fails fails] at reachedAt
        cases reachedAt

end Replaces

/-- Either the steps replace the node so many times, or before that one leaves it or fails. -/
theorem stops_or_replaces (table : MacroTable) (bound : Nat) (node : Node) :
    (∃ steps last, steps < bound ∧ table.Replaces steps node last ∧
      (table.step last = .ok none ∨ ∃ fault, table.step last = .error fault)) ∨
    ∃ last, table.Replaces bound node last := by
  induction bound generalizing node with
  | zero => exact .inr ⟨node, .start⟩
  | succ bound ih =>
      cases outcome : table.step node with
      | error fault =>
          exact .inl ⟨0, node, Nat.succ_pos bound, .start, .inr ⟨fault, outcome⟩⟩
      | ok replacement =>
          cases replacement with
          | none => exact .inl ⟨0, node, Nat.succ_pos bound, .start, .inl outcome⟩
          | some next =>
              rcases ih next with ⟨steps, last, below, replaces, stops⟩ | ⟨last, replaces⟩
              · exact .inl ⟨steps + 1, last, Nat.succ_lt_succ below, .more outcome replaces, stops⟩
              · exact .inr ⟨last, .more outcome replaces⟩

theorem StaysAfter.exists_replaces {count : Nat} (staysAfter : table.StaysAfter node count) :
    ∃ steps last, table.Replaces steps node last ∧ table.step last = .ok none := by
  rcases stops_or_replaces table (count + 1) node with
    ⟨steps, last, -, replaces, stays | ⟨fault, fails⟩⟩ | ⟨last, replaces⟩
  · exact ⟨steps, last, replaces, stays⟩
  · exact (replaces.not_staysAfter fails count staysAfter).elim
  · obtain ⟨reached, reachedAt, stays⟩ := staysAfter
    obtain ⟨other, _, otherAt, replaced, -⟩ := replaces.exists_between (Nat.lt_succ_self count)
    rw [reachedAt] at otherAt
    cases otherAt
    rw [stays] at replaced
    cases replaced

theorem FailsAfter.exists_replaces {count : Nat} (failsAfter : table.FailsAfter node count) :
    ∃ steps last fault, table.Replaces steps node last ∧ table.step last = .error fault := by
  rcases stops_or_replaces table (count + 1) node with
    ⟨steps, last, -, replaces, stays | ⟨fault, fails⟩⟩ | ⟨last, replaces⟩
  · exact (replaces.not_failsAfter stays count failsAfter).elim
  · exact ⟨steps, last, fault, replaces, fails⟩
  · obtain ⟨other, failed⟩ := failsAfter
    obtain ⟨_, _, -, -, followingAt⟩ := replaces.exists_between (Nat.lt_succ_self count)
    rw [failed] at followingAt
    cases followingAt

theorem exists_replaces_of_isLeast_stays
    (least : IsLeast {count | table.StaysAfter node count} steps) :
    ∃ last, table.Replaces steps node last ∧ table.step last = .ok none := by
  obtain ⟨count, last, replaces, stays⟩ := StaysAfter.exists_replaces least.1
  obtain rfl := (replaces.isLeast_stays stays).unique least
  exact ⟨last, replaces, stays⟩

theorem exists_replaces_of_isLeast_fails
    (least : IsLeast {count | table.FailsAfter node count} steps) :
    ∃ last fault, table.Replaces steps node last ∧ table.step last = .error fault := by
  obtain ⟨count, last, fault, replaces, fails⟩ := FailsAfter.exists_replaces least.1
  obtain rfl := (replaces.isLeast_fails fails).unique least
  exact ⟨last, fault, replaces, fails⟩

/-! ### Expansion along a chain -/

section Expansion

variable (log : Array LogEntry)

theorem expandUpTo_of_stays (stays : table.step node = .ok none) (exceeded : Fault)
    (allowed : Nat) : table.expandUpTo exceeded allowed node = pure none := by
  cases allowed <;> rw [expandUpTo, expandOnce_of_stays stays] <;> rfl

theorem expandUpTo_of_fails (fails : table.step node = .error fault) (exceeded : Fault)
    (allowed : Nat) : table.expandUpTo exceeded allowed node = throw fault := by
  cases allowed <;> rw [expandUpTo, expandOnce_of_fails fails] <;> rfl

/-- A chain within the allowance comes to its last node. Its own log entries, one for each
replacement, do not hang on how large the allowance is. -/
theorem Replaces.exists_expandUpTo_of_stays (replaces : table.Replaces steps node last)
    (stays : table.step last = .ok none) :
    ∃ found after, (∀ exceeded allowed, steps ≤ allowed →
        table.expandUpTo exceeded allowed node log = .ok found after) ∧
      found.getD node = last ∧ (found = none ↔ steps = 0) ∧ after.size = log.size + steps := by
  induction replaces generalizing log with
  | start =>
      refine ⟨none, log, ?_, rfl, by simp, rfl⟩
      intro exceeded allowed within
      rw [expandUpTo_of_stays stays]
      rfl
  | @more steps node next last replaced others ih =>
      obtain ⟨entry, taken⟩ := exists_expandOnce_of_replaced replaced
      obtain ⟨found, after, done, same, -, counted⟩ := ih (log.push entry) stays
      refine ⟨some (found.getD next), after, ?_, same, by simp, ?_⟩
      · intro exceeded allowed within
        obtain ⟨less, rfl⟩ := Nat.exists_eq_add_of_le' within
        rw [← Nat.add_assoc, expandUpTo, bind_of_ok (taken log)]
        exact bind_of_ok (done exceeded (less + steps) (Nat.le_add_left steps less))
      · rw [counted, Array.size_push]
        omega

theorem Replaces.exists_expandUpTo_of_fails (replaces : table.Replaces steps node last)
    (fails : table.step last = .error fault) :
    ∃ after, (∀ exceeded allowed, steps ≤ allowed →
        table.expandUpTo exceeded allowed node log = .error fault after) ∧
      after.size = log.size + steps := by
  induction replaces generalizing log with
  | start =>
      refine ⟨log, ?_, rfl⟩
      intro exceeded allowed within
      rw [expandUpTo_of_fails fails]
      rfl
  | @more steps node next last replaced others ih =>
      obtain ⟨entry, taken⟩ := exists_expandOnce_of_replaced replaced
      obtain ⟨after, failed, counted⟩ := ih (log.push entry) fails
      refine ⟨after, ?_, ?_⟩
      · intro exceeded allowed within
        obtain ⟨less, rfl⟩ := Nat.exists_eq_add_of_le' within
        rw [← Nat.add_assoc, expandUpTo, bind_of_ok (taken log)]
        exact bind_of_error (failed exceeded (less + steps) (Nat.le_add_left steps less))
      · rw [counted, Array.size_push]
        omega

theorem exists_expandUpTo_of_replaces {allowed : Nat}
    (replaces : table.Replaces (allowed + 1) node last) :
    ∃ after, (∀ exceeded, table.expandUpTo exceeded allowed node log = .error exceeded after) ∧
      after.size = log.size + allowed + 1 := by
  induction allowed generalizing node log with
  | zero =>
      cases replaces with
      | more replaced others =>
          obtain ⟨entry, taken⟩ := exists_expandOnce_of_replaced replaced
          refine ⟨log.push entry, ?_, Array.size_push entry⟩
          intro exceeded
          rw [expandUpTo, bind_of_ok (taken log)]
          rfl
  | succ allowed ih =>
      cases replaces with
      | more replaced others =>
          obtain ⟨entry, taken⟩ := exists_expandOnce_of_replaced replaced
          obtain ⟨after, failed, counted⟩ := ih (log.push entry) others
          refine ⟨after, ?_, ?_⟩
          · intro exceeded
            rw [expandUpTo, bind_of_ok (taken log)]
            exact bind_of_error (failed exceeded)
          · rw [counted, Array.size_push]
            omega

/-- An expansion that succeeds has gone along a chain within the allowance, and comes to the same
with any allowance that the chain is within. -/
theorem exists_replaces_of_expandUpTo {exceeded : Fault} {allowed : Nat} {found : Option Node}
    {after : Array LogEntry}
    (done : table.expandUpTo exceeded allowed node log = .ok found after) :
    ∃ steps last, steps ≤ allowed ∧ table.Replaces steps node last ∧
      table.step last = .ok none ∧ found.getD node = last ∧ (found = none ↔ steps = 0) ∧
      ∀ other more, steps ≤ more → table.expandUpTo other more node log = .ok found after := by
  rcases stops_or_replaces table (allowed + 1) node with
    ⟨steps, last, below, replaces, stays | ⟨fault, fails⟩⟩ | ⟨last, replaces⟩
  · have within := Nat.le_of_lt_succ below
    obtain ⟨comes, final, again, same, unchanged, -⟩ :=
      replaces.exists_expandUpTo_of_stays log stays
    rw [again exceeded allowed within] at done
    cases done
    exact ⟨steps, last, within, replaces, stays, same, unchanged, again⟩
  · obtain ⟨_, failed, -⟩ := replaces.exists_expandUpTo_of_fails log fails
    rw [failed exceeded allowed (Nat.le_of_lt_succ below)] at done
    cases done
  · obtain ⟨_, failed, -⟩ := exists_expandUpTo_of_replaces log replaces
    rw [failed exceeded] at done
    cases done

theorem exists_expandAll_eq (table : MacroTable) (limit : StepLimit) (patience : Nat)
    (node : Node) :
    ∃ exceeded, table.expandAll limit patience node =
      table.expandUpTo exceeded (limit.allowance patience) node := by
  cases limit with
  | atMost replacements => exact ⟨_, rfl⟩
  | unlimited => exact ⟨_, rfl⟩

theorem exists_replaces_of_expandAll {limit : StepLimit} {patience : Nat} {found : Option Node}
    {after : Array LogEntry} (done : table.expandAll limit patience node log = .ok found after) :
    ∃ steps, table.Replaces steps node (found.getD node) ∧
      table.step (found.getD node) = .ok none ∧ (found = none ↔ steps = 0) := by
  obtain ⟨exceeded, same⟩ := exists_expandAll_eq table limit patience node
  rw [same] at done
  obtain ⟨steps, _, -, replaces, stays, rfl, unchanged, -⟩ := exists_replaces_of_expandUpTo log done
  exact ⟨steps, replaces, stays, unchanged⟩

theorem expandAll_of_stays (stays : table.step node = .ok none) (limit : StepLimit)
    (patience : Nat) : table.expandAll limit patience node = pure none := by
  obtain ⟨exceeded, same⟩ := exists_expandAll_eq table limit patience node
  rw [same, expandUpTo_of_stays stays]

theorem Replaces.exists_expansionEnds_of_stays {limit : StepLimit}
    (replaces : table.Replaces steps node last) (stays : table.step last = .ok none)
    (allows : limit.Allows steps) :
    ∃ after, table.ExpansionEnds limit node log
      (.ok (if steps = 0 then none else some last) after) := by
  obtain ⟨found, after, done, same, unchanged, -⟩ := replaces.exists_expandUpTo_of_stays log stays
  have result : found = if steps = 0 then none else some last := by
    cases found with
    | none => rw [if_pos (unchanged.mp rfl)]
    | some final =>
        have replaced : steps ≠ 0 := fun unmoved => by cases unchanged.mpr unmoved
        rw [if_neg replaced]
        exact congrArg some same
  refine ⟨after, steps, ?_⟩
  intro patience patient
  obtain ⟨exceeded, same⟩ := exists_expandAll_eq table limit patience node
  rw [same, ← result]
  exact done exceeded _ (allows.le_allowance patient)

theorem Replaces.exists_expansionEnds_of_fails {limit : StepLimit}
    (replaces : table.Replaces steps node last) (fails : table.step last = .error fault)
    (allows : limit.Allows steps) :
    ∃ after, table.ExpansionEnds limit node log (.error fault after) := by
  obtain ⟨after, failed, -⟩ := replaces.exists_expandUpTo_of_fails log fails
  refine ⟨after, steps, ?_⟩
  intro patience patient
  obtain ⟨exceeded, same⟩ := exists_expandAll_eq table limit patience node
  rw [same]
  exact failed exceeded _ (allows.le_allowance patient)

theorem exists_expansionEnds_of_exceeded {replacements : Int}
    (replaces : table.Replaces (replacements.toNat + 1) node last) :
    ∃ after, table.ExpansionEnds (.atMost replacements) node log
      (.error (.expansionLimit ((max replacements 0).toNat + 1)) after) := by
  obtain ⟨after, failed, -⟩ := exists_expandUpTo_of_replaces log replaces
  have same : (max replacements 0).toNat = replacements.toNat := by omega
  rw [same]
  exact ⟨after, 0, fun patience _ => failed _⟩

/-- Without a limit a chain that never stops uses up any patience, and logs more the larger it is. -/
theorem not_expansionEnds_of_replaces (replaces : ∀ steps, ∃ last, table.Replaces steps node last)
    (ending : EStateM.Result Fault (Array LogEntry) (Option Node)) :
    ¬ table.ExpansionEnds .unlimited node log ending := by
  rintro ⟨enough, ends⟩
  have broken (patience : Nat) (patient : enough ≤ patience) :
      ∃ after, ending = .error .exhausted after ∧ after.size = log.size + patience + 1 := by
    obtain ⟨last, chain⟩ := replaces (patience + 1)
    obtain ⟨after, failed, counted⟩ := exists_expandUpTo_of_replaces log chain
    exact ⟨after, (ends patience patient).symm.trans (failed .exhausted), counted⟩
  obtain ⟨after, rfl, counted⟩ := broken enough (Nat.le_refl enough)
  obtain ⟨later, same, countedLater⟩ := broken (enough + 1) (Nat.le_succ enough)
  cases same
  omega

theorem ExpansionEnds.weaken {limit wider : StepLimit} {found : Option Node}
    {after : Array LogEntry} {log : Array LogEntry}
    (ends : table.ExpansionEnds limit node log (.ok found after))
    (within : limit.IsWithin wider) : table.ExpansionEnds wider node log (.ok found after) := by
  obtain ⟨enough, done⟩ := ends
  have first := done enough (Nat.le_refl enough)
  obtain ⟨exceeded, same⟩ := exists_expandAll_eq table limit enough node
  rw [same] at first
  obtain ⟨steps, _, counted, -, -, -, -, again⟩ := exists_replaces_of_expandUpTo log first
  have allows := (StepLimit.allows_of_le_allowance counted).weaken within
  refine ⟨steps, ?_⟩
  intro patience patient
  obtain ⟨other, same⟩ := exists_expandAll_eq table wider patience node
  rw [same]
  exact again other _ (allows.le_allowance patient)

end Expansion

/-! ### Expansion is the bounded iteration of the step -/

section Iteration

variable {limit : StepLimit}

theorem exists_replaces_of_unstopped
    (unsettled : ∀ count, IsLeast {steps | table.StaysAfter node steps} count → ¬ limit.Allows count)
    (unfailed : ∀ count, IsLeast {steps | table.FailsAfter node steps} count → ¬ limit.Allows count)
    {allowed : Nat} (allows : ∀ count, count ≤ allowed → limit.Allows count) :
    ∃ last, table.Replaces (allowed + 1) node last := by
  rcases stops_or_replaces table (allowed + 1) node with
    ⟨steps, last, below, replaces, stays | ⟨fault, fails⟩⟩ | replaces
  · have least := replaces.isLeast_stays stays
    exact (unsettled steps least (allows steps (Nat.le_of_lt_succ below))).elim
  · have least := replaces.isLeast_fails fails
    exact (unfailed steps least (allows steps (Nat.le_of_lt_succ below))).elim
  · exact replaces

/-- Expansion repeats the step. The first step that leaves its node as it is gives the result, if the
limit allows the replacements before it; the first step that fails gives the fault, on the same
condition. Of the two there is one at most. With neither, the fault of a limited expansion names the
first step too many, and an unlimited expansion does not end. A result stays the same under every
larger limit. -/
theorem expandAll_iterates (table : MacroTable) (limit : StepLimit) (node : Node)
    (log : Array LogEntry) :
    (∀ count, IsLeast {steps | table.StaysAfter node steps} count → limit.Allows count →
      ∃ final after, table.nodeAfter node count = .ok final ∧
        table.expandOnce final = pure none ∧
        table.ExpansionEnds limit node log
          (.ok (if count = 0 then none else some final) after)) ∧
    (∀ count, IsLeast {steps | table.FailsAfter node steps} count → limit.Allows count →
      ∃ fault after, table.nodeAfter node (count + 1) = .error fault ∧
        table.ExpansionEnds limit node log (.error fault after)) ∧
    (∀ count other, table.StaysAfter node count → ¬ table.FailsAfter node other) ∧
    ((∀ count, IsLeast {steps | table.StaysAfter node steps} count → ¬ limit.Allows count) →
      (∀ count, IsLeast {steps | table.FailsAfter node steps} count → ¬ limit.Allows count) →
      (∀ replacements, limit = .atMost replacements → ∃ after,
        table.ExpansionEnds limit node log
          (.error (.expansionLimit ((max replacements 0).toNat + 1)) after)) ∧
      (limit = .unlimited → ∀ ending, ¬ table.ExpansionEnds limit node log ending)) ∧
    (∀ found after wider, table.ExpansionEnds limit node log (.ok found after) →
      limit.IsWithin wider → table.ExpansionEnds wider node log (.ok found after)) := by
  refine ⟨?_, ?_, ?_, ?_, ?_⟩
  · intro count least allows
    obtain ⟨final, replaces, stays⟩ := exists_replaces_of_isLeast_stays least
    obtain ⟨after, ends⟩ := replaces.exists_expansionEnds_of_stays log stays allows
    exact ⟨final, after, replaces.nodeAfter_eq, expandOnce_of_stays stays, ends⟩
  · intro count least allows
    obtain ⟨last, fault, replaces, fails⟩ := exists_replaces_of_isLeast_fails least
    obtain ⟨after, ends⟩ := replaces.exists_expansionEnds_of_fails log fails allows
    refine ⟨fault, after, ?_, ends⟩
    rw [replaces.nodeAfter_add, nodeAfter_succ_of_fails fails]
  · intro count other staysAfter failsAfter
    obtain ⟨steps, final, replaces, stays⟩ := staysAfter.exists_replaces
    exact replaces.not_failsAfter stays other failsAfter
  · intro unsettled unfailed
    constructor
    · rintro replacements rfl
      obtain ⟨last, replaces⟩ := exists_replaces_of_unstopped unsettled unfailed
        fun count within => @StepLimit.allows_of_le_allowance (.atMost replacements) count 0 within
      exact exists_expansionEnds_of_exceeded log replaces
    · rintro rfl ending
      apply not_expansionEnds_of_replaces log
      intro steps
      cases steps with
      | zero => exact ⟨node, .start⟩
      | succ steps => exact exists_replaces_of_unstopped unsettled unfailed fun _ _ => trivial
  · intro found after wider ends within
    exact ends.weaken within

/-- A table whose one expander drops the first modifier takes two steps to empty a form of two. A
limit of two lets it, a limit of one does not. -/
theorem expandAll_iterates_shortening :
    let table : MacroTable := { expanders := [.ofRecipe [] (.atLeast 1) .dropFirst] }
    let node : Node := .macroForm [.parenthesized [] ⟨0, 0⟩, .braced [] ⟨0, 2⟩] ⟨0, 0⟩
    IsLeast {steps | table.StaysAfter node steps} 2 ∧
      (∃ after, table.ExpansionEnds (.atMost 2) node #[] (.ok (some (.macroForm [] ⟨0, 0⟩)) after)) ∧
      ∃ after, table.ExpansionEnds (.atMost 1) node #[] (.error (.expansionLimit 2) after) := by
  intro table node
  have replaces : table.Replaces 2 node (.macroForm [] ⟨0, 0⟩) := .more rfl (.more rfl .start)
  have least := replaces.isLeast_stays rfl
  refine ⟨least, ?_, ?_⟩
  · obtain ⟨final, after, reachedAt, -, ends⟩ :=
      (expandAll_iterates table (.atMost 2) node #[]).1 2 least (by decide)
    rw [replaces.nodeAfter_eq] at reachedAt
    cases reachedAt
    exact ⟨after, ends⟩
  · have beyond : ∀ count, IsLeast {steps | table.StaysAfter node steps} count →
        ¬ (StepLimit.atMost 1).Allows count := by
      intro count other
      obtain rfl := other.unique least
      decide
    have unfailed : ∀ count, IsLeast {steps | table.FailsAfter node steps} count →
        ¬ (StepLimit.atMost 1).Allows count :=
      fun count failing => (replaces.not_failsAfter rfl count failing.1).elim
    exact ((expandAll_iterates table (.atMost 1) node #[]).2.2.2.1 beyond unfailed).1 1 rfl

end Iteration

end MacroTable

end MessageForms
