import Mathlib.Data.List.Induction
import MessageForms.Expansion.Standard
import MessageForms.Proofs.Running

set_option autoImplicit false

/-! Histories of a table. A call either puts its expander behind all others or, when the name is
taken, changes nothing; so the table holds the first expander of each name, in the order of the calls,
and whatever it finds for a form it goes on finding. -/

namespace MessageForms.MacroTable

/-- What adds to a table. -/
inductive Call where
  | register (expander : Expander)
  | define (name : Text) (applies : List Node → Bool)
      (expand : MacroForm → Except Fault (Option Node))

namespace Call

def expander : Call → Expander
  | register expander => expander
  | define name applies expand => { name, applies, expand }

def name (call : Call) : Text :=
  call.expander.name

/-- What a call that succeeds gives back: an expander to whoever defines one. -/
def answer : Call → Option Expander
  | register _ => none
  | define name applies expand => some { name, applies, expand }

def run : Call → Registering (Option Expander)
  | register expander => do
      MacroTable.register expander
      return none
  | define name applies expand => return some (← MacroTable.define name applies expand)

end Call

/-- The table that a call leaves behind, whether it succeeds or not. -/
def after (table : MacroTable) (call : Call) : MacroTable :=
  match call.run table with
  | .ok _ left | .error _ left => left

def afterAll (table : MacroTable) (calls : List Call) : MacroTable :=
  calls.foldl after table

/-- The table is what the calls have made of an empty one. Of equal names `List.eraseDups` keeps the
first. -/
structure Records (table : MacroTable) (calls : List Call) : Prop where
  names : table.names = (calls.map Call.name).eraseDups
  distinct : table.names.Nodup
  size : table.size = table.names.length
  contains : ∀ name, table.contains name = true ↔ name ∈ table.names
  given : ∀ name, name ∈ table.names ↔ name ∈ calls.map Call.name
  /-- A name stands for the expander that it was first given to. -/
  kept : ∀ expander, expander ∈ table.expanders ↔
    (calls.map Call.expander).find? (fun other => other.name = expander.name) = some expander
  /-- A call fails exactly if its name is taken, and then it leaves the table as it is. -/
  answers : ∀ call : Call, call.run table =
    if call.name ∈ table.names then .error (.alreadyDefined call.name) table
    else .ok call.answer { expanders := table.expanders ++ [call.expander] }
  /-- The expander of a form is the first to be registered of those that apply to it. -/
  finds : ∀ modifiers expander, table.find? modifiers = some expander ↔
    ∃ earlier call later, calls = earlier ++ call :: later ∧ call.expander = expander ∧
      call.name ∉ earlier.map Call.name ∧ expander.applies modifiers = true ∧
      ∀ registered ∈ (afterAll empty earlier).expanders, registered.applies modifiers = false
  findsNone : ∀ modifiers, table.find? modifiers = none ↔
    ∀ expander ∈ table.expanders, expander.applies modifiers = false
  /-- No later call changes what is found for a form. -/
  keepsFound : ∀ modifiers expander, table.find? modifiers = some expander →
    ∀ later, (afterAll table later).find? modifiers = some expander

/-! ### One call -/

section One

variable {table : MacroTable} {call : Call}

theorem contains_iff (name : Text) : table.contains name = true ↔ name ∈ table.names := by
  rw [contains, List.contains_iff_mem]

theorem register_apply (expander : Expander) (table : MacroTable) :
    register expander table =
      if expander.name ∈ table.names then .error (.alreadyDefined expander.name) table
      else .ok () { expanders := table.expanders ++ [expander] } := by
  change (if table.contains expander.name = true then
      (throw (Fault.alreadyDefined expander.name) : Registering Unit)
    else set ({ expanders := table.expanders ++ [expander] } : MacroTable)) table = _
  by_cases taken : expander.name ∈ table.names
  · rw [if_pos ((contains_iff _).mpr taken), if_pos taken]
    rfl
  · rw [if_neg (fun present => taken ((contains_iff _).mp present)), if_neg taken]
    rfl

theorem run_apply (call : Call) (table : MacroTable) :
    call.run table =
      if call.name ∈ table.names then .error (.alreadyDefined call.name) table
      else .ok call.answer { expanders := table.expanders ++ [call.expander] } := by
  have registered := register_apply call.expander table
  by_cases taken : call.name ∈ table.names
  · have failed := registered.trans (if_pos taken)
    rw [if_pos taken]
    cases call with
    | register expander => exact bind_of_error failed
    | define name applies expand => exact bind_of_error (bind_of_error failed)
  · have done := registered.trans (if_neg taken)
    rw [if_neg taken]
    cases call with
    | register expander => exact bind_of_ok done
    | define name applies expand => exact bind_of_ok (bind_of_ok done)

theorem after_of_taken (taken : call.name ∈ table.names) : table.after call = table := by
  rw [after, run_apply, if_pos taken]

theorem after_of_free (free : call.name ∉ table.names) :
    table.after call = { expanders := table.expanders ++ [call.expander] } := by
  rw [after, run_apply, if_neg free]

theorem exists_expanders_after (table : MacroTable) (call : Call) :
    ∃ more, (table.after call).expanders = table.expanders ++ more := by
  by_cases taken : call.name ∈ table.names
  · exact ⟨[], by rw [after_of_taken taken, List.append_nil]⟩
  · exact ⟨[call.expander], by rw [after_of_free taken]⟩

end One

/-! ### One call after the other -/

section History

theorem afterAll_append (table : MacroTable) (calls later : List Call) :
    table.afterAll (calls ++ later) = (table.afterAll calls).afterAll later :=
  List.foldl_append

theorem afterAll_concat (table : MacroTable) (calls : List Call) (call : Call) :
    table.afterAll (calls ++ [call]) = (table.afterAll calls).after call :=
  afterAll_append table calls [call]

theorem exists_expanders_afterAll (table : MacroTable) (calls : List Call) :
    ∃ more, (table.afterAll calls).expanders = table.expanders ++ more := by
  induction calls generalizing table with
  | nil => exact ⟨[], (List.append_nil _).symm⟩
  | cons call calls ih =>
      obtain ⟨first, grown⟩ := exists_expanders_after table call
      obtain ⟨others, same⟩ := ih (table.after call)
      refine ⟨first ++ others, ?_⟩
      rw [← List.append_assoc, ← grown]
      exact same

theorem find?_afterAll {table : MacroTable} {modifiers : List Node} {expander : Expander}
    (found : table.find? modifiers = some expander) (later : List Call) :
    (table.afterAll later).find? modifiers = some expander := by
  obtain ⟨more, grown⟩ := exists_expanders_afterAll table later
  rw [find?, grown, List.find?_append]
  rw [find?] at found
  rw [found, Option.some_or]

variable (calls : List Call)

theorem names_after (table : MacroTable) (call : Call) :
    (table.after call).names =
      if call.name ∈ table.names then table.names else table.names ++ [call.name] := by
  by_cases taken : call.name ∈ table.names
  · rw [after_of_taken taken, if_pos taken]
  · rw [after_of_free taken, if_neg taken, names, List.map_append]
    rfl

theorem names_afterAll : (empty.afterAll calls).names = (calls.map Call.name).eraseDups := by
  induction calls using List.reverseRecOn with
  | nil => rfl
  | append_singleton calls call ih =>
      have new : [call.name].removeAll (calls.map Call.name) =
          if call.name ∈ calls.map Call.name then [] else [call.name] := by
        by_cases given : call.name ∈ calls.map Call.name
        · rw [if_pos given, List.cons_removeAll, List.contains_iff_mem.mpr given]
          rfl
        · rw [if_neg given, List.cons_removeAll,
            Bool.eq_false_iff.mpr fun again => given (List.contains_iff_mem.mp again)]
          rfl
      rw [afterAll_concat, names_after, ih, List.map_append, List.eraseDups_append,
        List.map_singleton, new]
      by_cases given : call.name ∈ calls.map Call.name
      · rw [if_pos given, if_pos (List.mem_eraseDups.mpr given)]
        exact (List.append_nil _).symm
      · rw [if_neg given, if_neg fun taken => given (List.mem_eraseDups.mp taken)]
        rfl

theorem mem_names_afterAll (name : Text) :
    name ∈ (empty.afterAll calls).names ↔ name ∈ calls.map Call.name := by
  rw [names_afterAll, List.mem_eraseDups]

theorem nodup_names_afterAll : (empty.afterAll calls).names.Nodup := by
  induction calls using List.reverseRecOn with
  | nil => exact List.nodup_nil
  | append_singleton calls call ih =>
      rw [afterAll_concat, names_after]
      by_cases taken : call.name ∈ (empty.afterAll calls).names
      · rw [if_pos taken]
        exact ih
      · rw [if_neg taken]
        refine List.nodup_append.mpr ⟨ih, List.pairwise_singleton _ _, ?_⟩
        intro name member other single same
        rw [same, List.mem_singleton.mp single] at member
        exact taken member

theorem find?_name_afterAll (name : Text) :
    (empty.afterAll calls).expanders.find? (fun other => other.name = name) =
      (calls.map Call.expander).find? (fun other => other.name = name) := by
  induction calls using List.reverseRecOn with
  | nil => rfl
  | append_singleton calls call ih =>
      rw [afterAll_concat, List.map_append, List.find?_append, ← ih]
      by_cases taken : call.name ∈ (empty.afterAll calls).names
      · rw [after_of_taken taken]
        cases found : (empty.afterAll calls).expanders.find? (fun other => other.name = name) with
        | some expander => rfl
        | none =>
            obtain ⟨earlier, member, sameName⟩ := List.mem_map.mp taken
            have other : ¬ call.expander.name = name := by
              intro same
              have differs := List.find?_eq_none.mp found earlier member
              exact differs (decide_eq_true (sameName.trans same))
            rw [Option.none_or, List.map_singleton,
              List.find?_singleton, if_neg (fun same => other (of_decide_eq_true same))]
      · rw [after_of_free taken, List.find?_append]
        rfl

theorem find?_name_of_mem {table : MacroTable} {expander : Expander}
    (distinct : table.names.Nodup) (member : expander ∈ table.expanders) :
    table.expanders.find? (fun other => other.name = expander.name) = some expander := by
  obtain ⟨before, behind, divided⟩ := List.append_of_mem member
  rw [List.find?_eq_some_iff_append]
  refine ⟨decide_eq_true rfl, before, behind, divided, ?_⟩
  intro other earlier
  rw [names, divided, List.map_append, List.map_cons] at distinct
  have apart := (List.nodup_append.mp distinct).2.2 other.name (List.mem_map_of_mem earlier)
    expander.name List.mem_cons_self
  rw [decide_eq_false apart]
  rfl

/-- An expander came into the table at the first call with its name, behind those that were in the
table then. -/
theorem exists_call_of_expanders {before behind : List Expander} {expander : Expander}
    (divided : (empty.afterAll calls).expanders = before ++ expander :: behind) :
    ∃ earlier call later, calls = earlier ++ call :: later ∧ call.expander = expander ∧
      call.name ∉ earlier.map Call.name ∧ (empty.afterAll earlier).expanders = before := by
  induction calls using List.reverseRecOn generalizing behind with
  | nil =>
      exact (List.append_ne_nil_of_right_ne_nil before (List.cons_ne_nil _ _) divided.symm).elim
  | append_singleton calls call ih =>
      have passesOn : ∀ {behind : List Expander},
          (empty.afterAll calls).expanders = before ++ expander :: behind →
          ∃ earlier first later, calls ++ [call] = earlier ++ first :: later ∧
            first.expander = expander ∧ first.name ∉ earlier.map Call.name ∧
            (empty.afterAll earlier).expanders = before := by
        intro behind divided
        obtain ⟨earlier, first, later, rfl, same, new, left⟩ := ih divided
        refine ⟨earlier, first, later ++ [call], ?_, same, new, left⟩
        rw [List.append_assoc, List.cons_append]
      rw [afterAll_concat] at divided
      by_cases taken : call.name ∈ (empty.afterAll calls).names
      · rw [after_of_taken taken] at divided
        exact passesOn divided
      · rw [after_of_free taken] at divided
        rcases List.eq_nil_or_concat behind with rfl | ⟨others, last, rfl⟩
        · obtain ⟨left, same⟩ := List.append_inj' divided rfl
          cases same
          exact ⟨calls, call, [], rfl, rfl,
            fun given => taken ((mem_names_afterAll calls _).mpr given), left⟩
        · rw [List.concat_eq_append, ← List.cons_append, ← List.append_assoc] at divided
          exact passesOn (List.append_inj' divided rfl).1

theorem exists_expanders_of_call {earlier later : List Call} {call : Call}
    (new : call.name ∉ earlier.map Call.name) :
    ∃ more, (empty.afterAll (earlier ++ call :: later)).expanders =
      (empty.afterAll earlier).expanders ++ call.expander :: more := by
  have free : call.name ∉ (empty.afterAll earlier).names := fun taken =>
    new ((mem_names_afterAll earlier _).mp taken)
  obtain ⟨more, grown⟩ := exists_expanders_afterAll ((empty.afterAll earlier).after call) later
  refine ⟨more, ?_⟩
  rw [afterAll_append]
  change (((empty.afterAll earlier).after call).afterAll later).expanders = _
  rw [grown, after_of_free free, List.append_assoc]
  rfl

theorem find?_afterAll_iff (modifiers : List Node) (expander : Expander) :
    (empty.afterAll calls).find? modifiers = some expander ↔
      ∃ earlier call later, calls = earlier ++ call :: later ∧ call.expander = expander ∧
        call.name ∉ earlier.map Call.name ∧ expander.applies modifiers = true ∧
        ∀ registered ∈ (empty.afterAll earlier).expanders,
          registered.applies modifiers = false := by
  rw [find?, List.find?_eq_some_iff_append]
  constructor
  · rintro ⟨applies, before, behind, divided, refused⟩
    obtain ⟨earlier, call, later, parted, same, new, left⟩ :=
      exists_call_of_expanders calls divided
    refine ⟨earlier, call, later, parted, same, new, applies, ?_⟩
    intro registered member
    rw [left] at member
    simpa using refused registered member
  · rintro ⟨earlier, call, later, rfl, rfl, new, applies, refused⟩
    obtain ⟨more, divided⟩ := exists_expanders_of_call new
    refine ⟨applies, (empty.afterAll earlier).expanders, more, divided, ?_⟩
    intro registered member
    rw [refused registered member]
    rfl

/-- In the table of any history of calls, failing ones included, each name stands for the expander
that it was first given to, the names keep the order in which they came up, and the expander found
for a form is the first to be registered of those that apply; later calls do not change it. -/
theorem afterAll_records (calls : List Call) : (empty.afterAll calls).Records calls where
  names := names_afterAll calls
  distinct := nodup_names_afterAll calls
  size := (List.length_map _).symm
  contains := contains_iff
  given := mem_names_afterAll calls
  kept expander := by
    rw [← find?_name_afterAll]
    exact ⟨find?_name_of_mem (nodup_names_afterAll calls), List.mem_of_find?_eq_some⟩
  answers call := run_apply call _
  finds := find?_afterAll_iff calls
  findsNone modifiers := by
    rw [find?, List.find?_eq_none]
    simp only [Bool.not_eq_true]
  keepsFound _ _ found later := find?_afterAll found later

end History

/-- The standard table is made by three calls. -/
example : empty.afterAll
    ([.lexicalVariable, .classDefinition, .methodDefinition].map fun expander : Expander =>
      .define expander.name expander.applies expander.expand) = .standard :=
  rfl

end MessageForms.MacroTable
