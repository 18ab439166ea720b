import MessageForms.Proofs.Running
import MessageForms.Proofs.Token.Tokenized

set_option autoImplicit false

/-! What every operation on a token stream keeps. The tokens scanned so far are the front part of
the tokens of the text; none of them is ever forgotten, and scanning goes on where it stopped, as
long as no string without an end is met. -/

namespace MessageForms.TokenStream

def left {α : Type} : EStateM.Result Fault TokenStream α → TokenStream
  | .ok _ after => after
  | .error _ after => after

/-- What a reader gives or fails with, without the stream that it leaves. -/
def outcome {α : Type} : EStateM.Result Fault TokenStream α → Except Fault α
  | .ok value _ => .ok value
  | .error fault _ => .error fault

/-- What was scanned is the front part of the text's tokens, and the cursor stands behind it. -/
def Caches (text : Text) (all : List Token) (ending : Option Fault) (stream : TokenStream) : Prop :=
  ∃ unscanned, stream.cursor.Yields text ending unscanned ∧ stream.scanned ++ unscanned = all

theorem Offers.caches {text : Text} {all tokens : List Token} {ending : Option Fault}
    {stream : TokenStream} (offers : stream.Offers text all ending tokens) :
    Caches text all ending stream := by
  rcases offers with ⟨⟨unscanned, yields, rfl⟩, whole⟩
  refine ⟨unscanned, yields, ?_⟩
  rw [scanned, List.append_assoc, whole]

theorem Caches.offers {text : Text} {all : List Token} {ending : Option Fault}
    {stream : TokenStream} (caches : Caches text all ending stream) :
    stream.Offers text all ending (all.drop stream.position) := by
  rcases caches with ⟨unscanned, yields, rfl⟩
  have upcoming : (stream.scanned ++ unscanned).drop stream.position =
      stream.ahead ++ unscanned := by
    rw [scanned, position, List.append_assoc, ← List.length_reverse, List.drop_left]
  refine ⟨⟨unscanned, yields, upcoming⟩, ?_⟩
  rw [upcoming, scanned, List.append_assoc]

theorem outcome_bind_pure {α β : Type} (reader : Reading α) (form : α → β)
    (stream : TokenStream) :
    outcome ((do return form (← reader) : Reading β) stream) =
      (outcome (reader stream)).map form := by
  rw [bind_apply]
  cases reader stream <;> rfl

theorem left_bind_pure {α β : Type} (reader : Reading α) (form : α → β) (stream : TokenStream) :
    left ((do return form (← reader) : Reading β) stream) = left (reader stream) := by
  rw [bind_apply]
  cases reader stream <;> rfl

theorem restore_apply (checkpoint : Nat) (stream : TokenStream) :
    restore checkpoint stream =
      if stream.scanned.length < checkpoint then .error (.checkpointAhead checkpoint) stream
      else .ok () (stream.moveTo checkpoint) := by
  have length : stream.scanned.length = stream.position + stream.ahead.length := by
    rw [scanned, List.length_append, List.length_reverse, position]
  rw [length]
  change (if stream.position + stream.ahead.length < checkpoint then
      (throw (Fault.checkpointAhead checkpoint) : Reading Unit)
    else set (stream.moveTo checkpoint)) stream = _
  split <;> rfl

theorem restore_of_le {checkpoint : Nat} {stream : TokenStream}
    (within : checkpoint ≤ stream.scanned.length) :
    restore checkpoint stream = .ok () (stream.moveTo checkpoint) := by
  rw [restore_apply, if_neg (Nat.not_lt.mpr within)]

/-- Saving the position costs nothing; what matters is what is done behind the body. -/
theorem savingPositionIf_apply {α : Type} (goesBack : α → Bool) (body : Reading α)
    (stream : TokenStream) :
    savingPositionIf goesBack body stream =
      (body >>= fun found => do
        if goesBack found then restore stream.position
        return found) stream :=
  rfl

theorem Offers.tokens_eq {text : Text} {all tokens : List Token} {ending : Option Fault}
    {stream : TokenStream} (offers : stream.Offers text all ending tokens) :
    tokens = all.drop stream.position := by
  rw [← offers.behind, position, ← List.length_reverse, List.drop_left]

theorem Caches.moveTo {text : Text} {all : List Token} {ending : Option Fault}
    {stream : TokenStream} (caches : Caches text all ending stream) (checkpoint : Nat) :
    Caches text all ending (stream.moveTo checkpoint) := by
  rcases caches with ⟨unscanned, yields, same⟩
  refine ⟨unscanned, ?_, ?_⟩
  · rw [TokenStream.moveTo]
    split <;> exact yields
  · rw [scanned_moveTo]
    exact same

theorem position_le (stream : TokenStream) : stream.position ≤ stream.scanned.length := by
  rw [scanned, List.length_append, List.length_reverse]
  exact Nat.le_add_right _ _

theorem position_moveTo_of_le {stream : TokenStream} {checkpoint : Nat}
    (within : checkpoint ≤ stream.scanned.length) :
    (stream.moveTo checkpoint).position = checkpoint := by
  rw [scanned, List.length_append, List.length_reverse] at within
  exact position_moveTo checkpoint stream within

/-! ### Looking and reading -/

theorem scanned_peek (stream : TokenStream) :
    ∃ extra : List Token, extra.length ≤ 1 ∧
      (left (peek stream)).scanned = stream.scanned ++ extra := by
  cases ahead : stream.ahead with
  | cons token others =>
      refine ⟨[], Nat.zero_le 1, ?_⟩
      rw [peek, ahead, List.append_nil]
      rfl
  | nil =>
      rw [peek, ahead]
      cases found : Token.next stream.cursor with
      | ok token cursor =>
          refine ⟨token.toList, ?_, ?_⟩
          · cases token with
            | none => exact Nat.zero_le 1
            | some token => exact Nat.le_refl 1
          · simp only [scanNext, found, left, scanned, List.append_assoc]
      | error fault cursor =>
          refine ⟨[], Nat.zero_le 1, ?_⟩
          simp only [scanNext, found, left, scanned, List.append_nil]

theorem scanned_read (stream : TokenStream) :
    (left (read stream)).scanned = (left (peek stream)).scanned := by
  rw [read_apply]
  cases peek stream with
  | error fault after => rfl
  | ok token after => exact scanned_advance after

theorem prefix_scanned_peek (stream : TokenStream) :
    stream.scanned <+: (left (peek stream)).scanned := by
  obtain ⟨extra, -, same⟩ := scanned_peek stream
  rw [same]
  exact List.prefix_append _ _

/-- All that looking at the next token can come to in a cache. The cursor in the text is at the end
once the tokens have ended there. -/
inductive Peeked (text : Text) (all : List Token) (stream : TokenStream) : Option Fault → Prop where
  | found {ending : Option Fault} {token : Token} {after : TokenStream} {ahead : List Token}
      (next : all[stream.position]? = some token) (done : peek stream = .ok (some token) after)
      (behind : after.behind = stream.behind) (scanned : after.ahead = token :: ahead)
      (again : Caches text all ending after) : Peeked text all stream ending
  | ended (next : all[stream.position]? = none)
      (done : peek stream = .ok none { stream with cursor := .between text [] })
      (unscanned : stream.ahead = [])
      (again : Caches text all none { stream with cursor := .between text [] }) :
      Peeked text all stream none
  | failed {fault : Fault} {cursor : Cursor} (next : all[stream.position]? = none)
      (done : peek stream = .error fault { stream with cursor }) (unscanned : stream.ahead = [])
      (again : fault.isUnterminated = true ∨ Caches text all (some fault) { stream with cursor }) :
      Peeked text all stream (some fault)

theorem Caches.peeked {text : Text} {all : List Token} {ending : Option Fault}
    {stream : TokenStream} (caches : Caches text all ending stream) :
    Peeked text all stream ending := by
  have offers := caches.offers
  have next : (all.drop stream.position).head? = all[stream.position]? := List.head?_drop
  cases upcoming : all.drop stream.position with
  | cons token tokens =>
      rw [upcoming] at offers next
      obtain ⟨after, ahead, done, behind, scanned, again⟩ := offers.peek_of_cons
      exact .found next.symm done behind scanned again.caches
  | nil =>
      rw [upcoming] at offers next
      obtain ⟨unscanned, -, listed⟩ := offers.upcoming
      have scanned := (List.append_eq_nil_iff.mp listed.symm).1
      cases ending with
      | none => exact .ended next.symm offers.peek_of_nil scanned offers.again_of_nil.caches
      | some fault =>
          obtain ⟨cursor, done, again⟩ := offers.peek_of_fault
          exact .failed next.symm done scanned (again.imp_right Offers.caches)

/-! ### Every reader keeps the cache -/

section Keeping

variable (text : Text) (all : List Token) (ending : Option Fault)

/-- The reader forgets no token that was scanned, and leaves a cache of the text's tokens, unless
it meets the string without an end at which they stop. -/
def Keeps {α : Type} (reader : Reading α) : Prop :=
  ∀ stream, Caches text all ending stream →
    match reader stream with
    | .ok _ after => stream.scanned <+: after.scanned ∧ Caches text all ending after
    | .error fault after =>
        stream.scanned <+: after.scanned ∧
          ((ending = some fault ∧ fault.isUnterminated = true) ∨ Caches text all ending after)

variable {text all ending}

namespace Keeps

theorem pure {α : Type} (value : α) : Keeps text all ending (Pure.pure value : Reading α) :=
  fun stream caches => ⟨List.prefix_refl stream.scanned, caches⟩

theorem throw {α : Type} (fault : Fault) : Keeps text all ending (throw fault : Reading α) :=
  fun stream caches => ⟨List.prefix_refl stream.scanned, .inr caches⟩

theorem get : Keeps text all ending (get : Reading TokenStream) :=
  fun stream caches => ⟨List.prefix_refl stream.scanned, caches⟩

theorem bind {α β : Type} {first : Reading α} {next : α → Reading β}
    (keeps : Keeps text all ending first) (others : ∀ value, Keeps text all ending (next value)) :
    Keeps text all ending (first >>= next) := by
  intro stream caches
  have start := keeps stream caches
  rw [bind_apply]
  cases done : first stream with
  | error fault after =>
      rw [done] at start
      exact start
  | ok value after =>
      rw [done] at start
      rcases start with ⟨grown, again⟩
      have rest := others value after again
      dsimp only
      cases finished : next value after with
      | error fault final =>
          rw [finished] at rest
          exact ⟨grown.trans rest.1, rest.2⟩
      | ok result final =>
          rw [finished] at rest
          exact ⟨grown.trans rest.1, rest.2⟩

end Keeps

theorem keeps_peek : Keeps text all ending peek := by
  intro stream caches
  have grown := prefix_scanned_peek stream
  cases caches.peeked with
  | found next done behind scanned again =>
      rw [done] at grown ⊢
      exact ⟨grown, again⟩
  | ended next done unscanned again =>
      rw [done] at grown ⊢
      exact ⟨grown, again⟩
  | failed next done unscanned again =>
      rw [done] at grown ⊢
      exact ⟨grown, again.imp_left fun unclosed => ⟨rfl, unclosed⟩⟩

theorem keeps_read : Keeps text all ending read := by
  intro stream caches
  have looked := keeps_peek stream caches
  rw [read_apply]
  cases done : peek stream with
  | error fault after =>
      rw [done] at looked
      exact looked
  | ok token after =>
      rw [done] at looked
      rcases looked with ⟨grown, unscanned, yields, same⟩
      have kept := scanned_advance after
      refine ⟨?_, unscanned, ?_, ?_⟩
      · rw [kept]
        exact grown
      · rw [advance]
        split <;> exact yields
      · rw [kept]
        exact same

theorem keeps_restore (checkpoint : Nat) : Keeps text all ending (restore checkpoint) := by
  intro stream caches
  rw [restore_apply]
  by_cases beyond : stream.scanned.length < checkpoint
  · rw [if_pos beyond]
    exact ⟨List.prefix_refl stream.scanned, .inr caches⟩
  · rw [if_neg beyond]
    have kept := scanned_moveTo checkpoint stream
    have grows := List.prefix_refl stream.scanned
    exact ⟨kept.symm ▸ grows, caches.moveTo checkpoint⟩

theorem keeps_peekKind : Keeps text all ending peekKind :=
  keeps_peek.bind fun _ => .pure _

theorem keeps_save : Keeps text all ending save :=
  Keeps.get.bind fun _ => .pure _

theorem keeps_savingPositionIf {α : Type} (goesBack : α → Bool) {body : Reading α}
    (keeps : Keeps text all ending body) :
    Keeps text all ending (savingPositionIf goesBack body) := by
  apply keeps_save.bind
  intro checkpoint
  apply keeps.bind
  intro result
  by_cases back : goesBack result = true
  · rw [if_pos back]
    exact (keeps_restore checkpoint).bind fun _ => .pure result
  · rw [if_neg back]
    exact .pure result

theorem keeps_nextPosition : Keeps text all ending nextPosition := by
  apply keeps_peek.bind
  intro found
  cases found with
  | some token => exact .pure _
  | none => exact Keeps.get.bind fun _ => .pure _

theorem keeps_nextPreview : Keeps text all ending nextPreview :=
  keeps_nextPosition.bind fun _ => Keeps.get.bind fun _ => .pure _

theorem keeps_problemHere (complaint : Complaint) :
    Keeps text all ending (problemHere complaint) :=
  keeps_nextPosition.bind fun _ => keeps_nextPreview.bind fun _ => .pure _

theorem keeps_fail {α : Type} (complaint : Complaint) :
    Keeps text all ending (fail complaint : Reading α) :=
  (keeps_problemHere complaint).bind fun _ => .throw _

theorem keeps_expectKind (kind : TokenKind) (complaint : Complaint) :
    Keeps text all ending (expectKind kind complaint) := by
  apply keeps_peekKind.bind
  intro found
  by_cases other : found ≠ some kind
  · rw [if_pos other]
    exact keeps_fail complaint
  · rw [if_neg other]
    exact .pure ()

end Keeping

end MessageForms.TokenStream
