import MessageForms.Proofs.Token.Operation

set_option autoImplicit false

/-! Sessions: a stream and its copies, and requests to any of them in any order. A stream is a
cursor over the tokens of the text, however far it happens to have scanned them, and a request to
one stream leaves the others alone. -/

namespace MessageForms.TokenStream

/-- Requests name a stream by its number in the session. -/
inductive Request where
  | ask (index : Nat) (operation : Operation)
  | clone (index : Nat)

/-- The outcome of a request and the streams behind it. A copy is put at the end of the session,
and its number is the answer. -/
def perform (session : List TokenStream) :
    Request → Option (Except Fault Answer × List TokenStream)
  | .ask index operation =>
      session[index]?.map fun stream =>
        (outcome (operation.run stream), session.set index (left (operation.run stream)))
  | .clone index =>
      session[index]?.map fun stream => (.ok (.copy session.length), session ++ [stream.clone])

/-- Whether an outcome is that of meeting the string without an end at which the text's tokens
stop. -/
def MetUnclosed (text : Text) (outcome : Except Fault Answer) : Prop :=
  ∃ fault, outcome = .error fault ∧ (tokenize text).1.2 = some fault ∧
    fault.isUnterminated = true

/-- One session becomes another by requests none of which met a string without an end. -/
inductive Leads (text : Text) (first : List TokenStream) : List TokenStream → Prop where
  | refl : Leads text first first
  | step {session next : List TokenStream} {request : Request} {outcome : Except Fault Answer}
      (before : Leads text first session)
      (performed : perform session request = some (outcome, next))
      (closed : ¬ MetUnclosed text outcome) : Leads text first next

/-- The sessions that requests can lead to, from one stream at the front of the text. -/
def Reaches (text : Text) (session : List TokenStream) : Prop :=
  Leads text [ofText text] session

/-- Each stream is still there, and none has forgotten a token that it had scanned. -/
def Grown (session later : List TokenStream) : Prop :=
  ∀ (index : Nat) (stream : TokenStream), session[index]? = some stream →
    ∃ after, later[index]? = some after ∧ stream.scanned <+: after.scanned

/-! ### Sessions -/

theorem ofText_caches (text : Text) :
    Caches text (tokenize text).1.1 (tokenize text).1.2 (ofText text) := by
  obtain ⟨pieces, margin, rest, division, tokenized⟩ := exists_tokenize_eq text
  rw [tokenized]
  exact (ofText_offers division).caches

theorem caches_of_closed {text : Text} {stream : TokenStream} {operation : Operation}
    (caches : Caches text (tokenize text).1.1 (tokenize text).1.2 stream)
    (closed : ¬ MetUnclosed text (outcome (operation.run stream))) :
    Caches text (tokenize text).1.1 (tokenize text).1.2 (left (operation.run stream)) := by
  have kept := keeps_run operation stream caches
  cases done : operation.run stream with
  | ok answer after =>
      rw [done] at kept
      exact kept.2
  | error fault after =>
      rw [done] at kept closed
      rcases kept.2 with met | again
      · exact (closed ⟨fault, rfl, met⟩).elim
      · exact again

section Sessions

variable {text : Text} {first session next : List TokenStream}

/-- One request: every stream that was a cache stays one, and has forgotten nothing. -/
theorem perform_keeps {request : Request} {outcome : Except Fault Answer}
    (performed : perform session request = some (outcome, next))
    (closed : ¬ MetUnclosed text outcome)
    (caches : ∀ stream ∈ session, Caches text (tokenize text).1.1 (tokenize text).1.2 stream) :
    (∀ stream ∈ next, Caches text (tokenize text).1.1 (tokenize text).1.2 stream) ∧
      Grown session next := by
  cases request with
  | ask asked operation =>
      obtain ⟨stream, found, same⟩ := Option.map_eq_some_iff.mp performed
      cases same
      have cache := caches stream (List.mem_of_getElem? found)
      constructor
      · intro other member
        rcases List.mem_or_eq_of_mem_set member with old | rfl
        · exact caches other old
        · exact caches_of_closed cache closed
      · intro index before there
        by_cases same : index = asked
        · subst same
          rw [found] at there
          cases there
          have short : index < session.length := (List.getElem?_eq_some_iff.mp found).1
          exact ⟨_, List.getElem?_set_self short, cache.grown_run operation⟩
        · refine ⟨before, ?_, List.prefix_refl before.scanned⟩
          rw [List.getElem?_set_ne (Ne.symm same), there]
  | clone cloned =>
      obtain ⟨stream, found, same⟩ := Option.map_eq_some_iff.mp performed
      cases same
      constructor
      · intro other member
        rcases List.mem_append.mp member with old | new
        · exact caches other old
        · rw [List.mem_singleton.mp new, stream.clone_eq]
          exact caches stream (List.mem_of_getElem? found)
      · intro index before there
        refine ⟨before, ?_, List.prefix_refl before.scanned⟩
        rw [List.getElem?_append_left (List.getElem?_eq_some_iff.mp there).1, there]

theorem Leads.keeps (leads : Leads text first session)
    (caches : ∀ stream ∈ first, Caches text (tokenize text).1.1 (tokenize text).1.2 stream) :
    (∀ stream ∈ session, Caches text (tokenize text).1.1 (tokenize text).1.2 stream) ∧
      Grown first session := by
  induction leads with
  | refl => exact ⟨caches, fun index stream there => ⟨stream, there, List.prefix_refl _⟩⟩
  | step before performed closed ih =>
      rcases ih with ⟨middle, grown⟩
      obtain ⟨last, more⟩ := perform_keeps performed closed middle
      refine ⟨last, fun index stream there => ?_⟩
      obtain ⟨between, found, longer⟩ := grown index stream there
      obtain ⟨after, last, longest⟩ := more index between found
      exact ⟨after, last, longer.trans longest⟩

theorem Reaches.caches (reaches : Reaches text session) :
    ∀ stream ∈ session, Caches text (tokenize text).1.1 (tokenize text).1.2 stream := by
  refine (Leads.keeps reaches ?_).1
  intro stream member
  cases List.mem_singleton.mp member
  exact ofText_caches text

/-- In every session that requests lead to, without meeting a string that has no end, each stream
is a cursor over the tokens of the text: what it has scanned are the first of them, its position
lies within these, and it serves every operation as such a cursor does. No later request makes it
forget a token, and one to another stream does not touch it. A copy starts out equal. -/
theorem session_refines_cursors (reaches : Reaches text session) :
    (∀ stream ∈ session, stream.scanned <+: (tokenize text).1.1 ∧
        stream.position ≤ stream.scanned.length) ∧
      (∀ later, Leads text session later → Grown session later) ∧
      (∀ fault, (tokenize text).1.2 = some fault → fault.isUnterminated = true ∨
        ∃ character position preview, fault = .unclassified character position preview) ∧
      (∀ (index : Nat) stream operation, session[index]? = some stream →
        ∃ outcome after next, perform session (.ask index operation) = some (outcome, next) ∧
          operation.Serves text (tokenize text).1.1 (tokenize text).1.2 stream outcome after ∧
          next[index]? = some after ∧
          ∀ other, other ≠ index → next[other]? = session[other]?) ∧
      ∀ (index : Nat) stream, session[index]? = some stream →
        perform session (.clone index) =
          some (.ok (.copy session.length), session ++ [stream]) := by
  refine ⟨?_, ?_, ?_, ?_, ?_⟩
  · intro stream member
    exact ⟨(reaches.caches stream member).scanned_front, position_le stream⟩
  · intro later leads
    exact (leads.keeps reaches.caches).2
  · intro fault stops
    obtain ⟨pieces, margin, rest, division, tokenized⟩ := exists_tokenize_eq text
    rw [tokenized] at stops
    cases division.stuck with
    | ended => cases stops
    | @unknown character others visible unknown =>
        right
        rw [stopFault?] at stops
        split at stops
        · rename_i quote
          subst quote
          cases unknown
        · cases stops
          exact ⟨_, _, _, rfl⟩
    | unclosed unquoted =>
        left
        cases stops
        rfl
  · intro index stream operation there
    refine ⟨_, left (operation.run stream), session.set index (left (operation.run stream)),
      ?_, (reaches.caches stream (List.mem_of_getElem? there)).serves operation, ?_, ?_⟩
    · rw [perform, there]
      rfl
    · exact List.getElem?_set_self (List.getElem?_eq_some_iff.mp there).1
    · intro other apart
      exact List.getElem?_set_ne (Ne.symm apart)
  · intro index stream there
    rw [perform, there, Option.map_some, stream.clone_eq]

end Sessions

/-- A stream on `a.` is asked for a token and then copied. -/
theorem read_copy_refines_cursors :
    ∃ session, Reaches ['a', '.'] session ∧ session.length = 2 ∧
      ∀ stream ∈ session, stream.scanned <+: (tokenize ['a', '.']).1.1 ∧
        stream.position ≤ stream.scanned.length := by
  have started : Reaches ['a', '.'] [ofText ['a', '.']] := .refl
  have answered : perform [ofText ['a', '.']] (.ask 0 .read) = some _ := rfl
  have asked := Leads.step started answered (by rintro ⟨fault, impossible, -⟩; cases impossible)
  have copied := @Leads.step _ _ _ _ (.clone 0) _ asked rfl
    (by rintro ⟨fault, impossible, -⟩; cases impossible)
  exact ⟨_, copied, rfl, (session_refines_cursors copied).1⟩

end MessageForms.TokenStream
