import MessageForms.Token.Scan

set_option autoImplicit false

/-! A text as a stream of tokens. Tokens are scanned when they are first looked at and kept from
then on, so that a reader may go back to any token that it has seen. -/

namespace MessageForms

/-- The tokens already read, nearest first, those scanned but not read, and the text that
follows them. -/
structure TokenStream where
  behind : List Token
  ahead : List Token
  cursor : Cursor
deriving DecidableEq, Inhabited

/-- A step along a token stream that may fail. What was scanned or passed over before a failure
stays so. -/
abbrev Reading := EStateM Fault TokenStream

namespace TokenStream

def ofText (text : Text) : TokenStream :=
  { behind := [], ahead := [], cursor := .ofText text }

def position (stream : TokenStream) : Nat :=
  stream.behind.length

/-- All the tokens scanned so far, in the order of the text. -/
def scanned (stream : TokenStream) : List Token :=
  stream.behind.reverse ++ stream.ahead

/-- No more tokens than this can still be read: those ahead, and one for each character that
follows them. -/
def allowance (stream : TokenStream) : Nat :=
  stream.ahead.length + stream.cursor.rest.length

def scanNext : Reading (Option Token) := fun stream =>
  match Token.next stream.cursor with
  | .ok token cursor => .ok token { stream with cursor, ahead := stream.ahead ++ token.toList }
  | .error fault cursor => .error fault { stream with cursor }

/-- The next token, which stays the next one; `none` at the end of the text. -/
def peek : Reading (Option Token) := fun stream =>
  match stream.ahead with
  | token :: _ => .ok (some token) stream
  | [] => scanNext stream

def advance (stream : TokenStream) : TokenStream :=
  match stream.ahead with
  | [] => stream
  | token :: ahead => { stream with behind := token :: stream.behind, ahead }

def read : Reading (Option Token) := do
  let token ← peek
  modify advance
  return token

def peekKind : Reading (Option TokenKind) := do
  return (← peek).map Token.kind

def save : Reading Nat := do
  return (← get).position

def moveTo (checkpoint : Nat) (stream : TokenStream) : TokenStream :=
  if checkpoint ≤ stream.position then
    let distance := stream.position - checkpoint
    { stream with
      behind := stream.behind.drop distance
      ahead := (stream.behind.take distance).reverse ++ stream.ahead }
  else
    let distance := checkpoint - stream.position
    { stream with
      behind := (stream.ahead.take distance).reverse ++ stream.behind
      ahead := stream.ahead.drop distance }

/-- Goes back to a saved place, or forward to a token that was already scanned. -/
def restore (checkpoint : Nat) : Reading Unit := do
  let stream ← get
  if stream.position + stream.ahead.length < checkpoint then throw (.checkpointAhead checkpoint)
  else set (stream.moveTo checkpoint)

/-- Runs the body, and goes back to where it started if its result calls for that. -/
def savingPositionIf {α : Type} (goesBack : α → Bool) (body : Reading α) : Reading α := do
  let checkpoint ← save
  let result ← body
  if goesBack result then restore checkpoint
  return result

/-- A stream of its own at the same place, which has scanned the same tokens. -/
def clone (stream : TokenStream) : TokenStream :=
  { behind := (stream.scanned.take stream.position).reverse
    ahead := stream.scanned.drop stream.position
    cursor := stream.cursor.clone }

/-- The position of the next token, or of the end of the text. -/
def nextPosition : Reading Position := do
  match ← peek with
  | some token => return token.position
  | none => return (← get).cursor.here

def nextPreview : Reading Text := do
  let position ← nextPosition
  return position.preview (← get).cursor.text

def problemHere (complaint : Complaint) : Reading Problem := do
  let position ← nextPosition
  let preview ← nextPreview
  return { complaint, position := some position, preview := some preview, hint := none }

def fail {α : Type} (complaint : Complaint) : Reading α := do
  throw (.problem (← problemHere complaint))

def expectKind (kind : TokenKind) (complaint : Complaint) : Reading Unit := do
  if (← peekKind) ≠ some kind then fail complaint

/-- The number of tokens given, reading each; the result is the last one read. -/
def readMany : Nat → Reading (Option Token)
  | 0 => return none
  | 1 => read
  | count + 1 => do
      let _ ← read
      readMany count

/-- Every token up to the end of the text, as far as it can be scanned, and the fault that
stopped the scan if one did. The allowance bounds the number of tokens. -/
def readAll : Nat → Reading (List Token × Option Fault)
  | 0 => return ([], some .exhausted)
  | allowance + 1 => fun stream =>
      match read stream with
      | .error fault after => .ok ([], some fault) after
      | .ok none after => .ok ([], none) after
      | .ok (some token) after =>
          match readAll allowance after with
          | .error fault final => .error fault final
          | .ok (tokens, ending) final => .ok (token :: tokens, ending) final

/-- The tokens of a whole text, the fault that stopped the scan if one did, and the stream
behind them. -/
def tokenize (text : Text) : (List Token × Option Fault) × TokenStream :=
  let stream := ofText text
  match readAll (stream.allowance + 1) stream with
  | .ok tokens final => (tokens, final)
  | .error fault final => (([], some fault), final)

@[simp] theorem scanned_advance (stream : TokenStream) :
    stream.advance.scanned = stream.scanned := by
  unfold advance
  split
  · rfl
  · rename_i token ahead following
    simp [scanned, following]

@[simp] theorem scanned_moveTo (checkpoint : Nat) (stream : TokenStream) :
    (stream.moveTo checkpoint).scanned = stream.scanned := by
  unfold moveTo
  split
  · simp only [scanned, ← List.append_assoc, ← List.reverse_append, List.take_append_drop]
  · simp only [scanned, List.reverse_append, List.reverse_reverse, List.append_assoc,
      List.take_append_drop]

theorem position_moveTo (checkpoint : Nat) (stream : TokenStream)
    (within : checkpoint ≤ stream.position + stream.ahead.length) :
    (stream.moveTo checkpoint).position = checkpoint := by
  unfold moveTo
  split
  · simp only [position, List.length_drop] at *
    omega
  · simp only [position, List.length_append, List.length_reverse, List.length_take] at *
    omega

theorem clone_eq (stream : TokenStream) : stream.clone = stream := by
  have behind : stream.scanned.take stream.position = stream.behind.reverse := by
    rw [position, ← List.length_reverse]
    exact List.take_left
  have ahead : stream.scanned.drop stream.position = stream.ahead := by
    rw [position, ← List.length_reverse]
    exact List.drop_left
  rw [clone, behind, ahead, List.reverse_reverse, stream.cursor.clone_eq]

end TokenStream

end MessageForms
