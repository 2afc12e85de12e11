import SqlTree.Statement.Grammar.Any

/-! # Reading a text statement by statement

* `Session`: a text that is being read, with the place that later calls go on from, also behind an
  error.
* `Session.statement`, `Session.statements`: reads a single statement, or all that are left.
* `ParseError`: why a text is not read, with its wording and its place.
* `parseStatement`, `parseStatements`: a whole text at once.

A text that cannot be split into tokens gives the same error at every call.
-/

namespace SqlTree
set_option autoImplicit false

/-! ## Errors -/

/-- Why a text is not read. -/
inductive ParseError where
  /-- The text cannot be split into tokens. -/
  | lexical (error : LexError)
  /-- The grammar stops at a token, which is at a location. -/
  | grammar (fault : Fault) (location : Location)
  deriving DecidableEq, Repr

namespace ParseError

/-- Whether the text cannot even be split into tokens. -/
def isLexical : ParseError → Bool
  | .lexical _ => true
  | .grammar .. => false

/-- The bytes of the token where reading stopped. -/
def span : ParseError → Span
  | .lexical error => error.span
  | .grammar fault _ => fault.found.span

/-- Where the span begins. -/
def location : ParseError → Location
  | .lexical error => error.location
  | .grammar _ location => location

/-- What could have gone on instead. -/
def expected : ParseError → List String
  | .grammar ⟨.expected descriptions, _⟩ _ => descriptions
  | _ => []

/-- The token where the grammar stopped. -/
def found? : ParseError → Option TokenKind
  | .lexical _ => none
  | .grammar fault _ => some fault.found.kind

/-- The wording of a fault. -/
def faultMessage (fault : Fault) : String :=
  match fault.cause with
  | .expected descriptions =>
    let expected := " or ".intercalate descriptions
    let found := fault.found.kind
    if found = .endOfInput then "Unexpected end of input: expected " ++ expected
    else "Unexpected token: expected " ++ expected ++ ", found " ++ found.description
  | .tooLarge number => number.tooLarge
  | .tooDeep => "Nesting too deep"

/-- The wording of an error. -/
def message : ParseError → String
  | .lexical error => error.message
  | .grammar fault _ => faultMessage fault

/-- The wording of an error, with its place. -/
def display (e : ParseError) : String :=
  atLocation e.message e.location

end ParseError

/-! ## Sessions -/

/-- A text that is being read. -/
@[ext] structure Session where
  options : Options
  source : String
  /-- Why the text cannot be split into tokens, if it cannot. -/
  lexError? : Option LexError
  /-- Where reading goes on. A text without tokens has nothing but its end. -/
  place : Place
  sound : place.Sound

namespace Session

/-- The end of a text, as if it had no other tokens. -/
def endOf (source : String) : Lexed :=
  let length := Text.byteLength source.toList
  ⟨[], ⟨.endOfInput, ⟨length, length⟩, ""⟩⟩

/-- A text that nothing has been read from. -/
def start (source : String) (options : Options) : Session :=
  match h : tokenize source options.dialect.doubleQuotedStrings with
  | .ok lexed =>
    { options, source, lexError? := none, place := .ofLexed lexed,
      sound := Place.sound_ofLexed (tokenize_kinds h).1 (tokenize_kinds h).2 }
  | .error e =>
    { options, source, lexError? := some e, place := .ofLexed (endOf source),
      sound := Place.sound_ofLexed (List.forall_mem_nil _) rfl }

/-- The answer that a result is, with the location of a fault. -/
def answerOf {σ α : Type} (source : String) : EStateM.Result Fault σ α → Except ParseError α
  | .ok a _ => .ok a
  | .error fault _ =>
    .error (.grammar fault (Location.ofOffset source.toList fault.found.span.start))

/-- Reads from where the session is, and goes on from where that stops. -/
def read {α : Type} (s : Session) (item : Parse α) : Except ParseError α × Session :=
  match s.lexError? with
  | some e => (.error (.lexical e), s)
  | none =>
    let result := item.runAt s.place
    (answerOf s.source result,
      { s with place := Parse.leftAt result, sound := item.sound_leftAt s.sound })

/-- Reads a single statement, which must be all that is left but for semicolons. -/
def statement (s : Session) : Except ParseError Statement × Session :=
  s.read (Parse.singleStatement s.options s.source)

/-- Reads all statements that are left. -/
def statements (s : Session) : Except ParseError (List Statement) × Session :=
  s.read (Parse.statements s.options s.source)

/-! ## Reading at cursors -/

/-- The cursor where a session is. -/
def cursor (s : Session) : Cursor :=
  s.place.cursor

/-- The session at another place. -/
def moveTo (s : Session) (c : Cursor) (h : c.EndsOnce) : Session :=
  { s with place := c.place, sound := Cursor.sound_place_iff.2 h }

variable {s : Session} {source : String} {o : Options}

theorem place_eq (s : Session) : s.place = s.cursor.place :=
  s.sound.place_cursor.symm

theorem cursor_moveTo (s : Session) {c : Cursor} (h : c.EndsOnce) : (s.moveTo c h).cursor = c :=
  c.place_cursor

theorem moveTo_cursor (s : Session) : s.moveTo s.cursor s.sound.endsOnce = s :=
  Session.ext rfl rfl rfl s.place_eq.symm

theorem answerOf_same {α : Type} {r : EStateM.Result Fault Cursor α}
    {r' : EStateM.Result Fault Place α} (h : SameResult r r') :
    answerOf source r' = answerOf source r := by
  cases h <;> rfl

theorem answerOf_eq_ok {α σ : Type} {r : EStateM.Result Fault σ α} {a : α} :
    answerOf source r = .ok a ↔ ∃ x, r = .ok a x := by
  cases r <;> simp [answerOf]

/-- What is answered is what is read at the cursor where the session is. -/
theorem read_eq {α : Type} (h : s.lexError? = none) (item : Parse α) :
    ∃ hd, s.read item =
      (answerOf s.source (item s.cursor), s.moveTo (Parse.leftAt (item s.cursor)) hd) := by
  have hsame := item.sameResult_at s.sound
  obtain ⟨hd, hplace⟩ := Parse.leftAt_same hsame
  refine ⟨hd, ?_⟩
  unfold read
  split
  · next e he => exact nomatch h.symm.trans he
  · exact Prod.ext (answerOf_same hsame) (Session.ext rfl rfl rfl hplace)

theorem read_of_lexError {α : Type} {e : LexError} (h : s.lexError? = some e) (item : Parse α) :
    s.read item = (.error (.lexical e), s) := by
  rw [read, h]

theorem start_of_ok {lexed : Lexed} (h : tokenize source o.dialect.doubleQuotedStrings = .ok lexed) :
    start source o = ⟨o, source, none, .ofLexed lexed,
      Place.sound_ofLexed (tokenize_kinds h).1 (tokenize_kinds h).2⟩ := by
  unfold start
  split
  · next lexed' h' =>
    obtain rfl := Except.ok.inj (h'.symm.trans h)
    rfl
  · next e h' => exact nomatch h.symm.trans h'

theorem start_of_error {e : LexError} (h : tokenize source o.dialect.doubleQuotedStrings = .error e) :
    start source o = ⟨o, source, some e, .ofLexed (endOf source),
      Place.sound_ofLexed (List.forall_mem_nil _) rfl⟩ := by
  unfold start
  split
  · next lexed h' => exact nomatch h.symm.trans h'
  · next e' h' =>
    obtain rfl := Except.error.inj (h'.symm.trans h)
    rfl

theorem start_options (source : String) (o : Options) : (start source o).options = o := by
  unfold start
  split <;> rfl

theorem start_source (source : String) (o : Options) : (start source o).source = source := by
  unfold start
  split <;> rfl

theorem cursor_start {lexed : Lexed} (h : tokenize source o.dialect.doubleQuotedStrings = .ok lexed) :
    (start source o).cursor = .ofLexed lexed := by
  rw [start_of_ok h]
  exact Cursor.cursor_ofLexed lexed

/-- A text with tokens is read from the cursor in front of all of them. -/
theorem read_start {α : Type} {lexed : Lexed}
    (h : tokenize source o.dialect.doubleQuotedStrings = .ok lexed) (item : Parse α) :
    ((start source o).read item).1 = answerOf source (item (.ofLexed lexed)) := by
  have herror : (start source o).lexError? = none := by rw [start_of_ok h]
  obtain ⟨_, hread⟩ := read_eq herror item
  rw [hread]
  dsimp only
  rw [cursor_start h, start_source]

end Session

/-! ## Whole texts -/

/-- The single statement that a text is. -/
def parseStatement (source : String) (options : Options) : Except ParseError Statement :=
  (Session.start source options).statement.1

/-- All statements of a text. -/
def parseStatements (source : String) (options : Options) : Except ParseError (List Statement) :=
  (Session.start source options).statements.1

section Texts

variable {source : String} {o : Options}

theorem parseStatement_iff {lexed : Lexed}
    (h : tokenize source o.dialect.doubleQuotedStrings = .ok lexed) (s : Statement) :
    parseStatement source o = .ok s ↔
      ∃ c, Parse.singleStatement o source (.ofLexed lexed) = .ok s c := by
  rw [parseStatement, Session.statement, Session.start_options, Session.start_source,
    Session.read_start h, Session.answerOf_eq_ok]

theorem parseStatements_iff {lexed : Lexed}
    (h : tokenize source o.dialect.doubleQuotedStrings = .ok lexed) (ss : List Statement) :
    parseStatements source o = .ok ss ↔
      ∃ c, Parse.statements o source (.ofLexed lexed) = .ok ss c := by
  rw [parseStatements, Session.statements, Session.start_options, Session.start_source,
    Session.read_start h, Session.answerOf_eq_ok]

theorem parseStatement_of_lexError {e : LexError}
    (h : tokenize source o.dialect.doubleQuotedStrings = .error e) :
    parseStatement source o = .error (.lexical e) := by
  rw [parseStatement, Session.statement, Session.read_of_lexError (by rw [Session.start_of_error h])]

theorem parseStatements_of_lexError {e : LexError}
    (h : tokenize source o.dialect.doubleQuotedStrings = .error e) :
    parseStatements source o = .error (.lexical e) := by
  rw [parseStatements, Session.statements, Session.read_of_lexError (by rw [Session.start_of_error h])]

end Texts

end SqlTree
