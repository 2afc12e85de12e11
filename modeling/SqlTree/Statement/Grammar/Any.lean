import SqlTree.Statement.Grammar.Rows
import SqlTree.Statement.Grammar.Table

/-! # Reading any statement

* `Options`: the dialect, and whether statements that the grammar does not know are kept.
* `statementBody`: one statement, up to what follows it.
* `singleStatement`, `statements`: one statement, or all, with the semicolons between them.

A statement that begins with a word, but not with one the grammar knows, and a `SHOW` of an unknown
form are kept as written, up to the next semicolon.
-/

namespace SqlTree
set_option autoImplicit false

/-- How text is read. -/
structure Options where
  dialect : Dialect := .generic
  /-- Whether statements that the grammar does not know are kept as written. -/
  keepUnsupported : Bool := true
  deriving DecidableEq, Repr

namespace Parse

/-! ## Statements kept as written -/

/-- The words that the grammar knows statements by. -/
def statementWords : List String :=
  ["SELECT", "INSERT", "UPDATE", "DELETE", "CREATE TABLE", "ALTER TABLE", "SHOW"]

/-- The span from the start of a token to the end of the last one of some tokens. -/
def coverOf (first : Token) (tokens : List Token) : Span :=
  first.span.merge (tokens.getLastD first).span

/-- The text of the statement under the cursor, if such statements are kept. -/
def kept (keep : Bool) (source : String) : Parse Statement := do
  if keep then
    let first ← current
    let skipped ← skipStatement
    return .unsupported ((coverOf first skipped).slice source)
  else fail statementWords

/-- The text of the statement that begins behind `start` tokens, if such statements are kept. -/
def unsupported (o : Options) (source : String) (start : Nat) : Parse Statement := do
  goBack start
  kept o.keepUnsupported source

/-! ## Settings -/

/-- The word for the indexes of a table that a token is. -/
def indexWord? : TokenKind → Option IndexWord
  | .keyword .INDEX => some .index
  | kind =>
    if isWord "INDEXES" kind then some .indexes
    else if isWord "KEYS" kind then some .keys
    else none

/-- The table behind the word for its indexes, if nothing else follows. -/
def indexesOf (word : IndexWord) : Parse (Option Show) := do
  advance
  advance
  match ← attempt objectName with
  | some table => if ← statementEndAt 0 then return some (.indexes word table) else return none
  | none => return none

/-- A `SHOW` statement of a known form. -/
def knownShow : Parse (Option Show) := do
  expectKeyword .SHOW
  match indexWord? (← current).kind, ← anyKeywordAt 1 [.FROM, .IN] with
  | some word, true => indexesOf word
  | _, _ =>
    if (← nameAt 0) && (← statementEndAt 1) then return some (.variable (← identifier))
    else return none

/-- A `SHOW` statement, kept as written if its form is unknown. -/
def showStatement (o : Options) (source : String) (start : Nat) : Parse Statement := do
  match ← knownShow with
  | some request => return .show request
  | none => unsupported o source start

/-! ## Any statement -/

/-- Whether a table is created here. -/
def createTableAt : Parse Bool := do
  let temporary ← anyKeywordAt 1 [.TEMP, .TEMPORARY]
  return (← keywordAt 1 .TABLE) || (temporary && (← keywordAt 2 .TABLE))

/-- One statement that begins behind `start` tokens with one of a kind. -/
def statementFrom (o : Options) (source : String) (start : Nat) (g : Productions)
    (first : TokenKind) : Parse Statement := do
  match first with
  | .keyword .SELECT | .keyword .WITH | .keyword .VALUES | .symbol .leftParen =>
    return .query (← g.query)
  | .keyword .INSERT => return .insert (← insertStatement g)
  | .keyword .UPDATE => return .update (← updateStatement g)
  | .keyword .DELETE => return .delete (← deleteStatement g)
  | .keyword .CREATE =>
    if ← createTableAt then return .createTable (← createTable g)
    else unsupported o source start
  | .keyword .ALTER =>
    if ← keywordAt 1 .TABLE then return .alterTable (← alterTable g)
    else unsupported o source start
  | .keyword .SHOW => showStatement o source start
  | .keyword _ | .identifier _ _ => unsupported o source start
  | _ => fail ["statement"]

/-- One statement, up to what follows it. -/
def statementBody (o : Options) (source : String) : Parse Statement := do
  let start ← position
  let g := productions o.dialect (← ahead)
  statementFrom o source start g (← current).kind

theorem statementBody_apply (o : Options) (source : String) (c : Cursor) :
    statementBody o source c =
      statementFrom o source c.position (productions o.dialect c.ahead) c.current.kind c := rfl

/-! ## Several statements -/

/-- A semicolon, if there is one. -/
def semicolon : Parse (Option Unit) := do
  if ← takeSymbol .semicolon then return some () else return none

/-- All semicolons here. -/
def semicolons : Parse Unit := do
  let _ ← collect semicolon

/-- Whether the end of the text is here. -/
def atEnd : Parse Bool := do
  return (← current).kind == .endOfInput

/-- A single statement with any semicolons behind it. -/
def singleStatement (o : Options) (source : String) : Parse Statement := do
  if ← atEnd then fail ["statement"]
  else
    let s ← statementBody o source
    semicolons
    if ← atEnd then return s else fail ["end of input"]

/-- A statement behind any semicolons, with what ends it; nothing at the end of the text. -/
def nextStatement (o : Options) (source : String) : Parse (Option Statement) := do
  semicolons
  if ← atEnd then return none
  else
    let s ← statementBody o source
    if ← takeSymbol .semicolon then return some s
    else if ← atEnd then return some s
    else fail [";", "end of input"]

/-- All statements up to the end of the text. -/
def statements (o : Options) (source : String) : Parse (List Statement) :=
  collect (nextStatement o source)

end Parse

end SqlTree
