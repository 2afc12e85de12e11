import SqlTree.Token.Basic

/-! # Written text in pieces

A tree is written as a list of pieces, one for each token and one for each gap between tokens.

* `Piece`: a keyword, a symbol, any other token as text, a gap of one space, or a `Defect` of the
  tree: a place where there is nothing to write. A question mark keeps the number of its value,
  and the angle that closes a type is told from the operator.
* `Layout.sepBy`, `Layout.commas`, `Layout.parens`: the usual arrangements.
* `Layout.text`: the whole text, or the first defect on the way.
-/

namespace SqlTree
set_option autoImplicit false

/-- What a tree can lack for being written. -/
inductive Defect where
  /-- A limit with neither a row count nor `ALL` nor `NULL`. -/
  | emptyLimit
  /-- A field of a struct value in braces without a name; positions count from one. -/
  | unnamedField (position : Nat)
  deriving DecidableEq, Repr

/-- The wording of a defect. -/
def Defect.message : Defect → String
  | .emptyLimit => "LIMIT needs a row count, ALL or NULL"
  | .unnamedField position =>
    "DuckDB struct argument " ++ toString position ++ " has no field name"

/-- A piece of written text. -/
inductive Piece where
  | keyword (word : Keyword)
  | symbol (mark : Symbol)
  /-- The question mark for the value with a number. -/
  | question (number : Nat)
  /-- The angle that closes what a type holds. Two in a row can be read as one token. -/
  | closingAngle
  /-- Any other token, as it is written. -/
  | word (text : String)
  /-- One space. -/
  | gap
  | defect (d : Defect)
  deriving DecidableEq, Repr

/-- The characters of a piece; a defect has none. -/
def Piece.text : Piece → String
  | .keyword k => k.text
  | .symbol s => s.text
  | .question _ => Symbol.question.text
  | .closingAngle => Symbol.greater.text
  | .word text => text
  | .gap => " "
  | .defect _ => ""

/-- Written text, piece by piece. -/
abbrev Layout := List Piece

namespace Layout

/-- One token. -/
def word (text : String) : Layout :=
  [.word text]

/-- One keyword. -/
def keyword (k : Keyword) : Layout :=
  [.keyword k]

/-- Keywords with gaps between them. -/
def keywords : List Keyword → Layout
  | [] => []
  | [k] => [.keyword k]
  | k :: ks => .keyword k :: .gap :: keywords ks

/-- Layouts one after another with `separator` between each two. -/
def sepBy (separator : Layout) : List Layout → Layout
  | [] => []
  | [l] => l
  | l :: ls => l ++ separator ++ sepBy separator ls

/-- A list with a comma and a gap between each two items. -/
def commas : List Layout → Layout :=
  sepBy [.symbol .comma, .gap]

/-- A list with a bare comma between each two items. -/
def tightCommas : List Layout → Layout :=
  sepBy [.symbol .comma]

/-- A layout in parentheses. -/
def parens (l : Layout) : Layout :=
  .symbol .leftParen :: (l ++ [.symbol .rightParen])

/-- A layout in parentheses if `wrap` holds, else as it is. -/
def parensIf (wrap : Bool) (l : Layout) : Layout :=
  if wrap then parens l else l

/-- Some pieces if a condition holds. -/
def onlyIf (condition : Bool) (l : Layout) : Layout :=
  if condition then l else []

/-- The first defect among the pieces. -/
def defect? (l : Layout) : Option Defect :=
  l.findSome? fun
    | .defect d => some d
    | _ => none

/-- All characters of the pieces. -/
def chars (l : Layout) : String :=
  l.foldl (fun text piece => text ++ piece.text) ""

/-- The written text, unless a piece is missing. -/
def text (l : Layout) : Except Defect String :=
  match l.defect? with
  | some d => .error d
  | none => .ok l.chars

/-- The first character of the written text. -/
def firstChar? : Layout → Option Char
  | [] => none
  | piece :: rest =>
    match piece.text.toList with
    | c :: _ => some c
    | [] => firstChar? rest

end Layout

end SqlTree
