import SqlTree.Datum.Name
import SqlTree.Datum.Token
import SqlTree.Statement.Basic

/-! # Constants, operators and words as data

* `caseName` for every type that is a choice of words, and `ofDatum?` to read it.
* `Literal`, `ColumnRef`, `Placeholder` and `WildcardExcept` as data.
-/

namespace SqlTree
set_option autoImplicit false

/-! ## Operators -/

/-- The name of the case. -/
def BinaryOp.caseName : BinaryOp → String
  | .add => "Add"
  | .sub => "Sub"
  | .mul => "Mul"
  | .div => "Div"
  | .mod => "Mod"
  | .equal => "Eq"
  | .notEqual => "NotEq"
  | .less => "Lt"
  | .lessEqual => "LtEq"
  | .greater => "Gt"
  | .greaterEqual => "GtEq"
  | .contains => "Contains"
  | .containedBy => "ContainedBy"
  | .and => "And"
  | .or => "Or"
  | .concat => "Concat"
  | .bitAnd => "BitAnd"
  | .bitOr => "BitOr"
  | .shiftLeft => "LeftShift"
  | .shiftRight => "RightShift"

/-- Reads an operator between two operands. -/
def BinaryOp.ofDatum? : Datum → Option BinaryOp :=
  Datum.plain? BinaryOp.all BinaryOp.caseName

/-- The name of the case. -/
def UnaryOp.caseName : UnaryOp → String
  | .neg => "Neg"
  | .plus => "Plus"
  | .not => "Not"
  | .bitNot => "BitNot"

/-- Reads an operator in front of its operand. -/
def UnaryOp.ofDatum? : Datum → Option UnaryOp :=
  Datum.plain? UnaryOp.all UnaryOp.caseName

/-- The name of the case. -/
def SetOperator.caseName : SetOperator → String
  | .union => "Union"
  | .intersect => "Intersect"
  | .except => "Except"

/-- Reads an operator between two queries. -/
def SetOperator.ofDatum? : Datum → Option SetOperator :=
  Datum.plain? SetOperator.all SetOperator.caseName

/-- The name of the case. -/
def SetQuantifier.caseName : SetQuantifier → String
  | .none => "None"
  | .all => "All"
  | .distinct => "Distinct"

/-- Reads what is written behind a set operator. -/
def SetQuantifier.ofDatum? : Datum → Option SetQuantifier :=
  Datum.plain? [.none, .all, .distinct] SetQuantifier.caseName

/-! ## Words -/

/-- The name of the case. -/
def ExceptWord.caseName : ExceptWord → String
  | .except => "Except"
  | .exclude => "Exclude"

/-- Reads a word for what is left out. -/
def ExceptWord.ofDatum? : Datum → Option ExceptWord :=
  Datum.plain? ExceptWord.all ExceptWord.caseName

/-- The name of the case. -/
def CastStyle.caseName : CastStyle → String
  | .function => "Function"
  | .doubleColon => "DoubleColon"

/-- Reads a style of cast. -/
def CastStyle.ofDatum? : Datum → Option CastStyle :=
  Datum.plain? CastStyle.all CastStyle.caseName

/-- The name of the case. -/
def StructStyle.caseName : StructStyle → String
  | .bigQuery => "BigQuery"
  | .duckDb => "DuckDb"

/-- Reads a style of struct value. -/
def StructStyle.ofDatum? : Datum → Option StructStyle :=
  Datum.plain? StructStyle.all StructStyle.caseName

/-- The name of the case. -/
def OrderDirection.caseName : OrderDirection → String
  | .asc => "Asc"
  | .desc => "Desc"

/-- Reads a direction. -/
def OrderDirection.ofDatum? : Datum → Option OrderDirection :=
  Datum.plain? OrderDirection.all OrderDirection.caseName

/-- The name of the case. -/
def NullOrdering.caseName : NullOrdering → String
  | .first => "First"
  | .last => "Last"

/-- Reads where nulls go. -/
def NullOrdering.ofDatum? : Datum → Option NullOrdering :=
  Datum.plain? NullOrdering.all NullOrdering.caseName

/-- The name of the case. -/
def OffsetRows.caseName : OffsetRows → String
  | .none => "None"
  | .row => "Row"
  | .rows => "Rows"

/-- Reads the word behind an offset. -/
def OffsetRows.ofDatum? : Datum → Option OffsetRows :=
  Datum.plain? OffsetRows.all OffsetRows.caseName

/-- The name of the case. -/
def JoinKind.caseName : JoinKind → String
  | .comma => "Comma"
  | .inner => "Inner"
  | .innerExplicit => "InnerExplicit"
  | .left => "Left"
  | .right => "Right"
  | .full => "Full"
  | .cross => "Cross"

/-- Reads a way of joining. -/
def JoinKind.ofDatum? : Datum → Option JoinKind :=
  Datum.plain? JoinKind.all JoinKind.caseName

/-- The name of the case. -/
def IndexWord.caseName : IndexWord → String
  | .index => "Index"
  | .indexes => "Indexes"
  | .keys => "Keys"

/-- Reads a word for the indexes of a table. -/
def IndexWord.ofDatum? : Datum → Option IndexWord :=
  Datum.plain? IndexWord.all IndexWord.caseName

/-! ## Leaves of expressions -/

/-- A constant as data. -/
def Literal.datum : Literal → Datum
  | .integer digits => .variant "Integer" (.text digits)
  | .float digits => .variant "Float" (.text digits)
  | .string content => .variant "String" (.text content)
  | .blob bytes => .variant "Blob" (.ofBytes bytes)
  | .boolean value => .variant "Boolean" (.boolean value)
  | .null => .text "Null"

/-- Reads a constant. -/
def Literal.ofDatum? (d : Datum) : Option Literal :=
  match d.variant? with
  | some ("Integer", some content) => content.text?.map .integer
  | some ("Float", some content) => content.text?.map .float
  | some ("String", some content) => content.text?.map .string
  | some ("Blob", some content) => (content.list? Datum.byte?).map .blob
  | some ("Boolean", some content) => content.boolean?.map .boolean
  | some ("Null", content) => if Datum.isEmptyContent content then some .null else none
  | _ => none

/-- A column as data. -/
def ColumnRef.datum (c : ColumnRef) : Datum :=
  .record [("table", .ofOption ObjectName.datum c.table), ("name", c.name.datum)]

/-- Reads a column. -/
def ColumnRef.ofDatum? (d : Datum) : Option ColumnRef :=
  match d.members? ["table", "name"] with
  | some [table, name] => do
    return { table := ← Datum.optional ObjectName.ofDatum? table,
             name := ← Datum.required Ident.ofDatum? name }
  | _ => none

/-- A place for a value as data. -/
def Placeholder.datum : Placeholder → Datum
  | .positional number => .variant "Positional" (.ofNat number)
  | .named sigil name =>
    .variant "Named" (.record [("prefix", .ofChar sigil), ("name", .text name)])

/-- Reads a place for a value. -/
def Placeholder.ofDatum? (d : Datum) : Option Placeholder :=
  match d.variant? with
  | some ("Positional", some content) => content.word64?.map .positional
  | some ("Named", some content) =>
    match content.fields? ["prefix", "name"] with
    | some [sigil, name] => do
      return .named (← Datum.required Datum.char? sigil) (← Datum.required Datum.text? name)
    | _ => none
  | _ => none

/-- Columns left out of a wildcard as data. -/
def WildcardExcept.datum (e : WildcardExcept) : Datum :=
  .record [("keyword", .ofPlain ExceptWord.caseName e.word),
    ("columns", .ofList Ident.datum e.columns)]

/-- Reads columns left out of a wildcard. -/
def WildcardExcept.ofDatum? (d : Datum) : Option WildcardExcept :=
  match d.members? ["keyword", "columns"] with
  | some [word, columns] => do
    return { word := ← Datum.required ExceptWord.ofDatum? word,
             columns := ← Datum.required (Datum.list? Ident.ofDatum?) columns }
  | _ => none

end SqlTree
