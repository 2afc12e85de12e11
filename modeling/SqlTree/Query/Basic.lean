import SqlTree.DataType.Basic
import SqlTree.Dialect
import SqlTree.Query.Operator

/-! # Expressions, queries and what a query reads from

The three kinds of trees hold one another, so they are defined together.

* `Expr`: expressions, with `SelectItem`, `FunctionCall`, `StructValue` and `WhenArm`.
* `Query`: `WITH`, a `SetExpr` built of `Select` blocks, and what restricts the rows: `OrderItem`,
  `Limit`, `Offset`.
* `FromItem`: a `Relation` with its alias, `Pivot` and `Unpivot`, and `Join` for what is joined to
  it.

A tree keeps what the writer of the text chose where the meaning is the same: parentheses,
optional words, the spelling of numbers.
-/

namespace SqlTree
set_option autoImplicit false

/-! ## Leaves -/

/-- A constant. Numbers keep the text they were written with. -/
inductive Literal where
  | integer (digits : String)
  | float (digits : String)
  | string (content : String)
  | blob (bytes : List UInt8)
  | boolean (value : Bool)
  | null
  deriving DecidableEq, Repr

/-- A column, perhaps with the table it belongs to. -/
structure ColumnRef where
  table : Option ObjectName := none
  name : Ident
  deriving DecidableEq, Repr

/-- A place for a value given later. -/
inductive Placeholder where
  /-- A question mark, numbered from one in the order of the text. -/
  | positional (number : Nat)
  /-- A name behind a colon or an at sign. -/
  | named (sigil : Char) (name : String)
  deriving DecidableEq, Repr

/-- The word in front of the columns left out of a wildcard. -/
inductive ExceptWord where
  | except | exclude
  deriving DecidableEq, Repr

/-- Every word for what is left out. -/
def ExceptWord.all : List ExceptWord := [.except, .exclude]

/-- The word itself. -/
def ExceptWord.keyword : ExceptWord → Keyword
  | .except => .EXCEPT
  | .exclude => .EXCLUDE

/-- The columns left out of a wildcard. -/
structure WildcardExcept where
  word : ExceptWord
  columns : List Ident
  deriving DecidableEq, Repr

/-- How a cast is written: `CAST(e AS t)` or `e::t`. -/
inductive CastStyle where
  | function | doubleColon
  deriving DecidableEq, Repr

/-- Every style of cast. -/
def CastStyle.all : List CastStyle := [.function, .doubleColon]

/-- The direction of an ordering. -/
inductive OrderDirection where
  | asc | desc
  deriving DecidableEq, Repr

/-- Every direction. -/
def OrderDirection.all : List OrderDirection := [.asc, .desc]

/-- The word of a direction. -/
def OrderDirection.keyword : OrderDirection → Keyword
  | .asc => .ASC
  | .desc => .DESC

/-- Where an ordering puts nulls. -/
inductive NullOrdering where
  | first | last
  deriving DecidableEq, Repr

/-- Every place for nulls. -/
def NullOrdering.all : List NullOrdering := [.first, .last]

/-- The words for where nulls go. -/
def NullOrdering.keywords : NullOrdering → List Keyword
  | .first => [.NULLS, .FIRST]
  | .last => [.NULLS, .LAST]

/-- The word behind an offset. -/
inductive OffsetRows where
  | none | row | rows
  deriving DecidableEq, Repr

/-- Every word behind an offset. -/
def OffsetRows.all : List OffsetRows := [.none, .row, .rows]

/-- How an item is joined to what stands before it. -/
inductive JoinKind where
  | comma | inner | innerExplicit | left | right | full | cross
  deriving DecidableEq, Repr

/-- Every way of joining. -/
def JoinKind.all : List JoinKind := [.comma, .inner, .innerExplicit, .left, .right, .full, .cross]

/-- The words of a join; a comma has none. -/
def JoinKind.keywords : JoinKind → List Keyword
  | .comma => []
  | .inner => [.JOIN]
  | .innerExplicit => [.INNER, .JOIN]
  | .left => [.LEFT, .JOIN]
  | .right => [.RIGHT, .JOIN]
  | .full => [.FULL, .JOIN]
  | .cross => [.CROSS, .JOIN]

/-! ## Trees -/

mutual

/-- An expression. -/
inductive Expr where
  | literal (value : Literal)
  | column (ref : ColumnRef)
  | binary (left : Expr) (op : BinaryOp) (right : Expr)
  | unary (op : UnaryOp) (operand : Expr)
  | call (call : FunctionCall)
  /-- Elements in brackets, perhaps behind the word `ARRAY`. -/
  | array (withWord : Bool) (elements : List Expr)
  | struct (value : StructValue)
  | subquery (query : Query)
  | existsQuery (query : Query)
  | inList (tested : Expr) (negated : Bool) (items : List Expr)
  | inQuery (tested : Expr) (negated : Bool) (query : Query)
  | between (tested : Expr) (negated : Bool) (low high : Expr)
  | isNull (tested : Expr) (negated : Bool)
  | like (tested : Expr) (negated caseless : Bool) (pattern : Expr)
  | caseWhen (operand : Option Expr) (arms : List WhenArm) (otherwise : Option Expr)
  | cast (style : CastStyle) (operand : Expr) (type : DataType)
  /-- An expression in parentheses. -/
  | nested (inner : Expr)
  /-- Several expressions in parentheses. -/
  | tuple (items : List Expr)
  | placeholder (place : Placeholder)
  /-- All columns, perhaps of one table, some left out and some replaced. -/
  | wildcard (table : Option ObjectName) (except : Option WildcardExcept)
      (replace : Option (List SelectItem))

/-- An expression with an optional alias. -/
structure SelectItem where
  expr : Expr
  alias? : Option Alias

/-- A function applied to arguments. -/
structure FunctionCall where
  name : ObjectName
  distinct : Bool
  arguments : List Expr

/-- A struct value. The word, the typed fields and the values may each be missing. -/
structure StructValue where
  style : StructStyle
  word : Option String
  fields : Option (List StructField)
  arguments : Option (List SelectItem)

/-- A condition, or a value to compare with, and the result it leads to. -/
structure WhenArm where
  condition : Expr
  result : Expr

/-- A whole query. -/
structure Query where
  ctes : Option With
  body : SetExpr
  orderBy : List OrderItem
  /-- A limit for each group, written before the limit for all. -/
  limitBy : Option Limit
  limit : Option Limit
  offset : Option Offset

/-- Named queries in front of a query. -/
structure With where
  recursive : Bool
  ctes : List Cte

/-- A named query. -/
structure Cte where
  name : Ident
  columns : List Ident
  query : Query

/-- The body of a query. -/
inductive SetExpr where
  | select (block : Select)
  | parens (query : Query)
  | combine (op : SetOperator) (quantifier : SetQuantifier) (left right : SetExpr)
  | values (rows : List (List Expr))

/-- A `SELECT` block. -/
structure Select where
  distinct : Bool
  items : List SelectItem
  source : Option FromItem
  joins : List Join
  condition : Option Expr
  groupBy : List Expr
  having : Option Expr
  qualify : Option Expr

/-- An expression to order by. -/
structure OrderItem where
  expr : Expr
  direction : Option OrderDirection
  nulls : Option NullOrdering

/-- A limit on the number of rows: a count with an optional offset, `ALL` or `NULL`, for all rows
or for each group of the `BY` expressions. -/
structure Limit where
  rowCount : Option Expr
  offset : Option Expr
  all : Bool
  null : Bool
  groups : Option (List Expr)

/-- A number of rows to leave out. -/
structure Offset where
  count : Expr
  rows : OffsetRows

/-- What a query reads from, with what is written behind it. -/
structure FromItem where
  relation : Relation
  alias? : Option Alias
  pivot : Option Pivot
  unpivot : Option Unpivot

/-- A source of rows. -/
inductive Relation where
  | table (name : ObjectName)
  | query (query : Query)
  | lateral (query : Query)
  /-- A function that gives rows, perhaps with a word in front. -/
  | function (lead : Option String) (call : FunctionCall)
  /-- An item and what is joined to it, in parentheses. -/
  | joined (item : FromItem) (joins : List Join)
  | values (rows : List (List Expr))

/-- An item joined to what stands before it. -/
structure Join where
  kind : JoinKind
  item : FromItem
  constraint : JoinConstraint

/-- Which rows a join matches. -/
inductive JoinConstraint where
  | on (condition : Expr)
  | using (columns : List Ident)
  | none

/-- Rows turned into columns. -/
structure Pivot where
  aggregates : List SelectItem
  columns : List ColumnRef
  items : List SelectItem
  alias? : Option Alias

/-- Columns turned into rows. -/
structure Unpivot where
  includeNulls : Option Bool
  valueColumns : List Ident
  nameColumns : List Ident
  items : List SelectItem
  alias? : Option Alias

end

/-! ## Views -/

/-- The block of a query whose body is a single `SELECT`. -/
def Query.select? (q : Query) : Option Select :=
  match q.body with
  | .select block => some block
  | _ => none

/-- A query without anything around its body. -/
def Query.ofBody (body : SetExpr) : Query :=
  { ctes := none, body, orderBy := [], limitBy := none, limit := none, offset := none }

/-- A relation without anything behind it. -/
def FromItem.ofRelation (relation : Relation) : FromItem :=
  { relation, alias? := none, pivot := none, unpivot := none }

/-- A table without anything behind it. -/
def FromItem.table (name : ObjectName) : FromItem :=
  .ofRelation (.table name)

/-- Replaces the alias. -/
def FromItem.withAlias (item : FromItem) (alias? : Option Alias) : FromItem :=
  { item with alias? }

/-- Replaces what turns rows into columns. -/
def FromItem.withPivot (item : FromItem) (pivot : Option Pivot) : FromItem :=
  { item with pivot }

/-- Replaces what turns columns into rows. -/
def FromItem.withUnpivot (item : FromItem) (unpivot : Option Unpivot) : FromItem :=
  { item with unpivot }

/-- Whether an expression is a wildcard. -/
def Expr.isWildcard : Expr → Bool
  | .wildcard .. => true
  | _ => false

end SqlTree
