import SqlTree.Number.FloatText
import SqlTree.Query.Basic

/-! # Building expressions

* `Ident.plain`, `Expr.columnNamed`, `Expr.callNamed`, `Expr.star`, …: expressions from texts.
* `Scalar` and `Expr.ofScalar`: the constant that stands for a value.
* `Expr.equals`, `Expr.both`, `Expr.isBetween`, …: larger expressions from smaller ones.
* `Expr.conjoin`: one more condition besides those there are.
* `Limit.ofCount`, `Limit.withOffset`, …: limits.

A text that names a column or a table is cut at its points, and its parts are taken as they are.
-/

namespace SqlTree
set_option autoImplicit false

/-! ## Names -/

/-- The name without quotes. -/
def Ident.plain (name : String) : Ident :=
  { name }

/-- The names without quotes. -/
def Ident.plainList (names : List String) : List Ident :=
  names.map Ident.plain

/-- Cuts a text at its last point, if it has one. -/
def splitAtLastPoint? : List Char → Option (List Char × List Char)
  | [] => none
  | c :: cs =>
    match splitAtLastPoint? cs with
    | some (before, after) => some (c :: before, after)
    | none => if c = '.' then some ([], cs) else none

namespace Expr

/-- The column that a text names: what follows the last point, in the table before it. -/
def columnNamed (text : String) : Expr :=
  match splitAtLastPoint? text.toList with
  | some (table, name) =>
    .column { table := some (ObjectName.ofText (String.ofList table)),
              name := .plain (String.ofList name) }
  | none => .column { name := .plain text }

/-- The function that a text names, applied to arguments. -/
def callNamed (name : String) (arguments : List Expr) : Expr :=
  .call { name := ObjectName.ofText name, distinct := false, arguments }

/-- All columns. -/
def star : Expr :=
  .wildcard none none none

/-- Elements in brackets behind the word `ARRAY`. -/
def arrayOf (elements : List Expr) : Expr :=
  .array true elements

/-- A question mark with a number. -/
def positional (number : Nat) : Expr :=
  .placeholder (.positional number)

/-- A name behind a colon. -/
def namedPlaceholder (name : String) : Expr :=
  .placeholder (.named ':' name)

/-! ## Constants -/

/-- The constant for no value. -/
def null : Expr :=
  .literal .null

/-- A whole number as a constant. -/
def integer (n : Int) : Expr :=
  .literal (.integer (String.ofList (Decimal.writeInt n)))

end Expr

/-- A value that has a constant. Narrower numbers are values of the wider type that holds them. -/
inductive Scalar where
  | truth (value : Bool)
  | signed (value : Int64)
  | unsigned (value : UInt64)
  | double (value : Binary64)
  | text (value : String)
  | bytes (value : List UInt8)

/-- The constant for a value. -/
def Scalar.literal : Scalar → Literal
  | .truth value => .boolean value
  | .signed value => .integer (String.ofList (Decimal.writeInt value.toInt))
  | .unsigned value => .integer (Decimal.text value.toNat)
  | .double value => .float value.text
  | .text value => .string value
  | .bytes value => .blob value

namespace Expr

/-- The constant for a value that may be missing. -/
def ofScalar : Option Scalar → Expr
  | none => null
  | some value => .literal value.literal

/-! ## Larger expressions -/

/-- Whether two expressions are equal. -/
def equals (a b : Expr) : Expr := .binary a .equal b

/-- Whether two expressions differ. -/
def differs (a b : Expr) : Expr := .binary a .notEqual b

/-- Whether the first is less. -/
def lessThan (a b : Expr) : Expr := .binary a .less b

/-- Whether the first is not greater. -/
def atMost (a b : Expr) : Expr := .binary a .lessEqual b

/-- Whether the first is greater. -/
def moreThan (a b : Expr) : Expr := .binary a .greater b

/-- Whether the first is not less. -/
def atLeast (a b : Expr) : Expr := .binary a .greaterEqual b

/-- Whether the first contains the second. -/
def containing (a b : Expr) : Expr := .binary a .contains b

/-- Whether the second contains the first. -/
def containedIn (a b : Expr) : Expr := .binary a .containedBy b

/-- Whether both hold. -/
def both (a b : Expr) : Expr := .binary a .and b

/-- Whether one of them holds. -/
def either (a b : Expr) : Expr := .binary a .or b

/-- Whether a condition does not hold. -/
def negate (e : Expr) : Expr := .unary .not e

/-- Whether there is no value. -/
def missing (e : Expr) : Expr := .isNull e false

/-- Whether there is a value. -/
def present (e : Expr) : Expr := .isNull e true

/-- Whether a text has a pattern. -/
def matching (e pattern : Expr) : Expr := .like e false false pattern

/-- Whether a value lies between two others. -/
def isBetween (e low high : Expr) : Expr := .between e false low high

/-- Whether a value lies outside two others. -/
def isOutside (e low high : Expr) : Expr := .between e true low high

/-- Whether a value is in a list. -/
def isAmong (e : Expr) (items : List Expr) : Expr := .inList e false items

/-- Whether a value is in no place of a list. -/
def isNotAmong (e : Expr) (items : List Expr) : Expr := .inList e true items

/-- A value as one of another type. -/
def castTo (e : Expr) (type : DataType) : Expr := .cast .function e type

/-- The conditions so far, if any, and one more. -/
def conjoin (condition : Option Expr) (e : Expr) : Option Expr :=
  some (match condition with
    | some earlier => earlier.both e
    | none => e)

end Expr

/-- An item without an alias. -/
def SelectItem.bare (expr : Expr) : SelectItem :=
  { expr, alias? := none }

/-- An item with an alias behind `AS`. -/
def SelectItem.named (expr : Expr) (name : String) : SelectItem :=
  { expr, alias? := some (.explicit (.plain name)) }

/-! ## Limits and orders -/

namespace Limit

/-- A limit that says nothing yet. -/
def empty : Limit :=
  { rowCount := none, offset := none, all := false, null := false, groups := none }

/-- At most the rows that an expression counts. -/
def ofExpr (count : Expr) : Limit :=
  { empty with rowCount := some count }

/-- At most so many rows. -/
def ofCount (count : Int) : Limit :=
  ofExpr (.integer count)

/-- All rows. -/
def allRows : Limit :=
  { empty with all := true }

/-- The limit `NULL`. -/
def nullRows : Limit :=
  { empty with null := true }

/-- Leaves out so many rows, if there is a row count. -/
def withOffset (l : Limit) (offset : Int) : Limit :=
  if l.rowCount.isSome then { l with offset := some (.integer offset) } else l

/-- Counts for each group of the values of some expressions. -/
def forEach (l : Limit) (groups : List Expr) : Limit :=
  { l with groups := some groups }

end Limit

/-- An order by an expression. -/
def OrderItem.ofExpr (expr : Expr) : OrderItem :=
  { expr, direction := none, nulls := none }

/-- A number of rows to leave out. -/
def Offset.ofCount (count : Int) : Offset :=
  { count := .integer count, rows := .none }

end SqlTree
