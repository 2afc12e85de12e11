import SqlTree.Text.CharClass

/-! # Dialects

* `Dialect`: whose SQL is read, with its `name` and `Dialect.ofName?`.
* What a dialect allows: `doubleQuotedStrings`, `structStyle`, `limitBy`, `wildcardExcept`,
  `wildcardExclude` and `wildcardReplace`.

The generic dialect takes what the others take, but reads double quotes as quoted names.
-/

namespace SqlTree
set_option autoImplicit false

/-- A dialect of SQL. -/
inductive Dialect where
  | generic | bigQuery | duckDb | clickHouse
  deriving DecidableEq, Repr

/-- How struct values are written: `STRUCT<a INT64>(1)`, or `a: 1` in braces. -/
inductive StructStyle where
  | bigQuery | duckDb
  deriving DecidableEq, Repr

/-- Every style of struct value. -/
def StructStyle.all : List StructStyle := [.bigQuery, .duckDb]

namespace Dialect

/-- Every dialect. -/
def all : List Dialect := [.generic, .bigQuery, .duckDb, .clickHouse]

/-- The name of the dialect, in lower case. -/
def name : Dialect → String
  | .generic => "generic"
  | .bigQuery => "bigquery"
  | .duckDb => "duckdb"
  | .clickHouse => "clickhouse"

/-- The dialect that a text names exactly. -/
def ofExactName? (text : String) : Option Dialect :=
  all.find? fun d => d.name == text

/-- The dialect that a text names in any case of ASCII letters; `ansi` is the generic one. -/
def ofName? (text : String) : Option Dialect :=
  if Text.sameIgnoringCase text "ansi" then some .generic
  else all.find? fun d => Text.sameIgnoringCase d.name text

/-- The wording for a text that names no dialect. -/
def unknownMessage (text : String) : String :=
  "unknown SQL dialect: " ++ text

/-- Whether double quotes enclose strings instead of names. -/
def doubleQuotedStrings : Dialect → Bool
  | .bigQuery => true
  | _ => false

/-- How struct values are written. -/
def structStyle : Dialect → StructStyle
  | .duckDb => .duckDb
  | _ => .bigQuery

/-- Whether `LIMIT n BY` is allowed. -/
def limitBy : Dialect → Bool
  | .generic | .clickHouse => true
  | _ => false

/-- Whether `* EXCEPT (..)` is allowed. -/
def wildcardExcept : Dialect → Bool
  | .duckDb => false
  | _ => true

/-- Whether `* EXCLUDE (..)` is allowed. -/
def wildcardExclude : Dialect → Bool
  | .generic | .duckDb => true
  | _ => false

/-- Whether `* REPLACE (..)` is allowed: wherever columns can be left out of a wildcard. -/
def wildcardReplace (d : Dialect) : Bool :=
  d.wildcardExcept || d.wildcardExclude

end Dialect

end SqlTree
