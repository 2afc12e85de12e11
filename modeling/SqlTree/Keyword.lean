import SqlTree.Text.CharClass

/-! # Keywords

The words of SQL that the grammar knows, each named by its own spelling.

* `Keyword.text`: the spelling in upper case. `Keyword.all`: every keyword.
* `Keyword.ofText?`: the keyword a word spells, in any case of ASCII letters.
* `Keyword.isReserved`: whether it can never stand for a name.
-/

namespace SqlTree
set_option autoImplicit false

/-- A word with a meaning of its own in the grammar. -/
inductive Keyword where
  -- Queries
  | SELECT | FROM | WHERE | ORDER | BY | GROUP | HAVING | LIMIT | OFFSET | DISTINCT | ALL
  | QUALIFY
  -- Joins and from-item extensions
  | JOIN | INNER | LEFT | RIGHT | FULL | OUTER | CROSS | ON | USING | LATERAL | PIVOT | UNPIVOT
  | FOR
  -- Set operations
  | UNION | INTERSECT | EXCEPT
  -- Data manipulation
  | INSERT | INTO | VALUES | UPDATE | SET | DELETE
  -- Data definition
  | CREATE | DROP | ALTER | TABLE | INDEX | VIEW | SHOW | ADD | COLUMN | RENAME | TO
  -- Constraints
  | PRIMARY | KEY | FOREIGN | REFERENCES | UNIQUE | CHECK | DEFAULT | CONSTRAINT | CASCADE
  | RESTRICT
  -- Logical operators and predicates
  | AND | OR | NOT | IN | BETWEEN | LIKE | ILIKE | IS | NULL | TRUE | FALSE | EXISTS
  -- Ordering
  | ASC | DESC | NULLS | FIRST | LAST
  -- Data types
  | INT | INTEGER | SMALLINT | BIGINT | REAL | DOUBLE | FLOAT | DECIMAL | NUMERIC | CHAR
  | VARCHAR | TEXT | BLOB | BOOLEAN | DATE | TIME | TIMESTAMP | DATETIME | ARRAY | STRUCT
  -- Dialect extras
  | AUTOINCREMENT | IF | TEMPORARY | TEMP | CONFLICT | DO | NOTHING | REPLACE | EXCLUDE | INCLUDE
  | TYPE
  -- Common clauses
  | AS | CASE | WHEN | THEN | ELSE | END | CAST
  -- Misc
  | WITH | RECURSIVE | WINDOW | ROW | ROWS
  deriving DecidableEq, Repr

namespace Keyword

/-- Every keyword. -/
def all : List Keyword := [
  .SELECT, .FROM, .WHERE, .ORDER, .BY, .GROUP, .HAVING, .LIMIT, .OFFSET, .DISTINCT, .ALL,
  .QUALIFY, .JOIN, .INNER, .LEFT, .RIGHT, .FULL, .OUTER, .CROSS, .ON, .USING, .LATERAL, .PIVOT,
  .UNPIVOT, .FOR, .UNION, .INTERSECT, .EXCEPT, .INSERT, .INTO, .VALUES, .UPDATE, .SET, .DELETE,
  .CREATE, .DROP, .ALTER, .TABLE, .INDEX, .VIEW, .SHOW, .ADD, .COLUMN, .RENAME, .TO, .PRIMARY,
  .KEY, .FOREIGN, .REFERENCES, .UNIQUE, .CHECK, .DEFAULT, .CONSTRAINT, .CASCADE, .RESTRICT, .AND,
  .OR, .NOT, .IN, .BETWEEN, .LIKE, .ILIKE, .IS, .NULL, .TRUE, .FALSE, .EXISTS, .ASC, .DESC,
  .NULLS, .FIRST, .LAST, .INT, .INTEGER, .SMALLINT, .BIGINT, .REAL, .DOUBLE, .FLOAT, .DECIMAL,
  .NUMERIC, .CHAR, .VARCHAR, .TEXT, .BLOB, .BOOLEAN, .DATE, .TIME, .TIMESTAMP, .DATETIME, .ARRAY,
  .STRUCT, .AUTOINCREMENT, .IF, .TEMPORARY, .TEMP, .CONFLICT, .DO, .NOTHING, .REPLACE, .EXCLUDE,
  .INCLUDE, .TYPE, .AS, .CASE, .WHEN, .THEN, .ELSE, .END, .CAST, .WITH, .RECURSIVE, .WINDOW,
  .ROW, .ROWS]

/-- The spelling in upper case. -/
def text : Keyword → String
  | .SELECT => "SELECT"
  | .FROM => "FROM"
  | .WHERE => "WHERE"
  | .ORDER => "ORDER"
  | .BY => "BY"
  | .GROUP => "GROUP"
  | .HAVING => "HAVING"
  | .LIMIT => "LIMIT"
  | .OFFSET => "OFFSET"
  | .DISTINCT => "DISTINCT"
  | .ALL => "ALL"
  | .QUALIFY => "QUALIFY"
  | .JOIN => "JOIN"
  | .INNER => "INNER"
  | .LEFT => "LEFT"
  | .RIGHT => "RIGHT"
  | .FULL => "FULL"
  | .OUTER => "OUTER"
  | .CROSS => "CROSS"
  | .ON => "ON"
  | .USING => "USING"
  | .LATERAL => "LATERAL"
  | .PIVOT => "PIVOT"
  | .UNPIVOT => "UNPIVOT"
  | .FOR => "FOR"
  | .UNION => "UNION"
  | .INTERSECT => "INTERSECT"
  | .EXCEPT => "EXCEPT"
  | .INSERT => "INSERT"
  | .INTO => "INTO"
  | .VALUES => "VALUES"
  | .UPDATE => "UPDATE"
  | .SET => "SET"
  | .DELETE => "DELETE"
  | .CREATE => "CREATE"
  | .DROP => "DROP"
  | .ALTER => "ALTER"
  | .TABLE => "TABLE"
  | .INDEX => "INDEX"
  | .VIEW => "VIEW"
  | .SHOW => "SHOW"
  | .ADD => "ADD"
  | .COLUMN => "COLUMN"
  | .RENAME => "RENAME"
  | .TO => "TO"
  | .PRIMARY => "PRIMARY"
  | .KEY => "KEY"
  | .FOREIGN => "FOREIGN"
  | .REFERENCES => "REFERENCES"
  | .UNIQUE => "UNIQUE"
  | .CHECK => "CHECK"
  | .DEFAULT => "DEFAULT"
  | .CONSTRAINT => "CONSTRAINT"
  | .CASCADE => "CASCADE"
  | .RESTRICT => "RESTRICT"
  | .AND => "AND"
  | .OR => "OR"
  | .NOT => "NOT"
  | .IN => "IN"
  | .BETWEEN => "BETWEEN"
  | .LIKE => "LIKE"
  | .ILIKE => "ILIKE"
  | .IS => "IS"
  | .NULL => "NULL"
  | .TRUE => "TRUE"
  | .FALSE => "FALSE"
  | .EXISTS => "EXISTS"
  | .ASC => "ASC"
  | .DESC => "DESC"
  | .NULLS => "NULLS"
  | .FIRST => "FIRST"
  | .LAST => "LAST"
  | .INT => "INT"
  | .INTEGER => "INTEGER"
  | .SMALLINT => "SMALLINT"
  | .BIGINT => "BIGINT"
  | .REAL => "REAL"
  | .DOUBLE => "DOUBLE"
  | .FLOAT => "FLOAT"
  | .DECIMAL => "DECIMAL"
  | .NUMERIC => "NUMERIC"
  | .CHAR => "CHAR"
  | .VARCHAR => "VARCHAR"
  | .TEXT => "TEXT"
  | .BLOB => "BLOB"
  | .BOOLEAN => "BOOLEAN"
  | .DATE => "DATE"
  | .TIME => "TIME"
  | .TIMESTAMP => "TIMESTAMP"
  | .DATETIME => "DATETIME"
  | .ARRAY => "ARRAY"
  | .STRUCT => "STRUCT"
  | .AUTOINCREMENT => "AUTOINCREMENT"
  | .IF => "IF"
  | .TEMPORARY => "TEMPORARY"
  | .TEMP => "TEMP"
  | .CONFLICT => "CONFLICT"
  | .DO => "DO"
  | .NOTHING => "NOTHING"
  | .REPLACE => "REPLACE"
  | .EXCLUDE => "EXCLUDE"
  | .INCLUDE => "INCLUDE"
  | .TYPE => "TYPE"
  | .AS => "AS"
  | .CASE => "CASE"
  | .WHEN => "WHEN"
  | .THEN => "THEN"
  | .ELSE => "ELSE"
  | .END => "END"
  | .CAST => "CAST"
  | .WITH => "WITH"
  | .RECURSIVE => "RECURSIVE"
  | .WINDOW => "WINDOW"
  | .ROW => "ROW"
  | .ROWS => "ROWS"

/-- The keyword that a word spells, whatever the case of its ASCII letters. -/
def ofText? (word : String) : Option Keyword :=
  let upper := Text.foldAscii word
  all.find? fun k => k.text == upper

/-- Whether the word can never be a name. -/
def isReserved : Keyword → Bool
  | .INDEX | .VIEW | .SHOW | .ADD | .COLUMN | .RENAME | .TO | .KEY | .CASCADE | .RESTRICT
  | .NULLS | .FIRST | .LAST | .INT | .INTEGER | .SMALLINT | .BIGINT | .REAL | .DOUBLE | .FLOAT
  | .DECIMAL | .NUMERIC | .CHAR | .VARCHAR | .TEXT | .BLOB | .BOOLEAN | .DATE | .TIME
  | .TIMESTAMP | .DATETIME | .AUTOINCREMENT | .IF | .TEMPORARY | .TEMP | .CONFLICT | .DO
  | .NOTHING | .REPLACE | .EXCLUDE | .INCLUDE | .TYPE | .RECURSIVE | .ROW | .ROWS => false
  | _ => true

theorem mem_all (k : Keyword) : k ∈ all := by
  cases k <;> decide

end Keyword

end SqlTree
