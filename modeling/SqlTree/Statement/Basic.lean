import SqlTree.Query.Basic

/-! # Statements

* `Statement`: a query, or one of `Insert`, `Update`, `Delete`, `CreateTable`, `AlterTable` and
  `Show`, or the text of a statement that the grammar does not know.
* `ColumnDef` and `TableConstraint`: what a table is declared with.
-/

namespace SqlTree
set_option autoImplicit false

/-! ## Changing rows -/

/-- What is inserted. -/
inductive InsertSource where
  | values (rows : List (List Expr))
  | query (query : Query)
  | defaultValues

/-- A column and the value it is set to. -/
structure Assignment where
  column : Ident
  value : Expr

/-- What happens to a row that is there already. -/
inductive ConflictAction where
  | doNothing
  | doUpdate (assignments : List Assignment)

/-- When a row counts as being there already, and what happens then. -/
structure OnConflict where
  columns : List Ident
  action : ConflictAction

/-- An `INSERT` statement. -/
structure Insert where
  withInto : Bool
  table : ObjectName
  columns : List Ident
  source : InsertSource
  onConflict : Option OnConflict

/-- An `UPDATE` statement. -/
structure Update where
  table : ObjectName
  alias? : Option Alias
  assignments : List Assignment
  source : Option FromItem
  joins : List Join
  condition : Option Expr

/-- A `DELETE` statement. -/
structure Delete where
  withFrom : Bool
  table : ObjectName
  alias? : Option Alias
  condition : Option Expr

/-! ## Declaring tables -/

/-- The table and columns that a foreign key refers to. -/
structure ForeignKeyRef where
  table : ObjectName
  columns : List Ident

/-- A column as it is declared. -/
structure ColumnDef where
  name : Ident
  type : DataType
  nullable : Bool := true
  default : Option Expr := none
  primaryKey : Bool := false
  unique : Bool := false
  autoincrement : Bool := false
  references : Option ForeignKeyRef := none

/-- A condition on the rows of a table, without its name. -/
inductive ConstraintRule where
  | primaryKey (columns : List Ident)
  | unique (columns : List Ident)
  | foreignKey (columns : List Ident) (references : ForeignKeyRef)
  | check (condition : Expr)

/-- A condition on the rows of a table, perhaps with a name. -/
structure TableConstraint where
  name : Option Ident
  rule : ConstraintRule

/-- A `CREATE TABLE` statement. -/
structure CreateTable where
  temporary : Bool
  ifNotExists : Bool
  name : ObjectName
  columns : List ColumnDef
  constraints : List TableConstraint
  query : Option Query

/-- A change to a declared column. -/
inductive ColumnChange where
  | setDefault (value : Expr)
  | dropDefault
  | setNotNull
  | dropNotNull
  | setType (type : DataType)

/-- A change to a declared table. -/
inductive TableChange where
  | addColumn (withColumn ifNotExists : Bool) (column : ColumnDef)
  | dropColumn (withColumn ifExists : Bool) (name : Ident)
  | renameColumn (oldName newName : Ident)
  | renameTable (newName : ObjectName)
  | alterColumn (name : Ident) (change : ColumnChange)
  | addConstraint (constraint : TableConstraint)
  | dropConstraint (ifExists : Bool) (name : Ident)

/-- An `ALTER TABLE` statement. -/
structure AlterTable where
  name : ObjectName
  changes : List TableChange

/-! ## Showing settings -/

/-- The word for the indexes of a table. -/
inductive IndexWord where
  | index | indexes | keys
  deriving DecidableEq, Repr

namespace IndexWord

/-- Every word for the indexes of a table. -/
def all : List IndexWord := [.index, .indexes, .keys]

/-- The word itself. -/
def text : IndexWord → String
  | .index => "INDEX"
  | .indexes => "INDEXES"
  | .keys => "KEYS"

end IndexWord

/-- What a `SHOW` statement asks for. -/
inductive Show where
  | variable (name : Ident)
  | indexes (word : IndexWord) (table : ObjectName)
  deriving DecidableEq, Repr

/-! ## All statements -/

/-- A statement. -/
inductive Statement where
  | query (query : Query)
  | insert (insert : Insert)
  | update (update : Update)
  | delete (delete : Delete)
  | createTable (create : CreateTable)
  | alterTable (alter : AlterTable)
  | show (request : Show)
  /-- A statement kept as it was written, without what ends it. -/
  | unsupported (text : String)

/-- The query that a statement is. -/
def Statement.query? : Statement → Option Query
  | .query q => some q
  | _ => none

end SqlTree
