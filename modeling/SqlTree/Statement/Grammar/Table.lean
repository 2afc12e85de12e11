import SqlTree.Query.Grammar.Knot
import SqlTree.Statement.Basic

/-! # Reading statements that declare tables

* `createTable`: columns and constraints in any order, or a query, or both.
* `alterTable`: one or more changes to a table.
* `columnDef`: a column with its options in any order; of contradicting ones the last counts.
-/

namespace SqlTree.Parse
set_option autoImplicit false

/-! ## Columns and constraints -/

/-- The words `IF NOT EXISTS`, if the first one is there. -/
def ifNotExists : Parse Bool := do
  if ← takeKeyword .IF then
    expectKeyword .NOT
    expectKeyword .EXISTS
    return true
  else return false

/-- The words `IF EXISTS`, if the first one is there. -/
def ifExists : Parse Bool := do
  if ← takeKeyword .IF then
    expectKeyword .EXISTS
    return true
  else return false

/-- The table and columns that a foreign key refers to. -/
def foreignKeyRef : Parse ForeignKeyRef := do
  let table ← objectName
  return { table, columns := ← optionalIdentifiers }

/-- A column with the option under the cursor, if there is one. -/
def columnOption (g : Productions) (column : ColumnDef) : Parse (Option ColumnDef) := do
  if ← takeKeyword .NOT then
    expectKeyword .NULL
    return some { column with nullable := false }
  else if ← takeKeyword .NULL then return some { column with nullable := true }
  else if ← takeKeyword .DEFAULT then return some { column with default := some (← g.expr 0) }
  else if ← takeKeyword .PRIMARY then
    expectKeyword .KEY
    return some { column with primaryKey := true }
  else if ← takeKeyword .UNIQUE then return some { column with unique := true }
  else if ← takeKeyword .AUTOINCREMENT then return some { column with autoincrement := true }
  else if ← takeKeyword .REFERENCES then
    return some { column with references := some (← foreignKeyRef) }
  else return none

/-- A column as it is declared. -/
def columnDef (g : Productions) : Parse ColumnDef := do
  let name ← identifier
  let type ← dataType
  repeatFrom (columnOption g) { name, type }

/-- Whether a constraint of the whole table begins here. -/
def tableConstraintAt : Parse Bool :=
  anyKeywordAt 0 [.CONSTRAINT, .PRIMARY, .UNIQUE, .FOREIGN, .CHECK]

/-- A condition on the rows of a table, without its name. -/
def constraintRule (g : Productions) : Parse ConstraintRule := do
  if ← takeKeyword .PRIMARY then
    expectKeyword .KEY
    return .primaryKey (← identifiersInParens)
  else if ← takeKeyword .UNIQUE then return .unique (← identifiersInParens)
  else if ← takeKeyword .FOREIGN then
    expectKeyword .KEY
    let columns ← identifiersInParens
    expectKeyword .REFERENCES
    return .foreignKey columns (← foreignKeyRef)
  else if ← takeKeyword .CHECK then return .check (← inParens (g.expr 0))
  else fail ["PRIMARY KEY", "UNIQUE", "FOREIGN KEY", "CHECK"]

/-- A condition on the rows of a table. -/
def tableConstraint (g : Productions) : Parse TableConstraint := do
  let name ← afterKeyword .CONSTRAINT identifier
  return { name, rule := ← constraintRule g }

/-- A part of the declaration of a table. -/
inductive TablePart where
  | column (column : ColumnDef)
  | constraint (constraint : TableConstraint)

namespace TablePart

/-- The column that a part is. -/
def column? : TablePart → Option ColumnDef
  | .column c => some c
  | .constraint _ => none

/-- The constraint that a part is. -/
def constraint? : TablePart → Option TableConstraint
  | .column _ => none
  | .constraint c => some c

end TablePart

/-- A part of the declaration of a table. -/
def tablePart (g : Productions) : Parse TablePart := do
  if ← tableConstraintAt then return .constraint (← tableConstraint g)
  else return .column (← columnDef g)

/-- The parts of the declaration of a table in parentheses, if a parenthesis opens. -/
def tableParts (g : Productions) : Parse (List TablePart) := do
  if ← takeSymbol .leftParen then
    let parts ← commaList (tablePart g)
    expectSymbol .rightParen
    return parts
  else return []

/-! ## Creating a table -/

/-- Whether the table is temporary. -/
def temporaryWord : Parse Bool := do
  if ← takeKeyword .TEMPORARY then return true else takeKeyword .TEMP

/-- A `CREATE TABLE` statement. -/
def createTable (g : Productions) : Parse CreateTable := do
  expectKeyword .CREATE
  let temporary ← temporaryWord
  expectKeyword .TABLE
  let ifNotExists ← ifNotExists
  let name ← objectName
  let parts ← tableParts g
  let query ← afterKeyword .AS g.query
  if parts.isEmpty && query.isNone then fail [Symbol.leftParen.text, Keyword.AS.text]
  else
    return { temporary, ifNotExists, name, columns := parts.filterMap TablePart.column?,
             constraints := parts.filterMap TablePart.constraint?, query }

/-! ## Changing a table -/

/-- A change to a column behind `SET`. -/
def setColumn (g : Productions) : Parse ColumnChange := do
  if ← takeKeyword .DEFAULT then return .setDefault (← g.expr 0)
  else if ← takeKeyword .NOT then
    expectKeyword .NULL
    return .setNotNull
  else if isWord "DATA" (← current).kind then
    advance
    expectKeyword .TYPE
    return .setType (← dataType)
  else fail ["DEFAULT", "NOT NULL", "DATA TYPE"]

/-- A change to a column behind `DROP`. -/
def dropFromColumn : Parse ColumnChange := do
  if ← takeKeyword .DEFAULT then return .dropDefault
  else
    expectKeyword .NOT
    expectKeyword .NULL
    return .dropNotNull

/-- A change to a declared column. -/
def columnChange (g : Productions) : Parse ColumnChange := do
  if ← takeKeyword .SET then setColumn g
  else if ← takeKeyword .DROP then dropFromColumn
  else if ← takeKeyword .TYPE then return .setType (← dataType)
  else fail [Keyword.SET.text, Keyword.DROP.text, Keyword.TYPE.text]

/-- A change behind `ADD`. -/
def addToTable (g : Productions) : Parse TableChange := do
  if ← tableConstraintAt then return .addConstraint (← tableConstraint g)
  else
    let withColumn ← takeKeyword .COLUMN
    let ifNotExists ← ifNotExists
    return .addColumn withColumn ifNotExists (← columnDef g)

/-- A change behind `DROP`. -/
def dropFromTable : Parse TableChange := do
  if ← takeKeyword .CONSTRAINT then
    let ifExists ← ifExists
    return .dropConstraint ifExists (← identifier)
  else
    let withColumn ← takeKeyword .COLUMN
    let ifExists ← ifExists
    return .dropColumn withColumn ifExists (← identifier)

/-- A change behind `RENAME`. -/
def renameInTable : Parse TableChange := do
  if ← takeKeyword .TO then return .renameTable (← objectName)
  else
    let _ ← takeKeyword .COLUMN
    let oldName ← identifier
    expectKeyword .TO
    return .renameColumn oldName (← identifier)

/-- A change behind `ALTER`. -/
def alterInTable (g : Productions) : Parse TableChange := do
  let _ ← takeKeyword .COLUMN
  let name ← identifier
  return .alterColumn name (← columnChange g)

/-- A change to a declared table. -/
def tableChange (g : Productions) : Parse TableChange := do
  if ← takeKeyword .ADD then addToTable g
  else if ← takeKeyword .DROP then dropFromTable
  else if ← takeKeyword .RENAME then renameInTable
  else if ← takeKeyword .ALTER then alterInTable g
  else fail [Keyword.ADD.text, Keyword.DROP.text, Keyword.RENAME.text, Keyword.ALTER.text]

/-- An `ALTER TABLE` statement. -/
def alterTable (g : Productions) : Parse AlterTable := do
  expectKeyword .ALTER
  expectKeyword .TABLE
  let name ← objectName
  return { name, changes := ← commaList (tableChange g) }

end SqlTree.Parse
