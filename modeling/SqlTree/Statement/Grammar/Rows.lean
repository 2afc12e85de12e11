import SqlTree.Query.Grammar.Knot
import SqlTree.Statement.Basic

/-! # Reading statements that change rows

* `insertStatement`, `updateStatement`, `deleteStatement`.
* `onConflict`: what happens to rows that are there already.
-/

namespace SqlTree.Parse
set_option autoImplicit false

/-- A value that is set. -/
def assignment (g : Productions) : Parse Assignment := do
  let column ← identifier
  expectSymbol .equal
  return { column, value := ← g.expr 0 }

/-- One or more values that are set. -/
def assignments (g : Productions) : Parse (List Assignment) :=
  commaList (assignment g)

/-- The columns to insert into, if a parenthesis opens and no query follows it. -/
def insertColumns : Parse (List Ident) := do
  if (← symbolAt 0 .leftParen) && !(← queryAt 1) then identifiersInParens else return []

/-- What is inserted. -/
def insertSource (g : Productions) : Parse InsertSource := do
  if ← keywordAt 0 .VALUES then return .values (← valueRows g)
  else if ← takeKeyword .DEFAULT then
    expectKeyword .VALUES
    return .defaultValues
  else if (← queryAt 0) || (← symbolAt 0 .leftParen) then return .query (← g.query)
  else fail ["VALUES", "DEFAULT VALUES", "SELECT"]

/-- What happens to a row that is there already. -/
def conflictAction (g : Productions) : Parse ConflictAction := do
  expectKeyword .DO
  if ← takeKeyword .NOTHING then return .doNothing
  else
    expectKeyword .UPDATE
    expectKeyword .SET
    return .doUpdate (← assignments g)

/-- What happens to rows that are there already. -/
def onConflict (g : Productions) : Parse OnConflict := do
  expectKeyword .ON
  expectKeyword .CONFLICT
  let columns ← optionalIdentifiers
  return { columns, action := ← conflictAction g }

/-- An `INSERT` statement. -/
def insertStatement (g : Productions) : Parse Insert := do
  expectKeyword .INSERT
  let withInto ← takeKeyword .INTO
  let table ← objectName
  let columns ← insertColumns
  let source ← insertSource g
  let onConflict ← ifKeyword .ON (onConflict g)
  return { withInto, table, columns, source, onConflict }

/-- An `UPDATE` statement. -/
def updateStatement (g : Productions) : Parse Update := do
  expectKeyword .UPDATE
  let table ← objectName
  let alias? ← optionalAlias
  expectKeyword .SET
  let assignments ← assignments g
  let (source, joins) ← fromClause g
  let condition ← afterKeyword .WHERE (g.expr 0)
  return { table, alias?, assignments, source, joins, condition }

/-- A `DELETE` statement. -/
def deleteStatement (g : Productions) : Parse Delete := do
  expectKeyword .DELETE
  let withFrom ← takeKeyword .FROM
  let table ← objectName
  let alias? ← optionalAlias
  let condition ← afterKeyword .WHERE (g.expr 0)
  return { withFrom, table, alias?, condition }

end SqlTree.Parse
