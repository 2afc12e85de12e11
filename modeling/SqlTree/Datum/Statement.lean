import SqlTree.Datum.Query
import SqlTree.Statement.Basic

/-! # Statements as data

For each part of a statement the function `datum` writes it and `ofDatum?` reads it. The cases of a
constraint and of a change hold the fields of the constraint or the change themselves.
-/

namespace SqlTree
set_option autoImplicit false

open Datum (required optional list?)

/-! ## Changing rows -/

/-- What is inserted as data. -/
def InsertSource.datum : InsertSource → Datum
  | .values rows => .variant "Values" (.record [("rows", .list (Expr.rowData rows))])
  | .query q => .variant "Query" q.datum
  | .defaultValues => .text "DefaultValues"

/-- Reads what is inserted. -/
def InsertSource.ofDatum? (d : Datum) : Option InsertSource :=
  match d.variant? with
  | some ("Values", some content) => ((Readers.ofDepth content).rows content).map .values
  | some ("Query", some content) => (Query.ofDatum? content).map .query
  | some ("DefaultValues", content) =>
    if Datum.isEmptyContent content then some .defaultValues else none
  | _ => none

/-- A column and its value as data. -/
def Assignment.datum (a : Assignment) : Datum :=
  .record [("column", a.column.datum), ("value", a.value.datum)]

/-- Reads a column and its value. -/
def Assignment.ofDatum? (d : Datum) : Option Assignment :=
  match d.members? ["column", "value"] with
  | some [column, value] => do
    return { column := ← required Ident.ofDatum? column, value := ← required Expr.ofDatum? value }
  | _ => none

/-- What happens to a row that is there already as data. -/
def ConflictAction.datum : ConflictAction → Datum
  | .doNothing => .text "DoNothing"
  | .doUpdate assignments => .variant "DoUpdate" (.ofList Assignment.datum assignments)

/-- Reads what happens to a row that is there already. -/
def ConflictAction.ofDatum? (d : Datum) : Option ConflictAction :=
  match d.variant? with
  | some ("DoUpdate", some content) => (content.list? Assignment.ofDatum?).map .doUpdate
  | some ("DoNothing", content) => if Datum.isEmptyContent content then some .doNothing else none
  | _ => none

/-- What happens to rows that are there already as data. -/
def OnConflict.datum (c : OnConflict) : Datum :=
  .record [("columns", .ofList Ident.datum c.columns), ("action", c.action.datum)]

/-- Reads what happens to rows that are there already. -/
def OnConflict.ofDatum? (d : Datum) : Option OnConflict :=
  match d.members? ["columns", "action"] with
  | some [columns, action] => do
    return { columns := ← required (list? Ident.ofDatum?) columns,
             action := ← required ConflictAction.ofDatum? action }
  | _ => none

/-- An `INSERT` statement as data. -/
def Insert.datum (i : Insert) : Datum :=
  .record [("into", .boolean i.withInto), ("table", i.table.datum),
    ("columns", .ofList Ident.datum i.columns), ("source", i.source.datum),
    ("on_conflict", .ofOption OnConflict.datum i.onConflict)]

/-- Reads an `INSERT` statement. -/
def Insert.ofDatum? (d : Datum) : Option Insert :=
  match d.members? ["into", "table", "columns", "source", "on_conflict"] with
  | some [withInto, table, columns, source, onConflict] => do
    return { withInto := ← required Datum.boolean? withInto,
             table := ← required ObjectName.ofDatum? table,
             columns := ← required (list? Ident.ofDatum?) columns,
             source := ← required InsertSource.ofDatum? source,
             onConflict := ← optional OnConflict.ofDatum? onConflict }
  | _ => none

/-- An `UPDATE` statement as data. -/
def Update.datum (u : Update) : Datum :=
  .record [("table", u.table.datum), ("alias", .ofOption Alias.datum u.alias?),
    ("assignments", .ofList Assignment.datum u.assignments),
    ("from", .ofOption FromItem.datum u.source), ("joins", .ofList Join.datum u.joins),
    ("selection", .ofOption Expr.datum u.condition)]

/-- Reads an `UPDATE` statement. -/
def Update.ofDatum? (d : Datum) : Option Update :=
  match d.members? ["table", "alias", "assignments", "from", "joins", "selection"] with
  | some [table, alias?, assignments, source, joins, condition] => do
    return { table := ← required ObjectName.ofDatum? table,
             alias? := ← optional Alias.ofDatum? alias?,
             assignments := ← required (list? Assignment.ofDatum?) assignments,
             source := ← optional FromItem.ofDatum? source,
             joins := ← required (list? Join.ofDatum?) joins,
             condition := ← optional Expr.ofDatum? condition }
  | _ => none

/-- A `DELETE` statement as data. -/
def Delete.datum (s : Delete) : Datum :=
  .record [("from_keyword", .boolean s.withFrom), ("table", s.table.datum),
    ("alias", .ofOption Alias.datum s.alias?), ("selection", .ofOption Expr.datum s.condition)]

/-- Reads a `DELETE` statement. -/
def Delete.ofDatum? (d : Datum) : Option Delete :=
  match d.members? ["from_keyword", "table", "alias", "selection"] with
  | some [withFrom, table, alias?, condition] => do
    return { withFrom := ← required Datum.boolean? withFrom,
             table := ← required ObjectName.ofDatum? table,
             alias? := ← optional Alias.ofDatum? alias?,
             condition := ← optional Expr.ofDatum? condition }
  | _ => none

/-! ## Declaring tables -/

/-- What a foreign key refers to as data. -/
def ForeignKeyRef.datum (r : ForeignKeyRef) : Datum :=
  .record [("table", r.table.datum), ("columns", .ofList Ident.datum r.columns)]

/-- Reads what a foreign key refers to. -/
def ForeignKeyRef.ofDatum? (d : Datum) : Option ForeignKeyRef :=
  match d.members? ["table", "columns"] with
  | some [table, columns] => do
    return { table := ← required ObjectName.ofDatum? table,
             columns := ← required (list? Ident.ofDatum?) columns }
  | _ => none

/-- A declared column as data. -/
def ColumnDef.datum (c : ColumnDef) : Datum :=
  .record [("name", c.name.datum), ("data_type", c.type.datum), ("nullable", .boolean c.nullable),
    ("default", .ofOption Expr.datum c.default), ("primary_key", .boolean c.primaryKey),
    ("unique", .boolean c.unique), ("autoincrement", .boolean c.autoincrement),
    ("references", .ofOption ForeignKeyRef.datum c.references)]

/-- Reads a declared column. -/
def ColumnDef.ofDatum? (d : Datum) : Option ColumnDef :=
  match d.members? ["name", "data_type", "nullable", "default", "primary_key", "unique",
      "autoincrement", "references"] with
  | some [name, type, nullable, default, primaryKey, unique, autoincrement, references] => do
    return { name := ← required Ident.ofDatum? name,
             type := ← required DataType.ofDatum? type,
             nullable := ← required Datum.boolean? nullable,
             default := ← optional Expr.ofDatum? default,
             primaryKey := ← required Datum.boolean? primaryKey,
             unique := ← required Datum.boolean? unique,
             autoincrement := ← required Datum.boolean? autoincrement,
             references := ← optional ForeignKeyRef.ofDatum? references }
  | _ => none

/-- A condition on the rows of a table as data. -/
def TableConstraint.datum (c : TableConstraint) : Datum :=
  let name := Datum.ofOption Ident.datum c.name
  match c.rule with
  | .primaryKey columns =>
    .variant "PrimaryKey" (.record [("name", name), ("columns", .ofList Ident.datum columns)])
  | .unique columns =>
    .variant "Unique" (.record [("name", name), ("columns", .ofList Ident.datum columns)])
  | .foreignKey columns references =>
    .variant "ForeignKey" (.record [("name", name), ("columns", .ofList Ident.datum columns),
      ("references", references.datum)])
  | .check condition => .variant "Check" (.record [("name", name), ("expr", condition.datum)])

/-- Reads a condition on the rows of a table, without its name. -/
def ConstraintRule.ofCase? (name : String) (content : Datum) : Option ConstraintRule :=
  match name with
  | "PrimaryKey" =>
    match content.fields? ["columns"] with
    | some [columns] => do return .primaryKey (← required (list? Ident.ofDatum?) columns)
    | _ => none
  | "Unique" =>
    match content.fields? ["columns"] with
    | some [columns] => do return .unique (← required (list? Ident.ofDatum?) columns)
    | _ => none
  | "ForeignKey" =>
    match content.fields? ["columns", "references"] with
    | some [columns, references] => do
      return .foreignKey (← required (list? Ident.ofDatum?) columns)
        (← required ForeignKeyRef.ofDatum? references)
    | _ => none
  | "Check" =>
    match content.fields? ["expr"] with
    | some [condition] => do return .check (← required Expr.ofDatum? condition)
    | _ => none
  | _ => none

/-- Reads a condition on the rows of a table. -/
def TableConstraint.ofDatum? (d : Datum) : Option TableConstraint :=
  match d.variant? with
  | some (name, some content) =>
    match content.fields? ["name"] with
    | some [ownName] => do
      return { name := ← optional Ident.ofDatum? ownName,
               rule := ← ConstraintRule.ofCase? name content }
    | _ => none
  | _ => none

/-- A `CREATE TABLE` statement as data. -/
def CreateTable.datum (c : CreateTable) : Datum :=
  .record [("temporary", .boolean c.temporary), ("if_not_exists", .boolean c.ifNotExists),
    ("name", c.name.datum), ("columns", .ofList ColumnDef.datum c.columns),
    ("constraints", .ofList TableConstraint.datum c.constraints),
    ("query", .ofOption Query.datum c.query)]

/-- Reads a `CREATE TABLE` statement. -/
def CreateTable.ofDatum? (d : Datum) : Option CreateTable :=
  match d.members? ["temporary", "if_not_exists", "name", "columns", "constraints", "query"] with
  | some [temporary, ifNotExists, name, columns, constraints, query] => do
    return { temporary := ← required Datum.boolean? temporary,
             ifNotExists := ← required Datum.boolean? ifNotExists,
             name := ← required ObjectName.ofDatum? name,
             columns := ← required (list? ColumnDef.ofDatum?) columns,
             constraints := ← required (list? TableConstraint.ofDatum?) constraints,
             query := ← optional Query.ofDatum? query }
  | _ => none

/-- A change to a declared column as data. -/
def ColumnChange.datum : ColumnChange → Datum
  | .setDefault value => .variant "SetDefault" value.datum
  | .dropDefault => .text "DropDefault"
  | .setNotNull => .text "SetNotNull"
  | .dropNotNull => .text "DropNotNull"
  | .setType type => .variant "SetDataType" type.datum

/-- Reads a change to a declared column. -/
def ColumnChange.ofDatum? (d : Datum) : Option ColumnChange :=
  match d.variant? with
  | some ("SetDefault", some content) => (Expr.ofDatum? content).map .setDefault
  | some ("SetDataType", some content) => (DataType.ofDatum? content).map .setType
  | some ("DropDefault", content) =>
    if Datum.isEmptyContent content then some .dropDefault else none
  | some ("SetNotNull", content) =>
    if Datum.isEmptyContent content then some .setNotNull else none
  | some ("DropNotNull", content) =>
    if Datum.isEmptyContent content then some .dropNotNull else none
  | _ => none

/-- A change to a declared table as data. -/
def TableChange.datum : TableChange → Datum
  | .addColumn withColumn ifNotExists column =>
    .variant "AddColumn" (.record [("column_keyword", .boolean withColumn),
      ("if_not_exists", .boolean ifNotExists), ("column", column.datum)])
  | .dropColumn withColumn ifExists name =>
    .variant "DropColumn" (.record [("column_keyword", .boolean withColumn),
      ("if_exists", .boolean ifExists), ("name", name.datum)])
  | .renameColumn oldName newName =>
    .variant "RenameColumn" (.record [("old_name", oldName.datum), ("new_name", newName.datum)])
  | .renameTable newName => .variant "RenameTable" (.record [("new_name", newName.datum)])
  | .alterColumn name change =>
    .variant "AlterColumn" (.record [("name", name.datum), ("action", change.datum)])
  | .addConstraint constraint => .variant "AddConstraint" constraint.datum
  | .dropConstraint ifExists name =>
    .variant "DropConstraint" (.record [("if_exists", .boolean ifExists), ("name", name.datum)])

/-- Reads a change to a declared table with the name and the content of its case. -/
def TableChange.ofCase? (name : String) (content : Datum) : Option TableChange :=
  match name with
  | "AddColumn" =>
    match content.fields? ["column_keyword", "if_not_exists", "column"] with
    | some [withColumn, ifNotExists, column] => do
      return .addColumn (← required Datum.boolean? withColumn)
        (← required Datum.boolean? ifNotExists) (← required ColumnDef.ofDatum? column)
    | _ => none
  | "DropColumn" =>
    match content.fields? ["column_keyword", "if_exists", "name"] with
    | some [withColumn, ifExists, name] => do
      return .dropColumn (← required Datum.boolean? withColumn)
        (← required Datum.boolean? ifExists) (← required Ident.ofDatum? name)
    | _ => none
  | "RenameColumn" =>
    match content.fields? ["old_name", "new_name"] with
    | some [oldName, newName] => do
      return .renameColumn (← required Ident.ofDatum? oldName) (← required Ident.ofDatum? newName)
    | _ => none
  | "RenameTable" =>
    match content.fields? ["new_name"] with
    | some [newName] => do return .renameTable (← required ObjectName.ofDatum? newName)
    | _ => none
  | "AlterColumn" =>
    match content.fields? ["name", "action"] with
    | some [name, change] => do
      return .alterColumn (← required Ident.ofDatum? name)
        (← required ColumnChange.ofDatum? change)
    | _ => none
  | "AddConstraint" => (TableConstraint.ofDatum? content).map .addConstraint
  | "DropConstraint" =>
    match content.fields? ["if_exists", "name"] with
    | some [ifExists, name] => do
      return .dropConstraint (← required Datum.boolean? ifExists)
        (← required Ident.ofDatum? name)
    | _ => none
  | _ => none

/-- Reads a change to a declared table. -/
def TableChange.ofDatum? (d : Datum) : Option TableChange :=
  match d.variant? with
  | some (name, some content) => TableChange.ofCase? name content
  | _ => none

/-- An `ALTER TABLE` statement as data. -/
def AlterTable.datum (a : AlterTable) : Datum :=
  .record [("name", a.name.datum), ("operations", .ofList TableChange.datum a.changes)]

/-- Reads an `ALTER TABLE` statement. -/
def AlterTable.ofDatum? (d : Datum) : Option AlterTable :=
  match d.members? ["name", "operations"] with
  | some [name, changes] => do
    return { name := ← required ObjectName.ofDatum? name,
             changes := ← required (list? TableChange.ofDatum?) changes }
  | _ => none

/-! ## Showing settings -/

/-- What a `SHOW` statement asks for as data. -/
def Show.targetDatum : Show → Datum
  | .variable name => .variant "Variable" name.datum
  | .indexes word table =>
    .variant "Indexes" (.record [("keyword", .ofPlain IndexWord.caseName word),
      ("table", table.datum)])

/-- Reads what a `SHOW` statement asks for. -/
def Show.ofTargetDatum? (d : Datum) : Option Show :=
  match d.variant? with
  | some ("Variable", some content) => (Ident.ofDatum? content).map .variable
  | some ("Indexes", some content) =>
    match content.fields? ["keyword", "table"] with
    | some [word, table] => do
      return .indexes (← required IndexWord.ofDatum? word)
        (← required ObjectName.ofDatum? table)
    | _ => none
  | _ => none

/-! ## All statements -/

/-- A statement as data. -/
def Statement.datum : Statement → Datum
  | .query q => .variant "Select" q.datum
  | .insert i => .variant "Insert" i.datum
  | .update u => .variant "Update" u.datum
  | .delete d => .variant "Delete" d.datum
  | .createTable c => .variant "CreateTable" c.datum
  | .alterTable a => .variant "AlterTable" a.datum
  | .show r => .variant "Show" (.record [("target", r.targetDatum)])
  | .unsupported words => .variant "Unsupported" (.record [("text", .text words)])

/-- Reads a statement with the name and the content of its case. -/
def Statement.ofCase? (name : String) (content : Datum) : Option Statement :=
  match name with
  | "Select" => (Query.ofDatum? content).map .query
  | "Insert" => (Insert.ofDatum? content).map .insert
  | "Update" => (Update.ofDatum? content).map .update
  | "Delete" => (Delete.ofDatum? content).map .delete
  | "CreateTable" => (CreateTable.ofDatum? content).map .createTable
  | "AlterTable" => (AlterTable.ofDatum? content).map .alterTable
  | "Show" =>
    match content.members? ["target"] with
    | some [target] => (required Show.ofTargetDatum? target).map .show
    | _ => none
  | "Unsupported" =>
    match content.members? ["text"] with
    | some [words] => (required Datum.text? words).map .unsupported
    | _ => none
  | _ => none

/-- Reads a statement. -/
def Statement.ofDatum? (d : Datum) : Option Statement :=
  match d.variant? with
  | some (name, some content) => Statement.ofCase? name content
  | _ => none

end SqlTree
