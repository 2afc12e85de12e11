import SqlTree.Query.Layout
import SqlTree.Statement.Basic

/-! # The written form of statements

* `Statement.layout` and one function for each part of a statement.
* `Statement.text`, `Query.text`, `Expr.text`, …: the written text, or the defect that prevents it.

The options of a column are written in one order, whatever the order they were read in; so are the
columns of a table before its constraints.
-/

namespace SqlTree
set_option autoImplicit false

/-! ## Changing rows -/

/-- A value that is set. -/
def Assignment.layout (a : Assignment) : Layout :=
  a.column.layout ++ [.gap, .symbol .equal, .gap] ++ a.value.layout

/-- Values that are set. -/
def Assignment.listLayout (assignments : List Assignment) : Layout :=
  Layout.commas (assignments.map Assignment.layout)

/-- What is inserted. -/
def InsertSource.layout : InsertSource → Layout
  | .values rows => Layout.valueRows (Expr.rowLayouts rows)
  | .query q => q.layout
  | .defaultValues => Layout.keywords [.DEFAULT, .VALUES]

/-- What happens to a row that is there already. -/
def ConflictAction.layout : ConflictAction → Layout
  | .doNothing => Layout.keywords [.DO, .NOTHING]
  | .doUpdate assignments =>
    Layout.keywords [.DO, .UPDATE, .SET] ++ .gap :: Assignment.listLayout assignments

/-- Names in parentheses behind a gap, if there are any. -/
def Ident.parensAfterGap (names : List Ident) : Layout :=
  Layout.onlyIf (!names.isEmpty) (.gap :: Layout.parens (Ident.listLayout names))

/-- What happens to rows that are there already. -/
def OnConflict.layout (c : OnConflict) : Layout :=
  Layout.keywords [.ON, .CONFLICT] ++ Ident.parensAfterGap c.columns ++ .gap :: c.action.layout

/-- A condition behind `WHERE`, if there is one. -/
def Expr.whereLayout (condition : Option Expr) : Layout :=
  Expr.layoutAfter [.gap, .keyword .WHERE, .gap] condition

/-- An `INSERT` statement. -/
def Insert.layout (i : Insert) : Layout :=
  [.keyword .INSERT, .gap] ++ Layout.onlyIf i.withInto [.keyword .INTO, .gap] ++ i.table.layout ++
    Ident.parensAfterGap i.columns ++ .gap :: i.source.layout ++
    i.onConflict.elim [] fun c => .gap :: c.layout

/-- An `UPDATE` statement. What is joined is written only behind a source. -/
def Update.layout (u : Update) : Layout :=
  [.keyword .UPDATE, .gap] ++ u.table.layout ++ Alias.layoutAfter u.alias? ++
    [.gap, .keyword .SET, .gap] ++ Assignment.listLayout u.assignments ++
    (match u.source with
      | none => []
      | some item => [.gap, .keyword .FROM, .gap] ++ item.layout ++ Join.layouts u.joins) ++
    Expr.whereLayout u.condition

/-- A `DELETE` statement. -/
def Delete.layout (d : Delete) : Layout :=
  [.keyword .DELETE, .gap] ++ Layout.onlyIf d.withFrom [.keyword .FROM, .gap] ++ d.table.layout ++
    Alias.layoutAfter d.alias? ++ Expr.whereLayout d.condition

/-! ## Declaring tables -/

/-- The table and columns that a foreign key refers to. -/
def ForeignKeyRef.layout (r : ForeignKeyRef) : Layout :=
  [.keyword .REFERENCES, .gap] ++ r.table.layout ++ Ident.parensAfterGap r.columns

/-- A column as it is declared. -/
def ColumnDef.layout (c : ColumnDef) : Layout :=
  c.name.layout ++ .gap :: c.type.layout ++
    Layout.onlyIf (!c.nullable) (.gap :: Layout.keywords [.NOT, .NULL]) ++
    Expr.layoutAfter [.gap, .keyword .DEFAULT, .gap] c.default ++
    Layout.onlyIf c.primaryKey (.gap :: Layout.keywords [.PRIMARY, .KEY]) ++
    Layout.onlyIf c.unique [.gap, .keyword .UNIQUE] ++
    Layout.onlyIf c.autoincrement [.gap, .keyword .AUTOINCREMENT] ++
    c.references.elim [] fun r => .gap :: r.layout

/-- A condition on the rows of a table. -/
def ConstraintRule.layout : ConstraintRule → Layout
  | .primaryKey columns =>
    Layout.keywords [.PRIMARY, .KEY] ++ .gap :: Layout.parens (Ident.listLayout columns)
  | .unique columns => .keyword .UNIQUE :: .gap :: Layout.parens (Ident.listLayout columns)
  | .foreignKey columns references =>
    Layout.keywords [.FOREIGN, .KEY] ++ .gap :: Layout.parens (Ident.listLayout columns) ++
      .gap :: references.layout
  | .check condition => .keyword .CHECK :: .gap :: Layout.parens condition.layout

/-- A condition on the rows of a table, with its name. -/
def TableConstraint.layout (c : TableConstraint) : Layout :=
  c.name.elim [] (fun name => [.keyword .CONSTRAINT, .gap] ++ name.layout ++ [.gap]) ++
    c.rule.layout

/-- A `CREATE TABLE` statement. -/
def CreateTable.layout (c : CreateTable) : Layout :=
  let parts := c.columns.map ColumnDef.layout ++ c.constraints.map TableConstraint.layout
  [.keyword .CREATE, .gap] ++ Layout.onlyIf c.temporary [.keyword .TEMPORARY, .gap] ++
    [.keyword .TABLE, .gap] ++
    Layout.onlyIf c.ifNotExists (Layout.keywords [.IF, .NOT, .EXISTS] ++ [.gap]) ++
    c.name.layout ++
    Layout.onlyIf (!parts.isEmpty) (.gap :: Layout.parens (Layout.commas parts)) ++
    c.query.elim [] fun q => [.gap, .keyword .AS, .gap] ++ q.layout

/-- A change to a declared column. -/
def ColumnChange.layout : ColumnChange → Layout
  | .setDefault value => Layout.keywords [.SET, .DEFAULT] ++ .gap :: value.layout
  | .dropDefault => Layout.keywords [.DROP, .DEFAULT]
  | .setNotNull => Layout.keywords [.SET, .NOT, .NULL]
  | .dropNotNull => Layout.keywords [.DROP, .NOT, .NULL]
  | .setType type =>
    [.keyword .SET, .gap, .word "DATA", .gap, .keyword .TYPE, .gap] ++ type.layout

/-- A change to a declared table. -/
def TableChange.layout : TableChange → Layout
  | .addColumn withColumn ifNotExists column =>
    [.keyword .ADD, .gap] ++ Layout.onlyIf withColumn [.keyword .COLUMN, .gap] ++
      Layout.onlyIf ifNotExists (Layout.keywords [.IF, .NOT, .EXISTS] ++ [.gap]) ++ column.layout
  | .dropColumn withColumn ifExists name =>
    [.keyword .DROP, .gap] ++ Layout.onlyIf withColumn [.keyword .COLUMN, .gap] ++
      Layout.onlyIf ifExists (Layout.keywords [.IF, .EXISTS] ++ [.gap]) ++ name.layout
  | .renameColumn oldName newName =>
    Layout.keywords [.RENAME, .COLUMN] ++ .gap :: oldName.layout ++ [.gap, .keyword .TO, .gap] ++
      newName.layout
  | .renameTable newName => Layout.keywords [.RENAME, .TO] ++ .gap :: newName.layout
  | .alterColumn name change =>
    Layout.keywords [.ALTER, .COLUMN] ++ .gap :: name.layout ++ .gap :: change.layout
  | .addConstraint constraint => [.keyword .ADD, .gap] ++ constraint.layout
  | .dropConstraint ifExists name =>
    Layout.keywords [.DROP, .CONSTRAINT] ++
      .gap :: Layout.onlyIf ifExists (Layout.keywords [.IF, .EXISTS] ++ [.gap]) ++ name.layout

/-- An `ALTER TABLE` statement. -/
def AlterTable.layout (a : AlterTable) : Layout :=
  Layout.keywords [.ALTER, .TABLE] ++ .gap :: a.name.layout ++
    .gap :: Layout.commas (a.changes.map TableChange.layout)

/-! ## Showing settings -/

/-- A `SHOW` statement. -/
def Show.layout : Show → Layout
  | .variable name => [.keyword .SHOW, .gap] ++ name.layout
  | .indexes word table =>
    [.keyword .SHOW, .gap, .word word.text, .gap, .keyword .FROM, .gap] ++ table.layout

/-! ## All statements -/

/-- The written form of a statement. -/
def Statement.layout : Statement → Layout
  | .query q => q.layout
  | .insert i => i.layout
  | .update u => u.layout
  | .delete d => d.layout
  | .createTable c => c.layout
  | .alterTable a => a.layout
  | .show r => r.layout
  | .unsupported words => [.word words]

/-- The written text of a statement. -/
def Statement.text (s : Statement) : Except Defect String :=
  s.layout.text

/-- The written text of a query. -/
def Query.text (q : Query) : Except Defect String :=
  q.layout.text

/-- The written text of an expression. -/
def Expr.text (e : Expr) : Except Defect String :=
  e.layout.text

end SqlTree
