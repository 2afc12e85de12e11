import SqlTree.Statement.Basic

/-! # Which tables a tree mentions

* `Mention`: a name that stands for a table, or the name given to a query in a `WITH` clause.
* `Expr.mentions`, `Query.mentions`, `FromItem.mentions`, `Statement.mentions`: the mentions in a
  tree, in the order of its parts.
* `Statement.namesMet`, `Statement.ctesMet`: the names of either kind.

The name of a query comes before the mentions in that query, and both before those in the query
they belong to. What a `LIMIT`, an `OFFSET`, a pivot or the declaration of a column computes with
is no part that mentions tables; neither is a statement kept as it was written.
-/

namespace SqlTree
set_option autoImplicit false

/-- A name in a tree. -/
inductive Mention where
  /-- The name of a table, or of a named query where a table could stand. -/
  | table (name : ObjectName)
  /-- The name given to a query. -/
  | cte (name : Ident)
  deriving DecidableEq, Repr

/-! ## Expressions and queries -/

mutual

/-- The mentions in an expression. -/
def Expr.mentions : Expr → List Mention
  | .literal _ | .column _ | .placeholder _ => []
  | .binary left _ right => left.mentions ++ right.mentions
  | .unary _ operand => operand.mentions
  | .call call => call.mentions
  | .array _ elements => Expr.listMentions elements
  | .struct value => value.mentions
  | .subquery query => query.mentions
  | .existsQuery query => query.mentions
  | .inList tested _ items => tested.mentions ++ Expr.listMentions items
  | .inQuery tested _ query => tested.mentions ++ query.mentions
  | .between tested _ low high => tested.mentions ++ low.mentions ++ high.mentions
  | .isNull tested _ => tested.mentions
  | .like tested _ _ pattern => tested.mentions ++ pattern.mentions
  | .caseWhen operand arms otherwise =>
    Expr.optionMentions operand ++ WhenArm.listMentions arms ++ Expr.optionMentions otherwise
  | .cast _ operand _ => operand.mentions
  | .nested inner => inner.mentions
  | .tuple items => Expr.listMentions items
  | .wildcard _ _ replace =>
    match replace with
    | none => []
    | some items => SelectItem.listMentions items

/-- The mentions in several expressions. -/
def Expr.listMentions : List Expr → List Mention
  | [] => []
  | e :: es => e.mentions ++ Expr.listMentions es

/-- The mentions in an optional expression. -/
def Expr.optionMentions : Option Expr → List Mention
  | none => []
  | some e => e.mentions

/-- The mentions in rows of expressions. -/
def Expr.rowMentions : List (List Expr) → List Mention
  | [] => []
  | row :: rows => Expr.listMentions row ++ Expr.rowMentions rows

/-- The mentions in an item. -/
def SelectItem.mentions : SelectItem → List Mention
  | ⟨expr, _⟩ => expr.mentions

/-- The mentions in several items. -/
def SelectItem.listMentions : List SelectItem → List Mention
  | [] => []
  | i :: is => i.mentions ++ SelectItem.listMentions is

/-- The mentions in the arguments of a call. -/
def FunctionCall.mentions : FunctionCall → List Mention
  | ⟨_, _, arguments⟩ => Expr.listMentions arguments

/-- The mentions in a struct value. -/
def StructValue.mentions : StructValue → List Mention
  | ⟨_, _, _, arguments⟩ =>
    match arguments with
    | none => []
    | some items => SelectItem.listMentions items

/-- The mentions in an arm. -/
def WhenArm.mentions : WhenArm → List Mention
  | ⟨condition, result⟩ => condition.mentions ++ result.mentions

/-- The mentions in several arms. -/
def WhenArm.listMentions : List WhenArm → List Mention
  | [] => []
  | a :: arms => a.mentions ++ WhenArm.listMentions arms

/-- The mentions in a query. -/
def Query.mentions : Query → List Mention
  | ⟨ctes, body, orderBy, _, _, _⟩ =>
    (match ctes with
      | none => []
      | some w => w.mentions) ++
    body.mentions ++ OrderItem.listMentions orderBy

/-- The mentions in named queries. -/
def With.mentions : With → List Mention
  | ⟨_, ctes⟩ => Cte.listMentions ctes

/-- The mentions in a named query, its name first. -/
def Cte.mentions : Cte → List Mention
  | ⟨name, _, query⟩ => .cte name :: query.mentions

/-- The mentions in several named queries. -/
def Cte.listMentions : List Cte → List Mention
  | [] => []
  | c :: cs => c.mentions ++ Cte.listMentions cs

/-- The mentions in the body of a query. -/
def SetExpr.mentions : SetExpr → List Mention
  | .select block => block.mentions
  | .parens query => query.mentions
  | .combine _ _ left right => left.mentions ++ right.mentions
  | .values rows => Expr.rowMentions rows

/-- The mentions in a block. -/
def Select.mentions : Select → List Mention
  | ⟨_, items, source, joins, condition, groupBy, having, qualify⟩ =>
    SelectItem.listMentions items ++
    (match source with
      | none => []
      | some item => item.mentions) ++
    Join.listMentions joins ++ Expr.optionMentions condition ++ Expr.listMentions groupBy ++
    Expr.optionMentions having ++ Expr.optionMentions qualify

/-- The mentions in an expression to order by. -/
def OrderItem.mentions : OrderItem → List Mention
  | ⟨expr, _, _⟩ => expr.mentions

/-- The mentions in expressions to order by. -/
def OrderItem.listMentions : List OrderItem → List Mention
  | [] => []
  | i :: is => i.mentions ++ OrderItem.listMentions is

/-- The mentions in an item to read from. -/
def FromItem.mentions : FromItem → List Mention
  | ⟨relation, _, _, _⟩ => relation.mentions

/-- The mentions in a source of rows. -/
def Relation.mentions : Relation → List Mention
  | .table name => [.table name]
  | .query query => query.mentions
  | .lateral query => query.mentions
  | .function _ call => call.mentions
  | .joined item joins => item.mentions ++ Join.listMentions joins
  | .values rows => Expr.rowMentions rows

/-- The mentions in a joined item. -/
def Join.mentions : Join → List Mention
  | ⟨_, item, constraint⟩ => item.mentions ++ constraint.mentions

/-- The mentions in joined items. -/
def Join.listMentions : List Join → List Mention
  | [] => []
  | j :: js => j.mentions ++ Join.listMentions js

/-- The mentions in which rows a join matches. -/
def JoinConstraint.mentions : JoinConstraint → List Mention
  | .on condition => condition.mentions
  | .using _ | .none => []

end

/-! ## Statements -/

/-- The mentions in values that are set. -/
def Assignment.listMentions (assignments : List Assignment) : List Mention :=
  assignments.flatMap fun a => a.value.mentions

/-- The mentions in what is inserted. -/
def InsertSource.mentions : InsertSource → List Mention
  | .values rows => Expr.rowMentions rows
  | .query q => q.mentions
  | .defaultValues => []

/-- The mentions in what happens to rows that are there already. -/
def OnConflict.mentions (c : OnConflict) : List Mention :=
  match c.action with
  | .doNothing => []
  | .doUpdate assignments => Assignment.listMentions assignments

/-- The mentions in an `INSERT` statement. -/
def Insert.mentions (i : Insert) : List Mention :=
  .table i.table :: i.source.mentions ++ i.onConflict.elim [] OnConflict.mentions

/-- The mentions in an `UPDATE` statement. -/
def Update.mentions (u : Update) : List Mention :=
  .table u.table :: Assignment.listMentions u.assignments ++ u.source.elim [] FromItem.mentions ++
    Join.listMentions u.joins ++ Expr.optionMentions u.condition

/-- The mentions in a `DELETE` statement. -/
def Delete.mentions (d : Delete) : List Mention :=
  .table d.table :: Expr.optionMentions d.condition

/-- The mention of the table that a declared column refers to. -/
def ColumnDef.mentions (c : ColumnDef) : List Mention :=
  c.references.elim [] fun r => [.table r.table]

/-- The mention of the table that a foreign key refers to. -/
def TableConstraint.mentions (c : TableConstraint) : List Mention :=
  match c.rule with
  | .foreignKey _ references => [.table references.table]
  | .primaryKey _ | .unique _ | .check _ => []

/-- The mentions in a `CREATE TABLE` statement. -/
def CreateTable.mentions (c : CreateTable) : List Mention :=
  .table c.name :: c.columns.flatMap ColumnDef.mentions ++
    c.constraints.flatMap TableConstraint.mentions ++ c.query.elim [] Query.mentions

/-- The mentions in a change to a declared table. -/
def TableChange.mentions : TableChange → List Mention
  | .addColumn _ _ column => column.mentions
  | .addConstraint constraint => constraint.mentions
  | .dropColumn .. | .renameColumn .. | .renameTable _ | .alterColumn .. | .dropConstraint .. => []

/-- The mentions in an `ALTER TABLE` statement. -/
def AlterTable.mentions (a : AlterTable) : List Mention :=
  .table a.name :: a.changes.flatMap TableChange.mentions

/-- The mentions in a `SHOW` statement. -/
def Show.mentions : Show → List Mention
  | .variable _ => []
  | .indexes _ table => [.table table]

/-- The mentions in a statement. -/
def Statement.mentions : Statement → List Mention
  | .query q => q.mentions
  | .insert i => i.mentions
  | .update u => u.mentions
  | .delete d => d.mentions
  | .createTable c => c.mentions
  | .alterTable a => a.mentions
  | .show r => r.mentions
  | .unsupported _ => []

/-! ## The names of either kind -/

/-- The name that stands for a table, if that is mentioned. -/
def Mention.table? : Mention → Option ObjectName
  | .table name => some name
  | .cte _ => none

/-- The name given to a query, if that is mentioned. -/
def Mention.cte? : Mention → Option Ident
  | .table _ => none
  | .cte name => some name

/-- The names met in a statement that stand for tables, in the order of its parts. -/
def Statement.namesMet (s : Statement) : List ObjectName :=
  s.mentions.filterMap Mention.table?

/-- The names met in a statement that are given to queries. -/
def Statement.ctesMet (s : Statement) : List Ident :=
  s.mentions.filterMap Mention.cte?

end SqlTree
