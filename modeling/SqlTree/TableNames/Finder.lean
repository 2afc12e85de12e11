import SqlTree.Statement.Basic
import SqlTree.Text.CharClass

/-! # The tables that statements use

* `TableFinder`: what was found so far, with `TableFinder.visit` for a further statement.
* `TableFinder.visitExpr`, `TableFinder.visitQuery`, …: the same for the parts of a statement, which
  are gone through one after another.
* `TableFinder.tables`: the tables among what was found.
* `Statement.tables`: the tables of a single statement.

Names come in the order of their first mention, each once. Two names are the same if they are
spelled and quoted alike. A single name is no table if some query anywhere was given that name, in
any case of ASCII letters.

The name of a query is taken in before the query, and both before the query they belong to. What a
`LIMIT`, an `OFFSET`, a pivot or the declaration of a column computes with is not gone through;
neither is a statement kept as it was written.
-/

namespace SqlTree
set_option autoImplicit false

/-- Whether a name consists of one part, and that is one of some names, in any case of ASCII
letters. -/
def ObjectName.isOneOf (name : ObjectName) (ctes : List Ident) : Bool :=
  match name.parts with
  | [single] => ctes.any fun cte => Text.sameIgnoringCase cte.name single.name
  | _ => false

/-- The names found so far. -/
structure TableFinder where
  /-- Names that stand for tables, each once. -/
  names : List ObjectName := []
  /-- Names given to queries. -/
  ctes : List Ident := []

namespace TableFinder

/-- Takes in a name that stands for a table, unless it is there already. -/
def add (f : TableFinder) (name : ObjectName) : TableFinder :=
  if name ∈ f.names then f else { f with names := f.names ++ [name] }

/-- Takes in the name given to a query. -/
def addCte (f : TableFinder) (name : Ident) : TableFinder :=
  { f with ctes := f.ctes ++ [name] }

/-! ## Expressions and queries -/

mutual

/-- Goes through an expression. -/
def visitExpr (f : TableFinder) : Expr → TableFinder
  | .literal _ | .column _ | .placeholder _ => f
  | .binary left _ right => (f.visitExpr left).visitExpr right
  | .unary _ operand => f.visitExpr operand
  | .call call => f.visitCall call
  | .array _ elements => f.visitExprs elements
  | .struct value => f.visitStruct value
  | .subquery query => f.visitQuery query
  | .existsQuery query => f.visitQuery query
  | .inList tested _ items => (f.visitExpr tested).visitExprs items
  | .inQuery tested _ query => (f.visitExpr tested).visitQuery query
  | .between tested _ low high => ((f.visitExpr tested).visitExpr low).visitExpr high
  | .isNull tested _ => f.visitExpr tested
  | .like tested _ _ pattern => (f.visitExpr tested).visitExpr pattern
  | .caseWhen operand arms otherwise =>
    ((f.visitOptional operand).visitArms arms).visitOptional otherwise
  | .cast _ operand _ => f.visitExpr operand
  | .nested inner => f.visitExpr inner
  | .tuple items => f.visitExprs items
  | .wildcard _ _ replace =>
    match replace with
    | none => f
    | some items => f.visitItems items

/-- Goes through several expressions. -/
def visitExprs (f : TableFinder) : List Expr → TableFinder
  | [] => f
  | e :: es => (f.visitExpr e).visitExprs es

/-- Goes through an expression that may be missing. -/
def visitOptional (f : TableFinder) : Option Expr → TableFinder
  | none => f
  | some e => f.visitExpr e

/-- Goes through rows of expressions. -/
def visitRows (f : TableFinder) : List (List Expr) → TableFinder
  | [] => f
  | row :: rows => (f.visitExprs row).visitRows rows

/-- Goes through an item. -/
def visitItem (f : TableFinder) : SelectItem → TableFinder
  | ⟨expr, _⟩ => f.visitExpr expr

/-- Goes through several items. -/
def visitItems (f : TableFinder) : List SelectItem → TableFinder
  | [] => f
  | i :: is => (f.visitItem i).visitItems is

/-- Goes through the arguments of a call. -/
def visitCall (f : TableFinder) : FunctionCall → TableFinder
  | ⟨_, _, arguments⟩ => f.visitExprs arguments

/-- Goes through the arguments of a struct value. -/
def visitStruct (f : TableFinder) : StructValue → TableFinder
  | ⟨_, _, _, arguments⟩ =>
    match arguments with
    | none => f
    | some items => f.visitItems items

/-- Goes through an arm. -/
def visitArm (f : TableFinder) : WhenArm → TableFinder
  | ⟨condition, result⟩ => (f.visitExpr condition).visitExpr result

/-- Goes through several arms. -/
def visitArms (f : TableFinder) : List WhenArm → TableFinder
  | [] => f
  | a :: arms => (f.visitArm a).visitArms arms

/-- Goes through a query. -/
def visitQuery (f : TableFinder) : Query → TableFinder
  | ⟨ctes, body, orderBy, _, _, _⟩ => ((f.visitWith ctes).visitBody body).visitOrder orderBy

/-- Goes through the named queries of a query that may have none. -/
def visitWith (f : TableFinder) : Option With → TableFinder
  | none => f
  | some ⟨_, ctes⟩ => f.visitCtes ctes

/-- Takes in the name of a query and goes through it. -/
def visitCte (f : TableFinder) : Cte → TableFinder
  | ⟨name, _, query⟩ => (f.addCte name).visitQuery query

/-- Takes in the names of several queries and goes through them. -/
def visitCtes (f : TableFinder) : List Cte → TableFinder
  | [] => f
  | c :: cs => (f.visitCte c).visitCtes cs

/-- Goes through the body of a query. -/
def visitBody (f : TableFinder) : SetExpr → TableFinder
  | .select block => f.visitBlock block
  | .parens query => f.visitQuery query
  | .combine _ _ left right => (f.visitBody left).visitBody right
  | .values rows => f.visitRows rows

/-- Goes through a block. -/
def visitBlock (f : TableFinder) : Select → TableFinder
  | ⟨_, items, source, joins, condition, groupBy, having, qualify⟩ =>
    ((((((f.visitItems items).visitSource source).visitJoins joins).visitOptional
      condition).visitExprs groupBy).visitOptional having).visitOptional qualify

/-- Goes through an expression to order by. -/
def visitOrderItem (f : TableFinder) : OrderItem → TableFinder
  | ⟨expr, _, _⟩ => f.visitExpr expr

/-- Goes through expressions to order by. -/
def visitOrder (f : TableFinder) : List OrderItem → TableFinder
  | [] => f
  | i :: is => (f.visitOrderItem i).visitOrder is

/-- Goes through an item to read from. -/
def visitFromItem (f : TableFinder) : FromItem → TableFinder
  | ⟨relation, _, _, _⟩ => f.visitRelation relation

/-- Goes through an item to read from that may be missing. -/
def visitSource (f : TableFinder) : Option FromItem → TableFinder
  | none => f
  | some item => f.visitFromItem item

/-- Goes through a source of rows. -/
def visitRelation (f : TableFinder) : Relation → TableFinder
  | .table name => f.add name
  | .query query => f.visitQuery query
  | .lateral query => f.visitQuery query
  | .function _ call => f.visitCall call
  | .joined item joins => (f.visitFromItem item).visitJoins joins
  | .values rows => f.visitRows rows

/-- Goes through a joined item. -/
def visitJoin (f : TableFinder) : Join → TableFinder
  | ⟨_, item, constraint⟩ => (f.visitFromItem item).visitConstraint constraint

/-- Goes through joined items. -/
def visitJoins (f : TableFinder) : List Join → TableFinder
  | [] => f
  | j :: js => (f.visitJoin j).visitJoins js

/-- Goes through what tells which rows a join matches. -/
def visitConstraint (f : TableFinder) : JoinConstraint → TableFinder
  | .on condition => f.visitExpr condition
  | .using _ | .none => f

end

/-! ## Statements -/

/-- Goes through values that are set. -/
def visitAssignments (f : TableFinder) (assignments : List Assignment) : TableFinder :=
  f.visitExprs (assignments.map Assignment.value)

/-- Goes through what is inserted. -/
def visitInserted (f : TableFinder) : InsertSource → TableFinder
  | .values rows => f.visitRows rows
  | .query q => f.visitQuery q
  | .defaultValues => f

/-- Goes through what happens to rows that are there already. -/
def visitConflict (f : TableFinder) : Option OnConflict → TableFinder
  | some ⟨_, .doUpdate assignments⟩ => f.visitAssignments assignments
  | some ⟨_, .doNothing⟩ | none => f

/-- Goes through an `INSERT` statement. -/
def visitInsert (f : TableFinder) (i : Insert) : TableFinder :=
  ((f.add i.table).visitInserted i.source).visitConflict i.onConflict

/-- Goes through an `UPDATE` statement. -/
def visitUpdate (f : TableFinder) (u : Update) : TableFinder :=
  ((((f.add u.table).visitAssignments u.assignments).visitSource u.source).visitJoins
    u.joins).visitOptional u.condition

/-- Goes through a `DELETE` statement. -/
def visitDelete (f : TableFinder) (d : Delete) : TableFinder :=
  (f.add d.table).visitOptional d.condition

/-- Takes in the table that a declared column refers to. -/
def visitColumn (f : TableFinder) (c : ColumnDef) : TableFinder :=
  match c.references with
  | some r => f.add r.table
  | none => f

/-- Takes in the table that a foreign key refers to. -/
def visitRule (f : TableFinder) (c : TableConstraint) : TableFinder :=
  match c.rule with
  | .foreignKey _ references => f.add references.table
  | .primaryKey _ | .unique _ | .check _ => f

/-- Goes through a `CREATE TABLE` statement. -/
def visitCreate (f : TableFinder) (c : CreateTable) : TableFinder :=
  let f' := c.constraints.foldl visitRule (c.columns.foldl visitColumn (f.add c.name))
  match c.query with
  | some q => f'.visitQuery q
  | none => f'

/-- Goes through a change to a declared table. -/
def visitChange (f : TableFinder) : TableChange → TableFinder
  | .addColumn _ _ column => f.visitColumn column
  | .addConstraint constraint => f.visitRule constraint
  | .dropColumn .. | .renameColumn .. | .renameTable _ | .alterColumn .. | .dropConstraint .. => f

/-- Goes through one more statement. -/
def visit (f : TableFinder) : Statement → TableFinder
  | .query q => f.visitQuery q
  | .insert i => f.visitInsert i
  | .update u => f.visitUpdate u
  | .delete d => f.visitDelete d
  | .createTable c => f.visitCreate c
  | .alterTable a => a.changes.foldl visitChange (f.add a.name)
  | .show (.indexes _ table) => f.add table
  | .show (.variable _) | .unsupported _ => f

/-! ## What was found -/

/-- Whether a name consists of one part, and a query was given that name. -/
def namesCte (f : TableFinder) (name : ObjectName) : Bool :=
  name.isOneOf f.ctes

/-- The tables among the names found so far. -/
def tables (f : TableFinder) : List ObjectName :=
  f.names.filter fun name => !f.namesCte name

end TableFinder

/-- The tables that a statement uses. -/
def Statement.tables (s : Statement) : List ObjectName :=
  (TableFinder.visit {} s).tables

end SqlTree
