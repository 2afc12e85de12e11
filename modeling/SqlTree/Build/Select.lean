import SqlTree.Build.Expr
import SqlTree.Statement.Basic

/-! # Building queries

* `SelectDraft`: the clauses of a query collected so far.
* `SelectDraft.Call`: the calls that add to a draft, each of a `SelectDraft.Kind`.
* `SelectDraft.offers`: which kinds of call a draft takes; `step?` for one call, `run?` for several.
* `SelectDraft.query?`: the query, once there are columns; `subquery?` and `statement?` around it.

What is joined and conditions need a source to read from. An order, limits and the query itself
need columns. Groups and conditions on them need both. The columns can be given at once, or all
together by a star, only before any other; the source only once.
-/

namespace SqlTree
set_option autoImplicit false

/-- What a query is built from. -/
structure SelectDraft where
  distinct : Bool := false
  /-- The columns, once there are any, perhaps none in number. -/
  items : Option (List SelectItem) := none
  source : Option FromItem := none
  joins : List Join := []
  condition : Option Expr := none
  groupBy : List Expr := []
  having : Option Expr := none
  qualify : Option Expr := none
  orderBy : List OrderItem := []
  limitBy : Option Limit := none
  limit : Option Limit := none
  offset : Option Offset := none

namespace SelectDraft

/-! ## Calls -/

/-- What a call adds. -/
inductive Kind where
  | item | itemAs | columns | allColumns
  | table | source
  | condition | joinTable | crossJoin | join
  | distinct | orderBy | limit | limitBy | offset
  | groupBy | having | qualify
  | finish
  deriving DecidableEq, Repr

/-- Whether a draft takes calls of a kind. -/
def offers (d : SelectDraft) : Kind → Bool
  | .item | .itemAs => true
  | .columns | .allColumns => d.items.isNone
  | .table | .source => d.source.isNone
  | .condition | .joinTable | .crossJoin | .join => d.source.isSome
  | .distinct | .orderBy | .limit | .limitBy | .offset | .finish => d.items.isSome
  | .groupBy | .having | .qualify => d.items.isSome && d.source.isSome

/-- A call that adds to a draft. -/
inductive Call where
  | item (expr : Expr)
  | itemAs (expr : Expr) (name : String)
  /-- Columns by their names. -/
  | columns (names : List String)
  | allColumns
  | table (name : String)
  | source (item : FromItem)
  | condition (expr : Expr)
  | joinTable (kind : JoinKind) (name : String) (condition : Expr)
  | crossJoin (name : String)
  | join (join : Join)
  | distinct
  | orderBy (item : OrderItem)
  | limit (limit : Limit)
  | limitBy (limit : Limit)
  | offset (count : Int)
  | groupBy (exprs : List Expr)
  | having (expr : Expr)
  | qualify (expr : Expr)

/-- The kind of a call. -/
def Call.kind : Call → Kind
  | .item _ => .item
  | .itemAs .. => .itemAs
  | .columns _ => .columns
  | .allColumns => .allColumns
  | .table _ => .table
  | .source _ => .source
  | .condition _ => .condition
  | .joinTable .. => .joinTable
  | .crossJoin _ => .crossJoin
  | .join _ => .join
  | .distinct => .distinct
  | .orderBy _ => .orderBy
  | .limit _ => .limit
  | .limitBy _ => .limitBy
  | .offset _ => .offset
  | .groupBy _ => .groupBy
  | .having _ => .having
  | .qualify _ => .qualify

/-- Adds a column behind those there are. -/
def addItem (d : SelectDraft) (item : SelectItem) : SelectDraft :=
  { d with items := some (d.items.getD [] ++ [item]) }

/-- Adds a joined item behind those there are. -/
def addJoin (d : SelectDraft) (join : Join) : SelectDraft :=
  { d with joins := d.joins ++ [join] }

/-- Adds what a call says. -/
def apply (d : SelectDraft) : Call → SelectDraft
  | .item expr => d.addItem (.bare expr)
  | .itemAs expr name => d.addItem (.named expr name)
  | .columns names => { d with items := some (names.map fun n => .bare (.columnNamed n)) }
  | .allColumns => { d with items := some [.bare .star] }
  | .table name => { d with source := some (.table (ObjectName.ofText name)) }
  | .source item => { d with source := some item }
  | .condition expr => { d with condition := Expr.conjoin d.condition expr }
  | .joinTable kind name condition =>
    d.addJoin { kind, item := .table (ObjectName.ofText name), constraint := .on condition }
  | .crossJoin name =>
    d.addJoin { kind := .cross, item := .table (ObjectName.ofText name), constraint := .none }
  | .join join => d.addJoin join
  | .distinct => { d with distinct := true }
  | .orderBy item => { d with orderBy := d.orderBy ++ [item] }
  | .limit limit => { d with limit := some limit }
  | .limitBy limit => { d with limitBy := some limit }
  | .offset count => { d with offset := some (.ofCount count) }
  | .groupBy exprs => { d with groupBy := exprs }
  | .having expr => { d with having := some expr }
  | .qualify expr => { d with qualify := some expr }

/-- Adds what a call says, if the draft takes it. -/
def step? (d : SelectDraft) (call : Call) : Option SelectDraft :=
  if d.offers call.kind then some (d.apply call) else none

/-- Adds what several calls say, one after another. -/
def run? (d : SelectDraft) (calls : List Call) : Option SelectDraft :=
  calls.foldlM step? d

/-! ## Finished queries -/

/-- The block with the given columns. -/
def block (d : SelectDraft) (items : List SelectItem) : Select :=
  { distinct := d.distinct, items, source := d.source, joins := d.joins, condition := d.condition,
    groupBy := d.groupBy, having := d.having, qualify := d.qualify }

/-- The query, if there are columns. -/
def query? (d : SelectDraft) : Option Query :=
  d.items.map fun items =>
    { ctes := none, body := .select (d.block items), orderBy := d.orderBy, limitBy := d.limitBy,
      limit := d.limit, offset := d.offset }

/-- The query in parentheses with an alias. -/
def subquery? (d : SelectDraft) (name : String) : Option FromItem :=
  d.query?.map fun q =>
    (FromItem.ofRelation (.query q)).withAlias (some (.explicit (.plain name)))

/-- The query as a statement. -/
def statement? (d : SelectDraft) : Option Statement :=
  d.query?.map .query

end SelectDraft

/-- Marks of an order: its direction and where nulls go. -/
inductive OrderMark where
  | direction (d : OrderDirection)
  | nulls (n : NullOrdering)

/-- Sets a mark in place of the one that was there. -/
def OrderItem.mark (i : OrderItem) : OrderMark → OrderItem
  | .direction d => { i with direction := some d }
  | .nulls n => { i with nulls := some n }

end SqlTree
