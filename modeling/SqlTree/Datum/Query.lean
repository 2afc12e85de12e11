import SqlTree.Datum.Operator

/-! # Expressions and queries as data

* `Expr.datum`, `Query.datum`, `FromItem.datum` and one function for each smaller part: the tree as
  data. A case of several is a record of one field; a structure is a record of all its fields.
* `Readers`: the readers of trees that hold one another, and `Readers.within` for trees that nest
  less than a number of levels deep.
* `Expr.ofDatum?`, `Query.ofDatum?`, …: the tree that data stand for.

The relation of an item to read from holds what is written behind the item, among its own fields.
-/

namespace SqlTree
set_option autoImplicit false

/-! ## Writing -/

mutual

/-- An expression as data. -/
def Expr.datum : Expr → Datum
  | .literal value => .variant "Literal" value.datum
  | .column ref => .variant "Column" ref.datum
  | .binary left op right =>
    .variant "Binary" (.record [("left", left.datum), ("op", .ofPlain BinaryOp.caseName op),
      ("right", right.datum)])
  | .unary op operand =>
    .variant "Unary" (.record [("op", .ofPlain UnaryOp.caseName op), ("operand", operand.datum)])
  | .call call => .variant "Function" call.datum
  | .array withWord elements =>
    .variant "Array" (.record [("elements", .list (Expr.data elements)),
      ("array_keyword", .boolean withWord)])
  | .struct value => .variant "Struct" value.datum
  | .subquery query => .variant "Subquery" query.datum
  | .existsQuery query => .variant "Exists" query.datum
  | .inList tested negated items =>
    .variant "InList" (.record [("expr", tested.datum), ("list", .list (Expr.data items)),
      ("negated", .boolean negated)])
  | .inQuery tested negated query =>
    .variant "InSubquery" (.record [("expr", tested.datum), ("query", query.datum),
      ("negated", .boolean negated)])
  | .between tested negated low high =>
    .variant "Between" (.record [("expr", tested.datum), ("low", low.datum), ("high", high.datum),
      ("negated", .boolean negated)])
  | .isNull tested negated =>
    .variant "IsNull" (.record [("expr", tested.datum), ("negated", .boolean negated)])
  | .like tested negated caseless pattern =>
    .variant "Like" (.record [("expr", tested.datum), ("pattern", pattern.datum),
      ("negated", .boolean negated), ("case_insensitive", .boolean caseless)])
  | .caseWhen operand arms otherwise =>
    .variant "Case" (.record [("operand", Expr.optionDatum operand),
      ("when_clauses", .list (WhenArm.data arms)), ("else_result", Expr.optionDatum otherwise)])
  | .cast style operand type =>
    .variant "Cast" (.record [("expr", operand.datum), ("data_type", type.datum),
      ("style", .ofPlain CastStyle.caseName style)])
  | .nested inner => .variant "Nested" inner.datum
  | .tuple items => .variant "Tuple" (.list (Expr.data items))
  | .placeholder place => .variant "Parameter" place.datum
  | .wildcard table except replace =>
    .variant "AllColumns" (.record [("table", .ofOption ObjectName.datum table),
      ("except", .ofOption WildcardExcept.datum except),
      ("replace", match replace with
        | none => .null
        | some items => .list (SelectItem.data items))])

/-- Expressions as data. -/
def Expr.data : List Expr → List Datum
  | [] => []
  | e :: es => e.datum :: Expr.data es

/-- An optional expression as data. -/
def Expr.optionDatum : Option Expr → Datum
  | none => .null
  | some e => e.datum

/-- Rows of expressions as data. -/
def Expr.rowData : List (List Expr) → List Datum
  | [] => []
  | row :: rows => .list (Expr.data row) :: Expr.rowData rows

/-- An item with its alias as data. -/
def SelectItem.datum : SelectItem → Datum
  | ⟨expr, alias?⟩ => .record [("expr", expr.datum), ("alias", .ofOption Alias.datum alias?)]

/-- Items as data. -/
def SelectItem.data : List SelectItem → List Datum
  | [] => []
  | i :: is => i.datum :: SelectItem.data is

/-- A call as data. -/
def FunctionCall.datum : FunctionCall → Datum
  | ⟨name, distinct, arguments⟩ =>
    .record [("name", name.datum), ("args", .list (Expr.data arguments)),
      ("distinct", .boolean distinct)]

/-- A struct value as data. -/
def StructValue.datum : StructValue → Datum
  | ⟨style, word, fields, arguments⟩ =>
    .record [("dialect", .ofPlain StructStyle.caseName style), ("keyword", .ofOption .text word),
      ("parameters", .ofOption (.ofList StructField.datum) fields),
      ("arguments", match arguments with
        | none => .null
        | some items => .list (SelectItem.data items))]

/-- An arm as data. -/
def WhenArm.datum : WhenArm → Datum
  | ⟨condition, result⟩ => .record [("condition", condition.datum), ("result", result.datum)]

/-- Arms as data. -/
def WhenArm.data : List WhenArm → List Datum
  | [] => []
  | a :: arms => a.datum :: WhenArm.data arms

/-- A query as data. -/
def Query.datum : Query → Datum
  | ⟨ctes, body, orderBy, limitBy, limit, offset⟩ =>
    .record [
      ("with", match ctes with
        | none => .null
        | some w => w.datum),
      ("body", body.datum),
      ("order_by", .list (OrderItem.data orderBy)),
      ("limit_by", match limitBy with
        | none => .null
        | some l => l.datum),
      ("limit", match limit with
        | none => .null
        | some l => l.datum),
      ("offset", match offset with
        | none => .null
        | some o => o.datum)]

/-- Named queries in front of a query as data. -/
def With.datum : With → Datum
  | ⟨recursive, ctes⟩ =>
    .record [("recursive", .boolean recursive), ("ctes", .list (Cte.data ctes))]

/-- A named query as data. -/
def Cte.datum : Cte → Datum
  | ⟨name, columns, query⟩ =>
    .record [("name", name.datum), ("columns", .ofList Ident.datum columns),
      ("query", query.datum)]

/-- Named queries as data. -/
def Cte.data : List Cte → List Datum
  | [] => []
  | c :: cs => c.datum :: Cte.data cs

/-- The body of a query as data. -/
def SetExpr.datum : SetExpr → Datum
  | .select block => .variant "Select" block.datum
  | .parens query => .variant "Parenthesized" query.datum
  | .combine op quantifier left right =>
    .variant "SetOperation" (.record [("op", .ofPlain SetOperator.caseName op),
      ("quantifier", .ofPlain SetQuantifier.caseName quantifier), ("left", left.datum),
      ("right", right.datum)])
  | .values rows => .variant "Values" (.record [("rows", .list (Expr.rowData rows))])

/-- A block as data. -/
def Select.datum : Select → Datum
  | ⟨distinct, items, source, joins, condition, groupBy, having, qualify⟩ =>
    .record [("distinct", .boolean distinct), ("projection", .list (SelectItem.data items)),
      ("from", match source with
        | none => .null
        | some item => item.datum),
      ("joins", .list (Join.data joins)), ("selection", Expr.optionDatum condition),
      ("group_by", .list (Expr.data groupBy)), ("having", Expr.optionDatum having),
      ("qualify", Expr.optionDatum qualify)]

/-- An expression to order by as data. -/
def OrderItem.datum : OrderItem → Datum
  | ⟨expr, direction, nulls⟩ =>
    .record [("expr", expr.datum),
      ("direction", .ofOption (.ofPlain OrderDirection.caseName) direction),
      ("nulls", .ofOption (.ofPlain NullOrdering.caseName) nulls)]

/-- Expressions to order by as data. -/
def OrderItem.data : List OrderItem → List Datum
  | [] => []
  | i :: is => i.datum :: OrderItem.data is

/-- A limit as data. -/
def Limit.datum : Limit → Datum
  | ⟨rowCount, offset, all, null, groups⟩ =>
    .record [("row_count", Expr.optionDatum rowCount), ("offset", Expr.optionDatum offset),
      ("limit_all", .boolean all), ("limit_null", .boolean null),
      ("by", match groups with
        | none => .null
        | some items => .list (Expr.data items))]

/-- A number of rows to leave out as data. -/
def Offset.datum : Offset → Datum
  | ⟨count, word⟩ => .record [("value", count.datum), ("rows", .ofPlain OffsetRows.caseName word)]

/-- An item to read from as data. -/
def FromItem.datum : FromItem → Datum
  | ⟨relation, alias?, pivot, unpivot⟩ =>
    relation.datumWith (.record [("alias", .ofOption Alias.datum alias?),
      ("pivot", match pivot with
        | none => .null
        | some p => p.datum),
      ("unpivot", match unpivot with
        | none => .null
        | some u => u.datum)])

/-- A source of rows as data, with what is written behind it. -/
def Relation.datumWith (decorations : Datum) : Relation → Datum
  | .table name =>
    .variant "Table" (.record [("name", name.datum), ("decorations", decorations)])
  | .query query =>
    .variant "ParenthesedSelect" (.record [("query", query.datum), ("decorations", decorations)])
  | .lateral query =>
    .variant "LateralSubSelect" (.record [("query", query.datum), ("decorations", decorations)])
  | .function lead call =>
    .variant "TableFunction" (.record [("prefix", .ofOption .text lead), ("function", call.datum),
      ("decorations", decorations)])
  | .joined item joins =>
    .variant "ParenthesedFromItem" (.record [("item", item.datum), ("joins", .list (Join.data joins)),
      ("decorations", decorations)])
  | .values rows =>
    .variant "Values" (.record [("values", .record [("rows", .list (Expr.rowData rows))]),
      ("decorations", decorations)])

/-- A joined item as data. -/
def Join.datum : Join → Datum
  | ⟨kind, item, constraint⟩ =>
    .record [("kind", .ofPlain JoinKind.caseName kind), ("item", item.datum),
      ("constraint", constraint.datum)]

/-- Joined items as data. -/
def Join.data : List Join → List Datum
  | [] => []
  | j :: js => j.datum :: Join.data js

/-- Which rows a join matches as data. -/
def JoinConstraint.datum : JoinConstraint → Datum
  | .on condition => .variant "On" condition.datum
  | .using columns => .variant "Using" (.ofList Ident.datum columns)
  | .none => .text "None"

/-- Rows turned into columns as data. -/
def Pivot.datum : Pivot → Datum
  | ⟨aggregates, columns, items, alias?⟩ =>
    .record [("aggregates", .list (SelectItem.data aggregates)),
      ("for_columns", .ofList ColumnRef.datum columns), ("in_items", .list (SelectItem.data items)),
      ("alias", .ofOption Alias.datum alias?)]

/-- Columns turned into rows as data. -/
def Unpivot.datum : Unpivot → Datum
  | ⟨includeNulls, valueColumns, nameColumns, items, alias?⟩ =>
    .record [("include_nulls", .ofOption .boolean includeNulls),
      ("value_columns", .ofList Ident.datum valueColumns),
      ("name_columns", .ofList Ident.datum nameColumns), ("in_items", .list (SelectItem.data items)),
      ("alias", .ofOption Alias.datum alias?)]

end

/-! ## Reading -/

/-- The readers of trees that hold one another. -/
structure Readers where
  expr : Datum → Option Expr
  query : Datum → Option Query
  body : Datum → Option SetExpr
  fromItem : Datum → Option FromItem

namespace Readers

open Datum (required optional list?)

variable (r : Readers)

/-- Reads several expressions. -/
def exprs (d : Datum) : Option (List Expr) :=
  d.list? r.expr

/-- Reads rows of expressions, which are the only field of a record. -/
def rows (d : Datum) : Option (List (List Expr)) :=
  match d.members? ["rows"] with
  | some [rows] => required (list? r.exprs) rows
  | _ => none

/-- Reads an item with its alias. -/
def selectItem (d : Datum) : Option SelectItem :=
  match d.members? ["expr", "alias"] with
  | some [expr, alias?] => do
    return { expr := ← required r.expr expr, alias? := ← optional Alias.ofDatum? alias? }
  | _ => none

/-- Reads several items. -/
def selectItems (d : Datum) : Option (List SelectItem) :=
  d.list? r.selectItem

/-- Reads a call. -/
def functionCall (d : Datum) : Option FunctionCall :=
  match d.members? ["name", "args", "distinct"] with
  | some [name, arguments, distinct] => do
    return { name := ← required ObjectName.ofDatum? name,
             distinct := ← required Datum.boolean? distinct,
             arguments := ← required r.exprs arguments }
  | _ => none

/-- Reads a struct value. -/
def structValue (d : Datum) : Option StructValue :=
  match d.members? ["dialect", "keyword", "parameters", "arguments"] with
  | some [style, word, fields, arguments] => do
    return { style := ← required StructStyle.ofDatum? style,
             word := ← optional Datum.text? word,
             fields := ← optional (list? StructField.ofDatum?) fields,
             arguments := ← optional r.selectItems arguments }
  | _ => none

/-- Reads an arm. -/
def whenArm (d : Datum) : Option WhenArm :=
  match d.members? ["condition", "result"] with
  | some [condition, result] => do
    return { condition := ← required r.expr condition, result := ← required r.expr result }
  | _ => none

/-- Reads an expression with the name and the content of its case. -/
def exprCase (name : String) (content : Datum) : Option Expr :=
  match name with
  | "Literal" => (Literal.ofDatum? content).map .literal
  | "Column" => (ColumnRef.ofDatum? content).map .column
  | "Binary" =>
    match content.members? ["left", "op", "right"] with
    | some [left, op, right] => do
      return .binary (← required r.expr left) (← required BinaryOp.ofDatum? op)
        (← required r.expr right)
    | _ => none
  | "Unary" =>
    match content.members? ["op", "operand"] with
    | some [op, operand] => do
      return .unary (← required UnaryOp.ofDatum? op) (← required r.expr operand)
    | _ => none
  | "Function" => (r.functionCall content).map .call
  | "Array" =>
    match content.members? ["elements", "array_keyword"] with
    | some [elements, withWord] => do
      return .array (← required Datum.boolean? withWord) (← required r.exprs elements)
    | _ => none
  | "Struct" => (r.structValue content).map .struct
  | "Subquery" => (r.query content).map .subquery
  | "Exists" => (r.query content).map .existsQuery
  | "InList" =>
    match content.members? ["expr", "list", "negated"] with
    | some [tested, items, negated] => do
      return .inList (← required r.expr tested) (← required Datum.boolean? negated)
        (← required r.exprs items)
    | _ => none
  | "InSubquery" =>
    match content.members? ["expr", "query", "negated"] with
    | some [tested, query, negated] => do
      return .inQuery (← required r.expr tested) (← required Datum.boolean? negated)
        (← required r.query query)
    | _ => none
  | "Between" =>
    match content.members? ["expr", "low", "high", "negated"] with
    | some [tested, low, high, negated] => do
      return .between (← required r.expr tested) (← required Datum.boolean? negated)
        (← required r.expr low) (← required r.expr high)
    | _ => none
  | "IsNull" =>
    match content.members? ["expr", "negated"] with
    | some [tested, negated] => do
      return .isNull (← required r.expr tested) (← required Datum.boolean? negated)
    | _ => none
  | "Like" =>
    match content.members? ["expr", "pattern", "negated", "case_insensitive"] with
    | some [tested, pattern, negated, caseless] => do
      return .like (← required r.expr tested) (← required Datum.boolean? negated)
        (← required Datum.boolean? caseless) (← required r.expr pattern)
    | _ => none
  | "Case" =>
    match content.members? ["operand", "when_clauses", "else_result"] with
    | some [operand, arms, otherwise] => do
      return .caseWhen (← optional r.expr operand) (← required (list? r.whenArm) arms)
        (← optional r.expr otherwise)
    | _ => none
  | "Cast" =>
    match content.members? ["expr", "data_type", "style"] with
    | some [operand, type, style] => do
      return .cast (← required CastStyle.ofDatum? style) (← required r.expr operand)
        (← required DataType.ofDatum? type)
    | _ => none
  | "Nested" => (r.expr content).map .nested
  | "Tuple" => (r.exprs content).map .tuple
  | "Parameter" => (Placeholder.ofDatum? content).map .placeholder
  | "AllColumns" =>
    match content.members? ["table", "except", "replace"] with
    | some [table, except, replace] => do
      return .wildcard (← optional ObjectName.ofDatum? table)
        (← optional WildcardExcept.ofDatum? except) (← optional r.selectItems replace)
    | _ => none
  | _ => none

/-- Reads an expression to order by. -/
def orderItem (d : Datum) : Option OrderItem :=
  match d.members? ["expr", "direction", "nulls"] with
  | some [expr, direction, nulls] => do
    return { expr := ← required r.expr expr,
             direction := ← optional OrderDirection.ofDatum? direction,
             nulls := ← optional NullOrdering.ofDatum? nulls }
  | _ => none

/-- Reads a limit. -/
def limit (d : Datum) : Option Limit :=
  match d.members? ["row_count", "offset", "limit_all", "limit_null", "by"] with
  | some [rowCount, offset, all, null, groups] => do
    return { rowCount := ← optional r.expr rowCount,
             offset := ← optional r.expr offset,
             all := ← required Datum.boolean? all,
             null := ← required Datum.boolean? null,
             groups := ← optional r.exprs groups }
  | _ => none

/-- Reads a number of rows to leave out. -/
def offset (d : Datum) : Option Offset :=
  match d.members? ["value", "rows"] with
  | some [count, rows] => do
    return { count := ← required r.expr count, rows := ← required OffsetRows.ofDatum? rows }
  | _ => none

/-- Reads a named query. -/
def cte (d : Datum) : Option Cte :=
  match d.members? ["name", "columns", "query"] with
  | some [name, columns, query] => do
    return { name := ← required Ident.ofDatum? name,
             columns := ← required (list? Ident.ofDatum?) columns,
             query := ← required r.query query }
  | _ => none

/-- Reads named queries in front of a query. -/
def withCtes (d : Datum) : Option With :=
  match d.members? ["recursive", "ctes"] with
  | some [recursive, ctes] => do
    return { recursive := ← required Datum.boolean? recursive,
             ctes := ← required (list? r.cte) ctes }
  | _ => none

/-- Reads a query, whose parts are read by `r`. -/
def queryMembers (d : Datum) : Option Query :=
  match d.members? ["with", "body", "order_by", "limit_by", "limit", "offset"] with
  | some [ctes, body, orderBy, limitBy, limit, offset] => do
    return { ctes := ← optional r.withCtes ctes,
             body := ← required r.body body,
             orderBy := ← required (list? r.orderItem) orderBy,
             limitBy := ← optional r.limit limitBy,
             limit := ← optional r.limit limit,
             offset := ← optional r.offset offset }
  | _ => none

/-- Reads which rows a join matches. -/
def joinConstraint (d : Datum) : Option JoinConstraint :=
  match d.variant? with
  | some ("On", some content) => (r.expr content).map .on
  | some ("Using", some content) => (content.list? Ident.ofDatum?).map .using
  | some ("None", content) => if Datum.isEmptyContent content then some .none else none
  | _ => none

/-- Reads a joined item. -/
def join (d : Datum) : Option Join :=
  match d.members? ["kind", "item", "constraint"] with
  | some [kind, item, constraint] => do
    return { kind := ← required JoinKind.ofDatum? kind,
             item := ← required r.fromItem item,
             constraint := ← required r.joinConstraint constraint }
  | _ => none

/-- Reads a block. -/
def select (d : Datum) : Option Select :=
  match d.members? ["distinct", "projection", "from", "joins", "selection", "group_by", "having",
      "qualify"] with
  | some [distinct, items, source, joins, condition, groupBy, having, qualify] => do
    return { distinct := ← required Datum.boolean? distinct,
             items := ← required r.selectItems items,
             source := ← optional r.fromItem source,
             joins := ← required (list? r.join) joins,
             condition := ← optional r.expr condition,
             groupBy := ← required r.exprs groupBy,
             having := ← optional r.expr having,
             qualify := ← optional r.expr qualify }
  | _ => none

/-- Reads the body of a query with the name and the content of its case. -/
def bodyCase (name : String) (content : Datum) : Option SetExpr :=
  match name with
  | "Select" => (r.select content).map .select
  | "Parenthesized" => (r.query content).map .parens
  | "SetOperation" =>
    match content.members? ["op", "quantifier", "left", "right"] with
    | some [op, quantifier, left, right] => do
      return .combine (← required SetOperator.ofDatum? op)
        (← required SetQuantifier.ofDatum? quantifier) (← required r.body left)
        (← required r.body right)
    | _ => none
  | "Values" => (r.rows content).map .values
  | _ => none

/-- Reads what turns rows into columns. -/
def pivot (d : Datum) : Option Pivot :=
  match d.members? ["aggregates", "for_columns", "in_items", "alias"] with
  | some [aggregates, columns, items, alias?] => do
    return { aggregates := ← required r.selectItems aggregates,
             columns := ← required (list? ColumnRef.ofDatum?) columns,
             items := ← required r.selectItems items,
             alias? := ← optional Alias.ofDatum? alias? }
  | _ => none

/-- Reads what turns columns into rows. -/
def unpivot (d : Datum) : Option Unpivot :=
  match d.members? ["include_nulls", "value_columns", "name_columns", "in_items", "alias"] with
  | some [includeNulls, valueColumns, nameColumns, items, alias?] => do
    return { includeNulls := ← optional Datum.boolean? includeNulls,
             valueColumns := ← required (list? Ident.ofDatum?) valueColumns,
             nameColumns := ← required (list? Ident.ofDatum?) nameColumns,
             items := ← required r.selectItems items,
             alias? := ← optional Alias.ofDatum? alias? }
  | _ => none

/-- Reads what is written behind a relation, and puts the relation in front of it. -/
def decorated (relation : Relation) (d : Datum) : Option FromItem :=
  match d.members? ["alias", "pivot", "unpivot"] with
  | some [alias?, pivot, unpivot] => do
    return { relation,
             alias? := ← optional Alias.ofDatum? alias?,
             pivot := ← optional r.pivot pivot,
             unpivot := ← optional r.unpivot unpivot }
  | _ => none

/-- Reads an item to read from with the name and the content of its case. -/
def fromItemCase (name : String) (content : Datum) : Option FromItem :=
  match name with
  | "Table" =>
    match content.members? ["name", "decorations"] with
    | some [name, decorations] => do
      required (r.decorated (.table (← required ObjectName.ofDatum? name))) decorations
    | _ => none
  | "ParenthesedSelect" =>
    match content.members? ["query", "decorations"] with
    | some [query, decorations] => do
      required (r.decorated (.query (← required r.query query))) decorations
    | _ => none
  | "LateralSubSelect" =>
    match content.members? ["query", "decorations"] with
    | some [query, decorations] => do
      required (r.decorated (.lateral (← required r.query query))) decorations
    | _ => none
  | "TableFunction" =>
    match content.members? ["prefix", "function", "decorations"] with
    | some [lead, call, decorations] => do
      let lead ← optional Datum.text? lead
      required (r.decorated (.function lead (← required r.functionCall call))) decorations
    | _ => none
  | "ParenthesedFromItem" =>
    match content.members? ["item", "joins", "decorations"] with
    | some [item, joins, decorations] => do
      let item ← required r.fromItem item
      required (r.decorated (.joined item (← required (list? r.join) joins))) decorations
    | _ => none
  | "Values" =>
    match content.members? ["values", "decorations"] with
    | some [values, decorations] => do
      required (r.decorated (.values (← required r.rows values))) decorations
    | _ => none
  | _ => none

/-- The readers of trees whose parts are read by `r`. -/
def step : Readers where
  expr d :=
    match d.variant? with
    | some (name, some content) => r.exprCase name content
    | _ => none
  query d := r.queryMembers d
  body d :=
    match d.variant? with
    | some (name, some content) => r.bodyCase name content
    | _ => none
  fromItem d :=
    match d.variant? with
    | some (name, some content) => r.fromItemCase name content
    | _ => none

/-- Readers that read nothing. -/
def empty : Readers :=
  ⟨fun _ => none, fun _ => none, fun _ => none, fun _ => none⟩

/-- The readers of trees that nest less than `n` deep. -/
def within : Nat → Readers
  | 0 => empty
  | n + 1 => (within n).step

/-- The readers of a tree in data as deep as these. A tree in a tree stands at least one level
deeper. -/
def ofDepth (d : Datum) : Readers :=
  within d.depth

end Readers

/-- Reads an expression. -/
def Expr.ofDatum? (d : Datum) : Option Expr :=
  (Readers.ofDepth d).expr d

/-- Reads an item with its alias. -/
def SelectItem.ofDatum? (d : Datum) : Option SelectItem :=
  (Readers.ofDepth d).selectItem d

/-- Reads a query. -/
def Query.ofDatum? (d : Datum) : Option Query :=
  (Readers.ofDepth d).query d

/-- Reads the body of a query. -/
def SetExpr.ofDatum? (d : Datum) : Option SetExpr :=
  (Readers.ofDepth d).body d

/-- Reads a block. -/
def Select.ofDatum? (d : Datum) : Option Select :=
  (Readers.ofDepth d).select d

/-- Reads a limit. -/
def Limit.ofDatum? (d : Datum) : Option Limit :=
  (Readers.ofDepth d).limit d

/-- Reads an item to read from. -/
def FromItem.ofDatum? (d : Datum) : Option FromItem :=
  (Readers.ofDepth d).fromItem d

/-- Reads a joined item. -/
def Join.ofDatum? (d : Datum) : Option Join :=
  (Readers.ofDepth d).join d

/-- Reads what turns rows into columns. -/
def Pivot.ofDatum? (d : Datum) : Option Pivot :=
  (Readers.ofDepth d).pivot d

/-- Reads what turns columns into rows. -/
def Unpivot.ofDatum? (d : Datum) : Option Unpivot :=
  (Readers.ofDepth d).unpivot d

end SqlTree
