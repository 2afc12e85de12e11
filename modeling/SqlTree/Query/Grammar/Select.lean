import SqlTree.Query.Grammar.From

/-! # Reading queries

* `select`: a `SELECT` block.
* `setExpr`: blocks, rows of values and queries in parentheses with set operators between them, of
  which `INTERSECT` binds tighter and all group to the left.
* `query`: a whole query with its named queries, its ordering and its limits.
-/

namespace SqlTree.Parse
set_option autoImplicit false

/-! ## Blocks -/

/-- Whether `DISTINCT` is there; `ALL` says the same as nothing. -/
def distinctWord : Parse Bool := do
  if ← takeKeyword .DISTINCT then return true
  else
    let _ ← takeKeyword .ALL
    return false

/-- The expressions to group by, if there are any. -/
def groupClause (g : Productions) : Parse (List Expr) := do
  if ← takeKeyword .GROUP then
    expectKeyword .BY
    exprList g
  else return []

/-- A `SELECT` block. -/
def select (g : Productions) : Parse Select := do
  expectKeyword .SELECT
  let distinct ← distinctWord
  let items ← selectItems g
  let (source, joins) ← fromClause g
  let condition ← afterKeyword .WHERE (g.expr 0)
  let groupBy ← groupClause g
  let having ← afterKeyword .HAVING (g.expr 0)
  let qualify ← afterKeyword .QUALIFY (g.expr 0)
  return { distinct, items, source, joins, condition, groupBy, having, qualify }

/-! ## Set operators -/

/-- A part of a body without set operators around it. -/
def setOperand (g : Productions) : Parse SetExpr := do
  match (← current).kind with
  | .keyword .SELECT => return .select (← select g)
  | .keyword .VALUES => return .values (← valueRows g)
  | .symbol .leftParen => return .parens (← inParens g.query)
  | _ => fail [Keyword.SELECT.text, Keyword.VALUES.text, Symbol.leftParen.text]

/-- The word behind a set operator, if there is one. -/
def setQuantifier : Parse SetQuantifier := do
  if ← takeKeyword .ALL then return .all
  else if ← takeKeyword .DISTINCT then return .distinct
  else return .none

/-- A set operator that `admits` lets pass, with its right operand. -/
def setExtend (admits : SetOperator → Bool) (right : SetOperator → Parse SetExpr)
    (left : SetExpr) : Parse (Option SetExpr) := do
  match SetOperator.ofToken? (← current).kind with
  | none => return none
  | some op =>
    if admits op then
      advance
      let quantifier ← setQuantifier
      return some (.combine op quantifier left (← right op))
    else return none

/-- Parts of a body with only the tighter operator between them. -/
def setTerm (g : Productions) : Parse SetExpr := do
  repeatFrom (setExtend SetOperator.bindsTighter fun _ => setOperand g) (← setOperand g)

/-- The body of a query. -/
def setExpr (g : Productions) : Parse SetExpr := do
  repeatFrom
    (setExtend (fun _ => true) fun op => if op.bindsTighter then setOperand g else setTerm g)
    (← setOperand g)

/-! ## Around the body -/

/-- A named query. -/
def cte (g : Productions) : Parse Cte := do
  let name ← identifier
  let columns ← optionalIdentifiers
  expectKeyword .AS
  return { name, columns, query := ← inParens g.query }

/-- Named queries. -/
def withClause (g : Productions) : Parse With := do
  expectKeyword .WITH
  let recursive ← takeKeyword .RECURSIVE
  return { recursive, ctes := ← commaList (cte g) }

/-- The direction of an ordering, if it is said. -/
def orderDirection : Parse (Option OrderDirection) := do
  if ← takeKeyword .ASC then return some .asc
  else if ← takeKeyword .DESC then return some .desc
  else return none

/-- Where nulls go, if it is said. -/
def nullOrdering : Parse (Option NullOrdering) := do
  if ← takeKeyword .NULLS then
    if ← takeKeyword .FIRST then return some .first
    else
      expectKeyword .LAST
      return some .last
  else return none

/-- An expression to order by. -/
def orderItem (g : Productions) : Parse OrderItem := do
  let expr ← g.expr 0
  let direction ← orderDirection
  return { expr, direction, nulls := ← nullOrdering }

/-- The expressions to order by, if there are any. -/
def orderClause (g : Productions) : Parse (List OrderItem) := do
  if ← takeKeyword .ORDER then
    expectKeyword .BY
    commaList (orderItem g)
  else return []

/-- What a limit is: `NULL`, `ALL`, or a row count with an optional offset in front. -/
def limitCount (g : Productions) : Parse Limit := do
  if ← takeKeyword .NULL then
    return { rowCount := none, offset := none, all := false, null := true, groups := none }
  else if ← takeKeyword .ALL then
    return { rowCount := none, offset := none, all := true, null := false, groups := none }
  else
    let first ← g.expr 0
    match ← afterComma (g.expr 0) with
    | none =>
      return { rowCount := some first, offset := none, all := false, null := false, groups := none }
    | some count =>
      return { rowCount := some count, offset := some first, all := false, null := false,
               groups := none }

/-- A limit, for each group if the dialect allows it. -/
def limit (g : Productions) (d : Dialect) : Parse Limit := do
  expectKeyword .LIMIT
  let limit ← limitCount g
  let groups ← if d.limitBy then afterKeyword .BY (exprList g) else pure none
  return { limit with groups }

/-- A limit for each group and a limit for all rows. Only behind a limit for each group may a second
one follow. -/
def limits (g : Productions) (d : Dialect) : Parse (Option Limit × Option Limit) := do
  match ← ifKeyword .LIMIT (limit g d) with
  | none => return (none, none)
  | some first =>
    if first.groups.isSome then return (some first, ← ifKeyword .LIMIT (limit g d))
    else return (none, some first)

/-- The word behind an offset, if there is one. -/
def offsetRows : Parse OffsetRows := do
  if ← takeKeyword .ROW then return .row
  else if ← takeKeyword .ROWS then return .rows
  else return .none

/-- The number of rows to leave out. -/
def offsetCount (g : Productions) : Parse Offset := do
  let count ← g.expr 0
  return { count, rows := ← offsetRows }

/-- A whole query. -/
def query (g : Productions) (d : Dialect) : Parse Query := do
  let ctes ← ifKeyword .WITH (withClause g)
  let body ← setExpr g
  let orderBy ← orderClause g
  let (limitBy, limit) ← limits g d
  let offset ← afterKeyword .OFFSET (offsetCount g)
  return { ctes, body, orderBy, limitBy, limit, offset }

end SqlTree.Parse
