import SqlTree.Query.Grammar.Expr

/-! # Reading what a query reads from

* `fromItem`: a table, a query, a function, rows of values or a parenthesized join, each with its
  alias and what turns rows into columns or columns into rows.
* `joins`: everything joined to an item.
* `valueRows`: rows of values.

An opening parenthesis begins a query, rows of values or an item, as the word behind it says.
-/

namespace SqlTree.Parse
set_option autoImplicit false

/-! ## Rows of values -/

/-- A row of values in parentheses; it may be empty. -/
def valueRow (g : Productions) : Parse (List Expr) := do
  expectSymbol .leftParen
  let row ← if ← symbolAt 0 .rightParen then pure [] else exprList g
  expectSymbol .rightParen
  return row

/-- One or more rows of values. -/
def valueRows (g : Productions) : Parse (List (List Expr)) := do
  expectKeyword .VALUES
  commaList (valueRow g)

/-! ## Rows into columns, columns into rows -/

/-- A column, perhaps with its table. -/
def columnName : Parse ColumnRef := do
  let (first, more) ← dottedName
  return columnOf first more

/-- A single column, or several in parentheses. -/
def oneOrMoreColumns : Parse (List ColumnRef) := do
  if ← takeSymbol .leftParen then
    let columns ← commaList columnName
    expectSymbol .rightParen
    return columns
  else return [← columnName]

/-- Items in parentheses, and the parenthesis that closes what they end. -/
def closingItems (g : Productions) : Parse (List SelectItem) := do
  expectKeyword .IN
  expectSymbol .leftParen
  let items ← selectItems g
  expectSymbol .rightParen
  expectSymbol .rightParen
  return items

/-- What turns rows into columns. -/
def pivot (g : Productions) : Parse Pivot := do
  expectKeyword .PIVOT
  expectSymbol .leftParen
  let aggregates ← selectItems g
  expectKeyword .FOR
  let columns ← oneOrMoreColumns
  let items ← closingItems g
  return { aggregates, columns, items, alias? := ← optionalAlias }

/-- Whether nulls are kept or left out, if it is said. -/
def includeNulls : Parse (Option Bool) := do
  if ← takeKeyword .INCLUDE then
    expectKeyword .NULLS
    return some true
  else if ← takeKeyword .EXCLUDE then
    expectKeyword .NULLS
    return some false
  else return none

/-- What turns columns into rows. -/
def unpivot (g : Productions) : Parse Unpivot := do
  expectKeyword .UNPIVOT
  let includeNulls ← includeNulls
  expectSymbol .leftParen
  let valueColumns ← oneOrMoreIdentifiers
  expectKeyword .FOR
  let nameColumns ← oneOrMoreIdentifiers
  let items ← closingItems g
  return { includeNulls, valueColumns, nameColumns, items, alias? := ← optionalAlias }

/-- The answer of `item`, if the keyword it begins with is under the cursor. -/
def ifKeyword {α : Type} (k : Keyword) (item : Parse α) : Parse (Option α) := do
  if ← keywordAt 0 k then return some (← item) else return none

/-! ## Joins -/

/-- The words of an outer join behind its first one. -/
def outerJoin (kind : JoinKind) : Parse (Option JoinKind) := do
  advance
  let _ ← takeKeyword .OUTER
  expectKeyword .JOIN
  return some kind

/-- What joins an item to what stands before it, if anything does. -/
def joinKind : Parse (Option JoinKind) := do
  match (← current).kind with
  | .symbol .comma =>
    advance
    return some .comma
  | .keyword .JOIN =>
    advance
    return some .inner
  | .keyword .INNER =>
    advance
    expectKeyword .JOIN
    return some .innerExplicit
  | .keyword .LEFT => outerJoin .left
  | .keyword .RIGHT => outerJoin .right
  | .keyword .FULL => outerJoin .full
  | .keyword .CROSS =>
    advance
    expectKeyword .JOIN
    return some .cross
  | _ => return none

/-- Which rows a join matches. -/
def joinConstraint (g : Productions) : Parse JoinConstraint := do
  if ← takeKeyword .ON then return .on (← g.expr 0)
  else if ← takeKeyword .USING then return .using (← identifiersInParens)
  else return .none

/-- A joined item, if there is one. -/
def join (g : Productions) : Parse (Option Join) := do
  match ← joinKind with
  | none => return none
  | some kind =>
    let item ← g.fromItem
    return some { kind, item, constraint := ← joinConstraint g }

/-- Everything joined to an item. -/
def joins (g : Productions) : Parse (List Join) :=
  collect (join g)

/-- An item with everything joined to it, behind `FROM`, if there is one. -/
def fromClause (g : Productions) : Parse (Option FromItem × List Join) := do
  if ← takeKeyword .FROM then
    let item ← g.fromItem
    return (some item, ← joins g)
  else return (none, [])

/-! ## Items -/

/-- What an opening parenthesis begins. -/
def parenthesizedRelation (g : Productions) : Parse Relation := do
  advance
  let relation ← if ← queryAt 0 then .query <$> g.query
    else if ← keywordAt 0 .VALUES then .values <$> valueRows g
    else (do
      let item ← g.fromItem
      return .joined item (← joins g))
  expectSymbol .rightParen
  return relation

/-- A query or a function behind the word `LATERAL`. -/
def lateralRelation (g : Productions) : Parse Relation := do
  advance
  if ← takeSymbol .leftParen then
    let query ← g.query
    expectSymbol .rightParen
    return .lateral query
  else
    let name ← objectName
    return .function (some Keyword.LATERAL.text) (← functionCall g name)

/-- A table, or a function that gives rows. -/
def namedRelation (g : Productions) : Parse Relation := do
  let name ← objectName
  if ← symbolAt 0 .leftParen then return .function none (← functionCall g name)
  else return .table name

/-- A source of rows. -/
def relation (g : Productions) : Parse Relation := do
  match (← current).kind with
  | .symbol .leftParen => parenthesizedRelation g
  | .keyword .LATERAL => lateralRelation g
  | _ => namedRelation g

/-- A source of rows with what is written behind it. -/
def fromItem (g : Productions) : Parse FromItem := do
  let relation ← relation g
  let alias? ← tableAlias
  let pivot ← ifKeyword .PIVOT (pivot g)
  let unpivot ← ifKeyword .UNPIVOT (unpivot g)
  return { relation, alias?, pivot, unpivot }

end SqlTree.Parse
