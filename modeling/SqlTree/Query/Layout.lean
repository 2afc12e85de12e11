import SqlTree.Query.Basic
import SqlTree.Text.Hexadecimal

/-! # The written form of expressions and queries

* `Expr.layout`, `Query.layout`, `FromItem.layout` and one function for each smaller part.
* `parensLeft`, `parensRight`, `parensBeforeCast`: where an operand needs parentheses that the
  tree does not hold.

Operators are written with gaps around them, lists with a comma and a gap, the elements of arrays
and struct values with a bare comma. Parentheses are added around the operand of a binary operator
that binds looser, on the right also around one that binds as tightly.
-/

namespace SqlTree
set_option autoImplicit false

/-! ## Leaves -/

/-- The written form of a constant. -/
def Literal.piece : Literal → Piece
  | .integer digits => .word digits
  | .float digits => .word digits
  | .string content => .word (Text.Quoted.enclose '\'' '\'' content)
  | .blob bytes =>
    .word (String.ofList ('X' :: '\'' :: Text.Hexadecimal.ofBytes bytes ++ ['\'']))
  | .boolean true => .keyword .TRUE
  | .boolean false => .keyword .FALSE
  | .null => .keyword .NULL

/-- The written form of a column. -/
def ColumnRef.layout (c : ColumnRef) : Layout :=
  match c.table with
  | none => c.name.layout
  | some table => table.layout ++ .symbol .dot :: c.name.layout

/-- The written form of a place for a value. -/
def Placeholder.layout : Placeholder → Layout
  | .positional number => [.question number]
  | .named sigil name => [.word (String.ofList [sigil]), .word name]

/-- The written form of columns left out of a wildcard. -/
def WildcardExcept.layout (e : WildcardExcept) : Layout :=
  .gap :: .keyword e.word.keyword :: .gap :: Layout.parens (Ident.listLayout e.columns)

/-- An alias behind a gap, if there is one. -/
def Alias.layoutAfter : Option Alias → Layout
  | none => []
  | some a => .gap :: a.layout

/-- The word behind an offset, if there is one. -/
def OffsetRows.layout : OffsetRows → Layout
  | .none => []
  | .row => [.gap, .keyword .ROW]
  | .rows => [.gap, .keyword .ROWS]

/-- The word behind a set operator, if there is one. -/
def SetQuantifier.layout : SetQuantifier → Layout
  | .none => []
  | .all => [.gap, .keyword .ALL]
  | .distinct => [.gap, .keyword .DISTINCT]

/-- Rows of values behind the word `VALUES`. -/
def Layout.valueRows (rows : List Layout) : Layout :=
  [.keyword .VALUES, .gap] ++ Layout.commas rows

/-- What stands between an item and the one joined to it. -/
def JoinKind.layout : JoinKind → Layout
  | .comma => [.symbol .comma]
  | kind => Layout.keywords kind.keywords

/-- What stands between the left operand of a predicate and its first word. -/
def negation (negated : Bool) : Layout :=
  Layout.onlyIf negated [.gap, .keyword .NOT]

/-! ## Parentheses that a tree needs -/

/-- The precedence of an expression with a binary operator. -/
def Expr.precedence? : Expr → Option Nat
  | .binary _ op _ => some op.precedence
  | _ => none

/-- Whether a left operand binds looser than the operator behind it. -/
def parensLeft (op : BinaryOp) (left : Expr) : Bool :=
  left.precedence?.any (· < op.precedence)

/-- Whether a right operand does not bind tighter than the operator in front of it. -/
def parensRight (op : BinaryOp) (right : Expr) : Bool :=
  right.precedence?.any (· ≤ op.precedence)

/-- Whether an operand of a unary operator needs parentheses: behind `NOT` a conjunction or a
disjunction, behind a sign anything with a binary operator. -/
def parensUnary : UnaryOp → Expr → Bool
  | .not, operand => operand.precedence?.any (· ≤ 2)
  | _, operand => operand.precedence?.isSome

/-- Whether an expression ends or begins so that a cast behind it would take a part of it only. -/
def parensBeforeCast : Expr → Bool
  | .binary .. | .unary .. | .inList .. | .inQuery .. | .between .. | .isNull .. | .like .. => true
  | _ => false

/-- The gap between a unary operator and its operand: always behind `NOT`, behind the others only
where two signs would meet. -/
def gapAfterUnary (op : UnaryOp) (operand : Layout) : Layout :=
  match op with
  | .not => [.gap]
  | _ => Layout.onlyIf (operand.firstChar?.any fun c => c == '-' || c == '+') [.gap]

/-! ## Trees -/

mutual

/-- The written form of an expression. -/
def Expr.layout : Expr → Layout
  | .literal value => [value.piece]
  | .column ref => ref.layout
  | .binary left op right =>
    Layout.parensIf (parensLeft op left) left.layout ++ [.gap, op.piece, .gap] ++
      Layout.parensIf (parensRight op right) right.layout
  | .unary op operand =>
    let inner := Layout.parensIf (parensUnary op operand) operand.layout
    op.piece :: gapAfterUnary op inner ++ inner
  | .call call => call.layout
  | .array withWord elements =>
    Layout.onlyIf withWord [.keyword .ARRAY] ++ [.symbol .leftBracket] ++
      Layout.tightCommas (Expr.layouts elements) ++ [.symbol .rightBracket]
  | .struct value => value.layout
  | .subquery query => Layout.parens query.layout
  | .existsQuery query => .keyword .EXISTS :: .gap :: Layout.parens query.layout
  | .inList tested negated items =>
    tested.layout ++ negation negated ++ [.gap, .keyword .IN, .gap] ++
      Layout.parens (Layout.commas (Expr.layouts items))
  | .inQuery tested negated query =>
    tested.layout ++ negation negated ++ [.gap, .keyword .IN, .gap] ++ Layout.parens query.layout
  | .between tested negated low high =>
    tested.layout ++ negation negated ++ [.gap, .keyword .BETWEEN, .gap] ++ low.layout ++
      [.gap, .keyword .AND, .gap] ++ high.layout
  | .isNull tested negated =>
    tested.layout ++ [.gap, .keyword .IS] ++ negation negated ++ [.gap, .keyword .NULL]
  | .like tested negated caseless pattern =>
    tested.layout ++ negation negated ++
      [.gap, .keyword (if caseless then .ILIKE else .LIKE), .gap] ++ pattern.layout
  | .caseWhen operand arms otherwise =>
    [.keyword .CASE] ++ Expr.layoutAfter [.gap] operand ++ WhenArm.layouts arms ++
      Expr.layoutAfter [.gap, .keyword .ELSE, .gap] otherwise ++ [.gap, .keyword .END]
  | .cast .function operand type =>
    .keyword .CAST :: Layout.parens
      (operand.layout ++ [.gap, .keyword .AS, .gap] ++ type.layout)
  | .cast .doubleColon operand type =>
    Layout.parensIf (parensBeforeCast operand) operand.layout ++ .symbol .doubleColon :: type.layout
  | .nested inner => Layout.parens inner.layout
  | .tuple items => Layout.parens (Layout.commas (Expr.layouts items))
  | .placeholder place => place.layout
  | .wildcard table except replace =>
    (match table with
      | none => []
      | some t => t.layout ++ [.symbol .dot]) ++
    [.symbol .star] ++ (except.elim [] WildcardExcept.layout) ++
    (match replace with
      | none => []
      | some items =>
        .gap :: .keyword .REPLACE :: .gap ::
          Layout.parens (Layout.commas (SelectItem.layouts items)))

/-- The written forms of several expressions. -/
def Expr.layouts : List Expr → List Layout
  | [] => []
  | e :: es => e.layout :: Expr.layouts es

/-- An optional expression behind what introduces it. -/
def Expr.layoutAfter (lead : Layout) : Option Expr → Layout
  | none => []
  | some e => lead ++ e.layout

/-- An optional list of expressions behind what introduces it. -/
def Expr.listAfter (lead : Layout) : Option (List Expr) → Layout
  | none => []
  | some es => lead ++ Layout.commas (Expr.layouts es)

/-- The written form of an item with its alias. -/
def SelectItem.layout : SelectItem → Layout
  | ⟨expr, alias?⟩ => expr.layout ++ Alias.layoutAfter alias?

/-- The written forms of several items. -/
def SelectItem.layouts : List SelectItem → List Layout
  | [] => []
  | i :: is => i.layout :: SelectItem.layouts is

/-- The written form of a call. -/
def FunctionCall.layout : FunctionCall → Layout
  | ⟨name, distinct, arguments⟩ =>
    name.layout ++ Layout.parens
      (Layout.onlyIf distinct [.keyword .DISTINCT, .gap] ++
        Layout.commas (Expr.layouts arguments))

/-- The written form of a struct value. -/
def StructValue.layout : StructValue → Layout
  | ⟨.bigQuery, word, fields, arguments⟩ =>
    word.elim [] Layout.word ++
    (match fields with
      | none => []
      | some fs =>
        .symbol .less :: Layout.tightCommas (fs.map StructField.layout) ++ [.closingAngle]) ++
    (match arguments with
      | none => []
      | some items => Layout.parens (Layout.tightCommas (SelectItem.layouts items)))
  | ⟨.duckDb, _, fields, arguments⟩ =>
    (match arguments with
      | none => []
      | some items =>
        [.symbol .leftBrace, .gap] ++ Layout.tightCommas (SelectItem.fieldLayouts 1 items) ++
          [.gap, .symbol .rightBrace]) ++
    (match fields with
      | none => []
      | some fs =>
        [.symbol .doubleColon, .keyword .STRUCT, .symbol .leftParen, .gap] ++
          Layout.tightCommas (fs.map StructField.layout) ++ [.symbol .rightParen])

/-- The written form of an item as the field at a position of a struct value in braces. -/
def SelectItem.fieldLayout (position : Nat) : SelectItem → Layout
  | ⟨expr, alias?⟩ =>
    (match alias? with
      | none => [.defect (.unnamedField position)]
      | some a => a.name.layout) ++
    .symbol .colon :: expr.layout

/-- The written forms of the fields of a struct value in braces, the first one at a position. -/
def SelectItem.fieldLayouts (position : Nat) : List SelectItem → List Layout
  | [] => []
  | i :: is => i.fieldLayout position :: SelectItem.fieldLayouts (position + 1) is

/-- The written form of an arm, behind a gap. -/
def WhenArm.layout : WhenArm → Layout
  | ⟨condition, result⟩ =>
    [.gap, .keyword .WHEN, .gap] ++ condition.layout ++ [.gap, .keyword .THEN, .gap] ++
      result.layout

/-- The written form of several arms. -/
def WhenArm.layouts : List WhenArm → Layout
  | [] => []
  | a :: arms => a.layout ++ WhenArm.layouts arms

/-- The written form of a query. -/
def Query.layout : Query → Layout
  | ⟨ctes, body, orderBy, limitBy, limit, offset⟩ =>
    (match ctes with
      | none => []
      | some w => w.layout) ++
    body.layout ++
    Layout.onlyIf (!orderBy.isEmpty)
      ([.gap, .keyword .ORDER, .gap, .keyword .BY, .gap] ++
        Layout.commas (OrderItem.layouts orderBy)) ++
    (match limitBy with
      | none => []
      | some l => l.layout) ++
    (match limit with
      | none => []
      | some l => l.layout) ++
    (match offset with
      | none => []
      | some o => o.layout)

/-- The written form of named queries, with the gap behind them. -/
def With.layout : With → Layout
  | ⟨recursive, ctes⟩ =>
    [.keyword .WITH, .gap] ++ Layout.onlyIf recursive [.keyword .RECURSIVE, .gap] ++
      Layout.commas (Cte.layouts ctes) ++ [.gap]

/-- The written form of a named query. -/
def Cte.layout : Cte → Layout
  | ⟨name, columns, query⟩ =>
    name.layout ++
      Layout.onlyIf (!columns.isEmpty) (.gap :: Layout.parens (Ident.listLayout columns)) ++
      [.gap, .keyword .AS, .gap] ++ Layout.parens query.layout

/-- The written forms of several named queries. -/
def Cte.layouts : List Cte → List Layout
  | [] => []
  | c :: cs => c.layout :: Cte.layouts cs

/-- The written form of the body of a query. -/
def SetExpr.layout : SetExpr → Layout
  | .select block => block.layout
  | .parens query => Layout.parens query.layout
  | .combine op quantifier left right =>
    left.layout ++ [.gap, .keyword op.keyword] ++ quantifier.layout ++ .gap :: right.layout
  | .values rows => Layout.valueRows (Expr.rowLayouts rows)

/-- The written forms of several rows. -/
def Expr.rowLayouts : List (List Expr) → List Layout
  | [] => []
  | r :: rs => Layout.parens (Layout.commas (Expr.layouts r)) :: Expr.rowLayouts rs

/-- The written form of a `SELECT` block. What is joined is written only behind a source. -/
def Select.layout : Select → Layout
  | ⟨distinct, items, source, joins, condition, groupBy, having, qualify⟩ =>
    [.keyword .SELECT, .gap] ++ Layout.onlyIf distinct [.keyword .DISTINCT, .gap] ++
    Layout.commas (SelectItem.layouts items) ++
    (match source with
      | none => []
      | some item => [.gap, .keyword .FROM, .gap] ++ item.layout ++ Join.layouts joins) ++
    Expr.layoutAfter [.gap, .keyword .WHERE, .gap] condition ++
    Layout.onlyIf (!groupBy.isEmpty)
      ([.gap, .keyword .GROUP, .gap, .keyword .BY, .gap] ++
        Layout.commas (Expr.layouts groupBy)) ++
    Expr.layoutAfter [.gap, .keyword .HAVING, .gap] having ++
    Expr.layoutAfter [.gap, .keyword .QUALIFY, .gap] qualify

/-- The written form of an expression to order by. -/
def OrderItem.layout : OrderItem → Layout
  | ⟨expr, direction, nulls⟩ =>
    expr.layout ++ direction.elim [] (fun d => [.gap, .keyword d.keyword]) ++
      nulls.elim [] (fun n => .gap :: Layout.keywords n.keywords)

/-- The written forms of several expressions to order by. -/
def OrderItem.layouts : List OrderItem → List Layout
  | [] => []
  | o :: os => o.layout :: OrderItem.layouts os

/-- The written form of a limit, behind a gap. `NULL` counts before `ALL`, and `ALL` before a row
count. -/
def Limit.layout : Limit → Layout
  | ⟨rowCount, offset, all, null, groups⟩ =>
    (if null then [.gap, .keyword .LIMIT, .gap, .keyword .NULL]
    else if all then [.gap, .keyword .LIMIT, .gap, .keyword .ALL]
    else
      match rowCount with
      | none => [.defect .emptyLimit]
      | some count =>
        [.gap, .keyword .LIMIT, .gap] ++
          (match offset with
            | none => []
            | some o => o.layout ++ [.symbol .comma, .gap]) ++
          count.layout) ++
    Expr.listAfter [.gap, .keyword .BY, .gap] groups

/-- The written form of an offset, behind a gap. -/
def Offset.layout : Offset → Layout
  | ⟨count, word⟩ => [.gap, .keyword .OFFSET, .gap] ++ count.layout ++ word.layout

/-- The written form of what a query reads from. -/
def FromItem.layout : FromItem → Layout
  | ⟨relation, alias?, pivot, unpivot⟩ =>
    relation.layout ++ Alias.layoutAfter alias? ++
    (match pivot with
      | none => []
      | some p => p.layout) ++
    (match unpivot with
      | none => []
      | some u => u.layout)

/-- The written form of a source of rows. -/
def Relation.layout : Relation → Layout
  | .table name => name.layout
  | .query query => Layout.parens query.layout
  | .lateral query => .keyword .LATERAL :: .gap :: Layout.parens query.layout
  | .function lead call => lead.elim [] (fun word => [.word word, .gap]) ++ call.layout
  | .joined item joins => Layout.parens (item.layout ++ Join.layouts joins)
  | .values rows => Layout.parens (Layout.valueRows (Expr.rowLayouts rows))

/-- The written form of a joined item, with what separates it from the item before. -/
def Join.layout : Join → Layout
  | ⟨kind, item, constraint⟩ =>
    Layout.onlyIf (kind != .comma) [.gap] ++ kind.layout ++ .gap :: item.layout ++
      constraint.layout

/-- The written form of several joined items. -/
def Join.layouts : List Join → Layout
  | [] => []
  | j :: js => j.layout ++ Join.layouts js

/-- The written form of which rows a join matches. -/
def JoinConstraint.layout : JoinConstraint → Layout
  | .on condition => [.gap, .keyword .ON, .gap] ++ condition.layout
  | .using columns =>
    [.gap, .keyword .USING, .gap] ++ Layout.parens (Ident.listLayout columns)
  | .none => []

/-- The written form of turning rows into columns, behind a gap. -/
def Pivot.layout : Pivot → Layout
  | ⟨aggregates, columns, items, alias?⟩ =>
    [.gap, .keyword .PIVOT, .gap] ++
    Layout.parens
      (Layout.commas (SelectItem.layouts aggregates) ++ [.gap, .keyword .FOR, .gap] ++
        Layout.parensIf (columns.length != 1) (Layout.commas (columns.map ColumnRef.layout)) ++
        [.gap, .keyword .IN, .gap] ++
        Layout.parens (Layout.commas (SelectItem.layouts items))) ++
    Alias.layoutAfter alias?

/-- The written form of turning columns into rows, behind a gap. -/
def Unpivot.layout : Unpivot → Layout
  | ⟨includeNulls, valueColumns, nameColumns, items, alias?⟩ =>
    [.gap, .keyword .UNPIVOT] ++
    (match includeNulls with
      | some true => [.gap, .keyword .INCLUDE, .gap, .keyword .NULLS]
      | some false => [.gap, .keyword .EXCLUDE, .gap, .keyword .NULLS]
      | none => []) ++
    .gap :: Layout.parens
      (Layout.parensIf (valueColumns.length != 1) (Ident.listLayout valueColumns) ++
        [.gap, .keyword .FOR, .gap] ++
        Layout.parensIf (nameColumns.length != 1) (Ident.listLayout nameColumns) ++
        [.gap, .keyword .IN, .gap] ++
        Layout.parens (Layout.commas (SelectItem.layouts items))) ++
    Alias.layoutAfter alias?

end

end SqlTree
