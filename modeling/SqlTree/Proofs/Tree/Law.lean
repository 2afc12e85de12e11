import Mathlib
import SqlTree.Proofs.Reading.DataType
import SqlTree.Proofs.Tree.Part

/-! # What trees that are read satisfy

* `Expr.leftEdge`, `Expr.rightEdge`: how tightly an expression holds together where it begins and
  where it ends.
* `Part.Legal d`: what the grammar of a dialect makes of a part.
* `Part.Faithful d`: the written form of a part says all that the part holds.
* `Part.Clear d`: both.

An operand stays with its operator as long as its edge is tighter than what stands next to it.
Whatever ends with a word or a closing mark has the edge `closedEdge`.

## What is written without saying all

The names of placeholders and of custom types lose their quotes. A value in braces that begins with
a colon runs into the colon behind its key. Behind a predicate a cast gets parentheses that the
tree does not hold. Behind the type `DOUBLE` a bare alias `precision` is taken for a part of the
type.
-/

namespace SqlTree
set_option autoImplicit false

open Parse

/-- Whether double quotes enclose strings. -/
abbrev Dialect.dq (d : Dialect) : Bool :=
  d.doubleQuotedStrings

/-! ## Edges -/

/-- The edge of an expression that nothing outside can open. -/
def closedEdge : Nat := rightPower 10

/-- The least power on the left of an operator that is read behind the beginning of an expression. -/
def Expr.leftEdge : Expr → Nat
  | .binary left op _ => min (leftPower op.precedence) left.leftEdge
  | .inList tested _ _ => min (leftPower predicateLevel) tested.leftEdge
  | .inQuery tested _ _ => min (leftPower predicateLevel) tested.leftEdge
  | .between tested _ _ _ => min (leftPower predicateLevel) tested.leftEdge
  | .isNull tested _ => min (leftPower predicateLevel) tested.leftEdge
  | .like tested _ _ _ => min (leftPower predicateLevel) tested.leftEdge
  | .cast .doubleColon operand _ => min castPower operand.leftEdge
  | .struct ⟨.duckDb, _, some _, _⟩ => castPower
  | _ => closedEdge

/-- The least power on the right of an operator whose operand ends with an expression. -/
def Expr.rightEdge : Expr → Nat
  | .binary _ op right => min (rightPower op.precedence) right.rightEdge
  | .unary op operand => min (operandPower op) operand.rightEdge
  | .between _ _ _ high => min (rightPower predicateLevel) high.rightEdge
  | .like _ _ _ pattern => min (rightPower predicateLevel) pattern.rightEdge
  | _ => closedEdge

/-! ## Parts of parts -/

/-- A legal alias of an item, and none behind a wildcard. -/
def SelectItem.Legal (dq : Bool) (i : SelectItem) : Prop :=
  (i.expr.isWildcard = true → i.alias? = none) ∧
    ∀ a ∈ i.alias?, a.Legal dq ∧ a.columns = []

/-- A bare alias is not read with the type in front of it. -/
def SelectItem.Faithful (i : SelectItem) : Prop :=
  i.expr.layout.getLast? = some (.keyword .DOUBLE) → ∀ a ∈ i.alias?, a.withAs = false →
    isWord "PRECISION" (.identifier a.name.name a.name.quote) = false

/-- One or more legal items. -/
def SelectItem.LegalList (dq : Bool) (items : List SelectItem) : Prop :=
  items ≠ [] ∧ ∀ i ∈ items, i.Legal dq

/-- A reserved word that is the name of a function. -/
def ObjectName.IsFunctionWord (dq : Bool) (n : ObjectName) : Prop :=
  ∃ w k, n = ⟨[{ name := w }]⟩ ∧ TokenKind.ofWord? dq w = some (.keyword k) ∧ k ∈ functionWords

/-- The key of a field in braces. -/
def Ident.IsKey (dq : Bool) (i : Ident) : Prop :=
  i.Legal dq ∨ i.quote = some '\''

/-- A struct value of a dialect. -/
def StructValue.Legal (d : Dialect) (v : StructValue) : Prop :=
  v.style = d.structStyle ∧
    match v.style with
    | .bigQuery =>
      (∃ w, v.word = some w ∧ TokenKind.ofWord? d.dq w = some (.keyword .STRUCT)) ∧
        (∀ fields ∈ v.fields, (DataType.struct .angles fields).Legal d.dq) ∧
        (v.fields = none → v.arguments ≠ none) ∧
        ∀ items ∈ v.arguments, ∀ i ∈ items, i.Legal d.dq
    | .duckDb =>
      v.word = none ∧ (∀ fields ∈ v.fields, (DataType.struct .parens fields).Legal d.dq) ∧
        ∃ items, v.arguments = some items ∧
          ∀ i ∈ items, ∃ key : Ident, i.alias? = some (.implicit key) ∧ key.IsKey d.dq

/-- The types of a struct value are written in full, and no value runs into the colon behind its
key. -/
def StructValue.Faithful (dq : Bool) (v : StructValue) : Prop :=
  (∀ fields ∈ v.fields, (DataType.struct .parens fields).Faithful dq) ∧
    ∀ items ∈ v.arguments, ∀ i ∈ items,
      match v.style with
      | .bigQuery => i.Faithful
      | .duckDb => i.expr.layout.firstChar? ≠ some ':'

/-- Whether `EXCEPT` with columns to leave out stands ahead, as far as a dialect has it. -/
def opensExcept (d : Dialect) (l : Layout) : Bool :=
  d.wildcardExcept && kindAhead d.dq l 0 == .keyword .EXCEPT &&
    kindAhead d.dq l 1 == .symbol .leftParen &&
    !(kindAhead d.dq l 2 == .keyword .SELECT || kindAhead d.dq l 2 == .keyword .WITH)

/-- Columns left out of a wildcard, as a dialect has it. -/
def WildcardExcept.Legal (d : Dialect) (e : WildcardExcept) : Prop :=
  (match e.word with
    | .except => d.wildcardExcept = true
    | .exclude => d.wildcardExclude = true) ∧
    e.columns ≠ [] ∧ ∀ i ∈ e.columns, i.Legal d.dq

/-- Whether a body begins with a block. -/
def SetExpr.opens : SetExpr → Bool
  | .select _ => true
  | .combine _ _ left _ => left.opens
  | _ => false

/-- Whether a query begins with `SELECT` or `WITH`. -/
def Query.opens (q : Query) : Bool :=
  q.ctes.isSome || q.body.opens

/-! ## Expressions -/

/-- What the grammar makes of an expression, apart from the parts in it. -/
def Expr.Legal (d : Dialect) : Expr → Prop
  | .literal (.integer digits) => TokenKind.ofWord? d.dq digits = some (.integer digits)
  | .literal (.float digits) => TokenKind.ofWord? d.dq digits = some (.float digits)
  | .column c => c.Legal d.dq
  | .binary left op right =>
    leftPower op.precedence < left.rightEdge ∧ rightPower op.precedence ≤ right.leftEdge
  | .unary op operand => operandPower op ≤ operand.leftEdge
  | .call c => c.name.Legal d.dq ∨ c.name.IsFunctionWord d.dq
  | .struct v => v.Legal d
  | .subquery q => q.opens = true
  | .inList tested _ items => leftPower predicateLevel < tested.rightEdge ∧ items ≠ []
  | .inQuery tested _ q => leftPower predicateLevel < tested.rightEdge ∧ q.opens = true
  | .between tested _ low high =>
    leftPower predicateLevel < tested.rightEdge ∧ rightPower predicateLevel ≤ low.leftEdge ∧
      leftPower BinaryOp.and.precedence < low.rightEdge ∧
      rightPower predicateLevel ≤ high.leftEdge
  | .isNull tested _ => leftPower predicateLevel < tested.rightEdge
  | .like tested _ _ pattern =>
    leftPower predicateLevel < tested.rightEdge ∧ rightPower predicateLevel ≤ pattern.leftEdge
  | .caseWhen _ arms _ => arms ≠ []
  | .cast .function _ type => type.Legal d.dq
  | .cast .doubleColon operand type =>
    type.Legal d.dq ∧ castPower < operand.rightEdge ∧
      ascribe operand type = .cast .doubleColon operand type
  | .tuple items => 2 ≤ items.length
  | .placeholder (.named sigil _) => sigil = ':' ∨ sigil = '@'
  | .wildcard table except replace =>
    (∀ t ∈ table, t.Legal d.dq) ∧ (∀ e ∈ except, e.Legal d) ∧
      ∀ items ∈ replace, d.wildcardReplace = true ∧ SelectItem.LegalList d.dq items
  | _ => True

/-- The written form of an expression says all that the expression holds, apart from the parts in
it. -/
def Expr.Faithful (dq : Bool) : Expr → Prop
  | .placeholder (.named _ name) => Ident.Legal dq { name }
  | .cast .function _ type => type.Faithful dq
  | .cast .doubleColon operand type => type.Faithful dq ∧ parensBeforeCast operand = false
  | .struct v => v.Faithful dq
  | .wildcard _ _ replace => ∀ items ∈ replace, ∀ i ∈ items, i.Faithful
  | _ => True

/-! ## Queries -/

/-- A limit of a dialect. A row count or an offset that begins with `NULL` is taken for the limit
`NULL`. -/
def Limit.Legal (d : Dialect) (l : Limit) : Prop :=
  ((l.null = true ∧ l.all = false ∧ l.rowCount = none ∧ l.offset = none) ∨
    (l.null = false ∧ l.all = true ∧ l.rowCount = none ∧ l.offset = none) ∨
    (l.null = false ∧ l.all = false ∧ ∃ count, l.rowCount = some count ∧
      kindAhead d.dq (l.offset.getD count).layout.solid 0 ≠ .keyword .NULL)) ∧
    ∀ groups ∈ l.groups, d.limitBy = true ∧ groups ≠ []

/-- Named queries. Without the word `RECURSIVE` none of that name comes first. -/
def With.Legal (dq : Bool) (w : With) : Prop :=
  w.ctes ≠ [] ∧ (∀ c ∈ w.ctes, c.name.Legal dq ∧ ∀ i ∈ c.columns, i.Legal dq) ∧
    (w.recursive = false → ∀ c ∈ w.ctes.head?,
      TokenKind.ofWord? dq c.name.text ≠ some (.keyword .RECURSIVE))

/-- What the grammar makes of a query, apart from the parts in it. -/
def Query.Legal (d : Dialect) (q : Query) : Prop :=
  (∀ w ∈ q.ctes, w.Legal d.dq) ∧
    (∀ l ∈ q.limitBy, l.Legal d ∧ l.groups ≠ none) ∧
    (∀ l ∈ q.limit, l.Legal d ∧ (q.limitBy = none → l.groups = none))

/-- How tightly the outermost set operator of a body binds. -/
def SetExpr.level : SetExpr → Nat
  | .combine op _ _ _ => if op.bindsTighter then 1 else 0
  | _ => 2

/-- The level of a set operator. -/
def SetOperator.level (op : SetOperator) : Nat :=
  if op.bindsTighter then 1 else 0

/-- What the grammar makes of a body, apart from the parts in it. Behind a wildcard that ends the
left operand, `EXCEPT` with a parenthesis is taken for columns left out. -/
def SetExpr.Legal (d : Dialect) : SetExpr → Prop
  | .combine op quantifier left right =>
    op.level ≤ left.level ∧ op.level < right.level ∧
      (left.layout.getLast? = some (.symbol .star) →
        opensExcept d (.keyword op.keyword :: (quantifier.layout.solid ++ right.layout.solid)) =
          false)
  | .values rows => rows ≠ []
  | _ => True

/-- The columns that a join matches by. -/
def Join.Legal (dq : Bool) (j : Join) : Prop :=
  match j.constraint with
  | .using columns => columns ≠ [] ∧ ∀ i ∈ columns, i.Legal dq
  | _ => True

/-- What the grammar makes of a block, apart from the parts in it. -/
def Select.Legal (dq : Bool) (s : Select) : Prop :=
  SelectItem.LegalList dq s.items ∧ (s.source = none → s.joins = []) ∧
    ∀ j ∈ s.joins, j.Legal dq

/-! ## Items to read from -/

/-- What the grammar makes of a source of rows, apart from the parts in it. -/
def Relation.Legal (dq : Bool) : Relation → Prop
  | .table name => name.Legal dq
  | .query q => q.opens = true
  | .lateral _ => True
  | .function lead c => (lead = none ∨ lead = some Keyword.LATERAL.text) ∧ c.name.Legal dq
  | .joined _ joins => ∀ j ∈ joins, j.Legal dq
  | .values rows => rows ≠ []

/-- Rows turned into columns as they are read. -/
def Pivot.Legal (dq : Bool) (p : Pivot) : Prop :=
  SelectItem.LegalList dq p.aggregates ∧ (p.columns ≠ [] ∧ ∀ c ∈ p.columns, c.Legal dq) ∧
    SelectItem.LegalList dq p.items ∧ ∀ a ∈ p.alias?, a.Legal dq ∧ a.columns = []

/-- Columns turned into rows as they are read. -/
def Unpivot.Legal (dq : Bool) (u : Unpivot) : Prop :=
  (u.valueColumns ≠ [] ∧ ∀ i ∈ u.valueColumns, i.Legal dq) ∧
    (u.nameColumns ≠ [] ∧ ∀ i ∈ u.nameColumns, i.Legal dq) ∧
    SelectItem.LegalList dq u.items ∧ ∀ a ∈ u.alias?, a.Legal dq ∧ a.columns = []

/-- What the grammar makes of an item to read from, apart from the parts in it. -/
def FromItem.Legal (dq : Bool) (i : FromItem) : Prop :=
  i.relation.Legal dq ∧ (∀ a ∈ i.alias?, a.Legal dq) ∧ (∀ p ∈ i.pivot, p.Legal dq) ∧
    ∀ u ∈ i.unpivot, u.Legal dq

/-- No bare alias in what stands behind an item is read with a type. -/
def FromItem.Faithful (i : FromItem) : Prop :=
  (∀ p ∈ i.pivot, ∀ s ∈ p.aggregates ++ p.items, s.Faithful) ∧
    ∀ u ∈ i.unpivot, ∀ s ∈ u.items, s.Faithful

/-! ## Parts -/

namespace Part

/-- What the grammar of a dialect makes of a part, apart from the parts in it. -/
def Legal (d : Dialect) : Part → Prop
  | .expr e => e.Legal d
  | .query q => q.Legal d
  | .body b => b.Legal d
  | .block s => s.Legal d.dq
  | .item i => i.Legal d.dq

/-- The written form of a part says all that the part holds, apart from the parts in it. -/
def Faithful (d : Dialect) : Part → Prop
  | .expr e => e.Faithful d.dq
  | .block s => ∀ i ∈ s.items, i.Faithful
  | .item i => i.Faithful
  | _ => True

/-- A part that is read back from its written form. -/
def Clear (d : Dialect) (p : Part) : Prop :=
  p.Legal d ∧ p.Faithful d

end Part

/-- Every part of an expression is read back. -/
abbrev Expr.Clear (d : Dialect) (e : Expr) : Prop :=
  (Part.expr e).Obeys (Part.Clear d)

/-- Every part of a query is read back. -/
abbrev Query.Clear (d : Dialect) (q : Query) : Prop :=
  (Part.query q).Obeys (Part.Clear d)

/-- Every part of an item to read from is read back. -/
abbrev FromItem.Clear (d : Dialect) (i : FromItem) : Prop :=
  (Part.item i).Obeys (Part.Clear d)

end SqlTree
