import Mathlib
import SqlTree.Proofs.Parsing.Name
import SqlTree.Proofs.Reading.Follow

/-! # The form of trees that are read

* `Part.Formed d`: the form that the grammar of a dialect gives to a part, whatever the names in it
  are. Operands hold as tightly as their operators, limits and struct values are complete.
* `Cursor.reach`: the power on the left of what goes on with an expression in front of a cursor.
* `Productions.Agree d g g'`: at places that look alike the readers `g'` answer what `g` answers,
  and all parts of the answers have that form.
-/

namespace SqlTree
set_option autoImplicit false

open Parse

/-! ## Forms -/

/-- A struct value of a dialect has a word and something behind it, or keys for all its values. -/
def StructValue.Formed (d : Dialect) (v : StructValue) : Prop :=
  v.style = d.structStyle ∧
    match v.style with
    | .bigQuery => v.word ≠ none ∧ (v.fields = none → v.arguments ≠ none)
    | .duckDb =>
      (∀ fields ∈ v.fields, ∀ f ∈ fields, f.name ≠ none) ∧
        ∃ items, v.arguments = some items ∧ ∀ i ∈ items, i.alias? ≠ none

/-- Every operand holds as tightly as its operator, on the side where that stands. -/
def Expr.Formed (d : Dialect) : Expr → Prop
  | .binary left op right =>
    leftPower op.precedence < left.rightEdge ∧ rightPower op.precedence ≤ right.leftEdge
  | .unary op operand => operandPower op ≤ operand.leftEdge
  | .struct v => v.Formed d
  | .inList tested _ items => leftPower predicateLevel < tested.rightEdge ∧ items ≠ []
  | .inQuery tested _ _ => leftPower predicateLevel < tested.rightEdge
  | .between tested _ low high =>
    leftPower predicateLevel < tested.rightEdge ∧ rightPower predicateLevel ≤ low.leftEdge ∧
      rightPower predicateLevel ≤ high.leftEdge
  | .isNull tested _ => leftPower predicateLevel < tested.rightEdge
  | .like tested _ _ pattern =>
    leftPower predicateLevel < tested.rightEdge ∧ rightPower predicateLevel ≤ pattern.leftEdge
  | .caseWhen _ arms _ => arms ≠ []
  | .cast .doubleColon operand _ => castPower < operand.rightEdge
  | .tuple items => 2 ≤ items.length
  | _ => True

/-- A limit says one of three things, and an offset stands only beside a row count. -/
def Limit.Formed (d : Dialect) (l : Limit) : Prop :=
  ((l.null = true ∧ l.all = false ∧ l.rowCount = none ∧ l.offset = none) ∨
    (l.null = false ∧ l.all = true ∧ l.rowCount = none ∧ l.offset = none) ∨
    (l.null = false ∧ l.all = false ∧ l.rowCount ≠ none)) ∧
    ∀ groups ∈ l.groups, d.limitBy = true ∧ groups ≠ []

/-- A limit for each group has groups. Another one has groups only beside it. -/
def Query.Formed (d : Dialect) (q : Query) : Prop :=
  (∀ w ∈ q.ctes, w.ctes ≠ []) ∧ (∀ l ∈ q.limitBy, l.Formed d ∧ l.groups ≠ none) ∧
    ∀ l ∈ q.limit, l.Formed d ∧ (q.limitBy = none → l.groups = none)

/-- Rows of values are never missing. -/
def SetExpr.Formed : SetExpr → Prop
  | .values rows => rows ≠ []
  | _ => True

/-- The form that the grammar of a dialect gives to a part. -/
def Part.Formed (d : Dialect) : Part → Prop
  | .expr e => e.Formed d
  | .query q => q.Formed d
  | .body b => b.Formed
  | .block s => s.items ≠ [] ∧ (s.source = none → s.joins = [])
  | .item _ => True

/-- Every part within a part has the form of the grammar. -/
abbrev Part.AllFormed (d : Dialect) (p : Part) : Prop :=
  p.Obeys (Part.Formed d)

/-! ## In front of a cursor -/

/-- The power on the left of what goes on with an expression in front of a cursor. -/
def Cursor.reach (c : Cursor) : Option Nat :=
  reachOf c.current.kind (c.peek 1)

/-- What stands in front of a cursor takes nothing of an expression that was read from a power on. -/
structure Expr.EndsAt (power : Nat) (e : Expr) (c : Cursor) : Prop where
  left : power ≤ e.leftEdge
  right : ∀ k ∈ c.reach, k < e.rightEdge

/-- At places that look alike the second readers answer what the first ones answer. -/
structure Productions.Agree (d : Dialect) (g g' : Productions) : Prop where
  expr : ∀ power ≤ castPower, ∀ c c', c.Alike c' →
    Matches (fun e c => (Part.expr e).AllFormed d ∧ e.EndsAt power c ∧ ∀ k ∈ c.reach, k < power)
      (g.expr power c) (g'.expr power c')
  query : Agrees g.query g'.query fun q => (Part.query q).AllFormed d
  fromItem : Agrees g.fromItem g'.fromItem fun i => (Part.item i).AllFormed d

theorem Productions.agree_exhausted (d : Dialect) (g : Productions) : exhausted.Agree d g :=
  ⟨fun _ _ c _ _ => .error _ c _, .stop _ _, .stop _ _⟩

end SqlTree
