import Mathlib
import SqlTree.Statement.Basic

/-! # The parts of a tree

Expressions, queries, bodies, blocks and items to read from hold one another. A property of a whole
tree is a property of each of these parts in it.

* `Part`: a part, with the parts right below it in `Part.children`.
* `Part.Within q p`: the part `q` stands somewhere in `p`, or is `p`.
* `Part.Obeys law p`: every part within `p` satisfies `law`.
* `Statement.parts`: the outermost parts of a statement.
-/

namespace SqlTree
set_option autoImplicit false

/-- A part of a tree. -/
inductive Part where
  | expr (e : Expr)
  | query (q : Query)
  | body (b : SetExpr)
  | block (s : Select)
  | item (i : FromItem)

/-! ## The parts below a part -/

/-- The parts that some expressions are. -/
def Part.exprs (es : List Expr) : List Part :=
  es.map .expr

/-- The parts in some items with aliases. -/
def SelectItem.parts (items : List SelectItem) : List Part :=
  items.map fun i => .expr i.expr

/-- The parts in rows of values. -/
def Part.ofRows (rows : List (List Expr)) : List Part :=
  Part.exprs rows.flatten

/-- The parts right below an expression, in the order of the text. -/
def Expr.children : Expr → List Part
  | .literal _ | .column _ | .placeholder _ => []
  | .binary left _ right => [.expr left, .expr right]
  | .unary _ operand => [.expr operand]
  | .call c => Part.exprs c.arguments
  | .array _ elements => Part.exprs elements
  | .struct value => SelectItem.parts (value.arguments.getD [])
  | .subquery q | .existsQuery q => [.query q]
  | .inList tested _ items => .expr tested :: Part.exprs items
  | .inQuery tested _ q => [.expr tested, .query q]
  | .between tested _ low high => [.expr tested, .expr low, .expr high]
  | .isNull tested _ => [.expr tested]
  | .like tested _ _ pattern => [.expr tested, .expr pattern]
  | .caseWhen operand arms otherwise =>
    Part.exprs operand.toList ++ arms.flatMap (fun a => [.expr a.condition, .expr a.result]) ++
      Part.exprs otherwise.toList
  | .cast _ operand _ => [.expr operand]
  | .nested inner => [.expr inner]
  | .tuple items => Part.exprs items
  | .wildcard _ _ replace => SelectItem.parts (replace.getD [])

/-- The parts in a limit. -/
def Limit.parts (l : Limit) : List Part :=
  Part.exprs (l.offset.toList ++ l.rowCount.toList ++ l.groups.getD [])

/-- The parts right below a query. -/
def Query.children (q : Query) : List Part :=
  (q.ctes.elim [] fun w => w.ctes.map fun c => .query c.query) ++ [.body q.body] ++
    (q.orderBy.map fun o => .expr o.expr) ++ q.limitBy.elim [] Limit.parts ++
    q.limit.elim [] Limit.parts ++ q.offset.elim [] (fun o => [.expr o.count])

/-- The parts right below the body of a query. -/
def SetExpr.children : SetExpr → List Part
  | .select block => [.block block]
  | .parens q => [.query q]
  | .combine _ _ left right => [.body left, .body right]
  | .values rows => Part.ofRows rows

/-- The parts in a joined item. -/
def Join.parts (j : Join) : List Part :=
  .item j.item ::
    match j.constraint with
    | .on condition => [.expr condition]
    | _ => []

/-- The parts right below a block. -/
def Select.children (s : Select) : List Part :=
  SelectItem.parts s.items ++ s.source.toList.map .item ++ s.joins.flatMap Join.parts ++
    Part.exprs (s.condition.toList ++ s.groupBy ++ s.having.toList ++ s.qualify.toList)

/-- The parts in a source of rows. -/
def Relation.parts : Relation → List Part
  | .table _ => []
  | .query q | .lateral q => [.query q]
  | .function _ c => Part.exprs c.arguments
  | .joined item joins => .item item :: joins.flatMap Join.parts
  | .values rows => Part.ofRows rows

/-- The parts right below an item to read from. -/
def FromItem.children (i : FromItem) : List Part :=
  i.relation.parts ++ i.pivot.elim [] (fun p => SelectItem.parts (p.aggregates ++ p.items)) ++
    i.unpivot.elim [] (fun u => SelectItem.parts u.items)

namespace Part

/-- The parts right below a part. -/
def children : Part → List Part
  | .expr e => e.children
  | .query q => q.children
  | .body b => b.children
  | .block s => s.children
  | .item i => i.children

/-! ## Properties of all parts -/

/-- A part stands somewhere in another one, or is that one. -/
inductive Within : Part → Part → Prop where
  | refl {p} : Within p p
  | child {q p c} (hc : c ∈ p.children) (h : Within q c) : Within q p

/-- Every part of a tree satisfies a law. -/
def Obeys (law : Part → Prop) (p : Part) : Prop :=
  ∀ q, Within q p → law q

variable {law law' : Part → Prop} {p q r : Part}

theorem Within.trans (h : Within r q) (h' : Within q p) : Within r p := by
  induction h' with
  | refl => exact h
  | child hc _ ih => exact .child hc ih

theorem obeys_iff : Obeys law p ↔ law p ∧ ∀ c ∈ p.children, Obeys law c := by
  constructor
  · intro h
    exact ⟨h p .refl, fun c hc q hq => h q (.child hc hq)⟩
  · rintro ⟨hp, hc⟩ q hq
    cases hq with
    | refl => exact hp
    | child hm hq => exact hc _ hm q hq

theorem Obeys.head (h : Obeys law p) : law p :=
  h p .refl

theorem Obeys.child (h : Obeys law p) (hq : q ∈ p.children) : Obeys law q :=
  (obeys_iff.1 h).2 q hq

theorem Obeys.mono (h : Obeys law p) (hl : ∀ q, law q → law' q) : Obeys law' p :=
  fun q hq => hl q (h q hq)

theorem Obeys.and (h : Obeys law p) (h' : Obeys law' p) : Obeys (fun q => law q ∧ law' q) p :=
  fun q hq => ⟨h q hq, h' q hq⟩

theorem Obeys.within (h : Obeys law p) (hq : Within q p) : Obeys law q :=
  fun r hr => h r (hr.trans hq)

end Part

/-! ## The parts of a statement -/

/-- The parts in the default of a column. -/
def ColumnDef.parts (c : ColumnDef) : List Part :=
  Part.exprs c.default.toList

/-- The parts in a condition on the rows of a table. -/
def TableConstraint.parts (c : TableConstraint) : List Part :=
  match c.rule with
  | .check condition => [.expr condition]
  | _ => []

/-- The parts in values that are set. -/
def Assignment.parts (assignments : List Assignment) : List Part :=
  assignments.map fun a => .expr a.value

/-- The parts in what is inserted. -/
def InsertSource.parts : InsertSource → List Part
  | .values rows => Part.ofRows rows
  | .query q => [.query q]
  | .defaultValues => []

/-- The parts in what happens to a row that is there already. -/
def ConflictAction.parts : ConflictAction → List Part
  | .doNothing => []
  | .doUpdate assignments => Assignment.parts assignments

/-- The parts in a change to a table. -/
def TableChange.parts : TableChange → List Part
  | .addColumn _ _ column => column.parts
  | .alterColumn _ (.setDefault value) => [.expr value]
  | .addConstraint constraint => constraint.parts
  | _ => []

/-- The outermost parts of a statement, in the order in which it is written. -/
def Statement.parts : Statement → List Part
  | .query q => [.query q]
  | .insert i => i.source.parts ++ i.onConflict.elim [] fun c => c.action.parts
  | .update u =>
    Assignment.parts u.assignments ++ u.source.toList.map .item ++ u.joins.flatMap Join.parts ++
      Part.exprs u.condition.toList
  | .delete d => Part.exprs d.condition.toList
  | .createTable c =>
    c.columns.flatMap ColumnDef.parts ++ c.constraints.flatMap TableConstraint.parts ++
      c.query.toList.map .query
  | .alterTable a => a.changes.flatMap TableChange.parts
  | .show _ => []
  | .unsupported _ => []

/-- Every part of a statement satisfies a law. -/
def Statement.Obeys (law : Part → Prop) (s : Statement) : Prop :=
  ∀ p ∈ s.parts, p.Obeys law

/-- An expression stands somewhere in a statement. -/
def Statement.Contains (s : Statement) (e : Expr) : Prop :=
  ∃ p ∈ s.parts, Part.Within (.expr e) p

end SqlTree
