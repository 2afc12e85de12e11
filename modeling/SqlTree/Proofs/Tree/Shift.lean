import SqlTree.Statement.Basic

/-! # Trees with other numbers

A tree read behind other statements differs from the same tree read alone in the numbers of its
question marks only.

* `Expr.shift n`, `Query.shift n`, `Statement.shift n` and one function for each smaller part: the
  tree whose numbers are greater by `n`.
* `Expr.shifts_eq_map`, `Query.shift_mk` and the like: each part is changed by itself.
-/

namespace SqlTree
set_option autoImplicit false

/-- The place with a number greater by `n`. A name stays. -/
def Placeholder.shift (n : Nat) : Placeholder → Placeholder
  | .positional number => .positional (number + n)
  | .named sigil name => .named sigil name

/-! ## Expressions and queries -/

mutual

/-- The expression with numbers greater by `n`. -/
def Expr.shift (n : Nat) : Expr → Expr
  | .literal value => .literal value
  | .column ref => .column ref
  | .binary left op right => .binary (left.shift n) op (right.shift n)
  | .unary op operand => .unary op (operand.shift n)
  | .call call => .call (call.shift n)
  | .array withWord elements => .array withWord (Expr.shifts n elements)
  | .struct value => .struct (value.shift n)
  | .subquery query => .subquery (query.shift n)
  | .existsQuery query => .existsQuery (query.shift n)
  | .inList tested negated items => .inList (tested.shift n) negated (Expr.shifts n items)
  | .inQuery tested negated query => .inQuery (tested.shift n) negated (query.shift n)
  | .between tested negated low high =>
    .between (tested.shift n) negated (low.shift n) (high.shift n)
  | .isNull tested negated => .isNull (tested.shift n) negated
  | .like tested negated caseless pattern =>
    .like (tested.shift n) negated caseless (pattern.shift n)
  | .caseWhen operand arms otherwise =>
    .caseWhen (Expr.shift? n operand) (WhenArm.shifts n arms) (Expr.shift? n otherwise)
  | .cast style operand type => .cast style (operand.shift n) type
  | .nested inner => .nested (inner.shift n)
  | .tuple items => .tuple (Expr.shifts n items)
  | .placeholder place => .placeholder (place.shift n)
  | .wildcard table except replace => .wildcard table except (SelectItem.shifts? n replace)

def Expr.shifts (n : Nat) : List Expr → List Expr
  | [] => []
  | e :: es => e.shift n :: Expr.shifts n es

def Expr.shift? (n : Nat) : Option Expr → Option Expr
  | none => none
  | some e => some (e.shift n)

def Expr.shiftRows (n : Nat) : List (List Expr) → List (List Expr)
  | [] => []
  | row :: rows => Expr.shifts n row :: Expr.shiftRows n rows

def SelectItem.shift (n : Nat) : SelectItem → SelectItem
  | ⟨expr, alias?⟩ => ⟨expr.shift n, alias?⟩

def SelectItem.shifts (n : Nat) : List SelectItem → List SelectItem
  | [] => []
  | i :: is => i.shift n :: SelectItem.shifts n is

def SelectItem.shifts? (n : Nat) : Option (List SelectItem) → Option (List SelectItem)
  | none => none
  | some is => some (SelectItem.shifts n is)

def FunctionCall.shift (n : Nat) : FunctionCall → FunctionCall
  | ⟨name, distinct, arguments⟩ => ⟨name, distinct, Expr.shifts n arguments⟩

def StructValue.shift (n : Nat) : StructValue → StructValue
  | ⟨style, word, fields, arguments⟩ => ⟨style, word, fields, SelectItem.shifts? n arguments⟩

def WhenArm.shift (n : Nat) : WhenArm → WhenArm
  | ⟨condition, result⟩ => ⟨condition.shift n, result.shift n⟩

def WhenArm.shifts (n : Nat) : List WhenArm → List WhenArm
  | [] => []
  | a :: arms => a.shift n :: WhenArm.shifts n arms

/-- The query with numbers greater by `n`. -/
def Query.shift (n : Nat) : Query → Query
  | ⟨ctes, body, orderBy, limitBy, limit, offset⟩ =>
    ⟨match ctes with
      | none => none
      | some w => some (w.shift n),
     body.shift n, OrderItem.shifts n orderBy, Limit.shift? n limitBy, Limit.shift? n limit,
     match offset with
      | none => none
      | some o => some (o.shift n)⟩

def With.shift (n : Nat) : With → With
  | ⟨recursive, ctes⟩ => ⟨recursive, Cte.shifts n ctes⟩

def Cte.shift (n : Nat) : Cte → Cte
  | ⟨name, columns, query⟩ => ⟨name, columns, query.shift n⟩

def Cte.shifts (n : Nat) : List Cte → List Cte
  | [] => []
  | c :: cs => c.shift n :: Cte.shifts n cs

def SetExpr.shift (n : Nat) : SetExpr → SetExpr
  | .select block => .select (block.shift n)
  | .parens query => .parens (query.shift n)
  | .combine op quantifier left right => .combine op quantifier (left.shift n) (right.shift n)
  | .values rows => .values (Expr.shiftRows n rows)

def Select.shift (n : Nat) : Select → Select
  | ⟨distinct, items, source, joins, condition, groupBy, having, qualify⟩ =>
    ⟨distinct, SelectItem.shifts n items, FromItem.shift? n source, Join.shifts n joins,
     Expr.shift? n condition, Expr.shifts n groupBy, Expr.shift? n having, Expr.shift? n qualify⟩

def OrderItem.shift (n : Nat) : OrderItem → OrderItem
  | ⟨expr, direction, nulls⟩ => ⟨expr.shift n, direction, nulls⟩

def OrderItem.shifts (n : Nat) : List OrderItem → List OrderItem
  | [] => []
  | o :: os => o.shift n :: OrderItem.shifts n os

def Limit.shift (n : Nat) : Limit → Limit
  | ⟨rowCount, offset, all, null, groups⟩ =>
    ⟨Expr.shift? n rowCount, Expr.shift? n offset, all, null,
     match groups with
      | none => none
      | some es => some (Expr.shifts n es)⟩

def Limit.shift? (n : Nat) : Option Limit → Option Limit
  | none => none
  | some l => some (l.shift n)

def Offset.shift (n : Nat) : Offset → Offset
  | ⟨count, word⟩ => ⟨count.shift n, word⟩

/-- What a query reads from, with numbers greater by `n`. -/
def FromItem.shift (n : Nat) : FromItem → FromItem
  | ⟨relation, alias?, pivot, unpivot⟩ =>
    ⟨relation.shift n, alias?,
     match pivot with
      | none => none
      | some p => some (p.shift n),
     match unpivot with
      | none => none
      | some u => some (u.shift n)⟩

def FromItem.shift? (n : Nat) : Option FromItem → Option FromItem
  | none => none
  | some i => some (i.shift n)

def Relation.shift (n : Nat) : Relation → Relation
  | .table name => .table name
  | .query query => .query (query.shift n)
  | .lateral query => .lateral (query.shift n)
  | .function lead call => .function lead (call.shift n)
  | .joined item joins => .joined (item.shift n) (Join.shifts n joins)
  | .values rows => .values (Expr.shiftRows n rows)

def Join.shift (n : Nat) : Join → Join
  | ⟨kind, item, constraint⟩ => ⟨kind, item.shift n, constraint.shift n⟩

def Join.shifts (n : Nat) : List Join → List Join
  | [] => []
  | j :: js => j.shift n :: Join.shifts n js

def JoinConstraint.shift (n : Nat) : JoinConstraint → JoinConstraint
  | .on condition => .on (condition.shift n)
  | .using columns => .using columns
  | .none => .none

def Pivot.shift (n : Nat) : Pivot → Pivot
  | ⟨aggregates, columns, items, alias?⟩ =>
    ⟨SelectItem.shifts n aggregates, columns, SelectItem.shifts n items, alias?⟩

def Unpivot.shift (n : Nat) : Unpivot → Unpivot
  | ⟨includeNulls, valueColumns, nameColumns, items, alias?⟩ =>
    ⟨includeNulls, valueColumns, nameColumns, SelectItem.shifts n items, alias?⟩

end

section Parts

variable (n : Nat)

@[simp]
theorem Expr.shifts_eq_map (es : List Expr) : Expr.shifts n es = es.map (Expr.shift n) := by
  induction es with
  | nil => rfl
  | cons e es ih => rw [Expr.shifts, ih, List.map_cons]

@[simp]
theorem Expr.shift?_eq_map (e? : Option Expr) : Expr.shift? n e? = e?.map (Expr.shift n) := by
  cases e? <;> rfl

@[simp]
theorem Expr.shiftRows_eq_map (rows : List (List Expr)) :
    Expr.shiftRows n rows = rows.map (List.map (Expr.shift n)) := by
  induction rows with
  | nil => rfl
  | cons row rows ih => rw [Expr.shiftRows, ih, Expr.shifts_eq_map, List.map_cons]

@[simp]
theorem SelectItem.shifts_eq_map (is : List SelectItem) :
    SelectItem.shifts n is = is.map (SelectItem.shift n) := by
  induction is with
  | nil => rfl
  | cons i is ih => rw [SelectItem.shifts, ih, List.map_cons]

@[simp]
theorem SelectItem.shifts?_eq_map (is? : Option (List SelectItem)) :
    SelectItem.shifts? n is? = is?.map (List.map (SelectItem.shift n)) := by
  cases is? with
  | none => rfl
  | some is => rw [SelectItem.shifts?, SelectItem.shifts_eq_map, Option.map_some]

@[simp]
theorem WhenArm.shifts_eq_map (arms : List WhenArm) :
    WhenArm.shifts n arms = arms.map (WhenArm.shift n) := by
  induction arms with
  | nil => rfl
  | cons a arms ih => rw [WhenArm.shifts, ih, List.map_cons]

@[simp]
theorem Cte.shifts_eq_map (cs : List Cte) : Cte.shifts n cs = cs.map (Cte.shift n) := by
  induction cs with
  | nil => rfl
  | cons c cs ih => rw [Cte.shifts, ih, List.map_cons]

@[simp]
theorem OrderItem.shifts_eq_map (os : List OrderItem) :
    OrderItem.shifts n os = os.map (OrderItem.shift n) := by
  induction os with
  | nil => rfl
  | cons o os ih => rw [OrderItem.shifts, ih, List.map_cons]

@[simp]
theorem Limit.shift?_eq_map (l? : Option Limit) : Limit.shift? n l? = l?.map (Limit.shift n) := by
  cases l? <;> rfl

@[simp]
theorem FromItem.shift?_eq_map (i? : Option FromItem) :
    FromItem.shift? n i? = i?.map (FromItem.shift n) := by
  cases i? <;> rfl

@[simp]
theorem Join.shifts_eq_map (js : List Join) : Join.shifts n js = js.map (Join.shift n) := by
  induction js with
  | nil => rfl
  | cons j js ih => rw [Join.shifts, ih, List.map_cons]

theorem Query.shift_mk (ctes : Option With) (body : SetExpr) (orderBy : List OrderItem)
    (limitBy limit : Option Limit) (offset : Option Offset) :
    Query.shift n ⟨ctes, body, orderBy, limitBy, limit, offset⟩ =
      ⟨ctes.map (With.shift n), body.shift n, orderBy.map (OrderItem.shift n),
       limitBy.map (Limit.shift n), limit.map (Limit.shift n), offset.map (Offset.shift n)⟩ := by
  cases ctes <;> cases offset <;> simp [Query.shift]

theorem Limit.shift_mk (rowCount offset : Option Expr) (all null : Bool)
    (groups : Option (List Expr)) :
    Limit.shift n ⟨rowCount, offset, all, null, groups⟩ =
      ⟨rowCount.map (Expr.shift n), offset.map (Expr.shift n), all, null,
       groups.map (List.map (Expr.shift n))⟩ := by
  cases groups <;> simp [Limit.shift]

theorem FromItem.shift_mk (relation : Relation) (alias? : Option Alias) (pivot : Option Pivot)
    (unpivot : Option Unpivot) :
    FromItem.shift n ⟨relation, alias?, pivot, unpivot⟩ =
      ⟨relation.shift n, alias?, pivot.map (Pivot.shift n), unpivot.map (Unpivot.shift n)⟩ := by
  cases pivot <;> cases unpivot <;> simp [FromItem.shift]

end Parts

@[simp]
theorem Expr.isWildcard_shift (n : Nat) (e : Expr) : (e.shift n).isWildcard = e.isWildcard := by
  cases e <;> simp [Expr.shift, Expr.isWildcard]

/-! ## Statements -/

section Statements

variable (n : Nat)

def Assignment.shift (a : Assignment) : Assignment :=
  { a with value := a.value.shift n }

def InsertSource.shift : InsertSource → InsertSource
  | .values rows => .values (rows.map (List.map (Expr.shift n)))
  | .query q => .query (q.shift n)
  | .defaultValues => .defaultValues

def ConflictAction.shift : ConflictAction → ConflictAction
  | .doNothing => .doNothing
  | .doUpdate assignments => .doUpdate (assignments.map (Assignment.shift n))

def OnConflict.shift (c : OnConflict) : OnConflict :=
  { c with action := c.action.shift n }

def Insert.shift (i : Insert) : Insert :=
  { i with source := i.source.shift n, onConflict := i.onConflict.map (OnConflict.shift n) }

def Update.shift (u : Update) : Update :=
  { u with
    assignments := u.assignments.map (Assignment.shift n)
    source := u.source.map (FromItem.shift n)
    joins := u.joins.map (Join.shift n)
    condition := u.condition.map (Expr.shift n) }

def Delete.shift (d : Delete) : Delete :=
  { d with condition := d.condition.map (Expr.shift n) }

def ColumnDef.shift (c : ColumnDef) : ColumnDef :=
  { c with default := c.default.map (Expr.shift n) }

def ConstraintRule.shift : ConstraintRule → ConstraintRule
  | .check condition => .check (condition.shift n)
  | rule => rule

def TableConstraint.shift (c : TableConstraint) : TableConstraint :=
  { c with rule := c.rule.shift n }

def CreateTable.shift (c : CreateTable) : CreateTable :=
  { c with
    columns := c.columns.map (ColumnDef.shift n)
    constraints := c.constraints.map (TableConstraint.shift n)
    query := c.query.map (Query.shift n) }

def ColumnChange.shift : ColumnChange → ColumnChange
  | .setDefault value => .setDefault (value.shift n)
  | change => change

def TableChange.shift : TableChange → TableChange
  | .addColumn withColumn ifNotExists column => .addColumn withColumn ifNotExists (column.shift n)
  | .alterColumn name change => .alterColumn name (change.shift n)
  | .addConstraint constraint => .addConstraint (constraint.shift n)
  | change => change

def AlterTable.shift (a : AlterTable) : AlterTable :=
  { a with changes := a.changes.map (TableChange.shift n) }

/-- The statement with numbers greater by `n`. A text kept as written has no numbers. -/
def Statement.shift : Statement → Statement
  | .query q => .query (q.shift n)
  | .insert i => .insert (i.shift n)
  | .update u => .update (u.shift n)
  | .delete d => .delete (d.shift n)
  | .createTable c => .createTable (c.shift n)
  | .alterTable a => .alterTable (a.shift n)
  | .show request => .show request
  | .unsupported text => .unsupported text

end Statements

end SqlTree
