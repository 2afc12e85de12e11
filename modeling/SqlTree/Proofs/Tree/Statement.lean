import Mathlib
import SqlTree.Proofs.Parsing.DataType
import SqlTree.Proofs.Tree.Law
import SqlTree.Statement.Basic

/-! # What statements that are read satisfy

* `Ident.Plain`: the written name is one token, and no keyword. `ObjectName.Plain`, `Alias.Plain`.
* `Insert.Plain`, `Update.Plain`, …: what the grammar makes of a statement of each kind, its names
  being plain, apart from the parts in it.
* `Statement.Plain`: the same for any statement.
-/

namespace SqlTree
set_option autoImplicit false

variable (dq : Bool)

/-! ## Names -/

/-- The written name is one token that is this name and no keyword. -/
def Ident.Plain (i : Ident) : Prop :=
  TokenKind.ofWord? dq i.text = some (.identifier i.name i.quote)

instance (i : Ident) : Decidable (i.Plain dq) :=
  inferInstanceAs (Decidable (TokenKind.ofWord? dq i.text = some (.identifier i.name i.quote)))

/-- One or more plain names. -/
def ObjectName.Plain (n : ObjectName) : Prop :=
  n.parts ≠ [] ∧ ∀ i ∈ n.parts, i.Plain dq

/-- Another plain name, without names for columns. -/
def Alias.Plain (a : Alias) : Prop :=
  a.name.Plain dq ∧ a.columns = []

/-! ## Changing rows -/

/-- One or more values that are set. -/
def Assignment.PlainList (assignments : List Assignment) : Prop :=
  assignments ≠ [] ∧ ∀ a ∈ assignments, a.column.Plain dq

/-- There are rows, or the query begins with a word. -/
def InsertSource.Plain : InsertSource → Prop
  | .values rows => rows ≠ []
  | .query q => q.opens = true
  | .defaultValues => True

/-- What happens to rows that are there already. -/
def OnConflict.Plain (c : OnConflict) : Prop :=
  (∀ i ∈ c.columns, i.Plain dq) ∧
    match c.action with
    | .doNothing => True
    | .doUpdate assignments => Assignment.PlainList dq assignments

/-- An `INSERT` statement. Behind a query nothing is said about rows that are there already. -/
def Insert.Plain (i : Insert) : Prop :=
  i.table.Plain dq ∧ (∀ c ∈ i.columns, c.Plain dq) ∧ i.source.Plain ∧
    (∀ c ∈ i.onConflict, c.Plain dq) ∧ ∀ q, i.source = .query q → i.onConflict = none

/-- An item joined by a condition, by columns with plain names, or by nothing. -/
def Join.Plain (j : Join) : Prop :=
  match j.constraint with
  | .using columns => columns ≠ [] ∧ ∀ i ∈ columns, i.Plain dq
  | _ => True

/-- An `UPDATE` statement. Items are joined only to a source. -/
def Update.Plain (u : Update) : Prop :=
  u.table.Plain dq ∧ (∀ a ∈ u.alias?, a.Plain dq) ∧ Assignment.PlainList dq u.assignments ∧
    (u.source = none → u.joins = []) ∧ ∀ j ∈ u.joins, j.Plain dq

/-- The same, with any legal names for the columns that joins match by. -/
def Update.Legal (u : Update) : Prop :=
  u.table.Plain dq ∧ (∀ a ∈ u.alias?, a.Plain dq) ∧ Assignment.PlainList dq u.assignments ∧
    (u.source = none → u.joins = []) ∧ ∀ j ∈ u.joins, j.Legal dq

/-- A `DELETE` statement. -/
def Delete.Plain (s : Delete) : Prop :=
  s.table.Plain dq ∧ ∀ a ∈ s.alias?, a.Plain dq

/-! ## Declaring tables -/

/-- The table and columns that a foreign key refers to. -/
def ForeignKeyRef.Plain (r : ForeignKeyRef) : Prop :=
  r.table.Plain dq ∧ ∀ i ∈ r.columns, i.Plain dq

/-- A column, with a type that is read back from its text. -/
def ColumnDef.Plain (c : ColumnDef) : Prop :=
  c.name.Plain dq ∧ c.type.ReadsBack dq ∧ ∀ r ∈ c.references, r.Plain dq

/-- A condition on the rows of a table. -/
def ConstraintRule.Plain : ConstraintRule → Prop
  | .primaryKey columns => columns ≠ [] ∧ ∀ i ∈ columns, i.Plain dq
  | .unique columns => columns ≠ [] ∧ ∀ i ∈ columns, i.Plain dq
  | .foreignKey columns references =>
    (columns ≠ [] ∧ ∀ i ∈ columns, i.Plain dq) ∧ references.Plain dq
  | .check _ => True

/-- A condition on the rows of a table, with its name. -/
def TableConstraint.Plain (c : TableConstraint) : Prop :=
  (∀ i ∈ c.name, i.Plain dq) ∧ c.rule.Plain dq

/-- A `CREATE TABLE` statement that says at least something about the table. -/
def CreateTable.Plain (c : CreateTable) : Prop :=
  c.name.Plain dq ∧ (∀ column ∈ c.columns, column.Plain dq) ∧
    (∀ constraint ∈ c.constraints, constraint.Plain dq) ∧
    (c.columns ≠ [] ∨ c.constraints ≠ [] ∨ c.query ≠ none)

/-- A change to a declared column. -/
def ColumnChange.Plain : ColumnChange → Prop
  | .setType type => type.ReadsBack dq
  | _ => True

/-- A change to a declared table. -/
def TableChange.Plain : TableChange → Prop
  | .addColumn _ _ column => column.Plain dq
  | .dropColumn _ _ name => name.Plain dq
  | .renameColumn oldName newName => oldName.Plain dq ∧ newName.Plain dq
  | .renameTable newName => newName.Plain dq
  | .alterColumn name change => name.Plain dq ∧ change.Plain dq
  | .addConstraint constraint => constraint.Plain dq
  | .dropConstraint _ name => name.Plain dq

/-- An `ALTER TABLE` statement with a change at least. -/
def AlterTable.Plain (a : AlterTable) : Prop :=
  a.name.Plain dq ∧ a.changes ≠ [] ∧ ∀ c ∈ a.changes, c.Plain dq

/-- A `SHOW` statement. -/
def Show.Plain : Show → Prop
  | .variable name => name.Plain dq
  | .indexes _ table => table.Plain dq

/-- A statement that changes rows, declares or changes a table, or shows a setting. -/
def Statement.Plain : Statement → Prop
  | .insert i => i.Plain dq
  | .update u => u.Plain dq
  | .delete d => d.Plain dq
  | .createTable c => c.Plain dq
  | .alterTable a => a.Plain dq
  | .show r => r.Plain dq
  | .query _ | .unsupported _ => False

/-! ## Plain names are legal -/

variable {dq}

theorem Ident.Plain.legal {i : Ident} (h : i.Plain dq) : i.Legal dq :=
  ⟨_, h, .inl rfl⟩

theorem Ident.Plain.legalAll {names : List Ident} (h : ∀ i ∈ names, i.Plain dq) :
    ∀ i ∈ names, i.Legal dq :=
  fun i hi => (h i hi).legal

theorem ObjectName.Plain.legal {n : ObjectName} (h : n.Plain dq) : n.Legal dq :=
  ⟨h.1, Ident.Plain.legalAll h.2⟩

theorem Alias.Plain.legal {a : Alias} (h : a.Plain dq) : a.Legal dq ∧ a.columns = [] :=
  ⟨⟨h.1.legal, by simp [h.2]⟩, h.2⟩

theorem Join.Plain.legal {j : Join} (h : j.Plain dq) : j.Legal dq := by
  obtain ⟨kind, item, constraint⟩ := j
  cases constraint with
  | «using» columns => exact ⟨h.1, Ident.Plain.legalAll h.2⟩
  | _ => trivial

theorem Update.Plain.legal {u : Update} (h : u.Plain dq) : u.Legal dq :=
  ⟨h.1, h.2.1, h.2.2.1, h.2.2.2.1, fun j hj => (h.2.2.2.2 j hj).legal⟩

/-- The token for a plain name. -/
theorem Ident.Plain.head {i : Ident} (h : i.Plain dq) (r : Layout) :
    kindAhead dq (i.layout.solid ++ r) 0 = .identifier i.name i.quote :=
  Piece.kind_word h

/-- The first token for a plain name with points in it. -/
theorem ObjectName.Plain.head {n : ObjectName} (h : n.Plain dq) (r : Layout) :
    ∃ name quote, kindAhead dq (n.layout.solid ++ r) 0 = .identifier name quote := by
  obtain ⟨parts⟩ := n
  cases parts with
  | nil => exact absurd rfl h.1
  | cons first more =>
    rw [ObjectName.layout, List.map_cons, solid_sepBy, List.append_assoc]
    exact ⟨_, _, (h.2 first (by simp)).head _⟩

end SqlTree
