import Mathlib
import SqlTree.Proofs.Tree.Law

/-! # The names in a tree

* `Expr.names`, `Query.names`, `FromItem.names`, …: the names that a part holds itself, apart from
  those of the parts in it. `Part.names` takes them together.
* `Part.keys`: the keys of values in braces, which may be strings.
* `Statement.names`: the names that a statement holds outside its parts.
* `Statement.HasName`, `Statement.HasKey`: a name or a key stands anywhere in a statement.

The reserved words that are names of functions in front of a parenthesis are left out.
-/

namespace SqlTree
set_option autoImplicit false

open Parse

/-! ## Names and types -/

/-- The name of an item and those of its columns. -/
def Alias.names (a : Alias) : List Ident :=
  a.name :: a.columns

/-- Whether a name is one of the bare words that are functions in front of a parenthesis. -/
def ObjectName.isFunctionWord (n : ObjectName) : Bool :=
  match n.parts with
  | [⟨word, none⟩] => (Keyword.ofText? word).any functionWords.contains
  | _ => false

mutual

/-- The names of all fields in a type. -/
def DataType.names : DataType → List Ident
  | .struct _ fields => StructField.names fields
  | .array _ element => element.names
  | .plain _ | .sized _ _ | .scaled _ _ _ | .custom _ _ => []

/-- The names of some fields and of all fields in their types. -/
def StructField.names : List StructField → List Ident
  | [] => []
  | ⟨name, type⟩ :: fields => name.toList ++ type.names ++ StructField.names fields

end

theorem StructField.names_eq_flatMap (fields : List StructField) :
    StructField.names fields = fields.flatMap fun f => f.name.toList ++ f.type.names := by
  induction fields with
  | nil => rfl
  | cons f fields ih =>
    obtain ⟨name, type⟩ := f
    rw [StructField.names, ih, List.flatMap_cons]

/-! ## Expressions -/

/-- The names behind some items. -/
def SelectItem.names (items : List SelectItem) : List Ident :=
  items.flatMap fun i => i.alias?.toList.flatMap Alias.names

/-- The name of a call, unless it is a reserved word. -/
def FunctionCall.names (c : FunctionCall) : List Ident :=
  if c.name.isFunctionWord then [] else c.name.parts

/-- The names in the types of a struct value, and those behind its values in parentheses. -/
def StructValue.names (v : StructValue) : List Ident :=
  StructField.names (v.fields.getD []) ++
    match v.style with
    | .bigQuery => SelectItem.names (v.arguments.getD [])
    | .duckDb => []

/-- The keys in front of values in braces. -/
def StructValue.keys (v : StructValue) : List Ident :=
  match v.style with
  | .bigQuery => []
  | .duckDb => SelectItem.names (v.arguments.getD [])

/-- The names in an expression, apart from the parts in it. -/
def Expr.names : Expr → List Ident
  | .column c => c.names
  | .call c => c.names
  | .struct v => v.names
  | .cast _ _ type => type.names
  | .wildcard table except replace =>
    table.toList.flatMap ObjectName.parts ++ except.toList.flatMap WildcardExcept.columns ++
      SelectItem.names (replace.getD [])
  | _ => []

/-- The keys in an expression, apart from the parts in it. -/
def Expr.keys : Expr → List Ident
  | .struct v => v.keys
  | _ => []

/-! ## Queries -/

/-- The name of a query and those of its columns. -/
def Cte.names (c : Cte) : List Ident :=
  c.name :: c.columns

/-- The names of the queries in front of a query. -/
def Query.names (q : Query) : List Ident :=
  q.ctes.toList.flatMap fun w => w.ctes.flatMap Cte.names

/-- The columns that a join matches by. -/
def JoinConstraint.names : JoinConstraint → List Ident
  | .using columns => columns
  | _ => []

/-- The columns that joins match by. -/
def Join.names (joins : List Join) : List Ident :=
  joins.flatMap fun j => j.constraint.names

/-- The names in a block, apart from the parts in it. -/
def Select.names (s : Select) : List Ident :=
  SelectItem.names s.items ++ Join.names s.joins

/-- The names in a source of rows, apart from the parts in it. -/
def Relation.names : Relation → List Ident
  | .table name => name.parts
  | .function _ c => c.name.parts
  | .joined _ joins => Join.names joins
  | _ => []

/-- The names in what turns rows into columns. -/
def Pivot.names (p : Pivot) : List Ident :=
  SelectItem.names (p.aggregates ++ p.items) ++ p.columns.flatMap ColumnRef.names ++
    p.alias?.toList.flatMap Alias.names

/-- The names in what turns columns into rows. -/
def Unpivot.names (u : Unpivot) : List Ident :=
  u.valueColumns ++ u.nameColumns ++ SelectItem.names u.items ++
    u.alias?.toList.flatMap Alias.names

/-- The names in an item to read from, apart from the parts in it. -/
def FromItem.names (i : FromItem) : List Ident :=
  i.relation.names ++ i.alias?.toList.flatMap Alias.names ++ i.pivot.toList.flatMap Pivot.names ++
    i.unpivot.toList.flatMap Unpivot.names

namespace Part

/-- The names in a part, apart from those of the parts in it. -/
def names : Part → List Ident
  | .expr e => e.names
  | .query q => q.names
  | .body _ => []
  | .block s => s.names
  | .item i => i.names

/-- The keys in a part, apart from those of the parts in it. -/
def keys : Part → List Ident
  | .expr e => e.keys
  | _ => []

end Part

/-! ## Statements -/

/-- The columns that are set. -/
def Assignment.names (assignments : List Assignment) : List Ident :=
  assignments.map Assignment.column

/-- The columns that are set in a row that is there already. -/
def ConflictAction.names : ConflictAction → List Ident
  | .doNothing => []
  | .doUpdate assignments => Assignment.names assignments

/-- The names in what happens to rows that are there already. -/
def OnConflict.names (c : OnConflict) : List Ident :=
  c.columns ++ c.action.names

/-- The names in an `INSERT` statement, apart from its parts. -/
def Insert.names (i : Insert) : List Ident :=
  i.table.parts ++ i.columns ++ i.onConflict.toList.flatMap OnConflict.names

/-- The names in an `UPDATE` statement, apart from its parts. -/
def Update.names (u : Update) : List Ident :=
  u.table.parts ++ u.alias?.toList.flatMap Alias.names ++ Assignment.names u.assignments ++
    Join.names u.joins

/-- The names in a `DELETE` statement, apart from its parts. -/
def Delete.names (s : Delete) : List Ident :=
  s.table.parts ++ s.alias?.toList.flatMap Alias.names

/-- The table and the columns that a foreign key refers to. -/
def ForeignKeyRef.names (r : ForeignKeyRef) : List Ident :=
  r.table.parts ++ r.columns

/-- The names in the declaration of a column. -/
def ColumnDef.names (c : ColumnDef) : List Ident :=
  c.name :: c.type.names ++ c.references.toList.flatMap ForeignKeyRef.names

/-- The columns and the table in a condition on the rows of a table. -/
def ConstraintRule.names : ConstraintRule → List Ident
  | .primaryKey columns => columns
  | .unique columns => columns
  | .foreignKey columns references => columns ++ references.names
  | .check _ => []

/-- The names in a condition on the rows of a table, with its own. -/
def TableConstraint.names (c : TableConstraint) : List Ident :=
  c.name.toList ++ c.rule.names

/-- The names in a `CREATE TABLE` statement, apart from its parts. -/
def CreateTable.names (c : CreateTable) : List Ident :=
  c.name.parts ++ c.columns.flatMap ColumnDef.names ++
    c.constraints.flatMap TableConstraint.names

/-- The names in a change to a declared column. -/
def ColumnChange.names : ColumnChange → List Ident
  | .setType type => type.names
  | _ => []

/-- The names in a change to a declared table. -/
def TableChange.names : TableChange → List Ident
  | .addColumn _ _ column => column.names
  | .dropColumn _ _ name => [name]
  | .renameColumn oldName newName => [oldName, newName]
  | .renameTable newName => newName.parts
  | .alterColumn name change => name :: change.names
  | .addConstraint constraint => constraint.names
  | .dropConstraint _ name => [name]

/-- The names in an `ALTER TABLE` statement, apart from its parts. -/
def AlterTable.names (a : AlterTable) : List Ident :=
  a.name.parts ++ a.changes.flatMap TableChange.names

/-- The setting or the table that a `SHOW` statement asks for. -/
def Show.names : Show → List Ident
  | .variable name => [name]
  | .indexes _ table => table.parts

namespace Statement

/-- The names in a statement, apart from its parts. -/
def names : Statement → List Ident
  | .query _ => []
  | .insert i => i.names
  | .update u => u.names
  | .delete d => d.names
  | .createTable c => c.names
  | .alterTable a => a.names
  | .show r => r.names
  | .unsupported _ => []

/-- A name stands somewhere in a statement. -/
def HasName (s : Statement) (i : Ident) : Prop :=
  i ∈ s.names ∨ ∃ p ∈ s.parts, ∃ q, Part.Within q p ∧ i ∈ q.names

/-- The key of a value in braces stands somewhere in a statement. -/
def HasKey (s : Statement) (i : Ident) : Prop :=
  ∃ p ∈ s.parts, ∃ q, Part.Within q p ∧ i ∈ q.keys

end Statement

/-! ## Legal names -/

variable {dq : Bool}

/-- The names in a part are legal, apart from those of the parts in it, and its keys are keys. -/
structure Part.Named (dq : Bool) (p : Part) : Prop where
  names : ∀ i ∈ p.names, i.Legal dq
  keys : ∀ i ∈ p.keys, i.IsKey dq

/-- All names anywhere in a part are legal. -/
abbrev Part.AllNamed (dq : Bool) (p : Part) : Prop :=
  p.Obeys (Part.Named dq)

namespace Part

/-- A part that has no keys of its own. -/
theorem AllNamed.node {p : Part} (hn : ∀ i ∈ p.names, i.Legal dq)
    (hc : ∀ c ∈ p.children, c.AllNamed dq) (hk : p.keys = []) : p.AllNamed dq :=
  obeys_iff.2 ⟨⟨hn, by simp [hk]⟩, hc⟩

/-- A part that has no names of its own. -/
theorem AllNamed.of_children {p : Part} (hc : ∀ c ∈ p.children, c.AllNamed dq)
    (hn : p.names = []) (hk : p.keys = []) : p.AllNamed dq :=
  .node (by simp [hn]) hc hk

end Part

theorem forall_mem_elim {α β : Type} {P : β → Prop} {o : Option α} {f : α → List β}
    (h : ∀ a ∈ o, ∀ b ∈ f a, P b) : ∀ b ∈ o.elim [] f, P b := by
  cases o with
  | none => simp
  | some a => exact h a rfl

/-- All names in some parts are legal, and so are some names beside them. -/
structure LegalNames (dq : Bool) (parts : List Part) (names : List Ident) : Prop where
  parts : ∀ p ∈ parts, p.AllNamed dq
  names : ∀ i ∈ names, i.Legal dq

namespace LegalNames

variable {α : Type} {parts parts' : List Part} {names names' : List Ident} {f : α → List Part}
  {g : α → List Ident}

theorem nil : LegalNames dq [] [] :=
  ⟨by simp, by simp⟩

theorem append (h : LegalNames dq parts names) (h' : LegalNames dq parts' names') :
    LegalNames dq (parts ++ parts') (names ++ names') :=
  ⟨List.forall_mem_append.2 ⟨h.parts, h'.parts⟩, List.forall_mem_append.2 ⟨h.names, h'.names⟩⟩

theorem flatMap {as : List α} (h : ∀ a ∈ as, LegalNames dq (f a) (g a)) :
    LegalNames dq (as.flatMap f) (as.flatMap g) :=
  ⟨List.forall_mem_flatMap.2 fun a ha => (h a ha).parts,
    List.forall_mem_flatMap.2 fun a ha => (h a ha).names⟩

theorem map {as : List α} {f : α → Part} (h : ∀ a ∈ as, LegalNames dq [f a] (g a)) :
    LegalNames dq (as.map f) (as.flatMap g) := by
  rw [List.map_eq_flatMap]
  exact flatMap h

theorem optional {o : Option α} (h : ∀ a ∈ o, LegalNames dq (f a) (g a)) :
    LegalNames dq (o.elim [] f) (o.toList.flatMap g) :=
  ⟨forall_mem_elim fun a ha => (h a ha).parts,
    List.forall_mem_flatMap.2 fun a ha => (h a (Option.mem_toList.1 ha)).names⟩

end LegalNames

/-- All names anywhere in a statement are legal. -/
abbrev Statement.Named (dq : Bool) (s : Statement) : Prop :=
  LegalNames dq s.parts s.names

namespace Statement

theorem Named.hasName {s : Statement} (h : s.Named dq) {i : Ident} (hi : s.HasName i) :
    i.Legal dq := by
  rcases hi with hi | ⟨p, hp, q, hq, hi⟩
  · exact h.names i hi
  · exact (h.parts p hp q hq).names i hi

theorem Named.hasKey {s : Statement} (h : s.Named dq) {i : Ident} (hi : s.HasKey i) :
    i.IsKey dq := by
  obtain ⟨p, hp, q, hq, hi⟩ := hi
  exact (h.parts p hp q hq).keys i hi

end Statement

mutual

/-- The names of the fields in a legal type are legal. -/
theorem DataType.Legal.names : ∀ {t : DataType}, t.Legal dq → ∀ i ∈ t.names, i.Legal dq
  | .struct _ fields, h => by
    rw [DataType.names]
    exact StructField.legal_names h.1.2.1 h.2
  | .array _ element, h => by
    rw [DataType.names]
    exact DataType.Legal.names h.2
  | .plain _, _ => by simp [DataType.names]
  | .sized _ _, _ => by simp [DataType.names]
  | .scaled _ _ _, _ => by simp [DataType.names]
  | .custom _ _, _ => by simp [DataType.names]

theorem StructField.legal_names : ∀ {fields : List StructField},
    (∀ f ∈ fields, ∀ name ∈ f.name, name.Legal dq) →
      StructField.AllTypes (DataType.LegalHead dq) fields →
        ∀ i ∈ StructField.names fields, i.Legal dq
  | [], _, _ => by simp [StructField.names]
  | ⟨name, type⟩ :: fields, hn, ht => by
    rw [List.forall_mem_cons] at hn
    simp only [StructField.names, List.forall_mem_append, Option.mem_toList]
    exact ⟨⟨hn.1, DataType.Legal.names ht.1⟩, StructField.legal_names hn.2 ht.2⟩

end

end SqlTree
