import SqlTree.Build.Expr
import SqlTree.Statement.Basic

/-! # Building declared columns

* `ColumnDef.ofType`: a column with a name and a type.
* `ColumnDef.Extra`: what can be added to it; `ColumnDef.add` adds it.
* `CreateTable.ofColumn`: the declaration of a table with a single column.
-/

namespace SqlTree
set_option autoImplicit false

namespace ColumnDef

/-- A column with nothing but a name and a type. -/
def ofType (name : String) (type : DataType) : ColumnDef :=
  { name := .plain name, type }

/-- What can be added to a column. -/
inductive Extra where
  | notNull
  | primaryKey
  | unique
  | autoincrement
  | default (value : Expr)
  | references (table : String) (columns : List String)

/-- Adds something to a column, in place of what it had of that sort. -/
def add (c : ColumnDef) : Extra → ColumnDef
  | .notNull => { c with nullable := false }
  | .primaryKey => { c with primaryKey := true }
  | .unique => { c with unique := true }
  | .autoincrement => { c with autoincrement := true }
  | .default value => { c with default := some value }
  | .references table columns =>
    { c with
      references := some
        { table := ObjectName.ofText table, columns := Ident.plainList columns } }

end ColumnDef

/-- The declaration of a table that has a single column. -/
def CreateTable.ofColumn (name : String) (column : ColumnDef) : CreateTable :=
  { temporary := false, ifNotExists := false, name := ObjectName.ofText name, columns := [column],
    constraints := [], query := none }

end SqlTree
