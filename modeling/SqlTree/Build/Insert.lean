import SqlTree.Build.Error
import SqlTree.Build.Expr
import SqlTree.Statement.Basic

/-! # Building `INSERT` statements

* `InsertDraft`: the parts of a statement collected so far.
* `InsertDraft.Call`: the calls that add to a draft, each of an `InsertDraft.Kind`.
* `InsertDraft.offers`: which kinds of call a draft takes; `step?` for one call, `run?` for several.
* `InsertDraft.build?`: the statement, once there are a table and what to insert.

All rows of values must be as wide as the list of columns, or as the first row where that list is
empty.
-/

namespace SqlTree
set_option autoImplicit false

/-- What an `INSERT` statement is built from. -/
structure InsertDraft where
  table : Option ObjectName := none
  columns : List Ident := []
  source : Option InsertSource := none
  onConflict : Option OnConflict := none

namespace InsertDraft

/-! ## Calls -/

/-- What a call adds. -/
inductive Kind where
  | intoTable | columns
  | values | valuesMany | query | defaultValues
  | andValues | onConflictDoNothing | onConflictDoUpdate
  deriving DecidableEq, Repr

/-- Whether a draft takes calls of a kind. -/
def offers (d : InsertDraft) : Kind → Bool
  | .intoTable => d.table.isNone
  | .columns => d.table.isSome
  | .values | .valuesMany | .query | .defaultValues => d.table.isSome && d.source.isNone
  | .andValues | .onConflictDoNothing | .onConflictDoUpdate => d.table.isSome && d.source.isSome

/-- A call that adds to a draft. -/
inductive Call where
  | intoTable (name : String)
  | columns (names : List String)
  | values (row : List Expr)
  | valuesMany (rows : List (List Expr))
  | query (query : Query)
  | defaultValues
  /-- One more row of values; without effect where no values are inserted. -/
  | andValues (row : List Expr)
  | onConflictDoNothing (columns : List String)
  | onConflictDoUpdate (columns : List String) (assignments : List (String × Expr))

/-- The kind of a call. -/
def Call.kind : Call → Kind
  | .intoTable _ => .intoTable
  | .columns _ => .columns
  | .values _ => .values
  | .valuesMany _ => .valuesMany
  | .query _ => .query
  | .defaultValues => .defaultValues
  | .andValues _ => .andValues
  | .onConflictDoNothing _ => .onConflictDoNothing
  | .onConflictDoUpdate .. => .onConflictDoUpdate

/-- One more row, if values are inserted. -/
def addRow (source : InsertSource) (row : List Expr) : InsertSource :=
  match source with
  | .values rows => .values (rows ++ [row])
  | .query q => .query q
  | .defaultValues => .defaultValues

/-- Adds what a call says. -/
def apply (d : InsertDraft) : Call → InsertDraft
  | .intoTable name => { d with table := some (ObjectName.ofText name) }
  | .columns names => { d with columns := Ident.plainList names }
  | .values row => { d with source := some (.values [row]) }
  | .valuesMany rows => { d with source := some (.values rows) }
  | .query q => { d with source := some (.query q) }
  | .defaultValues => { d with source := some .defaultValues }
  | .andValues row => { d with source := d.source.map fun source => addRow source row }
  | .onConflictDoNothing columns =>
    { d with onConflict := some { columns := Ident.plainList columns, action := .doNothing } }
  | .onConflictDoUpdate columns assignments =>
    { d with
      onConflict := some
        { columns := Ident.plainList columns,
          action := .doUpdate (assignments.map fun (column, value) =>
            { column := .plain column, value }) } }

/-- Adds what a call says, if the draft takes it. -/
def step? (d : InsertDraft) (call : Call) : Option InsertDraft :=
  if d.offers call.kind then some (d.apply call) else none

/-- Adds what several calls say, one after another. -/
def run? (d : InsertDraft) (calls : List Call) : Option InsertDraft :=
  calls.foldlM step? d

/-! ## Finished statements -/

/-- How wide rows must be. -/
def expectedWidth (columns : List Ident) (rows : List (List Expr)) : Nat :=
  if columns.isEmpty then
    match rows with
    | [] => 0
    | row :: _ => row.length
  else columns.length

/-- The first row of another width than expected. -/
def widthError? (columns : List Ident) (rows : List (List Expr)) : Option BuildError :=
  let expected := expectedWidth columns rows
  match rows.findIdx? fun row => row.length != expected with
  | none => none
  | some index => some (.rowWidth (index + 1) expected (rows.getD index []).length)

/-- The first row of another width than expected, if values are inserted. -/
def sourceError? (columns : List Ident) : InsertSource → Option BuildError
  | .values rows => widthError? columns rows
  | .query _ | .defaultValues => none

/-- The statement, once there are a table and what to insert. -/
def build? (d : InsertDraft) : Option (Except BuildError Statement) :=
  match d.table, d.source with
  | some table, some source =>
    match sourceError? d.columns source with
    | some e => some (.error e)
    | none =>
      some (.ok (.insert
        { withInto := true, table, columns := d.columns, source, onConflict := d.onConflict }))
  | _, _ => none

end InsertDraft

end SqlTree
