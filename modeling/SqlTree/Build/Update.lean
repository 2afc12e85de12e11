import SqlTree.Build.Expr
import SqlTree.Statement.Basic

/-! # Building `UPDATE` statements

* `UpdateDraft`: the parts of a statement collected so far.
* `UpdateDraft.Call`: the calls that add to a draft, each of an `UpdateDraft.Kind`.
* `UpdateDraft.offers`: which kinds of call a draft takes; `step?` for one call, `run?` for several.
* `UpdateDraft.build?`: the statement, once there are a table and an assignment.
-/

namespace SqlTree
set_option autoImplicit false

/-- What an `UPDATE` statement is built from. -/
structure UpdateDraft where
  table : Option ObjectName := none
  alias? : Option Alias := none
  assignments : List Assignment := []
  source : Option FromItem := none
  joins : List Join := []
  condition : Option Expr := none

namespace UpdateDraft

/-- What a call adds. -/
inductive Kind where
  | table | named | set | source | join | condition
  deriving DecidableEq, Repr

/-- Whether a value is set already. -/
def hasSet (d : UpdateDraft) : Bool :=
  !d.assignments.isEmpty

/-- Whether a draft takes calls of a kind. -/
def offers (d : UpdateDraft) : Kind → Bool
  | .table => d.table.isNone
  | .named | .set => d.table.isSome
  | .source | .join | .condition => d.table.isSome && d.hasSet

/-- A call that adds to a draft. -/
inductive Call where
  | table (name : String)
  | named (name : String)
  | set (column : String) (value : Expr)
  | source (item : FromItem)
  | join (join : Join)
  | condition (expr : Expr)

/-- The kind of a call. -/
def Call.kind : Call → Kind
  | .table _ => .table
  | .named _ => .named
  | .set .. => .set
  | .source _ => .source
  | .join _ => .join
  | .condition _ => .condition

/-- Adds what a call says. -/
def apply (d : UpdateDraft) : Call → UpdateDraft
  | .table name => { d with table := some (ObjectName.ofText name) }
  | .named name => { d with alias? := some (.implicit (.plain name)) }
  | .set column value =>
    { d with assignments := d.assignments ++ [{ column := .plain column, value }] }
  | .source item => { d with source := some item }
  | .join join => { d with joins := d.joins ++ [join] }
  | .condition expr => { d with condition := Expr.conjoin d.condition expr }

/-- Adds what a call says, if the draft takes it. -/
def step? (d : UpdateDraft) (call : Call) : Option UpdateDraft :=
  if d.offers call.kind then some (d.apply call) else none

/-- Adds what several calls say, one after another. -/
def run? (d : UpdateDraft) (calls : List Call) : Option UpdateDraft :=
  calls.foldlM step? d

/-- The statement, once there are a table and an assignment. -/
def build? (d : UpdateDraft) : Option Statement :=
  match d.table with
  | none => none
  | some table =>
    if d.hasSet then
      some (.update { table, alias? := d.alias?, assignments := d.assignments, source := d.source,
                      joins := d.joins, condition := d.condition })
    else none

end UpdateDraft

end SqlTree
