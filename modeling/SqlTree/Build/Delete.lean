import SqlTree.Build.Expr
import SqlTree.Statement.Basic

/-! # Building `DELETE` statements

* `DeleteDraft`: the parts of a statement collected so far.
* `DeletePolicy`: whether a condition may be missing.
* `DeleteDraft.offers`: which kinds of call a draft takes; `step?` for one call, `run?` for several.
* `DeleteDraft.build?`: the statement, once there are a table and, where it may not be missing, a
  condition.

Where the condition may be missing, it may also be given piece by piece. Where it may not, it is
given once and is the end.
-/

namespace SqlTree
set_option autoImplicit false

/-- Whether all rows may be deleted. -/
inductive DeletePolicy where
  | anyRows
  /-- Only rows that a condition picks. -/
  | pickedRows
  deriving DecidableEq, Repr

/-- What a `DELETE` statement is built from. -/
structure DeleteDraft where
  table : Option ObjectName := none
  condition : Option Expr := none

namespace DeleteDraft

/-- What a call adds. -/
inductive Kind where
  | table | condition
  deriving DecidableEq, Repr

/-- Whether a draft takes calls of a kind. -/
def offers (policy : DeletePolicy) (d : DeleteDraft) : Kind → Bool
  | .table => d.table.isNone
  | .condition =>
    d.table.isSome && (policy == .anyRows || d.condition.isNone)

/-- A call that adds to a draft. -/
inductive Call where
  | table (name : String)
  | condition (expr : Expr)

/-- The kind of a call. -/
def Call.kind : Call → Kind
  | .table _ => .table
  | .condition _ => .condition

/-- Adds what a call says. -/
def apply (d : DeleteDraft) : Call → DeleteDraft
  | .table name => { d with table := some (ObjectName.ofText name) }
  | .condition expr => { d with condition := Expr.conjoin d.condition expr }

/-- Adds what a call says, if the draft takes it. -/
def step? (policy : DeletePolicy) (d : DeleteDraft) (call : Call) : Option DeleteDraft :=
  if d.offers policy call.kind then some (d.apply call) else none

/-- Adds what several calls say, one after another. -/
def run? (policy : DeletePolicy) (d : DeleteDraft) (calls : List Call) : Option DeleteDraft :=
  calls.foldlM (step? policy) d

/-- The statement, once all that the policy asks for is there. -/
def build? (policy : DeletePolicy) (d : DeleteDraft) : Option Statement :=
  match d.table with
  | none => none
  | some table =>
    if policy == .anyRows || d.condition.isSome then
      some (.delete { withFrom := true, table, alias? := none, condition := d.condition })
    else none

end DeleteDraft

end SqlTree
