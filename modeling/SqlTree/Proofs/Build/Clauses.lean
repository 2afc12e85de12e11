import Mathlib
import SqlTree.Proofs.Build.Collected

/-! # Calls for different clauses of a query

Every call that builds a query is for one clause and leaves the others as they are. So it does not
matter how the calls for different clauses are mixed.

* `SelectDraft.Clause`: the clauses, with `Call.clause` for the one a call is for.
* `SelectDraft.only`: a draft with nothing but one clause. `only_apply` is the step: a call for another
  clause is not seen in it. `only_run` is the run: it is what the calls for the clause alone make.
* `SelectDraft.query?_eq_of_agree`: calls that agree clause by clause build the same query.
-/

namespace SqlTree.SelectDraft
set_option autoImplicit false

/-! ## Clauses -/

/-- A clause of a query. -/
inductive Clause where
  | columns | source | joins | condition | orderBy
  | distinct
  | groupBy | having | qualify | limitBy | limit | offset
  deriving DecidableEq, Repr

/-- The clauses that keep what all their calls give. -/
def Clause.collecting : List Clause :=
  [.columns, .source, .joins, .condition, .orderBy]

/-- The clauses that keep what the last of their calls gives. -/
def Clause.replacing : List Clause :=
  [.groupBy, .having, .qualify, .limitBy, .limit, .offset]

/-- The clause that a call is for. -/
def Call.clause : Call → Clause
  | .item _ | .itemAs .. | .columns _ | .allColumns => .columns
  | .table _ | .source _ => .source
  | .condition _ => .condition
  | .joinTable .. | .crossJoin _ | .join _ => .joins
  | .distinct => .distinct
  | .orderBy _ => .orderBy
  | .limit _ => .limit
  | .limitBy _ => .limitBy
  | .offset _ => .offset
  | .groupBy _ => .groupBy
  | .having _ => .having
  | .qualify _ => .qualify

/-- The calls for a clause, in their order. -/
def callsFor (clause : Clause) (calls : List Call) : List Call :=
  calls.filter fun c => c.clause = clause

/-- Two runs of calls agree clause by clause: on all calls in their order where all are kept, on the
last one where it replaces the others, and on whether rows are distinct. -/
structure Agree (calls calls' : List Call) : Prop where
  collected : ∀ clause ∈ Clause.collecting, callsFor clause calls = callsFor clause calls'
  replaced : ∀ clause ∈ Clause.replacing,
    (callsFor clause calls).getLast? = (callsFor clause calls').getLast?
  distinct : .distinct ∈ calls ↔ .distinct ∈ calls'

/-! ## One clause of a draft -/

/-- A draft with nothing but one clause of it. -/
def only (clause : Clause) (d : SelectDraft) : SelectDraft :=
  match clause with
  | .columns => { items := d.items }
  | .source => { source := d.source }
  | .joins => { joins := d.joins }
  | .condition => { condition := d.condition }
  | .orderBy => { orderBy := d.orderBy }
  | .distinct => { distinct := d.distinct }
  | .groupBy => { groupBy := d.groupBy }
  | .having => { having := d.having }
  | .qualify => { qualify := d.qualify }
  | .limitBy => { limitBy := d.limitBy }
  | .limit => { limit := d.limit }
  | .offset => { offset := d.offset }

theorem eq_of_only {d d' : SelectDraft} (h : ∀ clause, d.only clause = d'.only clause) : d = d' := by
  cases d
  cases d'
  rw [SelectDraft.mk.injEq]
  exact ⟨congrArg distinct (h .distinct), congrArg items (h .columns), congrArg source (h .source),
    congrArg joins (h .joins), congrArg condition (h .condition), congrArg groupBy (h .groupBy),
    congrArg having (h .having), congrArg qualify (h .qualify), congrArg orderBy (h .orderBy),
    congrArg limitBy (h .limitBy), congrArg limit (h .limit), congrArg offset (h .offset)⟩

/-- A call changes the clause it is for and no other. -/
theorem only_apply (clause : Clause) (d : SelectDraft) (c : Call) :
    (d.apply c).only clause = if c.clause = clause then (d.only clause).apply c else d.only clause := by
  cases c <;> cases clause <;> rfl

/-- A call that replaces what a clause holds needs nothing that was there. -/
theorem apply_of_replacing {clause : Clause} (hr : clause ∈ Clause.replacing) {c : Call}
    (hc : c.clause = clause) (d : SelectDraft) :
    (d.only clause).apply c = ({} : SelectDraft).apply c := by
  subst hc
  cases c with
  | groupBy exprs => rfl
  | having e => rfl
  | qualify e => rfl
  | limitBy l => rfl
  | limit l => rfl
  | offset n => rfl
  | _ => simp [Call.clause, Clause.replacing] at hr

/-! ## One clause after all calls -/

variable {calls calls' : List Call} {d d' : SelectDraft} {clause : Clause}

theorem only_run (clause : Clause) (h : run? {} calls = some d) :
    d.only clause = (callsFor clause calls).foldl apply {} := by
  have hrun := run_part (f := step?) (p := only clause)
    (g := fun d c => if c.clause = clause then d.apply c else d)
    (fun d c d' hstep => by
      obtain ⟨-, rfl⟩ := step?_eq_some hstep
      exact only_apply clause d c) h
  have hempty : ({} : SelectDraft).only clause = {} := by
    cases clause <;> rfl
  rw [hrun, hempty, callsFor, List.foldl_filter]
  simp only [decide_eq_true_eq]

theorem mem_callsFor {c : Call} : c ∈ callsFor clause calls ↔ c ∈ calls ∧ c.clause = clause := by
  simp [callsFor]

theorem only_run_of_replacing (hr : clause ∈ Clause.replacing) (h : run? {} calls = some d) :
    d.only clause = (callsFor clause calls).getLast?.elim {} ({} : SelectDraft).apply := by
  have hrun := only_run clause h
  rcases List.eq_nil_or_concat (callsFor clause calls) with hnil | ⟨before, c, hlast⟩
  · rw [hrun, hnil]
    rfl
  · have hc : c.clause = clause := by
      have hm : c ∈ callsFor clause calls := by simp [hlast]
      exact (mem_callsFor.1 hm).2
    -- The last call needs nothing that the calls in front of it have left.
    have honly : (d.only clause).only clause = d.only clause := by
      cases clause <;> rfl
    rw [hlast, List.concat_eq_append, List.foldl_append, List.foldl_cons, List.foldl_nil] at hrun
    rw [← honly, hrun, only_apply, if_pos hc, apply_of_replacing hr hc, hlast, List.concat_eq_append,
      List.getLast?_concat]
    rfl

theorem distinct_run (h : run? {} calls = some d) : d.distinct = true ↔ .distinct ∈ calls := by
  refine run_keeps (f := step?) (I := fun l d => d.distinct = true ↔ .distinct ∈ l) (l := [])
    (s := {}) (fun l d c d' hd hstep => ?_) (by simp) h
  obtain ⟨-, rfl⟩ := step?_eq_some hstep
  rw [List.mem_append, ← hd]
  cases c <;> simp [apply, addItem, addJoin]

theorem eq_of_agree (h : run? {} calls = some d) (h' : run? {} calls' = some d')
    (ha : Agree calls calls') : d = d' := by
  apply eq_of_only
  intro clause
  by_cases hc : clause ∈ Clause.collecting
  · rw [only_run clause h, only_run clause h', ha.collected clause hc]
  by_cases hr : clause ∈ Clause.replacing
  · rw [only_run_of_replacing hr h, only_run_of_replacing hr h', ha.replaced clause hr]
  have hd : clause = .distinct := by
    cases clause <;> simp [Clause.collecting, Clause.replacing] at hc hr ⊢
  have heq : d.distinct = d'.distinct := by
    rw [Bool.eq_iff_iff, distinct_run h, distinct_run h', ha.distinct]
  rw [hd, only, only, heq]

/-- Calls that agree clause by clause build the same query, however they are mixed. -/
theorem query?_eq_of_agree (h : run? {} calls = some d) (h' : run? {} calls' = some d')
    (ha : Agree calls calls') : d.query? = d'.query? := by
  rw [eq_of_agree h h' ha]

/-- Two orders of the calls for `SELECT DISTINCT a, b FROM t CROSS JOIN u WHERE c AND d ORDER BY a
LIMIT 2`. -/
theorem query?_eq_of_agree_mixed :
    let column (name : String) : Expr := .columnNamed name
    let calls : List Call :=
      [.table "t", .condition (column "c"), .item (column "a"), .limit (.ofCount 1), .crossJoin "u",
        .distinct, .item (column "b"), .condition (column "d"), .limit (.ofCount 2),
        .orderBy (.ofExpr (column "a"))]
    let calls' : List Call :=
      [.item (column "a"), .item (column "b"), .distinct, .orderBy (.ofExpr (column "a")),
        .limit (.ofCount 2), .distinct, .table "t", .crossJoin "u", .condition (column "c"),
        .condition (column "d")]
    ∃ d d' q, run? {} calls = some d ∧ run? {} calls' = some d' ∧ Agree calls calls' ∧
      d.query? = some q ∧ d'.query? = some q := by
  intro column calls calls'
  have ha : Agree calls calls' := by
    refine ⟨fun clause hc => ?_, fun clause hr => ?_, ?_⟩
    · simp only [Clause.collecting, List.mem_cons, List.not_mem_nil, or_false] at hc
      rcases hc with rfl | rfl | rfl | rfl | rfl <;> rfl
    · simp only [Clause.replacing, List.mem_cons, List.not_mem_nil, or_false] at hr
      rcases hr with rfl | rfl | rfl | rfl | rfl | rfl <;> rfl
    · simp [calls, calls']
  exact ⟨_, _, _, rfl, rfl, ha, rfl, (query?_eq_of_agree rfl rfl ha).symm⟩

end SqlTree.SelectDraft
