import Mathlib
import SqlTree.Proofs.Tree.Induction

/-! # The numbers of question marks

* `Part.numbers`: the numbers of all question marks in a part, in the order of its parts.
* `numbersOf`: the numbers in some parts. `Statement.numbers`: the numbers in a statement.
-/

namespace SqlTree
set_option autoImplicit false

/-- The number of a part that is a question mark. -/
def Part.number? : Part → Option Nat
  | .expr (.placeholder (.positional n)) => some n
  | _ => none

/-- The numbers of all question marks in a part. -/
def Part.numbers (p : Part) : List Nat :=
  p.number?.toList ++ p.children.attach.flatMap fun c => c.1.numbers
termination_by p.weight
decreasing_by exact Part.weight_children c.2

/-- The numbers of all question marks in some parts. -/
def numbersOf (ps : List Part) : List Nat :=
  ps.flatMap Part.numbers

/-- The numbers of all question marks in a statement. -/
def Statement.numbers (s : Statement) : List Nat :=
  numbersOf s.parts

@[simp]
theorem numbersOf_nil : numbersOf [] = [] := rfl

@[simp]
theorem numbersOf_append (ps qs : List Part) : numbersOf (ps ++ qs) = numbersOf ps ++ numbersOf qs :=
  List.flatMap_append

theorem Part.numbers_eq (p : Part) : p.numbers = p.number?.toList ++ numbersOf p.children := by
  rw [Part.numbers, numbersOf]
  simp

theorem numbersOf_singleton (p : Part) :
    numbersOf [p] = p.number?.toList ++ numbersOf p.children := by
  rw [← Part.numbers_eq, numbersOf, List.flatMap_singleton]

/-- A part that is no question mark has the numbers of the parts below it. -/
theorem numbersOf_node {p : Part} (h : p.number? = none) :
    numbersOf [p] = numbersOf p.children := by
  rw [numbersOf_singleton, h, Option.toList_none, List.nil_append]

end SqlTree
