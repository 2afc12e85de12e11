import SqlTree.Query.Grammar.Select

/-! # The readers of whole trees

* `productions`: the readers of expressions, queries and items to read from, each handing the
  others to the readers of its parts.
* `wholeExpr`, `wholeQuery`, `wholeFromItem`: the readers at a cursor.

A tree in a tree begins behind a token of the outer one. So the readers nest at most once for each
token ahead, and the tokens ahead at the start are the allowance for the nesting.
-/

namespace SqlTree.Parse
set_option autoImplicit false

/-- The readers whose parts are read by `g`. -/
def level (d : Dialect) (g : Productions) : Productions where
  expr := expression g d
  query := query g d
  fromItem := fromItem g

/-- The readers that nest at most once for each token allowed. -/
def productions (d : Dialect) : List Token → Productions
  | [] => level d .exhausted
  | _ :: allowance =>
    { expr := fun power => later fun _ => (level d (productions d allowance)).expr power
      query := later fun _ => (level d (productions d allowance)).query
      fromItem := later fun _ => (level d (productions d allowance)).fromItem }

theorem productions_cons (d : Dialect) (t : Token) (allowance : List Token) :
    productions d (t :: allowance) = level d (productions d allowance) := rfl

/-- An expression. -/
def wholeExpr (d : Dialect) : Parse Expr := do
  (productions d (← ahead)).expr 0

/-- A query. -/
def wholeQuery (d : Dialect) : Parse Query := do
  (productions d (← ahead)).query

/-- An item to read from. -/
def wholeFromItem (d : Dialect) : Parse FromItem := do
  (productions d (← ahead)).fromItem

end SqlTree.Parse
