import SqlTree.Number.FloatText
import SqlTree.Query.Basic

/-! # The values of constants

* `Literal.int64?`: the whole number of 64 bits that a constant is.
* `Literal.double?`: the floating-point number that a constant is.
-/

namespace SqlTree.Literal
set_option autoImplicit false

/-- The whole number that a constant is, if it is one and has at most 64 bits. -/
def int64? : Literal → Option Int
  | .integer digits => Decimal.readInt64? digits.toList
  | _ => none

/-- The number that a constant is, rounded to a floating-point number. -/
def double? : Literal → Option Binary64
  | .integer digits | .float digits => Binary64.read? digits.toList
  | _ => none

end SqlTree.Literal
