import SqlTree.Number.Decimal

/-! # Why a tree cannot be built

* `BuildError`: the reasons, with their wording.
-/

namespace SqlTree
set_option autoImplicit false

/-- Why a tree cannot be built. Positions count from one. -/
inductive BuildError where
  /-- A value of a struct in braces has no name. -/
  | unnamedArgument (position : Nat)
  /-- A typed field of a struct in braces has no name. -/
  | unnamedField (position : Nat)
  /-- There are typed fields, but not as many as values. -/
  | fieldCount (fields arguments : Nat)
  /-- A row has not as many values as there are columns. -/
  | rowWidth (row expected found : Nat)
  deriving DecidableEq, Repr

/-- The wording of an error. -/
def BuildError.message : BuildError → String
  | .unnamedArgument position =>
    "struct argument " ++ Decimal.text position ++ " has no field name"
  | .unnamedField position =>
    "struct type field " ++ Decimal.text position ++ " has no name"
  | .fieldCount fields arguments =>
    "struct declares " ++ Decimal.text fields ++ " typed fields but has " ++
      Decimal.text arguments ++ " arguments"
  | .rowWidth row expected found =>
    "row " ++ Decimal.text row ++ " has " ++ Decimal.text found ++ " values, expected " ++
      Decimal.text expected

end SqlTree
