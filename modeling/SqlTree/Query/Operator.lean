import SqlTree.Layout

/-! # Operators

* `BinaryOp`, `UnaryOp`: the operators of expressions, with their spelling and their token.
* `BinaryOp.precedence`: how tightly an operator binds, from one for `OR` up to eight for `*`.
* `SetOperator`: `UNION`, `INTERSECT` and `EXCEPT`, of which `INTERSECT` binds tighter.
-/

namespace SqlTree
set_option autoImplicit false

/-- An operator between two operands. -/
inductive BinaryOp where
  | add | sub | mul | div | mod
  | equal | notEqual | less | lessEqual | greater | greaterEqual
  /-- The left operand contains the right one. -/
  | contains
  /-- The left operand is contained in the right one. -/
  | containedBy
  | and | or
  | concat
  | bitAnd | bitOr | shiftLeft | shiftRight
  deriving DecidableEq, Repr

namespace BinaryOp

/-- Every operator between two operands. -/
def all : List BinaryOp :=
  [.add, .sub, .mul, .div, .mod, .equal, .notEqual, .less, .lessEqual, .greater, .greaterEqual,
    .contains, .containedBy, .and, .or, .concat, .bitAnd, .bitOr, .shiftLeft, .shiftRight]

/-- How an operator is written. -/
def piece : BinaryOp → Piece
  | .add => .symbol .plus
  | .sub => .symbol .minus
  | .mul => .symbol .star
  | .div => .symbol .slash
  | .mod => .symbol .percent
  | .equal => .symbol .equal
  | .notEqual => .symbol .notEqual
  | .less => .symbol .less
  | .lessEqual => .symbol .lessEqual
  | .greater => .symbol .greater
  | .greaterEqual => .symbol .greaterEqual
  | .contains => .symbol .contains
  | .containedBy => .symbol .containedBy
  | .and => .keyword .AND
  | .or => .keyword .OR
  | .concat => .symbol .concat
  | .bitAnd => .symbol .bitAnd
  | .bitOr => .symbol .bitOr
  | .shiftLeft => .symbol .shiftLeft
  | .shiftRight => .symbol .shiftRight

/-- The operator that a token stands for between two operands. -/
def ofToken? : TokenKind → Option BinaryOp
  | .symbol .plus => some .add
  | .symbol .minus => some .sub
  | .symbol .star => some .mul
  | .symbol .slash => some .div
  | .symbol .percent => some .mod
  | .symbol .equal => some .equal
  | .symbol .notEqual => some .notEqual
  | .symbol .less => some .less
  | .symbol .lessEqual => some .lessEqual
  | .symbol .greater => some .greater
  | .symbol .greaterEqual => some .greaterEqual
  | .symbol .contains => some .contains
  | .symbol .containedBy => some .containedBy
  | .keyword .AND => some .and
  | .keyword .OR => some .or
  | .symbol .concat => some .concat
  | .symbol .bitAnd => some .bitAnd
  | .symbol .bitOr => some .bitOr
  | .symbol .shiftLeft => some .shiftLeft
  | .symbol .shiftRight => some .shiftRight
  | _ => none

/-- How tightly the operator binds; more is tighter. -/
def precedence : BinaryOp → Nat
  | .or => 1
  | .and => 2
  | .equal | .notEqual | .less | .lessEqual | .greater | .greaterEqual
  | .contains | .containedBy => 3
  | .bitOr => 4
  | .bitAnd => 5
  | .shiftLeft | .shiftRight => 6
  | .add | .sub | .concat => 7
  | .mul | .div | .mod => 8

end BinaryOp

/-- An operator in front of its operand. -/
inductive UnaryOp where
  | neg | plus | not | bitNot
  deriving DecidableEq, Repr

namespace UnaryOp

/-- Every operator in front of its operand. -/
def all : List UnaryOp := [.neg, .plus, .not, .bitNot]

/-- How an operator is written. -/
def piece : UnaryOp → Piece
  | .neg => .symbol .minus
  | .plus => .symbol .plus
  | .not => .keyword .NOT
  | .bitNot => .symbol .bitNot

/-- The operator that a token stands for in front of an operand. -/
def ofToken? : TokenKind → Option UnaryOp
  | .symbol .minus => some .neg
  | .symbol .plus => some .plus
  | .keyword .NOT => some .not
  | .symbol .bitNot => some .bitNot
  | _ => none

end UnaryOp

/-- An operator between two queries. -/
inductive SetOperator where
  | union | intersect | except
  deriving DecidableEq, Repr

namespace SetOperator

/-- Every operator between two queries. -/
def all : List SetOperator := [.union, .intersect, .except]

/-- The word. -/
def keyword : SetOperator → Keyword
  | .union => .UNION
  | .intersect => .INTERSECT
  | .except => .EXCEPT

/-- The operator that a token stands for between two queries. -/
def ofToken? : TokenKind → Option SetOperator
  | .keyword .UNION => some .union
  | .keyword .INTERSECT => some .intersect
  | .keyword .EXCEPT => some .except
  | _ => none

/-- Whether the operator binds tighter than the others. -/
def bindsTighter (op : SetOperator) : Bool :=
  op == .intersect

end SetOperator

/-- What is written behind a set operator. -/
inductive SetQuantifier where
  | none | all | distinct
  deriving DecidableEq, Repr

end SqlTree
