/-! # Decimal digits

* `write`: the digits of a number, without leading zeros.
* `value`: the number that a run of digits stands for.
* `readBelow?`: the value of a run of digits, when it is below a bound.
* `readInt64?`: a signed whole number of 64 bits.

`value_write` says that a written number is read back.
-/

namespace SqlTree.Decimal
set_option autoImplicit false

/-- The character of a digit. -/
def digit (n : Nat) : Char :=
  Char.ofNat (48 + n)

/-- The digits of `n`, the highest first. -/
def write (n : Nat) : List Char :=
  if n < 10 then [digit n] else write (n / 10) ++ [digit (n % 10)]

/-- The number that digits stand for. -/
def value (digits : List Char) : Nat :=
  digits.foldl (fun n c => 10 * n + (c.toNat - 48)) 0

theorem value_concat (digits : List Char) (c : Char) :
    value (digits ++ [c]) = 10 * value digits + (c.toNat - 48) := by
  simp [value]

theorem toNat_digit {n : Nat} (h : n < 10) : (digit n).toNat = 48 + n := by
  have : ∀ m < 10, (digit m).toNat = 48 + m := by decide
  exact this n h

theorem value_write (n : Nat) : value (write n) = n := by
  fun_induction write n with
  | case1 n h => simp [value, toNat_digit h]
  | case2 n h ih =>
    rw [value_concat, ih, toNat_digit (Nat.mod_lt _ (by decide))]
    omega

/-- A written whole number. -/
def text (n : Nat) : String :=
  String.ofList (write n)

/-- The value of one or more digits, when it is below `bound`. -/
def readBelow? (bound : Nat) (digits : List Char) : Option Nat :=
  if digits.isEmpty || !digits.all Char.isDigit then none
  else if value digits < bound then some (value digits) else none

/-- Splits a sign off; a leading plus counts as no sign. -/
def splitSign : List Char → Bool × List Char
  | '-' :: rest => (true, rest)
  | '+' :: rest => (false, rest)
  | rest => (false, rest)

/-- A whole number with an optional sign that fits 64 bits in two's complement. -/
def readInt64? (chars : List Char) : Option Int :=
  match splitSign chars with
  | (true, digits) => (readBelow? (Nat.pow 2 63 + 1) digits).map fun n => -(n : Int)
  | (false, digits) => (readBelow? (Nat.pow 2 63) digits).map fun n => (n : Int)

/-- A whole number with its sign, a plus left out. -/
def writeInt (n : Int) : List Char :=
  if n < 0 then '-' :: write n.natAbs else write n.natAbs

end SqlTree.Decimal
