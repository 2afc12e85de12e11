/-! # Binary floating-point numbers of 64 bits

A number is its bit pattern; magnitudes are the patterns without the sign, which increase with
the number they stand for.

* `Binary64.magnitude`: the pattern nearest to a quotient of whole numbers, ties to the even one.
* `Binary64.nearestDecimal`: the pattern nearest to `digits * 10 ^ exponent`.
* `Binary64.parts`: sign and class of a pattern, with the exact value `m * 2 ^ q` of a finite one.
* `Binary64.ofSingle`: a number of 32 bits, widened.
-/

namespace SqlTree
set_option autoImplicit false

/-- A floating-point number of 64 bits, as its bit pattern. -/
structure Binary64 where
  bits : UInt64
  deriving DecidableEq, Repr

namespace Binary64

/-- The magnitude of infinity; larger ones stand for no number. -/
def infinity : Nat := 0x7FF * Nat.pow 2 52

/-- Attaches a sign to a magnitude. -/
def ofMagnitude (negative : Bool) (magnitude : Nat) : Binary64 :=
  ⟨UInt64.ofNat ((if negative then Nat.pow 2 63 else 0) + magnitude)⟩

/-- A pattern that stands for no number. -/
def notANumber : Binary64 :=
  ofMagnitude false (infinity + Nat.pow 2 51)

/-! ## Rounding -/

/-- The whole number nearest to `num / den`, ties to the even one. -/
def roundEven (num den : Nat) : Nat :=
  let q := num / den
  let r := num % den
  if 2 * r > den ∨ (2 * r = den ∧ q % 2 = 1) then q + 1 else q

/-- The greatest `e` with `2 ^ e ≤ num / den`, for positive numbers. -/
def floorLog2 (num den : Nat) : Int :=
  let e : Int := (num.log2 : Int) - (den.log2 : Int)
  if den * Nat.pow 2 e.toNat ≤ num * Nat.pow 2 (-e).toNat then e else e - 1

/-- The magnitude nearest to `num / den`, for a positive `den`. A significand has 53 bits and no
unit is below `2 ^ -1074`; what is too large becomes infinity. -/
def magnitude (num den : Nat) : Nat :=
  if num = 0 then 0
  else
    let unit : Int := max (floorLog2 num den - 52) (-1074)
    let significand := roundEven (num * Nat.pow 2 (-unit).toNat) (den * Nat.pow 2 unit.toNat)
    min infinity ((unit + 1074).toNat * Nat.pow 2 52 + significand)

/-- The number of decimal digits of `n`; none for zero. -/
def digitCount (n : Nat) : Nat :=
  if n = 0 then 0 else digitCount (n / 10) + 1

/-- The magnitude nearest to `digits * 10 ^ exponent`. What is beyond every number, or below half
of the least one, is settled without raising ten to the exponent. -/
def nearestDecimal (digits : Nat) (exponent : Int) : Nat :=
  let top : Int := digitCount digits + exponent
  if digits = 0 ∨ top < -330 then 0
  else if 330 < top then infinity
  else magnitude (digits * Nat.pow 10 exponent.toNat) (Nat.pow 10 (-exponent).toNat)

/-! ## Taking patterns apart -/

/-- What a pattern stands for. -/
inductive Parts where
  | notANumber
  | infinite (negative : Bool)
  /-- The number `significand * 2 ^ exponent`, with the sign kept for zero too. -/
  | finite (negative : Bool) (significand : Nat) (exponent : Int)
  deriving DecidableEq, Repr

/-- The class of a pattern and the exact value of a finite one. -/
def parts (x : Binary64) : Parts :=
  let n := x.bits.toNat
  let negative := n / Nat.pow 2 63 == 1
  let field : Nat := n / Nat.pow 2 52 % Nat.pow 2 11
  let fraction : Nat := n % Nat.pow 2 52
  if field = 0x7FF then
    if fraction = 0 then .infinite negative else .notANumber
  else if field = 0 then .finite negative fraction (-1074)
  else .finite negative (Nat.pow 2 52 + fraction) ((field : Int) - 1075)

/-- The number that a pattern of 32 bits stands for; every such number is one of 64 bits. -/
def ofSingle (bits : UInt32) : Binary64 :=
  let n := bits.toNat
  let negative := n / Nat.pow 2 31 == 1
  let field : Nat := n / Nat.pow 2 23 % Nat.pow 2 8
  let fraction : Nat := n % Nat.pow 2 23
  if field = 0xFF then
    if fraction = 0 then ofMagnitude negative infinity else notANumber
  else
    let significand := if field = 0 then fraction else Nat.pow 2 23 + fraction
    let exponent : Int := if field = 0 then -149 else (field : Int) - 150
    ofMagnitude negative
      (magnitude (significand * Nat.pow 2 exponent.toNat) (Nat.pow 2 (-exponent).toNat))

end Binary64

end SqlTree
