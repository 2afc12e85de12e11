import SqlTree.Number.Binary64
import SqlTree.Number.Decimal

/-! # Floating-point numbers as decimal text

* `Binary64.shortest`: the decimal with the fewest digits that reads back; of two, the nearer one,
  and the upper one of two equally near.
* `Binary64.text`: positional from `1e-4` up to but not including `1e16`, always with a point;
  outside that range one digit, a point if more follow, and an exponent.
* `Binary64.read?`: the number nearest to a decimal text, or one of the names of the infinities
  and of what is not a number.
-/

namespace SqlTree.Binary64
set_option autoImplicit false

/-! ## The fewest digits -/

/-- The number `digits * 10 ^ exponent`. -/
structure DecimalForm where
  digits : Nat
  exponent : Int
  deriving DecidableEq, Repr

namespace DecimalForm

/-- Moves zeros at the end of the digits into the exponent, at most `n` of them. -/
def trimWithin : Nat → DecimalForm → DecimalForm
  | 0, d => d
  | n + 1, d =>
    if d.digits ≠ 0 ∧ d.digits % 10 = 0 then trimWithin n ⟨d.digits / 10, d.exponent + 1⟩ else d

/-- The same number without zeros at the end of the digits. -/
def trim (d : DecimalForm) : DecimalForm :=
  trimWithin (digitCount d.digits) d

/-- All digits of `significand * 2 ^ exponent`. -/
def exact (significand : Nat) (exponent : Int) : DecimalForm :=
  ⟨significand * Nat.pow 2 exponent.toNat * Nat.pow 5 (-exponent).toNat,
   -((-exponent).toNat : Int)⟩

/-- The neighbours of the number among those with the given number of digits, the lower one first,
and whether the upper one is at least as near. -/
def neighbours (d : DecimalForm) (count : Nat) : DecimalForm × DecimalForm × Bool :=
  let dropped := digitCount d.digits - count
  let step := Nat.pow 10 dropped
  let lower := d.digits / step
  let exponent := d.exponent + dropped
  (⟨lower, exponent⟩, ⟨lower + 1, exponent⟩, step ≤ 2 * (d.digits % step))

/-- Looks for the fewest digits, from `count` on and within `n` tries, that read back as the
magnitude `m`; the exact number `d` always does. -/
def shortestFrom (d : DecimalForm) (m : Nat) : Nat → Nat → DecimalForm
  | 0, _ => d
  | n + 1, count =>
    let (lower, upper, upperNearer) := d.neighbours count
    let reads (c : DecimalForm) : Bool := nearestDecimal c.digits c.exponent == m
    match reads lower, reads upper with
    | true, true => if upperNearer then upper else lower
    | true, false => lower
    | false, true => upper
    | false, false => shortestFrom d m n (count + 1)

end DecimalForm

/-- The decimal with the fewest digits that reads back as `significand * 2 ^ exponent`. -/
def shortest (significand : Nat) (exponent : Int) : DecimalForm :=
  let d := DecimalForm.exact significand exponent
  let m := nearestDecimal d.digits d.exponent
  (d.shortestFrom m (digitCount d.digits) 1).trim

/-! ## Writing -/

/-- Decimal exponents of the first digit that are written positionally. -/
structure PositionalRange where
  least : Int
  greatest : Int

/-- Numbers from `1e-4` on and below `1e16` are written positionally. -/
def positional : PositionalRange := ⟨-4, 15⟩

/-- Digits with a point in or around them, at least one on either side. -/
def writePositional (digits : List Char) (exponent : Int) : List Char :=
  if 0 ≤ exponent then digits ++ List.replicate exponent.toNat '0' ++ ['.', '0']
  else
    let places := (-exponent).toNat
    if places < digits.length then
      digits.take (digits.length - places) ++ '.' :: digits.drop (digits.length - places)
    else '0' :: '.' :: List.replicate (places - digits.length) '0' ++ digits

/-- One digit, a point if more follow, and the exponent of the first digit. -/
def writeScientific (digits : List Char) (exponent : Int) : List Char :=
  let top : Int := exponent + digits.length - 1
  match digits with
  | [] => []
  | [c] => c :: 'e' :: Decimal.writeInt top
  | c :: more => c :: '.' :: more ++ 'e' :: Decimal.writeInt top

/-- A magnitude `significand * 2 ^ exponent` as text. -/
def writeFinite (significand : Nat) (exponent : Int) : List Char :=
  if significand = 0 then ['0', '.', '0']
  else
    let d := shortest significand exponent
    let digits := Decimal.write d.digits
    let top : Int := d.exponent + digits.length - 1
    if positional.least ≤ top ∧ top ≤ positional.greatest then
      writePositional digits d.exponent
    else writeScientific digits d.exponent

/-- A number as text. -/
def write (x : Binary64) : List Char :=
  match x.parts with
  | .notANumber => ['N', 'a', 'N']
  | .infinite negative => (if negative then ['-'] else []) ++ ['i', 'n', 'f']
  | .finite negative significand exponent =>
    (if negative then ['-'] else []) ++ writeFinite significand exponent

/-- A number as text. -/
def text (x : Binary64) : String :=
  String.ofList x.write

/-! ## Reading -/

/-- An exponent part: nothing, or a mark, an optional sign and digits. -/
def readExponent? : List Char → Option Int
  | [] => some 0
  | c :: rest =>
    if c = 'e' ∨ c = 'E' then
      match Decimal.splitSign rest with
      | (negative, digits) =>
        if digits.isEmpty || !digits.all Char.isDigit then none
        else
          let n : Int := Decimal.value digits
          some (if negative then -n else n)
    else none

/-- The magnitude nearest to an unsigned decimal: digits on one side of the point at least. -/
def readMagnitude? (chars : List Char) : Option Nat :=
  let whole := chars.takeWhile Char.isDigit
  let afterWhole := chars.dropWhile Char.isDigit
  let (fraction, rest) :=
    match afterWhole with
    | '.' :: more => (more.takeWhile Char.isDigit, more.dropWhile Char.isDigit)
    | _ => ([], afterWhole)
  if whole.isEmpty && fraction.isEmpty then none
  else
    (readExponent? rest).map fun e =>
      nearestDecimal (Decimal.value (whole ++ fraction)) (e - fraction.length)

/-- The number that a text stands for: an optional sign, then a decimal or, in any case of
letters, `inf`, `infinity` or `nan`. -/
def read? (chars : List Char) : Option Binary64 :=
  let (negative, rest) := Decimal.splitSign chars
  let word := rest.map Char.toUpper
  if word = ['I', 'N', 'F'] ∨ word = ['I', 'N', 'F', 'I', 'N', 'I', 'T', 'Y'] then
    some (ofMagnitude negative infinity)
  else if word = ['N', 'A', 'N'] then some notANumber
  else (readMagnitude? rest).map (ofMagnitude negative)

end SqlTree.Binary64
