import SqlTree.Text.CharClass

/-! # Bytes in hexadecimal digits

* `ofBytes`: two digits a byte, the letters in upper case.
* `toBytes`: reads digits of either case back; blanks between them do not count.
-/

namespace SqlTree.Text.Hexadecimal
set_option autoImplicit false

/-- Why a run of characters is not a list of bytes. -/
inductive Fault where
  /-- A character is neither a hexadecimal digit nor a blank. -/
  | strayCharacter
  /-- The last byte has one digit only. -/
  | halfByte
  deriving DecidableEq, Repr

/-- The digit for a value below sixteen. -/
def digit (n : Nat) : Char :=
  if n < 10 then Char.ofNat (48 + n) else Char.ofNat (55 + n)

/-- The value of a digit of ASCII, in either case. -/
def value? (c : Char) : Option Nat :=
  let n := c.toNat
  if 48 ≤ n ∧ n ≤ 57 then some (n - 48)
  else if 65 ≤ n ∧ n ≤ 70 then some (n - 55)
  else if 97 ≤ n ∧ n ≤ 102 then some (n - 87)
  else none

/-- Two digits a byte. -/
def ofBytes (bytes : List UInt8) : List Char :=
  bytes.flatMap fun b => [digit (b.toNat / 16), digit (b.toNat % 16)]

/-- Joins the values of digits two by two. -/
def pairs : List Nat → Except Fault (List UInt8)
  | [] => .ok []
  | [_] => .error .halfByte
  | a :: b :: rest => (pairs rest).map (UInt8.ofNat (16 * a + b) :: ·)

/-- The bytes that the digits stand for. A stray character counts before a missing digit. -/
def toBytes (text : List Char) : Except Fault (List UInt8) :=
  match (text.filter fun c => !isBlank c).mapM value? with
  | none => .error .strayCharacter
  | some values => pairs values

end SqlTree.Text.Hexadecimal
