import SqlTree.Text.Alphabetic
import SqlTree.Text.Numeric

/-! # Classes of characters

The classes the lexer looks at.

* `isBlank`: the property White_Space.
* `isLetter`: the property Alphabetic. `isNumeral`: the categories Nd, Nl and No.
* `isWordStart`, `isWordPart`: what a bare word may begin with and go on with.
* `foldAscii`: letters of ASCII in upper case, every other character as it is.

Inside ASCII a class is decided by plain comparisons; a table is consulted only beyond.
-/

namespace SqlTree.Text
set_option autoImplicit false

/-- Searches `table[lo .. hi)`, whose intervals increase, for one that holds `n`. -/
def searchIntervals (table : Array (Nat × Nat)) (n lo hi : Nat) : Bool :=
  if lo < hi then
    let mid := (lo + hi) / 2
    match table[mid]? with
    | none => false
    | some (first, last) =>
      if n < first then searchIntervals table n lo mid
      else if last < n then searchIntervals table n (mid + 1) hi
      else true
  else false
termination_by hi - lo

/-- Whether one of the increasing intervals of `table` holds the code point of `c`. -/
def inIntervals (table : Array (Nat × Nat)) (c : Char) : Bool :=
  searchIntervals table c.toNat 0 table.size

/-- White space: the property White_Space. -/
def isBlank (c : Char) : Bool :=
  let n := c.toNat
  (9 ≤ n && n ≤ 13) || n == 32 || n == 0x85 || n == 0xA0 || n == 0x1680 ||
    (0x2000 ≤ n && n ≤ 0x200A) || n == 0x2028 || n == 0x2029 || n == 0x202F || n == 0x205F ||
    n == 0x3000

/-- A letter: the property Alphabetic. -/
def isLetter (c : Char) : Bool :=
  if c.toNat < 128 then c.isAlpha else inIntervals alphabetic c

/-- A numeral: the general categories Nd, Nl and No. -/
def isNumeral (c : Char) : Bool :=
  if c.toNat < 128 then c.isDigit else inIntervals numeric c

/-- A bare word begins with a letter or an underscore. -/
def isWordStart (c : Char) : Bool :=
  isLetter c || c == '_'

/-- A bare word goes on with letters, numerals and underscores. -/
def isWordPart (c : Char) : Bool :=
  isLetter c || isNumeral c || c == '_'

theorem isWordPart_of_isWordStart {c : Char} (h : isWordStart c = true) : isWordPart c = true := by
  simp only [isWordStart, isWordPart, Bool.or_eq_true] at h ⊢
  rcases h with h | h
  · exact .inl (.inl h)
  · exact .inr h

/-- Letters of ASCII in upper case, every other character as it is. -/
def foldAscii (text : String) : String :=
  String.ofList (text.toList.map Char.toUpper)

/-- Equality of texts up to the case of ASCII letters. -/
def sameIgnoringCase (a b : String) : Bool :=
  foldAscii a == foldAscii b

end SqlTree.Text
