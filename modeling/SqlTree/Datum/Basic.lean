/-! # Data for exchanging trees

* `Datum`: nothing, truth values, numbers, texts, lists and records.
* Building: `Datum.variant` for one case of several, `Datum.ofOption`, `Datum.ofList`.
* Reading: `Datum.fields?` for the fields of a record in a given order, `Datum.members?` for the
  same out of a record or a list, `required` and `optional` for one of them, `Datum.variant?` for
  one case of several.

A record may have fields that nobody asks for. A field that may be missing is nothing if it is
absent. What is a structure by itself may also stand as a list of its fields, in their order and
none left out; the fields that belong to one case of several stand in a record.
-/

namespace SqlTree
set_option autoImplicit false

/-- Data without any type of their own. -/
inductive Datum where
  | null
  | boolean (value : Bool)
  | whole (value : Int)
  /-- A number that is not written as a whole one. -/
  | fraction
  | text (value : String)
  | list (items : List Datum)
  | record (fields : List (String × Datum))
  deriving Inhabited

namespace Datum

/-! ## Equality -/

mutual

/-- Decides whether two data are the same. -/
def decide (a b : Datum) : Decidable (a = b) :=
  match a, b with
  | .null, .null => isTrue rfl
  | .boolean x, .boolean y => decidable_of_iff (x = y) (by simp)
  | .whole x, .whole y => decidable_of_iff (x = y) (by simp)
  | .fraction, .fraction => isTrue rfl
  | .text x, .text y => decidable_of_iff (x = y) (by simp)
  | .list xs, .list ys =>
    haveI := decideList xs ys
    decidable_of_iff (xs = ys) (by simp)
  | .record xs, .record ys =>
    haveI := decideFields xs ys
    decidable_of_iff (xs = ys) (by simp)
  | .null, .boolean _ | .null, .whole _ | .null, .fraction | .null, .text _ | .null, .list _
  | .null, .record _
  | .boolean _, .null | .boolean _, .whole _ | .boolean _, .fraction | .boolean _, .text _
  | .boolean _, .list _ | .boolean _, .record _
  | .whole _, .null | .whole _, .boolean _ | .whole _, .fraction | .whole _, .text _
  | .whole _, .list _ | .whole _, .record _
  | .fraction, .null | .fraction, .boolean _ | .fraction, .whole _ | .fraction, .text _
  | .fraction, .list _ | .fraction, .record _
  | .text _, .null | .text _, .boolean _ | .text _, .whole _ | .text _, .fraction
  | .text _, .list _ | .text _, .record _
  | .list _, .null | .list _, .boolean _ | .list _, .whole _ | .list _, .fraction
  | .list _, .text _ | .list _, .record _
  | .record _, .null | .record _, .boolean _ | .record _, .whole _ | .record _, .fraction
  | .record _, .text _ | .record _, .list _ => isFalse (by intro h; cases h)

/-- Decides whether two lists of data are the same. -/
def decideList (a b : List Datum) : Decidable (a = b) :=
  match a, b with
  | [], [] => isTrue rfl
  | x :: xs, y :: ys =>
    haveI := decide x y
    haveI := decideList xs ys
    decidable_of_iff (x = y ∧ xs = ys) (by simp)
  | [], _ :: _ | _ :: _, [] => isFalse (by intro h; cases h)

/-- Decides whether the fields of two records are the same. -/
def decideFields (a b : List (String × Datum)) : Decidable (a = b) :=
  match a, b with
  | [], [] => isTrue rfl
  | (k, x) :: xs, (l, y) :: ys =>
    haveI := decide x y
    haveI := decideFields xs ys
    decidable_of_iff (k = l ∧ x = y ∧ xs = ys) (by simp [and_assoc])
  | [], _ :: _ | _ :: _, [] => isFalse (by intro h; cases h)

end

instance : DecidableEq Datum := decide

/-! ## Depth -/

mutual

/-- How many lists and records enclose the innermost datum, counting that datum too. -/
def depth : Datum → Nat
  | .list items => depthList items + 1
  | .record fields => depthFields fields + 1
  | _ => 1

/-- The greatest depth in a list. -/
def depthList : List Datum → Nat
  | [] => 0
  | d :: ds => max (depth d) (depthList ds)

/-- The greatest depth among fields. -/
def depthFields : List (String × Datum) → Nat
  | [] => 0
  | (_, d) :: ds => max (depth d) (depthFields ds)

end

/-! ## Building -/

variable {α : Type}

/-- One case of several, with its content. -/
def variant (name : String) (content : Datum) : Datum :=
  .record [(name, content)]

/-- A whole number from zero on. -/
def ofNat (n : Nat) : Datum :=
  .whole n

/-- A text of one character. -/
def ofChar (c : Char) : Datum :=
  .text (String.ofList [c])

/-- A value that may be missing. -/
def ofOption (write : α → Datum) : Option α → Datum
  | none => .null
  | some a => write a

/-- A list of values. -/
def ofList (write : α → Datum) (items : List α) : Datum :=
  .list (items.map write)

/-! ## Reading -/

/-- A truth value. -/
def boolean? : Datum → Option Bool
  | .boolean value => some value
  | _ => none

/-- A text. -/
def text? : Datum → Option String
  | .text value => some value
  | _ => none

/-- A text of one character. -/
def char? : Datum → Option Char
  | .text value =>
    match value.toList with
    | [c] => some c
    | _ => none
  | _ => none

/-- A whole number from zero on and below a bound. -/
def natBelow? (bound : Nat) : Datum → Option Nat
  | .whole (.ofNat n) => if n < bound then some n else none
  | _ => none

/-- A number of 64 bits. -/
def word64? (d : Datum) : Option Nat :=
  d.natBelow? UInt64.size

/-- A number of 32 bits. -/
def word32? (d : Datum) : Option UInt32 :=
  (d.natBelow? UInt32.size).map UInt32.ofNat

/-- A number of 16 bits. -/
def word16? (d : Datum) : Option UInt16 :=
  (d.natBelow? UInt16.size).map UInt16.ofNat

/-- A byte. -/
def byte? (d : Datum) : Option UInt8 :=
  (d.natBelow? UInt8.size).map UInt8.ofNat

/-- A list of values. -/
def list? (read : Datum → Option α) : Datum → Option (List α)
  | .list items => items.mapM read
  | _ => none

/-- A value that may be missing. -/
def option? (read : Datum → Option α) : Datum → Option (Option α)
  | .null => some none
  | d => (read d).map some

/-- The named fields of a record, in the order of the names; absent ones are missing. -/
def fields? (names : List String) : Datum → Option (List (Option Datum))
  | .record fields => some (names.map fun name => fields.lookup name)
  | _ => none

/-- The members of a tuple: the named fields of a record, or a list of them in their order, from
which none is missing. -/
def members? (names : List String) : Datum → Option (List (Option Datum))
  | .list items => if items.length = names.length then some (items.map some) else none
  | d => d.fields? names

/-- A field that must be there. -/
def required (read : Datum → Option α) (field : Option Datum) : Option α :=
  field.bind read

/-- A field that may be absent or nothing. -/
def optional (read : Datum → Option α) : Option Datum → Option (Option α)
  | none => some none
  | some d => d.option? read

/-- One case of several: its name, and its content if it has one. -/
def variant? : Datum → Option (String × Option Datum)
  | .text name => some (name, none)
  | .record [(name, content)] => some (name, some content)
  | _ => none

/-- Whether the content of a case is nothing. -/
def isEmptyContent : Option Datum → Bool
  | none | some .null => true
  | some _ => false

/-- A case without content among the given ones, by its name. -/
def plain? (all : List α) (name : α → String) (d : Datum) : Option α :=
  match d.variant? with
  | some (word, content) =>
    if isEmptyContent content then all.find? (name · == word) else none
  | none => none

/-- A case without content, as its name. -/
def ofPlain (name : α → String) (a : α) : Datum :=
  .text (name a)

end Datum

end SqlTree
