import SqlTree.Layout
import SqlTree.Text.Quoted

/-! # Names

* `Ident`: one name, quoted or not. A quote inside a quoted name is written twice.
* `ObjectName`: names with points between them, such as `project.dataset.table`.
* `Alias`: another name for an item, perhaps with names for its columns.

Each has its written form as `layout`.
-/

namespace SqlTree
set_option autoImplicit false

/-- A name without its quotes, and the opening quote if there is one. -/
structure Ident where
  name : String
  quote : Option Char := none
  deriving DecidableEq, Repr

namespace Ident

/-- The quote that closes what `opening` opens. -/
def closingQuote (opening : Char) : Char :=
  if opening = '[' then ']' else opening

/-- The written form. -/
def text (i : Ident) : String :=
  match i.quote with
  | none => i.name
  | some q => Text.Quoted.enclose q (closingQuote q) i.name

/-- The written form, one token. -/
def layout (i : Ident) : Layout :=
  [.word i.text]

/-- The written forms of several names with commas. -/
def listLayout (names : List Ident) : Layout :=
  Layout.commas (names.map layout)

end Ident

/-- Names with points between them, from the outermost to the innermost. -/
structure ObjectName where
  parts : List Ident
  deriving DecidableEq, Repr

namespace ObjectName

/-- Cuts a text at its points; `n` points make `n + 1` parts. -/
def splitParts : List Char → List (List Char)
  | [] => [[]]
  | c :: cs =>
    if c = '.' then [] :: splitParts cs
    else
      match splitParts cs with
      | [] => [[c]]
      | part :: parts => (c :: part) :: parts

/-- The name with unquoted parts that a text spells, cut at its points. -/
def ofText (text : String) : ObjectName :=
  ⟨(splitParts text.toList).map fun part => { name := String.ofList part }⟩

/-- The innermost part. -/
def base? (n : ObjectName) : Option Ident :=
  n.parts.getLast?

/-- The written form. -/
def layout (n : ObjectName) : Layout :=
  Layout.sepBy [.symbol .dot] (n.parts.map Ident.layout)

/-- The written text. -/
def text (n : ObjectName) : String :=
  n.layout.chars

end ObjectName

/-- Another name for an item. -/
structure Alias where
  name : Ident
  /-- Whether `AS` is written in front. -/
  withAs : Bool
  /-- Names for the columns of the item. -/
  columns : List Ident := []
  deriving DecidableEq, Repr

namespace Alias

/-- An alias behind `AS`. -/
def explicit (name : Ident) : Alias :=
  { name, withAs := true }

/-- An alias without `AS`. -/
def implicit (name : Ident) : Alias :=
  { name, withAs := false }

/-- The written form. -/
def layout (a : Alias) : Layout :=
  Layout.onlyIf a.withAs [.keyword .AS, .gap] ++ a.name.layout ++
    Layout.onlyIf (!a.columns.isEmpty) (Layout.parens (Ident.listLayout a.columns))

end Alias

end SqlTree
