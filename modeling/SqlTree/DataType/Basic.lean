import SqlTree.Name.Basic
import SqlTree.Number.Decimal

/-! # Data types

* `DataType`: a type as it is written, with `StructField` for the fields of a struct type.
* `DataType.layout`, `StructField.layout`: the written form.
* `DataType.text`, `StructField.text`: the written text.

Lengths have 32 bits, precisions and scales 16.
-/

namespace SqlTree
set_option autoImplicit false

/-- A type that is one word. -/
inductive PlainType where
  | smallint | int | integer | bigint | real | double | text | blob
  | date | time | timestamp | datetime | boolean
  deriving DecidableEq, Repr

namespace PlainType

/-- Every type that is one word. -/
def all : List PlainType :=
  [.smallint, .int, .integer, .bigint, .real, .double, .text, .blob, .date, .time, .timestamp,
    .datetime, .boolean]

/-- The word. -/
def keyword : PlainType → Keyword
  | .smallint => .SMALLINT
  | .int => .INT
  | .integer => .INTEGER
  | .bigint => .BIGINT
  | .real => .REAL
  | .double => .DOUBLE
  | .text => .TEXT
  | .blob => .BLOB
  | .date => .DATE
  | .time => .TIME
  | .timestamp => .TIMESTAMP
  | .datetime => .DATETIME
  | .boolean => .BOOLEAN

end PlainType

/-- A type with an optional length. -/
inductive SizedType where
  | float | char | varchar
  deriving DecidableEq, Repr

namespace SizedType

/-- Every type with an optional length. -/
def all : List SizedType := [.float, .char, .varchar]

/-- The word in front of the length. -/
def keyword : SizedType → Keyword
  | .float => .FLOAT
  | .char => .CHAR
  | .varchar => .VARCHAR

end SizedType

/-- A type with an optional precision and scale. -/
inductive ScaledType where
  | decimal | numeric
  deriving DecidableEq, Repr

namespace ScaledType

/-- Every type with an optional precision and scale. -/
def all : List ScaledType := [.decimal, .numeric]

/-- The word in front of precision and scale. -/
def keyword : ScaledType → Keyword
  | .decimal => .DECIMAL
  | .numeric => .NUMERIC

end ScaledType

/-- What encloses the fields of a struct type. -/
inductive StructForm where
  | angles | parens
  deriving DecidableEq, Repr

/-- Everything that encloses fields. -/
def StructForm.all : List StructForm := [.angles, .parens]

/-- How an array type is written: `ARRAY<t>` or `t[]`. -/
inductive ArrayForm where
  | angles | brackets
  deriving DecidableEq, Repr

/-- Every way to write an array type. -/
def ArrayForm.all : List ArrayForm := [.angles, .brackets]

mutual

/-- A data type as it is written. -/
inductive DataType where
  | plain (type : PlainType)
  | sized (type : SizedType) (length : Option UInt32)
  | scaled (type : ScaledType) (precision scale : Option UInt16)
  | struct (form : StructForm) (fields : List StructField)
  | array (form : ArrayForm) (element : DataType)
  /-- Any other type, with its modifiers as written. -/
  | custom (name : String) (modifiers : List String)

/-- A field of a struct type; it may lack a name. -/
structure StructField where
  name : Option Ident
  type : DataType

end

/-! ## Written form -/

namespace DataType

/-- A number in parentheses behind a type. -/
def lengthLayout : Option UInt32 → Layout
  | none => []
  | some n => Layout.parens [.word (Decimal.text n.toNat)]

/-- Precision and scale in parentheses; a scale alone is not written. -/
def scaleLayout : Option UInt16 → Option UInt16 → Layout
  | none, _ => []
  | some p, none => Layout.parens [.word (Decimal.text p.toNat)]
  | some p, some s =>
    Layout.parens [.word (Decimal.text p.toNat), .symbol .comma, .gap,
      .word (Decimal.text s.toNat)]

end DataType

mutual

/-- The written form of a type. -/
def DataType.layout : DataType → Layout
  | .plain type => [.keyword type.keyword]
  | .sized type length => .keyword type.keyword :: DataType.lengthLayout length
  | .scaled type precision scale =>
    .keyword type.keyword :: DataType.scaleLayout precision scale
  | .struct .angles fields =>
    [.keyword .STRUCT, .symbol .less] ++ Layout.commas (StructField.layouts fields) ++
      [.closingAngle]
  | .struct .parens fields =>
    .keyword .STRUCT :: Layout.parens (Layout.commas (StructField.layouts fields))
  | .array .angles element =>
    [.keyword .ARRAY, .symbol .less] ++ element.layout ++ [.closingAngle]
  | .array .brackets element =>
    element.layout ++ [.symbol .leftBracket, .symbol .rightBracket]
  | .custom name modifiers =>
    .word name :: Layout.onlyIf (!modifiers.isEmpty)
      (Layout.parens (Layout.commas (modifiers.map Layout.word)))

/-- The written form of a field. -/
def StructField.layout : StructField → Layout
  | ⟨none, type⟩ => type.layout
  | ⟨some name, type⟩ => name.layout ++ .gap :: type.layout

/-- The written forms of several fields. -/
def StructField.layouts : List StructField → List Layout
  | [] => []
  | f :: fs => f.layout :: StructField.layouts fs

end

theorem StructField.layouts_eq_map (fields : List StructField) :
    StructField.layouts fields = fields.map StructField.layout := by
  induction fields with
  | nil => rfl
  | cons f fs ih => simp [StructField.layouts, ih]

/-- The written text of a type. -/
def DataType.text (t : DataType) : String :=
  t.layout.chars

/-- The written text of a field. -/
def StructField.text (f : StructField) : String :=
  f.layout.chars

end SqlTree
