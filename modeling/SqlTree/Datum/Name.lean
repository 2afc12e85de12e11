import SqlTree.DataType.Basic
import SqlTree.Datum.Basic
import SqlTree.Dialect
import SqlTree.Statement.Grammar.Any

/-! # Names, data types and options as data

For each type the function `datum` writes a value and `ofDatum?` reads it.
-/

namespace SqlTree
set_option autoImplicit false

/-! ## Names -/

namespace Ident

/-- A name as data. -/
def datum (i : Ident) : Datum :=
  .record [("value", .text i.name), ("quote_style", .ofOption .ofChar i.quote)]

/-- Reads a name. -/
def ofDatum? (d : Datum) : Option Ident :=
  match d.members? ["value", "quote_style"] with
  | some [name, quote] => do
    return { name := ← Datum.required Datum.text? name,
             quote := ← Datum.optional Datum.char? quote }
  | _ => none

end Ident

namespace ObjectName

/-- Names with points between them as data. -/
def datum (n : ObjectName) : Datum :=
  .ofList Ident.datum n.parts

/-- Reads names with points between them. -/
def ofDatum? (d : Datum) : Option ObjectName :=
  (d.list? Ident.ofDatum?).map ObjectName.mk

end ObjectName

namespace Alias

/-- An alias as data. -/
def datum (a : Alias) : Datum :=
  .record [("name", a.name.datum), ("use_as", .boolean a.withAs),
    ("columns", .ofList Ident.datum a.columns)]

/-- Reads an alias. -/
def ofDatum? (d : Datum) : Option Alias :=
  match d.members? ["name", "use_as", "columns"] with
  | some [name, withAs, columns] => do
    return { name := ← Datum.required Ident.ofDatum? name,
             withAs := ← Datum.required Datum.boolean? withAs,
             columns := ← Datum.required (Datum.list? Ident.ofDatum?) columns }
  | _ => none

end Alias

/-! ## Data types -/

/-- The name of the case. -/
def PlainType.caseName : PlainType → String
  | .smallint => "Smallint"
  | .int => "Int"
  | .integer => "Integer"
  | .bigint => "Bigint"
  | .real => "Real"
  | .double => "Double"
  | .text => "Text"
  | .blob => "Blob"
  | .date => "Date"
  | .time => "Time"
  | .timestamp => "Timestamp"
  | .datetime => "Datetime"
  | .boolean => "Boolean"

/-- The name of the case. -/
def SizedType.caseName : SizedType → String
  | .float => "Float"
  | .char => "Char"
  | .varchar => "Varchar"

/-- The name of the case. -/
def ScaledType.caseName : ScaledType → String
  | .decimal => "Decimal"
  | .numeric => "Numeric"

/-- The name of the case. -/
def StructForm.caseName : StructForm → String
  | .angles => "AngleBrackets"
  | .parens => "Parentheses"

/-- The name of the case. -/
def ArrayForm.caseName : ArrayForm → String
  | .angles => "AngleBrackets"
  | .brackets => "SquareSuffix"

mutual

/-- A data type as data. -/
def DataType.datum : DataType → Datum
  | .plain type => .ofPlain PlainType.caseName type
  | .sized type length =>
    .variant type.caseName (.ofOption (fun n => .ofNat n.toNat) length)
  | .scaled type precision scale =>
    .variant type.caseName (.record [("precision", .ofOption (fun n => .ofNat n.toNat) precision),
      ("scale", .ofOption (fun n => .ofNat n.toNat) scale)])
  | .struct form fields =>
    .variant "Struct" (.record [("syntax", .ofPlain StructForm.caseName form),
      ("fields", .list (StructField.data fields))])
  | .array form element =>
    .variant "Array" (.record [("element", element.datum),
      ("syntax", .ofPlain ArrayForm.caseName form)])
  | .custom name modifiers =>
    .variant "Custom" (.record [("name", .text name), ("modifiers", .ofList .text modifiers)])

/-- A field of a struct type as data. -/
def StructField.datum : StructField → Datum
  | ⟨name, type⟩ => .record [("name", .ofOption Ident.datum name), ("data_type", type.datum)]

/-- Fields of a struct type as data. -/
def StructField.data : List StructField → List Datum
  | [] => []
  | f :: fs => f.datum :: StructField.data fs

end

/-- Reads a field of a struct type; `type` reads its type. -/
def StructField.ofDatumWith? (type : Datum → Option DataType) (d : Datum) : Option StructField :=
  match d.members? ["name", "data_type"] with
  | some [name, dataType] => do
    return { name := ← Datum.optional Ident.ofDatum? name,
             type := ← Datum.required type dataType }
  | _ => none

namespace DataType

/-- Reads a data type with the name and the content of its case; `type` reads the types in it. -/
def ofCase? (type : Datum → Option DataType) (name : String) (content : Datum) :
    Option DataType :=
  match SizedType.all.find? (·.caseName == name) with
  | some t => (content.option? Datum.word32?).map (.sized t)
  | none =>
    match ScaledType.all.find? (·.caseName == name) with
    | some t =>
      match content.fields? ["precision", "scale"] with
      | some [precision, scale] => do
        return .scaled t (← Datum.optional Datum.word16? precision)
          (← Datum.optional Datum.word16? scale)
      | _ => none
    | none =>
      match name with
      | "Struct" =>
        match content.fields? ["syntax", "fields"] with
        | some [form, fields] => do
          return .struct
            (← Datum.required (Datum.plain? StructForm.all StructForm.caseName) form)
            (← Datum.required (Datum.list? (StructField.ofDatumWith? type)) fields)
        | _ => none
      | "Array" =>
        match content.fields? ["element", "syntax"] with
        | some [element, form] => do
          let element ← Datum.required type element
          return .array
            (← Datum.required (Datum.plain? ArrayForm.all ArrayForm.caseName) form) element
        | _ => none
      | "Custom" =>
        match content.fields? ["name", "modifiers"] with
        | some [name, modifiers] => do
          return .custom (← Datum.required Datum.text? name)
            (← Datum.required (Datum.list? Datum.text?) modifiers)
        | _ => none
      | _ => none

/-- Reads a data type that nests less than `n` deep. -/
def ofDatumWithin? : Nat → Datum → Option DataType
  | 0, _ => none
  | n + 1, d =>
    match d.plain? PlainType.all PlainType.caseName with
    | some t => some (.plain t)
    | none =>
      match d.variant? with
      | some (name, some content) => ofCase? (fun d => ofDatumWithin? n d) name content
      | _ => none

/-- Reads a data type. -/
def ofDatum? (d : Datum) : Option DataType :=
  ofDatumWithin? d.depth d

end DataType

/-- Reads a field of a struct type. -/
def StructField.ofDatum? (d : Datum) : Option StructField :=
  StructField.ofDatumWith? DataType.ofDatum? d

/-! ## Options -/

/-- Reads options. Each one that is absent has its default; in a list, options at the end may be
left out. -/
def Options.ofDatum? (d : Datum) : Option Options :=
  let dialect? (d : Datum) : Option Dialect := d.plain? Dialect.all Dialect.name
  let read (dialect keep : Option Datum) : Option Options := do
    return { dialect := ← dialect.elim (some .generic) dialect?,
             keepUnsupported := ← keep.elim (some true) Datum.boolean? }
  match d with
  | .record fields => read (fields.lookup "dialect") (fields.lookup "unsupported_fallback")
  | .list [] => read none none
  | .list [dialect] => read (some dialect) none
  | .list [dialect, keep] => read (some dialect) (some keep)
  | _ => none

end SqlTree
