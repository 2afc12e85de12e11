import SqlTree.Build.Error
import SqlTree.Build.Expr

/-! # Building struct values

* `StructDraft`: the typed fields and the values collected so far.
* `StructDraft.bigQuery`: the value `STRUCT<..>(..)`. If there are typed fields, there are as many
  values.
* `StructDraft.duckDb`: the value in braces. All values and typed fields have names.
* `BigQueryStructCall` and `DuckDbStructCall`: one addition each, and a whole list of them.
-/

namespace SqlTree
set_option autoImplicit false

/-- What a struct value is built from. -/
structure StructDraft where
  fields : List StructField := []
  arguments : List SelectItem := []

namespace StructDraft

/-- Adds a typed field. -/
def addField (d : StructDraft) (field : StructField) : StructDraft :=
  { d with fields := d.fields ++ [field] }

/-- Adds a value. -/
def addArgument (d : StructDraft) (argument : SelectItem) : StructDraft :=
  { d with arguments := d.arguments ++ [argument] }

/-- The typed fields, or nothing where there are none. -/
def fields? (d : StructDraft) : Option (List StructField) :=
  if d.fields.isEmpty then none else some d.fields

/-- The value in parentheses behind the word `STRUCT`. -/
def bigQuery (d : StructDraft) : Except BuildError Expr :=
  if !d.fields.isEmpty && d.fields.length != d.arguments.length then
    .error (.fieldCount d.fields.length d.arguments.length)
  else
    .ok (.struct { style := .bigQuery, word := some "STRUCT", fields := d.fields?,
                   arguments := some d.arguments })

/-- The value in braces. -/
def duckDb (d : StructDraft) : Except BuildError Expr :=
  match d.arguments.findIdx? fun argument => argument.alias?.isNone with
  | some index => .error (.unnamedArgument (index + 1))
  | none =>
    match d.fields.findIdx? fun field => field.name.isNone with
    | some index => .error (.unnamedField (index + 1))
    | none =>
      .ok (.struct { style := .duckDb, word := none, fields := d.fields?,
                     arguments := some d.arguments })

end StructDraft

/-- A field with a name and a type. -/
def StructField.typed (name : String) (type : DataType) : StructField :=
  { name := some (.plain name), type }

/-- A field with a type only. -/
def StructField.anonymous (type : DataType) : StructField :=
  { name := none, type }

/-! ## Values in parentheses -/

/-- An addition to a struct value in parentheses. -/
inductive BigQueryStructCall where
  | field (name : String) (type : DataType)
  | anonymousField (type : DataType)
  | argument (value : Expr)
  | namedArgument (value : Expr) (name : String)

namespace BigQueryStructCall

/-- Adds what the call says. -/
def apply (d : StructDraft) : BigQueryStructCall → StructDraft
  | .field name type => d.addField (.typed name type)
  | .anonymousField type => d.addField (.anonymous type)
  | .argument value => d.addArgument (.bare value)
  | .namedArgument value name => d.addArgument (.named value name)

/-- Builds the value from all calls. -/
def build (calls : List BigQueryStructCall) : Except BuildError Expr :=
  (calls.foldl apply {}).bigQuery

end BigQueryStructCall

/-! ## Values in braces -/

/-- An addition to a struct value in braces. -/
inductive DuckDbStructCall where
  | field (name : String) (value : Expr)
  /-- A value whose name stands in single quotes. -/
  | quotedField (name : String) (value : Expr)
  | item (item : SelectItem)
  | typed (name : String) (type : DataType)
  | typedField (field : StructField)

namespace DuckDbStructCall

/-- Adds what the call says. -/
def apply (d : StructDraft) : DuckDbStructCall → StructDraft
  | .field name value =>
    d.addArgument { expr := value, alias? := some (.implicit (.plain name)) }
  | .quotedField name value =>
    d.addArgument { expr := value, alias? := some (.implicit { name, quote := some '\'' }) }
  | .item argument => d.addArgument argument
  | .typed name type => d.addField (.typed name type)
  | .typedField f => d.addField f

/-- Builds the value from all calls. -/
def build (calls : List DuckDbStructCall) : Except BuildError Expr :=
  (calls.foldl apply {}).duckDb

end DuckDbStructCall

end SqlTree
