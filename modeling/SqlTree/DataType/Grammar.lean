import SqlTree.DataType.Basic
import SqlTree.Name.Grammar

/-! # Reading data types

* `dataType`: a data type with the brackets behind it.
* `structFields`: the fields of a struct type. Where fields may lack a name, two words make a name
  and a type, and anything else is a type.

A type in a type begins behind a token of the outer one, so the tokens ahead bound the nesting.
-/

namespace SqlTree.Parse
set_option autoImplicit false

/-- Whether a token begins a data type. -/
def startsDataType : TokenKind → Bool
  | .identifier _ _ => true
  | .keyword k =>
    (PlainType.all.map PlainType.keyword).contains k ||
      (SizedType.all.map SizedType.keyword).contains k ||
      (ScaledType.all.map ScaledType.keyword).contains k || k == .ARRAY || k == .STRUCT
  | _ => false

/-- Whether the token is a certain bare word that is no keyword, in any case of letters. -/
def isWord (word : String) : TokenKind → Bool
  | .identifier name none => Text.sameIgnoringCase name word
  | _ => false

/-- A whole number below a bound. -/
def boundedNumber (bound : Nat) (number : BoundedNumber) : Parse Nat := do
  match (← current).kind with
  | .integer digits =>
    match Decimal.readBelow? bound digits.toList with
    | some n =>
      advance
      return n
    | none => stop (.tooLarge number)
  | _ => fail ["integer"]

/-- A length in parentheses, if a parenthesis opens. -/
def optionalLength : Parse (Option UInt32) := do
  if ← takeSymbol .leftParen then
    let n ← boundedNumber UInt32.size .length
    expectSymbol .rightParen
    return some (UInt32.ofNat n)
  else return none

/-- A precision, perhaps with a scale, in parentheses, if a parenthesis opens. -/
def optionalScale : Parse (Option UInt16 × Option UInt16) := do
  if ← takeSymbol .leftParen then
    let precision ← boundedNumber UInt16.size .precision
    let scale ← afterComma (boundedNumber UInt16.size .scale)
    expectSymbol .rightParen
    return (some (UInt16.ofNat precision), scale.map UInt16.ofNat)
  else return (none, none)

/-- A modifier of a type, as written. -/
def typeModifier : Parse String := do
  let token ← current
  match token.kind with
  | .integer _ | .identifier _ _ | .keyword _ =>
    advance
    return token.text
  | _ => fail ["type modifier"]

/-- Modifiers in parentheses, if a parenthesis opens. -/
def typeModifiers : Parse (List String) := do
  if ← takeSymbol .leftParen then
    let modifiers ← commaList typeModifier
    expectSymbol .rightParen
    return modifiers
  else return []

/-- A field of a struct type. If it may be anonymous, it has a name only where a word that begins a
type follows one that can be a name. -/
def structField (type : Parse DataType) (anonymous : Bool) : Parse StructField := do
  let named ← if anonymous then (do
      return (← nameAt 0) && startsDataType (← peek 1))
    else pure true
  let name ← if named then some <$> identifier else pure none
  return { name, type := ← type }

/-- The fields of a struct type. -/
def structFieldsOf (type : Parse DataType) (anonymous : Bool) : Parse (List StructField) :=
  commaList (structField type anonymous)

/-- The fields of a struct type with what encloses them. -/
def structType (type : Parse DataType) : Parse DataType := do
  if ← takeSymbol .less then
    let fields ← structFieldsOf type true
    closingAngle
    return .struct .angles fields
  else
    expectSymbol .leftParen
    let fields ← structFieldsOf type false
    expectSymbol .rightParen
    return .struct .parens fields

/-- The element type of an array type in angles. -/
def arrayType (type : Parse DataType) : Parse DataType := do
  expectSymbol .less
  let element ← type
  closingAngle
  return .array .angles element

/-- What follows the first keyword of a type. -/
def keywordType (type : Parse DataType) (k : Keyword) : Parse DataType := do
  if k = .STRUCT then
    advance
    structType type
  else if k = .ARRAY then
    advance
    arrayType type
  else
    match PlainType.all.find? (·.keyword == k) with
    | some t =>
      advance
      if t = .double && isWord "PRECISION" (← current).kind then advance
      return .plain t
    | none =>
      match SizedType.all.find? (·.keyword == k) with
      | some t =>
        advance
        return .sized t (← optionalLength)
      | none =>
        match ScaledType.all.find? (·.keyword == k) with
        | some t =>
          advance
          let (precision, scale) ← optionalScale
          return .scaled t precision scale
        | none => fail ["data type"]

/-- A data type without the brackets behind it; `type` reads the types in it. -/
def baseType (type : Parse DataType) : Parse DataType := do
  match (← current).kind with
  | .keyword k => keywordType type k
  | .identifier name _ =>
    advance
    return .custom name (← typeModifiers)
  | _ => fail ["data type"]

/-- A pair of brackets makes the type in front of it the element of an array type. -/
def arraySuffix (element : DataType) : Parse (Option DataType) := do
  if (← symbolAt 0 .leftBracket) && (← symbolAt 1 .rightBracket) then
    advance
    advance
    return some (.array .brackets element)
  else return none

/-- A data type; `type` reads the types in it. -/
def dataTypeOf (type : Parse DataType) : Parse DataType := do
  repeatFrom arraySuffix (← baseType type)

/-- A data type that nests at most once for each token allowed. -/
def dataTypeWithin : List Token → Parse DataType
  | [] => dataTypeOf (stop .tooDeep)
  | _ :: allowance => dataTypeOf (later fun _ => dataTypeWithin allowance)

/-- A data type. -/
def dataType : Parse DataType := do
  dataTypeWithin (← ahead)

/-- The fields of a struct type. -/
def structFields (anonymous : Bool) : Parse (List StructField) :=
  structFieldsOf dataType anonymous

end SqlTree.Parse
