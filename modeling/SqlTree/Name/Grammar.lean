import SqlTree.Parse
import SqlTree.Name.Basic

/-! # Reading names

* `identifier`: one name. A keyword that is not reserved is a name too, spelled as written.
* `dottedName`, `objectName`: names with points between them.
* `identifierList`, `identifiersInParens`: names with commas between them.
* `optionalAlias`, `tableAlias`: another name for an item, with or without names for its columns.
-/

namespace SqlTree.Parse
set_option autoImplicit false

/-- Whether a token can be read as a name. -/
def startsName : TokenKind → Bool
  | .identifier _ _ => true
  | .keyword k => !k.isReserved
  | _ => false

/-- Whether a name stands `n` places ahead. -/
def nameAt (n : Nat) : Parse Bool := do
  return startsName (← peek n)

/-- One name. -/
def identifier : Parse Ident := do
  let token ← current
  match token.kind with
  | .identifier name quote =>
    advance
    return { name, quote }
  | .keyword k =>
    if k.isReserved then fail ["identifier"]
    else
      advance
      return { name := token.text }
  | _ => fail ["identifier"]

/-- One more name behind a point, if there is one. -/
def nameAfterDot : Parse (Option Ident) := do
  if (← symbolAt 0 .dot) && (← nameAt 1) then
    advance
    return some (← identifier)
  else return none

/-- The outermost of one or more names with points between them, and the others. -/
def dottedName : Parse (Ident × List Ident) := do
  let first ← identifier
  return (first, ← collect nameAfterDot)

/-- One or more names with points between them. -/
def objectName : Parse ObjectName := do
  let (first, more) ← dottedName
  return ⟨first :: more⟩

/-- One or more names with commas between them. -/
def identifierList : Parse (List Ident) :=
  commaList identifier

/-- One or more names in parentheses. -/
def identifiersInParens : Parse (List Ident) :=
  inParens identifierList

/-- Names in parentheses, if a parenthesis opens. -/
def optionalIdentifiers : Parse (List Ident) := do
  if ← symbolAt 0 .leftParen then identifiersInParens else return []

/-- A single name, or several in parentheses. -/
def oneOrMoreIdentifiers : Parse (List Ident) := do
  if ← symbolAt 0 .leftParen then identifiersInParens else return [← identifier]

/-- A name behind `AS`, or a bare one. -/
def optionalAlias : Parse (Option Alias) := do
  if ← takeKeyword .AS then return some (.explicit (← identifier))
  else if ← nameAt 0 then return some (.implicit (← identifier))
  else return none

/-- An alias with the names of columns, if a parenthesis opens in front of a name. -/
def tableAlias : Parse (Option Alias) := do
  match ← optionalAlias with
  | none => return none
  | some a =>
    if (← symbolAt 0 .leftParen) && (← nameAt 1) then
      return some { a with columns := ← identifiersInParens }
    else return some a

end SqlTree.Parse
