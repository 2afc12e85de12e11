import SqlTree.DataType.Grammar
import SqlTree.Query.Basic

/-! # Reading expressions

* `Productions`: the readers of whole expressions, queries and items to read from. The readers of
  their parts take them as a parameter, because each of the three contains the others.
* `primary`: an expression without operators around it.
* `expression`: an operand with all operators behind it that bind tightly enough.

## Binding power

An operator of level `n` has power `2 * n - 1` on its left and `2 * n` on its right, so operators
of one level group to the left. Predicates share level 3 with the comparisons. The operand of a
sign binds at power 17, tighter than every operator between operands, the operand of `NOT` at power
5, and a cast at power 19.
-/

namespace SqlTree
set_option autoImplicit false

/-- The readers of the three kinds of trees that contain one another. -/
structure Productions where
  /-- An expression whose operators have at least the given power on their left. -/
  expr : Nat → Parse Expr
  query : Parse Query
  fromItem : Parse FromItem

namespace Productions

/-- Readers that stop at once. -/
def exhausted : Productions :=
  ⟨fun _ => .stop .tooDeep, .stop .tooDeep, .stop .tooDeep⟩

end Productions

namespace Parse

/-! ## Binding power -/

/-- The level of the predicates. -/
def predicateLevel : Nat := 3

/-- The power of an operator of a level on its left. -/
def leftPower (level : Nat) : Nat := 2 * level - 1

/-- The power of an operator of a level on its right. -/
def rightPower (level : Nat) : Nat := 2 * level

/-- The power at which the operand of an operator in front of it binds. -/
def operandPower : UnaryOp → Nat
  | .not => leftPower predicateLevel
  | _ => leftPower 9

/-- The power of a cast. -/
def castPower : Nat := leftPower 10

/-- The words that begin a predicate behind the tested expression. -/
def predicateWords : List Keyword := [.IS, .NOT, .IN, .BETWEEN, .LIKE, .ILIKE]

/-! ## Lists and items -/

/-- One or more expressions with commas between them. -/
def exprList (g : Productions) : Parse (List Expr) :=
  commaList (g.expr 0)

/-- An expression with an optional alias; a wildcard has none. -/
def selectItem (g : Productions) : Parse SelectItem := do
  let expr ← g.expr 0
  if expr.isWildcard then return { expr, alias? := none }
  else return { expr, alias? := ← optionalAlias }

/-- One or more items with commas between them. -/
def selectItems (g : Productions) : Parse (List SelectItem) :=
  commaList (selectItem g)

/-- An argument of a call; a query needs no parentheses of its own. -/
def argument (g : Productions) : Parse Expr := do
  if ← queryAt 0 then return .subquery (← g.query) else g.expr 0

/-- The arguments of a call whose name has been read. -/
def functionCall (g : Productions) (name : ObjectName) : Parse FunctionCall := do
  expectSymbol .leftParen
  let distinct ← takeKeyword .DISTINCT
  let arguments ← if ← symbolAt 0 .rightParen then pure [] else commaList (argument g)
  expectSymbol .rightParen
  return { name, distinct, arguments }

/-! ## Wildcards -/

/-- Columns left out of a wildcard, as far as the dialect allows it. `EXCEPT` in front of a query
in parentheses is a set operator. -/
def wildcardExcept (d : Dialect) : Parse (Option WildcardExcept) := do
  let opens ← symbolAt 1 .leftParen
  if d.wildcardExcept && (← keywordAt 0 .EXCEPT) && opens && !(← queryAt 2) then
    advance
    return some ⟨.except, ← identifiersInParens⟩
  else if d.wildcardExclude && (← keywordAt 0 .EXCLUDE) && opens then
    advance
    return some ⟨.exclude, ← identifiersInParens⟩
  else return none

/-- Columns replaced in a wildcard, as far as the dialect allows it. -/
def wildcardReplace (g : Productions) (d : Dialect) : Parse (Option (List SelectItem)) := do
  if d.wildcardReplace && (← keywordAt 0 .REPLACE) && (← symbolAt 1 .leftParen) then
    advance
    advance
    let items ← selectItems g
    expectSymbol .rightParen
    return some items
  else return none

/-- What follows the star of a wildcard. -/
def wildcard (g : Productions) (d : Dialect) (table : Option ObjectName) : Parse Expr := do
  let except ← wildcardExcept d
  return .wildcard table except (← wildcardReplace g d)

/-! ## Columns and calls -/

/-- The column that names with points between them spell: the last one, in the table that the
others name. -/
def columnOf (first : Ident) (more : List Ident) : ColumnRef :=
  match more.getLast? with
  | none => { name := first }
  | some name => { table := some ⟨first :: more.dropLast⟩, name }

/-- What a name begins: a wildcard of a table, a call or a column. -/
def named (g : Productions) (d : Dialect) : Parse Expr := do
  let (first, more) ← dottedName
  if (← symbolAt 0 .dot) && (← symbolAt 1 .star) then
    advance
    advance
    wildcard g d (some ⟨first :: more⟩)
  else if ← symbolAt 0 .leftParen then return .call (← functionCall g ⟨first :: more⟩)
  else return .column (columnOf first more)

/-! ## Brackets, braces and parentheses -/

/-- What an opening parenthesis begins: a query, one expression or several. -/
def parenthesized (g : Productions) : Parse Expr := do
  if ← queryAt 1 then
    advance
    let query ← g.query
    expectSymbol .rightParen
    return .subquery query
  else
    expectSymbol .leftParen
    let first ← g.expr 0
    match ← collect (afterComma (g.expr 0)) with
    | [] =>
      expectSymbol .rightParen
      return .nested first
    | more =>
      expectSymbol .rightParen
      return .tuple (first :: more)

/-- The elements of an array up to its closing bracket. -/
def arrayElements (g : Productions) (withWord : Bool) : Parse Expr := do
  let elements ← if ← symbolAt 0 .rightBracket then pure [] else exprList g
  expectSymbol .rightBracket
  return .array withWord elements

/-- The typed fields of a struct value in angles, if an angle opens. -/
def valueFields : Parse (Option (List StructField)) := do
  if ← takeSymbol .less then
    let fields ← structFields true
    closingAngle
    return some fields
  else return none

/-- The values of a struct value in parentheses, which may be missing behind typed fields. -/
def valueArguments (g : Productions) (typed : Bool) : Parse (Option (List SelectItem)) := do
  if ← takeSymbol .leftParen then
    let items ← if ← symbolAt 0 .rightParen then pure [] else selectItems g
    expectSymbol .rightParen
    return some items
  else if typed then return none
  else fail [Symbol.less.text, Symbol.leftParen.text]

/-- A struct value with its word. -/
def structWithWord (g : Productions) : Parse Expr := do
  let word := (← current).text
  advance
  let fields ← valueFields
  let arguments ← valueArguments g fields.isSome
  return .struct { style := .bigQuery, word := some word, fields, arguments }

/-- The key of a field in braces: a string or a name. -/
def fieldKey : Parse Ident := do
  match (← current).kind with
  | .string content =>
    advance
    return { name := content, quote := some '\'' }
  | _ => identifier

/-- A field in braces. -/
def keyedField (g : Productions) : Parse SelectItem := do
  let key ← fieldKey
  expectSymbol .colon
  return { expr := ← g.expr 0, alias? := some (.implicit key) }

/-- A struct value in braces. -/
def structInBraces (g : Productions) : Parse Expr := do
  expectSymbol .leftBrace
  let arguments ← if ← symbolAt 0 .rightBrace then pure [] else commaList (keyedField g)
  expectSymbol .rightBrace
  return .struct { style := .duckDb, word := none, fields := none, arguments := some arguments }

/-! ## Words -/

/-- A cast written as a call. -/
def castCall (g : Productions) : Parse Expr := do
  expectKeyword .CAST
  expectSymbol .leftParen
  let operand ← g.expr 0
  expectKeyword .AS
  let type ← dataType
  expectSymbol .rightParen
  return .cast .function operand type

/-- An arm, if the word that begins one is there. -/
def whenArm (g : Productions) : Parse (Option WhenArm) := do
  if ← takeKeyword .WHEN then
    let condition ← g.expr 0
    expectKeyword .THEN
    return some { condition, result := ← g.expr 0 }
  else return none

/-- A choice between results. It has one arm at least. -/
def caseExpr (g : Productions) : Parse Expr := do
  expectKeyword .CASE
  let operand ← if ← keywordAt 0 .WHEN then pure none else some <$> g.expr 0
  let arms ← collect (whenArm g)
  if arms.isEmpty then fail [Keyword.WHEN.text]
  else
    let otherwise ← afterKeyword .ELSE (g.expr 0)
    expectKeyword .END
    return .caseWhen operand arms otherwise

/-- The test whether a query has rows. -/
def existsTest (g : Productions) : Parse Expr := do
  expectKeyword .EXISTS
  return .existsQuery (← inParens g.query)

/-- A place for a value with a name behind a colon or an at sign. -/
def namedPlaceholder (sigil : Char) : Parse Expr := do
  advance
  return .placeholder (.named sigil (← identifier).name)

/-- Reserved words that are names of functions in front of a parenthesis. -/
def functionWords : List Keyword := [.LEFT, .RIGHT, .ARRAY]

/-- What a keyword begins. -/
def keywordPrimary (g : Productions) (d : Dialect) (k : Keyword) : Parse Expr := do
  match k with
  | .TRUE =>
    advance
    return .literal (.boolean true)
  | .FALSE =>
    advance
    return .literal (.boolean false)
  | .NULL =>
    advance
    return .literal .null
  | .CASE => caseExpr g
  | .CAST => castCall g
  | .EXISTS => existsTest g
  | _ =>
    if k = .ARRAY && (← symbolAt 1 .leftBracket) then
      advance
      advance
      arrayElements g true
    else if k = .STRUCT && d.structStyle = .bigQuery then structWithWord g
    else if functionWords.contains k && (← symbolAt 1 .leftParen) then
      let name : Ident := { name := (← current).text }
      advance
      return .call (← functionCall g ⟨[name]⟩)
    else if k.isReserved then fail ["expression"]
    else named g d

/-- What a symbol begins. -/
def symbolPrimary (g : Productions) (d : Dialect) (s : Symbol) : Parse Expr := do
  match s with
  | .question =>
    advance
    return .placeholder (.positional (← nextPlaceholder))
  | .colon => namedPlaceholder ':'
  | .atSign => namedPlaceholder '@'
  | .star =>
    advance
    wildcard g d none
  | .leftParen => parenthesized g
  | .leftBracket =>
    advance
    arrayElements g false
  | .leftBrace => if d.structStyle = .duckDb then structInBraces g else fail ["expression"]
  | _ => fail ["expression"]

/-- An expression without operators around it. -/
def primary (g : Productions) (d : Dialect) : Parse Expr := do
  match (← current).kind with
  | .integer digits =>
    advance
    return .literal (.integer digits)
  | .float digits =>
    advance
    return .literal (.float digits)
  | .string content =>
    advance
    return .literal (.string content)
  | .blob bytes =>
    advance
    return .literal (.blob bytes)
  | .identifier _ _ => named g d
  | .keyword k => keywordPrimary g d k
  | .symbol s => symbolPrimary g d s
  | .endOfInput => fail ["expression"]

/-! ## Operators -/

/-- An operand: operators in front of it, or an expression without any. -/
def operand (g : Productions) (d : Dialect) : Parse Expr := do
  match UnaryOp.ofToken? (← current).kind with
  | some op =>
    advance
    return .unary op (← g.expr (operandPower op))
  | none => primary g d

/-- The value `e::t`. Behind a struct value in braces without typed fields, a struct type in
parentheses gives the fields instead. -/
def ascribe (e : Expr) (type : DataType) : Expr :=
  match e, type with
  | .struct ⟨.duckDb, word, none, arguments⟩, .struct .parens fields =>
    .struct ⟨.duckDb, word, some fields, arguments⟩
  | e, type => .cast .doubleColon e type

/-- The test whether a value is among others, behind the tested expression. -/
def membership (g : Productions) (tested : Expr) (negated : Bool) : Parse Expr := do
  expectKeyword .IN
  expectSymbol .leftParen
  if ← queryAt 0 then
    let query ← g.query
    expectSymbol .rightParen
    return .inQuery tested negated query
  else
    let items ← exprList g
    expectSymbol .rightParen
    return .inList tested negated items

/-- The test whether a value is between two others, behind the tested expression. -/
def betweenTest (g : Productions) (tested : Expr) (negated : Bool) : Parse Expr := do
  expectKeyword .BETWEEN
  let low ← g.expr (rightPower predicateLevel)
  expectKeyword .AND
  return .between tested negated low (← g.expr (rightPower predicateLevel))

/-- The test whether a text has a form, behind the tested expression. -/
def likeTest (g : Productions) (tested : Expr) (negated : Bool) : Parse Expr := do
  let caseless ← keywordAt 0 .ILIKE
  advance
  return .like tested negated caseless (← g.expr (rightPower predicateLevel))

/-- The test whether a value is missing, behind the tested expression. -/
def nullTest (tested : Expr) : Parse Expr := do
  expectKeyword .IS
  let negated ← takeKeyword .NOT
  expectKeyword .NULL
  return .isNull tested negated

/-- A predicate other than `IS`, behind the tested expression and an optional `NOT`. -/
def predicate (g : Productions) (tested : Expr) (negated : Bool) : Parse Expr := do
  if ← keywordAt 0 .IN then membership g tested negated
  else if ← keywordAt 0 .BETWEEN then betweenTest g tested negated
  else likeTest g tested negated

/-- What goes on behind an operand: one operator with its other operand, one predicate or one cast,
if it has at least the given power on its left. `NOT` goes on only in front of a predicate. -/
def extend (g : Productions) (power : Nat) (left : Expr) : Parse (Option Expr) := do
  let kind := (← current).kind
  if kind = .symbol .doubleColon then
    if castPower < power then return none
    else
      advance
      return some (ascribe left (← dataType))
  else
    match BinaryOp.ofToken? kind with
    | some op =>
      if leftPower op.precedence < power then return none
      else
        advance
        return some (.binary left op (← g.expr (rightPower op.precedence)))
    | none =>
      if !kind.keyword?.any predicateWords.contains || leftPower predicateLevel < power then
        return none
      else if kind = .keyword .IS then return some (← nullTest left)
      else if kind = .keyword .NOT then
        if ← anyKeywordAt 1 [.IN, .LIKE, .ILIKE, .BETWEEN] then
          advance
          return some (← predicate g left true)
        else return none
      else return some (← predicate g left false)

/-- An operand with everything behind it that has at least the given power on its left. -/
def expression (g : Productions) (d : Dialect) (power : Nat) : Parse Expr := do
  repeatFrom (extend g power) (← operand g d)

end Parse

end SqlTree
