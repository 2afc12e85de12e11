import SqlTree.Datum.Basic
import SqlTree.Token.Basic

/-! # Tokens as data

* `Keyword.caseName`: the spelling with one capital, such as `Select`.
* `TokenKind.datum`: a token as data.
-/

namespace SqlTree
set_option autoImplicit false

/-- The spelling of a keyword with its first letter in upper case and the others in lower case. -/
def Keyword.caseName (k : Keyword) : String :=
  match k.text.toList with
  | [] => ""
  | c :: cs => String.ofList (c :: cs.map Char.toLower)

/-- The name of the case of a symbol. -/
def Symbol.caseName : Symbol → String
  | .plus => "Plus"
  | .minus => "Minus"
  | .star => "Star"
  | .slash => "Slash"
  | .percent => "Percent"
  | .equal => "Eq"
  | .notEqual => "NotEq"
  | .less => "Lt"
  | .lessEqual => "LtEq"
  | .greater => "Gt"
  | .greaterEqual => "GtEq"
  | .concat => "Concat"
  | .bitAnd => "BitAnd"
  | .bitOr => "BitOr"
  | .bitNot => "BitNot"
  | .shiftLeft => "LeftShift"
  | .shiftRight => "RightShift"
  | .contains => "Contains"
  | .containedBy => "ContainedBy"
  | .leftParen => "LeftParen"
  | .rightParen => "RightParen"
  | .leftBracket => "LeftBracket"
  | .rightBracket => "RightBracket"
  | .leftBrace => "LeftBrace"
  | .rightBrace => "RightBrace"
  | .comma => "Comma"
  | .semicolon => "Semicolon"
  | .dot => "Dot"
  | .colon => "Colon"
  | .doubleColon => "DoubleColon"
  | .question => "Question"
  | .atSign => "At"

/-- A list of bytes as data. -/
def Datum.ofBytes (bytes : List UInt8) : Datum :=
  .ofList (fun b => .ofNat b.toNat) bytes

/-- A token as data. -/
def TokenKind.datum : TokenKind → Datum
  | .integer digits => .variant "Integer" (.text digits)
  | .float digits => .variant "Float" (.text digits)
  | .string content => .variant "String" (.text content)
  | .blob bytes => .variant "Blob" (.ofBytes bytes)
  | .identifier name quote =>
    .variant "Identifier" (.record [("value", .text name), ("quote", .ofOption .ofChar quote)])
  | .keyword k => .variant "Keyword" (.ofPlain Keyword.caseName k)
  | .symbol s => .ofPlain Symbol.caseName s
  | .endOfInput => .text "Eof"

end SqlTree
