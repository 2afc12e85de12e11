import SqlTree.Keyword
import SqlTree.Text.Position

/-! # Tokens

* `Symbol`: operators and punctuation, with their spelling `Symbol.text`.
* `TokenKind`: what a token is. Numbers keep the digits they were written with; quoted names and
  strings are given without their quotes.
* `TokenKind.description`: how a message names a token.
* `Token`: a kind, the bytes it was read from and the text that stands there.
-/

namespace SqlTree
set_option autoImplicit false

/-- An operator or a mark of punctuation. -/
inductive Symbol where
  | plus | minus | star | slash | percent
  | equal | notEqual | less | lessEqual | greater | greaterEqual
  | concat | bitAnd | bitOr | bitNot | shiftLeft | shiftRight | contains | containedBy
  | leftParen | rightParen | leftBracket | rightBracket | leftBrace | rightBrace
  | comma | semicolon | dot | colon | doubleColon | question | atSign
  deriving DecidableEq, Repr

/-- The spelling of a symbol; inequality is also written `<>`. -/
def Symbol.text : Symbol → String
  | .plus => "+"
  | .minus => "-"
  | .star => "*"
  | .slash => "/"
  | .percent => "%"
  | .equal => "="
  | .notEqual => "!="
  | .less => "<"
  | .lessEqual => "<="
  | .greater => ">"
  | .greaterEqual => ">="
  | .concat => "||"
  | .bitAnd => "&"
  | .bitOr => "|"
  | .bitNot => "~"
  | .shiftLeft => "<<"
  | .shiftRight => ">>"
  | .contains => "&>"
  | .containedBy => "<&"
  | .leftParen => "("
  | .rightParen => ")"
  | .leftBracket => "["
  | .rightBracket => "]"
  | .leftBrace => "\x7b"
  | .rightBrace => "\x7d"
  | .comma => ","
  | .semicolon => ";"
  | .dot => "."
  | .colon => ":"
  | .doubleColon => "::"
  | .question => "?"
  | .atSign => "@"

/-- What a token is. -/
inductive TokenKind where
  /-- A whole number, as written. -/
  | integer (digits : String)
  /-- A number with a fraction or an exponent, as written. -/
  | float (digits : String)
  /-- A string, without quotes. -/
  | string (content : String)
  /-- A string of bytes. -/
  | blob (bytes : List UInt8)
  /-- A name, with its quote if it was quoted. -/
  | identifier (name : String) (quote : Option Char)
  | keyword (word : Keyword)
  | symbol (mark : Symbol)
  /-- What comes behind the last token. -/
  | endOfInput
  deriving DecidableEq, Repr

namespace TokenKind

/-- How a message names the token. -/
def description : TokenKind → String
  | .integer digits => digits
  | .float digits => digits
  | .string content => "'" ++ content ++ "'"
  | .blob _ => "blob literal"
  | .identifier name _ => "identifier " ++ name
  | .keyword word => word.text
  | .symbol mark => mark.text
  | .endOfInput => "end of input"

/-- The keyword that the token is. -/
def keyword? : TokenKind → Option Keyword
  | .keyword word => some word
  | _ => none

end TokenKind

/-- A kind, the bytes of the source it was read from, and the text that stands there. -/
structure Token where
  kind : TokenKind
  span : Span
  text : String
  deriving DecidableEq, Repr

end SqlTree
