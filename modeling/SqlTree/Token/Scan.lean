import SqlTree.Text.Hexadecimal
import SqlTree.Text.Quoted
import SqlTree.Token.Basic

/-! # One token at the head of a text

* `LexFault`: why no token begins there, with its wording `LexFault.message`.
* `scanNumber`: the longest number, as its digits, its fraction and its exponent.
* `scanSymbol`: the longest symbol.
* `scanToken`: the token that a text without leading blanks begins with, or the fault, and in
  either case the characters it takes and the rest.

`scanToken_append` says that nothing is lost, and `scanToken_length` that a character at least is
taken as long as there is one.
-/

namespace SqlTree
set_option autoImplicit false

/-- Why a text cannot be split into tokens. -/
inductive LexFault where
  | openString
  | openIdentifier
  | openBlob
  | openComment
  | blob (fault : Text.Hexadecimal.Fault)
  | strayCharacter (c : Char)
  deriving DecidableEq, Repr

/-- The wording of a fault. -/
def LexFault.message : LexFault → String
  | .openString => "Unterminated string literal"
  | .openIdentifier => "Unterminated quoted identifier"
  | .openBlob => "Unterminated blob literal"
  | .openComment => "Unterminated block comment"
  | .blob .strayCharacter => "Invalid character in blob literal"
  | .blob .halfByte => "Odd number of hex digits in blob literal"
  | .strayCharacter c => "Unexpected character: " ++ String.ofList [c]

/-- What stands at the head of a text: a token or a fault, the characters it takes, the rest. -/
structure Scanned where
  outcome : Except LexFault TokenKind
  taken : List Char
  rest : List Char

/-! ## Numbers -/

/-- A point with the digits behind it, if a digit follows the point. -/
def scanFraction : List Char → List Char × List Char
  | '.' :: d :: cs =>
    if d.isDigit then
      ('.' :: (d :: cs).takeWhile Char.isDigit, (d :: cs).dropWhile Char.isDigit)
    else ([], '.' :: d :: cs)
  | cs => ([], cs)

/-- Whether a character marks an exponent. -/
def isExponentMark (c : Char) : Bool :=
  c == 'e' || c == 'E'

/-- Whether a character is a sign. -/
def isSign (c : Char) : Bool :=
  c == '+' || c == '-'

/-- A mark, an optional sign and digits, if there is a digit. -/
def scanExponent : List Char → List Char × List Char
  | [] => ([], [])
  | mark :: cs =>
    let sign := (cs.take 1).filter isSign
    let digits := cs.drop sign.length
    if isExponentMark mark && (digits.head?.any Char.isDigit) then
      (mark :: sign ++ digits.takeWhile Char.isDigit, digits.dropWhile Char.isDigit)
    else ([], mark :: cs)

/-- The longest number that a text begins with, in three parts, and the rest. -/
structure NumberScan where
  whole : List Char
  fraction : List Char
  exponent : List Char
  rest : List Char

/-- The longest number that a text begins with. -/
def scanNumber (cs : List Char) : NumberScan :=
  let f := scanFraction (cs.dropWhile Char.isDigit)
  let e := scanExponent f.2
  ⟨cs.takeWhile Char.isDigit, f.1, e.1, e.2⟩

namespace NumberScan

/-- All characters of the number. -/
def taken (n : NumberScan) : List Char :=
  n.whole ++ n.fraction ++ n.exponent

/-- A number with neither fraction nor exponent is an integer. -/
def kind (n : NumberScan) : TokenKind :=
  if n.fraction.isEmpty && n.exponent.isEmpty then .integer (String.ofList n.taken)
  else .float (String.ofList n.taken)

end NumberScan

/-! ## Symbols -/

/-- The longest symbol that a text begins with, its characters and the rest. -/
def scanSymbol : List Char → Option (Symbol × List Char × List Char)
  | [] => none
  | c :: cs =>
    let one (s : Symbol) := some (s, [c], cs)
    match c with
    | '(' => one .leftParen
    | ')' => one .rightParen
    | '[' => one .leftBracket
    | ']' => one .rightBracket
    | '{' => one .leftBrace
    | '}' => one .rightBrace
    | ',' => one .comma
    | ';' => one .semicolon
    | '.' => one .dot
    | '+' => one .plus
    | '-' => one .minus
    | '*' => one .star
    | '/' => one .slash
    | '%' => one .percent
    | '~' => one .bitNot
    | '?' => one .question
    | '@' => one .atSign
    | '=' => one .equal
    | ':' =>
      match cs with
      | ':' :: r => some (.doubleColon, [':', ':'], r)
      | _ => one .colon
    | '<' =>
      match cs with
      | '=' :: r => some (.lessEqual, ['<', '='], r)
      | '>' :: r => some (.notEqual, ['<', '>'], r)
      | '<' :: r => some (.shiftLeft, ['<', '<'], r)
      | '&' :: r => some (.containedBy, ['<', '&'], r)
      | _ => one .less
    | '>' =>
      match cs with
      | '=' :: r => some (.greaterEqual, ['>', '='], r)
      | '>' :: r => some (.shiftRight, ['>', '>'], r)
      | _ => one .greater
    | '!' =>
      match cs with
      | '=' :: r => some (.notEqual, ['!', '='], r)
      | _ => none
    | '|' =>
      match cs with
      | '|' :: r => some (.concat, ['|', '|'], r)
      | _ => one .bitOr
    | '&' =>
      match cs with
      | '>' :: r => some (.contains, ['&', '>'], r)
      | _ => one .bitAnd
    | _ => none

/-! ## Any token -/

/-- Reads up to the closing quote `q`, the opening characters `opening` being split off already. -/
def scanQuoted (opening : List Char) (q : Char) (unclosed : LexFault)
    (kind : List Char → Except LexFault TokenKind) (cs : List Char) : Scanned :=
  match Text.Quoted.body q cs with
  | (inside, some rest) =>
    ⟨kind (Text.Quoted.undouble q inside), opening ++ inside ++ [q], rest⟩
  | (inside, none) => ⟨.error unclosed, opening ++ inside, []⟩

/-- A string with the given content. -/
def stringKind (content : List Char) : Except LexFault TokenKind :=
  .ok (.string (String.ofList content))

/-- A quoted name with the given content. -/
def quotedName (q : Char) (content : List Char) : Except LexFault TokenKind :=
  .ok (.identifier (String.ofList content) (some q))

/-- A string of bytes with the given digits. -/
def blobKind (digits : List Char) : Except LexFault TokenKind :=
  match Text.Hexadecimal.toBytes digits with
  | .ok bytes => .ok (.blob bytes)
  | .error fault => .error (.blob fault)

/-- A bare word: a keyword or a name. -/
def wordKind (word : String) : TokenKind :=
  match Keyword.ofText? word with
  | some k => .keyword k
  | none => .identifier word none

/-- The token of a text whose first character begins neither quoted text nor a blob. -/
def scanPlain (c : Char) (cs : List Char) : Scanned :=
  if c.isDigit then
    let n := scanNumber (c :: cs)
    ⟨.ok n.kind, n.taken, n.rest⟩
  else if Text.isWordStart c then
    let word := c :: cs.takeWhile Text.isWordPart
    ⟨.ok (wordKind (String.ofList word)), word, cs.dropWhile Text.isWordPart⟩
  else
    match scanSymbol (c :: cs) with
    | some (s, taken, rest) => ⟨.ok (.symbol s), taken, rest⟩
    | none => ⟨.error (.strayCharacter c), [c], cs⟩

/-- The token that a text without leading blanks begins with. Double quotes enclose strings if
`dq` holds and names otherwise. -/
def scanToken (dq : Bool) : List Char → Scanned
  | [] => ⟨.ok .endOfInput, [], []⟩
  | '\'' :: cs => scanQuoted ['\''] '\'' .openString stringKind cs
  | '"' :: cs =>
    if dq then scanQuoted ['"'] '"' .openString stringKind cs
    else scanQuoted ['"'] '"' .openIdentifier (quotedName '"') cs
  | '\x60' :: cs => scanQuoted ['\x60'] '\x60' .openIdentifier (quotedName '\x60') cs
  | 'X' :: '\'' :: cs => scanQuoted ['X', '\''] '\'' .openBlob blobKind cs
  | 'x' :: '\'' :: cs => scanQuoted ['x', '\''] '\'' .openBlob blobKind cs
  | '/' :: '*' :: cs => ⟨.error .openComment, '/' :: '*' :: cs, []⟩
  | c :: cs => scanPlain c cs

/-! ## Nothing is lost -/

theorem scanFraction_append (cs : List Char) :
    (scanFraction cs).1 ++ (scanFraction cs).2 = cs := by
  unfold scanFraction
  split
  · split
    · simp [List.takeWhile_append_dropWhile]
    · rfl
  · rfl

theorem take_filter_append_drop (p : Char → Bool) (cs : List Char) :
    (cs.take 1).filter p ++ cs.drop ((cs.take 1).filter p).length = cs := by
  cases cs with
  | nil => rfl
  | cons c cs => by_cases h : p c <;> simp [h]

theorem scanExponent_append (cs : List Char) :
    (scanExponent cs).1 ++ (scanExponent cs).2 = cs := by
  unfold scanExponent
  split
  · rfl
  · dsimp only
    split
    · simp only [List.append_assoc, List.cons_append, List.takeWhile_append_dropWhile,
        take_filter_append_drop]
    · rfl

theorem scanNumber_append (cs : List Char) :
    (scanNumber cs).taken ++ (scanNumber cs).rest = cs := by
  simp only [scanNumber, NumberScan.taken, List.append_assoc, scanExponent_append,
    scanFraction_append, List.takeWhile_append_dropWhile]

theorem scanSymbol_append {cs taken rest : List Char} {s : Symbol}
    (h : scanSymbol cs = some (s, taken, rest)) : taken ++ rest = cs := by
  unfold scanSymbol at h
  repeat' split at h
  all_goals first
    | contradiction
    | (simp only [Option.some.injEq, Prod.mk.injEq] at h
       obtain ⟨-, rfl, rfl⟩ := h
       rfl)

theorem scanSymbol_taken {cs taken rest : List Char} {s : Symbol}
    (h : scanSymbol cs = some (s, taken, rest)) : taken ≠ [] := by
  unfold scanSymbol at h
  repeat' split at h
  all_goals first
    | contradiction
    | (simp only [Option.some.injEq, Prod.mk.injEq] at h
       obtain ⟨-, rfl, -⟩ := h
       simp)

theorem body_append (q : Char) (cs : List Char) :
    (Text.Quoted.body q cs).1 ++
      (match (Text.Quoted.body q cs).2 with | some rest => q :: rest | none => []) = cs := by
  fun_induction Text.Quoted.body q cs with
  | case1 => rfl
  | case2 => simp_all
  | case3 => rfl
  | case4 cs r ih => simpa [r] using ih
  | case5 d cs h => rfl
  | case6 c d cs h r ih => simpa [r] using ih

theorem scanQuoted_append (opening : List Char) (q : Char) (unclosed : LexFault)
    (kind : List Char → Except LexFault TokenKind) (cs : List Char) :
    (scanQuoted opening q unclosed kind cs).taken ++
      (scanQuoted opening q unclosed kind cs).rest = opening ++ cs := by
  have h := body_append q cs
  unfold scanQuoted
  split
  · next inside rest he =>
    rw [he] at h
    simp only [List.append_assoc, List.cons_append, List.nil_append]
    exact congrArg (opening ++ ·) h
  · next inside he =>
    rw [he] at h
    simpa using h

theorem scanPlain_append (c : Char) (cs : List Char) :
    (scanPlain c cs).taken ++ (scanPlain c cs).rest = c :: cs := by
  unfold scanPlain
  split
  · exact scanNumber_append (c :: cs)
  · split
    · simp [List.takeWhile_append_dropWhile]
    · split
      · next s taken rest h => exact scanSymbol_append h
      · rfl

theorem scanToken_append (dq : Bool) (cs : List Char) :
    (scanToken dq cs).taken ++ (scanToken dq cs).rest = cs := by
  unfold scanToken
  split
  all_goals first
    | rfl
    | exact scanQuoted_append ..
    | exact scanPlain_append ..
    | (split <;> exact scanQuoted_append ..)
    | simp

/-! ## A character at least is taken -/

theorem scanQuoted_taken {opening : List Char} (h : opening ≠ []) (q : Char) (unclosed : LexFault)
    (kind : List Char → Except LexFault TokenKind) (cs : List Char) :
    (scanQuoted opening q unclosed kind cs).taken ≠ [] := by
  unfold scanQuoted
  split <;> simp [h]

theorem scanPlain_taken (c : Char) (cs : List Char) : (scanPlain c cs).taken ≠ [] := by
  unfold scanPlain
  split
  · next h => simp [scanNumber, NumberScan.taken, h]
  · split
    · simp
    · split
      · next h => exact scanSymbol_taken h
      · simp

theorem scanToken_taken (dq : Bool) {cs : List Char} (h : cs ≠ []) :
    (scanToken dq cs).taken ≠ [] := by
  unfold scanToken
  split
  · contradiction
  · exact scanQuoted_taken (List.cons_ne_nil _ _) _ _ _ _
  · split <;> exact scanQuoted_taken (List.cons_ne_nil _ _) _ _ _ _
  · exact scanQuoted_taken (List.cons_ne_nil _ _) _ _ _ _
  · exact scanQuoted_taken (List.cons_ne_nil _ _) _ _ _ _
  · exact scanQuoted_taken (List.cons_ne_nil _ _) _ _ _ _
  · simp
  · exact scanPlain_taken _ _

theorem scanToken_length (dq : Bool) {cs : List Char} (h : cs ≠ []) :
    (scanToken dq cs).rest.length < cs.length := by
  have h1 := congrArg List.length (scanToken_append dq cs)
  have h2 := List.length_pos_iff.2 (scanToken_taken dq h)
  simp only [List.length_append] at h1
  omega

end SqlTree
