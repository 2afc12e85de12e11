import SqlTree.Token.Lexer

/-! # Places among the tokens of a text

* `Place`: all tokens of a text, the last of which is its end, with the number of the one that
  reading has come to and of the question marks met so far.
* `Place.current`, `Place.peek`: what stands there and further ahead. Outside of the tokens that is
  `Token.outside`.
* `Place.advance`, `Place.closeAngle`, `Place.skipStatement`, `Place.goBack`, `Place.count`: where
  reading goes from there.
* `Place.Sound`: one of the tokens stands there, and only the last one is the end.
-/

namespace SqlTree
set_option autoImplicit false

/-- What is found outside of the tokens of a text. -/
def Token.outside : Token :=
  ⟨.endOfInput, ⟨0, 0⟩, ""⟩

/-- The second half of a token of two characters. -/
def Token.secondHalf (t : Token) : Token :=
  ⟨.symbol .greater, ⟨t.span.start + 1, t.span.stop⟩, Symbol.greater.text⟩

/-- A place among the tokens of a text. -/
structure Place where
  /-- All tokens, with the end of the text as the last one. -/
  tokens : Array Token
  /-- How many tokens are behind. -/
  position : Nat := 0
  /-- The number of question marks met so far. -/
  placeholders : Nat := 0
  deriving DecidableEq, Repr

namespace Place

/-- The place in front of all tokens of a text. -/
def ofLexed (l : Lexed) : Place :=
  { tokens := (l.tokens ++ [l.ending]).toArray }

/-- The token that reading has come to. -/
def current (x : Place) : Token :=
  x.tokens[x.position]?.getD .outside

/-- The kind of the token `n` places ahead. -/
def peek (x : Place) (n : Nat) : TokenKind :=
  (x.tokens[x.position + n]?.getD .outside).kind

/-- The tokens ahead but for the last one. -/
def ahead (x : Place) : List Token :=
  (x.tokens.toList.drop x.position).dropLast

/-- The place behind the token, unless that is the end. -/
def advance (x : Place) : Place :=
  if x.current.kind = .endOfInput then x else { x with position := x.position + 1 }

/-- The place behind a closing angle. Of two closing angles read as one token the first is taken,
and the second is left as a token of its own. -/
def closeAngle (x : Place) : Option Place :=
  match x.current.kind with
  | .symbol .greater => some x.advance
  | .symbol .shiftRight =>
    some { x with tokens := x.tokens.setIfInBounds x.position x.current.secondHalf }
  | _ => none

/-- Whether a semicolon or the end of the text is there. -/
def atStatementEnd (x : Place) : Bool :=
  x.current.kind == .symbol .semicolon || x.current.kind == .endOfInput

theorem position_lt_of_ne {x : Place} (h : x.current.kind ≠ .endOfInput) :
    x.position < x.tokens.size := by
  refine Nat.lt_of_not_le fun hle => h ?_
  rw [current, Array.getElem?_eq_none hle]
  rfl

theorem advance_of_ne {x : Place} (h : x.current.kind ≠ .endOfInput) :
    x.advance = { x with position := x.position + 1 } :=
  if_neg h

/-- The tokens up to the next semicolon, and the place behind them. -/
def skipStatement (x : Place) : List Token × Place :=
  if _h : x.atStatementEnd then ([], x)
  else
    let skipped := x.advance.skipStatement
    (x.current :: skipped.1, skipped.2)
termination_by x.tokens.size - x.position
decreasing_by
  have hk : x.current.kind ≠ .endOfInput := by
    intro he
    simp [atStatementEnd, he] at _h
  have hlt := position_lt_of_ne hk
  rw [advance_of_ne hk]
  dsimp only
  omega

/-- The place with `n` tokens behind, if it has been passed. -/
def goBack (x : Place) (n : Nat) : Place :=
  { x with position := min n x.position }

/-- The place with one more question mark met. -/
def count (x : Place) : Place :=
  { x with placeholders := x.placeholders + 1 }

/-- One of the tokens is at the place, and the last one alone is the end of the text. -/
structure Sound (x : Place) : Prop where
  position_lt : x.position < x.tokens.size
  ending : ∀ t ∈ x.tokens.back?, t.kind = .endOfInput
  others : ∀ t ∈ x.tokens.pop, t.kind ≠ .endOfInput

end Place

end SqlTree
