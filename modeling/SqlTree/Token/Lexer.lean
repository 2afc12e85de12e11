import SqlTree.Token.Scan
import SqlTree.Token.Trivia

/-! # Splitting a text into tokens

* `Lexer`: what is still to be read, and the position reached. Double quotes enclose strings or
  names, as `doubleQuotedStrings` says.
* `Lexer.next`: the next token, or the fault met, with the lexer that goes on behind it. At the
  end of the text it answers `endOfInput` again and again.
* `Lexer.run`: all tokens and the end of the text, or the first fault.

A fault is reported with the bytes from the start of the token it is met in to where reading
stopped, and with the location of that start.
-/

namespace SqlTree
set_option autoImplicit false

/-- A fault, the bytes it covers and the location where they begin. -/
structure LexError where
  fault : LexFault
  span : Span
  location : Location
  deriving DecidableEq, Repr

/-- A message with the place it is about. -/
def atLocation (message : String) (l : Location) : String :=
  message ++ " at line " ++ toString l.line ++ ", column " ++ toString l.column

/-- The wording of an error. -/
def LexError.message (e : LexError) : String :=
  e.fault.message

/-- The wording of an error, with its place. -/
def LexError.display (e : LexError) : String :=
  atLocation e.message e.location

/-- The tokens of a text, and what stands behind the last one. -/
structure Lexed where
  tokens : List Token
  ending : Token
  deriving DecidableEq, Repr

/-- A place in a text that is being split into tokens. -/
structure Lexer where
  doubleQuotedStrings : Bool := false
  rest : List Char
  position : Position := {}

namespace Lexer

/-- A lexer at the start of a text. -/
def ofText (text : String) (doubleQuotedStrings : Bool) : Lexer :=
  { doubleQuotedStrings, rest := text.toList }

/-- The next token or fault, and the lexer behind it. -/
def next (l : Lexer) : Except LexError Token × Lexer :=
  let trivia := Trivia.skip l.rest
  let start := l.position.advance trivia.1
  let scanned := scanToken l.doubleQuotedStrings trivia.2
  let stop := start.advance scanned.taken
  let span : Span := ⟨start.offset, stop.offset⟩
  let outcome :=
    match scanned.outcome with
    | .ok kind => .ok ⟨kind, span, String.ofList scanned.taken⟩
    | .error fault => .error ⟨fault, span, start.location⟩
  (outcome, ⟨l.doubleQuotedStrings, scanned.rest, stop⟩)

theorem next_kind_of_rest_eq_nil {l : Lexer} (h : (Trivia.skip l.rest).2 = []) {token : Token}
    (ht : l.next.1 = .ok token) : token.kind = .endOfInput := by
  simp only [next, h, scanToken, Except.ok.injEq] at ht
  rw [← ht]

theorem next_length {l after : Lexer} {token : Token} (h : l.next = (.ok token, after))
    (hk : token.kind ≠ .endOfInput) : after.rest.length < l.rest.length := by
  have ht : l.next.1 = .ok token := by rw [h]
  have hr : (Trivia.skip l.rest).2 ≠ [] := fun he => hk (next_kind_of_rest_eq_nil he ht)
  have ha : l.next.2 = after := by rw [h]
  rw [← ha]
  exact Nat.lt_of_lt_of_le (scanToken_length l.doubleQuotedStrings hr) (Trivia.skip_length l.rest)

/-- All tokens up to the end of the text, or the first fault. -/
def run (l : Lexer) : Except LexError Lexed :=
  match _h : l.next with
  | (.error e, _) => .error e
  | (.ok token, after) =>
    if _hk : token.kind = .endOfInput then .ok ⟨[], token⟩
    else (run after).map fun r => ⟨token :: r.tokens, r.ending⟩
termination_by l.rest.length
decreasing_by exact next_length _h _hk

/-- Only what stands behind the last token is the end of the text. -/
theorem run_kinds {l : Lexer} {lexed : Lexed} (h : l.run = .ok lexed) :
    (∀ t ∈ lexed.tokens, t.kind ≠ .endOfInput) ∧ lexed.ending.kind = .endOfInput := by
  fun_induction run l generalizing lexed with
  | case1 => cases h
  | case2 l token after hnext hk =>
    cases h
    exact ⟨nofun, hk⟩
  | case3 l token after hnext hk ih =>
    cases hr : after.run with
    | error e =>
      rw [hr] at h
      cases h
    | ok r =>
      rw [hr] at h
      cases h
      exact ⟨List.forall_mem_cons.2 ⟨hk, (ih hr).1⟩, (ih hr).2⟩

/-- The first `count` answers of a lexer, faults included. -/
def steps : Nat → Lexer → List (Except LexError Token)
  | 0, _ => []
  | n + 1, l => l.next.1 :: steps n l.next.2

end Lexer

/-- The tokens of a text. -/
def tokenize (text : String) (doubleQuotedStrings : Bool) : Except LexError Lexed :=
  (Lexer.ofText text doubleQuotedStrings).run

theorem tokenize_kinds {text : String} {dq : Bool} {lexed : Lexed}
    (h : tokenize text dq = .ok lexed) :
    (∀ t ∈ lexed.tokens, t.kind ≠ .endOfInput) ∧ lexed.ending.kind = .endOfInput :=
  Lexer.run_kinds h

end SqlTree
