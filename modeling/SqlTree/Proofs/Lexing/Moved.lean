import Mathlib
import SqlTree.Proofs.Lexing.Run

/-! # The same characters at another place

What a lexer answers depends on its place only by the offsets, lines and columns in the answers.

* `Location.behind`, `Position.behind`, `Span.behind`: a place in a text as it is counted when the
  text is written behind other text.
* `Token.behind`, `answerBehind`, `Lexer.behind`: the same for tokens, answers and lexers.
* `Lexer.steps_behind`: a lexer that is moved gives the same answers, moved.
-/

namespace SqlTree
set_option autoImplicit false

/-- A location of a text, the text being written from the location `p` on. -/
def Location.behind (l p : Location) : Location :=
  if l.line = 1 then ⟨p.line, p.column + (l.column - 1)⟩
  else ⟨p.line + (l.line - 1), l.column⟩

/-- A position of a text, the text being written from the position `p` on. -/
def Position.behind (q p : Position) : Position :=
  ⟨p.offset + q.offset, q.location.behind p.location⟩

/-- A span of a text that is written from an offset on. -/
def Span.behind (s : Span) (offset : Nat) : Span :=
  ⟨offset + s.start, offset + s.stop⟩

/-- A token of a text that is written from an offset on. -/
def Token.behind (t : Token) (offset : Nat) : Token :=
  { t with span := t.span.behind offset }

/-- An answer about a text that is written from the position `p` on. -/
def answerBehind (p : Position) : Except LexError Token → Except LexError Token
  | .ok token => .ok (token.behind p.offset)
  | .error e => .error ⟨e.fault, e.span.behind p.offset, e.location.behind p.location⟩

/-- A lexer whose text is written from the position `p` on. -/
def Lexer.behind (l : Lexer) (p : Position) : Lexer :=
  { l with position := l.position.behind p }

/-! ## Positions -/

/-- Lines and columns are counted from one. -/
def Location.Counted (l : Location) : Prop :=
  1 ≤ l.line ∧ 1 ≤ l.column

theorem Location.Counted.next {l : Location} (h : l.Counted) (c : Char) : (l.next c).Counted := by
  unfold Location.next
  split
  · exact ⟨Nat.le_add_left 1 l.line, Nat.le_refl 1⟩
  · exact ⟨h.1, Nat.le_add_left 1 l.column⟩

theorem Location.behind_next {l : Location} (h : l.Counted) (p : Location) (c : Char) :
    (l.next c).behind p = (l.behind p).next c := by
  obtain ⟨h1, h2⟩ := h
  by_cases hc : c = '\n'
  · -- Behind a line feed the line is not the first one any more.
    have hn : l.line + 1 ≠ 1 := by omega
    by_cases hl : l.line = 1
    · simp [behind, next, hc, hl]
    · have he : p.line + l.line = p.line + (l.line - 1) + 1 := by omega
      simp only [behind, next, hc, hl, hn, if_true, if_false, Nat.add_sub_cancel, he]
  · by_cases hl : l.line = 1
    · have he : p.column + l.column = p.column + (l.column - 1) + 1 := by omega
      simp only [behind, next, hc, hl, if_true, if_false, Nat.add_sub_cancel, he]
    · simp only [behind, next, hc, hl, if_false]

/-- Moving goes with reading on. -/
theorem Position.behind_advance (cs : List Char) {q : Position} (h : q.location.Counted)
    (p : Position) : (q.advance cs).behind p = (q.behind p).advance cs := by
  induction cs generalizing q with
  | nil => rfl
  | cons c cs ih =>
    have hn : (q.next c).behind p = (q.behind p).next c := by
      simp only [behind, next, Location.behind_next h, Nat.add_assoc]
    calc (q.advance (c :: cs)).behind p
        = ((q.next c).advance cs).behind p := rfl
      _ = ((q.next c).behind p).advance cs := ih (h.next c)
      _ = ((q.behind p).next c).advance cs := by rw [hn]

theorem Position.counted_advance (cs : List Char) {q : Position} (h : q.location.Counted) :
    (q.advance cs).location.Counted := by
  induction cs generalizing q with
  | nil => exact h
  | cons c cs ih => exact ih (q := q.next c) (h.next c)

/-! ## Answers -/

namespace Lexer

variable {l : Lexer}

/-- One answer of a lexer that is moved. -/
theorem next_behind (h : l.position.location.Counted) (p : Position) :
    (l.behind p).next = (answerBehind p l.next.1, l.next.2.behind p) := by
  have hs := Position.behind_advance (Trivia.skip l.rest).1 h p
  have hc := Position.counted_advance (Trivia.skip l.rest).1 h
  have ht := Position.behind_advance
    (scanToken l.doubleQuotedStrings (Trivia.skip l.rest).2).taken hc p
  simp only [Lexer.next, Lexer.behind, ← hs, ← ht]
  split <;> rfl

theorem counted_next (h : l.position.location.Counted) : l.next.2.position.location.Counted :=
  Position.counted_advance _ (Position.counted_advance _ h)

/-- A lexer that is moved gives the same answers, moved. -/
theorem steps_behind (n : Nat) (h : l.position.location.Counted) (p : Position) :
    (l.behind p).steps n = (l.steps n).map (answerBehind p) := by
  induction n generalizing l with
  | zero => rfl
  | succ n ih => simp only [steps, next_behind h, ih (counted_next h), List.map_cons]

end Lexer

end SqlTree
