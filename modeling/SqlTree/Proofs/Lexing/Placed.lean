import Mathlib
import SqlTree.Cursor
import SqlTree.Proofs.Lexing.Lexeme
import SqlTree.Proofs.Lexing.Run

/-! # Where the tokens of a text stand

* `Token.Placed cs t`: the token `t` stands in the text `cs`, and so does what is left of it where
  it is two closing angles.
* `tokenize_placed`: all tokens of a text are placed in it.
* `tokenize_error`: a text without tokens has a first fault, behind tokens that are none.
-/

namespace SqlTree
set_option autoImplicit false

open Text

variable {dq : Bool}

/-- A token stands in a text. Two closing angles that are read as one token are just these two
characters. -/
structure Token.Placed (cs : List Char) (t : Token) : Prop where
  cuts : t.span.Cuts cs
  angles : t.kind = .symbol .shiftRight → ∃ before rest, cs = before ++ ('>' :: '>' :: rest) ∧
    t = ⟨.symbol .shiftRight, ⟨byteLength before, byteLength before + 2⟩, ">>"⟩

namespace Lexer

variable {cs : List Char} {l after : Lexer} {t : Token}

theorem Within.placed (hl : l.Within cs) (h : l.next = (.ok t, after)) : t.Placed cs := by
  have hcuts := hl.cuts
  rw [h] at hcuts
  refine ⟨hcuts, fun hk => ?_⟩
  obtain ⟨before, hcs, hp⟩ := hl
  have hskip := Trivia.skip_append l.rest
  have hscan := scanToken_append l.doubleQuotedStrings (Trivia.skip l.rest).2
  simp only [Lexer.next, Prod.mk.injEq] at h
  obtain ⟨ht, -⟩ := h
  generalize hs : scanToken l.doubleQuotedStrings (Trivia.skip l.rest).2 = scanned at ht hscan
  obtain ⟨outcome, taken, rest⟩ := scanned
  cases outcome with
  | error e => simp at ht
  | ok kind =>
    obtain rfl := Except.ok.inj ht
    obtain rfl : kind = .symbol .shiftRight := hk
    obtain rfl : taken = ['>', '>'] := (scanToken_symbol hs).resolve_right (by simp)
    have hstart : (l.position.advance (Trivia.skip l.rest).1).offset =
        byteLength (before ++ (Trivia.skip l.rest).1) := by
      rw [hp, ← Position.advance_append, Position.offset_advance, Nat.zero_add]
    refine ⟨before ++ (Trivia.skip l.rest).1, rest, ?_, ?_⟩
    · rw [List.append_assoc, hcs]
      exact congrArg (before ++ ·) (hskip.symm.trans (congrArg (_ ++ ·) hscan.symm))
    · rw [Position.offset_advance _ ['>', '>'], hstart]
      rfl

/-- The tokens of a lexer stand in the text that it stands in. -/
theorem run_placed {lexed : Lexed} (hl : l.Within cs) (h : l.run = .ok lexed) :
    (∀ t ∈ lexed.tokens, t.Placed cs) ∧ lexed.ending.Placed cs := by
  refine Lexer.run_induction (P := fun l lexed => l.Within cs →
    (∀ t ∈ lexed.tokens, t.Placed cs) ∧ lexed.ending.Placed cs) ?_ ?_ h hl
  · exact fun hnext hk hl => ⟨by simp, hl.placed hnext⟩
  · rintro l after t lexed hnext hk ih hl
    have hafter : after = l.next.2 := by rw [hnext]
    obtain ⟨htokens, hending⟩ := ih (hafter ▸ hl.next)
    exact ⟨List.forall_mem_cons.2 ⟨hl.placed hnext, htokens⟩, hending⟩

/-- A lexer that has a fault answers some tokens and then this fault. -/
theorem run_error {e : LexError} (h : l.run = .error e) : ∃ ts : List Token,
    l.steps (ts.length + 1) = ts.map .ok ++ [.error e] ∧ (∀ t ∈ ts, t.kind ≠ .endOfInput) ∧
      ∀ cs, l.Within cs → e.location = Location.ofOffset cs e.span.start ∧ e.span.Cuts cs := by
  induction hn : l.rest.length using Nat.strong_induction_on generalizing l with
  | _ n ih =>
    rcases hnext : l.next with ⟨outcome, after⟩
    cases outcome with
    | error e' =>
      obtain rfl : e' = e := by
        rw [run_of_error hnext] at h
        exact Except.error.inj h
      refine ⟨[], by simp [steps, hnext], by simp, fun cs hl => ⟨?_, ?_⟩⟩
      · obtain ⟨before, gap, inside, rest, hcs, -, -, -, -, hs, hlocation⟩ := next_spec hl
        rw [hnext] at hs hlocation
        have hstart : e'.span.start = (Position.advance {} (before ++ gap)).offset := by
          rw [Position.offset_advance, Nat.zero_add]
          exact congrArg Span.start hs
        rw [hlocation e' rfl, hstart, hcs, ← List.append_assoc, ofOffset_advance]
      · have hcuts := hl.cuts
        rw [hnext] at hcuts
        exact hcuts
    | ok t =>
      by_cases hk : t.kind = .endOfInput
      · rw [run_of_end hnext hk] at h
        cases h
      · rw [run_of_token hnext hk] at h
        cases hr : after.run with
        | ok r => simp [hr, Except.map] at h
        | error e' =>
          obtain rfl : e' = e := by simpa [hr, Except.map] using h
          obtain ⟨ts, hsteps, hts, hplace⟩ := ih _ (hn ▸ next_length hnext hk) hr rfl
          have hafter : after = l.next.2 := by rw [hnext]
          refine ⟨t :: ts, ?_, List.forall_mem_cons.2 ⟨hk, hts⟩, fun cs hl => ?_⟩
          · rw [List.length_cons, steps, hnext, hsteps]
            rfl
          · exact hplace cs (hafter ▸ hl.next)

/-- A lexer that answers some tokens and then the end has these tokens. -/
theorem run_of_steps {ts : List Token} {ending : Token} (hts : ∀ t ∈ ts, t.kind ≠ .endOfInput)
    (he : ending.kind = .endOfInput)
    (h : l.steps (ts.length + 1) = ts.map .ok ++ [.ok ending]) : l.run = .ok ⟨ts, ending⟩ := by
  induction ts generalizing l with
  | nil =>
    obtain ⟨hnext, -⟩ := List.cons.inj h
    exact run_of_end (Prod.ext hnext rfl) he
  | cons t ts ih =>
    obtain ⟨ht, hts⟩ := List.forall_mem_cons.1 hts
    obtain ⟨hnext, hrest⟩ := List.cons.inj h
    have hstep : l.next = (.ok t, l.next.2) := Prod.ext hnext rfl
    rw [run_of_token hstep ht, ih hts hrest]
    rfl

end Lexer

/-- The tokens of a text stand in it, and only the last one is its end. -/
theorem tokenize_placed {text : String} {lexed : Lexed} (h : tokenize text dq = .ok lexed) :
    (∀ t ∈ lexed.tokens, t.Placed text.toList) ∧ lexed.ending.Placed text.toList :=
  Lexer.run_placed (Lexer.within_ofText text dq) h

/-- What a text that cannot be split into tokens fails with is the first fault of its lexer. -/
theorem tokenize_error {text : String} {e : LexError} (h : tokenize text dq = .error e) :
    (∃ ts : List Token, (Lexer.ofText text dq).steps (ts.length + 1) = ts.map .ok ++ [.error e] ∧
      ∀ t ∈ ts, t.kind ≠ .endOfInput) ∧
    e.location = Location.ofOffset text.toList e.span.start ∧ e.span.Cuts text.toList := by
  obtain ⟨ts, hsteps, hts, hplace⟩ := Lexer.run_error h
  exact ⟨⟨ts, hsteps, hts⟩, hplace _ (Lexer.within_ofText text dq)⟩

end SqlTree
