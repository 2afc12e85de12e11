import Mathlib
import SqlTree.Layout
import SqlTree.Proofs.Lexing.Word

/-! # The tokens of written pieces

A layout is spaced when no piece of it runs into the next one. Its text then has exactly the tokens
that its pieces stand for, except that two closing angles in a row are one token.

* `Piece.EndsBefore`: a piece is found again in front of a character.
* `Layout.Spaced`: every piece is found again in front of what is written behind it.
* `Layout.solid`: the pieces that are no gap. `Layout.Numbered`: question marks are counted up.
* `Reads dq n l tokens`: the tokens that stand for solid pieces, `n` question marks being read.
* `tokenize_of_spaced`: the tokens of a spaced layout.
-/

namespace SqlTree
set_option autoImplicit false

open Text

/-! ## Pieces in front of characters -/

/-- Whether a piece is found again in front of a character, or of the end of the text. -/
def Piece.EndsBefore (dq : Bool) (next : Option Char) : Piece → Prop
  | .keyword k => (TokenKind.keyword k).EndsBefore next
  | .symbol s => ∀ c ∈ next, c ∉ s.extenders
  | .question _ => True
  | .closingAngle => ∀ c ∈ next, c ∉ Symbol.greater.extenders
  | .word w =>
    ∃ kind, TokenKind.ofWord? dq w = some kind ∧
      match kind with
      | .symbol s => w = s.text ∧ ∀ c ∈ next, c ∉ s.extenders
      | kind => kind.EndsBefore next
  | .gap => True
  | .defect _ => False

namespace Layout

/-- Every piece is found again in front of what is written behind it, `next` being the character
behind the whole layout. The first of two closing angles may run into the second. -/
def Spaced (dq : Bool) (next : Option Char) : Layout → Prop
  | [] => True
  | .closingAngle :: .closingAngle :: l => Spaced dq next (.closingAngle :: l)
  | p :: l => p.EndsBefore dq ((firstChar? l).or next) ∧ Spaced dq next l

/-- The pieces that are no gap. -/
def solid (l : Layout) : Layout :=
  l.filter (· != .gap)

end Layout

/-- The number of a question mark. -/
def Piece.number? : Piece → Option Nat
  | .question n => some n
  | _ => none

namespace Layout

/-- The numbers of the question marks. -/
def numbers (l : Layout) : List Nat :=
  l.filterMap Piece.number?

/-- The question marks are counted up, `n` of them being counted already. -/
def Numbered (n : Nat) (l : Layout) : Prop :=
  l.numbers = List.range' (n + 1) l.numbers.length

end Layout

/-- Whether a token stands for a piece, `n` question marks being read already. -/
def Piece.Spells (dq : Bool) (n : Nat) (t : Token) : Piece → Prop
  | .keyword k => t.kind = .keyword k
  | .symbol s => t.kind = .symbol s
  | .question m => t.kind = .symbol .question ∧ m = n + 1
  | .closingAngle => t.kind = .symbol .greater
  | .word w => TokenKind.ofWord? dq w = some t.kind ∧ t.text = w
  | .gap => False
  | .defect _ => False

/-- The number of question marks in a piece. -/
def Piece.questions : Piece → Nat
  | .question _ => 1
  | _ => 0

/-- The tokens that stand for solid pieces, `n` question marks being read already. -/
inductive Reads (dq : Bool) : Nat → Layout → List Token → Prop where
  | nil {n} : Reads dq n [] []
  | piece {n p t l ts} (hp : p.Spells dq n t) (h : Reads dq (n + p.questions) l ts) :
      Reads dq n (p :: l) (t :: ts)
  | angles {n t l ts} (hk : t.kind = .symbol .shiftRight) (h : Reads dq n l ts) :
      Reads dq n (.closingAngle :: .closingAngle :: l) (t :: ts)

/-! ## Characters of a layout -/

namespace Layout

theorem chars_toList (l : Layout) : l.chars.toList = l.flatMap fun p => p.text.toList := by
  have h : ∀ (l : Layout) (s : String), (l.foldl (fun text piece => text ++ piece.text) s).toList =
      s.toList ++ l.flatMap fun p => p.text.toList := by
    intro l
    induction l with
    | nil => simp
    | cons p l ih => intro s; simp [ih]
  simpa [chars] using h l ""

theorem firstChar?_eq_head? (l : Layout) : l.firstChar? = l.chars.toList.head? := by
  rw [chars_toList]
  induction l with
  | nil => rfl
  | cons p l ih =>
    rw [firstChar?, List.flatMap_cons]
    split
    · next c cs h => simp [h]
    · next h => simpa [h] using ih

theorem Spaced.tail {dq : Bool} {next : Option Char} {p : Piece} {l : Layout}
    (h : Spaced dq next (p :: l)) : Spaced dq next l := by
  unfold Spaced at h
  split at h
  · contradiction
  · next he => cases he; exact h
  · next he => cases he; exact h.2

theorem Spaced.head {dq : Bool} {next : Option Char} {p : Piece} {l : Layout}
    (h : Spaced dq next (p :: l)) (ha : ¬(p = .closingAngle ∧ l.head? = some .closingAngle)) :
    p.EndsBefore dq (l.firstChar?.or next) := by
  unfold Spaced at h
  split at h
  · contradiction
  · next he => cases he; simp at ha
  · next he => cases he; exact h.1

@[simp]
theorem solid_nil : solid [] = [] := rfl

@[simp]
theorem solid_append (l₁ l₂ : Layout) : solid (l₁ ++ l₂) = l₁.solid ++ l₂.solid :=
  List.filter_append ..

@[simp]
theorem solid_gap (l : Layout) : solid (.gap :: l) = l.solid := rfl

@[simp]
theorem solid_keyword (k : Keyword) (l : Layout) :
    solid (.keyword k :: l) = .keyword k :: l.solid := rfl

@[simp]
theorem solid_symbol (s : Symbol) (l : Layout) : solid (.symbol s :: l) = .symbol s :: l.solid := rfl

@[simp]
theorem solid_question (n : Nat) (l : Layout) :
    solid (.question n :: l) = .question n :: l.solid := rfl

@[simp]
theorem solid_closingAngle (l : Layout) : solid (.closingAngle :: l) = .closingAngle :: l.solid :=
  rfl

@[simp]
theorem solid_word (w : String) (l : Layout) : solid (.word w :: l) = .word w :: l.solid := rfl

@[simp]
theorem solid_defect (d : Defect) (l : Layout) : solid (.defect d :: l) = .defect d :: l.solid :=
  rfl

end Layout

/-! ## Reading a spaced layout -/

theorem Lexer.run_of_token {l after : Lexer} {token : Token} (h : l.next = (.ok token, after))
    (hk : token.kind ≠ .endOfInput) :
    l.run = after.run.map fun r => ⟨token :: r.tokens, r.ending⟩ := by
  rw [Lexer.run]
  split
  · next he => rw [h] at he; simp at he
  · next t a he =>
    rw [h] at he
    obtain ⟨rfl, rfl⟩ := by simpa using he
    simp only [hk, dite_false]

theorem Lexer.run_of_end {l after : Lexer} {token : Token} (h : l.next = (.ok token, after))
    (hk : token.kind = .endOfInput) : l.run = .ok ⟨[], token⟩ := by
  rw [Lexer.run]
  split
  · next he => rw [h] at he; simp at he
  · next t a he =>
    rw [h] at he
    obtain ⟨rfl, rfl⟩ := by simpa using he
    simp only [hk, dite_true]

theorem Lexer.run_of_error {l after : Lexer} {e : LexError} (h : l.next = (.error e, after)) :
    l.run = .error e := by
  rw [Lexer.run]
  split
  · next he =>
    rw [h] at he
    obtain ⟨rfl, rfl⟩ := by simpa using he
    rfl
  · next he => rw [h] at he; simp at he

/-- What is left behind all trivia of a text without leading blanks. -/
def behindTrivia : List Char → List Char
  | '-' :: '-' :: more => (Trivia.skip (more.dropWhile (· != '\n'))).2
  | '/' :: '*' :: more =>
    match Trivia.closeComment more with
    | some (_, after) => (Trivia.skip after).2
    | none => '/' :: '*' :: more
  | rest => rest

theorem skip_eq_behindTrivia (cs : List Char) :
    (Trivia.skip cs).2 = behindTrivia (cs.dropWhile isBlank) := by
  rw [Trivia.skip]
  split
  · next more h => rw [h]; rfl
  · next more h =>
    rw [h]
    simp only [behindTrivia]
    split
    · next inside after h' => rw [h']
    · next h' => rw [h']
  · next h1 h2 =>
    unfold behindTrivia
    split
    · next more h => exact absurd h (h1 more)
    · next more h => exact absurd h (h2 more)
    · rfl

theorem skip_space (cs : List Char) : (Trivia.skip (' ' :: cs)).2 = (Trivia.skip cs).2 := by
  rw [skip_eq_behindTrivia, skip_eq_behindTrivia]
  rfl

/-- The token at the head of a text that begins with a word or a symbol. -/
theorem Lexer.next_of_stands {l : Lexer} {kind : TokenKind} {text rest : List Char}
    (h : Stands l.doubleQuotedStrings kind text rest)
    (hl : (Trivia.skip l.rest).2 = (Trivia.skip (text ++ rest)).2) :
    ∃ token after, l.next = (.ok token, after) ∧ token.kind = kind ∧
      token.text = String.ofList text ∧ after.rest = rest ∧
      after.doubleQuotedStrings = l.doubleQuotedStrings := by
  rw [h.1] at hl
  simp only [Lexer.next, hl, h.2]
  exact ⟨_, _, rfl, rfl, rfl, rfl, rfl⟩

/-- A solid piece stands in front of the text that it ends before. -/
theorem Piece.stands {dq : Bool} {p : Piece} {rest : List Char}
    (h : p.EndsBefore dq rest.head?) (hs : p ≠ .gap) :
    ∃ kind, kind ≠ .endOfInput ∧ Stands dq kind p.text.toList rest ∧
      ∀ n (t : Token), t.kind = kind → t.text = p.text → (∀ m ∈ p.number?, m = n + 1) →
        p.Spells dq n t := by
  cases p with
  | keyword k =>
    exact ⟨.keyword k, by simp, stands_of_ofWord? (ofWord?_keyword dq k) (by simp) h,
      fun n t hk _ _ => hk⟩
  | symbol s => exact ⟨.symbol s, by simp, stands_symbol dq s h, fun n t hk _ _ => hk⟩
  | question m =>
    exact ⟨.symbol .question, by simp, stands_symbol dq .question (by simp [Symbol.extenders]),
      fun n t hk _ hm => ⟨hk, hm m rfl⟩⟩
  | closingAngle => exact ⟨.symbol .greater, by simp, stands_symbol dq .greater h, fun n t hk _ _ => hk⟩
  | word w =>
    obtain ⟨kind, hw, h⟩ := h
    refine ⟨kind, ?_, ?_, fun n t hk ht _ => ⟨hk ▸ hw, ht⟩⟩
    · rintro rfl
      obtain ⟨hs, hne⟩ := scanToken_of_ofWord? hw
      exact scanToken_ne_endOfInput dq hne (by rw [hs])
    · cases kind with
      | symbol s =>
        obtain ⟨rfl, h⟩ := h
        exact stands_symbol dq s h
      | _ => exact stands_of_ofWord? hw (by simp) h
  | gap => contradiction
  | defect d => exact h.elim

theorem Layout.numbered_tail {n : Nat} {p : Piece} {l : Layout} (h : Layout.Numbered n (p :: l)) :
    (∀ m ∈ p.number?, m = n + 1) ∧ Layout.Numbered (n + p.questions) l := by
  unfold Numbered numbers at h ⊢
  cases p with
  | question m =>
    have hc : List.filterMap Piece.number? (.question m :: l) =
        m :: List.filterMap Piece.number? l := rfl
    rw [hc, List.length_cons, List.range'_succ, List.cons.injEq] at h
    exact ⟨by simp [Piece.number?, h.1], h.2⟩
  | _ => exact ⟨by simp [Piece.number?], h⟩

/-- At the end of a text there is no token. -/
theorem Lexer.run_of_nil {l : Lexer} (h : (Trivia.skip l.rest).2 = []) :
    ∃ ending, l.run = .ok ⟨[], ending⟩ ∧ ending.kind = .endOfInput := by
  obtain ⟨token, after, he, hk⟩ :
      ∃ token after, l.next = (.ok token, after) ∧ token.kind = .endOfInput := by
    simp only [Lexer.next, h, scanToken]
    exact ⟨_, _, rfl, rfl⟩
  exact ⟨token, Lexer.run_of_end he hk, hk⟩

/-- The tokens of a lexer in front of a spaced layout, with other text behind it. -/
theorem run_of_spaced_append {dq : Bool} {tail : List Char} :
    ∀ (l : Layout) {n : Nat} {lexer : Lexer}, l.Spaced dq tail.head? → l.Numbered n →
      lexer.doubleQuotedStrings = dq →
      (Trivia.skip lexer.rest).2 = (Trivia.skip (l.chars.toList ++ tail)).2 →
      ∃ (tokens : List Token) (after : Lexer),
        lexer.run = after.run.map (fun r => ⟨tokens ++ r.tokens, r.ending⟩) ∧
        Reads dq n l.solid tokens ∧ after.doubleQuotedStrings = dq ∧
        (Trivia.skip after.rest).2 = (Trivia.skip tail).2
  | [], n, lexer, _, _, hq, hl => by
    refine ⟨[], lexer, ?_, .nil, hq, ?_⟩
    · cases lexer.run <;> rfl
    · rw [hl, Layout.chars_toList]
      rfl
  | p :: l, n, lexer, hs, hn, hq, hl => by
    by_cases hg : p = .gap
    · subst hg
      refine run_of_spaced_append l hs.tail (Layout.numbered_tail hn).2 hq ?_
      rw [hl, Layout.chars_toList, Layout.chars_toList l]
      exact skip_space _
    -- A token in front of what the rest of the layout is read as.
    have hcons : ∀ {token : Token} {after : Lexer}, lexer.next = (.ok token, after) →
        token.kind ≠ .endOfInput → ∀ {tokens : List Token} {last : Lexer},
          after.run = last.run.map (fun r => ⟨tokens ++ r.tokens, r.ending⟩) →
          lexer.run = last.run.map fun r => ⟨token :: tokens ++ r.tokens, r.ending⟩ := by
      intro token after he hk tokens last h1
      rw [Lexer.run_of_token he hk, h1]
      cases last.run <;> rfl
    by_cases ha : p = .closingAngle ∧ l.head? = some .closingAngle
    · obtain ⟨rfl, ha⟩ := ha
      obtain ⟨l, rfl⟩ : ∃ l', l = .closingAngle :: l' := by
        cases l with
        | nil => simp at ha
        | cons q l => exact ⟨l, by simpa using ha⟩
      have hc : (Layout.chars (.closingAngle :: .closingAngle :: l)).toList ++ tail =
          Symbol.shiftRight.text.toList ++ ((Layout.chars l).toList ++ tail) := by
        simp [Layout.chars_toList, Piece.text, Symbol.text]
      have ht : Stands dq (.symbol .shiftRight) Symbol.shiftRight.text.toList
          ((Layout.chars l).toList ++ tail) := stands_symbol dq .shiftRight (by simp [Symbol.extenders])
      obtain ⟨token, after, he, hk, -, hr, hd⟩ := Lexer.next_of_stands (hq ▸ ht) (by rw [hl, hc])
      obtain ⟨tokens, last, h1, h2, h3⟩ := run_of_spaced_append l hs.tail.tail
        (Layout.numbered_tail (Layout.numbered_tail hn).2).2 (hd.trans hq) (by rw [hr])
      exact ⟨token :: tokens, last, hcons he (by simp [hk]) h1, .angles hk h2, h3⟩
    · have hc : (Layout.chars (p :: l)).toList ++ tail =
          p.text.toList ++ ((Layout.chars l).toList ++ tail) := by
        simp [Layout.chars_toList]
      have he := hs.head ha
      rw [Layout.firstChar?_eq_head?, ← List.head?_append] at he
      obtain ⟨kind, hne, ht, hp⟩ := Piece.stands he hg
      obtain ⟨token, after, he, hk, hx, hr, hd⟩ :=
        Lexer.next_of_stands (hq ▸ ht) (by rw [hl, hc])
      obtain ⟨hm, hn⟩ := Layout.numbered_tail hn
      obtain ⟨tokens, last, h1, h2, h3⟩ :=
        run_of_spaced_append l hs.tail hn (hd.trans hq) (by rw [hr])
      have hs : Layout.solid (p :: l) = p :: Layout.solid l := by simp [Layout.solid, hg]
      refine ⟨token :: tokens, last, hcons he (by rw [hk]; exact hne) h1, ?_, h3⟩
      rw [hs]
      exact .piece (hp n token hk (by simp [hx]) hm) h2
termination_by l => l.length

/-- The tokens of a lexer in front of a spaced layout. -/
theorem run_of_spaced {dq : Bool} (l : Layout) {n : Nat} {lexer : Lexer} (hs : l.Spaced dq none)
    (hn : l.Numbered n) (hq : lexer.doubleQuotedStrings = dq)
    (hl : (Trivia.skip lexer.rest).2 = (Trivia.skip l.chars.toList).2) :
    ∃ lexed, lexer.run = .ok lexed ∧ Reads dq n l.solid lexed.tokens ∧
      lexed.ending.kind = .endOfInput := by
  obtain ⟨tokens, after, h1, h2, -, h3⟩ :=
    @run_of_spaced_append dq [] l n lexer hs hn hq (by rwa [List.append_nil])
  obtain ⟨ending, h4, he⟩ := Lexer.run_of_nil (h3.trans (by rw [skip_eq_behindTrivia]; rfl))
  exact ⟨⟨tokens, ending⟩, by rw [h1, h4, Except.map, List.append_nil], h2, he⟩

/-- A spaced layout has the tokens that its pieces stand for. -/
theorem tokenize_of_spaced {dq : Bool} {l : Layout} (hs : l.Spaced dq none) (hn : l.Numbered 0) :
    ∃ lexed, tokenize l.chars dq = .ok lexed ∧ Reads dq 0 l.solid lexed.tokens ∧
      lexed.ending.kind = .endOfInput :=
  run_of_spaced l hs hn rfl rfl

end SqlTree
