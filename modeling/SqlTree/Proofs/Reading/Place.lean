import Mathlib
import SqlTree.Parse
import SqlTree.Proofs.Lexing.Spacing

/-! # Reading what is written

* `Cursor.At dq l c`: in front of the cursor stands what is written in `l`, a list of solid pieces.
* `kindAhead dq l k`: the kind of the token for the piece `k` places ahead.
* `Takes dq p l a l'`: wherever `l` stands ahead, `p` answers `a` and leaves `l'` ahead, and it has
  counted the question marks between them.
* `Gathers`, `Climbs`: the rounds of a repetition, for `collect` and `repeatFrom`.

The rules for single tokens and for the arrangements of the grammar follow the definitions in
`Parse`. A closing angle is the only piece that is not known to be a token of its own, so whatever
looks further ahead than the next token asks for pieces that are none.
-/

namespace SqlTree
set_option autoImplicit false

open Parse

variable {dq : Bool} {α β : Type}

/-! ## Places -/

/-- In front of the cursor stands what is written in `l`. -/
structure Cursor.At (dq : Bool) (l : Layout) (c : Cursor) : Prop where
  reads : Reads dq c.placeholders l c.ahead
  ending : c.ending.kind = .endOfInput

/-- The kind of the token for a piece. -/
def Piece.kind (dq : Bool) : Piece → TokenKind
  | .keyword k => .keyword k
  | .symbol s => .symbol s
  | .question _ => .symbol .question
  | .closingAngle => .symbol .greater
  | .word w => (TokenKind.ofWord? dq w).getD .endOfInput
  | .gap => .endOfInput
  | .defect _ => .endOfInput

/-- The kind of the token for the piece `k` places ahead. -/
def kindAhead (dq : Bool) : Layout → Nat → TokenKind
  | [], _ => .endOfInput
  | p :: _, 0 => p.kind dq
  | _ :: l, k + 1 => kindAhead dq l k

/-- The number of pieces that are tokens of their own for sure. -/
def Layout.size (l : Layout) : Nat :=
  l.countP fun p => p != .closingAngle && p != .gap

/-- In front of the cursor stands what is written in `l'`. It is behind a cursor `c` in front of
`l`, and the question marks between them are counted. -/
structure Cursor.AtBehind (dq : Bool) (l' : Layout) (c' : Cursor) (l : Layout) (c : Cursor) :
    Prop extends c'.At dq l' where
  count : c'.placeholders + l'.numbers.length = c.placeholders + l.numbers.length
  sameEnd : c'.ending = c.ending

/-- Reads what is written in `l` up to `l'`, and answers `a`. The question marks between them are
counted. -/
def Takes (dq : Bool) (p : Parse α) (l : Layout) (a : α) (l' : Layout) : Prop :=
  ∀ c : Cursor, c.At dq l → ∃ c', p c = .ok a c' ∧ c'.AtBehind dq l' l c

@[simp]
theorem kindAhead_nil (k : Nat) : kindAhead dq [] k = .endOfInput := rfl

@[simp]
theorem kindAhead_zero (p : Piece) (l : Layout) : kindAhead dq (p :: l) 0 = p.kind dq := rfl

@[simp]
theorem kindAhead_succ (p : Piece) (l : Layout) (k : Nat) :
    kindAhead dq (p :: l) (k + 1) = kindAhead dq l k := rfl

@[simp]
theorem Piece.kind_keyword (k : Keyword) : (Piece.keyword k).kind dq = .keyword k := rfl

@[simp]
theorem Piece.kind_symbol (s : Symbol) : (Piece.symbol s).kind dq = .symbol s := rfl

@[simp]
theorem Piece.kind_question (n : Nat) : (Piece.question n).kind dq = .symbol .question := rfl

@[simp]
theorem Piece.kind_closingAngle : Piece.closingAngle.kind dq = .symbol .greater := rfl

theorem Piece.kind_word {w : String} {kind : TokenKind}
    (h : TokenKind.ofWord? dq w = some kind) : (Piece.word w).kind dq = kind := by
  simp [Piece.kind, h]

theorem Piece.Spells.kind_eq {n : Nat} {t : Token} {p : Piece} (h : p.Spells dq n t) :
    t.kind = p.kind dq := by
  cases p with
  | keyword k => exact h
  | symbol s => exact h
  | question m => exact h.1
  | closingAngle => exact h
  | word w => exact (Piece.kind_word h.1).symm
  | gap => exact h.elim
  | defect d => exact h.elim

namespace Layout

@[simp]
theorem size_nil : size [] = 0 := rfl

@[simp]
theorem size_append (l₁ l₂ : Layout) : size (l₁ ++ l₂) = l₁.size + l₂.size :=
  List.countP_append

@[simp]
theorem size_keyword (k : Keyword) (l : Layout) : size (.keyword k :: l) = l.size + 1 :=
  List.countP_cons_of_pos (by simp)

@[simp]
theorem size_symbol (s : Symbol) (l : Layout) : size (.symbol s :: l) = l.size + 1 :=
  List.countP_cons_of_pos (by simp)

@[simp]
theorem size_question (n : Nat) (l : Layout) : size (.question n :: l) = l.size + 1 :=
  List.countP_cons_of_pos (by simp)

@[simp]
theorem size_word (w : String) (l : Layout) : size (.word w :: l) = l.size + 1 :=
  List.countP_cons_of_pos (by simp)

@[simp]
theorem size_closingAngle (l : Layout) : size (.closingAngle :: l) = l.size :=
  List.countP_cons_of_neg (by simp)

@[simp]
theorem size_gap (l : Layout) : size (.gap :: l) = l.size :=
  List.countP_cons_of_neg (by simp)

@[simp]
theorem size_solid (l : Layout) : l.solid.size = l.size := by
  unfold size solid
  rw [List.countP_filter]
  congr 1
  funext p
  cases p <;> rfl

end Layout

theorem size_le_of_reads {n : Nat} {l : Layout} {ts : List Token} (h : Reads dq n l ts) :
    l.size ≤ ts.length := by
  induction h with
  | nil => exact Nat.le_refl 0
  | @piece n p t l ts hp h ih =>
    unfold Layout.size at ih ⊢
    rw [List.countP_cons, List.length_cons]
    split <;> omega
  | @angles n t l ts hk h ih =>
    unfold Layout.size at ih ⊢
    rw [List.countP_cons_of_neg (by simp), List.countP_cons_of_neg (by simp), List.length_cons]
    omega

namespace Cursor.At

variable {l : Layout} {c : Cursor}

theorem size_le (h : c.At dq l) : l.size ≤ c.ahead.length :=
  size_le_of_reads h.reads

/-- Behind a piece that is no closing angle the token for it is taken alone. -/
theorem cons {p : Piece} (h : c.At dq (p :: l)) (hp : p ≠ .closingAngle) :
    ∃ t ts, c.ahead = t :: ts ∧ p.Spells dq c.placeholders t ∧
      Reads dq (c.placeholders + p.questions) l ts := by
  obtain ⟨hr, -⟩ := h
  generalize c.placeholders = n at hr
  generalize hts : c.ahead = ts at hr
  cases hr with
  | piece hp h => exact ⟨_, _, rfl, hp, h⟩
  | angles hk h => contradiction

theorem advance {p : Piece} (h : c.At dq (p :: l)) (hp : p ≠ .closingAngle)
    (hq : p.questions = 0) : c.advance.AtBehind dq l (p :: l) c := by
  obtain ⟨t, ts, ha, -, hr⟩ := h.cons hp
  rw [hq, Nat.add_zero] at hr
  refine ⟨⟨?_, ?_⟩, ?_, ?_⟩
  · simpa [Cursor.advance, ha] using hr
  · simpa [Cursor.advance, ha] using h.ending
  · have hn : p.number? = none := by
      cases p <;> first | rfl | simp [Piece.questions] at hq
    simp [Cursor.advance, ha, Layout.numbers, hn]
  · simp [Cursor.advance, ha]

theorem current_kind (h : c.At dq l) : c.current.kind = c.peek 0 := by
  unfold Cursor.current Cursor.peek
  cases c.ahead with
  | nil => exact h.ending
  | cons t ts => rfl

theorem peek_of_reads :
    ∀ {k : Nat} {l : Layout} {n : Nat} {ts : List Token}, Reads dq n l ts →
      (∀ p ∈ l.take k, p ≠ .closingAngle) →
      ∀ kind, kind = (match ts[k]? with | some t => t.kind | none => .endOfInput) →
        kind = kindAhead dq l k ∨
          kind = .symbol .shiftRight ∧ kindAhead dq l k = .symbol .greater
  | k, _, _, _, .nil, _, _, he => .inl (by simpa using he)
  | 0, _, _, _, .piece hp h, _, _, he => .inl (by simpa [hp.kind_eq] using he)
  | k + 1, _, _, _, .piece hp h, hc, kind, he => by
    have ih := peek_of_reads (k := k) h (fun p hp' => hc p (by simp [hp'])) kind
    exact ih (by simpa using he)
  | 0, _, _, _, .angles ht h, _, _, he => .inr ⟨by simpa [ht] using he, rfl⟩
  | k + 1, _, _, _, .angles ht h, hc, _, _ => by simp at hc

/-- What is seen ahead behind pieces that are no closing angles. -/
theorem peek_cases {k : Nat} (h : c.At dq l) (hc : ∀ p ∈ l.take k, p ≠ .closingAngle) :
    c.peek k = kindAhead dq l k ∨
      c.peek k = .symbol .shiftRight ∧ kindAhead dq l k = .symbol .greater :=
  peek_of_reads h.reads hc _ rfl

theorem peek_eq {kind : TokenKind} {k : Nat} (h : c.At dq l) (hc : ∀ p ∈ l.take k, p ≠ .closingAngle)
    (hk : kind ≠ .symbol .shiftRight) (hk' : kind ≠ .symbol .greater) :
    c.peek k = kind ↔ kindAhead dq l k = kind := by
  rcases h.peek_cases hc with hp | ⟨hp, hg⟩
  · rw [hp]
  · rw [hp, hg]
    exact ⟨fun he => absurd he.symm hk, fun he => absurd he.symm hk'⟩

end Cursor.At

/-! ## Sequences -/

variable {l l₁ l₂ : Layout} {a : α} {b : β}

theorem Takes.pure (a : α) (l : Layout) : Takes dq (pure a) l a l :=
  fun c hc => ⟨c, rfl, hc, rfl, rfl⟩

theorem Takes.bind {p : Parse α} {f : α → Parse β} (hp : Takes dq p l a l₁)
    (hf : Takes dq (f a) l₁ b l₂) : Takes dq (p >>= f) l b l₂ := by
  intro c hc
  obtain ⟨c₁, h₁, hc₁, hn₁, he₁⟩ := hp c hc
  obtain ⟨c₂, h₂, hc₂, hn₂, he₂⟩ := hf c₁ hc₁
  exact ⟨c₂, by simp only [bind_apply, h₁, h₂], hc₂, hn₂.trans hn₁, he₂.trans he₁⟩

theorem Takes.map {p : Parse α} (f : α → β) (hp : Takes dq p l a l₁) :
    Takes dq (f <$> p) l (f a) l₁ := by
  intro c hc
  obtain ⟨c₁, h₁, hc₁⟩ := hp c hc
  refine ⟨c₁, ?_, hc₁⟩
  rw [map_eq_pure_bind, bind_apply, h₁]
  rfl

/-- A reader that is told what to answer behind reading the tokens ahead. -/
theorem Takes.ahead {f : List Token → Parse β}
    (h : ∀ c, c.At dq l → ∃ c', f c.ahead c = .ok b c' ∧ c'.AtBehind dq l₁ l c) :
    Takes dq (Parse.ahead >>= f) l b l₁ :=
  fun c hc => h c hc

/-! ## Single tokens -/

theorem takes_advance {p : Piece} (hp : p ≠ .closingAngle) (hq : p.questions = 0) :
    Takes dq advance (p :: l) () l :=
  fun c hc => ⟨c.advance, rfl, hc.advance hp hq⟩

/-- A question mark is counted right behind it. -/
theorem takes_question {m : Nat} {f : Nat → Parse β} (hf : Takes dq (f m) l b l₁) :
    Takes dq (advance >>= fun _ => nextPlaceholder >>= f) (.question m :: l) b l₁ := by
  intro c hc
  obtain ⟨t, ts, ha, hp, hr⟩ := hc.cons (by simp)
  obtain ⟨c', h', hc', hn, he⟩ := hf { c.advance with placeholders := c.placeholders + 1 }
    ⟨by simpa [Cursor.advance, ha, Piece.questions] using hr,
      by simpa [Cursor.advance, ha] using hc.ending⟩
  have hm : m = c.placeholders + 1 := hp.2
  have hs : c.advance.placeholders = c.placeholders := by simp [Cursor.advance, ha]
  refine ⟨c', ?_, hc', ?_, ?_⟩
  · rw [← h', hm, ← hs]
    rfl
  · rw [hn]
    simp [Layout.numbers, Piece.number?]
    omega
  · rw [he]
    simp [Cursor.advance, ha]

/-- The token under the cursor is the one for the first piece. -/
theorem takes_current {p : Piece} {f : Token → Parse β} (hp : p ≠ .closingAngle)
    (h : ∀ t : Token, t.kind = p.kind dq → (∀ w, p = .word w → t.text = w) →
      Takes dq (f t) (p :: l) b l₁) : Takes dq (current >>= f) (p :: l) b l₁ := by
  intro c hc
  obtain ⟨t, ts, ha, hs, -⟩ := hc.cons hp
  have ht : c.current = t := by simp [Cursor.current, ha]
  refine h c.current (by rw [ht, hs.kind_eq]) ?_ c hc
  rintro w rfl
  rw [ht]
  exact hs.2

/-- What is read whatever token may stand for the first piece. -/
theorem takes_current_kind {f : Token → Parse β}
    (h : ∀ t : Token, (t.kind = kindAhead dq l 0 ∨
      t.kind = .symbol .shiftRight ∧ kindAhead dq l 0 = .symbol .greater) →
      Takes dq (f t) l b l₁) : Takes dq (current >>= f) l b l₁ := by
  intro c hc
  have ht := hc.peek_cases (k := 0) (by simp)
  rw [← hc.current_kind] at ht
  exact h c.current ht c hc

theorem takes_current_plain {f : Token → Parse β} (hl : l.head? ≠ some .closingAngle)
    (h : ∀ t : Token, t.kind = kindAhead dq l 0 → Takes dq (f t) l b l₁) :
    Takes dq (current >>= f) l b l₁ := by
  intro c hc
  refine h c.current ?_ c hc
  cases l with
  | nil =>
    rw [hc.current_kind, (hc.peek_cases (k := 0) (by simp)).resolve_right (by simp)]
  | cons p l =>
    obtain ⟨t, ts, ha, hs, -⟩ := hc.cons (by simpa using hl)
    rw [Cursor.current, ha, List.headD_cons, hs.kind_eq, kindAhead_zero]

/-- A test that treats both kinds of angles alike. -/
theorem takes_peek {k : Nat} {γ : Type} {t : TokenKind → γ} {f : γ → Parse β}
    (h : Takes dq (f (t (kindAhead dq l k))) l b l₁)
    (ht : t (.symbol .shiftRight) = t (.symbol .greater))
    (hc : ∀ p ∈ l.take k, p ≠ .closingAngle) :
    Takes dq (peek k >>= fun kind => f (t kind)) l b l₁ := by
  intro c hl
  have hp : t (c.peek k) = t (kindAhead dq l k) := by
    rcases hl.peek_cases hc with hp | ⟨hp, hg⟩
    · rw [hp]
    · rw [hp, hg, ht]
  obtain ⟨c', h', hc'⟩ := h c hl
  refine ⟨c', ?_, hc'⟩
  rw [← h', ← hp]
  rfl

/-- What is read whatever a test answers. -/
theorem takes_test_any {γ : Type} {test : Parse γ} {f : γ → Parse β}
    (ht : ∀ c, ∃ answer, test c = .ok answer c) (h : ∀ answer, Takes dq (f answer) l b l₁) :
    Takes dq (test >>= f) l b l₁ := by
  intro c hc
  obtain ⟨answer, ha⟩ := ht c
  obtain ⟨c', h', hc'⟩ := h answer c hc
  exact ⟨c', by rw [bind_apply, ha]; exact h', hc'⟩

section Tests

variable {k : Nat} {s : Symbol} {w : Keyword}

theorem takes_symbolAt_yes (h : kindAhead dq l k = .symbol s)
    (hs : s ≠ .shiftRight ∧ s ≠ .greater)
    (hc : ∀ p ∈ l.take k, p ≠ .closingAngle) :
    Takes dq (symbolAt k s) l true l := by
  intro c hl
  have hp : c.peek k = .symbol s := (hl.peek_eq hc (by simp [hs.1]) (by simp [hs.2])).2 h
  refine ⟨c, ?_, hl, rfl, rfl⟩
  show EStateM.Result.ok (c.peek k == .symbol s) c = _
  rw [hp, beq_self_eq_true]

theorem takes_symbolAt_no (h : kindAhead dq l k ≠ .symbol s)
    (hs : s ≠ .shiftRight ∧ s ≠ .greater)
    (hc : ∀ p ∈ l.take k, p ≠ .closingAngle) :
    Takes dq (symbolAt k s) l false l := by
  intro c hl
  have hp : c.peek k ≠ .symbol s := fun he =>
    h ((hl.peek_eq hc (by simp [hs.1]) (by simp [hs.2])).1 he)
  refine ⟨c, ?_, hl, rfl, rfl⟩
  show EStateM.Result.ok (c.peek k == .symbol s) c = _
  rw [beq_false_of_ne hp]

theorem takes_keywordAt_yes (h : kindAhead dq l k = .keyword w)
    (hc : ∀ p ∈ l.take k, p ≠ .closingAngle) :
    Takes dq (keywordAt k w) l true l := by
  intro c hl
  have hp : c.peek k = .keyword w := (hl.peek_eq hc (by simp) (by simp)).2 h
  refine ⟨c, ?_, hl, rfl, rfl⟩
  show EStateM.Result.ok (c.peek k == .keyword w) c = _
  rw [hp, beq_self_eq_true]

theorem takes_keywordAt_no (h : kindAhead dq l k ≠ .keyword w)
    (hc : ∀ p ∈ l.take k, p ≠ .closingAngle) :
    Takes dq (keywordAt k w) l false l := by
  intro c hl
  have hp : c.peek k ≠ .keyword w := fun he => h ((hl.peek_eq hc (by simp) (by simp)).1 he)
  refine ⟨c, ?_, hl, rfl, rfl⟩
  show EStateM.Result.ok (c.peek k == .keyword w) c = _
  rw [beq_false_of_ne hp]

theorem takes_anyKeywordAt_yes {ws : List Keyword} (h : kindAhead dq l k = .keyword w) (hw : w ∈ ws)
    (hc : ∀ p ∈ l.take k, p ≠ .closingAngle) :
    Takes dq (anyKeywordAt k ws) l true l := by
  intro c hl
  have hp : c.peek k = .keyword w := (hl.peek_eq hc (by simp) (by simp)).2 h
  refine ⟨c, ?_, hl, rfl, rfl⟩
  show EStateM.Result.ok ((c.peek k).keyword?.any ws.contains) c = _
  simp [hp, TokenKind.keyword?, hw]

theorem takes_anyKeywordAt_no {ws : List Keyword} (h : ∀ w ∈ ws, kindAhead dq l k ≠ .keyword w)
    (hc : ∀ p ∈ l.take k, p ≠ .closingAngle) :
    Takes dq (anyKeywordAt k ws) l false l := by
  intro c hl
  refine ⟨c, ?_, hl, rfl, rfl⟩
  show EStateM.Result.ok ((c.peek k).keyword?.any ws.contains) c = _
  congr 1
  cases hp : c.peek k with
  | keyword w =>
    have hw : w ∉ ws := fun hw => h w hw ((hl.peek_eq hc (by simp) (by simp)).1 hp)
    simp [TokenKind.keyword?, hw]
  | _ => simp [TokenKind.keyword?]

theorem takes_takeSymbol_yes (s : Symbol) (l : Layout)
    (hs : s ≠ .shiftRight ∧ s ≠ .greater) :
    Takes dq (takeSymbol s) (.symbol s :: l) true l :=
  (takes_symbolAt_yes rfl hs (by simp)).bind ((takes_advance (by simp) rfl).bind (.pure true l))

theorem takes_takeSymbol_no (h : kindAhead dq l 0 ≠ .symbol s)
    (hs : s ≠ .shiftRight ∧ s ≠ .greater) :
    Takes dq (takeSymbol s) l false l :=
  (takes_symbolAt_no h hs (by simp)).bind (.pure false l)

theorem takes_takeKeyword_yes (w : Keyword) (l : Layout) :
    Takes dq (takeKeyword w) (.keyword w :: l) true l :=
  (takes_keywordAt_yes rfl (by simp)).bind ((takes_advance (by simp) rfl).bind (.pure true l))

theorem takes_takeKeyword_no (h : kindAhead dq l 0 ≠ .keyword w) :
    Takes dq (takeKeyword w) l false l :=
  (takes_keywordAt_no h (by simp)).bind (.pure false l)

theorem takes_expectSymbol (s : Symbol) (l : Layout)
    (hs : s ≠ .shiftRight ∧ s ≠ .greater) :
    Takes dq (expectSymbol s) (.symbol s :: l) () l :=
  (takes_takeSymbol_yes s l hs).bind (.pure () l)

theorem takes_expectKeyword (w : Keyword) (l : Layout) :
    Takes dq (expectKeyword w) (.keyword w :: l) () l :=
  (takes_takeKeyword_yes w l).bind (.pure () l)

end Tests

/-- A closing angle is taken, be it a token of its own or the first half of one. -/
theorem takes_closingAngle (l : Layout) : Takes dq closingAngle (.closingAngle :: l) () l := by
  rintro ⟨behind, ts, ending, n⟩ ⟨hr, he⟩
  dsimp only at hr he
  cases hr with
  | @piece _ _ t _ ts hp h =>
    refine ⟨⟨t :: behind, ts, ending, n⟩, ?_, ⟨h, he⟩, rfl, rfl⟩
    have hk : (⟨behind, t :: ts, ending, n⟩ : Cursor).current.kind = .symbol .greater := hp
    rw [closingAngle_apply, Cursor.closeAngle_of_greater hk]
    rfl
  | @angles _ t l ts ht h =>
    refine ⟨⟨behind, t.secondHalf :: ts, ending, n⟩, ?_, ⟨.piece rfl h, he⟩, rfl, rfl⟩
    rw [closingAngle_apply, Cursor.closeAngle_of_shiftRight rfl ht]

/-! ## Arrangements -/

section Arrangements

variable {item : Parse α} {w : Keyword}

theorem takes_inParens (h : Takes dq item l a (.symbol .rightParen :: l₁)) :
    Takes dq (inParens item) (.symbol .leftParen :: l) a l₁ :=
  (takes_expectSymbol _ _ (by decide)).bind (h.bind ((takes_expectSymbol _ _ (by decide)).bind (.pure a l₁)))

theorem takes_afterKeyword_some (h : Takes dq item l a l₁) :
    Takes dq (afterKeyword w item) (.keyword w :: l) (some a) l₁ :=
  (takes_takeKeyword_yes w l).bind (h.bind (.pure (some a) l₁))

theorem takes_afterKeyword_none (h : kindAhead dq l 0 ≠ .keyword w) :
    Takes dq (afterKeyword w item) l none l :=
  (takes_takeKeyword_no h).bind (.pure none l)

theorem takes_afterComma_some (h : Takes dq item l a l₁) :
    Takes dq (afterComma item) (.symbol .comma :: l) (some a) l₁ :=
  (takes_takeSymbol_yes _ l (by decide)).bind (h.bind (.pure (some a) l₁))

theorem takes_afterComma_none (h : kindAhead dq l 0 ≠ .symbol .comma) :
    Takes dq (afterComma item) l none l :=
  (takes_takeSymbol_no h (by decide)).bind (.pure none l)

end Arrangements

/-! ## Repetition -/

/-- The rounds of a repetition that collects answers: each takes a token at least, and the last one
finds nothing. -/
inductive Gathers (dq : Bool) (step : Parse (Option α)) : Layout → List α → Layout → Prop where
  | done {l l'} (h : Takes dq step l none l') : Gathers dq step l [] l'
  | more {l a l₁ as l'} (h : Takes dq step l (some a) l₁) (hl : l₁.size < l.size)
      (hs : Gathers dq step l₁ as l') : Gathers dq step l (a :: as) l'

theorem takes_collect {step : Parse (Option α)} {as : List α} (h : Gathers dq step l as l₁) :
    Takes dq (collect step) l as l₁ := by
  have hw : ∀ allowance : List Token, l.size ≤ allowance.length →
      Takes dq (collectWithin step allowance) l as l₁ := by
    induction h with
    | done h =>
      intro allowance _
      cases allowance with
      | nil => exact h.bind (.pure [] _)
      | cons t allowance => exact h.bind (.pure [] _)
    | @more l a l₁ as l' h hl hs ih =>
      intro allowance ha
      cases allowance with
      | nil => exact absurd ha (by simp only [List.length_nil]; omega)
      | cons t allowance =>
        simp only [List.length_cons] at ha
        exact h.bind ((ih allowance (by omega)).bind (.pure (a :: as) _))
  exact .ahead fun c hc => hw c.ahead hc.size_le c hc

/-- The rounds of a repetition that goes on from its own answers; each takes a token at least. -/
inductive Climbs (dq : Bool) (step : α → Parse (Option α)) (a : α) (l : Layout) :
    α → Layout → Prop where
  | refl : Climbs dq step a l a l
  | next {b l₁ d l'} (hs : Climbs dq step a l b l₁) (h : Takes dq (step b) l₁ (some d) l')
      (hl : l'.size < l₁.size) : Climbs dq step a l d l'

/-- The allowance that the rounds leave is enough for what they leave ahead. -/
theorem Climbs.resume {step : α → Parse (Option α)} {b d : α} (hs : Climbs dq step a l b l₁)
    (allowance : List Token) (ha : l.size ≤ allowance.length) :
    ∃ left : List Token, l₁.size ≤ left.length ∧
      (Takes dq (repeatWithin step left b) l₁ d l₂ →
        Takes dq (repeatWithin step allowance a) l d l₂) := by
  induction hs with
  | refl => exact ⟨allowance, ha, id⟩
  | @next b l₁ c l' hs h hl ih =>
    obtain ⟨left, hleft, hi⟩ := ih
    cases left with
    | nil => exact absurd hleft (by simp only [List.length_nil]; omega)
    | cons t left =>
      simp only [List.length_cons] at hleft
      exact ⟨left, by omega, fun hd => hi (h.bind hd)⟩

theorem Climbs.takes {step : α → Parse (Option α)} {b : α} (hs : Climbs dq step a l b l₁)
    (h : Takes dq (step b) l₁ none l₂) : Takes dq (repeatFrom step a) l b l₂ := by
  refine .ahead fun c hc => ?_
  obtain ⟨left, -, hi⟩ := hs.resume c.ahead hc.size_le
  refine hi ?_ c hc
  cases left with
  | nil => exact h.bind (.pure b _)
  | cons t left => exact h.bind (.pure b _)

/-! ## Lists -/

theorem gathers_afterComma {p : Parse α} {f : α → Layout} {r : Layout}
    (hr : kindAhead dq r 0 ≠ .symbol .comma) :
    ∀ as : List α, (∀ a ∈ as, ∀ r', as.getLast? = some a ∧ r' = r ∨ (∃ l, r' = .symbol .comma :: l) →
        Takes dq p ((f a).solid ++ r') a r') →
      Gathers dq (afterComma p)
        ((as.flatMap fun a => .symbol .comma :: (f a).solid) ++ r) as r
  | [], _ => .done (takes_afterComma_none hr)
  | a :: as, h => by
    have ih := gathers_afterComma hr as fun b hb r' hr' => h b (by simp [hb]) r' <| by
      refine hr'.imp_left fun ⟨hl, hr'⟩ => ⟨?_, hr'⟩
      rw [List.getLast?_cons, hl, Option.getD_some]
    simp only [List.flatMap_cons, List.cons_append, List.append_assoc]
    refine .more (takes_afterComma_some (h a (by simp) _ ?_)) ?_ ih
    · cases as with
      | nil => exact .inl ⟨rfl, rfl⟩
      | cons b as => exact .inr ⟨_, rfl⟩
    · simp

theorem solid_sepBy (separator l : Layout) (ls : List Layout) :
    (Layout.sepBy separator (l :: ls)).solid =
      l.solid ++ ls.flatMap fun m => separator.solid ++ m.solid := by
  induction ls generalizing l with
  | nil => simp [Layout.sepBy]
  | cons m ls ih => simp [Layout.sepBy, ih m]

theorem solid_tightCommas (ls : List Layout) :
    (Layout.tightCommas ls).solid = (Layout.commas ls).solid := by
  cases ls with
  | nil => rfl
  | cons l ls => simp [Layout.tightCommas, Layout.commas, solid_sepBy]

/-- A list ends with its last item. -/
theorem commas_of_getLast? {f : α → Layout} {as : List α} {a : α} (h : as.getLast? = some a) :
    ∃ l, Layout.commas (as.map f) = l ++ f a := by
  induction as with
  | nil => simp at h
  | cons b as ih =>
    cases as with
    | nil =>
      obtain rfl : b = a := by simpa using h
      exact ⟨[], rfl⟩
    | cons c as =>
      obtain ⟨l, hl⟩ := ih (by simpa using h)
      refine ⟨f b ++ [.symbol .comma, .gap] ++ l, ?_⟩
      rw [List.append_assoc, ← hl]
      rfl

/-- One or more items with commas between them; only the last one stands in front of `r`. -/
theorem takes_commaList {p : Parse α} {f : α → Layout} {r : Layout} {as : List α}
    (hr : kindAhead dq r 0 ≠ .symbol .comma) (hne : as ≠ [])
    (h : ∀ a ∈ as, ∀ r', as.getLast? = some a ∧ r' = r ∨ (∃ l, r' = .symbol .comma :: l) →
      Takes dq p ((f a).solid ++ r') a r') :
    Takes dq (commaList p) ((Layout.commas (as.map f)).solid ++ r) as r := by
  cases as with
  | nil => contradiction
  | cons a as =>
    have hs := gathers_afterComma hr as fun b hb r' hr' => h b (by simp [hb]) r' <| by
      refine hr'.imp_left fun ⟨hl, hr'⟩ => ⟨?_, hr'⟩
      rw [List.getLast?_cons, hl, Option.getD_some]
    rw [List.map_cons, Layout.commas, solid_sepBy, List.flatMap_map, List.append_assoc]
    refine (h a (by simp) _ ?_).bind ((takes_collect hs).bind (.pure (a :: as) r))
    cases as with
    | nil => exact .inl ⟨rfl, rfl⟩
    | cons b as => exact .inr ⟨_, rfl⟩

end SqlTree
