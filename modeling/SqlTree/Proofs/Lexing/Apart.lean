import Mathlib
import SqlTree.Proofs.Lexing.Spacing

/-! # Layouts that keep their tokens apart

* `Layout.stops`: what stands at the head of a layout ends every word in front of it.
* `Layout.Fits dq l`: a spaced layout whose head ends every word.
* `Layout.Apart dq m`: in front of every layout that fits, `m` is spaced.

Layouts are apart as their arrangement makes them: words in front of gaps, commas and parentheses,
and what stands in parentheses or behind words.
-/

namespace SqlTree
set_option autoImplicit false

open Text

variable {dq : Bool}

/-! ## What ends a word -/

/-- Symbols that no token but a symbol can go on with. -/
def stopMarks : List Symbol :=
  [.comma, .leftParen, .rightParen, .leftBracket, .rightBracket, .doubleColon, .colon, .semicolon,
    .less]

/-- Whether every word ends in front of a piece. -/
def Piece.stops : Piece → Bool
  | .gap | .closingAngle => true
  | .symbol s => stopMarks.contains s
  | _ => false

namespace Layout

/-- Whether every word ends in front of a layout. -/
def stops : Layout → Bool
  | [] => true
  | p :: _ => p.stops

/-- What may be written behind any word. -/
structure Fits (dq : Bool) (l : Layout) : Prop where
  stops : l.stops = true
  spaced : l.Spaced dq none

/-- What is spaced in front of every layout that fits. -/
def Apart (dq : Bool) (m : Layout) : Prop :=
  ∀ l : Layout, l.Fits dq → Spaced dq none (m ++ l)

end Layout

/-- The first characters of pieces that end words. -/
def stopChars : List Char := [' ', '>', ',', '(', ')', '[', ']', ':', ';', '<']

theorem Piece.text_of_stops {p : Piece} (h : p.stops = true) :
    ∃ c cs, p.text.toList = c :: cs ∧ c ∈ stopChars ∧ (c = '>' → p = .closingAngle) := by
  cases p with
  | gap => exact ⟨' ', [], by simp [Piece.text], by simp [stopChars], by simp⟩
  | closingAngle => exact ⟨'>', [], by simp [Piece.text, Symbol.text], by simp [stopChars], by simp⟩
  | symbol s => cases s <;> simp [Piece.stops, stopMarks, Piece.text, Symbol.text, stopChars] at h ⊢
  | _ => simp [Piece.stops] at h

theorem firstChar?_of_stops {p : Piece} {l : Layout} (h : p.stops = true) :
    ∃ c, Layout.firstChar? (p :: l) = some c ∧ c ∈ stopChars ∧ (c = '>' → p = .closingAngle) := by
  obtain ⟨c, cs, ht, hc⟩ := Piece.text_of_stops h
  exact ⟨c, by rw [Layout.firstChar?, ht], hc⟩

theorem mem_stopChars {l : Layout} (h : l.stops = true) : ∀ c ∈ l.firstChar?, c ∈ stopChars := by
  cases l with
  | nil => simp [Layout.firstChar?]
  | cons p l =>
    obtain ⟨c, hc, hm, -⟩ := firstChar?_of_stops (l := l) h
    simpa [hc] using hm

theorem endsBefore_of_stops {kind : TokenKind} {l : Layout} (h : l.stops = true) :
    kind.EndsBefore l.firstChar? := by
  have hc : ∀ c ∈ stopChars, isWordPart c = false ∧ c ∉ ['\'', '"', '\x60'] ∧ c ≠ '.' := by
    simp [stopChars, isWordPart, isLetter, isNumeral]
  intro c hm
  obtain ⟨h1, h2, h3⟩ := hc c (mem_stopChars h c hm)
  exact ⟨h1, h2, fun _ => h3⟩

/-! ## Spaced layouts, piece by piece -/

namespace Layout

theorem spaced_cons {p : Piece} {l : Layout} (hp : p.EndsBefore dq l.firstChar?)
    (hl : l.Spaced dq none) : Spaced dq none (p :: l) := by
  unfold Spaced
  split
  · trivial
  · next he => cases he; exact hl
  · next he =>
    cases he
    rw [Option.or_none]
    exact ⟨hp, hl⟩

@[simp]
theorem spaced_gap {l : Layout} : Spaced dq none (.gap :: l) ↔ l.Spaced dq none :=
  ⟨Spaced.tail, spaced_cons trivial⟩

/-- A symbol with nothing that makes a longer one of it. -/
theorem spaced_symbol {s : Symbol} {l : Layout} (hs : s.extenders = []) :
    Spaced dq none (.symbol s :: l) ↔ l.Spaced dq none :=
  ⟨Spaced.tail, spaced_cons (by simp [Piece.EndsBefore, hs])⟩

theorem Fits.nil : Fits dq [] := ⟨rfl, trivial⟩

/-- A closing angle runs into nothing but another one. -/
theorem Fits.closingAngle {l : Layout} (h : l.Fits dq) : Fits dq (.closingAngle :: l) := by
  refine ⟨rfl, ?_⟩
  cases l with
  | nil => exact spaced_cons (by simp [Piece.EndsBefore, firstChar?]) trivial
  | cons p l =>
    by_cases hp : p = .closingAngle
    · subst hp
      exact h.spaced
    · obtain ⟨c, hc, hm, ha⟩ := firstChar?_of_stops (l := l) h.stops
      refine spaced_cons ?_ h.spaced
      rw [hc]
      rintro d ⟨rfl⟩ hx
      have hs : ∀ c ∈ stopChars, c ∈ Symbol.greater.extenders → c = '>' := by
        simp [stopChars, Symbol.extenders]
      exact hp (ha (hs c hm hx))

theorem Fits.keyword {l : Layout} (h : l.Fits dq) (k : Keyword) :
    Spaced dq none (.keyword k :: l) :=
  spaced_cons (endsBefore_of_stops h.stops) h.spaced

theorem Fits.question {l : Layout} (h : l.Spaced dq none) (n : Nat) :
    Spaced dq none (.question n :: l) :=
  spaced_cons trivial h

theorem Fits.word {w : String} {l : Layout} {kind : TokenKind} (h : l.Fits dq)
    (hw : TokenKind.ofWord? dq w = some kind) (hk : ∀ s, kind ≠ .symbol s) :
    Spaced dq none (.word w :: l) := by
  refine spaced_cons ⟨kind, hw, ?_⟩ h.spaced
  cases kind with
  | symbol s => exact absurd rfl (hk s)
  | _ => exact endsBefore_of_stops h.stops

end Layout

/-! ## Words behind symbols -/

/-- A keyword, or another token that is no symbol. -/
def Piece.IsWord (dq : Bool) : Piece → Prop
  | .keyword _ => True
  | .word w => ∃ kind, TokenKind.ofWord? dq w = some kind ∧ ∀ s, kind ≠ .symbol s
  | _ => False

theorem startsWord_of_ofWord? {w : String} {kind : TokenKind}
    (h : TokenKind.ofWord? dq w = some kind) (hk : ∀ s, kind ≠ .symbol s) :
    ∃ c cs, w.toList = c :: cs ∧ (c ∈ ['\'', '"', '\x60'] ∨ StartsPlain c) := by
  obtain ⟨hs, hne⟩ := scanToken_of_ofWord? h
  cases hw : w.toList with
  | nil => exact absurd hw hne
  | cons c cs =>
    rw [hw] at hs
    refine ⟨c, cs, rfl, ?_⟩
    by_cases hq : c ∈ ['\'', '"', '\x60']
    · exact .inl hq
    refine .inr ?_
    unfold scanToken at hs
    split at hs
    · contradiction
    · simp_all
    · simp_all
    · simp_all
    · next he => cases he; exact .inr (by simp [isWordStart, isLetter])
    · next he => cases he; exact .inr (by simp [isWordStart, isLetter])
    · simp at hs
    · next he =>
      cases he
      exact startsPlain_of_scanPlain hs hk

/-- A word begins with no character that goes on with a symbol. -/
theorem Piece.IsWord.not_mem_extenders {p : Piece} (h : p.IsWord dq) (s : Symbol) (l : Layout) :
    ∀ c ∈ Layout.firstChar? (p :: l), c ∉ s.extenders := by
  obtain ⟨c, cs, ht, hc⟩ :
      ∃ c cs, p.text.toList = c :: cs ∧ (c ∈ ['\'', '"', '\x60'] ∨ StartsPlain c) := by
    cases p with
    | keyword k => exact startsWord_of_ofWord? (ofWord?_keyword dq k) (by simp)
    | word w =>
      obtain ⟨kind, hw, hk⟩ := h
      exact startsWord_of_ofWord? hw hk
    | _ => exact h.elim
  have hx : ∀ d ∈ s.extenders, isWordPart d = false ∧ d ∉ ['\'', '"', '\x60'] := by
    cases s <;> simp [Symbol.extenders, isWordPart, isLetter, isNumeral]
  rw [Layout.firstChar?, ht]
  rintro d ⟨rfl⟩ hd
  obtain ⟨h1, h2⟩ := hx c hd
  rcases hc with hc | hc
  · exact h2 hc
  · exact hc.ne h1 rfl

namespace Layout

/-! ## Layouts that are apart -/

theorem stops_append {m l : Layout} (hm : m.stops = true) (hl : l.stops = true) :
    (m ++ l).stops = true := by
  cases m with
  | nil => exact hl
  | cons p m => exact hm

theorem Apart.fits {m l : Layout} (h : m.Apart dq) (hm : m.stops = true) (hl : l.Fits dq) :
    Fits dq (m ++ l) :=
  ⟨stops_append hm hl.stops, h l hl⟩

theorem Apart.spaced {m : Layout} (h : m.Apart dq) : m.Spaced dq none := by
  simpa using h [] .nil

@[simp]
theorem apart_nil : Apart dq [] :=
  fun _ hl => hl.spaced

theorem Apart.append {m₁ m₂ : Layout} (h₁ : m₁.Apart dq) (h₂ : m₂.Apart dq)
    (hs : m₂.stops = true) : Apart dq (m₁ ++ m₂) := by
  intro l hl
  rw [List.append_assoc]
  exact h₁ _ (h₂.fits hs hl)

@[simp]
theorem apart_gap {m : Layout} : Apart dq (.gap :: m) ↔ m.Apart dq :=
  forall_congr' fun _ => imp_congr_right fun _ => spaced_gap

theorem Apart.gap {m : Layout} (h : m.Apart dq) : Apart dq (.gap :: m) :=
  apart_gap.2 h

theorem Apart.mark {s : Symbol} {m : Layout} (h : m.Apart dq) (hx : s.extenders = []) :
    Apart dq (.symbol s :: m) :=
  fun l hl => (spaced_symbol hx).2 (h l hl)

theorem Apart.keyword {m : Layout} (h : m.Apart dq) (k : Keyword) (hs : m.stops = true) :
    Apart dq (.keyword k :: m) :=
  fun _ hl => (h.fits hs hl).keyword k

theorem Apart.closingAngle {m : Layout} (h : m.Apart dq) (hs : m.stops = true) :
    Apart dq (.closingAngle :: m) :=
  fun _ hl => (h.fits hs hl).closingAngle.spaced

theorem Apart.word {w : String} {m : Layout} {kind : TokenKind} (h : m.Apart dq)
    (hw : TokenKind.ofWord? dq w = some kind) (hk : ∀ s, kind ≠ .symbol s)
    (hs : m.stops = true) : Apart dq (.word w :: m) :=
  fun _ hl => (h.fits hs hl).word hw hk

/-- A symbol in front of a word. -/
theorem Apart.symbol_word {s : Symbol} {m : Layout} (h : m.Apart dq)
    (hw : ∃ p l, m = p :: l ∧ p.IsWord dq) : Apart dq (.symbol s :: m) := by
  obtain ⟨p, m, rfl, hp⟩ := hw
  exact fun l hl => spaced_cons (hp.not_mem_extenders s _) (h l hl)

theorem Apart.keywords {m : Layout} (h : m.Apart dq) (hs : m.stops = true) :
    ∀ ks : List Keyword, Apart dq (Layout.keywords ks ++ m)
  | [] => h
  | [k] => h.keyword k hs
  | k :: k' :: ks => (Apart.keywords h hs (k' :: ks)).gap.keyword k rfl

theorem Apart.onlyIf {m : Layout} (h : m.Apart dq) (condition : Bool) :
    Apart dq (onlyIf condition m) := by
  cases condition with
  | true => exact h
  | false => exact apart_nil

theorem stops_onlyIf {m : Layout} (h : m.stops = true) (condition : Bool) :
    (onlyIf condition m).stops = true := by
  cases condition with
  | true => exact h
  | false => rfl

/-- Behind words that a gap follows, or without them, a layout stays apart. -/
theorem Apart.behindIf {m lead : Layout} (condition : Bool) (h : m.Apart dq)
    (hl : m.Apart dq → Apart dq (lead ++ m)) : Apart dq (Layout.onlyIf condition lead ++ m) := by
  cases condition with
  | true => exact hl h
  | false => exact h

theorem Apart.wordIf {m : Layout} (h : m.Apart dq) (condition : Bool) (k : Keyword) :
    Apart dq (Layout.onlyIf condition [.keyword k, .gap] ++ m) :=
  h.behindIf condition fun h => h.gap.keyword k rfl

theorem Apart.parens {m : Layout} (h : m.Apart dq) : Apart dq (parens m) :=
  (h.append (apart_nil.mark rfl) rfl).mark rfl

theorem Apart.parensIf {m : Layout} (h : m.Apart dq) (wrap : Bool) :
    Apart dq (parensIf wrap m) := by
  cases wrap with
  | true => exact h.parens
  | false => exact h

theorem apart_sepBy {separator : Layout} (hs : separator.stops = true)
    (hm : ∀ {m : Layout}, m.Apart dq → Apart dq (separator ++ m)) (hne : separator ≠ []) :
    ∀ ls : List Layout, (∀ l ∈ ls, l.Apart dq) → Apart dq (sepBy separator ls)
  | [], _ => apart_nil
  | [l], h => h l (by simp)
  | l :: m :: ls, h => by
    have ih := apart_sepBy hs hm hne (m :: ls) fun k hk => h k (by simp [hk])
    rw [sepBy, List.append_assoc]
    refine (h l (by simp)).append (hm ih) ?_
    cases separator with
    | nil => contradiction
    | cons p separator => exact hs
    · simp

theorem sepBy_cons (separator l : Layout) (ls : List Layout) :
    ∃ m, sepBy separator (l :: ls) = l ++ m := by
  cases ls with
  | nil => exact ⟨[], (List.append_nil l).symm⟩
  | cons k ls => exact ⟨_, List.append_assoc ..⟩

theorem Apart.commas {ls : List Layout} (h : ∀ l ∈ ls, l.Apart dq) : Apart dq (commas ls) :=
  apart_sepBy rfl (fun h => h.gap.mark rfl) (by simp) ls h

theorem Apart.tightCommas {ls : List Layout} (h : ∀ l ∈ ls, l.Apart dq) :
    Apart dq (tightCommas ls) :=
  apart_sepBy rfl (fun h => h.mark rfl) (by simp) ls h

/-! ## What may be written behind anything -/

/-- A layout that is apart and whose head ends every word. -/
structure Trails (dq : Bool) (m : Layout) : Prop where
  apart : m.Apart dq
  stops : m.stops = true

theorem Apart.trails {m : Layout} (h : m.Apart dq) : Trails dq (.gap :: m) :=
  ⟨h.gap, rfl⟩

theorem Apart.then {m₁ m₂ : Layout} (h₁ : m₁.Apart dq) (h₂ : m₂.Trails dq) : Apart dq (m₁ ++ m₂) :=
  h₁.append h₂.apart h₂.stops

theorem Trails.nil : Trails dq [] := ⟨apart_nil, rfl⟩

theorem Trails.append {m₁ m₂ : Layout} (h₁ : m₁.Trails dq) (h₂ : m₂.Trails dq) :
    Trails dq (m₁ ++ m₂) :=
  ⟨h₁.apart.then h₂, stops_append h₁.stops h₂.stops⟩

theorem Trails.onlyIf {m : Layout} (h : m.Trails dq) (condition : Bool) :
    Trails dq (onlyIf condition m) :=
  ⟨h.apart.onlyIf condition, stops_onlyIf h.stops condition⟩

theorem Trails.keyword {m : Layout} (h : m.Trails dq) (k : Keyword) : Apart dq (.keyword k :: m) :=
  h.apart.keyword k h.stops

end Layout

/-- The tokens of a layout that is apart. -/
theorem tokenize_of_apart {l : Layout} (h : l.Apart dq) (hn : l.Numbered 0) :
    ∃ lexed, tokenize l.chars dq = .ok lexed ∧ Reads dq 0 l.solid lexed.tokens ∧
      lexed.ending.kind = .endOfInput :=
  tokenize_of_spaced h.spaced hn

end SqlTree
