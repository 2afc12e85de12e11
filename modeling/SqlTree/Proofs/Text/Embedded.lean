import Mathlib
import SqlTree.Proofs.Lexing.Lexeme
import SqlTree.Proofs.Parsing.Statement
import SqlTree.Proofs.Reading.Finish
import SqlTree.Proofs.Text.Whole

/-! # Queries at the end of a text

A query that is read back from its own text is read back from the same text behind other words. What
is written in it need not be known in pieces: its own tokens stand for themselves.

* `Lexer.run_alike`: tokens depend on what is behind blanks and comments alone.
* `spelled tokens`: the layout of tokens that stand for themselves.
* `tokenize_front`: the tokens of a text that is written behind a layout.
* `Query.finishes`: a query that is read back from its own text is read back at the end of a text.
-/

namespace SqlTree
set_option autoImplicit false

open Layout Parse

variable {dq : Bool}

/-! ## The same text at another place -/

/-- One token depends on what is behind blanks and comments alone. -/
theorem Lexer.next_alike {l m after : Lexer} {t : Token}
    (hq : l.doubleQuotedStrings = m.doubleQuotedStrings)
    (hr : (Trivia.skip l.rest).2 = (Trivia.skip m.rest).2) (h : m.next = (.ok t, after)) :
    ∃ t' after', l.next = (.ok t', after') ∧ t'.Alike t ∧
      after'.doubleQuotedStrings = after.doubleQuotedStrings ∧ after'.rest = after.rest := by
  simp only [Lexer.next, Prod.mk.injEq] at h ⊢
  obtain ⟨ht, rfl⟩ := h
  rw [hq, hr]
  cases ho : (scanToken m.doubleQuotedStrings (Trivia.skip m.rest).2).outcome with
  | error e => simp [ho] at ht
  | ok kind =>
    simp only [ho, Except.ok.injEq] at ht
    exact ⟨_, _, ⟨rfl, rfl⟩, by rw [← ht]; exact ⟨rfl, rfl⟩, rfl, rfl⟩

/-- All tokens depend on what is behind blanks and comments alone. -/
theorem Lexer.run_alike {l m : Lexer} {lexed : Lexed} (h : m.run = .ok lexed)
    (hq : l.doubleQuotedStrings = m.doubleQuotedStrings)
    (hr : (Trivia.skip l.rest).2 = (Trivia.skip m.rest).2) :
    ∃ lexed', l.run = .ok lexed' ∧ List.Forall₂ Token.Alike lexed'.tokens lexed.tokens ∧
      lexed'.ending.Alike lexed.ending := by
  refine Lexer.run_induction (P := fun m lexed => ∀ l : Lexer,
    l.doubleQuotedStrings = m.doubleQuotedStrings →
      (Trivia.skip l.rest).2 = (Trivia.skip m.rest).2 →
        ∃ lexed', l.run = .ok lexed' ∧ List.Forall₂ Token.Alike lexed'.tokens lexed.tokens ∧
          lexed'.ending.Alike lexed.ending) ?_ ?_ h l hq hr
  · intro m after t hnext hk l hq hr
    obtain ⟨t', after', hl, ha, -, -⟩ := Lexer.next_alike hq hr hnext
    exact ⟨_, Lexer.run_of_end hl (ha.1.trans hk), .nil, ha⟩
  · intro m after t lexed hnext hk ih l hq hr
    obtain ⟨t', after', hl, ha, hq', hr'⟩ := Lexer.next_alike hq hr hnext
    obtain ⟨lexed', h1, h2, h3⟩ := ih after' hq' (by rw [hr'])
    refine ⟨⟨t' :: lexed'.tokens, lexed'.ending⟩, ?_, .cons ha h2, h3⟩
    rw [Lexer.run_of_token hl (by rw [ha.1]; exact hk), h1]
    rfl

/-- The end of a text is no text. -/
theorem Lexer.run_ending {l : Lexer} {lexed : Lexed} (h : l.run = .ok lexed) :
    lexed.ending.Alike ⟨.endOfInput, ⟨0, 0⟩, ""⟩ := by
  refine Lexer.run_induction (P := fun _ lexed => lexed.ending.Alike ⟨.endOfInput, ⟨0, 0⟩, ""⟩)
    ?_ (fun _ _ h => h) h
  intro l after t hnext hk
  simp only [Lexer.next, Prod.mk.injEq] at hnext
  cases ho : (scanToken l.doubleQuotedStrings (Trivia.skip l.rest).2).outcome with
  | error e => simp [ho] at hnext
  | ok kind =>
    simp only [ho, Except.ok.injEq] at hnext
    obtain ⟨rfl, -⟩ := hnext
    -- The end is answered only where nothing is left.
    have hnil : (Trivia.skip l.rest).2 = [] := by
      by_contra hne
      dsimp only at hk
      exact scanToken_ne_endOfInput l.doubleQuotedStrings hne (by rw [ho, hk])
    exact ⟨hk, by rw [hnil, scanToken]⟩

/-! ## Tokens that stand for themselves -/

/-- The layout of tokens that stand for themselves. -/
def spelled (tokens : List Token) : Layout :=
  tokens.map fun t => .word t.text

theorem spelled_numbers (tokens : List Token) : (spelled tokens).numbers = [] := by
  simp [spelled, Layout.numbers, List.filterMap_map, Function.comp_def, Piece.number?]

theorem spelled_size (tokens : List Token) : (spelled tokens).size = tokens.length := by
  simp [spelled, Layout.size, List.countP_map, Function.comp_def]

/-- Tokens stand for themselves. -/
theorem reads_spelled {n : Nat} {tokens tokens' : List Token}
    (ha : List.Forall₂ Token.Alike tokens' tokens) (hg : ∀ t ∈ tokens, t.Genuine dq) :
    Reads dq n (spelled tokens) tokens' := by
  induction ha with
  | nil => exact .nil
  | @cons t' t tokens' tokens ht _ ih =>
    have hword : TokenKind.ofWord? dq t.text = some t'.kind := ht.1 ▸ hg t (by simp)
    exact .piece ⟨hword, ht.2⟩ (ih fun u hu => hg u (by simp [hu]))

/-- What stands for tokens looks like them. -/
theorem alike_of_reads {n : Nat} {tokens tokens' : List Token}
    (h : Reads dq n (spelled tokens) tokens') (hg : ∀ t ∈ tokens, t.Genuine dq) :
    List.Forall₂ Token.Alike tokens tokens' := by
  induction tokens generalizing n tokens' with
  | nil =>
    cases h
    exact .nil
  | cons t tokens ih =>
    cases h with
    | @piece _ _ t' _ tokens' hp h =>
      have hkind : some t'.kind = some t.kind := hp.1.symm.trans (hg t (by simp))
      exact .cons ⟨(Option.some.inj hkind).symm, hp.2.symm⟩ (ih h fun u hu => hg u (by simp [hu]))

/-! ## The tokens of a text behind other words -/

theorem numbers_solid (l : Layout) : l.solid.numbers = l.numbers := by
  rw [Layout.numbers, Layout.solid, List.filterMap_filter]
  refine List.filterMap_congr fun p _ => ?_
  cases p <;> rfl

theorem numbers_append (l m : Layout) : (l ++ m).numbers = l.numbers ++ m.numbers :=
  List.filterMap_append

/-- Tokens for pieces without question marks, with other tokens behind them. -/
theorem reads_append {n : Nat} {l m : Layout} {ts us : List Token} (h : Reads dq n l ts)
    (hl : l.numbers = []) (hm : Reads dq n m us) : Reads dq n (l ++ m) (ts ++ us) := by
  induction h with
  | nil => exact hm
  | @piece n p t l ts hp h ih =>
    have hnum : p.number? = none ∧ l.numbers = [] := by
      cases hp : p.number? <;> simp [Layout.numbers, hp] at hl ⊢
      exact hl
    have hq : p.questions = 0 := by
      cases p <;> first | rfl | simp [Piece.number?] at hnum
    rw [hq] at ih
    exact .piece hp (hq ▸ ih hnum.2 hm)
  | angles hk h ih => exact .angles hk (ih hl hm)

/-- A layout that ends with a gap is spaced in front of any text. -/
theorem spaced_before {next : Option Char} :
    ∀ {l : Layout}, Spaced dq none (l ++ [Piece.gap]) → Spaced dq next (l ++ [Piece.gap])
  | [], _ => ⟨trivial, trivial⟩
  | p :: l, h => by
    have ih : Spaced dq next (l ++ [Piece.gap]) := spaced_before h.tail
    obtain ⟨c, hc⟩ : ∃ c, firstChar? (l ++ [Piece.gap]) = some c := by
      rw [firstChar?_append]
      cases firstChar? l <;> exact ⟨_, rfl⟩
    rw [List.cons_append] at h ⊢
    unfold Spaced
    split
    · trivial
    · next he =>
      obtain ⟨rfl, hl⟩ := List.cons.inj he
      rwa [← hl]
    · next hne he =>
      obtain ⟨rfl, rfl⟩ := List.cons.inj he
      have hp := h.head (by
        rintro ⟨rfl, hl⟩
        obtain ⟨q, l', hl'⟩ : ∃ q l', l ++ [Piece.gap] = q :: l' := by
          cases l <;> exact ⟨_, _, rfl⟩
        rw [hl', List.head?_cons, Option.some.injEq] at hl
        exact hne l' rfl (hl ▸ hl'))
      rw [hc] at hp ⊢
      exact ⟨hp, ih⟩

/-- The tokens of a text that is written behind a layout with a gap at its end. -/
theorem tokenize_front {l : Layout} {text : String} {lexed : Lexed}
    (hs : Spaced dq none (l ++ [Piece.gap])) (hn : l.numbers = [])
    (ht : tokenize text dq = .ok lexed) :
    ∃ whole, tokenize (Layout.chars (l ++ [Piece.gap]) ++ text) dq = .ok whole ∧
      (Cursor.ofLexed whole).Before dq (l.solid ++ spelled lexed.tokens) 0 := by
  have hfront : l.solid = Layout.solid (l ++ [Piece.gap]) := by simp [Layout.solid]
  have hnumbers : Layout.numbers (l ++ [Piece.gap]) = [] := by rw [numbers_append, hn]; rfl
  have hnumbered : Numbered 0 (l ++ [Piece.gap]) := by rw [Numbered, hnumbers]; rfl
  let lexer := Lexer.ofText (Layout.chars (l ++ [Piece.gap]) ++ text) dq
  have htail : lexer.rest = (Layout.chars (l ++ [Piece.gap])).toList ++ text.toList :=
    String.toList_append
  obtain ⟨tokens, after, h1, h2, h3, h4⟩ : ∃ tokens after, _ :=
    run_of_spaced_append (l ++ [Piece.gap]) (spaced_before hs) hnumbered rfl
      (congrArg (fun cs => (Trivia.skip cs).2) htail)
  obtain ⟨lexed', h5, h6, h7⟩ := Lexer.run_alike (l := after) ht h3 h4
  obtain ⟨hg, -⟩ := tokenize_genuine ht
  have hend := Lexer.run_ending ht
  rw [← hfront] at h2
  refine ⟨⟨tokens ++ lexed'.tokens, lexed'.ending⟩, ?_, ⟨⟨?_, ?_⟩, ?_, ?_⟩⟩
  · rw [tokenize, h1, h5]
    rfl
  · exact reads_append h2 (by rw [numbers_solid, hn]) (reads_spelled h6 hg)
  · exact h7.1.trans hend.1
  · rw [numbers_append, numbers_solid, hn, spelled_numbers]
    rfl
  · exact h7.2.trans hend.2

/-! ## A query behind other words -/

/-- The two answers of a reader behind another one. -/
theorem exists_of_bind {α β : Type} {p : Parse α} {f : α → Parse β} {b : β} {c c' : Cursor}
    (h : (p >>= f) c = .ok b c') : ∃ a c₁, p c = .ok a c₁ ∧ f a c₁ = .ok b c' := by
  rw [bind_apply] at h
  cases hr : p c with
  | error e d =>
    rw [hr] at h
    cases h
  | ok a d =>
    rw [hr] at h
    exact ⟨a, d, rfl, h⟩

/-- Where a reader answers a statement that is a query, `p'` answers the query. -/
def AnswersQuery (p : Parse Statement) (p' : Parse Query) (c : Cursor) : Prop :=
  ∀ q c', p c = .ok (.query q) c' → p' c = .ok q c'

theorem answersQuery_self {p : Parse Query} {c : Cursor} :
    AnswersQuery (p >>= fun q => pure (.query q)) p c := by
  intro q c' h
  obtain ⟨q', d, hr, hq⟩ := exists_of_bind h
  cases hq
  exact hr

theorem answersQuery_of_yields {p : Parse Statement} {p' : Parse Query} {c : Cursor}
    (h : Yields p fun s => s.query? = none) : AnswersQuery p p' c :=
  fun q c' hr => by cases h c _ c' hr

/-- The query that a statement is read as. -/
theorem answersQuery_statementBody {o : Options} {source : String} {c : Cursor} :
    AnswersQuery (statementBody o source) (productions o.dialect c.ahead).query c := by
  have hskip : Yields (Parse.unsupported o source c.position) fun s => s.query? = none :=
    yields_unsupported c.position _ fun _ => rfl
  unfold AnswersQuery
  rw [statementBody_apply]
  unfold statementFrom
  split
  · exact answersQuery_self
  · exact answersQuery_self
  · exact answersQuery_self
  · exact answersQuery_self
  · exact answersQuery_of_yields (.next fun _ => .pure rfl)
  · exact answersQuery_of_yields (.next fun _ => .pure rfl)
  · exact answersQuery_of_yields (.next fun _ => .pure rfl)
  · exact answersQuery_of_yields (.next fun _ => .ite (.next fun _ => .pure rfl) hskip)
  · exact answersQuery_of_yields (.next fun _ => .ite (.next fun _ => .pure rfl) hskip)
  · refine answersQuery_of_yields (.next fun request => ?_)
    cases request with
    | none => exact hskip
    | some r => exact .pure rfl
  · exact answersQuery_of_yields hskip
  · exact answersQuery_of_yields hskip
  · exact answersQuery_of_yields (.fail _)

/-- What is left where nothing but semicolons is left. -/
theorem Cursor.Done.alike {c c' : Cursor} (h : c.Done) (ha : c.Alike c') : c'.Done := by
  obtain ⟨c₁, c₂, h₁, h₂⟩ := h
  have hsemicolon : Agrees semicolon semicolon fun o => ∀ u ∈ o, True :=
    (agrees_takeSymbol _).next fun _ => .ite (.pure (by simp)) (.pure (by simp))
  have hsemicolons : Agrees semicolons semicolons fun _ => True :=
    hsemicolon.collect.bind fun _ _ => .pure trivial
  have hatEnd : Agrees atEnd atEnd fun _ => True := .token fun _ _ _ _ => .pure trivial
  obtain ⟨-, d₁, h₁', ha₁⟩ := hsemicolons c c' ha _ _ h₁
  obtain ⟨-, d₂, h₂', -⟩ := hatEnd c₁ d₁ ha₁ _ _ h₂
  exact ⟨d₁, d₂, h₁', h₂'⟩

/-- A query that is read from a text is what the reader of queries answers at its tokens. -/
theorem query_of_parseStatement {o : Options} {q : Query} {text : String}
    (h : parseStatement text o = .ok (.query q)) :
    ∃ lexed c, tokenize text o.dialect.dq = .ok lexed ∧
      (productions o.dialect lexed.tokens).query (Cursor.ofLexed lexed) = .ok q c ∧ c.Done := by
  obtain ⟨lexed, c, ht, hc⟩ : ∃ lexed c, tokenize text o.dialect.dq = .ok lexed ∧
      singleStatement o text (Cursor.ofLexed lexed) = .ok (.query q) c := by
    cases ht : tokenize text o.dialect.dq with
    | error e =>
      rw [parseStatement_of_lexError ht] at h
      cases h
    | ok lexed =>
      obtain ⟨c, hc⟩ := (parseStatement_iff ht _).1 h
      exact ⟨lexed, c, rfl, hc⟩
  obtain ⟨atStart, c₀, h₀, hc⟩ := exists_of_bind hc
  obtain ⟨hstart, rfl⟩ := EStateM.Result.ok.inj h₀
  obtain rfl : atStart = false := by
    cases atStart with
    | true => cases hc
    | false => rfl
  obtain ⟨s, c₁, h₁, hc⟩ := exists_of_bind hc
  obtain ⟨_, c₂, h₂, hc⟩ := exists_of_bind hc
  obtain ⟨done, c₃, h₃, hc⟩ := exists_of_bind hc
  obtain rfl : done = true := by
    cases done with
    | true => rfl
    | false => cases hc
  cases hc
  exact ⟨lexed, c₁, ht, answersQuery_statementBody _ _ h₁, c₂, c, h₂, h₃⟩

/-- A query that is read from a text is read from its tokens at the end of another text. -/
theorem finishes_query {o : Options} {q : Query} {text : String}
    (h : parseStatement text o = .ok (.query q)) :
    ∃ lexed, tokenize text o.dialect.dq = .ok lexed ∧
      ∀ ahead : List Token, lexed.tokens.length ≤ ahead.length →
        Finishes o.dialect.dq (productions o.dialect ahead).query (spelled lexed.tokens) 0 q := by
  obtain ⟨lexed, c₁, ht, hread, hdone⟩ := query_of_parseStatement h
  obtain ⟨hg, -⟩ := tokenize_genuine ht
  have hend := Lexer.run_ending ht
  refine ⟨lexed, ht, fun ahead ha d hd => ?_⟩
  have halike : (Cursor.ofLexed lexed).Alike d := by
    refine ⟨alike_of_reads hd.reads hg, ?_, ?_⟩
    · exact ⟨hend.1.trans hd.ending.symm, hend.2.trans hd.ending_text.symm⟩
    · have hn := hd.count
      rw [spelled_numbers] at hn
      exact (by simpa using hn.symm : 0 = d.placeholders)
  have hagree := (agree_productions o.dialect _ ahead ha).query _ _ halike q c₁ hread
  obtain ⟨-, d', hd', halike'⟩ := hagree
  exact ⟨d', hd', hdone.alike halike'⟩

/-! ## How a query begins -/

theorem SetExpr.layout_begins {b : SetExpr} (h : b.opens = true) :
    ∃ l, b.layout = .keyword .SELECT :: .gap :: l := by
  match b with
  | .select s =>
    rw [SetExpr.layout, Select.layout_eq]
    exact ⟨_, rfl⟩
  | .combine op quantifier left right =>
    obtain ⟨l, hl⟩ := SetExpr.layout_begins (b := left) h
    simp only [SetExpr.layout, hl]
    exact ⟨_, rfl⟩
  | .parens q => simp [SetExpr.opens] at h
  | .values rows => simp [SetExpr.opens] at h

/-- A query that begins with a word has a gap behind it. -/
theorem Query.layout_begins {q : Query} (h : q.opens = true) :
    ∃ k l, q.layout = .keyword k :: .gap :: l ∧ (k = .SELECT ∨ k = .WITH) := by
  rw [Query.layout_eq]
  obtain ⟨ctes, body, orderBy, limitBy, limit, offset⟩ := q
  cases ctes with
  | some w =>
    obtain ⟨recursive, ctes⟩ := w
    exact ⟨.WITH, _, rfl, .inr rfl⟩
  | none =>
    obtain ⟨l, hl⟩ := SetExpr.layout_begins (b := body) h
    simp only [Layout.optional_none, List.nil_append, hl]
    exact ⟨.SELECT, _, rfl, .inl rfl⟩

/-- The first token of a query that begins with a word. -/
theorem Query.kindAhead_spelled {q : Query} (h : q.opens = true) {text : String} {lexed : Lexed}
    (htext : q.text = .ok text) (ht : tokenize text dq = .ok lexed) :
    kindAhead dq (spelled lexed.tokens) 0 = .keyword .SELECT ∨
      kindAhead dq (spelled lexed.tokens) 0 = .keyword .WITH := by
  obtain ⟨k, l, hl, hk⟩ := Query.layout_begins h
  obtain rfl : text = q.layout.chars := by
    unfold Query.text Layout.text at htext
    split at htext
    · cases htext
    · exact (Except.ok.inj htext).symm
  have hchars : q.layout.chars.toList =
      (Layout.chars [.keyword k, .gap]).toList ++ (Layout.chars l).toList := by
    rw [hl]
    simp [Layout.chars_toList]
  have hspaced : Spaced dq (Layout.chars l).toList.head? [.keyword k, .gap] := by
    refine ⟨?_, trivial, trivial⟩
    have hstops : Layout.stops [.gap] = true := rfl
    exact (endsBefore_of_stops hstops : (TokenKind.keyword k).EndsBefore _)
  have hnumbered : Numbered 0 [.keyword k, .gap] := rfl
  let lexer := Lexer.ofText q.layout.chars dq
  have hdq : lexer.doubleQuotedStrings = dq := rfl
  obtain ⟨tokens, after, h1, h2, -⟩ : ∃ tokens after, _ :=
    run_of_spaced_append [.keyword k, .gap] hspaced hnumbered hdq
      (congrArg (fun cs => (Trivia.skip cs).2) hchars)
  rw [tokenize, h1] at ht
  cases hr : after.run with
  | error e => simp [hr, Except.map] at ht
  | ok r =>
    obtain rfl : ⟨tokens ++ r.tokens, r.ending⟩ = lexed := by simpa [hr, Except.map] using ht
    cases h2 with
    | @piece _ _ t _ ts hp _ =>
      have hrun : lexer.run = .ok ⟨t :: ts ++ r.tokens, r.ending⟩ := by rw [h1, hr]; rfl
      have hg := (Lexer.run_genuine hrun).1 t (by simp)
      have hkind : kindAhead dq (spelled (t :: ts ++ r.tokens)) 0 = .keyword k :=
        (Piece.kind_word hg).trans hp
      rcases hk with rfl | rfl
      · exact .inl hkind
      · exact .inr hkind

end SqlTree
