import Mathlib
import SqlTree.Proofs.Text.Stretch
import SqlTree.Proofs.Lexing.Placed

/-! # Texts that differ in their blanks

* `tokenize_slice`: the text of a token is the slice of its span.
* `Respaced source ts cs`: the characters `cs` are the slices of some tokens of `source`, with
  blanks between each two.
* `tokenize_respaced`: such a text has tokens of the same kinds and texts.

A token is judged together with what follows it. A blank extends no token, so behind each slice the
scanner stops where it stops at the end of a text that is this slice alone.
-/

namespace SqlTree
set_option autoImplicit false

open Text

variable {dq : Bool}

/-! ## Words in front of blanks -/

theorem Symbol.isBlank_extenders (s : Symbol) : ∀ c ∈ s.extenders, isBlank c = false := by
  cases s <;> simp [Symbol.extenders] <;> decide

/-- A word that is a token stands in front of blanks and at the end of a text. -/
theorem stands_of_blank {word : String} {kind : TokenKind}
    (h : TokenKind.ofWord? dq word = some kind) {rest : List Char}
    (hr : ∀ c ∈ rest.head?, isBlank c = true) : Stands dq kind word.toList rest := by
  have hne : ∀ c ∈ rest.head?, ∀ d, isBlank d = false → c ≠ d := by
    rintro c hc d hd rfl
    rw [hr c hc] at hd
    cases hd
  have hother : (∀ s, kind ≠ .symbol s) → Stands dq kind word.toList rest := fun hk => by
    refine stands_of_ofWord? h hk fun c hc => ⟨isWordPart_of_isBlank (hr c hc), ?_, fun _ => ?_⟩
    · simp only [List.mem_cons, List.not_mem_nil, or_false, not_or]
      exact ⟨hne c hc _ (by decide), hne c hc _ (by decide), hne c hc _ (by decide)⟩
    · exact hne c hc _ (by decide)
  cases kind with
  | symbol s =>
    obtain ⟨hs, -⟩ := scanToken_of_ofWord? h
    rcases scanToken_symbol hs with ht | ⟨rfl, ht⟩
    · rw [ht]
      exact stands_symbol dq s fun c hc he => hne c hc c (s.isBlank_extenders c he) rfl
    · rw [ht]
      refine ⟨skip_of_head (by decide) (by simp) (by simp), ?_⟩
      have hp : ('<' : Char).isDigit = false ∧ isWordStart '<' = false := by decide
      simp [scanToken, scanPlain, scanSymbol, hp]
  | _ => exact hother (by simp)

theorem skip_blanks {blanks : List Char} (hb : ∀ c ∈ blanks, isBlank c = true) (cs : List Char) :
    (Trivia.skip (blanks ++ cs)).2 = (Trivia.skip cs).2 := by
  rw [skip_eq_behindTrivia, skip_eq_behindTrivia, List.dropWhile_append_of_pos hb]

/-! ## Slices -/

/-- The text of a token is what stands in its span. -/
theorem Lexer.Within.slice {text : String} {l after : Lexer} {t : Token}
    (hl : l.Within text.toList) (h : l.next = (.ok t, after)) : t.span.slice text = t.text := by
  obtain ⟨before, hcs, hp⟩ := hl
  have hskip := Trivia.skip_append l.rest
  have hscan := scanToken_append l.doubleQuotedStrings (Trivia.skip l.rest).2
  have hoffset : l.position.offset = byteLength before := by
    rw [hp, Position.offset_advance, Nat.zero_add]
  simp only [Lexer.next, Prod.mk.injEq] at h
  obtain ⟨ht, -⟩ := h
  generalize scanToken l.doubleQuotedStrings (Trivia.skip l.rest).2 = scanned at ht hscan
  obtain ⟨outcome, taken, rest⟩ := scanned
  cases outcome with
  | error e => simp at ht
  | ok kind =>
    obtain rfl := Except.ok.inj ht
    have htext : text.toList = (before ++ (Trivia.skip l.rest).1) ++ (taken ++ rest) := by
      rw [hcs, hscan, List.append_assoc, hskip]
    have hslice := slice_between htext
    rw [byteLength_append] at hslice
    simp only [Position.offset_advance, hoffset]
    exact hslice

theorem tokenize_slice {text : String} {lexed : Lexed} (h : tokenize text dq = .ok lexed) :
    ∀ t ∈ lexed.tokens, t.span.slice text = t.text := by
  refine Lexer.run_induction (P := fun l lexed => l.Within text.toList →
    ∀ t ∈ lexed.tokens, t.span.slice text = t.text) ?_ ?_ h (Lexer.within_ofText text dq)
  · intro l after t _ _ _
    simp
  · rintro l after t lexed hnext - ih hl
    have hafter : after = l.next.2 := by rw [hnext]
    exact List.forall_mem_cons.2 ⟨hl.slice hnext, ih (hafter ▸ hl.next)⟩

/-! ## Texts with other blanks -/

/-- A text with the slices that tokens have in `source`, in their order. Blanks may stand in front
of all of them and behind the last one, and between each two neighbours there is a blank at least. -/
inductive Respaced (source : String) : List Token → List Char → Prop where
  | nil {blanks : List Char} (hb : ∀ c ∈ blanks, isBlank c = true) : Respaced source [] blanks
  | cons {t : Token} {ts : List Token} {blanks cs : List Char}
      (hb : ∀ c ∈ blanks, isBlank c = true)
      (hsep : ts ≠ [] → ∃ c ∈ cs.head?, isBlank c = true) (h : Respaced source ts cs) :
      Respaced source (t :: ts) (blanks ++ ((t.span.slice source).toList ++ cs))

theorem Respaced.isBlank_head {source : String} {ts : List Token} {cs : List Char}
    (h : Respaced source ts cs) (hsep : ts ≠ [] → ∃ c ∈ cs.head?, isBlank c = true) :
    ∀ c ∈ cs.head?, isBlank c = true := by
  intro c hc
  cases h with
  | nil hb => exact hb c (List.mem_of_mem_head? hc)
  | cons _ _ _ =>
    obtain ⟨d, hd, hb⟩ := hsep (List.cons_ne_nil _ _)
    rw [Option.mem_unique hc hd]
    exact hb

/-- A lexer in front of slices with blanks between them answers tokens that look the same. -/
theorem Lexer.run_respaced {source : String} {ts : List Token} {cs : List Char}
    (h : Respaced source ts cs)
    (hts : ∀ t ∈ ts, t.Genuine dq ∧ t.span.slice source = t.text) :
    ∀ l : Lexer, l.doubleQuotedStrings = dq → l.rest = cs → ∃ lexed, l.run = .ok lexed ∧
      List.Forall₂ Token.Alike ts lexed.tokens := by
  induction h with
  | @nil blanks hb =>
    intro l _ hr
    have hnil : (Trivia.skip l.rest).2 = [] := by
      rw [hr, ← List.append_nil blanks, skip_blanks hb, skip_eq_behindTrivia]
      rfl
    obtain ⟨ending, hrun, -⟩ := Lexer.run_of_nil hnil
    exact ⟨_, hrun, .nil⟩
  | @cons t ts blanks cs hb hsep hrest ih =>
    intro l hq hr
    obtain ⟨⟨hgenuine, hslice⟩, hts⟩ := List.forall_mem_cons.1 hts
    have hstands : Stands dq t.kind t.text.toList cs :=
      stands_of_blank hgenuine (hrest.isBlank_head hsep)
    obtain ⟨u, after, hnext, hk, htext, har, haq⟩ := Lexer.next_of_stands (l := l) (hq ▸ hstands)
      (by rw [hr, hslice, skip_blanks hb])
    have hend : u.kind ≠ .endOfInput := by
      rw [hk]
      intro he
      obtain ⟨hs, hne⟩ := scanToken_of_ofWord? hgenuine
      exact scanToken_ne_endOfInput dq hne (by rw [hs, he])
    obtain ⟨lexed, hrun, hall⟩ := ih hts after (haq.trans hq) har
    refine ⟨⟨u :: lexed.tokens, lexed.ending⟩, ?_, .cons ⟨hk.symm, ?_⟩ hall⟩
    · rw [Lexer.run_of_token hnext hend, hrun]
      rfl
    · rw [htext, String.ofList_toList]

/-- A text that differs from another in its blanks alone has tokens that look the same. -/
theorem tokenize_respaced {source source' : String} {lexed : Lexed}
    (h : tokenize source dq = .ok lexed) (hr : Respaced source lexed.tokens source'.toList) :
    ∃ lexed', tokenize source' dq = .ok lexed' ∧
      (Cursor.ofLexed lexed).Alike (Cursor.ofLexed lexed') := by
  obtain ⟨lexed', hrun, hall⟩ := Lexer.run_respaced hr
    (fun t ht => ⟨(tokenize_genuine h).1 t ht, tokenize_slice h t ht⟩) (Lexer.ofText source' dq) rfl rfl
  have hend := Lexer.run_ending h
  have hend' := Lexer.run_ending hrun
  exact ⟨lexed', hrun, hall, ⟨hend.1.trans hend'.1.symm, hend.2.trans hend'.2.symm⟩, rfl⟩

end SqlTree
