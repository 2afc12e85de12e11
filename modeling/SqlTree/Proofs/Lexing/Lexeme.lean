import Mathlib
import SqlTree.Name.Basic
import SqlTree.Proofs.Lexing.Cut
import SqlTree.Proofs.Lexing.Spacing

/-! # The tokens of a text by themselves

* `Token.Genuine dq t`: the text of a token is, by itself, a token of its kind.
* `looseCount`: how many of some characters can get lost when a word is read.
* `tokenize_genuine`, `tokenize_looseCount`: the tokens of a text are genuine, and together they
  hold no more loose characters than the text.
* `digits_of_ofWord?`: a word that is a number is its digits.
* `text_of_ofWord?`: a word that is a name is the written form of this name. `looseCount_name`: with
  its quotes it has more loose characters than without.
* `looseCount_keyword`, `looseCount_string`: a keyword has as many of them as its spelling, and the
  content of a string no more than the string.
-/

namespace SqlTree
set_option autoImplicit false

open Text

variable {dq : Bool}

/-! ## The tokens of a text -/

/-- The text of a token is, by itself, a token of its kind. -/
def Token.Genuine (dq : Bool) (t : Token) : Prop :=
  TokenKind.ofWord? dq t.text = some t.kind

/-- Whether a character can get lost when a word is read: a quote around a name, or a letter of the
word `PRECISION`. Of its letters P is the one that few keywords have. -/
def isLoose (c : Char) : Bool :=
  c.toUpper == '"' || c.toUpper == '\x60' || c.toUpper == 'P'

/-- The number of characters that can get lost. -/
def looseCount (cs : List Char) : Nat :=
  cs.countP isLoose

@[simp]
theorem looseCount_append (cs ds : List Char) :
    looseCount (cs ++ ds) = looseCount cs + looseCount ds :=
  List.countP_append

@[simp]
theorem looseCount_nil : looseCount [] = 0 := rfl

/-- The loose characters in the texts of tokens. -/
def looseOf (ts : List Token) : Nat :=
  (ts.map fun t => looseCount t.text.toList).sum

@[simp]
theorem looseOf_cons (t : Token) (ts : List Token) :
    looseOf (t :: ts) = looseCount t.text.toList + looseOf ts := by
  simp [looseOf]

theorem Lexer.next_genuine {l after : Lexer} {t : Token} (h : l.next = (.ok t, after))
    (hk : t.kind ≠ .endOfInput) : t.Genuine l.doubleQuotedStrings ∧
      after.doubleQuotedStrings = l.doubleQuotedStrings ∧
      looseCount t.text.toList + looseCount after.rest ≤ looseCount l.rest := by
  have hskip := congrArg looseCount (Trivia.skip_append l.rest)
  have hscan := congrArg looseCount
    (scanToken_append l.doubleQuotedStrings (Trivia.skip l.rest).2)
  rw [looseCount_append] at hskip hscan
  simp only [Lexer.next, Prod.mk.injEq] at h
  obtain ⟨ht, ha⟩ := h
  generalize hs : scanToken l.doubleQuotedStrings (Trivia.skip l.rest).2 = scanned at ht ha hscan
  obtain ⟨outcome, taken, rest⟩ := scanned
  subst ha
  cases outcome with
  | error e => simp at ht
  | ok kind =>
    obtain rfl := Except.ok.inj ht
    have halone := scanToken_alone hs
    refine ⟨TokenKind.ofWord?_eq_some ?_ ?_, rfl, ?_⟩
    · simpa using halone
    · intro he
      obtain rfl : taken = [] := by simpa using he
      exact hk (by simpa [scanToken] using halone.symm)
    · dsimp only at hscan ⊢
      rw [String.toList_ofList]
      omega

/-- What holds at the end of a text, and in front of a token if it holds behind it, holds of all
tokens of a lexer. -/
theorem Lexer.run_induction {P : Lexer → Lexed → Prop}
    (ending : ∀ {l after : Lexer} {t : Token}, l.next = (.ok t, after) → t.kind = .endOfInput →
      P l ⟨[], t⟩)
    (token : ∀ {l after : Lexer} {t : Token} {lexed : Lexed}, l.next = (.ok t, after) →
      t.kind ≠ .endOfInput → P after lexed → P l ⟨t :: lexed.tokens, lexed.ending⟩)
    {l : Lexer} {lexed : Lexed} (h : l.run = .ok lexed) : P l lexed := by
  induction hn : l.rest.length using Nat.strong_induction_on generalizing l lexed with
  | _ n ih =>
    rcases hnext : l.next with ⟨outcome, after⟩
    cases outcome with
    | error e =>
      rw [Lexer.run_of_error hnext] at h
      cases h
    | ok t =>
      by_cases hk : t.kind = .endOfInput
      · rw [Lexer.run_of_end hnext hk] at h
        obtain rfl := Except.ok.inj h
        exact ending hnext hk
      · rw [Lexer.run_of_token hnext hk] at h
        cases hr : after.run with
        | error e => simp [hr, Except.map] at h
        | ok r =>
          obtain rfl : ⟨t :: r.tokens, r.ending⟩ = lexed := by simpa [hr, Except.map] using h
          exact token hnext hk (ih _ (hn ▸ Lexer.next_length hnext hk) hr rfl)

theorem Lexer.run_genuine {l : Lexer} {lexed : Lexed} (h : l.run = .ok lexed) :
    (∀ t ∈ lexed.tokens, t.Genuine l.doubleQuotedStrings) ∧
      looseOf lexed.tokens ≤ looseCount l.rest ∧ lexed.ending.kind = .endOfInput := by
  refine Lexer.run_induction (P := fun l lexed =>
    (∀ t ∈ lexed.tokens, t.Genuine l.doubleQuotedStrings) ∧
      looseOf lexed.tokens ≤ looseCount l.rest ∧ lexed.ending.kind = .endOfInput) ?_ ?_ h
  · exact fun _ hk => ⟨by simp, Nat.zero_le _, hk⟩
  · rintro l after t lexed hnext hk ⟨h1, h2, h3⟩
    obtain ⟨hg, hd, hq⟩ := Lexer.next_genuine hnext hk
    rw [hd] at h1
    refine ⟨List.forall_mem_cons.2 ⟨hg, h1⟩, ?_, h3⟩
    rw [looseOf_cons]
    omega

/-- The tokens of a text are tokens by themselves. -/
theorem tokenize_genuine {text : String} {lexed : Lexed} (h : tokenize text dq = .ok lexed) :
    (∀ t ∈ lexed.tokens, t.Genuine dq) ∧ lexed.ending.kind = .endOfInput :=
  ⟨(Lexer.run_genuine h).1, (Lexer.run_genuine h).2.2⟩

/-- The tokens of a text hold no more loose characters than the text. -/
theorem tokenize_looseCount {text : String} {lexed : Lexed} (h : tokenize text dq = .ok lexed) :
    looseOf lexed.tokens ≤ looseCount text.toList :=
  (Lexer.run_genuine h).2.1

/-! ## Words of certain kinds -/

/-- A token is quoted text, or what stands there begins neither quoted text nor a blob. -/
theorem scanToken_cases {cs taken rest : List Char} {k : TokenKind}
    (h : scanToken dq cs = ⟨.ok k, taken, rest⟩) :
    k = .endOfInput ∨
      (∃ q content, k = .string (String.ofList content) ∧
        taken = q :: (Quoted.double q content ++ [q])) ∨
      (∃ bytes, k = .blob bytes) ∨
      (∃ q content, IsNameQuote dq q ∧ k = .identifier (String.ofList content) (some q) ∧
        taken = q :: (Quoted.double q content ++ [q])) ∨
      ∃ c tail, cs = c :: tail ∧ scanPlain c tail = ⟨.ok k, taken, rest⟩ := by
  have hname : ∀ {q : Char} {tail : List Char} {unclosed : LexFault}, IsNameQuote dq q →
      scanQuoted [q] q unclosed (quotedName q) tail = ⟨.ok k, taken, rest⟩ →
      ∃ q content, IsNameQuote dq q ∧ k = .identifier (String.ofList content) (some q) ∧
        taken = q :: (Quoted.double q content ++ [q]) := by
    intro q tail unclosed hq h
    obtain ⟨content, hk, ht, -, -⟩ := scanQuoted_alone h
    exact ⟨q, content, hq, (Except.ok.inj hk).symm, ht⟩
  have hblob : ∀ {digits : List Char}, blobKind digits = .ok k → ∃ bytes, k = .blob bytes := by
    intro digits h
    unfold blobKind at h
    split at h
    · exact ⟨_, (Except.ok.inj h).symm⟩
    · cases h
  unfold scanToken at h
  split at h
  · simp only [Scanned.mk.injEq, Except.ok.injEq] at h
    exact .inl h.1.symm
  · obtain ⟨content, hk, ht, -⟩ := scanQuoted_alone h
    exact .inr (.inl ⟨_, content, (Except.ok.inj hk).symm, ht⟩)
  · split at h
    · obtain ⟨content, hk, ht, -⟩ := scanQuoted_alone h
      exact .inr (.inl ⟨_, content, (Except.ok.inj hk).symm, ht⟩)
    · next hd => exact .inr (.inr (.inr (.inl (hname (.inr ⟨rfl, by simpa using hd⟩) h))))
  · exact .inr (.inr (.inr (.inl (hname (.inl rfl) h))))
  · obtain ⟨content, hk, -⟩ := scanQuoted_alone h
    exact .inr (.inr (.inl (hblob hk)))
  · obtain ⟨content, hk, -⟩ := scanQuoted_alone h
    exact .inr (.inr (.inl (hblob hk)))
  · simp at h
  · exact .inr (.inr (.inr (.inr ⟨_, _, rfl, h⟩)))

/-- A symbol is spelled by its text; inequality has a second spelling. -/
theorem scanSymbol_text {cs taken rest : List Char} {s : Symbol}
    (h : scanSymbol cs = some (s, taken, rest)) :
    taken = s.text.toList ∨ s = .notEqual ∧ taken = ['<', '>'] := by
  unfold scanSymbol at h
  repeat' split at h
  all_goals first
    | contradiction
    | (simp only [Option.some.injEq, Prod.mk.injEq] at h
       obtain ⟨rfl, rfl, -⟩ := h
       first
         | exact .inl rfl
         | exact .inr ⟨rfl, rfl⟩)

/-- A number, a keyword or a bare name is the word itself; anything else is a symbol. -/
theorem scanPlain_cases {c : Char} {cs taken rest : List Char} {k : TokenKind}
    (h : scanPlain c cs = ⟨.ok k, taken, rest⟩) :
    k = .integer (String.ofList taken) ∨ k = .float (String.ofList taken) ∨
      k = .identifier (String.ofList taken) none ∨ (∃ w, k = .keyword w) ∨
      ∃ s, k = .symbol s ∧ scanSymbol (c :: cs) = some (s, taken, rest) := by
  unfold scanPlain at h
  split at h
  · simp only [Scanned.mk.injEq, Except.ok.injEq] at h
    obtain ⟨rfl, rfl, -⟩ := h
    unfold NumberScan.kind
    split
    · exact .inl rfl
    · exact .inr (.inl rfl)
  · split at h
    · simp only [Scanned.mk.injEq, Except.ok.injEq] at h
      obtain ⟨rfl, rfl, -⟩ := h
      unfold wordKind
      split
      · exact .inr (.inr (.inr (.inl ⟨_, rfl⟩)))
      · exact .inr (.inr (.inl rfl))
    · split at h
      · next hs =>
        simp only [Scanned.mk.injEq, Except.ok.injEq] at h
        obtain ⟨rfl, rfl, rfl⟩ := h
        exact .inr (.inr (.inr (.inr ⟨_, rfl, hs⟩)))
      · simp at h

/-- A token that is a symbol is spelled as the symbol is. -/
theorem scanToken_symbol {cs taken rest : List Char} {s : Symbol}
    (h : scanToken dq cs = ⟨.ok (.symbol s), taken, rest⟩) :
    taken = s.text.toList ∨ s = .notEqual ∧ taken = ['<', '>'] := by
  rcases scanToken_cases h with h | ⟨_, _, h, -⟩ | ⟨_, h⟩ | ⟨_, _, -, h, -⟩ | ⟨c, tail, -, h⟩
  · cases h
  · cases h
  · cases h
  · cases h
  rcases scanPlain_cases h with h | h | h | ⟨_, h⟩ | ⟨_, ⟨rfl⟩, hs⟩
  · cases h
  · cases h
  · cases h
  · cases h
  · exact scanSymbol_text hs

/-- A word that is a number is the digits of this number. -/
theorem digits_of_ofWord? {word digits : String}
    (h : TokenKind.ofWord? dq word = some (.integer digits) ∨
      TokenKind.ofWord? dq word = some (.float digits)) : digits = word := by
  have hone : ∀ {k : TokenKind}, TokenKind.ofWord? dq word = some k →
      k = .integer digits ∨ k = .float digits → digits = word := by
    intro k h hk
    obtain ⟨hs, -⟩ := scanToken_of_ofWord? h
    obtain rfl | ⟨_, _, rfl, -⟩ | ⟨_, rfl⟩ | ⟨_, _, -, rfl, -⟩ | ⟨c, cs, -, hp⟩ := scanToken_cases hs
    · simp at hk
    · simp at hk
    · simp at hk
    · simp at hk
    · obtain rfl | rfl | rfl | ⟨_, rfl⟩ | ⟨_, rfl, -⟩ := scanPlain_cases hp <;>
        simp [String.ofList_toList] at hk
      · exact hk.symm
      · exact hk.symm
  rcases h with h | h
  · exact hone h (.inl rfl)
  · exact hone h (.inr rfl)

/-- A word that is a keyword or a bare name is the one that the table of keywords says. -/
theorem wordKind_of_ofWord? {word : String} {kind : TokenKind}
    (h : TokenKind.ofWord? dq word = some kind)
    (hk : (∃ k, kind = .keyword k) ∨ ∃ name, kind = .identifier name none) :
    wordKind word = kind := by
  obtain ⟨hs, -⟩ := scanToken_of_ofWord? h
  obtain rfl | ⟨_, _, rfl, -⟩ | ⟨_, rfl⟩ | ⟨_, _, -, rfl, -⟩ | ⟨c, cs, -, hp⟩ := scanToken_cases hs
  · simp at hk
  · simp at hk
  · simp at hk
  · simp at hk
  · unfold scanPlain at hp
    split at hp
    · simp only [Scanned.mk.injEq, Except.ok.injEq] at hp
      obtain ⟨rfl, -⟩ := hp
      unfold NumberScan.kind at hk
      split at hk <;> simp at hk
    · split at hp
      · simp only [Scanned.mk.injEq, Except.ok.injEq] at hp
        obtain ⟨hkind, hword, -⟩ := hp
        rw [← hkind, hword, String.ofList_toList]
      · split at hp
        · simp only [Scanned.mk.injEq, Except.ok.injEq] at hp
          obtain ⟨rfl, -⟩ := hp
          simp at hk
        · simp at hp

/-- The table of keywords has a word that is a keyword. -/
theorem ofText?_of_keyword {word : String} {k : Keyword}
    (h : TokenKind.ofWord? dq word = some (.keyword k)) : Keyword.ofText? word = some k := by
  have hw := wordKind_of_ofWord? h (.inl ⟨k, rfl⟩)
  unfold wordKind at hw
  split at hw
  · next hk => rw [hk, TokenKind.keyword.inj hw]
  · cases hw

/-- The table of keywords does not have a bare name. -/
theorem ofText?_of_name {word name : String}
    (h : TokenKind.ofWord? dq word = some (.identifier name none)) : Keyword.ofText? word = none := by
  have hw := wordKind_of_ofWord? h (.inr ⟨name, rfl⟩)
  unfold wordKind at hw
  split at hw
  · cases hw
  · next hk => exact hk

/-- A word that is a name is the written form of this name. -/
theorem text_of_ofWord? {word name : String} {quote : Option Char}
    (h : TokenKind.ofWord? dq word = some (.identifier name quote)) :
    Ident.text ⟨name, quote⟩ = word ∧ ∀ q ∈ quote, IsNameQuote dq q := by
  obtain ⟨hs, -⟩ := scanToken_of_ofWord? h
  obtain hk | ⟨_, _, hk, -⟩ | ⟨_, hk⟩ | ⟨q, content, hq, hk, ht⟩ | ⟨c, cs, -, hp⟩ := scanToken_cases hs
  · cases hk
  · cases hk
  · cases hk
  · obtain ⟨rfl, rfl⟩ := TokenKind.identifier.inj hk
    have hb : q ≠ '[' := by rcases hq with rfl | ⟨rfl, -⟩ <;> decide
    refine ⟨?_, by simpa using hq⟩
    rw [← String.toList_inj, ht]
    simp [Ident.text, Ident.closingQuote, hb, Quoted.enclose]
  · obtain hk | hk | hk | ⟨_, hk⟩ | ⟨_, hk, -⟩ := scanPlain_cases hp
    · cases hk
    · cases hk
    · obtain ⟨rfl, rfl⟩ := TokenKind.identifier.inj hk
      exact ⟨String.ofList_toList, by simp⟩
    · cases hk
    · cases hk

theorem looseCount_double (q : Char) (cs : List Char) :
    looseCount cs ≤ looseCount (Quoted.double q cs) := by
  induction cs with
  | nil => exact Nat.le_refl _
  | cons c cs ih =>
    unfold looseCount at ih ⊢
    by_cases hc : c = q
    · subst hc
      simp only [Quoted.double, if_true, List.countP_cons]
      omega
    · simp only [Quoted.double, hc, if_false, List.countP_cons]
      omega

/-- Without its quotes a name has fewer loose characters. -/
theorem looseCount_name {word name : String} {q : Char}
    (h : TokenKind.ofWord? dq word = some (.identifier name (some q))) :
    looseCount name.toList < looseCount word.toList := by
  obtain ⟨ht, hq⟩ := text_of_ofWord? h
  have hb : q ≠ '[' := by rcases hq q rfl with rfl | ⟨rfl, -⟩ <;> decide
  have hqq : looseCount [q] = 1 := by rcases hq q rfl with rfl | ⟨rfl, -⟩ <;> rfl
  have hd := looseCount_double q name.toList
  have hw : word.toList = [q] ++ Quoted.double q name.toList ++ [q] := by
    rw [← ht]
    simp [Ident.text, Ident.closingQuote, hb, Quoted.enclose]
  rw [hw, looseCount_append, looseCount_append, hqq]
  omega

/-- The content of a string has no more loose characters than the string. -/
theorem looseCount_string {word content : String}
    (h : TokenKind.ofWord? dq word = some (.string content)) :
    looseCount content.toList ≤ looseCount word.toList := by
  obtain ⟨hs, -⟩ := scanToken_of_ofWord? h
  obtain hk | ⟨q, cs, hk, ht⟩ | ⟨_, hk⟩ | ⟨_, _, -, hk, -⟩ | ⟨c, cs, -, hp⟩ := scanToken_cases hs
  · cases hk
  · obtain rfl := TokenKind.string.inj hk
    have hd := looseCount_double q cs
    have hw : word.toList = [q] ++ Quoted.double q cs ++ [q] := ht
    rw [hw, String.toList_ofList, looseCount_append, looseCount_append]
    omega
  · cases hk
  · cases hk
  · obtain hk | hk | hk | ⟨_, hk⟩ | ⟨_, hk, -⟩ := scanPlain_cases hp <;> cases hk

/-- Texts that differ only in the case of their letters have as many loose characters. -/
theorem looseCount_of_sameIgnoringCase {a b : String} (h : sameIgnoringCase a b = true) :
    looseCount a.toList = looseCount b.toList := by
  have hfold : ∀ cs : List Char, looseCount (cs.map Char.toUpper) = looseCount cs := by
    intro cs
    rw [looseCount, looseCount, List.countP_map]
    congr 1
    funext c
    simp [isLoose, Char.toUpper_toUpper_eq_toUpper]
  have he : a.toList.map Char.toUpper = b.toList.map Char.toUpper := by
    simpa [sameIgnoringCase, foldAscii, ← String.toList_inj] using h
  rw [← hfold a.toList, he, hfold]

/-- A keyword has as many loose characters as its spelling. -/
theorem looseCount_keyword {word : String} {k : Keyword}
    (h : TokenKind.ofWord? dq word = some (.keyword k)) :
    looseCount word.toList = looseCount k.text.toList := by
  have hk := List.find?_some (ofText?_of_keyword h)
  have hfold : foldAscii k.text = k.text := by
    have hall : ∀ k ∈ Keyword.all, foldAscii k.text = k.text := by decide +kernel
    exact hall k (Keyword.mem_all k)
  refine looseCount_of_sameIgnoringCase ?_
  rw [sameIgnoringCase, hfold]
  exact (beq_iff_eq.1 hk) ▸ beq_self_eq_true _

end SqlTree
