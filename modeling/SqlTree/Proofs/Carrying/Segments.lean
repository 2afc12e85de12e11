import Mathlib
import SqlTree.Session
import SqlTree.Proofs.Carrying.Any
import SqlTree.Proofs.Lexing.Placed
import SqlTree.Proofs.Text.Stretch

/-! # The statements of a text, one by one

The tokens of a text are cut at its semicolons. A text has an answer if each of its segments, taken
as a text of its own, has one.

* `segments ts`: the tokens between semicolons, where there are any.
* `coveredText source ts`: the text from the first of some tokens to the last one.
* `renumbered n`: statements with the segments they were read from, the numbers of question marks
  going on from one to the next.
* `nextStatement_segment`: the next statement is read as it is read from its own segment.
* `parseStatements_iff_segments`: all statements are read as they are read from their own segments.
-/

namespace SqlTree
set_option autoImplicit false

open Parse

/-! ## Segments -/

/-- Whether a token separates statements. -/
def Token.isSemicolon (t : Token) : Bool :=
  t.kind == .symbol .semicolon

/-- The tokens between semicolons, where there are any. -/
def segments (ts : List Token) : List (List Token) :=
  (ts.splitOnP Token.isSemicolon).filter fun segment => !segment.isEmpty

/-- The text from the first of some tokens to the last one. -/
def coveredText (source : String) : List Token → String
  | [] => ""
  | t :: ts => (coverOf t (t :: ts)).slice source

/-- Statements with the tokens they were read from, in one text that has met `n` question marks. -/
def renumbered : Nat → List (List Token × Statement) → List Statement
  | _, [] => []
  | n, (ts, s) :: rest => s.shift n :: renumbered (n + s.counted ts) rest

theorem segments_nil : segments [] = [] := rfl

theorem segments_semicolon {t : Token} (ht : t.isSemicolon = true) (ts : List Token) :
    segments (t :: ts) = segments ts := by
  have h : ([] ++ t :: ts).splitOnP Token.isSemicolon = [] :: ts.splitOnP Token.isSemicolon :=
    List.splitOnP_append_cons_of_forall_mem (by simp) t ht ts
  rw [List.nil_append] at h
  rw [segments, h]
  rfl

theorem segments_dropWhile (ts : List Token) :
    segments (ts.dropWhile Token.isSemicolon) = segments ts := by
  induction ts with
  | nil => rfl
  | cons t ts ih =>
    cases ht : t.isSemicolon with
    | true => rw [List.dropWhile_cons_of_pos ht, ih, segments_semicolon ht]
    | false => rw [List.dropWhile_cons_of_neg (by simp [ht])]

/-- A segment with what follows it. -/
theorem segments_append {t : Token} {ts rest : List Token}
    (hts : ∀ u ∈ t :: ts, u.isSemicolon = false) (hrest : ∀ u ∈ rest.head?, u.isSemicolon = true) :
    segments (t :: ts ++ rest) = (t :: ts) :: segments rest.tail := by
  cases rest with
  | nil =>
    rw [List.append_nil, segments, List.splitOnP_eq_singleton hts]
    rfl
  | cons u rest =>
    rw [segments, List.splitOnP_append_cons_of_forall_mem hts u (hrest u rfl)]
    rfl

/-- The first segment of tokens that do not begin with a semicolon, and what follows it. -/
theorem exists_segment {ts : List Token} (hne : ts ≠ [])
    (hhead : ∀ u ∈ ts.head?, u.isSemicolon = false) : ∃ t seg rest,
      ts = t :: seg ++ rest ∧ (∀ u ∈ t :: seg, u.isSemicolon = false) ∧
        ∀ u ∈ rest.head?, u.isSemicolon = true := by
  obtain ⟨t, ts, rfl⟩ := List.exists_cons_of_ne_nil hne
  refine ⟨t, ts.takeWhile (!·.isSemicolon), ts.dropWhile (!·.isSemicolon), ?_, ?_, ?_⟩
  · rw [List.cons_append, List.takeWhile_append_dropWhile]
  · rw [List.forall_mem_cons]
    exact ⟨hhead t rfl, fun u hu => by simpa using List.mem_takeWhile_imp hu⟩
  · intro u hu
    have hn := List.head?_dropWhile_not (!·.isSemicolon) ts
    rw [Option.mem_def.1 hu] at hn
    simpa using hn

/-! ## Semicolons -/

/-- The cursor behind the semicolons here. -/
def Cursor.behindSemicolons (c : Cursor) : Cursor :=
  { c with
    behind := (c.ahead.takeWhile Token.isSemicolon).reverse ++ c.behind
    ahead := c.ahead.dropWhile Token.isSemicolon }

theorem Cursor.behindSemicolons_of_ne {c : Cursor}
    (h : ∀ t ∈ c.ahead.head?, t.isSemicolon = false) : c.behindSemicolons = c := by
  obtain ⟨behind, ahead, ending, n⟩ := c
  cases ahead with
  | nil => rfl
  | cons t ts =>
    have ht : ¬t.isSemicolon = true := by simp [h t rfl]
    simp only [behindSemicolons, List.takeWhile_cons_of_neg ht, List.dropWhile_cons_of_neg ht]
    rfl

namespace Parse

variable {o : Options} {source : String} {c c₁ : Cursor}

theorem atEnd_apply (c : Cursor) : atEnd c = .ok (c.current.kind == .endOfInput) c := rfl

theorem takeSemicolon_apply (c : Cursor) : takeSymbol .semicolon c =
    if c.peek 0 == .symbol .semicolon then .ok true c.advance else .ok false c := by
  have happly : takeSymbol .semicolon c =
      (if c.peek 0 == .symbol .semicolon then advance >>= fun _ => pure true
        else pure false : Parse Bool) c := rfl
  rw [happly]
  cases c.peek 0 == .symbol .semicolon with
  | true => rfl
  | false => rfl

theorem collectWithin_semicolon {allowance : List Token}
    (h : c.ahead.length ≤ allowance.length) :
    ∃ us, collectWithin semicolon allowance c = .ok us c.behindSemicolons := by
  have hstep : ∀ c : Cursor, semicolon c =
      if c.peek 0 == .symbol .semicolon then .ok (some ()) c.advance else .ok none c := by
    intro c
    rw [semicolon, bind_apply, takeSemicolon_apply]
    cases c.peek 0 == .symbol .semicolon with
    | true => rfl
    | false => rfl
  have hstop : ∀ (c : Cursor) (allowance : List Token), (∀ t ∈ c.ahead.head?, t.isSemicolon = false) →
      collectWithin semicolon allowance c = .ok [] c.behindSemicolons := by
    intro c allowance hc
    have hnone : semicolon c = .ok none c := by
      rw [hstep, if_neg]
      cases ha : c.ahead with
      | nil => simp [Cursor.peek, ha]
      | cons t ts => simpa [Cursor.peek, ha, Token.isSemicolon] using hc t (by simp [ha])
    rw [Cursor.behindSemicolons_of_ne hc]
    cases allowance <;> rw [collectWithin, bind_apply, hnone] <;> rfl
  induction allowance generalizing c with
  | nil =>
    have ha : c.ahead = [] := List.eq_nil_of_length_eq_zero (Nat.le_zero.1 h)
    exact ⟨[], hstop c [] (by simp [ha])⟩
  | cons a allowance ih =>
    obtain ⟨behind, ahead, ending, n⟩ := c
    cases ahead with
    | nil => exact ⟨[], hstop _ _ (by simp)⟩
    | cons t ts =>
      cases ht : t.isSemicolon with
      | false => exact ⟨[], hstop _ _ (by simpa using ht)⟩
      | true =>
        obtain ⟨us, hus⟩ := ih (c := ⟨t :: behind, ts, ending, n⟩) (Nat.le_of_succ_le_succ h)
        have hone : semicolon ⟨behind, t :: ts, ending, n⟩ =
            .ok (some ()) ⟨t :: behind, ts, ending, n⟩ := by
          rw [hstep, if_pos (by simpa [Cursor.peek, Token.isSemicolon] using ht)]
          rfl
        refine ⟨() :: us, ?_⟩
        rw [collectWithin, bind_apply, hone]
        dsimp only
        rw [bind_apply, hus]
        simp [Cursor.behindSemicolons, List.takeWhile_cons_of_pos ht,
          List.dropWhile_cons_of_pos ht, pure, EStateM.pure]

theorem semicolons_apply (c : Cursor) : semicolons c = .ok () c.behindSemicolons := by
  obtain ⟨us, hus⟩ := collectWithin_semicolon (Nat.le_refl c.ahead.length)
  have happly : semicolons c =
      (collectWithin semicolon c.ahead >>= fun _ => pure () : Parse Unit) c := rfl
  rw [happly, bind_apply, hus]
  rfl

/-! ## A statement and its segment -/

/-- A single statement is one with nothing but semicolons behind it. -/
theorem singleStatement_apply (c : Cursor) : singleStatement o source c =
    if c.current.kind == .endOfInput then .error ⟨.expected ["statement"], c.current⟩ c
    else
      match statementBody o source c with
      | .error e d => .error e d
      | .ok s d =>
        if d.behindSemicolons.current.kind == .endOfInput then .ok s d.behindSemicolons
        else .error ⟨.expected ["end of input"], d.behindSemicolons.current⟩ d.behindSemicolons := by
  unfold singleStatement
  rw [bind_apply, atEnd_apply]
  cases c.current.kind == .endOfInput with
  | true => rfl
  | false =>
    simp only [Bool.false_eq_true, if_false]
    rw [bind_apply]
    cases statementBody o source c with
    | error e d => rfl
    | ok s d =>
      dsimp only
      rw [bind_apply, semicolons_apply]
      dsimp only
      rw [bind_apply, atEnd_apply]
      cases d.behindSemicolons.current.kind == .endOfInput with
      | true => rfl
      | false => rfl

/-- Where the tokens ahead belong to one statement, a single statement is one that takes them all. -/
theorem singleStatement_lone (hc : c.Lone) (hne : c.ahead ≠ [])
    (hlone : ∀ s d, statementBody o source c = .ok s d → d.Lone) (s : Statement) :
    (∃ d, singleStatement o source c = .ok s d) ↔
      ∃ d, statementBody o source c = .ok s d ∧ d.ahead = [] := by
  -- The end of the text is here if no token is ahead.
  have hend : ∀ d : Cursor, d.Lone →
      ((d.current.kind == TokenKind.endOfInput) = true ↔ d.ahead = []) := by
    intro d hd
    cases ha : d.ahead with
    | nil => simpa [Cursor.current, ha] using hd.ending
    | cons t ts => simpa [Cursor.current, ha] using (hd.ahead t (by simp [ha])).2
  rw [singleStatement_apply, if_neg fun h => hne ((hend c hc).1 h)]
  cases hr : statementBody o source c with
  | error e d => simp
  | ok s' d =>
    have hd := hlone s' d hr
    have hstay : d.behindSemicolons = d := by
      refine Cursor.behindSemicolons_of_ne fun t ht => ?_
      simpa [Token.isSemicolon] using (hd.ahead t (List.mem_of_mem_head? ht)).1
    dsimp only
    rw [hstay]
    by_cases ha : d.ahead = []
    · rw [if_pos ((hend d hd).2 ha)]
      simp [ha]
    · rw [if_neg fun h => ha ((hend d hd).1 h)]
      simp only [reduceCtorEq, exists_false, false_iff, not_exists, not_and]
      rintro _ he
      obtain ⟨-, rfl⟩ : s' = s ∧ d = _ := by simpa using he
      exact ha

end Parse

theorem kinds_of_alike {ts us : List Token} (h : List.Forall₂ Token.Alike us ts) :
    us.map Token.kind = ts.map Token.kind := by
  induction h with
  | nil => rfl
  | cons ht _ ih => rw [List.map_cons, List.map_cons, ht.1, ih]

theorem questions_of_alike {ts us : List Token} (h : List.Forall₂ Token.Alike us ts) :
    questions us = questions ts := by
  have hkinds : ∀ ts : List Token,
      questions ts = (ts.map Token.kind).countP fun k => k = .symbol .question := by
    intro ts
    rw [questions, List.countP_map]
    rfl
  rw [hkinds, hkinds, kinds_of_alike h]

/-- A segment in its text, with a cursor in front of it and what follows it. -/
structure Segment (source : String) (o : Options) (c : Cursor) (t : Token) (ts rest : List Token) :
    Prop where
  tokens : ∃ pre, tokenize source o.dialect.doubleQuotedStrings =
    .ok ⟨pre ++ (t :: ts ++ rest), c.ending⟩
  inside : ∀ u ∈ t :: ts, u.isSemicolon = false
  behind : ∀ u ∈ rest.head?, u.isSemicolon = true
  ahead : c.ahead = t :: ts ++ rest

namespace Segment

variable {o : Options} {source : String} {c : Cursor} {t : Token} {ts rest : List Token}

theorem ended (h : Segment source o c t ts rest) : c.ending.kind = .endOfInput := by
  obtain ⟨pre, htokens⟩ := h.tokens
  exact (Lexer.run_ending htokens).1

theorem kinds (h : Segment source o c t ts rest) :
    ∀ u ∈ t :: ts, u.kind ≠ .symbol .semicolon ∧ u.kind ≠ .endOfInput := by
  obtain ⟨pre, htokens⟩ := h.tokens
  intro u hu
  refine ⟨?_, (tokenize_kinds htokens).1 u (List.mem_append_right _ (List.mem_append_left _ hu))⟩
  simpa [Token.isSemicolon] using h.inside u hu

/-- What stands around the segment. -/
def surroundings (h : Segment source o c t ts rest) : Surroundings where
  after := rest
  ending := c.ending
  placeholders := c.placeholders
  separated u hu := by simpa [Token.isSemicolon] using h.behind u hu
  ended := h.ended

theorem statementText (h : Segment source o c t ts rest) :
    c.statementText source = coveredText source (t :: ts) := by
  have hinside : ∀ u ∈ t :: ts, (u.kind != .symbol .semicolon) = true :=
    fun u hu => bne_iff_ne.2 (h.kinds u hu).1
  have htake : c.skipStatement.1 = t :: ts := by
    show c.ahead.takeWhile _ = t :: ts
    rw [h.ahead, List.takeWhile_append_of_pos hinside]
    cases hr : rest with
    | nil => simp
    | cons u us =>
      have hu := h.behind u (by simp [hr])
      rw [List.takeWhile_cons_of_neg (by simpa [Token.isSemicolon] using hu), List.append_nil]
  have hcurrent : c.current = t := by simp [Cursor.current, h.ahead]
  rw [Cursor.statementText, htake, hcurrent]
  rfl

/-- What is read of the segment alone is read of it in its text, and alone it is a single statement
if nothing of it is left. -/
theorem alone (h : Segment source o c t ts rest) : ∃ c' : Cursor, c'.placeholders = 0 ∧
    c'.ending.kind = .endOfInput ∧ List.Forall₂ Token.Alike c'.ahead (t :: ts) ∧
    Answered h.surroundings c' (statementBody o source c)
      (statementBody o (coveredText source (t :: ts)) c') ∧
    ∀ s, parseStatement (coveredText source (t :: ts)) o = .ok s ↔
      ∃ d, statementBody o (coveredText source (t :: ts)) c' = .ok s d ∧ d.ahead = [] := by
  obtain ⟨pre, htokens⟩ := h.tokens
  obtain ⟨u, us, e, hlex, hend, hall, hcover⟩ := tokenize_stretch htokens
  rw [show (coverOf t (t :: ts)).slice source = coveredText source (t :: ts) from rfl]
    at hlex hcover
  have hc : (Cursor.ofLexed ⟨u :: us, e⟩).Lone := by
    refine ⟨fun v hv => ?_, hend⟩
    have hk : v.kind ∈ (t :: ts).map Token.kind := by
      rw [← kinds_of_alike hall]
      exact List.mem_map_of_mem hv
    obtain ⟨w, hw, hk⟩ := List.mem_map.1 hk
    rw [← hk]
    exact h.kinds w hw
  have hw : (Cursor.ofLexed ⟨u :: us, e⟩).Within h.surroundings c :=
    ⟨⟨t :: ts, h.ahead, hall⟩, rfl, (Nat.zero_add _).symm⟩
  have htext : c.statementText source =
      (Cursor.ofLexed ⟨u :: us, e⟩).statementText (coveredText source (t :: ts)) := by
    have hinside : (Cursor.ofLexed ⟨u :: us, e⟩).skipStatement.1 = u :: us := by
      rw [hc.skipStatement]
      rfl
    rw [h.statementText, Cursor.statementText, hinside]
    exact hcover.symm
  have hanswered := answered_statementBody (o := o) hw hc htext
  refine ⟨_, rfl, hend, hall, hanswered, fun s => ?_⟩
  rw [parseStatement_iff hlex]
  refine singleStatement_lone hc (List.cons_ne_nil u us) (fun s d hs => ?_) s
  rw [hs] at hanswered
  exact hanswered.2.1

/-- A statement that is read from its segment alone is read in its text. -/
theorem statementBody_of_alone (h : Segment source o c t ts rest) {s : Statement}
    (hs : parseStatement (coveredText source (t :: ts)) o = .ok s) :
    ∃ d, statementBody o source c = .ok (s.shift c.placeholders) d ∧ d.ahead = rest ∧
      d.ending = c.ending ∧ d.placeholders = c.placeholders + s.counted (t :: ts) := by
  obtain ⟨c', hzero, -, hall, hanswered, hiff⟩ := h.alone
  obtain ⟨d, hd, hnil⟩ := (hiff s).1 hs
  rw [hd] at hanswered
  obtain ⟨⟨d₁, hd₁, hw⟩, -, hcounted⟩ := hanswered
  obtain ⟨vs, hvs, hnone⟩ := hw.ahead
  rw [hnil, List.forall₂_nil_left_iff] at hnone
  have hsame : s.counted c'.ahead = s.counted (t :: ts) := by
    cases s <;> first | rfl | exact questions_of_alike hall
  rw [hnil, hzero, hsame, Nat.zero_add] at hcounted
  refine ⟨d₁, hd₁, by rw [hvs, hnone]; rfl, hw.ending, ?_⟩
  rw [hw.placeholders, Nat.add_comm, ← hcounted]
  rfl

/-- A statement in its text is read from its segment alone if a semicolon or the end of the text
stands behind it. -/
theorem alone_of_statementBody (h : Segment source o c t ts rest) {s : Statement} {d : Cursor}
    (hs : statementBody o source c = .ok s d)
    (hd : ∀ u ∈ d.ahead.head?, u.kind = .symbol .semicolon ∨ u.kind = .endOfInput) :
    ∃ s, parseStatement (coveredText source (t :: ts)) o = .ok s := by
  obtain ⟨c', -, -, -, hanswered, hiff⟩ := h.alone
  cases hr : statementBody o (coveredText source (t :: ts)) c' with
  | error e d' =>
    rw [hr, hs] at hanswered
    obtain ⟨_, _, he⟩ := hanswered
    cases he
  | ok s' d' =>
    rw [hr, hs] at hanswered
    obtain ⟨⟨d₁, hd₁, hw⟩, hlone, -⟩ := hanswered
    obtain ⟨-, rfl⟩ : _ ∧ d = d₁ := by simpa using hd₁
    refine ⟨s', (hiff s').2 ⟨d', hr, ?_⟩⟩
    by_contra hne
    obtain ⟨v, vs, hv⟩ := List.exists_cons_of_ne_nil hne
    obtain ⟨ws, hws, hall⟩ := hw.ahead
    rw [hv] at hall
    obtain ⟨w, ws, ha, -, rfl⟩ := List.forall₂_cons_left_iff.1 hall
    have hkinds := hlone.ahead v (by simp [hv])
    rcases hd w (by simp [hws]) with hk | hk
    · exact hkinds.1 (ha.1.trans hk)
    · exact hkinds.2 (ha.1.trans hk)

end Segment

/-! ## All statements -/

namespace Parse

variable {o : Options} {source : String} {c : Cursor}

/-- Where only semicolons are left there is no statement. -/
theorem nextStatement_done (h : c.behindSemicolons.ahead = [])
    (he : c.ending.kind = .endOfInput) : nextStatement o source c = .ok none c.behindSemicolons := by
  have hk : (c.behindSemicolons.current.kind == TokenKind.endOfInput) = true := by
    rw [Cursor.current, h]
    simpa [Cursor.behindSemicolons] using he
  unfold nextStatement
  rw [bind_apply, semicolons_apply]
  dsimp only
  rw [bind_apply, atEnd_apply, hk]
  rfl

/-- Behind the semicolons a statement is read, and what ends it. -/
theorem nextStatement_apply (h : (c.behindSemicolons.current.kind == .endOfInput) = false) :
    nextStatement o source c =
      match statementBody o source c.behindSemicolons with
      | .error e d => .error e d
      | .ok s d =>
        if d.peek 0 == .symbol .semicolon then .ok (some s) d.advance
        else if d.current.kind == .endOfInput then .ok (some s) d
        else .error ⟨.expected [";", "end of input"], d.current⟩ d := by
  unfold nextStatement
  rw [bind_apply, semicolons_apply]
  dsimp only
  rw [bind_apply, atEnd_apply, h]
  simp only [Bool.false_eq_true, if_false]
  rw [bind_apply]
  cases statementBody o source c.behindSemicolons with
  | error e d => rfl
  | ok s d =>
    dsimp only
    rw [bind_apply, takeSemicolon_apply]
    cases d.peek 0 == .symbol .semicolon with
    | true => rfl
    | false =>
      simp only [Bool.false_eq_true, if_false]
      rw [bind_apply, atEnd_apply]
      cases d.current.kind == .endOfInput with
      | true => rfl
      | false => rfl

end Parse

namespace Segment

variable {o : Options} {source : String} {c : Cursor} {t : Token} {ts rest : List Token}

theorem current (h : Segment source o c t ts rest) :
    (c.current.kind == TokenKind.endOfInput) = false := by
  have hk := (h.kinds t (by simp)).2
  simpa [Cursor.current, h.ahead] using hk

theorem nextStatement_of_alone (h : Segment source o c.behindSemicolons t ts rest) {s : Statement}
    (hs : parseStatement (coveredText source (t :: ts)) o = .ok s) :
    ∃ d, nextStatement o source c = .ok (some (s.shift c.placeholders)) d ∧ d.ahead = rest.tail ∧
      d.ending = c.ending ∧ d.placeholders = c.placeholders + s.counted (t :: ts) := by
  obtain ⟨d, hd, hahead, hending, hcount⟩ := h.statementBody_of_alone hs
  have hkind : d.ending.kind = .endOfInput := hending ▸ h.ended
  rw [nextStatement_apply h.current, hd]
  dsimp only
  obtain ⟨behind, ahead, ending, n⟩ := d
  obtain rfl : ahead = rest := hahead
  cases ahead with
  | nil =>
    have hpeek : (Cursor.peek ⟨behind, [], ending, n⟩ 0 == .symbol .semicolon) = false := rfl
    have hend : ((Cursor.current ⟨behind, [], ending, n⟩).kind == .endOfInput) = true := by
      simpa [Cursor.current] using hkind
    rw [hpeek, hend]
    exact ⟨_, rfl, rfl, hending, hcount⟩
  | cons u us =>
    have hpeek : (Cursor.peek ⟨behind, u :: us, ending, n⟩ 0 == .symbol .semicolon) = true :=
      h.behind u rfl
    rw [hpeek]
    exact ⟨_, rfl, rfl, hending, hcount⟩

theorem alone_of_nextStatement (h : Segment source o c.behindSemicolons t ts rest)
    {r : Option Statement} {d : Cursor} (hr : nextStatement o source c = .ok r d) :
    ∃ s, parseStatement (coveredText source (t :: ts)) o = .ok s := by
  rw [nextStatement_apply h.current] at hr
  cases hs : statementBody o source c.behindSemicolons with
  | error e d =>
    rw [hs] at hr
    cases hr
  | ok s d =>
    rw [hs] at hr
    dsimp only at hr
    refine h.alone_of_statementBody hs fun u hu => ?_
    obtain ⟨us, ha⟩ : ∃ us, d.ahead = u :: us := by
      cases ha : d.ahead with
      | nil => simp [ha] at hu
      | cons v vs => exact ⟨vs, by simpa [ha] using hu⟩
    have hpeek : d.peek 0 = u.kind := by simp [Cursor.peek, ha]
    have hcurrent : d.current = u := by simp [Cursor.current, ha]
    rw [hpeek, hcurrent] at hr
    by_cases h1 : u.kind = .symbol .semicolon
    · exact .inl h1
    · by_cases h2 : u.kind = .endOfInput
      · exact .inr h2
      · simp [h1, h2] at hr

end Segment

/-- A text, with a cursor that has all tokens ahead which are not read. -/
def Cursor.Reading (source : String) (o : Options) (c : Cursor) : Prop :=
  ∃ pre, tokenize source o.dialect.doubleQuotedStrings = .ok ⟨pre ++ c.ahead, c.ending⟩

/-- Behind the semicolons there is a segment, or nothing. -/
theorem Cursor.Reading.next {o : Options} {source : String} {c : Cursor} (h : c.Reading source o) :
    (c.behindSemicolons.ahead = [] ∧ segments c.ahead = []) ∨
    ∃ t ts rest, Segment source o c.behindSemicolons t ts rest ∧
      segments c.ahead = (t :: ts) :: segments rest.tail ∧ rest.tail.length < c.ahead.length ∧
      ∀ d : Cursor, d.ahead = rest.tail → d.ending = c.ending → d.Reading source o := by
  obtain ⟨pre, htokens⟩ := h
  rw [← segments_dropWhile c.ahead]
  by_cases hnil : c.ahead.dropWhile Token.isSemicolon = []
  · exact .inl ⟨hnil, by rw [hnil, segments_nil]⟩
  · obtain ⟨t, ts, rest, hsegment, hinside, hbehind⟩ := exists_segment hnil fun u hu => by
      have hn := List.head?_dropWhile_not Token.isSemicolon c.ahead
      rw [Option.mem_def.1 hu] at hn
      simpa using hn
    have hsplit : c.ahead = c.ahead.takeWhile Token.isSemicolon ++ (t :: ts ++ rest) := by
      rw [← hsegment, List.takeWhile_append_dropWhile]
    have htail : rest = rest.head?.toList ++ rest.tail := by cases rest <;> rfl
    refine .inr ⟨t, ts, rest, ⟨⟨pre ++ c.ahead.takeWhile Token.isSemicolon, ?_⟩, hinside, hbehind,
      hsegment⟩, ?_, ?_, ?_⟩
    · rw [List.append_assoc, ← hsplit]
      exact htokens
    · rw [hsegment, segments_append hinside hbehind]
    · rw [hsplit]
      simp only [List.length_append, List.length_cons, List.length_tail]
      omega
    · intro d hahead hending
      refine ⟨pre ++ c.ahead.takeWhile Token.isSemicolon ++ (t :: ts) ++ rest.head?.toList, ?_⟩
      have hlist : pre ++ c.ahead.takeWhile Token.isSemicolon ++ (t :: ts) ++
          rest.head?.toList ++ rest.tail = pre ++ c.ahead := by
        conv_rhs => rw [hsplit, htail]
        simp only [List.append_assoc]
      rw [hahead, hending, hlist, htokens]

/-- The statements from a place on are those of the segments that are left there. -/
theorem collect_segments {o : Options} {source : String} {allowance : List Token} {c : Cursor}
    (h : c.Reading source o) (hlength : c.ahead.length ≤ allowance.length) (ss : List Statement) :
    (∃ d, collectWithin (nextStatement o source) allowance c = .ok ss d) ↔
      ∃ alone, List.Forall₂ (fun ts s => parseStatement (coveredText source ts) o = .ok s)
        (segments c.ahead) alone ∧
        ss = renumbered c.placeholders ((segments c.ahead).zip alone) := by
  induction allowance generalizing c ss with
  | nil =>
    obtain ⟨pre, htokens⟩ := h
    have hnil : c.ahead = [] := List.eq_nil_of_length_eq_zero (Nat.le_zero.1 hlength)
    have hdone : nextStatement o source c = .ok none c.behindSemicolons :=
      nextStatement_done (by simp [Cursor.behindSemicolons, hnil]) (Lexer.run_ending htokens).1
    rw [hnil, segments_nil, collectWithin, bind_apply, hdone]
    simp [renumbered, pure, EStateM.pure, eq_comm]
  | cons a allowance ih =>
    rw [collectWithin, bind_apply]
    rcases h.next with ⟨hnil, hnone⟩ | ⟨t, ts, rest, hsegment, hsegments, hshort, hplace⟩
    · obtain ⟨pre, htokens⟩ := h
      have hdone : nextStatement o source c = .ok none c.behindSemicolons :=
        nextStatement_done hnil (Lexer.run_ending htokens).1
      rw [hnone, hdone]
      simp [renumbered, pure, EStateM.pure, eq_comm]
    rw [hsegments]
    cases hp : parseStatement (coveredText source (t :: ts)) o with
    | error e =>
      constructor
      · rintro ⟨d, hd⟩
        cases hr : nextStatement o source c with
        | error e d => simp [hr] at hd
        | ok r d =>
          obtain ⟨s, hs⟩ := hsegment.alone_of_nextStatement hr
          rw [hp] at hs
          cases hs
      · rintro ⟨alone, hall, -⟩
        obtain ⟨s, ss, hs, -, -⟩ := List.forall₂_cons_left_iff.1 hall
        rw [hp] at hs
        cases hs
    | ok s =>
      obtain ⟨d, hd, hahead, hending, hcount⟩ := hsegment.nextStatement_of_alone hp
      have hrest := ih (hplace d hahead hending) (by
        rw [hahead]
        exact Nat.le_of_lt_succ (Nat.lt_of_lt_of_le hshort hlength))
      rw [hahead, hcount] at hrest
      rw [hd]
      dsimp only
      rw [bind_apply]
      constructor
      · rintro ⟨e, he⟩
        cases hc : collectWithin (nextStatement o source) allowance d with
        | error e' d' => simp [hc] at he
        | ok ss' d' =>
          rw [hc] at he
          obtain ⟨rfl, -⟩ : s.shift c.placeholders :: ss' = ss ∧ _ := by
            simpa [pure, EStateM.pure] using he
          obtain ⟨alone, hall, rfl⟩ := (hrest ss').1 ⟨d', hc⟩
          exact ⟨s :: alone, .cons hp hall, rfl⟩
      · rintro ⟨_, hall, rfl⟩
        obtain ⟨s', alone, hs', hrests, rfl⟩ := List.forall₂_cons_left_iff.1 hall
        obtain rfl : s = s' := by
          rw [hp] at hs'
          exact Except.ok.inj hs'
        obtain ⟨d', hd'⟩ := (hrest _).2 ⟨alone, hrests, rfl⟩
        exact ⟨d', by rw [hd']; rfl⟩

/-- All statements of a text are those of its segments, with their question marks counted on. The
question marks of statements that are kept as written are not counted. -/
theorem parseStatements_iff_segments (source : String) (o : Options) (ss : List Statement) :
    parseStatements source o = .ok ss ↔
      ∃ lexed, tokenize source o.dialect.doubleQuotedStrings = .ok lexed ∧
        ∃ alone, List.Forall₂ (fun ts s => parseStatement (coveredText source ts) o = .ok s)
          (segments lexed.tokens) alone ∧ ss = renumbered 0 ((segments lexed.tokens).zip alone) := by
  cases h : tokenize source o.dialect.doubleQuotedStrings with
  | error e => simp [parseStatements_of_lexError h]
  | ok lexed =>
    have hread : (Cursor.ofLexed lexed).Reading source o := ⟨[], h⟩
    rw [parseStatements_iff h]
    refine (collect_segments hread (Nat.le_refl _) ss).trans ?_
    constructor
    · rintro ⟨alone, hall, rfl⟩
      exact ⟨lexed, rfl, alone, hall, rfl⟩
    · rintro ⟨_, ⟨⟩, alone, hall, rfl⟩
      exact ⟨alone, hall, rfl⟩

end SqlTree
