import Mathlib
import SqlTree.Proofs.Carrying.Segments
import SqlTree.Proofs.Parsing.Spends

/-! # Statements kept as written

A statement that the grammar does not know is kept as it is written, or refused.

* `Known c keep source r keep' source' r'`: the same statement of the grammar, or none of it, is read
  whether or not statements are kept.
* `statementBody_known`: so are all statements.
* `beginsUnknown ts`: `SHOW`, or words that begin no statement of the grammar.
* `statementBody_of_unknown`: a statement that begins so is read if such statements are kept.
* `unsupported_verbatim`: the text of a statement that is kept, and that it is kept alone, too.
-/

namespace SqlTree
set_option autoImplicit false

namespace Parse

variable {α : Type} {d : Dialect} {c : Cursor} {keep keep' : Bool} {source source' : String}

/-! ## Known and unknown statements -/

/-- Either the grammar reads what is ahead, and it is no matter whether statements are kept as
written, or it knows nothing that is ahead. -/
def Known (c : Cursor) (keep : Bool) (source : String) (r : EStateM.Result Fault Cursor Statement)
    (keep' : Bool) (source' : String) (r' : EStateM.Result Fault Cursor Statement) : Prop :=
  (r = r' ∧ ∀ s e, r = .ok s e → ∀ text, s ≠ .unsupported text) ∨
    (r = kept keep source c ∧ r' = kept keep' source' c)

theorem known_map (p : Parse α) (f : α → Statement) (hf : ∀ a text, f a ≠ .unsupported text) :
    Known c keep source ((p >>= fun a => pure (f a)) c)
      keep' source' ((p >>= fun a => pure (f a)) c) := by
  refine .inl ⟨rfl, fun s e h => ?_⟩
  rw [bind_apply] at h
  cases hp : p c with
  | error e d => simp [hp] at h
  | ok a d' =>
    rw [hp] at h
    cases h
    exact hf a

theorem known_unsupported :
    Known c keep source (unsupported ⟨d, keep⟩ source c.position c)
      keep' source' (unsupported ⟨d, keep'⟩ source' c.position c) :=
  .inr ⟨unsupported_position .., unsupported_position ..⟩

theorem known_showStatement :
    Known c keep source (showStatement ⟨d, keep⟩ source c.position c)
      keep' source' (showStatement ⟨d, keep'⟩ source' c.position c) := by
  rw [showStatement_position, showStatement_position]
  cases knownShow c with
  | error e e' => exact .inl ⟨rfl, by simp⟩
  | ok request? e =>
    cases request? with
    | none => exact .inr ⟨rfl, rfl⟩
    | some request =>
      refine .inl ⟨rfl, fun s e h => ?_⟩
      cases h
      simp

/-- A test under the first word, with the statement that it stands for. -/
theorem known_branch {test : Parse Bool} (htest : ∃ b, test c = .ok b c) {p : Parse α}
    {f : α → Statement} (hf : ∀ a text, f a ≠ .unsupported text) :
    Known c keep source
      ((test >>= fun b => if b then p >>= fun a => pure (f a)
        else unsupported ⟨d, keep⟩ source c.position) c)
      keep' source'
      ((test >>= fun b => if b then p >>= fun a => pure (f a)
        else unsupported ⟨d, keep'⟩ source' c.position) c) := by
  obtain ⟨b, hb⟩ := htest
  rw [bind_apply, bind_apply, hb]
  cases b with
  | true => exact known_map p f hf
  | false => exact known_unsupported

theorem statementBody_known (d : Dialect) (c : Cursor) (keep keep' : Bool)
    (source source' : String) :
    Known c keep source (statementBody ⟨d, keep⟩ source c)
      keep' source' (statementBody ⟨d, keep'⟩ source' c) := by
  rw [statementBody_apply, statementBody_apply]
  generalize c.current.kind = kind
  unfold statementFrom
  split
  · exact known_map _ _ (by simp)
  · exact known_map _ _ (by simp)
  · exact known_map _ _ (by simp)
  · exact known_map _ _ (by simp)
  · exact known_map _ _ (by simp)
  · exact known_map _ _ (by simp)
  · exact known_map _ _ (by simp)
  · exact known_branch ⟨_, rfl⟩ (by simp)
  · exact known_branch ⟨_, rfl⟩ (by simp)
  · exact known_showStatement
  · exact known_unsupported
  · exact known_unsupported
  · refine .inl ⟨rfl, ?_⟩
    rintro s e ⟨⟩

/-- A statement that is kept has its own text. -/
theorem eq_kept {o : Options} {text : String} {e : Cursor}
    (h : statementBody o source c = .ok (.unsupported text) e) :
    text = c.statementText source ∧ e = c.skipStatement.2 := by
  obtain ⟨d, keep⟩ := o
  rcases statementBody_known d c keep keep source source with ⟨-, hknown⟩ | ⟨hkept, -⟩
  · exact absurd rfl (hknown _ _ h text)
  · rw [hkept] at h
    cases keep with
    | false => cases h
    | true =>
      obtain ⟨ht, he⟩ : c.statementText source = text ∧ c.skipStatement.2 = e := by
        simpa [kept_apply] using h
      exact ⟨ht.symm, he.symm⟩

/-- A single statement is read without keeping statements just if it is read with keeping them and
is not kept. -/
theorem singleStatement_iff (d : Dialect) (source : String) (c : Cursor) (s : Statement) :
    (∃ e, singleStatement ⟨d, false⟩ source c = .ok s e) ↔
      (∃ e, singleStatement ⟨d, true⟩ source c = .ok s e) ∧ ∀ text, s ≠ .unsupported text := by
  rw [singleStatement_apply, singleStatement_apply]
  cases c.current.kind == .endOfInput with
  | true => simp
  | false =>
    simp only [Bool.false_eq_true, if_false]
    rcases statementBody_known d c false true source source with ⟨heq, hknown⟩ | ⟨hf, ht⟩
    · rw [← heq]
      refine ⟨fun h => ⟨h, ?_⟩, fun h => h.1⟩
      obtain ⟨e, he⟩ := h
      cases hr : statementBody ⟨d, false⟩ source c with
      | error e d => simp [hr] at he
      | ok s' e' =>
        rw [hr] at he
        dsimp only at he
        split at he
        · obtain ⟨rfl, -⟩ : s' = s ∧ _ := by simpa using he
          exact hknown s' e' hr
        · cases he
    · rw [hf, ht]
      constructor
      · rintro ⟨e, ⟨⟩⟩
      · rintro ⟨⟨e, he⟩, hs⟩
        simp only [kept_apply, if_true] at he
        split at he
        · obtain ⟨rfl, -⟩ : Statement.unsupported _ = s ∧ _ := by simpa using he
          exact absurd rfl (hs _)
        · cases he

end Parse

/-! ## How unknown statements begin -/

namespace Cursor

/-- At a semicolon or at the end of the text. -/
def AtStop (c : Cursor) : Prop :=
  c.peek 0 = .symbol .semicolon ∨ c.peek 0 = .endOfInput

/-- `SHOW`, or words ahead that begin no statement of the grammar. -/
def beginsUnknown (c : Cursor) : Bool :=
  match c.peek 0 with
  | .keyword .CREATE =>
    !(c.peek 1 == .keyword .TABLE ||
      (c.peek 1).keyword?.any [.TEMP, .TEMPORARY].contains && c.peek 2 == .keyword .TABLE)
  | .keyword .ALTER => c.peek 1 != .keyword .TABLE
  | .keyword word => word ∉ [.SELECT, .WITH, .VALUES, .INSERT, .UPDATE, .DELETE]
  | .identifier _ _ => true
  | _ => false

theorem atStop_skipStatement (c : Cursor) : c.skipStatement.2.AtStop := by
  have hahead : c.skipStatement.2.ahead = c.ahead.dropWhile (·.kind != .symbol .semicolon) := rfl
  have hn := List.head?_dropWhile_not (fun t : Token => t.kind != .symbol .semicolon) c.ahead
  unfold AtStop peek
  rw [hahead]
  generalize List.dropWhile _ c.ahead = ts at hn ⊢
  cases ts with
  | nil => exact .inr rfl
  | cons t ts => exact .inl (by simpa using hn)

end Cursor

namespace Parse

variable {α : Type} {d : Dialect} {c : Cursor} {source : String}

/-- An answer, with nothing but the end of the statement behind what is found. -/
def Finds (r : EStateM.Result Fault Cursor (Option α)) : Prop :=
  ∃ a e, r = .ok a e ∧ (a.isSome = true → e.AtStop)

theorem finds_atEnd (c : Cursor) (a : α) :
    Finds ((statementEndAt 0 >>= fun b => if b then pure (some a) else pure none : Parse _) c) := by
  have happly : statementEndAt 0 c =
      .ok (c.peek 0 == .symbol .semicolon || c.peek 0 == .endOfInput) c := rfl
  rw [bind_apply, happly]
  by_cases h : (c.peek 0 == .symbol .semicolon || c.peek 0 == .endOfInput) = true
  · exact ⟨some a, c, by rw [h]; rfl, fun _ => by simpa [Cursor.AtStop] using h⟩
  · exact ⟨none, c, by simp only [h]; rfl, fun hs => by cases hs⟩

theorem finds_indexesOf (word : IndexWord) (c : Cursor) : Finds (indexesOf word c) := by
  unfold indexesOf
  rw [bind_apply, advance_apply]
  dsimp only
  rw [bind_apply, advance_apply]
  dsimp only
  rw [bind_apply]
  rw [attempt_apply]
  cases objectName c.advance.advance with
  | error e d => exact ⟨none, d, rfl, fun hs => by cases hs⟩
  | ok table d => exact finds_atEnd d _

theorem finds_variable (he : c.ending.kind = .endOfInput) :
    Finds ((do
      if (← nameAt 0) && (← statementEndAt 1) then return some (.variable (← identifier))
      else return none : Parse (Option Show)) c) := by
  have hname : nameAt 0 c = .ok (startsName (c.peek 0)) c := rfl
  have hend : statementEndAt 1 c =
      .ok (c.peek 1 == .symbol .semicolon || c.peek 1 == .endOfInput) c := rfl
  rw [bind_apply, hname]
  dsimp only
  rw [bind_apply, hend]
  dsimp only
  by_cases h : (startsName (c.peek 0) &&
      (c.peek 1 == .symbol .semicolon || c.peek 1 == .endOfInput)) = true
  · rw [if_pos h, bind_apply]
    rw [Bool.and_eq_true] at h
    obtain ⟨hn, hs⟩ := h
    obtain ⟨name, hid⟩ : ∃ name, identifier c = .ok name c.advance := by
      have hk := Cursor.current_kind he
      unfold identifier
      rw [bind_apply, current_apply]
      dsimp only
      cases hp : c.peek 0 with
      | identifier name quote =>
        rw [hk, hp]
        exact ⟨_, rfl⟩
      | keyword k =>
        rw [hp] at hn
        have hr : ¬k.isReserved = true := by simpa [startsName] using hn
        rw [hk, hp]
        simp only [hr]
        exact ⟨_, rfl⟩
      | _ => simp [hp, startsName] at hn
    rw [hid]
    refine ⟨_, _, rfl, fun _ => ?_⟩
    rw [Cursor.AtStop, Cursor.peek_advance]
    simpa using hs
  · rw [if_neg h]
    exact ⟨none, c, rfl, fun hs => by cases hs⟩

theorem finds_knownShow (he : c.ending.kind = .endOfInput) (h : c.peek 0 = .keyword .SHOW) :
    Finds (knownShow c) := by
  have hshow : expectKeyword .SHOW c = .ok () c.advance := by
    have htest : keywordAt 0 .SHOW c = .ok (c.peek 0 == .keyword .SHOW) c := rfl
    simp only [expectKeyword, takeKeyword, bind_apply, htest, h]
    rfl
  have hending : c.advance.ending.kind = .endOfInput := by
    obtain ⟨behind, ahead, ending, m⟩ := c
    cases ahead with
    | nil => exact he
    | cons t ts => exact he
  have htest : anyKeywordAt 1 [.FROM, .IN] c.advance =
      .ok ((c.advance.peek 1).keyword?.any [Keyword.FROM, .IN].contains) c.advance := rfl
  unfold knownShow
  rw [bind_apply, hshow]
  dsimp only
  rw [bind_apply, current_apply]
  dsimp only
  rw [bind_apply, htest]
  dsimp only
  cases indexWord? c.advance.current.kind with
  | none => exact finds_variable hending
  | some word =>
    cases (c.advance.peek 1).keyword?.any [Keyword.FROM, .IN].contains with
    | true => exact finds_indexesOf word _
    | false => exact finds_variable hending

/-- Where statements are kept, one that begins with unknown words, or with `SHOW`, is read up to the
next semicolon. -/
theorem statementBody_of_unknown (he : c.ending.kind = .endOfInput) (hu : c.beginsUnknown = true) :
    ∃ s e, statementBody ⟨d, true⟩ source c = .ok s e ∧ e.AtStop := by
  have hkept : ∃ s e, kept true source c = .ok s e ∧ e.AtStop :=
    ⟨_, _, kept_apply true source c, c.atStop_skipStatement⟩
  have hunsupported : ∃ s e, unsupported ⟨d, true⟩ source c.position c = .ok s e ∧ e.AtStop := by
    rw [unsupported_position]
    exact hkept
  unfold Cursor.beginsUnknown at hu
  rw [statementBody_apply, Cursor.current_kind he]
  have hshow := @finds_knownShow c he
  generalize c.peek 0 = kind at hu hshow ⊢
  unfold statementFrom
  split
  · cases hu
  · cases hu
  · cases hu
  · cases hu
  · cases hu
  · cases hu
  · cases hu
  · have htest : createTableAt c = .ok (c.peek 1 == .keyword .TABLE ||
        (c.peek 1).keyword?.any [.TEMP, .TEMPORARY].contains && c.peek 2 == .keyword .TABLE) c := rfl
    rw [bind_apply, htest, Bool.eq_false_of_not_eq_true' hu]
    exact hunsupported
  · have htest : keywordAt 1 .TABLE c = .ok (c.peek 1 == .keyword .TABLE) c := rfl
    rw [bind_apply, htest, Bool.eq_false_of_not_eq_true' hu]
    exact hunsupported
  · obtain ⟨request?, e, hr, hstop⟩ := hshow rfl
    rw [showStatement_position, hr]
    cases request? with
    | none => exact hkept
    | some request => exact ⟨_, _, rfl, hstop rfl⟩
  · exact hunsupported
  · exact hunsupported
  · next hword hname =>
    cases kind with
    | keyword word => exact absurd rfl (hword word)
    | identifier name quote => exact absurd rfl (hname name quote)
    | _ => cases hu

/-- Where a statement cannot begin none is read. -/
theorem statementBody_of_atStop {o : Options} (he : c.ending.kind = .endOfInput) (h : c.AtStop) :
    statementBody o source c = .error ⟨.expected ["statement"], c.current⟩ c := by
  rw [statementBody_apply, Cursor.current_kind he]
  rcases h with h | h <;> rw [h] <;> rfl

end Parse

open Parse

/-! ## Segments that are kept -/

/-- A segment of some tokens, with what is around it. -/
theorem exists_of_mem_segments {all ts : List Token} (h : ts ∈ segments all) :
    ∃ pre t us rest, ts = t :: us ∧ all = pre ++ (t :: us ++ rest) ∧
      (∀ u ∈ t :: us, u.isSemicolon = false) ∧ ∀ u ∈ rest.head?, u.isSemicolon = true := by
  induction hn : all.length using Nat.strong_induction_on generalizing all with
  | _ n ih =>
    have hall : all = all.takeWhile Token.isSemicolon ++ all.dropWhile Token.isSemicolon :=
      List.takeWhile_append_dropWhile.symm
    rw [← segments_dropWhile] at h
    by_cases hnil : all.dropWhile Token.isSemicolon = []
    · rw [hnil, segments_nil] at h
      cases h
    · obtain ⟨t, us, rest, hsegment, hinside, hbehind⟩ := exists_segment hnil fun u hu => by
        have hd := List.head?_dropWhile_not Token.isSemicolon all
        rw [Option.mem_def.1 hu] at hd
        simpa using hd
      rw [hsegment] at hall
      rw [hsegment, segments_append hinside hbehind, List.mem_cons] at h
      rcases h with rfl | h
      · exact ⟨_, t, us, rest, rfl, hall, hinside, hbehind⟩
      · have hlength : rest.tail.length < n := by
          rw [← hn, hall]
          simp only [List.length_append, List.length_cons, List.length_tail]
          omega
        obtain ⟨pre, u, vs, rest', hts, htail, hrest⟩ := ih _ hlength h rfl
        have hsplit : rest = rest.head?.toList ++ rest.tail := by cases rest <;> rfl
        refine ⟨all.takeWhile Token.isSemicolon ++ (t :: us) ++ rest.head?.toList ++ pre, u, vs,
          rest', hts, ?_, hrest⟩
        rw [List.append_assoc, ← htail, List.append_assoc, ← hsplit, List.append_assoc]
        exact hall

namespace Segment

variable {o : Options} {source text : String} {c : Cursor} {t : Token} {ts rest : List Token}

/-- A segment of a text has a place in it. -/
theorem of_mem {lexed : Lexed} {all : List Token}
    (hlexed : tokenize source o.dialect.doubleQuotedStrings = .ok lexed)
    (h : all ∈ segments lexed.tokens) : ∃ c t ts rest, all = t :: ts ∧ Segment source o c t ts rest ∧
      c.ending = lexed.ending := by
  obtain ⟨pre, t, ts, rest, hall, htokens, hinside, hbehind⟩ := exists_of_mem_segments h
  refine ⟨⟨[], t :: ts ++ rest, lexed.ending, 0⟩, t, ts, rest, hall,
    ⟨⟨pre, ?_⟩, hinside, hbehind, rfl⟩, rfl⟩
  rw [hlexed, ← htokens]

/-- A statement that is kept as written is its segment, and it is kept alone, too. -/
theorem unsupported (h : Segment source o c t ts rest) {d : Cursor}
    (hs : Parse.statementBody o source c = .ok (.unsupported text) d) :
    text = coveredText source (t :: ts) ∧ d.ahead = rest ∧
      parseStatement text o = .ok (.unsupported text) := by
  obtain ⟨htext, hd⟩ := eq_kept hs
  have hstop : d.AtStop := hd ▸ c.atStop_skipStatement
  obtain ⟨s, halone⟩ := h.alone_of_statementBody hs fun u hu => by
    obtain ⟨us, ha⟩ : ∃ us, d.ahead = u :: us := by
      cases ha : d.ahead with
      | nil => simp [ha] at hu
      | cons v vs => exact ⟨vs, by simpa [ha] using hu⟩
    simpa [Cursor.AtStop, Cursor.peek, ha] using hstop
  obtain ⟨d', hs', hahead, -⟩ := h.statementBody_of_alone halone
  rw [hs] at hs'
  obtain ⟨hshift, rfl⟩ : Statement.unsupported text = s.shift c.placeholders ∧ d = d' := by
    simpa using hs'
  obtain rfl : s = .unsupported text := by
    cases s <;> first | exact hshift.symm | cases hshift
  rw [h.statementText] at htext
  exact ⟨htext, hahead, htext ▸ halone⟩

/-- Where statements are kept, a segment that begins with unknown words, or with `SHOW`, is read. -/
theorem alone_of_unknown (h : Segment source o c t ts rest) (hk : o.keepUnsupported = true)
    (hu : (Cursor.ofLexed ⟨t :: ts, c.ending⟩).beginsUnknown = true) :
    ∃ s, parseStatement (coveredText source (t :: ts)) o = .ok s := by
  obtain ⟨d, keep⟩ := o
  obtain rfl : keep = true := hk
  obtain ⟨c', -, hending, hall, hanswered, hiff⟩ := h.alone
  have hpeek : ∀ n, c'.peek n = (Cursor.ofLexed ⟨t :: ts, c.ending⟩).peek n := by
    have hkinds : ∀ (c : Cursor) (n : Nat),
        c.peek n = ((c.ahead.map Token.kind)[n]?).getD .endOfInput := by
      intro c n
      unfold Cursor.peek
      rw [List.getElem?_map]
      cases c.ahead[n]? <;> rfl
    intro n
    rw [hkinds, hkinds, kinds_of_alike hall]
    rfl
  have hu' : c'.beginsUnknown = true := by
    rw [← hu]
    simp only [Cursor.beginsUnknown, hpeek]
  obtain ⟨s, e, hs, hstop⟩ := statementBody_of_unknown hending hu'
  rw [hs] at hanswered
  refine ⟨s, (hiff s).2 ⟨e, hs, ?_⟩⟩
  by_contra hne
  obtain ⟨v, vs, hv⟩ := List.exists_cons_of_ne_nil hne
  have hkinds := hanswered.2.1.ahead v (by simp [hv])
  have hpeek : e.peek 0 = v.kind := by simp [Cursor.peek, hv]
  rcases hstop with hs | hs
  · exact hkinds.1 (hpeek ▸ hs)
  · exact hkinds.2 (hpeek ▸ hs)

end Segment

/-! ## Texts -/

/-- Statements of one text are statements of its segments. -/
theorem renumbered_getElem? {n i : Nat} {pairs : List (List Token × Statement)} {s : Statement}
    (h : (renumbered n pairs)[i]? = some s) :
    ∃ ts s' m, pairs[i]? = some (ts, s') ∧ s = s'.shift m := by
  induction pairs generalizing n i with
  | nil => simp [renumbered] at h
  | cons p pairs ih =>
    obtain ⟨ts, s'⟩ := p
    cases i with
    | zero =>
      obtain rfl : s'.shift n = s := by simpa [renumbered] using h
      exact ⟨ts, s', n, rfl, rfl⟩
    | succ i => exact ih h

/-- A single statement that is kept is the one segment of its text. -/
theorem segment_of_parseStatement {source text : String} {o : Options}
    (h : parseStatement source o = .ok (.unsupported text)) :
    ∃ lexed ts, tokenize source o.dialect.doubleQuotedStrings = .ok lexed ∧
      segments lexed.tokens = [ts] ∧ text = coveredText source ts ∧
      parseStatement text o = .ok (.unsupported text) := by
  cases hlexed : tokenize source o.dialect.doubleQuotedStrings with
  | error e => simp [parseStatement_of_lexError hlexed] at h
  | ok lexed =>
    obtain ⟨e, he⟩ := (parseStatement_iff hlexed _).1 h
    have hending : lexed.ending.kind = .endOfInput := (Lexer.run_ending hlexed).1
    rw [singleStatement_apply] at he
    split at he
    · cases he
    cases hs : Parse.statementBody o source (Cursor.ofLexed lexed) with
    | error e d => simp [hs] at he
    | ok s d =>
      rw [hs] at he
      dsimp only at he
      split at he
      · next hend =>
        obtain ⟨rfl, -⟩ : s = .unsupported text ∧ _ := by simpa using he
        have hstart : ¬(Cursor.ofLexed lexed).AtStop := fun hstop => by
          rw [statementBody_of_atStop (c := Cursor.ofLexed lexed) hending hstop] at hs
          cases hs
        obtain ⟨t, ts, rest, hahead, hinside, hbehind⟩ := @exists_segment lexed.tokens
          (fun hnil => hstart (.inr (by simp [Cursor.ofLexed, Cursor.peek, hnil]))) fun u hu => by
            by_contra hsemi
            refine hstart (.inl ?_)
            obtain ⟨us, hus⟩ := List.head?_eq_some_iff.1 hu
            simpa [Cursor.ofLexed, Cursor.peek, hus, Token.isSemicolon] using hsemi
        have hsegment : Segment source o (Cursor.ofLexed lexed) t ts rest :=
          ⟨⟨[], by rw [← hahead]; exact hlexed⟩, hinside, hbehind, hahead⟩
        obtain ⟨htext, hd, halone⟩ := hsegment.unsupported hs
        refine ⟨lexed, t :: ts, rfl, ?_, htext, halone⟩
        -- Nothing but semicolons is left behind the segment.
        have hnone : rest.dropWhile Token.isSemicolon = [] := by
          by_contra hne
          obtain ⟨v, vs, hv⟩ := List.exists_cons_of_ne_nil hne
          have hmem : v ∈ lexed.tokens := by
            have hrest : v ∈ rest.dropWhile Token.isSemicolon := by simp [hv]
            rw [hahead]
            exact List.mem_append_right _ ((List.dropWhile_suffix _).subset hrest)
          refine (tokenize_kinds hlexed).1 v hmem ?_
          simpa [Cursor.behindSemicolons, Cursor.current, hd, hv] using hend
        rw [hahead, segments_append hinside hbehind]
        have hrest : segments rest.tail = segments rest := by
          cases rest with
          | nil => rfl
          | cons u us => exact (segments_semicolon (hbehind u rfl) us).symm
        rw [hrest, ← segments_dropWhile, hnone, segments_nil]
      · cases he

/-- A statement of several that is kept is a segment of its text. -/
theorem segment_of_parseStatements {source text : String} {o : Options} {ss : List Statement}
    {i : Nat} (h : parseStatements source o = .ok ss) (hi : ss[i]? = some (.unsupported text)) :
    ∃ lexed ts, tokenize source o.dialect.doubleQuotedStrings = .ok lexed ∧
      (segments lexed.tokens)[i]? = some ts ∧ text = coveredText source ts ∧
      parseStatement text o = .ok (.unsupported text) := by
  cases hlexed : tokenize source o.dialect.doubleQuotedStrings with
  | error e => simp [parseStatements_of_lexError hlexed] at h
  | ok lexed =>
    have hread : (Cursor.ofLexed lexed).Reading source o := ⟨[], hlexed⟩
    obtain ⟨alone, hall, rfl⟩ := (collect_segments hread (Nat.le_refl _) ss).1
      ((parseStatements_iff hlexed ss).1 h)
    obtain ⟨ts, s, m, hpair, hshift⟩ := renumbered_getElem? hi
    obtain rfl : s = .unsupported text := by
      cases s <;> first | exact hshift.symm | cases hshift
    have hparse : parseStatement (coveredText source ts) o = .ok (.unsupported text) :=
      List.forall₂_zip hall (List.mem_of_getElem? hpair)
    obtain ⟨hts, -⟩ := List.getElem?_zip_eq_some.1 hpair
    obtain ⟨c, t, us, rest, rfl, hsegment, -⟩ := Segment.of_mem hlexed (List.mem_of_getElem? hts)
    obtain ⟨d, hd, -⟩ := hsegment.statementBody_of_alone hparse
    obtain ⟨htext, -, halone⟩ := hsegment.unsupported hd
    exact ⟨lexed, t :: us, rfl, hts, htext, halone⟩

/-- A text is read if its segments are. -/
theorem parseStatements_of_segments {source : String} {o : Options} {lexed : Lexed}
    (hlexed : tokenize source o.dialect.doubleQuotedStrings = .ok lexed)
    (h : ∀ ts ∈ segments lexed.tokens, ∃ s, parseStatement (coveredText source ts) o = .ok s) :
    ∃ ss, parseStatements source o = .ok ss := by
  have hread : (Cursor.ofLexed lexed).Reading source o := ⟨[], hlexed⟩
  obtain ⟨alone, hall⟩ : ∃ alone,
      List.Forall₂ (fun ts s => parseStatement (coveredText source ts) o = .ok s)
        (segments lexed.tokens) alone := by
    generalize segments lexed.tokens = all at h
    induction all with
    | nil => exact ⟨[], .nil⟩
    | cons ts all ih =>
      obtain ⟨s, hs⟩ := h ts (by simp)
      obtain ⟨alone, halone⟩ := ih fun ts hts => h ts (List.mem_cons_of_mem _ hts)
      exact ⟨s :: alone, .cons hs halone⟩
  exact ⟨_, (parseStatements_iff hlexed _).2
    ((collect_segments hread (Nat.le_refl _) _).2 ⟨alone, hall, rfl⟩)⟩

/-- Without keeping statements just those are read that are read and not kept otherwise. -/
theorem parseStatement_keeping (source : String) (d : Dialect) (s : Statement) :
    parseStatement source ⟨d, false⟩ = .ok s ↔
      parseStatement source ⟨d, true⟩ = .ok s ∧ ∀ text, s ≠ .unsupported text := by
  cases hlexed : tokenize source d.doubleQuotedStrings with
  | error e =>
    have hf : tokenize source (⟨d, false⟩ : Options).dialect.doubleQuotedStrings = .error e := hlexed
    have ht : tokenize source (⟨d, true⟩ : Options).dialect.doubleQuotedStrings = .error e := hlexed
    simp [parseStatement_of_lexError hf, parseStatement_of_lexError ht]
  | ok lexed =>
    have hf : tokenize source (⟨d, false⟩ : Options).dialect.doubleQuotedStrings = .ok lexed := hlexed
    have ht : tokenize source (⟨d, true⟩ : Options).dialect.doubleQuotedStrings = .ok lexed := hlexed
    rw [parseStatement_iff hf, parseStatement_iff ht]
    exact singleStatement_iff d source _ s

/-- A statement that is kept as written is the text of its tokens up to the next semicolon, and
that text alone is kept, too. A statement that begins with `SHOW`, or with words that begin none of
the grammar, is read where statements are kept. Where they are not kept, just those statements are
read that are read and not kept otherwise. -/
theorem unsupported_verbatim (source : String) (o : Options) :
    (∀ text, parseStatement source o = .ok (.unsupported text) →
      ∃ lexed ts, tokenize source o.dialect.doubleQuotedStrings = .ok lexed ∧
        segments lexed.tokens = [ts] ∧ text = coveredText source ts ∧
        parseStatement text o = .ok (.unsupported text)) ∧
    (∀ ss (i : Nat) text, parseStatements source o = .ok ss → ss[i]? = some (.unsupported text) →
      ∃ lexed ts, tokenize source o.dialect.doubleQuotedStrings = .ok lexed ∧
        (segments lexed.tokens)[i]? = some ts ∧ text = coveredText source ts ∧
        parseStatement text o = .ok (.unsupported text)) ∧
    (∀ lexed, tokenize source o.dialect.doubleQuotedStrings = .ok lexed →
      o.keepUnsupported = true →
      (∀ ts ∈ segments lexed.tokens, (Cursor.ofLexed ⟨ts, lexed.ending⟩).beginsUnknown = true →
        ∃ s, parseStatement (coveredText source ts) o = .ok s) ∧
      ((∀ ts ∈ segments lexed.tokens,
          (Cursor.ofLexed ⟨ts, lexed.ending⟩).beginsUnknown = true ∨
            ∃ s, parseStatement (coveredText source ts) o = .ok s) →
        ∃ ss, parseStatements source o = .ok ss)) ∧
    (∀ s, parseStatement source ⟨o.dialect, false⟩ = .ok s ↔
      parseStatement source ⟨o.dialect, true⟩ = .ok s ∧ ∀ text, s ≠ .unsupported text) := by
  refine ⟨fun text h => segment_of_parseStatement h, fun ss i text h hi =>
    segment_of_parseStatements h hi, fun lexed hlexed hk => ?_, parseStatement_keeping source o.dialect⟩
  have hunknown : ∀ ts ∈ segments lexed.tokens,
      (Cursor.ofLexed ⟨ts, lexed.ending⟩).beginsUnknown = true →
        ∃ s, parseStatement (coveredText source ts) o = .ok s := by
    intro all hall hu
    obtain ⟨c, t, ts, rest, rfl, hsegment, hending⟩ := Segment.of_mem hlexed hall
    rw [← hending] at hu
    exact hsegment.alone_of_unknown hk hu
  refine ⟨hunknown, fun hevery => parseStatements_of_segments hlexed fun ts hts => ?_⟩
  exact (hevery ts hts).elim (hunknown ts hts) id

end SqlTree
