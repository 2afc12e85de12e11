import Mathlib
import SqlTree.Proofs.Carrying.Verbatim
import SqlTree.Proofs.Lexing.Respaced

/-! # Layout does not matter

* `agrees_statementBody`, `agrees_singleStatement`: where statements are not kept as written, a
  statement is read in one text as it is in another one with tokens that look the same.
* `parseStatement_respaced`: a text that differs from another in its blanks alone has tokens of the
  same kinds, and the statement that is read in one is read in the other.

Only a statement that is kept as written shows the text around its tokens, and the place where it
begins. Without keeping, such a statement is no answer, and no reader sees more of a token than its
kind and its text.
-/

namespace SqlTree
set_option autoImplicit false

open Parse

namespace Parse

variable {α β : Type} {d : Dialect} {source source' : String}

/-! ## Settings -/

theorem agrees_statementEndAt (n : Nat) :
    Agrees (statementEndAt n) (statementEndAt n) fun _ => True :=
  (agrees_peek n).next fun _ => .pure trivial

/-- Where a reader may stop, it is no matter at which place it does if nothing is read then. -/
theorem Agrees.attempt {p p' : Parse α} {f f' : Option α → Parse β} {P : α → Prop} {R : β → Prop}
    (hp : Agrees p p' P) (hnone : ∀ c, ∃ e c', f none c = .error e c')
    (hsome : ∀ a, Agrees (f (some a)) (f' (some a)) R) :
    Agrees (attempt p >>= f) (attempt p' >>= f') R := by
  intro c c' hc
  rw [bind_apply, bind_apply]
  rw [attempt_apply, attempt_apply]
  cases hr : p c with
  | error e d =>
    obtain ⟨e', d', he⟩ := hnone d
    dsimp only
    rw [he]
    exact .error _ _ _
  | ok a d =>
    obtain ⟨-, d', hr', hd⟩ := hp c c' hc a d hr
    rw [hr']
    exact hsome a d d' hd

/-- Where statements are not kept, one that the grammar does not know is no answer. -/
theorem agrees_unsupported (start : Nat) (p' : Parse Statement) :
    Agrees (unsupported ⟨d, false⟩ source start) p' fun _ => True :=
  fun _ _ _ => .error _ _ _

/-- The indexes of a table, where nothing is answered if they are not all of the statement. -/
theorem agrees_indexesOf (word : IndexWord) {f f' : Option Show → Parse α} {R : α → Prop}
    (hnone : Agrees (f none) (f' none) R) (herror : ∀ c, ∃ e c', f none c = .error e c')
    (hsome : ∀ s, Agrees (f (some s)) (f' (some s)) R) :
    Agrees (indexesOf word >>= f) (indexesOf word >>= f') R := by
  unfold indexesOf
  simp only [bind_assoc]
  refine agrees_advance.next fun _ => agrees_advance.next fun _ =>
    agrees_objectName.attempt herror fun table => ?_
  dsimp only
  simp only [bind_assoc]
  refine (agrees_statementEndAt 0).next fun b => ?_
  cases b with
  | true => exact hsome _
  | false => exact hnone

/-- A setting of an unknown form is refused, wherever its form is found to be unknown. -/
theorem agrees_showStatement (start start' : Nat) :
    Agrees (showStatement ⟨d, false⟩ source start) (showStatement ⟨d, false⟩ source' start')
      fun _ => True := by
  have hvariable : Agrees (do
        if (← nameAt 0) && (← statementEndAt 1) then return some (Show.variable (← identifier))
        else return none : Parse (Option Show)) (do
        if (← nameAt 0) && (← statementEndAt 1) then return some (.variable (← identifier))
        else return none) fun _ => True :=
    (agrees_nameAt 0).next fun _ => (agrees_statementEndAt 1).next fun _ =>
      .ite (agrees_identifier.next fun _ => .pure trivial) (.pure trivial)
  have hanswer : ∀ F F' : Option Show → Parse Statement,
      F none = unsupported ⟨d, false⟩ source start →
      (∀ request, F (some request) = Pure.pure (Statement.show request)) →
      (∀ request, F' (some request) = Pure.pure (Statement.show request)) →
      ∀ request?, Agrees (F request?) (F' request?) fun _ => True := by
    intro F F' hnone hsome hsome' request?
    cases request? with
    | none =>
      rw [hnone]
      exact agrees_unsupported start _
    | some request =>
      rw [hsome, hsome']
      exact .pure trivial
  unfold showStatement knownShow
  simp only [bind_assoc]
  refine (agrees_expectKeyword .SHOW).next fun _ => .token fun kind span span' text =>
    (agrees_anyKeywordAt 1 _).next fun b => ?_
  dsimp only
  cases indexWord? kind with
  | none => exact hvariable.next (hanswer _ _ rfl (fun _ => rfl) fun _ => rfl)
  | some word =>
    cases b with
    | false => exact hvariable.next (hanswer _ _ rfl (fun _ => rfl) fun _ => rfl)
    | true =>
      exact agrees_indexesOf word (agrees_unsupported start _)
        (fun c => ⟨_, _, rfl⟩) fun _ => .pure trivial

theorem agrees_createTableAt : Agrees createTableAt createTableAt fun _ => True :=
  (agrees_anyKeywordAt 1 _).next fun _ => (agrees_keywordAt 1 .TABLE).next fun _ =>
    (agrees_keywordAt 2 .TABLE).next fun _ => .pure trivial

/-! ## Any statement -/

theorem agrees_statementBody : Agrees (statementBody ⟨d, false⟩ source)
    (statementBody ⟨d, false⟩ source') fun _ => True := by
  intro c c' hc
  have hunsupported : Agrees (unsupported ⟨d, false⟩ source c.position)
      (unsupported ⟨d, false⟩ source' c'.position) fun _ => True := agrees_unsupported c.position _
  have hg : (productions d c.ahead).Agree d (productions d c'.ahead) :=
    agree_productions d _ _ hc.length_eq.le
  have hquery : Agrees (do return .query (← (productions d c.ahead).query))
      (do return Statement.query (← (productions d c'.ahead).query)) fun _ => True :=
    hg.query.bind fun _ _ => .pure trivial
  rw [statementBody_apply, statementBody_apply, ← hc.current.1]
  generalize c.current.kind = kind
  unfold statementFrom
  split
  · exact hquery c c' hc
  · exact hquery c c' hc
  · exact hquery c c' hc
  · exact hquery c c' hc
  · exact ((agrees_insertStatement hg).bind fun _ _ => .pure trivial) c c' hc
  · exact ((agrees_updateStatement hg).bind fun _ _ => .pure trivial) c c' hc
  · exact ((agrees_deleteStatement hg).bind fun _ _ => .pure trivial) c c' hc
  · have hcreate := (agrees_createTable hg).bind (f := fun s => Pure.pure (Statement.createTable s))
      (R := fun _ => True) fun _ _ => .pure trivial
    exact (agrees_createTableAt.next fun _ => .ite hcreate hunsupported) c c' hc
  · have halter := (agrees_alterTable hg).bind (f := fun s => Pure.pure (Statement.alterTable s))
      (R := fun _ => True) fun _ _ => .pure trivial
    exact ((agrees_keywordAt 1 .TABLE).next fun _ => .ite halter hunsupported) c c' hc
  · exact agrees_showStatement c.position c'.position c c' hc
  · exact hunsupported c c' hc
  · exact hunsupported c c' hc
  · exact .error _ _ _

theorem agrees_semicolons : Agrees semicolons semicolons fun _ => True := by
  have hsemicolon : Agrees semicolon semicolon fun o => ∀ a ∈ o, True :=
    (agrees_takeSymbol .semicolon).next fun _ => .ite (.pure (by simp)) (.pure (by simp))
  exact hsemicolon.collect.bind fun _ _ => .pure trivial

theorem agrees_atEnd : Agrees atEnd atEnd fun _ => True :=
  .token fun _ _ _ _ => .pure trivial

theorem agrees_singleStatement : Agrees (singleStatement ⟨d, false⟩ source)
    (singleStatement ⟨d, false⟩ source') fun _ => True :=
  agrees_atEnd.next fun _ => .ite (.fail _ _) <| agrees_statementBody.next fun _ =>
    agrees_semicolons.next fun _ => agrees_atEnd.next fun _ => .ite (.pure trivial) (.fail _ _)

end Parse

/-! ## Whole texts -/

/-- Where the tokens of two texts look alike, a statement that is read in one, and is not kept as
written, is read in the other. -/
theorem parseStatement_of_alike {source source' : String} {o : Options} {lexed lexed' : Lexed}
    (h : tokenize source o.dialect.doubleQuotedStrings = .ok lexed)
    (h' : tokenize source' o.dialect.doubleQuotedStrings = .ok lexed')
    (hlike : (Cursor.ofLexed lexed).Alike (Cursor.ofLexed lexed')) {s : Statement}
    (hs : parseStatement source o = .ok s) (hknown : ∀ text, s ≠ .unsupported text) :
    parseStatement source' o = .ok s := by
  obtain ⟨d, keep⟩ := o
  have hread : parseStatement source ⟨d, false⟩ = .ok s := by
    cases keep with
    | false => exact hs
    | true => exact (parseStatement_keeping source d s).2 ⟨hs, hknown⟩
  obtain ⟨c, hc⟩ := (parseStatement_iff (o := ⟨d, false⟩) h s).1 hread
  have hagrees : Agrees (singleStatement ⟨d, false⟩ source) (singleStatement ⟨d, false⟩ source')
      fun _ => True := agrees_singleStatement
  obtain ⟨-, c', hc', -⟩ := hagrees _ _ hlike s c hc
  have hread' : parseStatement source' ⟨d, false⟩ = .ok s :=
    (parseStatement_iff (o := ⟨d, false⟩) h' s).2 ⟨c', hc'⟩
  cases keep with
  | false => exact hread'
  | true => exact ((parseStatement_keeping source' d s).1 hread').1

/-- A text with the same slices, and blanks between each two of them, has tokens of the same kinds.
A statement that is read in the one text, and is not kept as written, is read in the other. -/
theorem parseStatement_respaced {source source' : String} {o : Options} {lexed : Lexed}
    (h : tokenize source o.dialect.doubleQuotedStrings = .ok lexed)
    (hr : Respaced source lexed.tokens source'.toList) :
    (∃ lexed', tokenize source' o.dialect.doubleQuotedStrings = .ok lexed' ∧
      lexed'.tokens.map Token.kind = lexed.tokens.map Token.kind ∧
      lexed'.ending.kind = lexed.ending.kind) ∧
    ∀ s, parseStatement source o = .ok s → (∀ text, s ≠ .unsupported text) →
      parseStatement source' o = .ok s := by
  obtain ⟨lexed', h', hlike⟩ := tokenize_respaced h hr
  refine ⟨⟨lexed', h', ?_, hlike.ending.1.symm⟩, fun s => parseStatement_of_alike h h' hlike⟩
  have hkinds := hlike.ahead.imp fun _ _ ht => ht.1
  rw [← List.forall₂_eq_eq_eq, List.forall₂_map_left_iff, List.forall₂_map_right_iff]
  exact hkinds.flip.imp fun _ _ => Eq.symm

theorem parseStatement_respaced_comparison :
    ∃ lexed s, tokenize "SELECT a<>1e3--b" false = .ok lexed ∧
      Respaced "SELECT a<>1e3--b" lexed.tokens "SELECT\n a <> 1e3 ".toList ∧
      parseStatement "SELECT a<>1e3--b" {} = .ok s ∧
      parseStatement "SELECT\n a <> 1e3 " {} = .ok s := by
  have hlexed : tokenize "SELECT a<>1e3--b" false = .ok
      ⟨[⟨.keyword .SELECT, ⟨0, 6⟩, "SELECT"⟩, ⟨.identifier "a" none, ⟨7, 8⟩, "a"⟩,
        ⟨.symbol .notEqual, ⟨8, 10⟩, "<>"⟩, ⟨.float "1e3", ⟨10, 13⟩, "1e3"⟩],
        ⟨.endOfInput, ⟨16, 16⟩, ""⟩⟩ :=
    Lexer.run_of_steps (by simp) rfl (by with_unfolding_all rfl)
  have hrespaced : Respaced "SELECT a<>1e3--b"
      [⟨.keyword .SELECT, ⟨0, 6⟩, "SELECT"⟩, ⟨.identifier "a" none, ⟨7, 8⟩, "a"⟩,
        ⟨.symbol .notEqual, ⟨8, 10⟩, "<>"⟩, ⟨.float "1e3", ⟨10, 13⟩, "1e3"⟩]
      "SELECT\n a <> 1e3 ".toList := by
    have hnone : ∀ c ∈ ([] : List Char), Text.isBlank c = true := by simp
    have hblank : ∀ c ∈ [' '], Text.isBlank c = true := by simp; decide
    have hblanks : ∀ c ∈ ['\n', ' '], Text.isBlank c = true := by simp; decide
    -- The new text, taken apart into blanks and slices.
    have htext : "SELECT\n a <> 1e3 ".toList =
        [] ++ ((Span.slice ⟨0, 6⟩ "SELECT a<>1e3--b").toList ++
        (['\n', ' '] ++ ((Span.slice ⟨7, 8⟩ "SELECT a<>1e3--b").toList ++
        ([' '] ++ ((Span.slice ⟨8, 10⟩ "SELECT a<>1e3--b").toList ++
        ([' '] ++ ((Span.slice ⟨10, 13⟩ "SELECT a<>1e3--b").toList ++ [' ']))))))) := by cbv
    rw [htext]
    exact .cons hnone (fun _ => ⟨'\n', rfl, by decide⟩) <|
      .cons hblanks (fun _ => ⟨' ', rfl, by decide⟩) <|
      .cons hblank (fun _ => ⟨' ', rfl, by decide⟩) <|
      .cons hblank (by simp) (.nil hblank)
  have hs : parseStatement "SELECT a<>1e3--b" {} = .ok (.query ⟨none, .select ⟨false,
      [⟨.binary (.column ⟨none, ⟨"a", none⟩⟩) .notEqual (.literal (.float "1e3")), none⟩], none, [],
      none, [], none, none⟩, [], none, none, none⟩) :=
    (parseStatement_iff (o := {}) hlexed _).2 ⟨_, rfl⟩
  exact ⟨_, _, hlexed, hrespaced, hs,
    (parseStatement_respaced (o := {}) hlexed hrespaced).2 _ hs fun _ => by simp⟩

end SqlTree
