import Mathlib
import SqlTree.Session
import SqlTree.Proofs.Carrying.Segments
import SqlTree.Proofs.Widening.Query

/-! # Statements in the generic dialect

* `widens_insertStatement`, `widens_updateStatement`, `widens_createTable`, `widens_alterTable`:
  statements that change rows or declare tables.
* `widens_singleStatement`: a single statement, behind which nothing is left. So no statement ends at
  a barred place.
* `Lexer.run_bare`: a text without double quotes has the same tokens whatever they enclose.
* `parseStatement_widens`: the generic dialect reads what a narrow one reads.
-/

namespace SqlTree
set_option autoImplicit false

open Parse

namespace Parse

variable {d : Dialect} {e : Option Dialect} {g g' : Productions}

section Statements

variable (hg : g.Widen d g')

include hg

/-! ## Changing rows -/

theorem widens_assignments : Widens none (some d) (assignments g) (assignments g') := by
  have hassignment : Widens none (some d) (assignment g) (assignment g') :=
    .next fun _ => .next fun _ => .bind (hg.expr 0) fun _ => .pure _
  exact hassignment.commaList

theorem widens_insertStatement :
    Widens none (some d) (insertStatement g) (insertStatement g') := by
  have hsource : Widens none (some d) (insertSource g) (insertSource g') := by
    refine .next fun _ => .ite ?_ (.next fun _ => .ite (.refl _) ?_)
    · exact .bind (widens_valueRows hg) fun _ => .pure _
    · exact .next fun _ => .next fun _ => .ite (.bind hg.query fun _ => .pure _) (.fail _)
  have hconflict : Widens none (some d) (onConflict g) (onConflict g') := by
    refine .next fun _ => .next fun _ => .next fun _ => .bind ?_ fun _ => .pure _
    refine .next fun _ => .next fun _ => .ite (.refl _) (.next fun _ => .next fun _ => ?_)
    exact .bind (widens_assignments hg) fun _ => .pure _
  exact .next fun _ => .next fun _ => .next fun _ => .next fun _ => .bind hsource fun _ =>
    .bind (hconflict.ifKeyword _ (by decide)) fun _ => .pure _

theorem widens_where : Widens (some d) (some d) (afterKeyword .WHERE (g.expr 0))
    (afterKeyword .WHERE (g'.expr 0)) :=
  (hg.expr 0).afterKeyword _ (by decide)

theorem widens_updateStatement :
    Widens none (some d) (updateStatement g) (updateStatement g') :=
  .next fun _ => .next fun _ => .next fun _ => .next fun _ => .bind (widens_assignments hg) fun _ =>
    .bind (widens_fromClause hg) fun (_, _) => .bind (widens_where hg) fun _ => .pure _

theorem widens_deleteStatement :
    Widens none (some d) (deleteStatement g) (deleteStatement g') :=
  .next fun _ => .next fun _ => .next fun _ => .next fun _ => .bind (widens_where hg).fresh fun _ =>
    .pure _

/-! ## Columns and constraints -/

theorem widens_columnDef : Widens none (some d) (columnDef g) (columnDef g') := by
  have hoption : ∀ column, Widens (some d) (some d) (columnOption g column)
      (columnOption g' column) := fun _ =>
    .takeKeyword _ (.refl _) (.takeKeyword _ (.refl _) (.takeKeyword _
      (.bind (hg.expr 0) fun _ => .pure _) (.takeKeyword _ (.refl _) (.takeKeyword _ (.refl _)
        (.takeKeyword _ (.refl _) (.takeKeyword _ (.refl _) (.pure _) (by decide)) (by decide)) (by decide)) (by decide)) (by decide)) (by decide)) (by decide)
  exact .next fun _ => .next fun _ => (Widens.repeatFrom hoption _).fresh

theorem widens_tableConstraint :
    Widens none e (tableConstraint g) (tableConstraint g') := by
  have hrule : Widens none e (constraintRule g) (constraintRule g') := by
    refine .next fun _ => .ite (.refl _) (.next fun _ => .ite (.refl _)
      (.next fun _ => .ite (.refl _) (.next fun _ => .ite ?_ (.fail _))))
    exact .bind (hg.expr 0).inParens fun _ => .pure _
  exact .next fun _ => .bind hrule fun _ => .pure _

theorem widens_tableParts : Widens none none (tableParts g) (tableParts g') := by
  have hpart : Widens none (some d) (tablePart g) (tablePart g') :=
    .next fun _ => .ite (.bind (widens_tableConstraint hg) fun _ => .pure _)
      (.bind (widens_columnDef hg) fun _ => .pure _)
  exact .next fun _ => .ite (.bind hpart.commaList fun _ => .bind (.expectSymbol _ (by decide)) fun _ => .refl _)
    (.refl _)

theorem widens_createTable : Widens none (some d) (createTable g) (createTable g') := by
  refine .next fun _ => .next fun _ => .next fun _ => .next fun _ => .next fun _ =>
    .bind (widens_tableParts hg) fun _ => .bind (hg.query.afterKeyword _ (by decide)).fresh fun _ => ?_
  exact .ite (.fail _) (.pure _)

/-! ## Changing a table -/

theorem widens_alterTable : Widens none (some d) (alterTable g) (alterTable g') := by
  have hadd : Widens none (some d) (addToTable g) (addToTable g') :=
    .next fun _ => .ite (.bind (widens_tableConstraint hg) fun _ => .pure _)
      (.next fun _ => .next fun _ => .bind (widens_columnDef hg) fun _ => .pure _)
  have hset : Widens none (some d) (setColumn g) (setColumn g') :=
    .next fun _ => .ite (.bind (hg.expr 0) fun _ => .pure _) (.refl _)
  have halter : Widens none (some d) (alterInTable g) (alterInTable g') :=
    .next fun _ => .next fun _ => .bind (.next fun _ => .ite hset (.refl _)) fun _ => .pure _
  have hchange : Widens none (some d) (tableChange g) (tableChange g') :=
    .next fun _ => .ite hadd (.next fun _ => .ite (.refl _) (.next fun _ => .ite (.refl _)
      (.next fun _ => .ite halter (.fail _))))
  exact .next fun _ => .next fun _ => .next fun _ => .bind hchange.commaList fun _ => .pure _

end Statements

/-! ## Any statement -/

section Any

variable (hd : d.IsNarrow) (keep : Bool) (source : String)

include hd

theorem widens_statementBody : Widens none (some d) (statementBody ⟨d, keep⟩ source)
    (statementBody ⟨.generic, keep⟩ source) := by
  intro c
  have hg : (productions d c.ahead).Widen d (productions .generic c.ahead) :=
    widen_productions hd c.ahead
  have hknown : ∀ {α : Type} {p p' : Parse α} {f : α → Statement}, Widens none (some d) p p' →
      Widens none (some d) (p >>= fun a => pure (f a)) (p' >>= fun a => pure (f a)) :=
    fun hp => .bind hp fun _ => .pure _
  have hkept : Widens none (some d) (unsupported ⟨d, keep⟩ source c.position)
      (unsupported ⟨.generic, keep⟩ source c.position) := .refl _
  have hshow : Widens none (some d) (showStatement ⟨d, keep⟩ source c.position)
      (showStatement ⟨.generic, keep⟩ source c.position) := .refl _
  rw [statementBody_apply, statementBody_apply]
  generalize productions d c.ahead = g at hg
  generalize productions .generic c.ahead = g' at hg
  generalize c.current.kind = kind
  unfold statementFrom
  split
  · exact hknown hg.query c
  · exact hknown hg.query c
  · exact hknown hg.query c
  · exact hknown hg.query c
  · exact hknown (widens_insertStatement hg) c
  · exact hknown (widens_updateStatement hg) c
  · exact hknown (widens_deleteStatement hg) c
  · exact Widens.next (fun _ => .ite (hknown (widens_createTable hg)) hkept) c
  · exact Widens.next (fun _ => .ite (hknown (widens_alterTable hg)) hkept) c
  · exact hshow c
  · exact hkept c
  · exact hkept c
  · exact Widens.fail _ c

/-- Behind a single statement nothing is left but semicolons, and no barred place is the end. -/
theorem widens_singleStatement : Widens none none (singleStatement ⟨d, keep⟩ source)
    (singleStatement ⟨.generic, keep⟩ source) := by
  have hsemicolons : Widens (some d) (some d) semicolons semicolons :=
    .bind (.collect (.takeSymbol _ (.refl _) (.pure _) (by decide))) fun _ => .pure _
  refine .next fun _ => .ite (.refl _) (.bind (widens_statementBody hd keep source) fun s => ?_)
  refine .bind hsemicolons fun _ => ?_
  have hend : ∀ c : Cursor, c.Barred (some d) → atEnd c = .ok false c := by
    intro c hc
    rw [atEnd_apply, Cursor.current_kind_of_barred hc]
    rcases hc.kind with h | h | h <;> rw [h] <;> rfl
  exact .test hend (.refl _) (.fail _)

end Any

end Parse

/-! ## Texts without double quotes -/

theorem scanToken_bare {cs : List Char} (h : '"' ∉ cs) : scanToken true cs = scanToken false cs := by
  unfold scanToken
  split
  · rfl
  · rfl
  · simp at h
  · rfl
  · rfl
  · rfl
  · rfl
  · rfl

theorem Lexer.run_bare {rest : List Char} (h : '"' ∉ rest) (position : Position) :
    (Lexer.mk true rest position).run = (Lexer.mk false rest position).run := by
  induction hn : rest.length using Nat.strong_induction_on generalizing rest position with
  | _ n ih =>
    have hskip := Trivia.skip_append rest
    have hscan := scanToken_append false (Trivia.skip rest).2
    have htrivia : '"' ∉ (Trivia.skip rest).2 := fun hm => h (by
      rw [← hskip]
      exact List.mem_append_right _ hm)
    have hrest : '"' ∉ (scanToken false (Trivia.skip rest).2).rest := fun hm => htrivia (by
      rw [← hscan]
      exact List.mem_append_right _ hm)
    -- Both lexers answer the same and go on with the same text.
    obtain ⟨outcome, stop, ht, hf⟩ : ∃ outcome stop,
        (Lexer.mk true rest position).next =
          (outcome, ⟨true, (scanToken false (Trivia.skip rest).2).rest, stop⟩) ∧
        (Lexer.mk false rest position).next =
          (outcome, ⟨false, (scanToken false (Trivia.skip rest).2).rest, stop⟩) := by
      simp only [Lexer.next, scanToken_bare htrivia]
      exact ⟨_, _, rfl, rfl⟩
    cases outcome with
    | error e => rw [run_of_error ht, run_of_error hf]
    | ok t =>
      by_cases hk : t.kind = .endOfInput
      · rw [run_of_end ht hk, run_of_end hf hk]
      · have hlength := next_length hf hk
        rw [run_of_token ht hk, run_of_token hf hk, ih _ (hn ▸ hlength) hrest stop rfl]

theorem tokenize_bare {text : String} (h : '"' ∉ text.toList) :
    tokenize text true = tokenize text false :=
  Lexer.run_bare h {}

/-! ## Whole texts -/

/-- The generic dialect reads a text as a narrow one does, if both see the same tokens. -/
theorem parseStatement_of_narrow {d : Dialect} (hd : d.IsNarrow) {source : String}
    (ht : tokenize source d.doubleQuotedStrings = tokenize source false) {keep : Bool} {t : Statement}
    (h : parseStatement source ⟨d, keep⟩ = .ok t) :
    parseStatement source ⟨.generic, keep⟩ = .ok t := by
  cases hl : tokenize source false with
  | error e =>
    rw [parseStatement_of_lexError (ht.trans hl)] at h
    cases h
  | ok lexed =>
    have hgeneric : tokenize source (⟨.generic, keep⟩ : Options).dialect.doubleQuotedStrings =
        .ok lexed := hl
    obtain ⟨c, hc⟩ := (parseStatement_iff (ht.trans hl) t).1 h
    rw [parseStatement_iff hgeneric]
    obtain ⟨-, hsame | hbarred⟩ := widens_singleStatement hd keep source _ t c hc
    · exact ⟨c, hsame⟩
    · exact hbarred.elim

/-- The generic dialect reads every statement that one of the narrower ones reads, as the same tree.
Where double quotes enclose strings in the narrower one, there may be none. -/
theorem parseStatement_widens (source : String) (keep : Bool) (t : Statement) :
    (parseStatement source ⟨.clickHouse, keep⟩ = .ok t →
      parseStatement source ⟨.generic, keep⟩ = .ok t) ∧
    ('"' ∉ source.toList → parseStatement source ⟨.bigQuery, keep⟩ = .ok t →
      parseStatement source ⟨.generic, keep⟩ = .ok t) :=
  ⟨parseStatement_of_narrow (.inr rfl) rfl,
    fun h => parseStatement_of_narrow (.inl rfl) (tokenize_bare h)⟩

end SqlTree
