import Mathlib
import SqlTree.Proofs.Tracking.Session
import SqlTree.Proofs.Descent.Query

/-! # The readers of statements come to an end

* `consumes_insertStatement`, `consumes_updateStatement`, `consumes_deleteStatement`,
  `consumes_createTable`, `consumes_alterTable`: statements that change rows or declare tables.
* `consumes_statementBody`: any statement. `lasted_unsupported` is about one that is gone through
  again from its start: it is not left at its start, since its first token is no semicolon.
* `lasts_singleStatement`, `lasts_statements`: one statement, or all.
-/

namespace SqlTree
set_option autoImplicit false

namespace Parse

variable {r : Outset} {k : Nat} {g g' : Productions} (hg : g.Last r.inside g')

/-! ## Changing rows -/

theorem lasts_insertColumns : Lasts r insertColumns insertColumns :=
  .look (fun _ => rfl) fun _ => .look (fun _ => rfl) fun _ =>
    .ite (fun _ => consumes_identifiersInParens.still) fun _ => .pure _

section Rows

include hg

theorem consumes_assignment : Consumes r (assignment g) (assignment g') :=
  .after consumes_identifier fun _ =>
    .expectSymbol .equal (.next (hg.expr 0).inside fun _ => .pure _)

theorem consumes_assignments : Consumes r (assignments g) (assignments g') :=
  lasts_commaList (consumes_assignment hg)

omit hg in
theorem lasts_insertSource (hg : g.Last r g') :
    Lasts r (insertSource g) (insertSource g') := by
  refine .look (fun _ => rfl) fun _ => .ite (fun _ => ?_) fun _ => .takeKeyword .DEFAULT ?_ ?_
  · exact .next (consumes_valueRows hg.inside) fun _ => .pure _
  · exact .expectKeyword .VALUES (.pure _)
  · refine .look (fun _ => rfl) fun _ => .look (fun _ => rfl) fun _ => .ite (fun _ => ?_) fun _ => ?_
    · exact .next hg.query fun _ => .pure _
    · exact .fail _

theorem consumes_conflictAction : Consumes r (conflictAction g) (conflictAction g') := by
  refine .expectKeyword .DO (.takeKeyword .NOTHING (.pure _) ?_)
  refine .expectKeyword .UPDATE (.expectKeyword .SET ?_)
  exact .next (consumes_assignments hg.inside) fun _ => .pure _

theorem consumes_onConflict : Consumes r (onConflict g) (onConflict g') := by
  refine .expectKeyword .ON (.expectKeyword .CONFLICT (.next lasts_optionalIdentifiers fun _ => ?_))
  exact .next (consumes_conflictAction hg.inside) fun _ => .pure _

theorem consumes_insertStatement : Consumes r (insertStatement g) (insertStatement g') := by
  refine .expectKeyword .INSERT (.next (lasts_takeKeyword .INTO) fun _ => ?_)
  refine .next consumes_objectName fun _ => .next lasts_insertColumns fun _ => ?_
  refine .next (lasts_insertSource hg) fun _ => ?_
  exact .next (rounds_ifKeyword .ON (consumes_onConflict hg.inside)) fun _ => .pure _

theorem consumes_updateStatement : Consumes r (updateStatement g) (updateStatement g') := by
  refine .expectKeyword .UPDATE (.next consumes_objectName fun _ => ?_)
  refine .next lasts_optionalAlias fun _ => .expectKeyword .SET ?_
  refine .next (consumes_assignments hg.inside) fun _ => .next (lasts_fromClause hg.inside) fun _ => ?_
  exact .next (rounds_afterKeyword (r := r.inside) .WHERE (hg.expr 0)) fun _ => .pure _

theorem consumes_deleteStatement : Consumes r (deleteStatement g) (deleteStatement g') := by
  refine .expectKeyword .DELETE (.next (lasts_takeKeyword .FROM) fun _ => ?_)
  refine .next consumes_objectName fun _ => .next lasts_optionalAlias fun _ => ?_
  exact .next (rounds_afterKeyword (r := r.inside) .WHERE (hg.expr 0)) fun _ => .pure _

end Rows

/-! ## Columns and constraints -/

theorem lasts_ifNotExists : Lasts r ifNotExists ifNotExists :=
  .takeKeyword .IF (.expectKeyword .NOT (.expectKeyword .EXISTS (.pure _))) (.pure _)

theorem lasts_ifExists : Lasts r ifExists ifExists :=
  .takeKeyword .IF (.expectKeyword .EXISTS (.pure _)) (.pure _)

theorem consumes_foreignKeyRef : Consumes r foreignKeyRef foreignKeyRef :=
  .after consumes_objectName fun _ => .next lasts_optionalIdentifiers fun _ => .pure _

section Columns

include hg

theorem rounds_columnOption (column : ColumnDef) :
    Rounds r (columnOption g column) (columnOption g' column) := by
  refine .takeKeyword .NOT (.expectKeyword .NULL (.pure _)) (.takeKeyword .NULL (.pure _) ?_)
  refine .takeKeyword .DEFAULT (.next (hg.expr 0) fun _ => .pure _) ?_
  refine .takeKeyword .PRIMARY (.expectKeyword .KEY (.pure _)) ?_
  refine .takeKeyword .UNIQUE (.pure _) (.takeKeyword .AUTOINCREMENT (.pure _) ?_)
  exact .takeKeyword .REFERENCES (.next consumes_foreignKeyRef fun _ => .pure _) .nothing

theorem consumes_columnDef : Consumes r (columnDef g) (columnDef g') :=
  .after consumes_identifier fun _ => .next consumes_dataType fun _ =>
    lasts_repeatFrom (rounds_columnOption hg.inside) _

theorem consumes_constraintRule : Consumes r (constraintRule g) (constraintRule g') := by
  refine .takeKeyword .PRIMARY ?_ (.takeKeyword .UNIQUE ?_ (.takeKeyword .FOREIGN ?_ ?_))
  · exact .expectKeyword .KEY (.next consumes_identifiersInParens fun _ => .pure _)
  · exact .next consumes_identifiersInParens fun _ => .pure _
  · refine .expectKeyword .KEY (.next consumes_identifiersInParens fun _ => ?_)
    exact .expectKeyword .REFERENCES (.next consumes_foreignKeyRef fun _ => .pure _)
  · exact .takeKeyword .CHECK (.next (lasts_inParens (hg.expr 0).inside) fun _ => .pure _) (.fail _)

theorem consumes_tableConstraint : Consumes r (tableConstraint g) (tableConstraint g') :=
  .next (rounds_afterKeyword .CONSTRAINT consumes_identifier) fun _ =>
    .after (consumes_constraintRule hg) fun _ => .pure _

theorem consumes_tablePart : Consumes r (tablePart g) (tablePart g') := by
  refine .look (fun _ => rfl) fun _ => .ite (fun _ => ?_) fun _ => ?_
  · exact .after (consumes_tableConstraint hg) fun _ => .pure _
  · exact .after (consumes_columnDef hg) fun _ => .pure _

theorem lasts_tableParts : Lasts r (tableParts g) (tableParts g') :=
  .takeSymbol .leftParen (.next (lasts_commaList (consumes_tablePart hg.inside)) fun _ =>
    .expectSymbol .rightParen (.pure _)) (.pure _)

end Columns

/-! ## Creating a table -/

theorem lasts_temporaryWord : Lasts r temporaryWord temporaryWord :=
  .takeKeyword .TEMPORARY (.pure _) (lasts_takeKeyword .TEMP)

section Tables

include hg

theorem consumes_createTable : Consumes r (createTable g) (createTable g') := by
  refine .expectKeyword .CREATE (.next lasts_temporaryWord fun _ => .expectKeyword .TABLE ?_)
  refine .next lasts_ifNotExists fun _ => .next consumes_objectName fun _ => ?_
  refine .next (lasts_tableParts hg.inside) fun _ => ?_
  refine .next (rounds_afterKeyword (r := r.inside) .AS hg.query) fun _ => ?_
  exact .ite (fun _ => .fail _) fun _ => .pure _

/-! ## Changing a table -/

theorem consumes_setColumn : Consumes r (setColumn g) (setColumn g') := by
  refine .takeKeyword .DEFAULT (.next (hg.expr 0) fun _ => .pure _) ?_
  refine .takeKeyword .NOT (.expectKeyword .NULL (.pure _)) ?_
  refine .token fun kind _ _ => .ite (fun hw => ?_) fun _ => .fail _
  cases kind with
  | identifier name quote =>
    exact .advance (.expectKeyword .TYPE (.next consumes_dataType fun _ => .pure _))
  | _ => simp [isWord] at hw

omit hg in
theorem consumes_dropFromColumn : Consumes r dropFromColumn dropFromColumn :=
  .takeKeyword .DEFAULT (.pure _) (.expectKeyword .NOT (.expectKeyword .NULL (.pure _)))

theorem consumes_columnChange : Consumes r (columnChange g) (columnChange g') :=
  .takeKeyword .SET (consumes_setColumn hg.inside).still <|
    .takeKeyword .DROP consumes_dropFromColumn.still <|
      .takeKeyword .TYPE (.next consumes_dataType fun _ => .pure _) (.fail _)

theorem consumes_addToTable : Consumes r (addToTable g) (addToTable g') := by
  refine .look (fun _ => rfl) fun _ => .ite (fun _ => ?_) fun _ => ?_
  · exact .after (consumes_tableConstraint hg) fun _ => .pure _
  · refine .next (lasts_takeKeyword .COLUMN) fun _ => .next lasts_ifNotExists fun _ => ?_
    exact .after (consumes_columnDef hg) fun _ => .pure _

omit hg in
theorem consumes_dropFromTable : Consumes r dropFromTable dropFromTable := by
  refine .takeKeyword .CONSTRAINT ?_ (.next (lasts_takeKeyword .COLUMN) fun _ => ?_)
  · exact .next lasts_ifExists fun _ => .next consumes_identifier fun _ => .pure _
  · exact .next lasts_ifExists fun _ => .after consumes_identifier fun _ => .pure _

omit hg in
theorem consumes_renameInTable : Consumes r renameInTable renameInTable := by
  refine .takeKeyword .TO (.next consumes_objectName fun _ => .pure _) ?_
  refine .next (lasts_takeKeyword .COLUMN) fun _ => .after consumes_identifier fun _ => ?_
  exact .expectKeyword .TO (.next consumes_identifier fun _ => .pure _)

theorem consumes_alterInTable : Consumes r (alterInTable g) (alterInTable g') :=
  .next (lasts_takeKeyword .COLUMN) fun _ => .after consumes_identifier fun _ =>
    .next (consumes_columnChange hg.inside) fun _ => .pure _

theorem consumes_tableChange : Consumes r (tableChange g) (tableChange g') :=
  .takeKeyword .ADD (consumes_addToTable hg.inside).still <|
    .takeKeyword .DROP consumes_dropFromTable.still <|
      .takeKeyword .RENAME consumes_renameInTable.still <|
        .takeKeyword .ALTER (consumes_alterInTable hg.inside).still (.fail _)

theorem consumes_alterTable : Consumes r (alterTable g) (alterTable g') := by
  refine .expectKeyword .ALTER (.expectKeyword .TABLE (.next consumes_objectName fun _ => ?_))
  exact .next (lasts_commaList (consumes_tableChange hg.inside)) fun _ => .pure _

end Tables

/-! ## Settings -/

theorem lasts_attempt {α : Type} {p : Parse α} (h : Moves p) :
    Lasts r (attempt p) (attempt p) := by
  refine lasts_of_moves h.attempt fun c e d hr => ?_
  rw [attempt_apply] at hr
  cases hp : p c <;> simp [hp] at hr

/-- The word for indexes and the one behind it are under the cursor. -/
theorem lasts_indexesOf (word : IndexWord) : Lasts r (indexesOf word) (indexesOf word) := by
  refine .next lasts_advance fun _ => .next lasts_advance fun _ => ?_
  refine .next (lasts_attempt moves_objectName) fun table? => ?_
  cases table? with
  | none => exact .pure _
  | some table => exact .look (fun _ => rfl) fun _ => .ite (fun _ => .pure _) fun _ => .pure _

theorem consumes_knownShow : Consumes r knownShow knownShow := by
  have hvariable : Lasts r.inside
      (nameAt 0 >>= fun a => statementEndAt 1 >>= fun b =>
        if (a && b) = true then identifier >>= fun name => pure (some (Show.variable name))
        else pure none)
      (nameAt 0 >>= fun a => statementEndAt 1 >>= fun b =>
        if (a && b) = true then identifier >>= fun name => pure (some (Show.variable name))
        else pure none) := by
    refine .look (fun _ => rfl) fun _ => .look (fun _ => rfl) fun _ => .ite (fun _ => ?_) fun _ => ?_
    · exact .next consumes_identifier fun _ => .pure _
    · exact .pure _
  refine .expectKeyword .SHOW (.look (fun _ => rfl) fun _ => .look (fun _ => rfl) fun _ => ?_)
  split
  · exact lasts_indexesOf _
  · exact hvariable

end Parse

/-! ## Any statement -/

namespace Cursor

/-- At a token other than a semicolon there is something to go through. -/
theorem length_skipStatement_lt {c : Cursor} (hc : c.ending.kind = .endOfInput)
    (hs : c.current.kind ≠ .symbol .semicolon) (he : c.current.kind ≠ .endOfInput) :
    c.skipStatement.2.ahead.length < c.ahead.length := by
  have hskip : c.skipStatement.2.ahead = c.ahead.dropWhile fun t => t.kind != .symbol .semicolon :=
    rfl
  unfold current at hs he
  cases ha : c.ahead with
  | nil =>
    rw [ha] at he
    exact absurd hc he
  | cons t ts =>
    rw [ha] at hs
    have hinside : (t.kind != .symbol .semicolon) = true := bne_iff_ne.2 hs
    rw [hskip, ha, List.dropWhile_cons, if_pos hinside]
    exact Nat.lt_succ_of_le (List.dropWhile_suffix _).length_le

end Cursor

namespace Parse

variable {r : Outset} {o : Options} {source : String} {c : Cursor}

/-- The readers of statements that the grammar knows from their first words. -/
inductive ReadsStatement (g : Productions) : Parse Statement → Prop where
  | query : ReadsStatement g (do return .query (← g.query))
  | insert : ReadsStatement g (do return .insert (← insertStatement g))
  | update : ReadsStatement g (do return .update (← updateStatement g))
  | delete : ReadsStatement g (do return .delete (← deleteStatement g))
  | createTable : ReadsStatement g (do return .createTable (← createTable g))
  | alterTable : ReadsStatement g (do return .alterTable (← alterTable g))
  | none : ReadsStatement g (fail ["statement"])

/-- What reads the statement at a cursor. Before it is found out that the grammar does not know a
statement, no token is taken, unless the statement is about settings. -/
theorem statementBody_cases (o : Options) (source : String) (c : Cursor) :
    (∃ p, ReadsStatement (productions o.dialect c.ahead) p ∧ statementBody o source c = p c) ∨
    (c.current.kind ≠ .symbol .semicolon ∧ c.current.kind ≠ .endOfInput ∧
      statementBody o source c = kept o.keepUnsupported source c) ∨
    c.current.kind = .keyword .SHOW ∧
      statementBody o source c = showStatement o source c.position c := by
  have hcreate : ∃ b, createTableAt c = .ok b c := ⟨_, rfl⟩
  have halter : ∃ b, keywordAt 1 .TABLE c = .ok b c := ⟨_, rfl⟩
  have hkept := unsupported_position o source c
  rw [statementBody_apply]
  generalize c.current.kind = kind
  unfold statementFrom
  split
  · exact .inl ⟨_, .query, rfl⟩
  · exact .inl ⟨_, .query, rfl⟩
  · exact .inl ⟨_, .query, rfl⟩
  · exact .inl ⟨_, .query, rfl⟩
  · exact .inl ⟨_, .insert, rfl⟩
  · exact .inl ⟨_, .update, rfl⟩
  · exact .inl ⟨_, .delete, rfl⟩
  · obtain ⟨b, hb⟩ := hcreate
    rw [bind_apply, hb]
    cases b with
    | true => exact .inl ⟨_, .createTable, rfl⟩
    | false => exact .inr (.inl ⟨nofun, nofun, hkept⟩)
  · obtain ⟨b, hb⟩ := halter
    rw [bind_apply, hb]
    cases b with
    | true => exact .inl ⟨_, .alterTable, rfl⟩
    | false => exact .inr (.inl ⟨nofun, nofun, hkept⟩)
  · exact .inr (.inr ⟨rfl, rfl⟩)
  · exact .inr (.inl ⟨nofun, nofun, hkept⟩)
  · exact .inr (.inl ⟨nofun, nofun, hkept⟩)
  · exact .inl ⟨_, .none, rfl⟩

theorem consumes_readsStatement {g : Productions} (hg : g.Last r g) {p : Parse Statement}
    (hp : ReadsStatement g p) : Consumes r p p := by
  cases hp with
  | query => exact .after hg.query fun _ => .pure _
  | insert => exact .after (consumes_insertStatement hg.inside) fun _ => .pure _
  | update => exact .after (consumes_updateStatement hg.inside) fun _ => .pure _
  | delete => exact .after (consumes_deleteStatement hg.inside) fun _ => .pure _
  | createTable => exact .after (consumes_createTable hg.inside) fun _ => .pure _
  | alterTable => exact .after (consumes_alterTable hg.inside) fun _ => .pure _
  | none => exact .fail _

theorem lasted_kept {ample : Prop} {keep : Bool} (hc : c.ending.kind = .endOfInput)
    (hs : c.current.kind ≠ .symbol .semicolon) (he : c.current.kind ≠ .endOfInput) :
    Lasted ample (fun _ => True) c (kept keep source c) (kept keep source c) := by
  rw [kept_apply]
  split
  · exact .ok c.leads_skipStatement fun _ => Cursor.length_skipStatement_lt hc hs he
  · exact .error fun _ => nofun

theorem consumes_statementBody : Consumes r (statementBody o source) (statementBody o source) := by
  intro c hr _
  rcases statementBody_cases o source c with ⟨p, hp, hb⟩ | ⟨hs, he, hb⟩ | ⟨hk, hb⟩
  · rw [hb]
    have hg : (productions o.dialect c.ahead).Last ⟨c, hr.ended, r.ample, false⟩
        (productions o.dialect c.ahead) := last_productions c.ahead fun _ => Nat.le_refl _
    exact consumes_readsStatement hg hp c ⟨.refl c, nofun⟩ (Nat.zero_le _)
  · rw [hb]
    exact lasted_kept hr.ended hs he
  · rw [hb]
    have hshow := consumes_knownShow c hr (Nat.zero_le _)
    rw [showStatement_position]
    cases hq : knownShow c with
    | error e d => exact .error (hshow.fault e d hq)
    | ok request? d =>
      cases request? with
      | none => exact lasted_kept hr.ended (by rw [hk]; exact nofun) (by rw [hk]; exact nofun)
      | some request => exact .ok (hshow.leads _ d hq).1 fun _ => (hshow.leads _ d hq).2 trivial

/-! ## Several statements -/

theorem rounds_semicolon : Rounds r semicolon semicolon :=
  .takeSymbol .semicolon (.pure _) .nothing

theorem lasts_semicolons : Lasts r semicolons semicolons :=
  .next rounds_semicolon.collect fun _ => .pure _

theorem lasts_singleStatement : Lasts r (singleStatement o source) (singleStatement o source) := by
  refine .look atEnd_apply fun _ => .ite (fun _ => .fail _) fun _ => ?_
  refine .next consumes_statementBody fun _ => .next lasts_semicolons fun _ => ?_
  exact .look atEnd_apply fun _ => .ite (fun _ => .pure _) fun _ => .fail _

theorem rounds_nextStatement : Rounds r (nextStatement o source) (nextStatement o source) := by
  refine .next lasts_semicolons fun _ => .look atEnd_apply fun _ => .ite (fun _ => .nothing) fun _ => ?_
  refine .after consumes_statementBody fun _ => .takeSymbol .semicolon (.pure _) ?_
  exact .look atEnd_apply fun _ => .ite (fun _ => .pure _) fun _ => .fail _

theorem lasts_statements : Lasts r (statements o source) (statements o source) :=
  rounds_nextStatement.collect

end Parse
end SqlTree
