import Mathlib
import SqlTree.Proofs.Naming.Query
import SqlTree.Proofs.Tracking.Statement

/-! # The names in statements that are read

* `gives_insertStatement`, `gives_createTable`, …: all names in statements of each kind are legal.
* `gives_statementBody`: so are all names in any statement.
* `gives_singleStatement`, `gives_statements`: so are they in all statements of a text.
-/

namespace SqlTree
set_option autoImplicit false

open Parse

namespace Parse

variable {dq : Bool} {g : Productions}

/-! ## Statements that change rows -/

section Rows

variable (hg : g.Name dq)

include hg

theorem gives_assignments : Gives dq (assignments g) fun as =>
    LegalNames dq (Assignment.parts as) (Assignment.names as) := by
  have hassignment : Gives dq (assignment g) fun a =>
      (Part.expr a.value).AllNamed dq ∧ a.column.Legal dq :=
    gives_identifier.bind fun _ hi => .next (moves_expectSymbol _) fun _ =>
      (hg.expr 0).bind fun _ he => .pure ⟨he, hi⟩
  refine hassignment.commaList.mono fun as h => ⟨?_, ?_⟩
  · simpa only [Assignment.parts, List.forall_mem_map] using fun a ha => (h a ha).1
  · simpa only [Assignment.names, List.forall_mem_map] using fun a ha => (h a ha).2

theorem gives_insertSource : Gives dq (insertSource g) fun s => ∀ p ∈ s.parts, p.AllNamed dq := by
  refine .next (moves_keywordAt 0 _) fun _ => .ite ?_
    (.next (moves_takeKeyword _) fun _ => .ite ?_ ?_)
  · exact (gives_valueRows hg).bind fun _ h => .pure h
  · exact .next (moves_expectKeyword _) fun _ => .pure (by simp [InsertSource.parts])
  · refine .next (moves_queryAt 0) fun _ => .next (moves_symbolAt 0 _) fun _ => .ite ?_ (.fail _)
    exact hg.query.bind fun _ hq => .pure (by simpa [InsertSource.parts] using hq)

theorem gives_onConflict :
    Gives dq (onConflict g) fun c => LegalNames dq c.action.parts c.names := by
  have haction : Gives dq (conflictAction g) fun a => LegalNames dq a.parts a.names :=
    .next (moves_expectKeyword _) fun _ => .next (moves_takeKeyword _) fun _ => .ite (.pure .nil)
      (.next (moves_expectKeyword _) fun _ => .next (moves_expectKeyword _) fun _ =>
        (gives_assignments hg).bind fun _ h => .pure h)
  exact .next (moves_expectKeyword _) fun _ => .next (moves_expectKeyword _) fun _ =>
    gives_optionalIdentifiers.bind fun _ hc => haction.bind fun _ ha =>
      .pure ⟨ha.parts, List.forall_mem_append.2 ⟨hc, ha.names⟩⟩

theorem gives_insertStatement :
    Gives dq (insertStatement g) fun i => (Statement.insert i).Named dq := by
  have hcolumns : Gives dq insertColumns fun is => ∀ i ∈ is, i.Legal dq :=
    .next (moves_symbolAt 0 _) fun _ => .next (moves_queryAt 1) fun _ =>
      .ite gives_identifiersInParens (.pure (by simp))
  refine .next (moves_expectKeyword _) fun _ => .next (moves_takeKeyword _) fun _ =>
    gives_objectName.bind fun table ht => hcolumns.bind fun columns hc =>
      (gives_insertSource hg).bind fun source hs =>
        ((gives_onConflict hg).ifKeyword _).bind fun conflict? ho => .pure ?_
  have hnames : ∀ i ∈ table.parts ++ columns, i.Legal dq := List.forall_mem_append.2 ⟨ht, hc⟩
  exact LegalNames.append ⟨hs, hnames⟩ (.optional ho)

theorem gives_updateStatement :
    Gives dq (updateStatement g) fun u => (Statement.update u).Named dq := by
  refine .next (moves_expectKeyword _) fun _ => gives_objectName.bind fun table ht =>
    gives_optionalAlias.bind fun alias? ha => .next (moves_expectKeyword _) fun _ =>
      (gives_assignments hg).bind fun assignments has => (gives_fromClause hg).bind
        fun (source, joins) hf => ((hg.expr 0).afterKeyword _).bind fun condition hc =>
          .pure ⟨?_, ?_⟩
  · simp only [Statement.parts, Part.exprs, List.forall_mem_append, List.forall_mem_map,
      Option.mem_toList]
    exact ⟨⟨⟨has.parts, hf.1⟩, hf.2.parts⟩, hc⟩
  · simp only [Statement.names, Update.names, List.forall_mem_append]
    exact ⟨⟨⟨ht, ha⟩, has.names⟩, hf.2.names⟩

theorem gives_deleteStatement :
    Gives dq (deleteStatement g) fun s => (Statement.delete s).Named dq := by
  refine .next (moves_expectKeyword _) fun _ => .next (moves_takeKeyword _) fun _ =>
    gives_objectName.bind fun table ht => gives_optionalAlias.bind fun alias? ha =>
      ((hg.expr 0).afterKeyword _).bind fun condition hc =>
        .pure ⟨?_, List.forall_mem_append.2 ⟨ht, ha⟩⟩
  simp only [Statement.parts, Part.exprs, List.forall_mem_map, Option.mem_toList]
  exact hc

end Rows

/-! ## Statements about tables -/

theorem gives_foreignKeyRef : Gives dq foreignKeyRef fun r => ∀ i ∈ r.names, i.Legal dq :=
  gives_objectName.bind fun _ ht => gives_optionalIdentifiers.bind fun _ hc =>
    .pure (List.forall_mem_append.2 ⟨ht, hc⟩)

/-- An option that holds neither names nor parts. -/
theorem named_withOption {c c' : ColumnDef} (h : LegalNames dq c.parts c.names)
    (hn : c'.names = c.names) (hp : c'.parts = c.parts) :
    ∀ c'' ∈ some c', LegalNames dq c''.parts c''.names := by
  rintro _ ⟨⟩
  rwa [hn, hp]

section Tables

variable (hg : g.Name dq)

include hg

theorem gives_columnOption {column : ColumnDef} (h : LegalNames dq column.parts column.names) :
    Gives dq (columnOption g column) fun o => ∀ c ∈ o, LegalNames dq c.parts c.names := by
  refine .next (moves_takeKeyword _) fun _ => .ite ?_ ?_
  · exact .next (moves_expectKeyword _) fun _ => .pure (named_withOption h rfl rfl)
  refine .next (moves_takeKeyword _) fun _ => .ite (.pure (named_withOption h rfl rfl)) ?_
  refine .next (moves_takeKeyword _) fun _ => .ite ?_ ?_
  · refine (hg.expr 0).bind fun e he => .pure ?_
    rintro _ ⟨⟩
    exact ⟨by simpa [ColumnDef.parts, Part.exprs] using he, h.names⟩
  refine .next (moves_takeKeyword _) fun _ => .ite ?_ ?_
  · exact .next (moves_expectKeyword _) fun _ => .pure (named_withOption h rfl rfl)
  refine .next (moves_takeKeyword _) fun _ => .ite (.pure (named_withOption h rfl rfl)) ?_
  refine .next (moves_takeKeyword _) fun _ => .ite (.pure (named_withOption h rfl rfl)) ?_
  refine .next (moves_takeKeyword _) fun _ => .ite ?_ .none
  refine gives_foreignKeyRef.bind fun r hr => .pure ?_
  rintro _ ⟨⟩
  refine ⟨h.parts, List.forall_mem_append.2 ⟨(List.forall_mem_append.1 h.names).1, ?_⟩⟩
  simpa using hr

theorem gives_columnDef : Gives dq (columnDef g) fun c => LegalNames dq c.parts c.names := by
  refine gives_identifier.bind fun name hn => gives_dataType.bind fun type ht => ?_
  refine .repeatFrom ⟨by simp [ColumnDef.parts, Part.exprs], ?_⟩ fun _ h => gives_columnOption hg h
  exact List.forall_mem_append.2 ⟨List.forall_mem_cons.2 ⟨hn, ht⟩, by simp⟩

theorem gives_tableConstraint :
    Gives dq (tableConstraint g) fun c => LegalNames dq c.parts c.names := by
  have hrule : Gives dq (constraintRule g) fun r =>
      (∀ e, r = .check e → (Part.expr e).AllNamed dq) ∧ ∀ i ∈ r.names, i.Legal dq := by
    refine .next (moves_takeKeyword _) fun _ => .ite ?_ ?_
    · exact .next (moves_expectKeyword _) fun _ => gives_identifiersInParens.bind fun _ h =>
        .pure ⟨by simp, h⟩
    refine .next (moves_takeKeyword _) fun _ => .ite ?_ ?_
    · exact gives_identifiersInParens.bind fun _ h => .pure ⟨by simp, h⟩
    refine .next (moves_takeKeyword _) fun _ => .ite ?_ ?_
    · exact .next (moves_expectKeyword _) fun _ => gives_identifiersInParens.bind fun _ h =>
        .next (moves_expectKeyword _) fun _ => gives_foreignKeyRef.bind fun _ hr =>
          .pure ⟨by simp, List.forall_mem_append.2 ⟨h, hr⟩⟩
    refine .next (moves_takeKeyword _) fun _ => .ite ?_ (.fail _)
    exact (hg.expr 0).inParens.bind fun _ he => .pure
      ⟨fun _ h => ConstraintRule.check.inj h ▸ he, by simp [ConstraintRule.names]⟩
  refine (gives_identifier.afterKeyword _).bind fun name? hn => hrule.bind fun rule hr =>
    .pure ⟨?_, List.forall_mem_append.2 ⟨by simpa using hn, hr.2⟩⟩
  cases rule with
  | check e => simpa [TableConstraint.parts] using hr.1 e rfl
  | _ => simp [TableConstraint.parts]

theorem gives_createTable :
    Gives dq (createTable g) fun c => (Statement.createTable c).Named dq := by
  have hpart : Gives dq (tablePart g) fun t =>
      (∀ c ∈ t.column?, LegalNames dq c.parts c.names) ∧
        ∀ c ∈ t.constraint?, LegalNames dq c.parts c.names :=
    .next moves_tableConstraintAt fun _ => .ite
      ((gives_tableConstraint hg).bind fun _ h => .pure ⟨nofun, by rintro _ ⟨⟩; exact h⟩)
      ((gives_columnDef hg).bind fun _ h => .pure ⟨by rintro _ ⟨⟩; exact h, nofun⟩)
  have hparts : Gives dq (tableParts g) fun ts =>
      (∀ c ∈ ts.filterMap TablePart.column?, LegalNames dq c.parts c.names) ∧
        ∀ c ∈ ts.filterMap TablePart.constraint?, LegalNames dq c.parts c.names := by
    refine .next (moves_takeSymbol _) fun _ => .ite ?_ (.pure (by simp))
    refine hpart.commaList.bind fun ts h => .next (moves_expectSymbol _) fun _ => .pure ?_
    simp only [List.mem_filterMap]
    refine ⟨?_, ?_⟩
    · rintro c ⟨t, ht, hc⟩
      exact (h t ht).1 c hc
    · rintro c ⟨t, ht, hc⟩
      exact (h t ht).2 c hc
  refine .next (moves_expectKeyword _) fun _ => .next moves_temporaryWord fun _ =>
    .next (moves_expectKeyword _) fun _ => .next moves_ifNotExists fun _ =>
      gives_objectName.bind fun name hn => hparts.bind fun ts hts =>
        (hg.query.afterKeyword _).bind fun query? hq => .ite (.fail _) (.pure ⟨?_, ?_⟩)
  · simp only [Statement.parts, List.forall_mem_append, List.forall_mem_map, Option.mem_toList]
    exact ⟨⟨(LegalNames.flatMap hts.1).parts, (LegalNames.flatMap hts.2).parts⟩, hq⟩
  · simp only [Statement.names, CreateTable.names, List.forall_mem_append]
    exact ⟨⟨hn, (LegalNames.flatMap hts.1).names⟩, (LegalNames.flatMap hts.2).names⟩

/-! ## Changing a table -/

theorem gives_columnChange (name : Ident) : Gives dq (columnChange g) fun change =>
    LegalNames dq (TableChange.alterColumn name change).parts change.names := by
  have htype : Gives dq (dataType >>= fun type => pure (ColumnChange.setType type)) fun change =>
      LegalNames dq (TableChange.alterColumn name change).parts change.names :=
    gives_dataType.bind fun _ h => .pure ⟨by simp [TableChange.parts], h⟩
  refine .next (moves_takeKeyword _) fun _ => .ite ?_ (.next (moves_takeKeyword _) fun _ => .ite ?_
    (.next (moves_takeKeyword _) fun _ => .ite htype (.fail _)))
  · refine .next (moves_takeKeyword _) fun _ => .ite ?_
      (.next (moves_takeKeyword _) fun _ => .ite ?_
        (.next moves_current fun token => .ite ?_ (.fail _)))
    · exact (hg.expr 0).bind fun _ he => .pure
        ⟨by simpa [TableChange.parts] using he, by simp [ColumnChange.names]⟩
    · exact .next (moves_expectKeyword _) fun _ => .pure .nil
    · exact .next moves_advance fun _ => .next (moves_expectKeyword _) fun _ => htype
  · refine .next (moves_takeKeyword _) fun _ => .ite (.pure .nil) ?_
    exact .next (moves_expectKeyword _) fun _ => .next (moves_expectKeyword _) fun _ => .pure .nil

theorem gives_addToTable :
    Gives dq (addToTable g) fun change => LegalNames dq change.parts change.names :=
  .next moves_tableConstraintAt fun _ => .ite
    ((gives_tableConstraint hg).bind fun _ h => .pure h)
    (.next (moves_takeKeyword _) fun _ => .next moves_ifNotExists fun _ =>
      (gives_columnDef hg).bind fun _ h => .pure h)

omit hg in
/-- A change that holds one name and no parts. -/
theorem gives_nameChange {f : Ident → TableChange} (hn : ∀ i, (f i).names = [i])
    (hp : ∀ i, (f i).parts = []) : Gives dq (identifier >>= fun i => pure (f i))
      fun change => LegalNames dq change.parts change.names :=
  gives_identifier.bind fun i hi => .pure ⟨by simp [hp], by simpa [hn] using hi⟩

omit hg in
theorem gives_dropFromTable :
    Gives dq dropFromTable fun change => LegalNames dq change.parts change.names :=
  .next (moves_takeKeyword _) fun _ => .ite
    (.next moves_ifExists fun _ => gives_nameChange (fun _ => rfl) fun _ => rfl)
    (.next (moves_takeKeyword _) fun _ => .next moves_ifExists fun _ =>
      gives_nameChange (fun _ => rfl) fun _ => rfl)

omit hg in
theorem gives_renameInTable :
    Gives dq renameInTable fun change => LegalNames dq change.parts change.names := by
  refine .next (moves_takeKeyword _) fun _ => .ite ?_ ?_
  · exact gives_objectName.bind fun _ h => .pure ⟨by simp [TableChange.parts], h⟩
  · exact .next (moves_takeKeyword _) fun _ => gives_identifier.bind fun _ hold =>
      .next (moves_expectKeyword _) fun _ => gives_identifier.bind fun _ hnew =>
        .pure ⟨by simp [TableChange.parts], by simpa [TableChange.names] using ⟨hold, hnew⟩⟩

theorem gives_alterInTable :
    Gives dq (alterInTable g) fun change => LegalNames dq change.parts change.names :=
  .next (moves_takeKeyword _) fun _ => gives_identifier.bind fun name hn =>
    (gives_columnChange hg name).bind fun _ h =>
      .pure ⟨h.parts, List.forall_mem_cons.2 ⟨hn, h.names⟩⟩

theorem gives_alterTable : Gives dq (alterTable g) fun a => (Statement.alterTable a).Named dq := by
  have hchange : Gives dq (tableChange g) fun change => LegalNames dq change.parts change.names :=
    .next (moves_takeKeyword _) fun _ => .ite (gives_addToTable hg)
      (.next (moves_takeKeyword _) fun _ => .ite gives_dropFromTable
        (.next (moves_takeKeyword _) fun _ => .ite gives_renameInTable
          (.next (moves_takeKeyword _) fun _ => .ite (gives_alterInTable hg) (.fail _))))
  exact .next (moves_expectKeyword _) fun _ => .next (moves_expectKeyword _) fun _ =>
    gives_objectName.bind fun name hn => hchange.commaList.bind fun changes h => .pure
      ⟨(LegalNames.flatMap h).parts, List.forall_mem_append.2 ⟨hn, (LegalNames.flatMap h).names⟩⟩

end Tables

/-! ## Settings -/

theorem gives_knownShow : Gives dq knownShow fun o => ∀ r ∈ o, ∀ i ∈ r.names, i.Legal dq := by
  have hindexes : ∀ word, Gives dq (indexesOf word)
      fun o => ∀ r ∈ o, ∀ i ∈ r.names, i.Legal dq := by
    refine fun word => .next moves_advance fun _ => .next moves_advance fun _ =>
      (gives_objectName.attempt moves_objectName).bind fun table? ht => ?_
    cases table? with
    | none => exact .none
    | some table =>
      refine .next (moves_statementEndAt 0) fun _ => .ite (.pure ?_) .none
      rintro _ ⟨⟩
      exact ht table rfl
  refine .next (moves_expectKeyword _) fun _ => .next moves_current fun token =>
    .next (moves_anyKeywordAt 1 _) fun behind => ?_
  split
  · exact hindexes _
  · refine .next (moves_nameAt 0) fun _ => .next (moves_statementEndAt 1) fun _ => .ite ?_ .none
    exact gives_identifier.bind fun name hn => .pure (by simpa [Show.names] using hn)

/-! ## Any statement -/

variable {o : Options} {source : String}

/-- A statement that is kept as written has no names. -/
theorem gives_kept (keep : Bool) : Gives dq (kept keep source) fun s => s.Named dq := by
  intro c hc s d h
  have hkept : ∀ text, (Statement.unsupported text).Named dq := fun _ => .nil
  rw [kept_apply] at h
  split at h
  · obtain ⟨rfl, rfl⟩ := EStateM.Result.ok.inj h
    exact ⟨c.leads_skipStatement.genuine hc, hkept _⟩
  · cases h

theorem givesAt_unsupported (c : Cursor) :
    GivesAt dq c (unsupported o source c.position) fun s => s.Named dq := by
  unfold GivesAt
  rw [unsupported_position]
  exact gives_kept _ c

theorem givesAt_showStatement (c : Cursor) :
    GivesAt dq c (showStatement o source c.position) fun s => s.Named dq := by
  intro hc s d h
  rw [showStatement_position] at h
  cases hr : knownShow c with
  | error fault e =>
    rw [hr] at h
    cases h
  | ok request? e =>
    rw [hr] at h
    cases request? with
    | none => exact gives_kept _ c hc s d h
    | some request =>
      obtain ⟨he, hrequest⟩ := gives_knownShow c hc _ e hr
      cases h
      exact ⟨he, by simp [Statement.parts], hrequest request rfl⟩

theorem gives_statementBody :
    Gives o.dialect.dq (statementBody o source) fun s => s.Named o.dialect.dq := by
  refine fun c => .look position_apply (.look ahead_apply (.look current_apply ?_))
  have hg : (productions o.dialect c.ahead).Name o.dialect.dq := name_productions c.ahead
  have hquery : Gives o.dialect.dq
      ((productions o.dialect c.ahead).query >>= fun q => pure (Statement.query q))
      fun s => s.Named o.dialect.dq := hg.query.bind fun q hq =>
    .pure ⟨by simpa [Statement.parts] using hq, by simp [Statement.names]⟩
  have hkept : GivesAt o.dialect.dq c (unsupported o source c.position)
      fun s => s.Named o.dialect.dq := givesAt_unsupported c
  unfold statementFrom
  split
  · exact hquery c
  · exact hquery c
  · exact hquery c
  · exact hquery c
  · exact (gives_insertStatement hg).bind (fun _ h => .pure h) c
  · exact (gives_updateStatement hg).bind (fun _ h => .pure h) c
  · exact (gives_deleteStatement hg).bind (fun _ h => .pure h) c
  · exact .look (fun _ => rfl) (.ite (fun _ => (gives_createTable hg).bind (fun _ h => .pure h) c)
      fun _ => hkept)
  · exact .look (fun _ => rfl) (.ite (fun _ => (gives_alterTable hg).bind (fun _ h => .pure h) c)
      fun _ => hkept)
  · exact givesAt_showStatement c
  · exact hkept
  · exact hkept
  · exact Gives.fail _ c

/-! ## Several statements -/

theorem gives_singleStatement :
    Gives o.dialect.dq (singleStatement o source) fun s => s.Named o.dialect.dq :=
  .next moves_atEnd fun _ => .ite (.fail _) (gives_statementBody.bind fun _ hs =>
    .next moves_semicolons fun _ => .next moves_atEnd fun _ => .ite (.pure hs) (.fail _))

theorem gives_statements :
    Gives o.dialect.dq (statements o source) fun ss => ∀ s ∈ ss, s.Named o.dialect.dq := by
  refine .collect (.next moves_semicolons fun _ => .next moves_atEnd fun _ => .ite .none
    (gives_statementBody.bind fun s hs => ?_))
  have hsome : ∀ s' ∈ some s, s'.Named o.dialect.dq := by
    rintro _ ⟨⟩
    exact hs
  exact .next (moves_takeSymbol _) fun _ => .ite (.pure hsome)
    (.next moves_atEnd fun _ => .ite (.pure hsome) (.fail _))

end Parse

end SqlTree
