import Mathlib
import SqlTree.Proofs.Parsing.Statement
import SqlTree.Proofs.Carrying.Segments
import SqlTree.Proofs.Tracking.Query

/-! # Where the readers of statements lead

* `tracks_insertStatement`, `tracks_updateStatement`, `tracks_deleteStatement`,
  `tracks_createTable`, `tracks_alterTable`: statements that change rows or declare tables.
* `tracks_statementBody`: any statement. One that the grammar does not know is gone through again
  from its start, so what it leads to is told from there.
* `tracks_singleStatement`, `tracks_statements`: one statement, or all.

Of several defaults of a column only the last one counts, so a declaration may hold fewer parts than
were read for it.
-/

namespace SqlTree
set_option autoImplicit false

open Parse

namespace Parse

variable {g : Productions}

/-! ## Changing rows -/

theorem moves_insertColumns : Moves insertColumns :=
  .next (moves_symbolAt 0 _) fun _ => .next (moves_queryAt 1) fun _ =>
    .ite moves_identifiersInParens (.same rfl)

section Rows

variable (hg : g.Track)

include hg

theorem tracks_assignments : Tracks Assignment.parts (assignments g) := by
  have hassignment : Tracks (fun a => [.expr a.value]) (assignment g) :=
    .next moves_identifier fun _ => .next (moves_expectSymbol _) fun _ =>
      .bind (hg.expr 0) fun _ => .same rfl
  exact hassignment.commaList.congr fun _ => List.map_eq_flatMap ..

theorem tracks_insertSource : Tracks InsertSource.parts (insertSource g) := by
  have hquery : Tracks InsertSource.parts (g.query >>= fun q => pure (.query q)) :=
    .bind hg.query fun _ => .same rfl
  refine .next (moves_keywordAt 0 _) fun _ => .ite ?_ (.next (moves_takeKeyword _) fun _ => .ite ?_ ?_)
  · exact .bind (tracks_valueRows hg) fun _ => .same rfl
  · exact .next (moves_expectKeyword _) fun _ => .same rfl
  · exact .next (moves_queryAt 0) fun _ => .next (moves_symbolAt 0 _) fun _ => .ite hquery (.fail _)

theorem tracks_onConflict : Tracks (fun c => c.action.parts) (onConflict g) := by
  have haction : Tracks ConflictAction.parts (conflictAction g) :=
    .next (moves_expectKeyword _) fun _ => .next (moves_takeKeyword _) fun _ => .ite (.same rfl)
      (.next (moves_expectKeyword _) fun _ => .next (moves_expectKeyword _) fun _ =>
        .bind (tracks_assignments hg) fun _ => .same rfl)
  exact .next (moves_expectKeyword _) fun _ => .next (moves_expectKeyword _) fun _ =>
    .next moves_optionalIdentifiers fun _ => .bind haction fun _ => .same rfl

theorem tracks_insertStatement :
    Tracks (fun i => (Statement.insert i).parts) (insertStatement g) :=
  .next (moves_expectKeyword _) fun _ => .next (moves_takeKeyword _) fun _ =>
    .next moves_objectName fun _ => .next moves_insertColumns fun _ =>
      .bind (tracks_insertSource hg) fun _ =>
        .bind ((tracks_onConflict hg).ifKeyword _) fun _ => .same rfl

theorem tracks_where :
    Tracks (fun o => Part.exprs o.toList) (afterKeyword .WHERE (g.expr 0)) :=
  (Tracks.afterKeyword _ (hg.expr 0)).congr fun o => by cases o <;> rfl

theorem tracks_updateStatement :
    Tracks (fun u => (Statement.update u).parts) (updateStatement g) := by
  refine .next (moves_expectKeyword _) fun _ => .next moves_objectName fun _ =>
    .next moves_optionalAlias fun _ => .next (moves_expectKeyword _) fun _ =>
      .bind (tracks_assignments hg) fun _ => .bind (tracks_fromClause hg) fun (source, joins) =>
        .bind (tracks_where hg) fun _ => .same ?_
  simp [Statement.parts]

theorem tracks_deleteStatement :
    Tracks (fun d => (Statement.delete d).parts) (deleteStatement g) :=
  .next (moves_expectKeyword _) fun _ => .next (moves_takeKeyword _) fun _ =>
    .next moves_objectName fun _ => .next moves_optionalAlias fun _ =>
      .bind (tracks_where hg) fun _ => .same rfl

end Rows

/-! ## Columns and constraints -/

theorem moves_ifNotExists : Moves ifNotExists :=
  .next (moves_takeKeyword _) fun _ => .ite
    (.next (moves_expectKeyword _) fun _ => .next (moves_expectKeyword _) fun _ => .same rfl)
    (.same rfl)

theorem moves_ifExists : Moves ifExists :=
  .next (moves_takeKeyword _) fun _ =>
    .ite (.next (moves_expectKeyword _) fun _ => .same rfl) (.same rfl)

theorem moves_foreignKeyRef : Moves foreignKeyRef :=
  .next moves_objectName fun _ => .next moves_optionalIdentifiers fun _ => .same rfl

theorem moves_tableConstraintAt : Moves tableConstraintAt := moves_anyKeywordAt 0 _

/-- Columns and constraints are told apart, and no part is lost. -/
theorem TablePart.parts_perm (ps : List TablePart) :
    (ps.flatMap TablePart.parts).Perm ((ps.filterMap TablePart.column?).flatMap ColumnDef.parts ++
      (ps.filterMap TablePart.constraint?).flatMap TableConstraint.parts) := by
  induction ps with
  | nil => exact .nil
  | cons p ps ih =>
    cases p with
    | column c =>
      simpa [TablePart.parts, List.filterMap_cons, TablePart.column?, TablePart.constraint?] using
        ih.append_left c.parts
    | constraint c =>
      have hrest := (ih.append_left c.parts).trans (List.perm_append_comm_assoc ..)
      simpa [TablePart.parts, List.filterMap_cons, TablePart.column?, TablePart.constraint?] using hrest

theorem numbersOf_perm {ps qs : List Part} (h : ps.Perm qs) : (numbersOf ps).Perm (numbersOf qs) :=
  h.flatMap_right _

section Columns

variable (hg : g.Track)

include hg

/-- A default takes the place of the one before it. -/
theorem tracks_columnOption (column : ColumnDef) :
    TracksWith column.parts (optionalParts ColumnDef.parts) (columnOption g column) := by
  refine .next (moves_takeKeyword _) fun _ => .ite
    (.next (moves_expectKeyword _) fun _ => .same rfl) ?_
  refine .next (moves_takeKeyword _) fun _ => .ite (.same rfl) ?_
  refine .next (moves_takeKeyword _) fun _ => .ite (.bind (hg.expr 0) fun e => .pure ?_) ?_
  · rw [numbersOf_append]
    exact (List.sublist_append_right ..).subperm
  refine .next (moves_takeKeyword _) fun _ => .ite
    (.next (moves_expectKeyword _) fun _ => .same rfl) ?_
  refine .next (moves_takeKeyword _) fun _ => .ite (.same rfl) ?_
  refine .next (moves_takeKeyword _) fun _ => .ite (.same rfl) ?_
  exact .next (moves_takeKeyword _) fun _ => .ite
    (.next moves_foreignKeyRef fun _ => .same rfl) (.pure List.nil_subperm)

theorem tracks_columnDef : Tracks ColumnDef.parts (columnDef g) :=
  .next moves_identifier fun name => .next moves_dataType fun type =>
    tracks_repeatFrom (tracks_columnOption hg) { name, type }

theorem tracks_tableConstraint : Tracks TableConstraint.parts (tableConstraint g) := by
  have hrule : Tracks (fun rule => TableConstraint.parts ⟨none, rule⟩) (constraintRule g) := by
    refine .next (moves_takeKeyword _) fun _ => .ite (.next (moves_expectKeyword _) fun _ =>
      .next moves_identifiersInParens fun _ => .same rfl) ?_
    refine .next (moves_takeKeyword _) fun _ => .ite
      (.next moves_identifiersInParens fun _ => .same rfl) ?_
    refine .next (moves_takeKeyword _) fun _ => .ite (.next (moves_expectKeyword _) fun _ =>
      .next moves_identifiersInParens fun _ => .next (moves_expectKeyword _) fun _ =>
        .next moves_foreignKeyRef fun _ => .same rfl) ?_
    exact .next (moves_takeKeyword _) fun _ => .ite
      (.bind (hg.expr 0).inParens fun _ => .same rfl) (.fail _)
  exact .next (.option (moves_identifier.afterKeyword _)) fun _ => .bind hrule fun _ => .same rfl

theorem tracks_tableParts :
    Tracks (fun ps => ps.flatMap TablePart.parts) (tableParts g) := by
  have hpart : Tracks TablePart.parts (tablePart g) :=
    .next moves_tableConstraintAt fun _ => .ite
      (.bind (tracks_tableConstraint hg) fun _ => .same rfl)
      (.bind (tracks_columnDef hg) fun _ => .same rfl)
  exact .next (moves_takeSymbol _) fun _ => .ite
    (.bind hpart.commaList fun _ => .next (moves_expectSymbol _) fun _ => .same rfl) (.same rfl)

/-! ## Creating a table -/

omit hg in
theorem moves_temporaryWord : Moves temporaryWord :=
  .next (moves_takeKeyword _) fun _ => .ite (.same rfl) (moves_takeKeyword _)

theorem tracks_createTable :
    Tracks (fun c => (Statement.createTable c).parts) (createTable g) := by
  refine .next (moves_expectKeyword _) fun _ => .next moves_temporaryWord fun _ =>
    .next (moves_expectKeyword _) fun _ => .next moves_ifNotExists fun _ =>
      .next moves_objectName fun _ => .bind (tracks_tableParts hg) fun ps =>
        .bind (hg.query.afterKeyword _) fun query => .ite (.fail _) (.pure ?_)
  have hquery : query.toList.map Part.query = optionalParts (fun q => [.query q]) query := by
    cases query <;> rfl
  have hperm := (TablePart.parts_perm ps).append_right (optionalParts (fun q => [.query q]) query)
  rw [Statement.parts, hquery]
  exact (numbersOf_perm hperm).symm.subperm

/-! ## Changing a table -/

theorem tracks_addToTable : Tracks TableChange.parts (addToTable g) :=
  .next moves_tableConstraintAt fun _ => .ite
    (.bind (tracks_tableConstraint hg) fun _ => .same rfl)
    (.next (moves_takeKeyword _) fun _ => .next moves_ifNotExists fun _ =>
      .bind (tracks_columnDef hg) fun _ => .same rfl)

omit hg in
theorem moves_dropFromTable : Tracks TableChange.parts dropFromTable := by
  refine .next (moves_takeKeyword _) fun _ => .ite ?_ (.next (moves_takeKeyword _) fun _ => ?_)
  · exact .next moves_ifExists fun _ => .next moves_identifier fun _ => .same rfl
  · exact .next moves_ifExists fun _ => .next moves_identifier fun _ => .same rfl

omit hg in
theorem moves_renameInTable : Tracks TableChange.parts renameInTable :=
  .next (moves_takeKeyword _) fun _ => .ite (.next moves_objectName fun _ => .same rfl)
    (.next (moves_takeKeyword _) fun _ => .next moves_identifier fun _ =>
      .next (moves_expectKeyword _) fun _ => .next moves_identifier fun _ => .same rfl)

theorem tracks_columnChange (name : Ident) :
    Tracks (fun change => (TableChange.alterColumn name change).parts) (columnChange g) := by
  refine .next (moves_takeKeyword _) fun _ => .ite ?_
    (.next (moves_takeKeyword _) fun _ => .ite ?_ (.next (moves_takeKeyword _) fun _ =>
      .ite (.next moves_dataType fun _ => .same rfl) (.fail _)))
  · refine .next (moves_takeKeyword _) fun _ => .ite (.bind (hg.expr 0) fun _ => .same rfl)
      (.next (moves_takeKeyword _) fun _ => .ite (.next (moves_expectKeyword _) fun _ => .same rfl)
        (.next moves_current fun _ => .ite ?_ (.fail _)))
    exact .next moves_advance fun _ => .next (moves_expectKeyword _) fun _ =>
      .next moves_dataType fun _ => .same rfl
  · exact .next (moves_takeKeyword _) fun _ => .ite (.same rfl)
      (.next (moves_expectKeyword _) fun _ => .next (moves_expectKeyword _) fun _ => .same rfl)

theorem tracks_alterTable :
    Tracks (fun a => (Statement.alterTable a).parts) (alterTable g) := by
  have halter : Tracks TableChange.parts (alterInTable g) :=
    .next (moves_takeKeyword _) fun _ => .next moves_identifier fun name =>
      .bind (tracks_columnChange hg name) fun _ => .same rfl
  have hchange : Tracks TableChange.parts (tableChange g) :=
    .next (moves_takeKeyword _) fun _ => .ite (tracks_addToTable hg)
      (.next (moves_takeKeyword _) fun _ => .ite moves_dropFromTable
        (.next (moves_takeKeyword _) fun _ => .ite moves_renameInTable
          (.next (moves_takeKeyword _) fun _ => .ite halter (.fail _))))
  exact .next (moves_expectKeyword _) fun _ => .next (moves_expectKeyword _) fun _ =>
    .next moves_objectName fun _ => .bind hchange.commaList fun _ => .same rfl

end Columns

/-! ## Statements kept as written -/

theorem moves_knownShow : Moves knownShow := by
  have hvariable : Moves (nameAt 0 >>= fun a => statementEndAt 1 >>= fun b =>
      if (a && b) = true then identifier >>= fun name => pure (some (Show.variable name))
      else pure none) :=
    .next (moves_nameAt 0) fun _ => .next (moves_statementEndAt 1) fun _ =>
      .ite (.next moves_identifier fun _ => .same rfl) (.same rfl)
  have hindexes : ∀ word, Moves (indexesOf word) := by
    intro word
    refine .next moves_advance fun _ => .next moves_advance fun _ =>
      .next moves_objectName.attempt fun table? => ?_
    cases table? with
    | none => exact .same rfl
    | some table => exact .next (moves_statementEndAt 0) fun _ => .ite (.same rfl) (.same rfl)
  refine .next (moves_expectKeyword _) fun _ => .next moves_current fun token =>
    .next (moves_anyKeywordAt 1 _) fun behind => ?_
  split
  · exact hindexes _
  · exact hvariable

variable {o : Options} {source : String}

theorem tracked_kept {keep : Bool} {low : Nat} {c : Cursor} (hlow : low ≤ c.placeholders) :
    Tracked low Statement.parts c (kept keep source c) := by
  rw [kept_apply]
  split
  · exact ⟨c.leads_skipStatement, .nil hlow⟩
  · exact ⟨.refl c, rfl⟩

theorem tracks_showStatement {low : Nat} {c : Cursor} (hlow : low ≤ c.placeholders) :
    Tracked low Statement.parts c (showStatement o source c.position c) := by
  have hshow := moves_knownShow low c (.nil hlow)
  rw [showStatement_position]
  cases hr : knownShow c with
  | error e d =>
    rw [hr] at hshow
    exact hshow
  | ok request? d =>
    rw [hr] at hshow
    cases request? with
    | none => exact tracked_kept hlow
    | some request => exact hshow

/-! ## Any statement -/

theorem tracks_statementBody : Tracks Statement.parts (statementBody o source) := by
  intro low c hheld
  have hg : (productions o.dialect c.ahead).Track := track_productions c.ahead
  have hkept : Tracked low Statement.parts c (unsupported o source c.position c) := by
    rw [unsupported_position]
    exact tracked_kept hheld.le
  have hknown : ∀ {α : Type} {p : Parse α} {f : α → Statement}, Tracks (fun a => (f a).parts) p →
      Tracked low Statement.parts c ((p >>= fun a => pure (f a)) c) := by
    intro α p f hp
    have h : Tracks Statement.parts (p >>= fun a => pure (f a)) := .bind hp fun _ => .same rfl
    exact h low c hheld
  have hcreate : ∃ b, createTableAt c = .ok b c := ⟨_, rfl⟩
  have halter : ∃ b, keywordAt 1 .TABLE c = .ok b c := ⟨_, rfl⟩
  rw [statementBody_apply]
  generalize c.current.kind = kind
  unfold statementFrom
  split
  · exact hknown hg.query
  · exact hknown hg.query
  · exact hknown hg.query
  · exact hknown hg.query
  · exact hknown (tracks_insertStatement hg)
  · exact hknown (tracks_updateStatement hg)
  · exact hknown (tracks_deleteStatement hg)
  · obtain ⟨b, hb⟩ := hcreate
    rw [bind_apply, hb]
    cases b with
    | true => exact hknown (tracks_createTable hg)
    | false => exact hkept
  · obtain ⟨b, hb⟩ := halter
    rw [bind_apply, hb]
    cases b with
    | true => exact hknown (tracks_alterTable hg)
    | false => exact hkept
  · exact tracks_showStatement hheld.le
  · exact hkept
  · exact hkept
  · exact TracksWith.fail _ low c hheld

/-! ## Several statements -/

theorem moves_semicolons : Moves semicolons := by
  have hstep : Moves semicolon :=
    .next (moves_takeSymbol _) fun _ => .ite (.same rfl) (.same rfl)
  exact .next (.list hstep.steps.collect) fun _ => .same rfl

theorem moves_atEnd : Moves atEnd := moves_look atEnd_apply

theorem tracks_singleStatement : Tracks Statement.parts (singleStatement o source) :=
  .next moves_atEnd fun _ => .ite (.fail _) (.bind tracks_statementBody fun _ =>
    .next moves_semicolons fun _ => .next moves_atEnd fun _ => .ite (.same rfl) (.fail _))

theorem tracks_statements :
    Tracks (fun ss => ss.flatMap Statement.parts) (statements o source) := by
  have hnext : Tracks (optionalParts Statement.parts) (nextStatement o source) :=
    .next moves_semicolons fun _ => .next moves_atEnd fun _ => .ite (.same rfl)
      (.bind tracks_statementBody fun _ => .next (moves_takeSymbol _) fun _ => .ite (.same rfl)
        (.next moves_atEnd fun _ => .ite (.same rfl) (.fail _)))
  exact hnext.collect

end Parse
end SqlTree
