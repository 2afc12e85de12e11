import Mathlib
import SqlTree.Statement.Grammar.Rows
import SqlTree.Statement.Grammar.Table
import SqlTree.Proofs.Carrying.Query

/-! # Statements inside a longer text

* `carries_insertStatement`, `carries_updateStatement`, `carries_deleteStatement`: what changes rows.
* `carries_createTable`, `carries_alterTable`: what declares tables. Columns and constraints are told
  apart as they are without numbers.
-/

namespace SqlTree
set_option autoImplicit false

namespace Parse

variable {S : Surroundings} {k : Nat} {r : Room} {g g' : Productions} {d : Dialect}
  (hg : g.Carry S r.inside g')

/-! ## Changing rows -/

theorem carries_insertColumns : Carries S r id insertColumns insertColumns := by
  have hnone : ∀ {k}, CarriesFrom S k r (fun _ => False) id (pure [] : Parse (List Ident))
      (pure []) := .pure rfl
  refine .symbolAt .leftParen ⟨rfl, rfl, rfl⟩ ?_ (.look (fun _ => ⟨_, rfl⟩) fun _ _ => hnone)
  exact .anyKeywordBehind _ hnone carries_identifiersInParens.still

section Rows

include hg

theorem carries_assignments :
    Carries S r.inside (List.map (Assignment.shift S.placeholders)) (assignments g)
      (assignments g') := by
  have hitem : Carries S r.inside (Assignment.shift S.placeholders) (assignment g)
      (assignment g') := by
    refine .next carries_identifier fun column => .expectSymbol .equal ⟨rfl, rfl, rfl⟩ ?_
    exact .next (hg.expr 0) fun value => .pure rfl
  exact hitem.commaList

theorem carries_insertSource :
    Carries S r.inside (InsertSource.shift S.placeholders) (insertSource g) (insertSource g') := by
  have hquery : ∀ {k}, CarriesFrom S k r.inside (fun _ => False)
      (InsertSource.shift S.placeholders) (g.query >>= fun q => pure (.query q))
      (g'.query >>= fun q => pure (.query q)) := .next hg.query fun _ => .pure rfl
  refine .keywordAt .VALUES (.next (carries_valueRows (r := r.inside) hg) fun _ => .pure rfl) ?_
  refine .takeKeyword .DEFAULT (.expectKeyword .VALUES (.pure rfl)) ?_
  refine .anyKeywordAt _ (.symbolAt .leftParen ⟨rfl, rfl, rfl⟩ hquery hquery) ?_
  exact .symbolAt .leftParen ⟨rfl, rfl, rfl⟩ hquery (.fail _)

theorem carries_conflictAction :
    Carries S r (ConflictAction.shift S.placeholders) (conflictAction g) (conflictAction g') := by
  refine .expectKeyword .DO (.takeKeyword .NOTHING (.pure rfl) ?_)
  refine .expectKeyword .UPDATE (.expectKeyword .SET ?_)
  exact .next (carries_assignments (r := r.inside) hg) fun _ => .pure rfl

theorem carries_onConflict :
    Carries S r (OnConflict.shift S.placeholders) (onConflict g) (onConflict g') := by
  refine .expectKeyword .ON (.expectKeyword .CONFLICT (.next carries_optionalIdentifiers ?_))
  intro columns
  exact .next (carries_conflictAction (r := r.inside) hg) fun _ => .pure rfl

theorem carries_insertStatement :
    Carries S r (Insert.shift S.placeholders) (insertStatement g) (insertStatement g') := by
  refine .expectKeyword .INSERT (.next (carries_takeKeyword .INTO) fun withInto => ?_)
  refine .next carries_objectName fun table => .next carries_insertColumns fun columns => ?_
  refine .next (carries_insertSource (r := r.inside) hg) fun source => ?_
  exact .next ((carries_onConflict (r := r.inside) hg).ifKeyword .ON) fun _ => .pure rfl

theorem carries_updateStatement :
    Carries S r (Update.shift S.placeholders) (updateStatement g) (updateStatement g') := by
  refine .expectKeyword .UPDATE (.next carries_objectName fun table => ?_)
  refine .next carries_optionalAlias fun alias? => .expectKeyword .SET ?_
  refine .next (carries_assignments (r := r.inside) hg) fun assignments => ?_
  refine .next (carries_fromClause (r := r.inside) hg) fun ⟨source, joins⟩ => ?_
  exact .next (Carries.afterKeyword .WHERE (hg.expr 0)) fun condition => .pure rfl

theorem carries_deleteStatement :
    Carries S r (Delete.shift S.placeholders) (deleteStatement g) (deleteStatement g') := by
  refine .expectKeyword .DELETE (.next (carries_takeKeyword .FROM) fun withFrom => ?_)
  refine .next carries_objectName fun table => .next carries_optionalAlias fun alias? => ?_
  exact .next (Carries.afterKeyword .WHERE (hg.expr 0)) fun condition => .pure rfl

end Rows

/-! ## Columns and constraints -/

theorem carries_ifNotExists : Carries S r id ifNotExists ifNotExists :=
  .takeKeyword .IF (.expectKeyword .NOT (.expectKeyword .EXISTS (.pure rfl))) (.pure rfl)

theorem carries_ifExists : Carries S r id ifExists ifExists :=
  .takeKeyword .IF (.expectKeyword .EXISTS (.pure rfl)) (.pure rfl)

theorem carries_foreignKeyRef : Carries S r id foreignKeyRef foreignKeyRef :=
  .next carries_objectName fun _ => .next carries_optionalIdentifiers fun _ => .pure rfl

/-- The declaration of a column or a constraint, with numbers greater by `n`. -/
def TablePart.shift (n : Nat) : TablePart → TablePart
  | .column c => .column (c.shift n)
  | .constraint c => .constraint (c.shift n)

section Columns

include hg

theorem steps_columnOption (column : ColumnDef) :
    Steps S r (ColumnDef.shift S.placeholders)
      (columnOption g (column.shift S.placeholders)) (columnOption g' column) := by
  refine .takeKeyword .NOT (.expectKeyword .NULL (.pure rfl)) ?_
  refine .takeKeyword .NULL (.pure rfl) ?_
  refine .takeKeyword .DEFAULT (.next (hg.expr 0) fun _ => .pure rfl) ?_
  refine .takeKeyword .PRIMARY (.expectKeyword .KEY (.pure rfl)) ?_
  refine .takeKeyword .UNIQUE (.pure rfl) (.takeKeyword .AUTOINCREMENT (.pure rfl) ?_)
  exact .takeKeyword .REFERENCES (.next carries_foreignKeyRef fun _ => .pure rfl) .nothing

theorem carries_columnDef :
    Carries S r.inside (ColumnDef.shift S.placeholders) (columnDef g) (columnDef g') := by
  refine .next carries_identifier fun name => .next carries_dataType fun type => ?_
  exact carries_repeatFrom (steps_columnOption (r := r.inside) hg) { name, type }

theorem carries_constraintRule :
    Carries S r (ConstraintRule.shift S.placeholders) (constraintRule g) (constraintRule g') := by
  refine .takeKeyword .PRIMARY ?_ (.takeKeyword .UNIQUE ?_ (.takeKeyword .FOREIGN ?_ ?_))
  · exact .expectKeyword .KEY (.next carries_identifiersInParens fun _ => .pure rfl)
  · exact .next carries_identifiersInParens fun _ => .pure rfl
  · refine .expectKeyword .KEY (.next carries_identifiersInParens fun columns => ?_)
    exact .expectKeyword .REFERENCES (.next carries_foreignKeyRef fun _ => .pure rfl)
  · refine .takeKeyword .CHECK ?_ (.fail _)
    have hcondition : Carries S r.inside (Expr.shift S.placeholders) (inParens (g.expr 0))
        (inParens (g'.expr 0)) := .inParens (hg.expr 0)
    exact .next hcondition fun _ => .pure rfl

theorem carries_tableConstraint :
    Carries S r (TableConstraint.shift S.placeholders) (tableConstraint g)
      (tableConstraint g') := by
  refine .next (Carries.afterKeyword .CONSTRAINT carries_identifier.still) fun name => ?_
  refine .next (carries_constraintRule hg) fun rule => .pure ?_
  simp [TableConstraint.shift]

theorem carries_tablePart :
    Carries S r.inside (TablePart.shift S.placeholders) (tablePart g) (tablePart g') := by
  refine .anyKeywordAt _ (.next (carries_tableConstraint (r := r.inside) hg) fun _ => .pure rfl) ?_
  exact .next (carries_columnDef hg) fun _ => .pure rfl

theorem carries_tableParts :
    Carries S r (List.map (TablePart.shift S.placeholders)) (tableParts g) (tableParts g') := by
  refine .takeSymbol .leftParen ⟨rfl, rfl, rfl⟩ ?_ (.pure rfl)
  refine .next (carries_tablePart (r := r.inside) hg).commaList fun parts => ?_
  exact .expectSymbol .rightParen ⟨rfl, rfl, rfl⟩ (.pure rfl)

end Columns

/-! ## Creating a table -/

theorem TablePart.columns_shift (n : Nat) (parts : List TablePart) :
    (parts.map (TablePart.shift n)).filterMap TablePart.column? =
      (parts.filterMap TablePart.column?).map (ColumnDef.shift n) := by
  rw [List.filterMap_map, List.map_filterMap]
  congr 1
  funext part
  cases part <;> rfl

theorem TablePart.constraints_shift (n : Nat) (parts : List TablePart) :
    (parts.map (TablePart.shift n)).filterMap TablePart.constraint? =
      (parts.filterMap TablePart.constraint?).map (TableConstraint.shift n) := by
  rw [List.filterMap_map, List.map_filterMap]
  congr 1
  funext part
  cases part <;> rfl

theorem carries_temporaryWord : Carries S r id temporaryWord temporaryWord :=
  .takeKeyword .TEMPORARY (.pure rfl) (carries_takeKeyword .TEMP)

section Tables

include hg

theorem carries_createTable :
    Carries S r (CreateTable.shift S.placeholders) (createTable g) (createTable g') := by
  refine .expectKeyword .CREATE (.next carries_temporaryWord fun temporary => ?_)
  refine .expectKeyword .TABLE (.next carries_ifNotExists fun ifNotExists => ?_)
  refine .next carries_objectName fun name => ?_
  refine .next (carries_tableParts (r := r.inside) hg) fun parts => ?_
  refine .next (Carries.afterKeyword .AS hg.query) fun query => ?_
  rw [List.isEmpty_map, Option.isNone_map]
  refine .ite (fun _ => .fail _) fun _ => .pure ?_
  rw [TablePart.columns_shift, TablePart.constraints_shift]
  rfl

/-! ## Changing a table -/

theorem carries_setColumn :
    Carries S r (ColumnChange.shift S.placeholders) (setColumn g) (setColumn g') := by
  refine .takeKeyword .DEFAULT (.next (hg.expr 0) fun _ => .pure rfl) ?_
  refine .takeKeyword .NOT (.expectKeyword .NULL (.pure rfl)) ?_
  refine .token (fun kind _ _ _ => .ite (fun hw => ?_) fun _ => .fail _) fun t t' ht ht' => ?_
  · cases kind with
    | identifier name quote =>
      exact .advance (.expectKeyword .TYPE (.next carries_dataType fun _ => .pure rfl))
    | _ => simp [isWord] at hw
  · rcases ht with ht | ht <;> rw [ht, ht'] <;> exact .fail _

theorem carries_columnChange :
    Carries S r (ColumnChange.shift S.placeholders) (columnChange g) (columnChange g') := by
  have hdrop : Carries S r.inside (ColumnChange.shift S.placeholders) dropFromColumn
      dropFromColumn :=
    .takeKeyword .DEFAULT (.pure rfl) (.expectKeyword .NOT (.expectKeyword .NULL (.pure rfl)))
  refine .takeKeyword .SET (carries_setColumn (r := r.inside) hg) (.takeKeyword .DROP hdrop ?_)
  exact .takeKeyword .TYPE (.next carries_dataType fun _ => .pure rfl) (.fail _)

theorem carries_addToTable :
    Carries S r.inside (TableChange.shift S.placeholders) (addToTable g) (addToTable g') := by
  refine .anyKeywordAt _ (.next (carries_tableConstraint (r := r.inside) hg) fun _ => .pure rfl) ?_
  refine .next (carries_takeKeyword .COLUMN) fun withColumn => ?_
  exact .next carries_ifNotExists fun _ => .next (carries_columnDef hg) fun _ => .pure rfl

omit hg in
theorem carries_dropFromTable :
    Carries S r (TableChange.shift S.placeholders) dropFromTable dropFromTable := by
  refine .takeKeyword .CONSTRAINT ?_ (.next (carries_takeKeyword .COLUMN) fun withColumn => ?_)
  · exact .next carries_ifExists fun _ => .next carries_identifier.still fun _ => .pure rfl
  · exact .next carries_ifExists fun _ => .next carries_identifier.still fun _ => .pure rfl

omit hg in
theorem carries_renameInTable :
    Carries S r (TableChange.shift S.placeholders) renameInTable renameInTable := by
  refine .takeKeyword .TO (.next carries_objectName fun _ => .pure rfl) ?_
  refine .next (carries_takeKeyword .COLUMN) fun _ => .next carries_identifier fun oldName => ?_
  exact .expectKeyword .TO (.next carries_identifier fun _ => .pure rfl)

theorem carries_alterInTable :
    Carries S r (TableChange.shift S.placeholders) (alterInTable g) (alterInTable g') := by
  refine .next (carries_takeKeyword .COLUMN) fun _ => .next carries_identifier fun name => ?_
  exact .next (carries_columnChange hg) fun _ => .pure rfl

theorem carries_tableChange :
    Carries S r (TableChange.shift S.placeholders) (tableChange g) (tableChange g') :=
  .takeKeyword .ADD (carries_addToTable hg) <|
    .takeKeyword .DROP carries_dropFromTable <|
      .takeKeyword .RENAME carries_renameInTable <|
        .takeKeyword .ALTER (carries_alterInTable (r := r.inside) hg) (.fail _)

theorem carries_alterTable :
    Carries S r (AlterTable.shift S.placeholders) (alterTable g) (alterTable g') := by
  refine .expectKeyword .ALTER (.expectKeyword .TABLE (.next carries_objectName fun name => ?_))
  exact .next (carries_tableChange (r := r.inside) hg).commaList fun _ => .pure rfl

end Tables

end Parse
end SqlTree
