import Mathlib
import SqlTree.Proofs.Parsing.Query
import SqlTree.Session

/-! # The form of statements that are read

* `agrees_insertStatement`, `agrees_createTable`, …: the readers of statements.
* `yields_statementBody`: every part of a statement that is read has the form of the grammar.
* `Session.allFormed`: so it is for all statements that a session answers.
-/

namespace SqlTree
set_option autoImplicit false

open Parse

namespace Parse

/-! ## Statements that change rows -/

section Readers

variable {d : Dialect} {g g' : Productions} (hg : g.Agree d g')
include hg

theorem agrees_assignment : Agrees (assignment g) (assignment g')
    fun a => (Part.expr a.value).AllFormed d :=
  agrees_identifier.next fun _ => (agrees_expectSymbol _).next fun _ =>
    (agrees_anyExpr hg).bind fun _ he => .pure he

theorem agrees_assignments : Agrees (assignments g) (assignments g')
    fun as => ∀ p ∈ Assignment.parts as, p.AllFormed d :=
  (agrees_assignment hg).commaList.mono fun _ h => by
    simpa only [Assignment.parts, List.forall_mem_map] using h.2

omit hg in
theorem agrees_insertColumns : Agrees insertColumns insertColumns fun _ => True :=
  (agrees_symbolAt _ _).next fun _ => (agrees_queryAt _).next fun _ =>
    .ite (agrees_identifiersInParens.mono fun _ _ => trivial) (.pure trivial)

theorem agrees_insertSource : Agrees (insertSource g) (insertSource g')
    fun s => ∀ p ∈ s.parts, p.AllFormed d := by
  refine (agrees_keywordAt _ _).next fun _ => .ite ?_ ?_
  · exact (agrees_valueRows hg).bind fun _ h => .pure h.2
  refine (agrees_takeKeyword _).next fun _ => .ite ?_ ?_
  · exact (agrees_expectKeyword _).next fun _ => .pure (by simp [InsertSource.parts])
  refine (agrees_queryAt _).next fun _ => (agrees_symbolAt _ _).next fun _ => .ite ?_ (.fail _ _)
  exact hg.query.bind fun _ hq => .pure (by simpa [InsertSource.parts] using hq)

theorem agrees_conflictAction : Agrees (conflictAction g) (conflictAction g')
    fun a => ∀ p ∈ a.parts, p.AllFormed d := by
  refine (agrees_expectKeyword _).next fun _ => (agrees_takeKeyword _).next fun _ => ?_
  refine .ite (.pure (by simp [ConflictAction.parts])) ?_
  exact (agrees_expectKeyword _).next fun _ => (agrees_expectKeyword _).next fun _ =>
    (agrees_assignments hg).bind fun _ h => .pure h

theorem agrees_onConflict : Agrees (onConflict g) (onConflict g')
    fun c => ∀ p ∈ c.action.parts, p.AllFormed d :=
  (agrees_expectKeyword _).next fun _ => (agrees_expectKeyword _).next fun _ =>
    agrees_optionalIdentifiers.next fun _ => (agrees_conflictAction hg).bind fun _ h => .pure h

theorem agrees_insertStatement : Agrees (insertStatement g) (insertStatement g')
    fun i => (Statement.insert i).Obeys (Part.Formed d) := by
  refine (agrees_expectKeyword _).next fun _ => (agrees_takeKeyword _).next fun _ => ?_
  refine agrees_objectName.next fun _ => agrees_insertColumns.next fun _ => ?_
  refine (agrees_insertSource hg).bind fun source hs => ((agrees_onConflict hg).ifKeyword _).bind ?_
  intro o ho
  refine .pure (List.forall_mem_append.2 ⟨hs, ?_⟩)
  cases o with
  | none => simp
  | some c => exact ho c rfl

theorem agrees_updateStatement : Agrees (updateStatement g) (updateStatement g')
    fun u => (Statement.update u).Obeys (Part.Formed d) := by
  refine (agrees_expectKeyword _).next fun _ => agrees_objectName.next fun _ => ?_
  refine agrees_optionalAlias.next fun _ => (agrees_expectKeyword _).next fun _ => ?_
  refine (agrees_assignments hg).bind fun as has => (agrees_fromClause hg).bind ?_
  rintro ⟨source, joins⟩ ⟨-, hs, hj⟩
  refine ((agrees_anyExpr hg).afterKeyword _).bind fun condition hc => .pure ?_
  simp only [Statement.Obeys, Statement.parts, Part.exprs, List.forall_mem_append,
    List.forall_mem_map, Option.mem_toList]
  exact ⟨⟨⟨has, hs⟩, hj⟩, hc⟩

theorem agrees_deleteStatement : Agrees (deleteStatement g) (deleteStatement g')
    fun x => (Statement.delete x).Obeys (Part.Formed d) := by
  refine (agrees_expectKeyword _).next fun _ => (agrees_takeKeyword _).next fun _ => ?_
  refine agrees_objectName.next fun _ => agrees_optionalAlias.next fun _ => ?_
  refine ((agrees_anyExpr hg).afterKeyword _).bind fun condition hc => .pure ?_
  simpa only [Statement.Obeys, Statement.parts, Part.exprs, List.forall_mem_map, Option.mem_toList,
    Option.mem_def] using hc

/-! ## Statements about tables -/

omit hg in
theorem agrees_ifNotExists : Agrees ifNotExists ifNotExists fun _ => True :=
  (agrees_takeKeyword _).next fun _ => .ite ((agrees_expectKeyword _).next fun _ =>
    (agrees_expectKeyword _).next fun _ => .pure trivial) (.pure trivial)

omit hg in
theorem agrees_ifExists : Agrees ifExists ifExists fun _ => True :=
  (agrees_takeKeyword _).next fun _ =>
    .ite ((agrees_expectKeyword _).next fun _ => .pure trivial) (.pure trivial)

omit hg in
theorem agrees_foreignKeyRef : Agrees foreignKeyRef foreignKeyRef fun _ => True :=
  agrees_objectName.next fun _ => agrees_optionalIdentifiers.next fun _ => .pure trivial

theorem agrees_columnOption {column : ColumnDef} (h : ∀ p ∈ column.parts, p.AllFormed d) :
    Agrees (columnOption g column) (columnOption g' column)
      fun o => ∀ c ∈ o, ∀ p ∈ c.parts, p.AllFormed d := by
  have hsome : ∀ c : ColumnDef, c.default = column.default →
      ∀ c' ∈ some c, ∀ p ∈ c'.parts, p.AllFormed d := by
    rintro c hc _ ⟨⟩
    rwa [ColumnDef.parts, hc]
  refine (agrees_takeKeyword _).next fun _ => .ite ?_ ?_
  · exact (agrees_expectKeyword _).next fun _ => .pure (hsome _ rfl)
  refine (agrees_takeKeyword _).next fun _ => .ite (.pure (hsome _ rfl)) ?_
  refine (agrees_takeKeyword _).next fun _ => .ite ?_ ?_
  · refine (agrees_anyExpr hg).bind fun e he => .pure ?_
    rintro _ ⟨⟩
    simpa [ColumnDef.parts, Part.exprs] using he
  refine (agrees_takeKeyword _).next fun _ => .ite ?_ ?_
  · exact (agrees_expectKeyword _).next fun _ => .pure (hsome _ rfl)
  refine (agrees_takeKeyword _).next fun _ => .ite (.pure (hsome _ rfl)) ?_
  refine (agrees_takeKeyword _).next fun _ => .ite (.pure (hsome _ rfl)) ?_
  refine (agrees_takeKeyword _).next fun _ => .ite ?_ (.pure (by simp))
  exact agrees_foreignKeyRef.next fun _ => .pure (hsome _ rfl)

theorem agrees_columnDef : Agrees (columnDef g) (columnDef g')
    fun c => ∀ p ∈ c.parts, p.AllFormed d := by
  refine agrees_identifier.next fun name => agrees_dataType.bind fun type _ => ?_
  exact .repeatFrom (by simp [ColumnDef.parts, Part.exprs]) fun _ h => agrees_columnOption hg h

omit hg in
theorem agrees_tableConstraintAt : Agrees tableConstraintAt tableConstraintAt fun _ => True :=
  agrees_anyKeywordAt _ _

theorem agrees_constraintRule (name : Option Ident) : Agrees (constraintRule g) (constraintRule g')
    fun rule => ∀ p ∈ TableConstraint.parts ⟨name, rule⟩, p.AllFormed d := by
  refine (agrees_takeKeyword _).next fun _ => .ite ?_ ?_
  · exact (agrees_expectKeyword _).next fun _ => agrees_identifiersInParens.bind fun _ _ =>
      .pure (by simp [TableConstraint.parts])
  refine (agrees_takeKeyword _).next fun _ => .ite ?_ ?_
  · exact agrees_identifiersInParens.bind fun _ _ => .pure (by simp [TableConstraint.parts])
  refine (agrees_takeKeyword _).next fun _ => .ite ?_ ?_
  · refine (agrees_expectKeyword _).next fun _ => agrees_identifiersInParens.bind fun _ _ => ?_
    exact (agrees_expectKeyword _).next fun _ => agrees_foreignKeyRef.next fun _ =>
      .pure (by simp [TableConstraint.parts])
  refine (agrees_takeKeyword _).next fun _ => .ite ?_ (.fail _ _)
  exact (agrees_anyExpr hg).inParens.bind fun _ he =>
    .pure (by simpa [TableConstraint.parts] using he)

theorem agrees_tableConstraint : Agrees (tableConstraint g) (tableConstraint g')
    fun c => ∀ p ∈ c.parts, p.AllFormed d := by
  refine (agrees_identifier.afterKeyword _).bind fun name _ => ?_
  exact (agrees_constraintRule hg name).bind fun _ h => .pure h

/-- The parts in a part of the declaration of a table. -/
def TablePart.parts : TablePart → List Part
  | .column c => c.parts
  | .constraint c => c.parts

theorem agrees_tablePart : Agrees (tablePart g) (tablePart g')
    fun t => ∀ p ∈ t.parts, p.AllFormed d :=
  agrees_tableConstraintAt.next fun _ =>
    .ite ((agrees_tableConstraint hg).bind fun _ h => .pure h)
      ((agrees_columnDef hg).bind fun _ h => .pure h)

theorem agrees_tableParts : Agrees (tableParts g) (tableParts g')
    fun ts => ∀ t ∈ ts, ∀ p ∈ t.parts, p.AllFormed d := by
  refine (agrees_takeSymbol _).next fun _ => .ite ?_ (.pure (by simp))
  exact (agrees_tablePart hg).commaList.bind fun _ h => (agrees_expectSymbol _).next fun _ => .pure h.2

omit hg in
theorem agrees_temporaryWord : Agrees temporaryWord temporaryWord fun _ => True :=
  (agrees_takeKeyword _).next fun _ => .ite (.pure trivial) (agrees_takeKeyword _)

theorem agrees_createTable : Agrees (createTable g) (createTable g')
    fun c => (Statement.createTable c).Obeys (Part.Formed d) := by
  refine (agrees_expectKeyword _).next fun _ => agrees_temporaryWord.next fun _ => ?_
  refine (agrees_expectKeyword _).next fun _ => agrees_ifNotExists.next fun _ => ?_
  refine agrees_objectName.next fun _ => (agrees_tableParts hg).bind fun parts hparts => ?_
  refine (hg.query.afterKeyword _).bind fun query hq => .ite (.fail _ _) (.pure ?_)
  simp only [Statement.Obeys, Statement.parts, List.forall_mem_append, List.forall_mem_flatMap,
    List.forall_mem_map, List.mem_filterMap, Option.mem_toList]
  refine ⟨⟨?_, ?_⟩, hq⟩
  · rintro c ⟨t, ht, hc⟩
    cases t with
    | column c' => exact Option.some.inj hc ▸ hparts _ ht
    | constraint _ => cases hc
  · rintro c ⟨t, ht, hc⟩
    cases t with
    | column _ => cases hc
    | constraint c' => exact Option.some.inj hc ▸ hparts _ ht

theorem agrees_setColumn (name : Ident) : Agrees (setColumn g) (setColumn g')
    fun change => ∀ p ∈ (TableChange.alterColumn name change).parts, p.AllFormed d := by
  refine (agrees_takeKeyword _).next fun _ => .ite ?_ ?_
  · exact (agrees_anyExpr hg).bind fun _ he => .pure (by simpa [TableChange.parts] using he)
  refine (agrees_takeKeyword _).next fun _ => .ite ?_ ?_
  · exact (agrees_expectKeyword _).next fun _ => .pure (by simp [TableChange.parts])
  refine .token fun kind _ _ _ => .ite ?_ (.fail _ _)
  exact agrees_advance.next fun _ => (agrees_expectKeyword _).next fun _ =>
    agrees_dataType.bind fun _ _ => .pure (by simp [TableChange.parts])

omit hg in
theorem agrees_dropFromColumn (name : Ident) : Agrees dropFromColumn dropFromColumn
    fun change => ∀ p ∈ (TableChange.alterColumn name change).parts, p.AllFormed d :=
  (agrees_takeKeyword _).next fun _ => .ite (.pure (by simp [TableChange.parts]))
    ((agrees_expectKeyword _).next fun _ => (agrees_expectKeyword _).next fun _ =>
      .pure (by simp [TableChange.parts]))

theorem agrees_alterInTable : Agrees (alterInTable g) (alterInTable g')
    fun change => ∀ p ∈ change.parts, p.AllFormed d := by
  refine (agrees_takeKeyword _).next fun _ => agrees_identifier.next fun name => ?_
  refine Agrees.bind (P := fun change =>
    ∀ p ∈ (TableChange.alterColumn name change).parts, p.AllFormed d) ?_ fun _ h => .pure h
  refine (agrees_takeKeyword _).next fun _ => .ite (agrees_setColumn hg name) ?_
  refine (agrees_takeKeyword _).next fun _ => .ite (agrees_dropFromColumn name) ?_
  refine (agrees_takeKeyword _).next fun _ => .ite ?_ (.fail _ _)
  exact agrees_dataType.bind fun _ _ => .pure (by simp [TableChange.parts])

theorem agrees_addToTable : Agrees (addToTable g) (addToTable g')
    fun change => ∀ p ∈ change.parts, p.AllFormed d := by
  refine agrees_tableConstraintAt.next fun _ => .ite ?_ ?_
  · exact (agrees_tableConstraint hg).bind fun _ h => .pure h
  · exact (agrees_takeKeyword _).next fun _ => agrees_ifNotExists.next fun _ =>
      (agrees_columnDef hg).bind fun _ h => .pure h

omit hg in
theorem agrees_dropFromTable : Agrees dropFromTable dropFromTable
    fun change => ∀ p ∈ change.parts, p.AllFormed d := by
  refine (agrees_takeKeyword _).next fun _ => .ite ?_ ?_
  · exact agrees_ifExists.next fun _ => agrees_identifier.next fun _ =>
      .pure (by simp [TableChange.parts])
  · exact (agrees_takeKeyword _).next fun _ => agrees_ifExists.next fun _ =>
      agrees_identifier.next fun _ => .pure (by simp [TableChange.parts])

omit hg in
theorem agrees_renameInTable : Agrees renameInTable renameInTable
    fun change => ∀ p ∈ change.parts, p.AllFormed d := by
  refine (agrees_takeKeyword _).next fun _ => .ite ?_ ?_
  · exact agrees_objectName.next fun _ => .pure (by simp [TableChange.parts])
  · exact (agrees_takeKeyword _).next fun _ => agrees_identifier.next fun _ =>
      (agrees_expectKeyword _).next fun _ => agrees_identifier.next fun _ =>
        .pure (by simp [TableChange.parts])

theorem agrees_tableChange : Agrees (tableChange g) (tableChange g')
    fun change => ∀ p ∈ change.parts, p.AllFormed d := by
  refine (agrees_takeKeyword _).next fun _ => .ite (agrees_addToTable hg) ?_
  refine (agrees_takeKeyword _).next fun _ => .ite agrees_dropFromTable ?_
  refine (agrees_takeKeyword _).next fun _ => .ite agrees_renameInTable ?_
  exact (agrees_takeKeyword _).next fun _ => .ite (agrees_alterInTable hg) (.fail _ _)

theorem agrees_alterTable : Agrees (alterTable g) (alterTable g')
    fun a => (Statement.alterTable a).Obeys (Part.Formed d) := by
  refine (agrees_expectKeyword _).next fun _ => (agrees_expectKeyword _).next fun _ => ?_
  refine agrees_objectName.next fun _ => (agrees_tableChange hg).commaList.bind fun _ h => .pure ?_
  simpa only [Statement.Obeys, Statement.parts, List.forall_mem_flatMap] using h.2

end Readers

/-! ## All statements -/

/-- Whatever a reader answers satisfies `P`. -/
def Yields {α : Type} (p : Parse α) (P : α → Prop) : Prop :=
  ∀ c a c', p c = .ok a c' → P a

section Yields

variable {α β : Type} {p p' : Parse α} {f : α → Parse β} {P : α → Prop} {R : β → Prop}

theorem Agrees.yields (h : Agrees p p' P) : Yields p P :=
  fun c a c' hr => (h c c (.refl c) a c' hr).1

theorem Yields.pure {a : α} (h : P a) : Yields (Pure.pure a) P := by
  rintro _ _ _ ⟨⟩
  exact h

theorem Yields.fail (descriptions : List String) : Yields (fail descriptions) P := by
  rintro _ _ _ ⟨⟩

theorem Yields.bind (hp : Yields p P) (hf : ∀ a, P a → Yields (f a) R) : Yields (p >>= f) R := by
  intro c b c' hr
  rw [bind_apply] at hr
  cases hc : p c with
  | error e c₁ =>
    rw [hc] at hr
    cases hr
  | ok a c₁ =>
    rw [hc] at hr
    exact hf a (hp c a c₁ hc) c₁ b c' hr

theorem Yields.next (hf : ∀ a, Yields (f a) R) : Yields (p >>= f) R :=
  Yields.bind (P := fun _ => True) (fun _ _ _ _ => trivial) fun a _ => hf a

theorem Yields.ite {condition : Prop} [Decidable condition] {p₁ : Parse α} (hp : Yields p P)
    (hp₁ : Yields p₁ P) : Yields (if condition then p else p₁) P := by
  by_cases h : condition
  · rw [if_pos h]
    exact hp
  · rw [if_neg h]
    exact hp₁

theorem yields_collectWithin {step : Parse (Option α)} (h : Yields step fun o => ∀ a ∈ o, P a)
    (l : List Token) : Yields (collectWithin step l) fun as => ∀ a ∈ as, P a := by
  induction l with
  | nil =>
    refine h.bind fun o _ => ?_
    cases o with
    | none => exact .pure (by simp)
    | some a => rintro _ _ _ ⟨⟩
  | cons t l ih =>
    refine h.bind fun o ho => ?_
    cases o with
    | none => exact .pure (by simp)
    | some a => exact ih.bind fun as has => .pure (List.forall_mem_cons.2 ⟨ho a rfl, has⟩)

theorem Yields.collect {step : Parse (Option α)} (h : Yields step fun o => ∀ a ∈ o, P a) :
    Yields (collect step) fun as => ∀ a ∈ as, P a :=
  fun c => yields_collectWithin h c.ahead c

end Yields

variable {o : Options} {source : String}

theorem yields_unsupported (start : Nat) (P : Statement → Prop)
    (h : ∀ text, P (.unsupported text)) : Yields (unsupported o source start) P :=
  .next fun _ => .ite (.next fun _ => .next fun _ => .pure (h _)) (.fail _)

/-- Every part of a statement that is read has the form of the grammar. -/
theorem yields_statementBody :
    Yields (statementBody o source) fun s => s.Obeys (Part.Formed o.dialect) := by
  have hunsupported : ∀ start, Yields (unsupported o source start)
      fun s => s.Obeys (Part.Formed o.dialect) := fun start =>
    yields_unsupported start _ fun _ => by simp [Statement.Obeys, Statement.parts]
  refine .next fun start => .next fun ahead => .next fun token => ?_
  have hg := agree_productions o.dialect ahead ahead le_rfl
  have hquery := hg.query.yields.bind (f := fun q => Pure.pure (Statement.query q))
    (R := fun s => s.Obeys (Part.Formed o.dialect)) fun q hq =>
      .pure (by simpa [Statement.Obeys, Statement.parts] using hq)
  unfold statementFrom
  split
  · exact hquery
  · exact hquery
  · exact hquery
  · exact hquery
  · exact (agrees_insertStatement hg).yields.bind fun _ h => .pure h
  · exact (agrees_updateStatement hg).yields.bind fun _ h => .pure h
  · exact (agrees_deleteStatement hg).yields.bind fun _ h => .pure h
  · refine .next fun _ => .ite ?_ (hunsupported start)
    exact (agrees_createTable hg).yields.bind fun _ h => .pure h
  · refine .next fun _ => .ite ?_ (hunsupported start)
    exact (agrees_alterTable hg).yields.bind fun _ h => .pure h
  · refine .next fun request => ?_
    cases request with
    | none => exact hunsupported start
    | some r => exact .pure (by simp [Statement.Obeys, Statement.parts])
  · exact hunsupported start
  · exact hunsupported start
  · exact .fail _

theorem yields_singleStatement :
    Yields (singleStatement o source) fun s => s.Obeys (Part.Formed o.dialect) :=
  .next fun _ => .ite (.fail _) (yields_statementBody.bind fun _ hs => .next fun _ => .next fun _ =>
    .ite (.pure hs) (.fail _))

theorem yields_statements :
    Yields (statements o source) fun ss => ∀ s ∈ ss, s.Obeys (Part.Formed o.dialect) := by
  refine Yields.collect (.next fun _ => .next fun _ => .ite (.pure (by simp)) ?_)
  refine yields_statementBody.bind fun s hs => ?_
  have hsome : ∀ s' ∈ some s, s'.Obeys (Part.Formed o.dialect) := by
    rintro _ ⟨⟩
    exact hs
  exact .next fun _ => .ite (.pure hsome) (.next fun _ => .ite (.pure hsome) (.fail _))

end Parse

namespace Session

theorem read_yields {α : Type} {p : Parse α} {P : α → Prop} (h : Yields p P) (s : Session) :
    ∀ a, (s.read p).1 = .ok a → P a := by
  intro a ha
  cases he : s.lexError? with
  | some e =>
    rw [read_of_lexError he] at ha
    cases ha
  | none =>
    obtain ⟨_, hread⟩ := read_eq he p
    rw [hread] at ha
    obtain ⟨c, hc⟩ := answerOf_eq_ok.1 ha
    exact h _ a c hc

/-- Every part of every statement that a session answers has the form of the grammar. -/
theorem allFormed (s : Session) :
    (∀ t, s.statement.1 = .ok t → t.Obeys (Part.Formed s.options.dialect)) ∧
      ∀ ts, s.statements.1 = .ok ts → ∀ t ∈ ts, t.Obeys (Part.Formed s.options.dialect) :=
  ⟨s.read_yields yields_singleStatement, s.read_yields yields_statements⟩

end Session

end SqlTree
