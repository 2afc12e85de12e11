import Mathlib
import SqlTree.Proofs.Reading.Statement
import SqlTree.Proofs.Writing.Query
import SqlTree.Proofs.Writing.Statement

/-! # Statements keep their tokens apart

* `Statement.apart`: no piece of a statement with plain names runs into the next one, if no piece of
  its parts does.
* `Insert.apart_front`, `CreateTable.apart_front`: the same for what stands in front of the query
  that a statement ends with.
-/

namespace SqlTree
set_option autoImplicit false

open Layout Parse

variable {dq : Bool}

/-! ## Arrangements of statements -/

theorem Ident.trails_parensAfterGap {names : List Ident} (h : ∀ i ∈ names, i.Plain dq) :
    (Ident.parensAfterGap names).Trails dq :=
  Trails.onlyIf (Ident.apart_listLayout (Ident.Plain.legalAll h)).parens.trails _

theorem Ident.apart_parens {names : List Ident} (h : ∀ i ∈ names, i.Plain dq) :
    (Layout.parens (Ident.listLayout names)).Apart dq :=
  (Ident.apart_listLayout (Ident.Plain.legalAll h)).parens

theorem trails_plainAlias {alias? : Option Alias} (h : ∀ a ∈ alias?, a.Plain dq) :
    (Alias.layoutAfter alias?).Trails dq :=
  Alias.trails_layoutAfter fun a ha => (h a ha).legal.1

theorem Expr.trails_where {condition : Option Expr}
    (h : ∀ c ∈ Part.exprs condition.toList, c.layout.Apart dq) :
    (Expr.whereLayout condition).Trails dq := by
  rw [Expr.whereLayout_eq]
  exact Expr.trails_clause h [.WHERE]

theorem Assignment.apart_list {as : List Assignment} (hl : Assignment.PlainList dq as)
    (h : ∀ c ∈ Assignment.parts as, c.layout.Apart dq) : (Assignment.listLayout as).Apart dq := by
  refine Apart.commas ?_
  simp only [List.forall_mem_map]
  intro a ha
  have hv : a.value.layout.Apart dq :=
    h (.expr a.value) (List.mem_map_of_mem (f := fun a => Part.expr a.value) ha)
  simp only [Assignment.layout, List.append_assoc, List.cons_append, List.nil_append]
  exact (hl.2 a ha).legal.apart.then hv.symbol_gap.trails

/-! ## Changing rows -/

theorem InsertSource.apart {s : InsertSource} (h : ∀ c ∈ s.parts, c.layout.Apart dq) :
    s.layout.Apart dq := by
  cases s with
  | values rows => exact Expr.apart_rowLayouts h
  | query q => exact h (.query q) (by simp [InsertSource.parts])
  | defaultValues => exact ((apart_nil : Layout.Apart dq []).keyword .VALUES rfl).gap.keyword .DEFAULT rfl

theorem OnConflict.apart {c : OnConflict} (hl : c.Plain dq)
    (h : ∀ p ∈ c.action.parts, p.layout.Apart dq) : c.layout.Apart dq := by
  obtain ⟨columns, action⟩ := c
  obtain ⟨hcols, ha⟩ := hl
  have haction : action.layout.Apart dq := by
    cases action with
    | doNothing => exact ((apart_nil : Layout.Apart dq []).keyword .NOTHING rfl).gap.keyword .DO rfl
    | doUpdate as => exact Apart.keywords (Assignment.apart_list ha h).gap rfl [.DO, .UPDATE, .SET]
  have hend := (Ident.trails_parensAfterGap hcols).append haction.trails
  rw [OnConflict.layout, List.append_assoc]
  exact Apart.keywords hend.apart hend.stops [.ON, .CONFLICT]

/-- What an `INSERT` statement is written with in front of its source. -/
theorem Insert.apart_front {i : Insert} (ht : i.table.Plain dq) (hc : ∀ c ∈ i.columns, c.Plain dq)
    {m : Layout} (hm : m.Apart dq) : (i.front ++ m).Apart dq := by
  have hname := ht.legal.apart.then ((Ident.trails_parensAfterGap hc).append hm.trails)
  simp only [Insert.front, List.append_assoc, List.cons_append, List.nil_append]
  exact ((hname.wordIf i.withInto .INTO).gap).keyword .INSERT rfl

theorem Insert.apart {i : Insert} (hl : i.Plain dq)
    (h : ∀ p ∈ (Statement.insert i).parts, p.layout.Apart dq) : i.layout.Apart dq := by
  rw [i.layout_eq]
  obtain ⟨h1, h2⟩ := List.forall_mem_append.1 h
  refine Insert.apart_front hl.1 hl.2.1 ((InsertSource.apart h1).then (Trails.optional fun c hc => ?_))
  refine (OnConflict.apart (hl.2.2.2.1 c hc) fun p hp => h2 p ?_).trails
  rw [Option.mem_def.1 hc]
  exact hp

theorem Update.apart {u : Update} (hl : u.Legal dq)
    (h : ∀ p ∈ (Statement.update u).parts, p.layout.Apart dq) : u.layout.Apart dq := by
  obtain ⟨table, alias?, as, source, js, condition⟩ := u
  obtain ⟨ht, ha, has, -, hj⟩ := hl
  simp only [Statement.parts, List.forall_mem_append] at h
  obtain ⟨⟨⟨h1, h2⟩, h3⟩, h4⟩ := h
  have hfrom : (Layout.optional (fun item : FromItem => Layout.behind [.FROM]
      (item.layout ++ Join.layouts js)) source).Trails dq := Trails.optional fun item hm =>
    Apart.behind (Apart.then (h2 (.item item) (List.mem_map_of_mem (by simpa using hm)))
      (Join.trails_layouts hj h3)) [.FROM]
  have hset := (Assignment.apart_list has h1).then (hfrom.append (Expr.trails_clause h4 [.WHERE]))
  have hname := ht.legal.apart.then ((trails_plainAlias ha).append (hset.gap.keyword .SET rfl).trails)
  rw [Update.layout_eq]
  simp only [List.append_assoc, List.cons_append, List.nil_append] at hname ⊢
  exact hname.gap.keyword .UPDATE rfl

theorem Delete.apart {s : Delete} (hl : s.Plain dq)
    (h : ∀ p ∈ (Statement.delete s).parts, p.layout.Apart dq) : s.layout.Apart dq := by
  have hname := hl.1.legal.apart.then ((trails_plainAlias hl.2).append (Expr.trails_where h))
  simp only [Delete.layout, List.append_assoc, List.cons_append, List.nil_append]
  exact (hname.wordIf s.withFrom .FROM).gap.keyword .DELETE rfl

/-! ## Declaring tables -/

theorem ForeignKeyRef.trails {f : ForeignKeyRef} (h : f.Plain dq) :
    Trails dq (.gap :: f.layout) := by
  have hname := h.1.legal.apart.then (Ident.trails_parensAfterGap h.2)
  simp only [ForeignKeyRef.layout, List.cons_append, List.nil_append]
  exact (hname.gap.keyword .REFERENCES rfl).trails

theorem trails_words (condition : Bool) (ks : List Keyword) :
    (onlyIf condition (.gap :: Layout.keywords ks)).Trails dq := by
  have h := Apart.keywords (apart_nil : Layout.Apart dq []) rfl ks
  rw [List.append_nil] at h
  exact Trails.onlyIf h.trails condition

theorem ColumnDef.apart {c : ColumnDef} (hl : c.Plain dq)
    (h : ∀ p ∈ c.parts, p.layout.Apart dq) : c.layout.Apart dq := by
  obtain ⟨hlegal, hfaithful⟩ := hl.2.1.legal_faithful
  have hdefault : (Layout.optional (fun e : Expr => Layout.behind [.DEFAULT] e.layout)
      c.default).Trails dq := Expr.trails_clause h [.DEFAULT]
  have hreferences : (Layout.optional (fun f : ForeignKeyRef => .gap :: f.layout)
      c.references).Trails dq := Trails.optional fun f hf => ForeignKeyRef.trails (hl.2.2 f hf)
  have hoptions : c.options.Trails dq :=
    (trails_words _ [.NOT, .NULL]).append <| hdefault.append <|
      (trails_words _ [.PRIMARY, .KEY]).append <| (trails_words _ [.UNIQUE]).append <|
        (trails_words _ [.AUTOINCREMENT]).append hreferences
  rw [c.layout_eq]
  exact hl.1.legal.apart.then ((c.type.apart hlegal hfaithful).then hoptions).trails

theorem ConstraintRule.apart {c : ConstraintRule} (hl : c.Plain dq)
    (h : ∀ e, c = .check e → e.layout.Apart dq) : c.layout.Apart dq := by
  cases c with
  | primaryKey columns => exact Apart.keywords (Ident.apart_parens hl.2).gap rfl [.PRIMARY, .KEY]
  | unique columns => exact (Ident.apart_parens hl.2).gap.keyword .UNIQUE rfl
  | foreignKey columns references =>
    have hend := (Ident.apart_parens hl.1.2).then (ForeignKeyRef.trails hl.2)
    simp only [ConstraintRule.layout, List.append_assoc, List.cons_append]
    exact Apart.keywords hend.gap rfl [.FOREIGN, .KEY]
  | check condition => exact (h condition rfl).parens.gap.keyword .CHECK rfl

theorem TableConstraint.apart {c : TableConstraint} (hl : c.Plain dq)
    (h : ∀ p ∈ c.parts, p.layout.Apart dq) : c.layout.Apart dq := by
  obtain ⟨name, rule⟩ := c
  have hrule := ConstraintRule.apart hl.2 fun e he => h (.expr e) (by
    dsimp only at he
    simp [TableConstraint.parts, he])
  cases name with
  | none => exact hrule
  | some name =>
    simp only [TableConstraint.layout, Option.elim_some, List.append_assoc, List.cons_append,
      List.nil_append]
    exact ((hl.1 name rfl).legal.apart.then hrule.trails).gap.keyword .CONSTRAINT rfl

/-- What a `CREATE TABLE` statement is written with in front of the query that it ends with. -/
theorem CreateTable.apart_front {c : CreateTable} (hl : c.Plain dq)
    (hcolumns : ∀ p ∈ c.columns.flatMap ColumnDef.parts, p.layout.Apart dq)
    (hconstraints : ∀ p ∈ c.constraints.flatMap TableConstraint.parts, p.layout.Apart dq)
    {m : Layout} (hm : m.Apart dq) (hs : c.query = none → m = []) : (c.front ++ m).Apart dq := by
  obtain ⟨hname, hcols, hcons, -⟩ := hl
  have hparts : (Layout.commas (c.declared.map TablePart.layout)).Apart dq := by
    refine Apart.commas ?_
    simp only [CreateTable.declared, List.map_append, List.map_map, List.forall_mem_append,
      List.forall_mem_map]
    exact ⟨fun d hd => ColumnDef.apart (hcols d hd) fun p hp =>
        hcolumns p (List.mem_flatMap_of_mem hd hp),
      fun d hd => TableConstraint.apart (hcons d hd) fun p hp =>
        hconstraints p (List.mem_flatMap_of_mem hd hp)⟩
  have has : (onlyIf c.query.isSome [.gap, .keyword .AS, .gap] ++ m).Trails dq := by
    cases hq : c.query with
    | none => rw [hs hq]; exact .nil
    | some q => exact (hm.gap.keyword .AS rfl).trails
  have hend := hname.legal.apart.then
    ((Trails.onlyIf hparts.parens.trails (!c.declared.isEmpty)).append has)
  have hwords {l : Layout} (h : l.Apart dq) :
      Apart dq (Layout.keywords [.IF, .NOT, .EXISTS] ++ [.gap] ++ l) := by
    rw [List.append_assoc]
    exact Apart.keywords h.gap rfl [.IF, .NOT, .EXISTS]
  have hif := Apart.behindIf c.ifNotExists hend hwords
  simp only [CreateTable.front, List.append_assoc, List.cons_append, List.nil_append] at hif ⊢
  exact ((hif.gap.keyword .TABLE rfl).wordIf c.temporary .TEMPORARY).gap.keyword .CREATE rfl

theorem CreateTable.apart {c : CreateTable} (hl : c.Plain dq)
    (h : ∀ p ∈ (Statement.createTable c).parts, p.layout.Apart dq) : c.layout.Apart dq := by
  simp only [Statement.parts, List.forall_mem_append] at h
  obtain ⟨⟨h1, h2⟩, h3⟩ := h
  rw [c.layout_eq]
  refine CreateTable.apart_front hl h1 h2 ?_ fun hq => by simp [hq]
  exact apart_optional fun q hq => h3 (.query q) (List.mem_map_of_mem (by simpa using hq))

theorem ColumnChange.apart {c : ColumnChange} (hl : c.Plain dq)
    (h : ∀ e, c = .setDefault e → e.layout.Apart dq) : c.layout.Apart dq := by
  have hwords : ∀ ks : List Keyword, (Layout.keywords ks).Apart dq := fun ks => by
    simpa using Apart.keywords (apart_nil : Layout.Apart dq []) rfl ks
  cases c with
  | setDefault value => exact Apart.keywords (h value rfl).gap rfl [.SET, .DEFAULT]
  | setType type =>
    obtain ⟨hlegal, hfaithful⟩ := DataType.ReadsBack.legal_faithful hl
    have hword : TokenKind.ofWord? dq "DATA" = some (.identifier "DATA" none) := by
      cases dq <;> decide
    have ht := ((type.apart hlegal hfaithful).gap.keyword .TYPE rfl).gap
    exact (ht.word hword (by simp) rfl).gap.keyword .SET rfl
  | _ => exact hwords _

theorem TableChange.apart {c : TableChange} (hl : c.Plain dq)
    (h : ∀ p ∈ c.parts, p.layout.Apart dq) : c.layout.Apart dq := by
  have hif : ∀ (condition : Bool) (ks : List Keyword) {m : Layout}, m.Apart dq →
      (onlyIf condition (Layout.keywords ks ++ [.gap]) ++ m).Apart dq := fun condition ks m hm =>
    hm.behindIf condition fun h => by
      rw [List.append_assoc]
      exact Apart.keywords h.gap rfl ks
  cases c with
  | addColumn withColumn ifNotExists column =>
    have hend := (hif ifNotExists [.IF, .NOT, .EXISTS] (ColumnDef.apart hl h)).wordIf withColumn
      .COLUMN
    simp only [TableChange.layout, List.append_assoc, List.cons_append, List.nil_append] at hend ⊢
    exact hend.gap.keyword .ADD rfl
  | dropColumn withColumn ifExists name =>
    have hend := (hif ifExists [.IF, .EXISTS] (Ident.Plain.legal hl).apart).wordIf withColumn .COLUMN
    simp only [TableChange.layout, List.append_assoc, List.cons_append, List.nil_append] at hend ⊢
    exact hend.gap.keyword .DROP rfl
  | renameColumn oldName newName =>
    have hend := hl.1.legal.apart.then (hl.2.legal.apart.gap.keyword .TO rfl).trails
    simp only [TableChange.layout, List.append_assoc, List.cons_append, List.nil_append] at hend ⊢
    exact Apart.keywords hend.gap rfl [.RENAME, .COLUMN]
  | renameTable newName =>
    exact Apart.keywords (ObjectName.Plain.legal hl).apart.gap rfl [.RENAME, .TO]
  | alterColumn name change =>
    have hchange := ColumnChange.apart hl.2 fun e he => h (.expr e) (by simp [he, TableChange.parts])
    have hend := hl.1.legal.apart.then hchange.trails
    simp only [TableChange.layout, List.append_assoc, List.cons_append] at hend ⊢
    exact Apart.keywords hend.gap rfl [.ALTER, .COLUMN]
  | addConstraint constraint => exact (TableConstraint.apart hl h).gap.keyword .ADD rfl
  | dropConstraint ifExists name =>
    have hend := hif ifExists [.IF, .EXISTS] (Ident.Plain.legal hl).apart
    simp only [TableChange.layout, List.append_assoc, List.cons_append] at hend ⊢
    exact Apart.keywords hend.gap rfl [.DROP, .CONSTRAINT]

theorem AlterTable.apart {a : AlterTable} (hl : a.Plain dq)
    (h : ∀ p ∈ (Statement.alterTable a).parts, p.layout.Apart dq) : a.layout.Apart dq := by
  have hchanges : (Layout.commas (a.changes.map TableChange.layout)).Apart dq := by
    refine Apart.commas ?_
    simp only [List.forall_mem_map]
    exact fun c hc => TableChange.apart (hl.2.2 c hc) fun p hp => h p (List.mem_flatMap_of_mem hc hp)
  have hend := hl.1.legal.apart.then hchanges.trails
  simp only [AlterTable.layout, List.append_assoc, List.cons_append] at hend ⊢
  exact Apart.keywords hend.gap rfl [.ALTER, .TABLE]

/-! ## Showing settings -/

theorem Show.apart {r : Show} (hl : r.Plain dq) : r.layout.Apart dq := by
  cases r with
  | «variable» name => exact (Ident.Plain.legal hl).apart.gap.keyword .SHOW rfl
  | indexes word table =>
    obtain ⟨kind, hw, -, hk⟩ := word.kind_word dq
    have hend := ((ObjectName.Plain.legal hl).apart.gap.keyword .FROM rfl).gap
    exact (hend.word hw hk rfl).gap.keyword .SHOW rfl

/-- No piece of a statement with plain names runs into the next one, if no piece of its parts
does. -/
theorem Statement.apart {s : Statement} (hl : s.Plain dq) (h : ∀ p ∈ s.parts, p.layout.Apart dq) :
    s.layout.Apart dq := by
  cases s with
  | query q => exact h (.query q) (by simp [Statement.parts])
  | insert i => exact Insert.apart hl h
  | update u => exact Update.apart hl.legal h
  | delete d => exact Delete.apart hl h
  | createTable c => exact CreateTable.apart hl h
  | alterTable a => exact AlterTable.apart hl h
  | «show» r => exact Show.apart hl
  | unsupported words => exact hl.elim

end SqlTree
