import Mathlib
import SqlTree.Proofs.Writing.Pieces

/-! # Where certain pieces of a statement come from

Beyond its parts a statement is written with keywords, names, types and the usual arrangements of
these.

* `Usual.insert`, `Usual.update`, …: the pieces of a statement of each kind.
* `Statement.every_layout`: if the stars, question marks and defects of the parts of a statement
  satisfy a property, all pieces of the statement do.
-/

namespace SqlTree
set_option autoImplicit false

open Layout

namespace Usual

variable {P : Piece → Prop} (h : Usual P)
include h

/-! ## Changing rows -/

theorem assignments {as : List Assignment} (hc : ∀ c ∈ Assignment.parts as, c.layout.Every P) :
    (Assignment.listLayout as).Every P := by
  refine h.commas ?_
  simp only [List.forall_mem_map]
  intro a ha
  have hv := hc (.expr a.value) (List.mem_map_of_mem (f := fun a => Part.expr a.value) ha)
  replace hv : a.value.layout.Every P := hv
  simp [Assignment.layout, h.ident, h.gap, h.symbol, hv]

theorem parensAfterGap (names : List Ident) : (Ident.parensAfterGap names).Every P :=
  Every.onlyIf (by simp [h.gap, h.parens, h.identList]) _

theorem whereClause {condition : Option Expr}
    (hc : ∀ c ∈ Part.exprs condition.toList, c.layout.Every P) :
    (Expr.whereLayout condition).Every P :=
  layoutAfter (by simp [h.gap, h.keyword]) hc

theorem insertSource {s : InsertSource} (hc : ∀ c ∈ s.parts, c.layout.Every P) :
    s.layout.Every P := by
  cases s with
  | values vs => exact h.rows hc
  | query q => exact hc (.query q) (by simp [InsertSource.parts])
  | defaultValues => exact h.keywords _

theorem onConflict {c : OnConflict} (hc : ∀ p ∈ c.action.parts, p.layout.Every P) :
    c.layout.Every P := by
  obtain ⟨columns, action⟩ := c
  have ha : action.layout.Every P := by
    cases action with
    | doNothing => exact h.keywords _
    | doUpdate as => simp [ConflictAction.layout, h.keywords, h.gap, h.assignments hc]
  simp [OnConflict.layout, h.keywords, h.parensAfterGap, h.gap, ha]

theorem insert {i : Insert} (hc : ∀ c ∈ (Statement.insert i).parts, c.layout.Every P) :
    i.layout.Every P := by
  obtain ⟨withInto, table, columns, source, conflict⟩ := i
  obtain ⟨hs, ha⟩ := List.forall_mem_append.1 hc
  have hi : (onlyIf withInto [.keyword .INTO, .gap]).Every P :=
    Every.onlyIf (by simp [h.keyword, h.gap]) _
  simp only [Insert.layout, every_append, every_cons, every_nil, and_true]
  refine ⟨⟨⟨⟨⟨⟨h.keyword _, h.gap⟩, hi⟩, h.objectName table⟩, h.parensAfterGap columns⟩, h.gap,
    h.insertSource hs⟩, ?_⟩
  cases conflict with
  | none => exact every_nil
  | some c => exact every_cons.2 ⟨h.gap, h.onConflict ha⟩

theorem update {u : Update} (hc : ∀ c ∈ (Statement.update u).parts, c.layout.Every P) :
    u.layout.Every P := by
  obtain ⟨table, alias?, as, source, js, condition⟩ := u
  simp only [Statement.parts, List.forall_mem_append] at hc
  obtain ⟨⟨⟨ha, hs⟩, hj⟩, hw⟩ := hc
  simp only [Update.layout, every_append, every_cons, every_nil, and_true]
  refine ⟨⟨⟨⟨⟨⟨⟨h.keyword _, h.gap⟩, h.objectName table⟩, h.aliasAfter alias?⟩, h.gap, h.keyword _,
    h.gap⟩, h.assignments ha⟩, ?_⟩, h.whereClause hw⟩
  cases source with
  | none => exact every_nil
  | some item =>
    have hi : item.layout.Every P := hs (.item item) (by simp)
    simp [h.gap, h.keyword, hi, h.joins hj]

theorem delete {d : Delete} (hc : ∀ c ∈ (Statement.delete d).parts, c.layout.Every P) :
    d.layout.Every P := by
  have hf : (onlyIf d.withFrom [.keyword .FROM, .gap]).Every P :=
    Every.onlyIf (by simp [h.keyword, h.gap]) _
  simp [Delete.layout, h.keyword, h.gap, hf, h.objectName, h.aliasAfter, h.whereClause hc]

/-! ## Declaring tables -/

theorem foreignKeyRef (r : ForeignKeyRef) : r.layout.Every P := by
  simp [ForeignKeyRef.layout, h.keyword, h.gap, h.objectName, h.parensAfterGap]

theorem columnDef {c : ColumnDef} (hc : ∀ p ∈ c.parts, p.layout.Every P) : c.layout.Every P := by
  obtain ⟨name, type, nullable, default, primaryKey, unique, autoincrement, references⟩ := c
  simp only [ColumnDef.layout, every_append, every_cons]
  refine ⟨⟨⟨⟨⟨⟨⟨h.ident name, h.gap, h.dataType type⟩, ?_⟩, ?_⟩, ?_⟩, ?_⟩, ?_⟩, ?_⟩
  · exact Every.onlyIf (every_cons.2 ⟨h.gap, h.keywords _⟩) _
  · exact layoutAfter (by simp [h.gap, h.keyword]) hc
  · exact Every.onlyIf (every_cons.2 ⟨h.gap, h.keywords _⟩) _
  · exact Every.onlyIf (by simp [h.gap, h.keyword]) _
  · exact Every.onlyIf (by simp [h.gap, h.keyword]) _
  · cases references with
    | none => exact every_nil
    | some r => exact every_cons.2 ⟨h.gap, h.foreignKeyRef r⟩

theorem tableConstraint {c : TableConstraint} (hc : ∀ p ∈ c.parts, p.layout.Every P) :
    c.layout.Every P := by
  obtain ⟨name, rule⟩ := c
  have hr : rule.layout.Every P := by
    cases rule with
    | check condition =>
      have he : condition.layout.Every P := hc (.expr condition) (by simp [TableConstraint.parts])
      simp [ConstraintRule.layout, h.keyword, h.gap, h.parens he]
    | _ =>
      simp [ConstraintRule.layout, h.keyword, h.keywords, h.gap, h.parens, h.identList,
        h.foreignKeyRef]
  cases name <;> simp [TableConstraint.layout, h.keyword, h.gap, h.ident, hr]

theorem createTable {c : CreateTable}
    (hc : ∀ p ∈ (Statement.createTable c).parts, p.layout.Every P) : c.layout.Every P := by
  obtain ⟨temporary, ifNotExists, name, columns, constraints, query⟩ := c
  simp only [Statement.parts, List.forall_mem_append, List.forall_mem_flatMap] at hc
  obtain ⟨⟨hcols, hcons⟩, hq⟩ := hc
  have hp : (Layout.commas (columns.map ColumnDef.layout ++
      constraints.map TableConstraint.layout)).Every P := by
    refine h.commas ?_
    simp only [List.forall_mem_append, List.forall_mem_map]
    exact ⟨fun c hm => h.columnDef (hcols c hm), fun c hm => h.tableConstraint (hcons c hm)⟩
  simp only [CreateTable.layout, every_append, every_cons, every_nil, and_true]
  refine ⟨⟨⟨⟨⟨⟨⟨h.keyword _, h.gap⟩, ?_⟩, h.keyword _, h.gap⟩, ?_⟩, h.objectName name⟩, ?_⟩, ?_⟩
  · exact Every.onlyIf (by simp [h.keyword, h.gap]) _
  · exact Every.onlyIf (by simp [h.keywords, h.gap]) _
  · exact Every.onlyIf (every_cons.2 ⟨h.gap, h.parens hp⟩) _
  · cases query with
    | none => exact every_nil
    | some q =>
      have hl : q.layout.Every P := hq (.query q) (by simp)
      simp [h.gap, h.keyword, hl]

theorem tableChange {c : TableChange} (hc : ∀ p ∈ c.parts, p.layout.Every P) :
    c.layout.Every P := by
  have hif : ∀ (condition : Bool) (ks : List Keyword),
      (onlyIf condition (Layout.keywords ks ++ [.gap])).Every P := fun condition ks =>
    Every.onlyIf (by simp [h.keywords, h.gap]) condition
  have hcol : ∀ condition, (onlyIf condition [.keyword .COLUMN, .gap]).Every P :=
    Every.onlyIf (by simp [h.keyword, h.gap])
  cases c with
  | addColumn withColumn ifNotExists column =>
    simp [TableChange.layout, h.keyword, h.gap, hif, hcol, h.columnDef hc]
  | alterColumn name change =>
    have hch : change.layout.Every P := by
      cases change with
      | setDefault value =>
        have hv : value.layout.Every P := hc (.expr value) (by simp [TableChange.parts])
        simp [ColumnChange.layout, h.keywords, h.gap, hv]
      | _ => simp [ColumnChange.layout, h.keywords, h.keyword, h.word, h.gap, h.dataType]
    simp [TableChange.layout, h.keywords, h.gap, h.ident, hch]
  | addConstraint constraint =>
    simp [TableChange.layout, h.keyword, h.gap, h.tableConstraint hc]
  | _ => simp [TableChange.layout, h.keyword, h.keywords, h.gap, hif, hcol, h.ident, h.objectName]

theorem alterTable {a : AlterTable} (hc : ∀ p ∈ (Statement.alterTable a).parts, p.layout.Every P) :
    a.layout.Every P := by
  have hl : (Layout.commas (a.changes.map TableChange.layout)).Every P := by
    refine h.commas ?_
    simp only [List.forall_mem_map]
    exact fun c hm => h.tableChange fun p hp => hc p (List.mem_flatMap.2 ⟨c, hm, hp⟩)
  simp [AlterTable.layout, h.keywords, h.gap, h.objectName, hl]

theorem showSetting (r : Show) : r.layout.Every P := by
  cases r <;> simp [Show.layout, h.keyword, h.gap, h.word, h.ident, h.objectName]

end Usual

/-- If the stars, the question marks and the defects of the parts of a statement satisfy a property,
all pieces of the statement do. -/
theorem Statement.every_layout {P : Piece → Prop} (h : Usual P) {s : Statement}
    (hs : s.Obeys (Part.Marks P)) : s.layout.Every P := by
  have hc : ∀ p ∈ s.parts, p.layout.Every P := fun p hp => Part.every_layout h (hs p hp)
  cases s with
  | query q => exact hc (.query q) (by simp [Statement.parts])
  | insert i => exact h.insert hc
  | update u => exact h.update hc
  | delete d => exact h.delete hc
  | createTable c => exact h.createTable hc
  | alterTable a => exact h.alterTable hc
  | «show» r => exact h.showSetting r
  | unsupported words => simp [Statement.layout, h.word]

end SqlTree
