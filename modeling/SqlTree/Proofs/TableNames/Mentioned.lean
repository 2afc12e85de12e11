import Mathlib
import SqlTree.Proofs.TableNames.Mention
import SqlTree.Proofs.Tree.Induction

/-! # What is gone through for the names of tables

* `Part.gone`: the parts right below a part that are gone through. The numbers of limits and offsets
  are not, and neither is what turns rows into columns or columns into rows.
* `Part.named`: the names that a part mentions itself.
* `Part.Sees q p`: going through `p` comes to `q`.
* `Part.mem_mentions_iff`: what is mentioned is what some part that is come to mentions itself.
  `Statement.mem_mentions_iff` says the same of statements.
* `Part.Within.sees_or_leftOut`: a part that is not come to stands in one that is left out.
  `Part.of_leftOut` and `Statement.of_leftOut` tell which these are.
-/

namespace SqlTree
set_option autoImplicit false

/-! ## The way through a tree -/

/-- The parts right below a query that are gone through. -/
def Query.gone (q : Query) : List Part :=
  (q.ctes.elim [] fun w => w.ctes.map fun c => .query c.query) ++ [.body q.body] ++
    q.orderBy.map fun o => .expr o.expr

/-- The names given to queries in front of a query. -/
def Query.cteNames (q : Query) : List Ident :=
  q.ctes.elim [] fun w => w.ctes.map Cte.name

namespace Part

/-- The parts right below a part that are gone through. -/
def gone : Part → List Part
  | .query q => q.gone
  | .item i => i.relation.parts
  | p => p.children

/-- The names that a part mentions itself. -/
def named : Part → List Mention
  | .query q => q.cteNames.map .cte
  | .item i =>
    match i.relation with
    | .table name => [.table name]
    | _ => []
  | _ => []

/-- All names mentioned in a part. -/
def mentions : Part → List Mention
  | .expr e => e.mentions
  | .query q => q.mentions
  | .body b => b.mentions
  | .block s => s.mentions
  | .item i => i.mentions

/-- Going through a part comes to another one, or to the part itself. -/
inductive Sees : Part → Part → Prop where
  | refl {p} : Sees p p
  | child {q p c} (hc : c ∈ p.gone) (h : Sees q c) : Sees q p

theorem gone_subset (p : Part) : p.gone ⊆ p.children := by
  intro c hc
  cases p with
  | query q =>
    rw [children, Query.children, List.append_assoc, List.append_assoc]
    exact List.mem_append_left _ hc
  | item i =>
    rw [children, FromItem.children, List.append_assoc]
    exact List.mem_append_left _ hc
  | _ => exact hc

variable {p q : Part}

/-- Only numbers of limits and offsets are left out, and what rows or columns are made from. -/
theorem of_leftOut {c : Part} (hc : c ∈ p.children) (hgone : c ∉ p.gone) :
    (∃ q : Query, p = .query q ∧ (c ∈ q.limitBy.elim [] Limit.parts ∨
      c ∈ q.limit.elim [] Limit.parts ∨ c ∈ q.offset.elim [] fun o => [.expr o.count])) ∨
    ∃ i : FromItem, p = .item i ∧
      (c ∈ i.pivot.elim [] (fun v => SelectItem.parts (v.aggregates ++ v.items)) ∨
        c ∈ i.unpivot.elim [] fun u => SelectItem.parts u.items) := by
  cases p with
  | query q =>
    refine .inl ⟨q, rfl, ?_⟩
    rw [children, Query.children, List.append_assoc, List.append_assoc] at hc
    have hrest := (List.mem_append.1 hc).resolve_left hgone
    rwa [List.mem_append, List.mem_append] at hrest
  | item i =>
    refine .inr ⟨i, rfl, ?_⟩
    rw [children, FromItem.children, List.append_assoc, List.mem_append, List.mem_append] at hc
    exact hc.resolve_left hgone
  | _ => exact absurd hc hgone

/-- A part within another one is come to, or it stands in one that is left out. -/
theorem Within.sees_or_leftOut (h : Within q p) :
    Sees q p ∨ ∃ r c, Sees r p ∧ c ∈ r.children ∧ c ∉ r.gone ∧ Within q c := by
  induction h with
  | refl => exact .inl .refl
  | @child p c hc h ih =>
    by_cases hgone : c ∈ p.gone
    · refine ih.imp (.child hgone) ?_
      rintro ⟨r, d, hr, hd⟩
      exact ⟨r, d, .child hgone hr, hd⟩
    · exact .inr ⟨p, c, .refl, hc, hgone, h⟩

end Part

/-! ## Names in lists of trees -/

theorem Expr.listMentions_eq (es : List Expr) :
    Expr.listMentions es = (Part.exprs es).flatMap Part.mentions := by
  induction es with
  | nil => rw [Expr.listMentions, Part.exprs, List.map_nil, List.flatMap_nil]
  | cons e es ih =>
    rw [Expr.listMentions, ih]
    rfl

theorem Expr.optionMentions_eq (e? : Option Expr) :
    Expr.optionMentions e? = (Part.exprs e?.toList).flatMap Part.mentions := by
  cases e? with
  | none => rw [Expr.optionMentions]; rfl
  | some e => simp [Expr.optionMentions, Part.exprs, Part.mentions]

theorem Expr.rowMentions_eq (rows : List (List Expr)) :
    Expr.rowMentions rows = (Part.ofRows rows).flatMap Part.mentions := by
  induction rows with
  | nil => rw [Expr.rowMentions]; rfl
  | cons row rows ih =>
    rw [Expr.rowMentions, ih, Expr.listMentions_eq]
    simp [Part.ofRows, Part.exprs, List.flatMap_append]

theorem SelectItem.listMentions_eq (items : List SelectItem) :
    SelectItem.listMentions items = (SelectItem.parts items).flatMap Part.mentions := by
  induction items with
  | nil => rw [SelectItem.listMentions]; rfl
  | cons i items ih =>
    obtain ⟨e, alias?⟩ := i
    rw [SelectItem.listMentions, ih, SelectItem.mentions]
    rfl

theorem WhenArm.listMentions_eq (arms : List WhenArm) : WhenArm.listMentions arms =
    (arms.flatMap fun a => [Part.expr a.condition, .expr a.result]).flatMap Part.mentions := by
  induction arms with
  | nil => rw [WhenArm.listMentions]; rfl
  | cons a arms ih =>
    obtain ⟨condition, result⟩ := a
    rw [WhenArm.listMentions, ih, WhenArm.mentions]
    simp [Part.mentions]

theorem OrderItem.listMentions_eq (items : List OrderItem) :
    OrderItem.listMentions items = (items.map fun o => Part.expr o.expr).flatMap Part.mentions := by
  induction items with
  | nil => rw [OrderItem.listMentions]; rfl
  | cons o items ih =>
    obtain ⟨e, direction⟩ := o
    rw [OrderItem.listMentions, ih, OrderItem.mentions]
    rfl

theorem Join.listMentions_eq (joins : List Join) :
    Join.listMentions joins = (joins.flatMap Join.parts).flatMap Part.mentions := by
  induction joins with
  | nil => rw [Join.listMentions]; rfl
  | cons j joins ih =>
    obtain ⟨kind, item, constraint⟩ := j
    rw [Join.listMentions, ih, Join.mentions]
    cases constraint <;> simp [JoinConstraint.mentions, Join.parts, Part.mentions]

theorem Cte.mem_listMentions {m : Mention} (ctes : List Cte) :
    m ∈ Cte.listMentions ctes ↔
      m ∈ ctes.map (fun c => Mention.cte c.name) ∨ ∃ c ∈ ctes, m ∈ c.query.mentions := by
  induction ctes with
  | nil => simp [Cte.listMentions]
  | cons c ctes ih =>
    obtain ⟨name, columns, query⟩ := c
    simp only [Cte.listMentions, Cte.mentions, List.cons_append, List.mem_cons, List.mem_append, ih,
      List.map_cons, exists_eq_or_imp]
    tauto

/-! ## One step down -/

theorem Expr.mentions_eq (e : Expr) : e.mentions = e.children.flatMap Part.mentions := by
  cases e with
  | wildcard table except replace =>
    cases replace <;>
      simp [Expr.mentions, Expr.children, SelectItem.listMentions_eq, SelectItem.parts]
  | struct value =>
    obtain ⟨style, word, fields, arguments⟩ := value
    cases arguments <;>
      simp [Expr.mentions, StructValue.mentions, Expr.children, SelectItem.listMentions_eq,
        SelectItem.parts]
  | call c =>
    obtain ⟨name, distinct, arguments⟩ := c
    simp [Expr.mentions, FunctionCall.mentions, Expr.children, Expr.listMentions_eq]
  | _ =>
    simp [Expr.mentions, Expr.children, Part.mentions, Expr.listMentions_eq, Expr.optionMentions_eq,
      WhenArm.listMentions_eq]

theorem SetExpr.mentions_eq (b : SetExpr) : b.mentions = b.children.flatMap Part.mentions := by
  cases b <;> simp [SetExpr.mentions, SetExpr.children, Part.mentions, Expr.rowMentions_eq]

theorem Select.mentions_eq (s : Select) : s.mentions = s.children.flatMap Part.mentions := by
  obtain ⟨distinct, items, source, joins, condition, groupBy, having, qualify⟩ := s
  cases source <;>
    simp [Select.mentions, Select.children, Part.mentions, SelectItem.listMentions_eq,
      Join.listMentions_eq, Expr.optionMentions_eq, Expr.listMentions_eq, Part.exprs]

theorem FromItem.mentions_eq (i : FromItem) :
    i.mentions = (Part.item i).named ++ i.relation.parts.flatMap Part.mentions := by
  obtain ⟨relation, alias?, pivot, unpivot⟩ := i
  cases relation with
  | function lead c =>
    obtain ⟨name, distinct, arguments⟩ := c
    simp [FromItem.mentions, Relation.mentions, Part.named, Relation.parts, FunctionCall.mentions,
      Expr.listMentions_eq]
  | _ =>
    simp [FromItem.mentions, Relation.mentions, Part.named, Relation.parts, Part.mentions,
      Expr.rowMentions_eq, Join.listMentions_eq]

variable {m : Mention}

theorem Query.mem_mentions (q : Query) :
    m ∈ q.mentions ↔ m ∈ (Part.query q).named ∨ ∃ c ∈ q.gone, m ∈ c.mentions := by
  obtain ⟨ctes, body, orderBy, limitBy, limit, offset⟩ := q
  have horder : m ∈ OrderItem.listMentions orderBy ↔ ∃ o ∈ orderBy, m ∈ o.expr.mentions := by
    rw [OrderItem.listMentions_eq]
    simp [Part.mentions]
  cases ctes with
  | none =>
    simp [Query.mentions, Part.named, Query.cteNames, Query.gone, Part.mentions, horder]
  | some w =>
    obtain ⟨recursive, ctes⟩ := w
    simp [Query.mentions, With.mentions, Part.named, Query.cteNames, Query.gone, Part.mentions,
      horder, Cte.mem_listMentions, or_and_right, exists_or, or_assoc]

namespace Part

/-- A part mentions what it names itself, and what the parts mention that are gone through. -/
theorem mem_mentions (p : Part) : m ∈ p.mentions ↔ m ∈ p.named ∨ ∃ c ∈ p.gone, m ∈ c.mentions := by
  cases p with
  | expr e => simp [mentions, named, gone, children, Expr.mentions_eq e]
  | query q => exact q.mem_mentions
  | body b => simp [mentions, named, gone, children, SetExpr.mentions_eq b]
  | block s => simp [mentions, named, gone, children, Select.mentions_eq s]
  | item i => simp [mentions, gone, FromItem.mentions_eq i]

/-- A part mentions what the parts name that going through it comes to. -/
theorem mem_mentions_iff (p : Part) : m ∈ p.mentions ↔ ∃ q, Sees q p ∧ m ∈ q.named := by
  induction p using Part.induct with
  | step p ih =>
    rw [p.mem_mentions]
    constructor
    · rintro (hm | ⟨c, hc, hm⟩)
      · exact ⟨p, .refl, hm⟩
      · obtain ⟨q, hq, hm⟩ := (ih c (gone_subset p hc)).1 hm
        exact ⟨q, .child hc hq, hm⟩
    · rintro ⟨q, hq, hm⟩
      cases hq with
      | refl => exact .inl hm
      | child hc hq => exact .inr ⟨_, hc, (ih _ (gone_subset p hc)).2 ⟨q, hq, hm⟩⟩

end Part

/-! ## Statements -/

namespace Statement

/-- The outermost parts of a statement that are gone through. Defaults of columns and conditions on
the rows of a table are not. -/
def gone : Statement → List Part
  | .createTable c => c.query.toList.map .query
  | .alterTable _ => []
  | s => s.parts

/-- The names that a statement mentions itself: the table that it changes or declares, those that
foreign keys refer to, and the one whose indexes are shown. -/
def named : Statement → List Mention
  | .insert i => [.table i.table]
  | .update u => [.table u.table]
  | .delete d => [.table d.table]
  | .createTable c =>
    .table c.name :: c.columns.flatMap ColumnDef.mentions ++
      c.constraints.flatMap TableConstraint.mentions
  | .alterTable a => a.mentions
  | .show r => r.mentions
  | .query _ | .unsupported _ => []

/-- Of a statement itself only declarations of columns and conditions on rows are left out. -/
theorem of_leftOut {s : Statement} {c : Part} (hc : c ∈ s.parts) (hgone : c ∉ s.gone) :
    (∃ t : CreateTable, s = .createTable t ∧ (c ∈ t.columns.flatMap ColumnDef.parts ∨
      c ∈ t.constraints.flatMap TableConstraint.parts)) ∨
    ∃ a : AlterTable, s = .alterTable a ∧ c ∈ a.changes.flatMap TableChange.parts := by
  cases s with
  | createTable t =>
    refine .inl ⟨t, rfl, ?_⟩
    rw [parts, List.mem_append, List.mem_append] at hc
    exact hc.resolve_right hgone
  | alterTable a => exact .inr ⟨a, rfl, hc⟩
  | _ => exact absurd hc hgone

/-- Going through a statement comes to a part. -/
def Sees (s : Statement) (q : Part) : Prop :=
  ∃ p ∈ s.gone, Part.Sees q p

end Statement

theorem Assignment.listMentions_eq (as : List Assignment) :
    Assignment.listMentions as = (Assignment.parts as).flatMap Part.mentions := by
  rw [Assignment.listMentions, Assignment.parts, List.flatMap_map]
  rfl

theorem InsertSource.mentions_eq (i : InsertSource) :
    i.mentions = i.parts.flatMap Part.mentions := by
  cases i <;> simp [InsertSource.mentions, InsertSource.parts, Part.mentions, Expr.rowMentions_eq]

theorem OnConflict.mentions_eq (c : OnConflict) :
    c.mentions = c.action.parts.flatMap Part.mentions := by
  unfold OnConflict.mentions
  cases c.action <;> simp [ConflictAction.parts, Assignment.listMentions_eq]

namespace Statement

theorem mentions_eq (s : Statement) : s.mentions = s.named ++ s.gone.flatMap Part.mentions := by
  cases s with
  | query q => simp [mentions, named, gone, parts, Part.mentions]
  | insert i =>
    obtain ⟨withInto, table, columns, source, conflict⟩ := i
    cases conflict <;>
      simp [mentions, Insert.mentions, named, gone, parts, InsertSource.mentions_eq,
        OnConflict.mentions_eq]
  | update u =>
    obtain ⟨table, alias?, assignments, source, joins, condition⟩ := u
    cases source <;>
      simp [mentions, Update.mentions, named, gone, parts, Assignment.listMentions_eq,
        Join.listMentions_eq, Expr.optionMentions_eq, Part.mentions]
  | delete d =>
    simp [mentions, Delete.mentions, named, gone, parts, Expr.optionMentions_eq]
  | createTable c =>
    obtain ⟨temporary, ifNotExists, name, columns, constraints, query⟩ := c
    cases query <;> simp [mentions, CreateTable.mentions, named, gone, Part.mentions]
  | alterTable a => simp [mentions, named, gone]
  | «show» r => simp [mentions, named, gone, parts]
  | unsupported text => simp [mentions, named, gone, parts]

/-- A statement mentions what it names itself, and what the parts name that going through it comes
to. -/
theorem mem_mentions_iff {m : Mention} (s : Statement) :
    m ∈ s.mentions ↔ m ∈ s.named ∨ ∃ q, s.Sees q ∧ m ∈ q.named := by
  rw [mentions_eq, List.mem_append, List.mem_flatMap]
  refine or_congr Iff.rfl ⟨?_, ?_⟩
  · rintro ⟨p, hp, hm⟩
    obtain ⟨q, hq, hm⟩ := p.mem_mentions_iff.1 hm
    exact ⟨q, ⟨p, hp, hq⟩, hm⟩
  · rintro ⟨q, ⟨p, hp, hq⟩, hm⟩
    exact ⟨p, hp, p.mem_mentions_iff.2 ⟨q, hq, hm⟩⟩

end Statement
end SqlTree
