import Mathlib
import SqlTree.Proofs.Reading.Query
import SqlTree.Proofs.Writing.Expr

/-! # Queries keep their tokens apart

* `Part.apart`: no piece of a clear part runs into the next one.
* `FromItem.apart_step`, `Select.apart_step`, `Query.apart_step`: one step for each kind of part.
-/

namespace SqlTree
set_option autoImplicit false

open Layout Parse

variable {d : Dialect} {dq : Bool}

/-! ## Rows and joins -/

theorem Expr.apart_rowLayouts {rows : List (List Expr)}
    (h : ∀ c ∈ Part.ofRows rows, c.layout.Apart dq) :
    (Layout.valueRows (Expr.rowLayouts rows)).Apart dq := by
  have hr : ∀ l ∈ rows.map Expr.rowLayout, l.Apart dq := by
    simp only [List.forall_mem_map]
    intro row hrow
    refine Apart.parens (Apart.commas ?_)
    simp only [List.forall_mem_map]
    exact fun e he => h (.expr e) (List.mem_map_of_mem (List.mem_flatten.2 ⟨row, hrow, he⟩))
  rw [Layout.valueRows, Expr.rowLayouts_eq_map]
  exact (Apart.commas hr).gap.keyword _ rfl

theorem JoinConstraint.trails {j : Join} (hl : j.Legal dq) (h : ∀ c ∈ j.parts, c.layout.Apart dq) :
    j.constraint.layout.Trails dq := by
  obtain ⟨kind, item, constraint⟩ := j
  cases constraint with
  | on e =>
    have he : e.layout.Apart dq := h (.expr e) (by simp [Join.parts])
    exact (he.gap.keyword _ rfl).trails
  | «using» columns => exact ((Ident.apart_listLayout hl.2).parens.gap.keyword _ rfl).trails
  | none => exact .nil

theorem Join.trails {j : Join} (hl : j.Legal dq) (h : ∀ c ∈ j.parts, c.layout.Apart dq) :
    j.layout.Trails dq := by
  have hc := JoinConstraint.trails hl h
  have hi : j.item.layout.Apart dq := h (.item j.item) (by simp [Join.parts])
  obtain ⟨kind, item, constraint⟩ := j
  have ht : Apart dq (.gap :: (item.layout ++ constraint.layout)) := (hi.then hc).gap
  cases kind with
  | comma =>
    simp only [Join.layout, JoinKind.layout, onlyIf, List.append_assoc]
    exact ⟨ht.mark rfl, rfl⟩
  | _ =>
    simp only [Join.layout, JoinKind.layout, List.append_assoc]
    exact (Apart.keywords ht rfl _).trails

theorem Join.trails_layouts {joins : List Join} (hl : ∀ j ∈ joins, j.Legal dq)
    (h : ∀ c ∈ joins.flatMap Join.parts, c.layout.Apart dq) : (Join.layouts joins).Trails dq := by
  induction joins with
  | nil => exact .nil
  | cons j joins ih =>
    obtain ⟨h1, h2⟩ := List.forall_mem_append.1 (List.flatMap_cons ▸ h)
    exact (Join.trails (hl j (by simp)) h1).append (ih (fun j hj => hl j (by simp [hj])) h2)

/-! ## Items to read from -/

theorem Relation.apart {r : Relation} (hl : r.Legal dq) (h : ∀ c ∈ r.parts, c.layout.Apart dq) :
    r.layout.Apart dq := by
  cases r with
  | table name => exact ObjectName.Legal.apart hl
  | query q => exact (h (.query q) (by simp [Relation.parts])).parens
  | lateral q => exact (h (.query q) (by simp [Relation.parts])).parens.gap.keyword _ rfl
  | function lead c =>
    obtain ⟨hlead, hn⟩ := hl
    have hc := Expr.apart_call (.inl hn) (Expr.apart_exprs h)
    rcases hlead with rfl | rfl
    · exact hc
    · exact hc.gap.word (ofWord?_keyword dq .LATERAL) (by simp) rfl
  | joined item joins =>
    obtain ⟨hi, hj⟩ := List.forall_mem_cons.1 h
    exact (Apart.then hi (Join.trails_layouts hl hj)).parens
  | values rows => exact (Expr.apart_rowLayouts h).parens

theorem ColumnRef.apart_list {columns : List ColumnRef} (h : ∀ c ∈ columns, c.Legal dq) :
    (commas (columns.map ColumnRef.layout)).Apart dq :=
  Apart.commas (by simpa using fun c hc => (h c hc).apart)

theorem Pivot.apart {p : Pivot} (hl : p.Legal dq)
    (h : ∀ c ∈ SelectItem.parts (p.aggregates ++ p.items), c.layout.Apart dq) :
    p.layout.Apart dq := by
  obtain ⟨aggregates, columns, items, alias?⟩ := p
  obtain ⟨⟨-, ha⟩, ⟨-, hc⟩, ⟨-, hi⟩, hal⟩ := hl
  simp only [SelectItem.parts, List.map_append, List.forall_mem_append] at h
  have h1 := SelectItem.apart_commas h.1 ha
  have h2 := (SelectItem.apart_commas h.2 hi).parens
  have h3 := (ColumnRef.apart_list hc).parensIf (columns.length != 1)
  have hin := (h1.append ((h3.append (h2.gap.keyword .IN rfl).gap rfl).gap.keyword .FOR rfl).gap rfl).parens
  have hend := hin.then (Alias.trails_layoutAfter fun a hm => (hal a hm).1)
  simp only [Pivot.layout, List.append_assoc] at hend ⊢
  exact (hend.gap.keyword _ rfl).gap

theorem Unpivot.apart {u : Unpivot} (hl : u.Legal dq)
    (h : ∀ c ∈ SelectItem.parts u.items, c.layout.Apart dq) : u.layout.Apart dq := by
  obtain ⟨includeNulls, valueColumns, nameColumns, items, alias?⟩ := u
  obtain ⟨⟨-, hv⟩, ⟨-, hn⟩, ⟨-, hi⟩, hal⟩ := hl
  have h1 := (Ident.apart_listLayout hv).parensIf (valueColumns.length != 1)
  have h2 := (Ident.apart_listLayout hn).parensIf (nameColumns.length != 1)
  have h3 := (SelectItem.apart_commas h hi).parens
  have hin := (h1.append ((h2.append (h3.gap.keyword .IN rfl).gap rfl).gap.keyword .FOR rfl).gap rfl).parens
  have hend := hin.then (Alias.trails_layoutAfter fun a hm => (hal a hm).1)
  simp only [Unpivot.layout, List.append_assoc] at hend ⊢
  cases includeNulls with
  | none => exact (hend.gap.keyword _ rfl).gap
  | some included =>
    cases included <;> exact (((hend.gap.keyword _ rfl).gap.keyword _ rfl).gap.keyword _ rfl).gap

theorem FromItem.apart_step {i : FromItem} (hl : i.Legal dq)
    (h : ∀ c ∈ i.children, c.layout.Apart dq) : i.layout.Apart dq := by
  obtain ⟨relation, alias?, pivot, unpivot⟩ := i
  obtain ⟨hr, ha, hp, hu⟩ := hl
  simp only [FromItem.children, List.forall_mem_append] at h
  obtain ⟨⟨h1, h2⟩, h3⟩ := h
  have hpivot : (Layout.optional Pivot.layout pivot).Trails dq := Trails.optional fun p hm => by
    cases hm
    exact ⟨Pivot.apart (hp p rfl) h2, by cases p; rfl⟩
  have hunpivot : (Layout.optional Unpivot.layout unpivot).Trails dq := Trails.optional fun u hm => by
    cases hm
    exact ⟨Unpivot.apart (hu u rfl) h3, by cases u; rfl⟩
  rw [FromItem.layout_eq, List.append_assoc, List.append_assoc]
  exact (Relation.apart hr h1).then ((Alias.trails_layoutAfter ha).append (hpivot.append hunpivot))

/-! ## Blocks and bodies -/

theorem Expr.trails_clause {e? : Option Expr} (h : ∀ c ∈ Part.exprs e?.toList, c.layout.Apart dq)
    (ks : List Keyword) :
    (Layout.optional (fun e : Expr => Layout.behind ks e.layout) e?).Trails dq :=
  Trails.optional fun e he => Apart.behind (h (.expr e) (List.mem_map_of_mem (by simpa using he))) ks

theorem Select.apart_step {s : Select} (hl : s.Legal dq)
    (h : ∀ c ∈ s.children, c.layout.Apart dq) : s.layout.Apart dq := by
  obtain ⟨distinct, items, source, joins, condition, groupBy, having, qualify⟩ := s
  obtain ⟨⟨-, hi⟩, -, hj⟩ := hl
  simp only [Select.children, Part.exprs, List.map_append, List.forall_mem_append] at h
  obtain ⟨⟨⟨hitems, hsource⟩, hjoins⟩, ⟨⟨hcond, hgroup⟩, hhaving⟩, hqualify⟩ := h
  have hselect := SelectItem.apart_commas hitems hi
  have hcommas := Expr.apart_commas (Expr.apart_exprs hgroup)
  rw [SelectItem.layouts_eq_map] at hselect
  rw [Expr.layouts_eq_map] at hcommas
  have hfrom : (Layout.optional (fun item : FromItem => Layout.behind [.FROM]
      (item.layout ++ Join.layouts joins)) source).Trails dq := Trails.optional fun item hm =>
    Apart.behind (Apart.then (hsource (.item item) (List.mem_map_of_mem (by simpa using hm)))
      (Join.trails_layouts hj hjoins)) [.FROM]
  have hend := hselect.then (hfrom.append ((Expr.trails_clause hcond [.WHERE]).append
    (((hcommas.behind [.GROUP, .BY]).onlyIf (!groupBy.isEmpty)).append
      ((Expr.trails_clause hhaving [.HAVING]).append (Expr.trails_clause hqualify [.QUALIFY])))))
  have hdistinct := hend.wordIf distinct .DISTINCT
  rw [Select.layout_eq]
  simp only [List.append_assoc, List.cons_append]
  exact hdistinct.gap.keyword _ rfl

theorem SetExpr.apart_step {b : SetExpr} (h : ∀ c ∈ b.children, c.layout.Apart dq) :
    b.layout.Apart dq := by
  cases b with
  | select s => exact h (.block s) (by simp [SetExpr.children])
  | parens q => exact (h (.query q) (by simp [SetExpr.children])).parens
  | combine op quantifier left right =>
    have hl := h (.body left) (by simp [SetExpr.children])
    have hr := h (.body right) (by simp [SetExpr.children])
    have hq : (quantifier.layout ++ .gap :: right.layout).Trails dq := by
      cases quantifier with
      | none => exact hr.trails
      | all => exact (hr.gap.keyword _ rfl).trails
      | distinct => exact (hr.gap.keyword _ rfl).trails
    rw [SetExpr.layout, List.append_assoc, List.append_assoc]
    exact hl.then (hq.keyword op.keyword).trails
  | values rows => exact Expr.apart_rowLayouts h

/-! ## Queries -/

theorem Cte.apart {c : Cte} (hn : c.name.Legal dq) (hc : ∀ i ∈ c.columns, i.Legal dq)
    (hq : c.query.layout.Apart dq) : c.layout.Apart dq := by
  obtain ⟨name, columns, query⟩ := c
  rw [Cte.layout, List.append_assoc, List.append_assoc]
  exact hn.apart.then (((Ident.apart_listLayout hc).parens.trails.onlyIf _).append
    (hq.parens.gap.keyword _ rfl).trails)

theorem With.apart {w : With} (hl : w.Legal dq) (h : ∀ c ∈ w.ctes, c.query.layout.Apart dq)
    {m : Layout} (hm : m.Apart dq) : (w.layout ++ m).Apart dq := by
  obtain ⟨recursive, ctes⟩ := w
  have hc : (commas (Cte.layouts ctes)).Apart dq := by
    rw [Cte.layouts_eq_map]
    refine Apart.commas ?_
    simpa using fun c hm => Cte.apart (hl.2.1 c hm).1 (hl.2.1 c hm).2 (h c hm)
  have hrec := (hc.then hm.trails).wordIf recursive .RECURSIVE
  simp only [With.layout, List.append_assoc, List.cons_append, List.nil_append]
  exact hrec.gap.keyword _ rfl

theorem OrderItem.apart {o : OrderItem} (h : o.expr.layout.Apart dq) : o.layout.Apart dq := by
  obtain ⟨expr, direction, nulls⟩ := o
  have hn : (NullOrdering.layoutAfter nulls).Trails dq := Trails.optional fun n _ => by
    cases n <;> exact ((apart_nil.keyword _ rfl).gap.keyword _ rfl).trails
  rw [OrderItem.layout_eq, List.append_assoc]
  cases direction with
  | none => exact h.then hn
  | some direction => exact h.then (hn.keyword _).trails

theorem Limit.trails {l : Limit} (hl : l.Legal d) (h : ∀ c ∈ l.parts, c.layout.Apart dq) :
    l.layout.Trails dq := by
  rw [hl.layout_eq]
  obtain ⟨rowCount, offset, all, null, groups⟩ := l
  simp only [Limit.parts, Part.exprs, List.map_append, List.forall_mem_append] at h
  obtain ⟨⟨ho, hc⟩, hg⟩ := h
  have hgroups : (Layout.optional (fun es : List Expr => Layout.behind [.BY]
      (commas (es.map Expr.layout))) groups).Trails dq := Trails.optional fun es hm => by
    cases hm
    rw [← Expr.layouts_eq_map]
    exact (Expr.apart_commas (Expr.apart_exprs hg)).behind [.BY]
  have hcount : (Limit.count ⟨rowCount, offset, all, null, groups⟩).Apart dq := by
    unfold Limit.count
    split
    · exact apart_nil.keyword _ rfl
    · split
      · exact apart_nil.keyword _ rfl
      · have hrows : (Layout.optional Expr.layout rowCount).Apart dq :=
          apart_optional fun e he => hc (.expr e) (List.mem_map_of_mem (by simpa using he))
        cases offset with
        | none => exact hrows
        | some o =>
          have ho := ho (.expr o) (by simp)
          simp only [Layout.optional_some, List.append_assoc]
          exact ho.append (hrows.gap.mark rfl) rfl
  have hend := (hcount.then hgroups).behind [.LIMIT]
  simpa only [Layout.behind, List.append_assoc, List.cons_append] using hend

theorem Offset.trails {o : Offset} (h : o.count.layout.Apart dq) : o.layout.Trails dq := by
  obtain ⟨count, word⟩ := o
  have hw : word.layout.Trails dq := by
    cases word with
    | none => exact .nil
    | row => exact (apart_nil.keyword _ rfl).trails
    | rows => exact (apart_nil.keyword _ rfl).trails
  simp only [Offset.layout, List.append_assoc]
  exact ((h.then hw).gap.keyword _ rfl).trails

theorem Query.apart_step {q : Query} (hl : q.Legal d) (h : ∀ c ∈ q.children, c.layout.Apart d.dq) :
    q.layout.Apart d.dq := by
  obtain ⟨ctes, body, orderBy, limitBy, limit, offset⟩ := q
  obtain ⟨hw, hby, hlimit⟩ := hl
  simp only [Query.children, List.forall_mem_append, List.forall_mem_map, List.forall_mem_cons] at h
  obtain ⟨⟨⟨⟨⟨hctes, hbody, -⟩, horder⟩, hcby⟩, hclimit⟩, hoffset⟩ := h
  have h1 : (Layout.optional Offset.layout offset).Trails d.dq := Trails.optional fun o hm => by
    cases hm
    exact Offset.trails (hoffset (.expr o.count) (by simp))
  have h2 : (Layout.optional Limit.layout limit).Trails d.dq := Trails.optional fun l hm => by
    cases hm
    exact Limit.trails (hlimit l rfl).1 hclimit
  have h3 : (Layout.optional Limit.layout limitBy).Trails d.dq := Trails.optional fun l hm => by
    cases hm
    exact Limit.trails (hby l rfl).1 hcby
  have horders : (commas (orderBy.map OrderItem.layout)).Apart d.dq := by
    refine Apart.commas ?_
    simpa using fun o hm => OrderItem.apart (horder o hm)
  have hend := Apart.then hbody (((horders.behind [.ORDER, .BY]).onlyIf (!orderBy.isEmpty)).append
    (h3.append (h2.append h1)))
  rw [Query.layout_eq]
  simp only [List.append_assoc]
  cases ctes with
  | none => exact hend
  | some w => exact With.apart (hw w rfl) (fun c hc => hctes (.query c.query) (List.mem_map_of_mem hc)) hend

/-! ## Any part -/

/-- No piece of a clear part runs into the next one. -/
theorem Part.apart {p : Part} (h : p.Obeys (Part.Clear d)) : p.layout.Apart d.dq := by
  refine Part.Obeys.induct (P := fun p => p.layout.Apart d.dq) (fun p hp ih => ?_) h
  cases p with
  | expr e => exact Expr.apart_step hp ih
  | query q => exact Query.apart_step hp.head.1 ih
  | body b => exact SetExpr.apart_step ih
  | block s => exact Select.apart_step hp.head.1 ih
  | item i => exact FromItem.apart_step hp.head.1 ih

end SqlTree
