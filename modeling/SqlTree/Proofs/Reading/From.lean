import Mathlib
import SqlTree.Proofs.Reading.Operator

/-! # What a query reads from is read back

* `takes_valueRows`, `takes_pivot`, `takes_unpivot`, `takes_joins`: the parts, one lemma for each
  reader of `Query.Grammar.From`.
* `reads_fromItem`: an item is read back by readers of everything shorter.
-/

namespace SqlTree
set_option autoImplicit false

open Parse

variable {d : Dialect} {g : Productions} {bound : Nat} {r : Layout}

/-! ## Rows of values -/

section Readers

variable (hg : g.Reads d bound)
include hg

theorem takes_valueRow {row : List Expr} (h : ∀ e ∈ row, e.Clear d)
    (hs : (Expr.rowLayout row).size ≤ bound) :
    Takes d.dq (valueRow g) ((Expr.rowLayout row).solid ++ r) row r := by
  have hend : Takes d.dq (do
      expectSymbol .rightParen
      return row) (.symbol .rightParen :: r) row r :=
    (takes_expectSymbol _ r (by decide)).bind (.pure _ r)
  simp only [Expr.rowLayout, Layout.parens, Layout.size_symbol, Layout.size_append,
    Layout.size_nil] at hs
  simp only [Expr.rowLayout, Layout.parens, Layout.solid_symbol, Layout.solid_append,
    Layout.solid_nil, List.cons_append, List.append_assoc, List.nil_append]
  refine (takes_expectSymbol _ _ (by decide)).bind ?_
  cases row with
  | nil => exact (takes_symbolAt_yes rfl (by decide) (by simp)).bind ((Takes.pure [] _).bind hend)
  | cons e es =>
    have hno : kindAhead d.dq ((Layout.commas ((e :: es).map Expr.layout)).solid ++
        .symbol .rightParen :: r) 0 ≠ .symbol .rightParen := by
      rw [List.map_cons, Layout.commas, solid_sepBy, List.append_assoc]
      exact e.kindAhead_ne (h e (by simp)) _ rfl
    have hlist := takes_exprList (r := .symbol .rightParen :: r) hg (by simp) h (by omega) (.inl rfl)
      (by simp)
    exact (takes_symbolAt_no hno (by decide) (by simp)).bind (hlist.bind hend)

theorem takes_valueRows {rows : List (List Expr)} (hne : rows ≠ [])
    (h : ∀ row ∈ rows, ∀ e ∈ row, e.Clear d)
    (hs : (Layout.valueRows (Expr.rowLayouts rows)).size ≤ bound)
    (hr : kindAhead d.dq r 0 ≠ .symbol .comma) :
    Takes d.dq (valueRows g) ((Layout.valueRows (Expr.rowLayouts rows)).solid ++ r) rows r := by
  rw [Layout.valueRows, Expr.rowLayouts_eq_map] at hs ⊢
  simp only [Layout.size_append, Layout.size_keyword, Layout.size_gap, Layout.size_nil] at hs
  refine (takes_expectKeyword _ _).bind ?_
  refine takes_commaList hr hne fun row hrow r' _ => takes_valueRow hg (h row hrow) ?_
  have hrow := size_of_mem_commas (List.mem_map_of_mem (f := Expr.rowLayout) hrow)
  omega

/-! ## Rows into columns, columns into rows -/

omit hg in
theorem takes_columnName {c : ColumnRef} (hl : c.Legal d.dq)
    (hr : kindAhead d.dq r 0 ≠ .symbol .dot) :
    Takes d.dq columnName (c.layout.solid ++ r) c r := by
  obtain ⟨first, more, hn, hcol, hlay⟩ := ColumnRef.exists_names hl.1
  have hnames : ∀ i ∈ first :: more, i.Legal d.dq := hn ▸ hl.2
  rw [hlay]
  refine (takes_dottedName hnames fun h => absurd h hr).bind ?_
  simp only [hcol]
  exact .pure c r

omit hg in
theorem takes_oneOrMoreColumns {columns : List ColumnRef} (hne : columns ≠ [])
    (h : ∀ c ∈ columns, c.Legal d.dq) (hr : kindAhead d.dq r 0 ≠ .symbol .dot) :
    Takes d.dq oneOrMoreColumns
      ((Layout.parensIf (columns.length != 1)
        (Layout.commas (columns.map ColumnRef.layout))).solid ++ r) columns r := by
  match columns with
  | [] => contradiction
  | [c] =>
    obtain ⟨first, more, hn, -, hlay⟩ := ColumnRef.exists_names (h c (by simp)).1
    have hfirst : first.Legal d.dq := (h c (by simp)).2 first (by simp [hn])
    have hno : kindAhead d.dq (c.layout.solid ++ r) 0 ≠ .symbol .leftParen := by
      rw [hlay, ObjectName.layout, List.map_cons, solid_sepBy, List.append_assoc]
      exact startsName_symbol (hfirst.startsName _) _
    exact (takes_takeSymbol_no hno (by decide)).bind ((takes_columnName (h c (by simp)) hr).bind (.pure _ r))
  | c :: c' :: columns =>
    have hlist : Takes d.dq (commaList columnName)
        ((Layout.commas ((c :: c' :: columns).map ColumnRef.layout)).solid ++
          .symbol .rightParen :: r) (c :: c' :: columns) (.symbol .rightParen :: r) := by
      refine takes_commaList (by simp) (by simp) fun a ha r' hr' => takes_columnName (h a ha) ?_
      rcases hr' with ⟨-, rfl⟩ | ⟨l, rfl⟩ <;> simp
    simp only [Layout.parensIf, Layout.parens, List.length_cons, bne_iff_ne, ne_eq,
      Nat.add_eq_right, Nat.add_eq_zero_iff, one_ne_zero, and_false, not_false_eq_true, if_true,
      Layout.solid_symbol, Layout.solid_append, Layout.solid_nil, List.cons_append,
      List.append_assoc, List.nil_append]
    exact (takes_takeSymbol_yes _ _ (by decide)).bind
      (hlist.bind ((takes_expectSymbol _ r (by decide)).bind (.pure _ r)))

theorem takes_closingItems {items : List SelectItem} (hl : SelectItem.LegalList d.dq items)
    (h : ∀ i ∈ items, i.expr.Clear d) (hf : ∀ i ∈ items, i.Faithful)
    (hs : (Layout.commas (items.map SelectItem.layout)).size < bound) :
    Takes d.dq (closingItems g)
      (.keyword .IN :: ((Layout.parens (Layout.commas (items.map SelectItem.layout))).solid ++
        .symbol .rightParen :: r)) items r := by
  have hitems := takes_selectItems (r := .symbol .rightParen :: .symbol .rightParen :: r) hg hl h hf
    hs (.inl rfl) rfl (by simp) (by simp)
  simp only [Layout.parens, Layout.solid_symbol, Layout.solid_append, Layout.solid_nil,
    List.cons_append, List.append_assoc, List.nil_append]
  refine (takes_expectKeyword _ _).bind ((takes_expectSymbol _ _ (by decide)).bind (hitems.bind ?_))
  exact (takes_expectSymbol _ _ (by decide)).bind ((takes_expectSymbol _ r (by decide)).bind (.pure _ r))

theorem takes_pivot {p : Pivot} (hl : p.Legal d.dq)
    (h : ∀ i ∈ p.aggregates ++ p.items, i.expr.Clear d)
    (hf : ∀ i ∈ p.aggregates ++ p.items, i.Faithful) (hs : p.layout.size ≤ bound)
    (hr : p.alias? = none →
      kindAhead d.dq r 0 ≠ .keyword .AS ∧ startsName (kindAhead d.dq r 0) = false) :
    Takes d.dq (pivot g) (p.layout.solid ++ r) p r := by
  obtain ⟨aggregates, columns, items, alias?⟩ := p
  obtain ⟨ha, ⟨hne, hc⟩, hi, hal⟩ := hl
  dsimp only at ha hne hc hi hal hr h hf
  simp only [List.forall_mem_append] at h hf
  simp only [Pivot.layout, SelectItem.layouts_eq_map, Layout.parens, Layout.size_append,
    Layout.size_gap, Layout.size_keyword, Layout.size_symbol, Layout.size_nil] at hs
  have haggregates := takes_selectItems (r := .keyword .FOR :: ((Layout.parensIf
    (columns.length != 1) (Layout.commas (columns.map ColumnRef.layout))).solid ++
      .keyword .IN :: ((Layout.parens (Layout.commas (items.map SelectItem.layout))).solid ++
        .symbol .rightParen :: ((Alias.layoutAfter alias?).solid ++ r)))) hg ha h.1 hf.1 (by omega)
    (.inl rfl) rfl (by simp) (by simp)
  have hcolumns := takes_oneOrMoreColumns (r := .keyword .IN :: ((Layout.parens
    (Layout.commas (items.map SelectItem.layout))).solid ++ .symbol .rightParen ::
      ((Alias.layoutAfter alias?).solid ++ r))) hne hc (by simp)
  have hitems := takes_closingItems (r := (Alias.layoutAfter alias?).solid ++ r) hg hi h.2 hf.2
    (by omega)
  have hlay : (Pivot.layout ⟨aggregates, columns, items, alias?⟩).solid ++ r =
      .keyword .PIVOT :: .symbol .leftParen ::
        ((Layout.commas (aggregates.map SelectItem.layout)).solid ++ .keyword .FOR ::
          ((Layout.parensIf (columns.length != 1)
            (Layout.commas (columns.map ColumnRef.layout))).solid ++ .keyword .IN ::
              ((Layout.parens (Layout.commas (items.map SelectItem.layout))).solid ++
                .symbol .rightParen :: ((Alias.layoutAfter alias?).solid ++ r)))) := by
    simp [Pivot.layout, SelectItem.layouts_eq_map, Layout.parens]
  rw [hlay]
  refine (takes_expectKeyword _ _).bind ((takes_expectSymbol _ _ (by decide)).bind (haggregates.bind ?_))
  refine (takes_expectKeyword _ _).bind (hcolumns.bind (hitems.bind ?_))
  exact (takes_optionalAlias hal hr).bind (.pure _ r)

/-- The words that say whether nulls are kept or left out. -/
def nullWords : Option Bool → Layout
  | some true => [.keyword .INCLUDE, .keyword .NULLS]
  | some false => [.keyword .EXCLUDE, .keyword .NULLS]
  | none => []

omit hg in
theorem takes_includeNulls (includeNulls : Option Bool)
    (hr : kindAhead d.dq r 0 = .symbol .leftParen) :
    Takes d.dq Parse.includeNulls (nullWords includeNulls ++ r) includeNulls r := by
  match includeNulls with
  | some true =>
    exact (takes_takeKeyword_yes _ _).bind ((takes_expectKeyword _ r).bind (.pure _ r))
  | some false =>
    refine (takes_takeKeyword_no (by simp [nullWords])).bind ((takes_takeKeyword_yes _ _).bind ?_)
    exact (takes_expectKeyword _ r).bind (.pure _ r)
  | none =>
    refine (takes_takeKeyword_no (by simp [nullWords, hr])).bind ?_
    exact (takes_takeKeyword_no (by simp [nullWords, hr])).bind (.pure _ r)

theorem takes_unpivot {u : Unpivot} (hl : u.Legal d.dq) (h : ∀ i ∈ u.items, i.expr.Clear d)
    (hf : ∀ i ∈ u.items, i.Faithful) (hs : u.layout.size ≤ bound)
    (hr : u.alias? = none →
      kindAhead d.dq r 0 ≠ .keyword .AS ∧ startsName (kindAhead d.dq r 0) = false) :
    Takes d.dq (unpivot g) (u.layout.solid ++ r) u r := by
  obtain ⟨includeNulls, valueColumns, nameColumns, items, alias?⟩ := u
  obtain ⟨⟨hvne, hv⟩, ⟨hnne, hn⟩, hi, hal⟩ := hl
  dsimp only at hvne hv hnne hn hi hal hr h hf
  have hs' : (Layout.commas (items.map SelectItem.layout)).size < bound := by
    simp only [Unpivot.layout, SelectItem.layouts_eq_map, Layout.parens, Layout.size_append,
      Layout.size_gap, Layout.size_keyword, Layout.size_symbol, Layout.size_nil] at hs
    omega
  have hitems := takes_closingItems (r := (Alias.layoutAfter alias?).solid ++ r) hg hi h hf hs'
  have hnames := takes_oneOrMoreIdentifiers (r := .keyword .IN :: ((Layout.parens
    (Layout.commas (items.map SelectItem.layout))).solid ++ .symbol .rightParen ::
      ((Alias.layoutAfter alias?).solid ++ r))) hnne hn
  have hvalues := takes_oneOrMoreIdentifiers (r := .keyword .FOR :: ((Layout.parensIf
    (nameColumns.length != 1) (Ident.listLayout nameColumns)).solid ++ .keyword .IN ::
      ((Layout.parens (Layout.commas (items.map SelectItem.layout))).solid ++ .symbol .rightParen ::
        ((Alias.layoutAfter alias?).solid ++ r)))) hvne hv
  have hlay : (Unpivot.layout ⟨includeNulls, valueColumns, nameColumns, items, alias?⟩).solid ++ r =
      .keyword .UNPIVOT :: (nullWords includeNulls ++ .symbol .leftParen :: ((Layout.parensIf (valueColumns.length != 1)
          (Ident.listLayout valueColumns)).solid ++ .keyword .FOR ::
            ((Layout.parensIf (nameColumns.length != 1) (Ident.listLayout nameColumns)).solid ++
              .keyword .IN :: ((Layout.parens (Layout.commas (items.map SelectItem.layout))).solid ++
                .symbol .rightParen :: ((Alias.layoutAfter alias?).solid ++ r))))) := by
    rcases includeNulls with _ | _ | _ <;>
      simp [Unpivot.layout, nullWords, SelectItem.layouts_eq_map, Layout.parens]
  rw [hlay]
  refine (takes_expectKeyword _ _).bind ((takes_includeNulls includeNulls rfl).bind ?_)
  refine (takes_expectSymbol _ _ (by decide)).bind (hvalues.bind ((takes_expectKeyword _ _).bind ?_))
  exact hnames.bind (hitems.bind ((takes_optionalAlias hal hr).bind (.pure _ r)))

/-! ## Joins -/

omit hg in
theorem takes_joinKind (kind : JoinKind) :
    Takes d.dq joinKind (kind.layout.solid ++ r) (some kind) r := by
  have hadvance : ∀ {p : Piece} {l : Layout}, p ≠ .closingAngle → p.questions = 0 →
      Takes d.dq advance (p :: l) () l := takes_advance
  have hjoin : ∀ k : JoinKind, Takes d.dq (do
      expectKeyword .JOIN
      return some k) (.keyword .JOIN :: r) (some k) r := fun k =>
    (takes_expectKeyword _ r).bind (.pure _ r)
  have houter : ∀ (k : JoinKind) (w : Keyword),
      Takes d.dq (outerJoin k) (.keyword w :: .keyword .JOIN :: r) (some k) r := fun k w =>
    (hadvance (by simp) rfl).bind ((takes_takeKeyword_no (by simp)).bind (hjoin k))
  cases kind with
  | comma =>
    refine takes_current (p := .symbol .comma) (by simp) fun t ht _ => ?_
    simp only [ht]
    exact (hadvance (by simp) rfl).bind (.pure _ r)
  | inner =>
    refine takes_current (p := .keyword .JOIN) (by simp) fun t ht _ => ?_
    simp only [ht]
    exact (hadvance (by simp) rfl).bind (.pure _ r)
  | innerExplicit =>
    refine takes_current (p := .keyword .INNER) (by simp) fun t ht _ => ?_
    simp only [ht]
    exact (hadvance (by simp) rfl).bind (hjoin _)
  | left =>
    refine takes_current (p := .keyword .LEFT) (by simp) fun t ht _ => ?_
    simp only [ht]
    exact houter _ _
  | right =>
    refine takes_current (p := .keyword .RIGHT) (by simp) fun t ht _ => ?_
    simp only [ht]
    exact houter _ _
  | full =>
    refine takes_current (p := .keyword .FULL) (by simp) fun t ht _ => ?_
    simp only [ht]
    exact houter _ _
  | cross =>
    refine takes_current (p := .keyword .CROSS) (by simp) fun t ht _ => ?_
    simp only [ht]
    exact (hadvance (by simp) rfl).bind (hjoin _)

omit hg in
/-- Nothing is joined where no comma and no word of a join stands ahead. -/
theorem takes_joinKind_none (hs : r.head? ≠ some .closingAngle)
    (hr : endsJoins (kindAhead d.dq r 0) = true) : Takes d.dq joinKind r none r := by
  refine takes_current_plain hs fun t ht => ?_
  simp only [ht]
  cases hk : kindAhead d.dq r 0 with
  | symbol s =>
    rw [hk] at hr
    cases s <;> first | exact .pure none r | exact absurd hr (by decide)
  | keyword k =>
    rw [hk] at hr
    cases k <;> first | exact .pure none r | exact absurd hr (by decide)
  | _ => exact .pure none r

theorem takes_joinConstraint {constraint : JoinConstraint}
    (hl : ∀ columns, constraint = .using columns → columns ≠ [] ∧ ∀ i ∈ columns, i.Legal d.dq)
    (h : ∀ e, constraint = .on e → e.Clear d ∧ e.layout.size < bound ∧ Breaks d e.layout r)
    (hr : constraint = .none →
      kindAhead d.dq r 0 ≠ .keyword .ON ∧ kindAhead d.dq r 0 ≠ .keyword .USING) :
    Takes d.dq (joinConstraint g) (constraint.layout.solid ++ r) constraint r := by
  cases constraint with
  | on e =>
    obtain ⟨hc, hs, hb⟩ := h e rfl
    exact (takes_takeKeyword_yes _ _).bind ((takes_expr hg hc hs hb).bind (.pure _ r))
  | «using» columns =>
    obtain ⟨hne, hc⟩ := hl columns rfl
    refine (takes_takeKeyword_no (by simp [JoinConstraint.layout])).bind ?_
    refine (takes_takeKeyword_yes _ _).bind ?_
    exact (takes_identifiersInParens hne hc).bind (.pure _ r)
  | none =>
    obtain ⟨hon, husing⟩ := hr rfl
    exact (takes_takeKeyword_no hon).bind ((takes_takeKeyword_no husing).bind (.pure _ r))

omit hg in
/-- The token in front of a joined item. -/
theorem Join.head_layout (j : Join) :
    ∃ p l, j.layout.solid = p :: l ∧ endsItem (p.kind d.dq) = true ∧
      breaksExpr (p.kind d.dq) = true ∧ p.kind d.dq ≠ .keyword .ON ∧
      p.kind d.dq ≠ .keyword .USING := by
  obtain ⟨kind, item, constraint⟩ := j
  cases kind <;> exact ⟨_, _, rfl, rfl, rfl, by rintro ⟨⟩, by rintro ⟨⟩⟩

omit hg in
theorem Join.ahead_layouts (hr : endsItem (kindAhead d.dq r 0) = true) (joins : List Join) :
    endsItem (kindAhead d.dq ((Join.layouts joins).solid ++ r) 0) = true := by
  cases joins with
  | nil => exact hr
  | cons j joins =>
    obtain ⟨p, l, hl, hp, -⟩ := j.head_layout (d := d)
    simpa [Join.layouts, hl] using hp

theorem gathers_join (hs : r.head? ≠ some .closingAngle)
    (hr : endsJoins (kindAhead d.dq r 0) = true) :
    ∀ joins : List Join, (∀ j ∈ joins, j.Legal d.dq) →
      (∀ j ∈ joins, ∀ p ∈ j.parts, p.Obeys (Part.Clear d)) → (Join.layouts joins).size ≤ bound →
      Breaks d (Join.layouts joins) r →
      (Join.endOpen joins = true → kindAhead d.dq r 0 ≠ .keyword .ON) →
      Gathers d.dq (join g) ((Join.layouts joins).solid ++ r) joins r
  | [], _, _, _, _, _ => .done ((takes_joinKind_none hs hr).bind (.pure none r))
  | ⟨kind, item, constraint⟩ :: joins, hl, h, hsize, hb, ho => by
    have hitem : item.Clear d := h ⟨kind, item, constraint⟩ (by simp) (.item item)
      (by simp [Join.parts])
    have hcondition : ∀ e, constraint = .on e → e.Clear d := by
      rintro e rfl
      exact h ⟨kind, item, .on e⟩ (by simp) (.expr e) (by simp [Join.parts])
    have husing : ∀ columns, constraint = .using columns →
        columns ≠ [] ∧ ∀ i ∈ columns, i.Legal d.dq := by
      rintro columns rfl
      exact hl ⟨kind, item, .using columns⟩ (by simp)
    simp only [Join.layouts, Join.layout, Layout.size_append, Layout.size_gap] at hsize
    have hkind : 0 < kind.layout.size := by cases kind <;> decide
    rw [Join.layouts] at hb
    have ho' : Join.endOpen joins = true → kindAhead d.dq r 0 ≠ .keyword .ON := by
      intro hopen
      refine ho ?_
      cases joins with
      | nil => simp [Join.endOpen] at hopen
      | cons j joins => simpa [Join.endOpen] using hopen
    have ih := gathers_join hs hr joins (fun j hj => hl j (by simp [hj]))
      (fun j hj => h j (by simp [hj])) (by omega) hb.suffix ho'
    have hends : endsItem (kindAhead d.dq r 0) = true := by
      simp only [endsJoins, Bool.and_eq_true] at hr
      exact hr.1
    have hrest := Join.ahead_layouts hends joins
    -- Behind the item stands its constraint, or what stands behind the join.
    have hnext : endsItem (kindAhead d.dq (constraint.layout.solid ++
        ((Join.layouts joins).solid ++ r)) 0) = true := by
      cases constraint with
      | on e => rfl
      | «using» columns => rfl
      | none => exact hrest
    have hread := hg.fromItem item hitem (by omega) _ hnext
    have hconstraint : Takes d.dq (joinConstraint g)
        (constraint.layout.solid ++ ((Join.layouts joins).solid ++ r)) constraint
        ((Join.layouts joins).solid ++ r) := by
      refine takes_joinConstraint hg husing ?_ ?_
      · rintro e rfl
        refine ⟨hcondition e rfl, ?_, ?_⟩
        · simp only [JoinConstraint.layout, Layout.size_append] at hsize
          omega
        · cases joins with
          | nil =>
            simp only [Join.layouts, Join.layout, JoinConstraint.layout, List.append_nil] at hb
            rw [← List.append_assoc] at hb
            exact hb.suffix
          | cons j joins =>
            obtain ⟨p, l, hl, -, hp, -⟩ := j.head_layout (d := d)
            exact .inl (by simpa [Join.layouts, hl] using hp)
      · rintro rfl
        cases joins with
        | nil =>
          refine ⟨ho rfl, ?_⟩
          rintro hu
          simp only [Join.layouts, Layout.solid_nil, List.nil_append] at hu
          rw [hu] at hr
          exact absurd hr (by decide)
        | cons j joins =>
          obtain ⟨p, l, hl, -, -, hp, hp'⟩ := j.head_layout (d := d)
          simpa [Join.layouts, hl] using ⟨hp, hp'⟩
    have hlay : (Join.layouts (⟨kind, item, constraint⟩ :: joins)).solid ++ r =
        kind.layout.solid ++ (item.layout.solid ++ (constraint.layout.solid ++
          ((Join.layouts joins).solid ++ r))) := by
      cases kind <;> simp [Join.layouts, Join.layout, Layout.onlyIf]
    rw [hlay]
    refine .more ((takes_joinKind kind).bind (hread.bind (hconstraint.bind (.pure _ _)))) ?_ ih
    simp only [Layout.size_append, Layout.size_solid]
    omega

theorem takes_joins {joins : List Join} (hs : r.head? ≠ some .closingAngle)
    (hr : endsJoins (kindAhead d.dq r 0) = true) (hl : ∀ j ∈ joins, j.Legal d.dq)
    (h : ∀ j ∈ joins, ∀ p ∈ j.parts, p.Obeys (Part.Clear d))
    (hsize : (Join.layouts joins).size ≤ bound) (hb : Breaks d (Join.layouts joins) r)
    (ho : Join.endOpen joins = true → kindAhead d.dq r 0 ≠ .keyword .ON) :
    Takes d.dq (Parse.joins g) ((Join.layouts joins).solid ++ r) joins r :=
  takes_collect (gathers_join hg hs hr joins hl h hsize hb ho)

/-! ## Items -/

omit hg in
/-- The token that an item to read from begins with. -/
theorem Relation.head_layout {s : Relation} (h : s.Legal d.dq) :
    ∃ p l, s.layout.solid = p :: l ∧ p ≠ .closingAngle ∧ (startsName (p.kind d.dq) = true ∨
      p.kind d.dq = .symbol .leftParen ∨ p.kind d.dq = .keyword .LATERAL) := by
  have hname : ∀ {n : ObjectName}, n.Legal d.dq → ∃ p l, n.layout.solid = p :: l ∧
      p ≠ .closingAngle ∧ startsName (p.kind d.dq) = true := by
    rintro ⟨parts⟩ ⟨hne, hl⟩
    cases parts with
    | nil => exact absurd rfl hne
    | cons first more =>
      rw [ObjectName.layout, List.map_cons, solid_sepBy]
      exact ⟨.word first.text, _, rfl, by simp, (hl first (by simp)).startsName []⟩
  cases s with
  | table name =>
    obtain ⟨p, l, hl, hp, hk⟩ := hname h
    exact ⟨p, l, hl, hp, .inl hk⟩
  | query q => exact ⟨_, _, rfl, by simp, .inr (.inl rfl)⟩
  | lateral q => exact ⟨_, _, rfl, by simp, .inr (.inr rfl)⟩
  | function lead c =>
    obtain ⟨hlead, hn⟩ := h
    rcases hlead with rfl | rfl
    · obtain ⟨name, distinct, arguments⟩ := c
      obtain ⟨p, l, hl, hp, hk⟩ := hname hn
      dsimp only at hl
      simp only [Relation.layout, FunctionCall.layout, Option.elim_none, List.nil_append,
        Layout.solid_append]
      rw [hl]
      exact ⟨p, _, rfl, hp, .inl hk⟩
    · exact ⟨_, _, rfl, by simp, .inr (.inr (Piece.kind_word (ofWord?_keyword d.dq .LATERAL)))⟩
  | joined item joins => exact ⟨_, _, rfl, by simp, .inr (.inl rfl)⟩
  | values rows => exact ⟨_, _, rfl, by simp, .inr (.inl rfl)⟩

theorem takes_parenthesized_query {q : Query} (h : q.Clear d) (ho : q.opens = true)
    (hs : q.layout.size < bound) :
    Takes d.dq (parenthesizedRelation g) ((Layout.parens q.layout).solid ++ r) (.query q) r := by
  have hquery := hg.query q h hs (.symbol .rightParen :: r) ⟨rfl, by simp⟩
  simp only [Layout.parens, Layout.solid_symbol, Layout.solid_append, Layout.solid_nil,
    List.cons_append, List.append_assoc, List.nil_append]
  refine (takes_advance (by simp) rfl).bind ((takes_queryAt_yes ho).bind ?_)
  exact (hquery.map Relation.query).bind ((takes_expectSymbol _ r (by decide)).bind (.pure _ r))

theorem takes_parenthesized_values {rows : List (List Expr)} (hne : rows ≠ [])
    (h : ∀ row ∈ rows, ∀ e ∈ row, e.Clear d)
    (hs : (Layout.valueRows (Expr.rowLayouts rows)).size ≤ bound) :
    Takes d.dq (parenthesizedRelation g)
      ((Layout.parens (Layout.valueRows (Expr.rowLayouts rows))).solid ++ r) (.values rows) r := by
  have hrows := takes_valueRows (r := .symbol .rightParen :: r) hg hne h hs (by simp)
  have hend : Takes d.dq (do
      expectSymbol .rightParen
      return Relation.values rows) (.symbol .rightParen :: r) (.values rows) r :=
    (takes_expectSymbol _ r (by decide)).bind (.pure _ r)
  simp only [Layout.parens, Layout.solid_symbol, Layout.solid_append, Layout.solid_nil,
    List.cons_append, List.append_assoc, List.nil_append]
  refine (takes_advance (by simp) rfl).bind ?_
  refine (takes_anyKeywordAt_no (by simp [Layout.valueRows]) (by simp)).bind ?_
  exact (takes_keywordAt_yes (by simp [Layout.valueRows]) (by simp)).bind
    ((hrows.map Relation.values).bind hend)

/-- An item begins neither a query nor rows of values. -/
theorem takes_parenthesized_joined {item : FromItem} {joins : List Join} (hi : item.Clear d)
    (hl : ∀ j ∈ joins, j.Legal d.dq) (h : ∀ j ∈ joins, ∀ p ∈ j.parts, p.Obeys (Part.Clear d))
    (hs : item.layout.size + (Join.layouts joins).size < bound) :
    Takes d.dq (parenthesizedRelation g)
      ((Layout.parens (item.layout ++ Join.layouts joins)).solid ++ r) (.joined item joins) r := by
  have hitem := hg.fromItem item hi (by omega) ((Join.layouts joins).solid ++ .symbol .rightParen :: r)
    (Join.ahead_layouts rfl joins)
  have hjoins := takes_joins (r := .symbol .rightParen :: r) hg (by simp) rfl hl h (by omega)
    (.inl rfl) (by simp)
  have hne : ∀ k ∈ [Keyword.SELECT, .WITH, .VALUES], kindAhead d.dq (item.layout.solid ++
      ((Join.layouts joins).solid ++ .symbol .rightParen :: r)) 0 ≠ .keyword k := by
    obtain ⟨p, l, hp, -, hk⟩ := item.relation.head_layout hi.head.1.1
    rw [FromItem.layout_eq]
    simp only [Layout.solid_append, hp, List.cons_append, kindAhead_zero]
    intro k hmem
    simp only [List.mem_cons, List.not_mem_nil, or_false] at hmem
    rcases hk with hk | hk | hk
    · rcases hmem with rfl | rfl | rfl <;> exact startsName_reserved hk rfl
    · rw [hk]
      simp
    · rw [hk]
      rcases hmem with rfl | rfl | rfl <;> simp
  have hend : Takes d.dq (do
      expectSymbol .rightParen
      return Relation.joined item joins) (.symbol .rightParen :: r) (.joined item joins) r :=
    (takes_expectSymbol _ r (by decide)).bind (.pure _ r)
  simp only [Layout.parens, Layout.solid_symbol, Layout.solid_append, Layout.solid_nil,
    List.cons_append, List.append_assoc, List.nil_append]
  refine (takes_advance (by simp) rfl).bind ?_
  refine (takes_anyKeywordAt_no (fun w hw => hne w (by simp at hw ⊢; tauto)) (by simp)).bind ?_
  refine (takes_keywordAt_no (hne .VALUES (by simp)) (by simp)).bind ?_
  exact Takes.bind (hitem.bind (hjoins.bind (.pure _ _))) hend

omit hg in
theorem startsName_objectName {n : ObjectName} (h : n.Legal d.dq) (l : Layout) :
    startsName (kindAhead d.dq (n.layout.solid ++ l) 0) = true := by
  obtain ⟨parts⟩ := n
  cases parts with
  | nil => exact absurd rfl h.1
  | cons first more =>
    rw [ObjectName.layout, List.map_cons, solid_sepBy, List.append_assoc]
    exact (h.2 first (by simp)).startsName _

omit hg in
/-- What a name begins is a table or a function. -/
theorem takes_relation_of_name {l : Layout} {s : Relation}
    (hk : startsName (kindAhead d.dq l 0) = true) (h : Takes d.dq (namedRelation g) l s r) :
    Takes d.dq (relation g) l s r := by
  have hplain : l.head? ≠ some .closingAngle := by
    cases l with
    | nil => simp
    | cons p l =>
      intro hp
      obtain rfl : p = .closingAngle := by simpa using hp
      simp [startsName] at hk
  refine takes_current_plain hplain fun t ht => ?_
  simp only [ht]
  cases hkind : kindAhead d.dq l 0 with
  | symbol s => exact absurd hkind (startsName_symbol hk s)
  | keyword k =>
    have hk' : k ≠ .LATERAL := by
      rintro rfl
      exact startsName_reserved hk rfl hkind
    cases k <;> first | exact h | exact absurd rfl hk'
  | _ => exact h

/-- What an item to read from begins with. -/
theorem takes_relation {s : Relation} (hl : s.Legal d.dq)
    (h : ∀ p ∈ s.parts, p.Obeys (Part.Clear d)) (hs : s.layout.size ≤ bound)
    (hdot : kindAhead d.dq r 0 ≠ .symbol .dot)
    (hparen : kindAhead d.dq r 0 ≠ .symbol .leftParen) :
    Takes d.dq (relation g) (s.layout.solid ++ r) s r := by
  have hopen : ∀ {l : Layout}, Takes d.dq (parenthesizedRelation g) (.symbol .leftParen :: l) s r →
      Takes d.dq (relation g) (.symbol .leftParen :: l) s r := by
    intro l h
    refine takes_current (by simp) fun t ht _ => ?_
    simp only [ht]
    exact h
  cases s with
  | table name =>
    refine takes_relation_of_name (startsName_objectName hl r) ?_
    refine (takes_objectName hl fun h => absurd h hdot).bind ?_
    exact (takes_symbolAt_no hparen (by decide) (by simp)).bind (.pure _ r)
  | query q =>
    simp only [Relation.layout, Layout.parens, Layout.size_symbol, Layout.size_append,
      Layout.size_nil] at hs
    exact hopen (takes_parenthesized_query hg (h (.query q) (by simp [Relation.parts])) hl (by omega))
  | lateral q =>
    simp only [Relation.layout, Layout.parens, Layout.size_symbol, Layout.size_append,
      Layout.size_nil, Layout.size_keyword, Layout.size_gap] at hs
    have hquery := hg.query q (h (.query q) (by simp [Relation.parts])) (by omega)
      (.symbol .rightParen :: r) ⟨rfl, by simp⟩
    simp only [Relation.layout, Layout.parens, Layout.solid_symbol, Layout.solid_append,
      Layout.solid_nil, Layout.solid_keyword, Layout.solid_gap, List.cons_append,
      List.append_assoc, List.nil_append]
    refine takes_current (by simp) fun t ht _ => ?_
    simp only [ht, Piece.kind_keyword]
    refine (takes_advance (by simp) rfl).bind ((takes_takeSymbol_yes _ _ (by decide)).bind ?_)
    exact hquery.bind ((takes_expectSymbol _ r (by decide)).bind (.pure _ r))
  | function lead c =>
    obtain ⟨hlead, hn⟩ := hl
    have hc : ∀ e ∈ c.arguments, e.Clear d := fun e he => h _ (List.mem_map_of_mem he)
    have hs' : c.layout.size ≤ bound := by
      simp only [Relation.layout, Layout.size_append] at hs
      omega
    have hread := takes_functionCall (r := r) hg hc hs'
    have hlay : c.layout.solid ++ r = c.name.layout.solid ++ ((Layout.parens
        (Layout.onlyIf c.distinct [.keyword .DISTINCT, .gap] ++
          Layout.commas (Expr.layouts c.arguments))).solid ++ r) := by
      rw [FunctionCall.layout_eq, Layout.solid_append, List.append_assoc]
    have hobject := takes_objectName hn (r := (Layout.parens
      (Layout.onlyIf c.distinct [.keyword .DISTINCT, .gap] ++
        Layout.commas (Expr.layouts c.arguments))).solid ++ r) (by simp [Layout.parens])
    have hname := startsName_objectName hn ((Layout.parens
      (Layout.onlyIf c.distinct [.keyword .DISTINCT, .gap] ++
        Layout.commas (Expr.layouts c.arguments))).solid ++ r)
    rw [← hlay] at hobject hname
    rcases hlead with rfl | rfl
    · refine takes_relation_of_name hname (hobject.bind ((takes_symbolAt_yes rfl (by decide) (by simp)).bind ?_))
      exact hread.bind (.pure _ r)
    · have hkind : (Piece.word Keyword.LATERAL.text).kind d.dq = .keyword .LATERAL :=
        Piece.kind_word (ofWord?_keyword d.dq .LATERAL)
      refine takes_current (p := .word Keyword.LATERAL.text) (by simp) fun t ht _ => ?_
      simp only [ht, hkind]
      refine (takes_advance (by simp) rfl).bind ?_
      refine (takes_takeSymbol_no (startsName_symbol hname _) (by decide)).bind ?_
      exact hobject.bind (hread.bind (.pure _ r))
  | joined item joins =>
    simp only [Relation.layout, Layout.parens, Layout.size_symbol, Layout.size_append,
      Layout.size_nil] at hs
    simp only [Relation.parts, List.forall_mem_cons, List.forall_mem_flatMap] at h
    exact hopen (takes_parenthesized_joined hg h.1 hl h.2 (by omega))
  | values rows =>
    simp only [Relation.layout, Layout.parens, Layout.size_symbol, Layout.size_append,
      Layout.size_nil] at hs
    refine hopen (takes_parenthesized_values hg hl (fun row hrow e he => h (.expr e) ?_) (by omega))
    exact List.mem_map_of_mem (List.mem_flatten_of_mem hrow he)

end Readers

theorem takes_ifKeyword_some {α : Type} {p : Parse α} {k : Keyword} {l : Layout} {a : α}
    (hk : kindAhead d.dq l 0 = .keyword k) (h : Takes d.dq p l a r) :
    Takes d.dq (ifKeyword k p) l (some a) r :=
  (takes_keywordAt_yes hk (by simp)).bind (h.bind (.pure _ r))

theorem takes_ifKeyword_none {α : Type} {p : Parse α} {k : Keyword}
    (hk : kindAhead d.dq r 0 ≠ .keyword k) : Takes d.dq (ifKeyword k p) r none r :=
  (takes_keywordAt_no hk (by simp)).bind (.pure none r)

/-- An item to read from is read back, given readers of everything shorter. -/
theorem reads_fromItem (hg : g.Reads d bound) {i : FromItem} (h : i.Clear d)
    (hs : i.layout.size ≤ bound) (hr : endsItem (kindAhead d.dq r 0) = true) :
    Takes d.dq (fromItem g) (i.layout.solid ++ r) i r := by
  obtain ⟨⟨⟨hrelation, halias, hpivot, hunpivot⟩, hfp, hfu⟩, hc⟩ := Part.obeys_iff.1 h
  obtain ⟨relation, alias?, pivot, unpivot⟩ := i
  dsimp only at hrelation halias hpivot hunpivot hfp hfu
  simp only [Part.children, FromItem.children, List.forall_mem_append] at hc
  rw [FromItem.layout_eq] at hs ⊢
  simp only [Layout.size_append] at hs
  simp only [Layout.solid_append, List.append_assoc]
  -- Each part stands in front of the next one that is there, or of what ends the item.
  have hahead : ∀ {l : Layout}, (endsItem (kindAhead d.dq l 0) = true ∨
      kindAhead d.dq l 0 ∈ [TokenKind.keyword .PIVOT, .keyword .UNPIVOT]) →
      (kindAhead d.dq l 0 ≠ .keyword .AS ∧ startsName (kindAhead d.dq l 0) = false) ∧
        kindAhead d.dq l 0 ≠ .symbol .leftParen ∧ kindAhead d.dq l 0 ≠ .symbol .dot := by
    intro l hl
    generalize kindAhead d.dq l 0 = kind at hl
    rcases hl with hl | hl
    · refine ⟨⟨?_, ?_⟩, ?_, ?_⟩
      · rintro rfl
        exact absurd hl (by decide)
      · simp only [endsItem, Bool.and_eq_true, Bool.not_eq_true'] at hl
        exact hl.1
      · rintro rfl
        exact absurd hl (by decide)
      · rintro rfl
        exact absurd hl (by decide)
    · simp only [List.mem_cons, List.not_mem_nil, or_false] at hl
      rcases hl with rfl | rfl <;> decide
  have hne : ∀ {kind : TokenKind}, endsItem kind = false → kindAhead d.dq r 0 ≠ kind := by
    rintro kind hkind rfl
    simp [hr] at hkind
  have hu : Takes d.dq (ifKeyword .UNPIVOT (Parse.unpivot g))
      ((Layout.optional Unpivot.layout unpivot).solid ++ r) unpivot r ∧
      (endsItem (kindAhead d.dq ((Layout.optional Unpivot.layout unpivot).solid ++ r) 0) = true ∨
        kindAhead d.dq ((Layout.optional Unpivot.layout unpivot).solid ++ r) 0 =
          .keyword .UNPIVOT) := by
    cases unpivot with
    | none => exact ⟨takes_ifKeyword_none (hne rfl), .inl hr⟩
    | some u =>
      have hk : kindAhead d.dq (u.layout.solid ++ r) 0 = .keyword .UNPIVOT := by
        cases u
        rfl
      refine ⟨takes_ifKeyword_some hk (takes_unpivot hg (hunpivot u rfl)
        (fun i hi => hc.2 _ (List.mem_map_of_mem (f := fun i => Part.expr i.expr) hi)) (hfu u rfl) ?_
        fun _ => (hahead (.inl hr)).1), .inr hk⟩
      simp only [Layout.optional_some] at hs
      omega
  generalize (Layout.optional Unpivot.layout unpivot).solid ++ r = r₁ at hu
  have hp : Takes d.dq (ifKeyword .PIVOT (Parse.pivot g))
      ((Layout.optional Pivot.layout pivot).solid ++ r₁) pivot r₁ ∧
      (endsItem (kindAhead d.dq ((Layout.optional Pivot.layout pivot).solid ++ r₁) 0) = true ∨
        kindAhead d.dq ((Layout.optional Pivot.layout pivot).solid ++ r₁) 0 ∈
          [TokenKind.keyword .PIVOT, .keyword .UNPIVOT]) := by
    have hr₁ := hu.2.imp_right fun h => show kindAhead d.dq r₁ 0 ∈
      [TokenKind.keyword .PIVOT, .keyword .UNPIVOT] by simp [h]
    cases pivot with
    | none =>
      refine ⟨takes_ifKeyword_none ?_, hr₁⟩
      rcases hu.2 with h | h
      · intro hk
        rw [show kindAhead d.dq r₁ 0 = .keyword .PIVOT from hk] at h
        exact absurd h (by decide)
      · simp [h]
    | some p =>
      have hk : kindAhead d.dq (p.layout.solid ++ r₁) 0 = .keyword .PIVOT := by
        cases p
        rfl
      refine ⟨takes_ifKeyword_some hk (takes_pivot hg (hpivot p rfl)
        (fun i hi => hc.1.2 _ (List.mem_map_of_mem (f := fun i => Part.expr i.expr) hi)) (hfp p rfl) ?_
        fun _ => (hahead hr₁).1), .inr (by simp [hk])⟩
      simp only [Layout.optional_some] at hs
      omega
  generalize (Layout.optional Pivot.layout pivot).solid ++ r₁ = r₂ at hp
  obtain ⟨hend, hparen, hdot⟩ := hahead hp.2
  have hread := takes_tableAlias halias (fun _ => hend) hparen
  have hstart : kindAhead d.dq ((Alias.layoutAfter alias?).solid ++ r₂) 0 ≠ .symbol .dot ∧
      kindAhead d.dq ((Alias.layoutAfter alias?).solid ++ r₂) 0 ≠ .symbol .leftParen := by
    rcases alias? with _ | ⟨name, _ | _, columns⟩
    · exact ⟨hdot, hparen⟩
    · have hname := (halias _ rfl).1.startsName
        ((Layout.onlyIf (!columns.isEmpty) (Layout.parens (Ident.listLayout columns))).solid ++ r₂)
      have hlay : (Alias.layoutAfter (some ⟨name, false, columns⟩)).solid ++ r₂ =
          name.layout.solid ++ ((Layout.onlyIf (!columns.isEmpty)
            (Layout.parens (Ident.listLayout columns))).solid ++ r₂) := by
        simp [Alias.layoutAfter, Alias.layout, Layout.onlyIf]
      rw [hlay]
      exact ⟨startsName_symbol hname _, startsName_symbol hname _⟩
    · exact ⟨by rintro ⟨⟩, by rintro ⟨⟩⟩
  refine (takes_relation hg hrelation hc.1.1 (by omega) hstart.1 hstart.2).bind ?_
  exact hread.bind (hp.1.bind (hu.1.bind (.pure _ r)))

end SqlTree
