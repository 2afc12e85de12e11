import Mathlib
import SqlTree.Proofs.Reading.Body
import SqlTree.Query.Grammar.Knot

/-! # Queries are read back

* `takes_withClause`, `takes_orderClause`, `takes_limits`, `takes_offset`: what stands around a
  body.
* `reads_query`: a query is read back by readers of everything shorter.
* `reads_productions`: the readers of whole trees read every clear tree that is not longer than
  their allowance.
-/

namespace SqlTree
set_option autoImplicit false

open Parse

variable {d : Dialect} {g : Productions} {bound : Nat} {r : Layout}

/-! ## Named queries -/

section Readers

variable (hg : g.Reads d bound)
include hg

theorem takes_cte {c : Cte} (hn : c.name.Legal d.dq) (hc : ∀ i ∈ c.columns, i.Legal d.dq)
    (h : c.query.Clear d) (hs : c.layout.size ≤ bound) :
    Takes d.dq (cte g) (c.layout.solid ++ r) c r := by
  obtain ⟨name, columns, query⟩ := c
  dsimp only at hn hc h
  simp only [Cte.layout, Layout.parens, Layout.size_append, Layout.size_symbol,
    Layout.size_nil] at hs
  have hquery := hg.query query h (by omega) (.symbol .rightParen :: r) ⟨rfl, by simp⟩
  have hcolumns := takes_optionalIdentifiers (r := .keyword .AS :: .symbol .leftParen ::
    (query.layout.solid ++ .symbol .rightParen :: r)) hc (by simp)
  have hlay : (Cte.layout ⟨name, columns, query⟩).solid ++ r = name.layout.solid ++
      ((Layout.onlyIf (!columns.isEmpty) (Layout.parens (Ident.listLayout columns))).solid ++
        .keyword .AS :: .symbol .leftParen :: (query.layout.solid ++ .symbol .rightParen :: r)) := by
    cases columns <;> simp [Cte.layout, Layout.onlyIf, Layout.parens]
  rw [hlay]
  refine (takes_identifier hn).bind (hcolumns.bind ((takes_expectKeyword _ _).bind ?_))
  exact (takes_inParens hquery).bind (.pure _ r)

theorem takes_withClause {w : With} (hl : w.Legal d.dq) (h : ∀ c ∈ w.ctes, c.query.Clear d)
    (hs : w.layout.size ≤ bound) (hr : kindAhead d.dq r 0 ≠ .symbol .comma) :
    Takes d.dq (withClause g) (w.layout.solid ++ r) w r := by
  obtain ⟨recursive, ctes⟩ := w
  obtain ⟨hne, hn, hrecursive⟩ := hl
  dsimp only at hne hn hrecursive h
  simp only [With.layout, Cte.layouts_eq_map, Layout.size_append] at hs
  have hlist : Takes d.dq (commaList (cte g)) ((Layout.commas (ctes.map Cte.layout)).solid ++ r) ctes
      r := by
    refine takes_commaList hr hne fun c hc r' _ => takes_cte hg (hn c hc).1 (hn c hc).2 (h c hc) ?_
    have hc := size_of_mem_commas (List.mem_map_of_mem (f := Cte.layout) hc)
    omega
  have hend := hlist.bind (f := fun ctes => (do return { recursive, ctes } : Parse With)) (.pure _ r)
  simp only [With.layout, Cte.layouts_eq_map, Layout.solid_append, Layout.solid_keyword,
    Layout.solid_gap, Layout.solid_nil, List.append_nil, List.cons_append, List.append_assoc]
  refine (takes_expectKeyword _ _).bind ?_
  cases recursive with
  | true => exact (takes_takeKeyword_yes _ _).bind hend
  | false =>
    refine (takes_takeKeyword_no ?_).bind hend
    cases ctes with
    | nil => contradiction
    | cons c ctes =>
      have hc := hrecursive rfl c rfl
      obtain ⟨name, columns, query⟩ := c
      obtain ⟨kind, hw, -⟩ := (hn ⟨name, columns, query⟩ (by simp)).1
      dsimp only at hc hw
      have hk : (Piece.word name.text).kind d.dq = kind := Piece.kind_word hw
      rw [List.map_cons, Layout.commas, solid_sepBy]
      show (Piece.word name.text).kind d.dq ≠ _
      rw [hk]
      rintro rfl
      exact hc hw

/-! ## Orderings -/

omit hg in
theorem takes_nullOrdering (nulls : Option NullOrdering)
    (hr : nulls = none → kindAhead d.dq r 0 ≠ .keyword .NULLS) :
    Takes d.dq nullOrdering ((NullOrdering.layoutAfter nulls).solid ++ r) nulls r := by
  match nulls with
  | none => exact (takes_takeKeyword_no (hr rfl)).bind (.pure _ r)
  | some .first =>
    exact (takes_takeKeyword_yes _ _).bind ((takes_takeKeyword_yes _ _).bind (.pure _ r))
  | some .last =>
    refine (takes_takeKeyword_yes _ _).bind ((takes_takeKeyword_no (by rintro ⟨⟩)).bind ?_)
    exact (takes_expectKeyword _ _).bind (.pure _ r)

omit hg in
theorem takes_orderDirection (direction : Option OrderDirection)
    (hr : direction = none → ∀ k ∈ [Keyword.ASC, .DESC], kindAhead d.dq r 0 ≠ .keyword k) :
    Takes d.dq orderDirection ((OrderDirection.layoutAfter direction).solid ++ r) direction r := by
  match direction with
  | none =>
    refine (takes_takeKeyword_no (hr rfl .ASC (by simp))).bind ?_
    exact (takes_takeKeyword_no (hr rfl .DESC (by simp))).bind (.pure _ r)
  | some .asc => exact (takes_takeKeyword_yes _ _).bind (.pure _ _)
  | some .desc =>
    refine (takes_takeKeyword_no (by rintro ⟨⟩)).bind ?_
    exact (takes_takeKeyword_yes _ _).bind (.pure _ _)

theorem takes_orderItem {o : OrderItem} (h : o.expr.Clear d) (hs : o.layout.size < bound)
    (hr : breaksExpr (kindAhead d.dq r 0) = true)
    (hk : ∀ k ∈ [Keyword.ASC, .DESC, .NULLS], kindAhead d.dq r 0 ≠ .keyword k) :
    Takes d.dq (orderItem g) (o.layout.solid ++ r) o r := by
  obtain ⟨expr, direction, nulls⟩ := o
  dsimp only at h
  rw [OrderItem.layout_eq] at hs ⊢
  simp only [Layout.size_append] at hs
  have hnulls := takes_nullOrdering (d := d) (r := r) nulls fun _ => hk .NULLS (by simp)
  have hdirection := takes_orderDirection (d := d) (r := (NullOrdering.layoutAfter nulls).solid ++ r)
    direction fun _ k hmem => by
      match nulls with
      | none => exact hk k (by simp at hmem ⊢; tauto)
      | some .first | some .last =>
        simp only [List.mem_cons, List.not_mem_nil, or_false] at hmem
        rcases hmem with rfl | rfl <;> rintro ⟨⟩
  have hbreaks : Breaks d expr.layout ((OrderDirection.layoutAfter direction).solid ++
      ((NullOrdering.layoutAfter nulls).solid ++ r)) := by
    match direction, nulls with
    | none, none => exact .inl hr
    | none, some .first | none, some .last | some .asc, _ | some .desc, _ => exact .inl rfl
  have hread := takes_expr hg h (by omega) hbreaks
  simp only [Layout.solid_append, List.append_assoc]
  exact hread.bind (hdirection.bind (hnulls.bind (.pure _ r)))

theorem takes_orderClause {items : List OrderItem} (h : ∀ o ∈ items, o.expr.Clear d)
    (hs : (Layout.onlyIf (!items.isEmpty)
      (Layout.behind [.ORDER, .BY] (Layout.commas (items.map OrderItem.layout)))).size ≤ bound)
    {l : Layout} (hr : Ends d l 7 r) :
    Takes d.dq (orderClause g)
      ((Layout.onlyIf (!items.isEmpty)
        (Layout.behind [.ORDER, .BY] (Layout.commas (items.map OrderItem.layout)))).solid ++ r) items
      r := by
  cases items with
  | nil => exact (takes_takeKeyword_no (hr.ne (by decide))).bind (.pure [] r)
  | cons o items =>
    have hlay : Layout.onlyIf (!(o :: items).isEmpty)
        (Layout.behind [.ORDER, .BY] (Layout.commas ((o :: items).map OrderItem.layout))) =
        [.gap, .keyword .ORDER, .gap, .keyword .BY, .gap] ++
          Layout.commas ((o :: items).map OrderItem.layout) := rfl
    rw [hlay] at hs ⊢
    simp only [Layout.size_append, Layout.size_gap, Layout.size_keyword, Layout.size_nil] at hs
    have hbreaks : breaksExpr (kindAhead d.dq r 0) = true :=
      hr.breaks.kind.resolve_right (hr.ne (by decide))
    refine (takes_takeKeyword_yes _ _).bind ((takes_expectKeyword _ _).bind ?_)
    refine takes_commaList (hr.ne_of_not_endsJoins rfl) (by simp) fun a ha r' hr' => ?_
    have hsize := size_of_mem_commas (List.mem_map_of_mem (f := OrderItem.layout) ha)
    refine takes_orderItem hg (h a ha) (by omega) ?_ ?_
    · rcases hr' with ⟨-, rfl⟩ | ⟨l, rfl⟩
      · exact hbreaks
      · rfl
    · rcases hr' with ⟨-, rfl⟩ | ⟨l, rfl⟩
      · have hne : ∀ k ∈ [Keyword.ASC, .DESC, .NULLS], ∀ j ∈ clauseRank (.keyword k), j < 7 := by
          decide
        exact fun k hk => hr.ne (hne k hk)
      · simp

/-! ## Limits -/

theorem takes_limitCount {l : Limit} (hl : l.Legal d) (h : ∀ p ∈ l.parts, p.Obeys (Part.Clear d))
    (hs : l.count.size < bound) (hr : breaksExpr (kindAhead d.dq r 0) = true)
    (hc : kindAhead d.dq r 0 ≠ .symbol .comma) :
    Takes d.dq (limitCount g) (l.count.solid ++ r) { l with groups := none } r := by
  obtain ⟨rowCount, offset, all, null, groups⟩ := l
  obtain ⟨⟨rfl, rfl, rfl, rfl⟩ | ⟨rfl, rfl, rfl, rfl⟩ | ⟨rfl, rfl, count, rfl, hnull⟩, -⟩ := hl
  · exact (takes_takeKeyword_yes _ _).bind (.pure _ r)
  · refine (takes_takeKeyword_no (by rintro ⟨⟩)).bind ?_
    exact (takes_takeKeyword_yes _ _).bind (.pure _ r)
  · have hcount : count.Clear d := h (.expr count) (by simp [Limit.parts, Part.exprs])
    cases offset with
    | none =>
      have hlay : Limit.count ⟨some count, none, false, false, groups⟩ = count.layout := by
        simp [Limit.count]
      rw [hlay] at hs ⊢
      have hnull' : kindAhead d.dq (count.layout.solid ++ r) 0 ≠ .keyword .NULL := by
        rw [Expr.kindAhead_append hcount]
        exact hnull
      have hread := takes_expr hg hcount hs (.inl hr)
      refine (takes_takeKeyword_no hnull').bind ?_
      refine (takes_takeKeyword_no (count.kindAhead_ne hcount r rfl)).bind (hread.bind ?_)
      exact (takes_afterComma_none hc).bind (.pure _ r)
    | some o =>
      have ho : o.Clear d := h (.expr o) (by simp [Limit.parts, Part.exprs])
      have hlay : Limit.count ⟨some count, some o, false, false, groups⟩ =
          o.layout ++ [.symbol .comma, .gap] ++ count.layout := by simp [Limit.count]
      rw [hlay] at hs ⊢
      simp only [Layout.size_append] at hs
      have hread := takes_expr hg hcount (by omega) (.inl hr)
      have hfirst := takes_expr (r := .symbol .comma :: (count.layout.solid ++ r)) hg ho (by omega)
        (.inl rfl)
      have hnull' : kindAhead d.dq (o.layout.solid ++ .symbol .comma :: (count.layout.solid ++ r)) 0 ≠
          .keyword .NULL := by
        rw [Expr.kindAhead_append ho]
        exact hnull
      simp only [Layout.solid_append, Layout.solid_symbol, Layout.solid_gap, List.append_assoc,
        List.cons_append, List.nil_append]
      refine (takes_takeKeyword_no hnull').bind ?_
      refine (takes_takeKeyword_no (o.kindAhead_ne ho _ rfl)).bind (hfirst.bind ?_)
      exact (takes_afterComma_some hread).bind (.pure _ r)

omit hg in
theorem Limit.Legal.layout_eq {l : Limit} (hl : l.Legal d) :
    l.layout = Layout.behind [.LIMIT] l.count ++
      Layout.optional (fun es => Layout.behind [.BY] (Layout.commas (es.map Expr.layout)))
        l.groups := by
  refine Limit.layout_eq ?_
  obtain ⟨⟨h, -⟩ | ⟨-, h, -⟩ | ⟨-, -, count, h, -⟩, -⟩ := hl
  · exact .inl h
  · exact .inr (.inl h)
  · exact .inr (.inr (by simp [h]))

theorem takes_limit {l : Limit} (hl : l.Legal d) (h : ∀ p ∈ l.parts, p.Obeys (Part.Clear d))
    (hs : l.layout.size ≤ bound) (hr : breaksExpr (kindAhead d.dq r 0) = true)
    (hc : kindAhead d.dq r 0 ≠ .symbol .comma) (hb : kindAhead d.dq r 0 ≠ .keyword .BY) :
    Takes d.dq (limit g d) (l.layout.solid ++ r) l r := by
  rw [hl.layout_eq] at hs ⊢
  simp only [Layout.behind, Layout.keywords, Layout.size_append, Layout.size_gap,
    Layout.size_keyword, Layout.size_nil] at hs
  have hgroups : Takes d.dq (if d.limitBy then afterKeyword .BY (exprList g) else pure none)
      ((Layout.optional (fun es => Layout.behind [.BY] (Layout.commas (es.map Expr.layout)))
        l.groups).solid ++ r) l.groups r ∧
      breaksExpr (kindAhead d.dq ((Layout.optional
        (fun es => Layout.behind [.BY] (Layout.commas (es.map Expr.layout))) l.groups).solid ++ r) 0) =
          true ∧
      kindAhead d.dq ((Layout.optional
        (fun es => Layout.behind [.BY] (Layout.commas (es.map Expr.layout))) l.groups).solid ++ r) 0 ≠
          .symbol .comma := by
    cases hgr : l.groups with
    | none =>
      refine ⟨?_, hr, hc⟩
      cases d.limitBy with
      | true => exact takes_afterKeyword_none hb
      | false => exact .pure none r
    | some es =>
      obtain ⟨hd, hne⟩ := hl.2 es hgr
      have hclear : ∀ e ∈ es, e.Clear d := fun e he =>
        h _ (List.mem_map_of_mem (by simp [hgr, he]))
      rw [hgr] at hs
      simp only [Layout.optional_some, Layout.size_append, Layout.size_gap,
        Layout.size_keyword] at hs
      rw [Layout.optional_some, Layout.solid_behind]
      refine ⟨?_, rfl, by rintro ⟨⟩⟩
      rw [hd]
      exact takes_afterKeyword_some (takes_exprList hg hne hclear (by omega) (.inl hr) hc)
  have hcount := takes_limitCount hg hl h (by omega) hgroups.2.1 hgroups.2.2
  simp only [Layout.solid_append, Layout.solid_behind, List.map_cons, List.map_nil,
    List.cons_append, List.nil_append, List.append_assoc]
  refine (takes_expectKeyword _ _).bind (hcount.bind (?_ : Takes _ _ _ l r))
  obtain ⟨rowCount, offset, all, null, groups⟩ := l
  by_cases hd : d.limitBy = true
  · rw [if_pos hd] at hgroups
    simp only [hd, if_true]
    exact hgroups.1.bind (.pure _ r)
  · rw [if_neg hd] at hgroups
    simp only [hd]
    exact hgroups.1.bind (.pure _ r)

/-- The limit for each group and the limit for all rows, as they stand in a query. -/
theorem takes_limits {limitBy limit : Option Limit}
    (hby : ∀ l ∈ limitBy, l.Legal d ∧ l.groups ≠ none)
    (hl : ∀ l ∈ limit, l.Legal d ∧ (limitBy = none → l.groups = none))
    (h : ∀ l, (l ∈ limitBy ∨ l ∈ limit) → ∀ p ∈ l.parts, p.Obeys (Part.Clear d))
    (hs : (Layout.optional Limit.layout limitBy).size ≤ bound ∧
      (Layout.optional Limit.layout limit).size ≤ bound)
    {l : Layout} (hr : Ends d l 8 r) :
    Takes d.dq (limits g d)
      ((Layout.optional Limit.layout limitBy).solid ++
        ((Layout.optional Limit.layout limit).solid ++ r)) (limitBy, limit) r := by
  have hbreaks : breaksExpr (kindAhead d.dq r 0) = true :=
    hr.breaks.kind.resolve_right (hr.ne (by decide))
  have hcomma : kindAhead d.dq r 0 ≠ .symbol .comma := hr.ne_of_not_endsJoins rfl
  have hno : kindAhead d.dq r 0 ≠ .keyword .BY := by
    intro hk
    obtain ⟨k, hrank, -⟩ := hr.rank
    rw [hk] at hrank
    simp [clauseRank] at hrank
  have hhead : ∀ {l : Limit} (r : Layout), l.Legal d →
      ∃ l', l.layout.solid ++ r = .keyword .LIMIT :: l' := by
    intro l r hl
    rw [hl.layout_eq]
    exact ⟨_, by simp; rfl⟩
  have hlimit : Takes d.dq (ifKeyword .LIMIT (Parse.limit g d))
      ((Layout.optional Limit.layout limit).solid ++ r) limit r := by
    cases limit with
    | none => exact takes_ifKeyword_none (hr.ne (by decide))
    | some l =>
      have hlegal := (hl l rfl).1
      obtain ⟨l', hlay⟩ := hhead r hlegal
      have hread := takes_limit hg hlegal (h l (.inr rfl)) hs.2 hbreaks hcomma hno
      refine takes_ifKeyword_some ?_ hread
      rw [Layout.optional_some, hlay]
      rfl
  cases limitBy with
  | none =>
    refine hlimit.bind ?_
    cases limit with
    | none => exact .pure _ r
    | some l =>
      have hgroups : l.groups = none := (hl l rfl).2 rfl
      simp only [hgroups]
      exact .pure _ r
  | some l =>
    obtain ⟨hlegal, hgroups⟩ := hby l rfl
    obtain ⟨l', hlay⟩ := hhead ((Layout.optional Limit.layout limit).solid ++ r) hlegal
    have hnext : breaksExpr (kindAhead d.dq ((Layout.optional Limit.layout limit).solid ++ r) 0) = true ∧
        kindAhead d.dq ((Layout.optional Limit.layout limit).solid ++ r) 0 ≠ .symbol .comma ∧
        kindAhead d.dq ((Layout.optional Limit.layout limit).solid ++ r) 0 ≠ .keyword .BY := by
      cases limit with
      | none => exact ⟨hbreaks, hcomma, hno⟩
      | some m =>
        obtain ⟨l', hlay⟩ := hhead r (hl m rfl).1
        rw [Layout.optional_some, hlay]
        exact ⟨rfl, by rintro ⟨⟩, by rintro ⟨⟩⟩
    have hread := takes_limit hg hlegal (h l (.inl rfl)) hs.1 hnext.1 hnext.2.1 hnext.2.2
    refine (takes_ifKeyword_some ?_ hread).bind ?_
    · rw [hlay]
      rfl
    · have hsome : l.groups.isSome = true := Option.isSome_iff_ne_none.2 hgroups
      simp only [hsome, if_true]
      exact hlimit.bind (.pure _ r)

theorem takes_offset {offset : Option Offset} (h : ∀ o ∈ offset, o.count.Clear d)
    (hs : (Layout.optional Offset.layout offset).size ≤ bound) {l : Layout} (hr : Ends d l 9 r) :
    Takes d.dq (afterKeyword .OFFSET (offsetCount g))
      ((Layout.optional Offset.layout offset).solid ++ r) offset r := by
  cases offset with
  | none => exact takes_afterKeyword_none (hr.ne (by decide))
  | some o =>
    obtain ⟨count, word⟩ := o
    have hcount : count.Clear d := h _ rfl
    simp only [Layout.optional_some, Offset.layout, Layout.size_append, Layout.size_gap,
      Layout.size_keyword, Layout.size_nil] at hs
    have hbreaks : breaksExpr (kindAhead d.dq (word.layout.solid ++ r) 0) = true := by
      cases word with
      | none => exact hr.breaks.kind.resolve_right (hr.ne (by decide))
      | row => rfl
      | rows => rfl
    have hno : ∀ k ∈ [Keyword.ROW, .ROWS], kindAhead d.dq r 0 ≠ .keyword k := fun k hk =>
      hr.ne (by
        have hrank : ∀ k ∈ [Keyword.ROW, .ROWS], ∀ j ∈ clauseRank (.keyword k), j < 9 := by decide
        exact hrank k hk)
    have hrows : Takes d.dq offsetRows (word.layout.solid ++ r) word r := by
      cases word with
      | none =>
        refine (takes_takeKeyword_no (hno .ROW (by simp))).bind ?_
        exact (takes_takeKeyword_no (hno .ROWS (by simp))).bind (.pure _ r)
      | row => exact (takes_takeKeyword_yes _ _).bind (.pure _ r)
      | rows =>
        refine (takes_takeKeyword_no (by rintro ⟨⟩)).bind ?_
        exact (takes_takeKeyword_yes _ _).bind (.pure _ r)
    have hread := takes_expr hg hcount (by omega) (.inl hbreaks)
    simp only [Layout.optional_some, Offset.layout, Layout.solid_append, Layout.solid_gap,
      Layout.solid_keyword, List.cons_append, List.nil_append, List.append_assoc]
    exact takes_afterKeyword_some (hread.bind (hrows.bind (.pure _ r)))

end Readers

/-! ## Whole queries -/

/-- A query is read back, given readers of everything shorter. -/
theorem reads_query (hg : g.Reads d bound) {q : Query} (h : q.Clear d) (hs : q.layout.size ≤ bound)
    (hr : FollowsQuery d.dq q r) : Takes d.dq (query g d) (q.layout.solid ++ r) q r := by
  obtain ⟨⟨⟨hwith, hby, hlimit⟩, -⟩, hc⟩ := Part.obeys_iff.1 h
  obtain ⟨ctes, body, orderBy, limitBy, limit, offset⟩ := q
  obtain ⟨hends, hon⟩ := hr
  dsimp only at hwith hby hlimit
  simp only [Part.children, Query.children, List.forall_mem_append, List.forall_mem_map,
    List.forall_mem_cons] at hc
  obtain ⟨⟨⟨⟨⟨hctes, hbody, -⟩, horder⟩, hcby⟩, hclimit⟩, hoffset⟩ := hc
  rw [Query.layout_eq] at hs ⊢
  simp only [Layout.size_append] at hs
  have hnine : clauseRank (kindAhead d.dq r 0) = some 9 := by
    unfold endsQuery at hends
    split at hends <;> first | exact absurd hends (by decide) | simp [*, clauseRank]
  have hstar : kindAhead d.dq r 0 ≠ .keyword .EXCEPT := by
    intro he
    rw [he] at hends
    exact absurd hends (by decide)
  have hend : Ends d (Layout.optional With.layout ctes ++ body.layout ++
      Layout.onlyIf (!orderBy.isEmpty)
        (Layout.behind [.ORDER, .BY] (Layout.commas (orderBy.map OrderItem.layout))) ++
      Layout.optional Limit.layout limitBy ++ Layout.optional Limit.layout limit ++
      Layout.optional Offset.layout offset) 9 r :=
    ⟨⟨9, hnine, le_rfl⟩, fun _ => opensExcept_of_ne hstar⟩
  -- What stands behind each of the clauses, the last one first.
  have hlayouts : ∀ {l : Limit}, l.Legal d → ∃ l', l.layout.solid = .keyword .LIMIT :: l' := by
    intro l hl
    rw [hl.layout_eq]
    exact ⟨_, by simp; rfl⟩
  have ho := hend.clause (n := 8) (k := .OFFSET) (by omega) (by
    cases offset with
    | none => exact .inl rfl
    | some o => cases o; exact .inr ⟨_, rfl⟩) (by decide)
  have hl := ho.clause (n := 7) (k := .LIMIT) (by omega) (by
    cases limit with
    | none => exact .inl rfl
    | some l => exact .inr (hlayouts (hlimit l rfl).1)) (by decide)
  have hb := hl.clause (n := 7) (k := .LIMIT) (by omega) (by
    cases limitBy with
    | none => exact .inl rfl
    | some l => exact .inr (hlayouts (hby l rfl).1)) (by decide)
  have hg' := hb.clause (n := 6) (by omega) (onlyIf_cases .ORDER [.BY] (!orderBy.isEmpty)
    (Layout.commas (orderBy.map OrderItem.layout))) (by decide)
  have hopen : body.endsOpen = true → kindAhead d.dq ((Layout.onlyIf (!orderBy.isEmpty)
      (Layout.behind [.ORDER, .BY] (Layout.commas (orderBy.map OrderItem.layout)))).solid ++
        ((Layout.optional Limit.layout limitBy).solid ++
          ((Layout.optional Limit.layout limit).solid ++
            ((Layout.optional Offset.layout offset).solid ++ r)))) 0 ≠ .keyword .ON := by
    intro hbody
    cases orderBy with
    | cons o items => simp [Layout.onlyIf]
    | nil =>
      cases limitBy with
      | some l =>
        obtain ⟨l', hl'⟩ := hlayouts (hby l rfl).1
        simp [Layout.onlyIf, hl']
      | none =>
        cases limit with
        | some l =>
          obtain ⟨l', hl'⟩ := hlayouts (hlimit l rfl).1
          simp [Layout.onlyIf, hl']
        | none =>
          cases offset with
          | some o =>
            cases o
            simp [Layout.onlyIf, Offset.layout]
          | none => simpa [Layout.onlyIf] using hon (by simp [Query.endsOpen, hbody])
  have hreadBody := takes_setExpr hg hbody (by omega) hg'.suffix hopen
  have hreadOrder := takes_orderClause hg horder (by omega) hb
  have hreadLimits := takes_limits hg hby hlimit (fun l hmem p hp => by
    rcases hmem with hmem | hmem
    · rw [Option.mem_def] at hmem
      subst hmem
      exact hcby p hp
    · rw [Option.mem_def] at hmem
      subst hmem
      exact hclimit p hp) ⟨by omega, by omega⟩ ho
  have hcount : ∀ o ∈ offset, o.count.Clear d := by
    rintro o rfl
    exact hoffset _ (by simp)
  have hreadOffset := takes_offset hg hcount (by omega) hend
  simp only [Layout.solid_append, List.append_assoc]
  refine Takes.bind ?_ (hreadBody.bind (hreadOrder.bind (hreadLimits.bind (hreadOffset.bind
    (.pure _ r)))))
  cases ctes with
  | none => exact takes_ifKeyword_none (body.kindAhead_ne _ (by decide))
  | some w =>
    have hctes' : ∀ c ∈ w.ctes, c.query.Clear d := fun c hc => hctes _ (List.mem_map_of_mem hc)
    simp only [Layout.optional_some] at hs
    refine takes_ifKeyword_some (by cases w; rfl) (takes_withClause hg (hwith w rfl) hctes' ?_ ?_)
    · omega
    · exact body.kindAhead_ne _ (by decide)

/-! ## Whole trees -/

/-- Readers that read what is shorter than a bound make readers of what is as long. -/
theorem reads_level (hg : g.Reads d bound) : (level d g).Reads d (bound + 1) where
  expr _ _ h hs hp _ hf hr := reads_expression hg h (Nat.lt_succ_iff.1 hs) hp hf hr
  query _ h hs _ hr := reads_query hg h (Nat.lt_succ_iff.1 hs) hr
  fromItem _ h hs _ hr := reads_fromItem hg h (Nat.lt_succ_iff.1 hs) hr

/-- The readers of whole trees read every clear tree that is not longer than their allowance. -/
theorem reads_productions (d : Dialect) (allowance : List Token) :
    (productions d allowance).Reads d (allowance.length + 1) := by
  induction allowance with
  | nil => exact reads_level (reads_zero d _)
  | cons t allowance ih =>
    rw [productions_cons]
    exact reads_level ih

end SqlTree
