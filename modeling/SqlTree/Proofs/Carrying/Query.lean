import Mathlib
import SqlTree.Query.Grammar.Knot
import SqlTree.Proofs.Carrying.Expr

/-! # Queries inside a longer text

* `carries_fromItem`: what a query reads from.
* `carries_query`: whole queries.
* `carries_productions`: the readers that nest at most once for each token allowed. The tokens of a
  part allow as much nesting as the part has, and more tokens behind it change nothing.
-/

namespace SqlTree
set_option autoImplicit false

namespace Parse

variable {S : Surroundings} {k : Nat} {r : Room} {g g' : Productions} {d : Dialect}
  (hg : g.Carry S r.inside g')

/-! ## Rows of values -/

section Rows

include hg

theorem carries_valueRow :
    Carries S r (List.map (Expr.shift S.placeholders)) (valueRow g) (valueRow g') := by
  have hrow : Carries S r.inside (List.map (Expr.shift S.placeholders))
      (symbolAt 0 .rightParen >>= fun b => if b then pure [] else exprList g)
      (symbolAt 0 .rightParen >>= fun b => if b then pure [] else exprList g') :=
    .symbolAt .rightParen ⟨rfl, rfl, rfl⟩ (.pure rfl) (carries_exprList hg)
  refine .expectSymbol .leftParen ⟨rfl, rfl, rfl⟩ (.branch hrow fun row => ?_)
  exact .expectSymbol .rightParen ⟨rfl, rfl, rfl⟩ (.pure rfl)

theorem carries_valueRows :
    Carries S r (List.map (List.map (Expr.shift S.placeholders))) (valueRows g) (valueRows g') :=
  .expectKeyword .VALUES (carries_valueRow (r := r.inside) hg).commaList

end Rows

/-! ## Rows into columns, columns into rows -/

theorem carries_columnName : Carries S r id columnName columnName :=
  .next carries_dottedName fun _ => .pure rfl

theorem carries_oneOrMoreColumns : Carries S r id oneOrMoreColumns oneOrMoreColumns := by
  have hcolumns : Carries S r.inside (List.map id) (commaList columnName) (commaList columnName) :=
    Carries.commaList carries_columnName
  refine .takeSymbol .leftParen ⟨rfl, rfl, rfl⟩ (.next hcolumns fun columns => ?_)
    (.next carries_columnName fun _ => .pure rfl)
  exact .expectSymbol .rightParen ⟨rfl, rfl, rfl⟩ (.pure (by simp))

section Pivots

include hg

theorem carries_closingItems :
    Carries S r (List.map (SelectItem.shift S.placeholders)) (closingItems g)
      (closingItems g') := by
  refine .expectKeyword .IN (.expectSymbol .leftParen ⟨rfl, rfl, rfl⟩ ?_)
  refine .next (carries_selectItems (r := r.inside) hg) fun items => ?_
  exact .expectSymbol .rightParen ⟨rfl, rfl, rfl⟩
    (.expectSymbol .rightParen ⟨rfl, rfl, rfl⟩ (.pure rfl))

theorem carries_pivot : Carries S r (Pivot.shift S.placeholders) (pivot g) (pivot g') := by
  refine .expectKeyword .PIVOT (.expectSymbol .leftParen ⟨rfl, rfl, rfl⟩ ?_)
  refine .next (carries_selectItems (r := r.inside) hg) fun aggregates => .expectKeyword .FOR ?_
  refine .next carries_oneOrMoreColumns fun columns => ?_
  refine .next (carries_closingItems (r := r.inside) hg) fun items => ?_
  exact .next carries_optionalAlias fun alias? => .pure (by simp [Pivot.shift])

omit hg in
theorem carries_includeNulls : Carries S r id includeNulls includeNulls :=
  .takeKeyword .INCLUDE (.expectKeyword .NULLS (.pure rfl))
    (.takeKeyword .EXCLUDE (.expectKeyword .NULLS (.pure rfl)) (.pure rfl))

theorem carries_unpivot :
    Carries S r (Unpivot.shift S.placeholders) (unpivot g) (unpivot g') := by
  refine .expectKeyword .UNPIVOT (.next carries_includeNulls fun includeNulls => ?_)
  refine .expectSymbol .leftParen ⟨rfl, rfl, rfl⟩ (.next carries_oneOrMoreIdentifiers fun values => ?_)
  refine .expectKeyword .FOR (.next carries_oneOrMoreIdentifiers fun names => ?_)
  refine .next (carries_closingItems (r := r.inside) hg) fun items => ?_
  exact .next carries_optionalAlias fun alias? => .pure (by simp [Unpivot.shift])

end Pivots

theorem Carries.ifKeyword {α : Type} {h : α → α} {item item' : Parse α} (w : Keyword)
    (hitem : Carries S r h item item') :
    Carries S r (Option.map h) (ifKeyword w item) (ifKeyword w item') :=
  .keywordAt w (.next hitem fun _ => .pure rfl) (.pure rfl)

/-! ## Joins -/

/-- The first word of a join is under the cursor. -/
theorem steps_outerJoin (kind : JoinKind) :
    CarriesFrom S 1 r (fun o => o.isSome = true) (Option.map id) (outerJoin kind)
      (outerJoin kind) := by
  refine .advance (.next (carries_takeKeyword .OUTER) fun _ => ?_)
  exact .expectKeyword .JOIN (.pure rfl)

theorem steps_joinKind : Steps S r id joinKind joinKind := by
  have hjoin : ∀ kind : JoinKind, CarriesFrom S 1 r (fun o => o.isSome = true) (Option.map id)
      (advance >>= fun _ => expectKeyword .JOIN >>= fun _ => pure (some kind))
      (advance >>= fun _ => expectKeyword .JOIN >>= fun _ => pure (some kind)) :=
    fun _ => .advance (.expectKeyword .JOIN (.pure rfl))
  refine .token (fun kind _ _ _ => ?_) fun t t' ht ht' => ?_
  · dsimp only
    split
    · exact .advance (.pure rfl)
    · exact .advance (.pure rfl)
    · exact hjoin _
    · exact steps_outerJoin _
    · exact steps_outerJoin _
    · exact steps_outerJoin _
    · exact hjoin _
    · exact .nothing
  · rcases ht with ht | ht <;> rw [ht, ht'] <;> exact .nothing

section Joins

include hg

theorem carries_joinConstraint :
    Carries S r (JoinConstraint.shift S.placeholders) (joinConstraint g) (joinConstraint g') :=
  .takeKeyword .ON (.next (hg.expr 0) fun _ => .pure rfl)
    (.takeKeyword .USING (.next carries_identifiersInParens fun _ => .pure rfl) (.pure rfl))

theorem steps_join : Steps S r (Join.shift S.placeholders) (join g) (join g') := by
  refine .bind steps_joinKind (fun kind? hkind => ?_) fun kind? hkind => ?_
  · cases kind? with
    | none => simp at hkind
    | some kind =>
      refine .next hg.fromItem fun item => ?_
      exact .next (carries_joinConstraint (r := r.inside) hg) fun _ => .pure rfl
  · cases kind? with
    | none => exact .nothing
    | some kind => exact absurd rfl hkind

theorem carries_joins :
    Carries S r (List.map (Join.shift S.placeholders)) (joins g) (joins g') :=
  (steps_join hg).collect

theorem carries_fromClause :
    Carries S r (Prod.map (Option.map (FromItem.shift S.placeholders))
      (List.map (Join.shift S.placeholders))) (fromClause g) (fromClause g') := by
  refine .takeKeyword .FROM (.next hg.fromItem fun item => ?_) (.pure rfl)
  exact .next (carries_joins (r := r.inside) hg) fun joins => .pure rfl

/-! ## Items -/

/-- The opening parenthesis is under the cursor. -/
theorem carries_parenthesizedRelation :
    CarriesFrom S 1 r (fun _ => False) (Relation.shift S.placeholders) (parenthesizedRelation g)
      (parenthesizedRelation g') := by
  have hclose : ∀ {k} (relation : Relation), CarriesFrom S k r.inside (fun _ => False)
      (Relation.shift S.placeholders)
      (expectSymbol .rightParen >>= fun _ => pure (relation.shift S.placeholders))
      (expectSymbol .rightParen >>= fun _ => pure relation) :=
    fun _ => .expectSymbol .rightParen ⟨rfl, rfl, rfl⟩ (.pure rfl)
  simp only [parenthesizedRelation, map_eq_pure_bind, bind_assoc, pure_bind]
  have hquery : ∀ {k}, CarriesFrom S k r.inside (fun _ => False) (Relation.shift S.placeholders)
      (g.query >>= fun q => expectSymbol .rightParen >>= fun _ => pure (.query q))
      (g'.query >>= fun q => expectSymbol .rightParen >>= fun _ => pure (.query q)) :=
    .next hg.query fun q => hclose (.query q)
  refine .advance (.anyKeywordAt _ (.keywordAt .VALUES hquery hquery) (.keywordAt .VALUES ?_ ?_))
  · refine .next (carries_valueRows (r := r.inside) hg) fun rows => ?_
    exact .expectSymbol .rightParen ⟨rfl, rfl, rfl⟩ (.pure (by simp [Relation.shift]))
  · refine .next hg.fromItem fun item => .next (carries_joins (r := r.inside) hg) fun joins => ?_
    exact .expectSymbol .rightParen ⟨rfl, rfl, rfl⟩ (.pure (by simp [Relation.shift]))

theorem carries_lateralRelation :
    CarriesFrom S 1 r (fun _ => False) (Relation.shift S.placeholders) (lateralRelation g)
      (lateralRelation g') := by
  refine .advance (.takeSymbol .leftParen ⟨rfl, rfl, rfl⟩ (.next hg.query fun q => ?_) ?_)
  · exact .expectSymbol .rightParen ⟨rfl, rfl, rfl⟩ (.pure rfl)
  · refine .next carries_objectName fun name => ?_
    exact .next (carries_functionCall (r := r.inside) hg name) fun _ => .pure rfl

theorem carries_namedRelation :
    Carries S r (Relation.shift S.placeholders) (namedRelation g) (namedRelation g') :=
  .next carries_objectName fun name =>
    .symbolAt .leftParen ⟨rfl, rfl, rfl⟩ (.next (carries_functionCall hg name) fun _ => .pure rfl)
      (.pure rfl)

theorem carries_relation :
    Carries S r (Relation.shift S.placeholders) (relation g) (relation g') := by
  refine .token (fun kind _ _ _ => ?_) fun t t' ht ht' => ?_
  · dsimp only
    split
    · exact carries_parenthesizedRelation hg
    · exact carries_lateralRelation hg
    · exact (carries_namedRelation hg).still
  · rcases ht with ht | ht <;> rw [ht, ht'] <;> exact carries_namedRelation hg

theorem carries_fromItem :
    Carries S r (FromItem.shift S.placeholders) (fromItem g) (fromItem g') := by
  refine .next (carries_relation hg) fun relation => .next carries_tableAlias fun alias? => ?_
  refine .next ((carries_pivot hg).ifKeyword _) fun pivot => ?_
  refine .next ((carries_unpivot hg).ifKeyword _) fun unpivot => .pure ?_
  rw [FromItem.shift_mk]
  rfl

end Joins

/-! ## Blocks -/

theorem carries_distinctWord : Carries S r id distinctWord distinctWord :=
  .takeKeyword .DISTINCT (.pure rfl) (.next (carries_takeKeyword .ALL) fun _ => .pure rfl)

section Blocks

include hg

theorem carries_groupClause :
    Carries S r (List.map (Expr.shift S.placeholders)) (groupClause g) (groupClause g') :=
  .takeKeyword .GROUP (.expectKeyword .BY (carries_exprList (r := r.inside) hg)) (.pure rfl)

theorem carries_select : Carries S r (Select.shift S.placeholders) (select g) (select g') := by
  have hclause : ∀ w : Keyword, Steps S r.inside (Expr.shift S.placeholders)
      (afterKeyword w (g.expr 0)) (afterKeyword w (g'.expr 0)) :=
    fun w => Carries.afterKeyword (r := r.inside) w (hg.expr 0)
  refine .expectKeyword .SELECT (.next carries_distinctWord fun distinct => ?_)
  refine .next (carries_selectItems hg) fun items => ?_
  refine .next (carries_fromClause (r := r.inside) hg) fun ⟨source, joins⟩ => ?_
  refine .next (hclause .WHERE) fun condition => ?_
  refine .next (carries_groupClause (r := r.inside) hg) fun groupBy => ?_
  refine .next (hclause .HAVING) fun having => .next (hclause .QUALIFY) fun qualify => ?_
  exact .pure (by simp [Select.shift])

/-! ## Set operators -/

theorem carries_setOperand :
    Carries S r (SetExpr.shift S.placeholders) (setOperand g) (setOperand g') := by
  have hparens : Carries S r (Query.shift S.placeholders) (inParens g.query) (inParens g'.query) :=
    Carries.inParens hg.query
  refine .token (fun kind _ _ _ => ?_) fun t t' ht ht' => ?_
  · dsimp only
    split
    · exact .next (carries_select hg) fun _ => .pure rfl
    · exact .next (carries_valueRows hg) fun _ => .pure (by simp [SetExpr.shift])
    · exact .next hparens fun _ => .pure rfl
    · exact .fail _
  · rcases ht with ht | ht <;> rw [ht, ht'] <;> exact .fail _

omit hg in
theorem carries_setQuantifier : Carries S r id setQuantifier setQuantifier :=
  .takeKeyword .ALL (.pure rfl) (.takeKeyword .DISTINCT (.pure rfl) (.pure rfl))

omit hg in
theorem steps_setExtend (admits : SetOperator → Bool) {right right' : SetOperator → Parse SetExpr}
    (hright : ∀ op, Carries S r.inside (SetExpr.shift S.placeholders) (right op) (right' op))
    (left : SetExpr) :
    Steps S r (SetExpr.shift S.placeholders) (setExtend admits right (left.shift S.placeholders))
      (setExtend admits right' left) := by
  refine .token (fun kind _ _ _ => ?_) fun t t' ht ht' => ?_
  · dsimp only
    cases hop : SetOperator.ofToken? kind with
    | none => exact .nothing
    | some op =>
      have hknown : CarriesFrom.sight kind = 1 := by
        unfold SetOperator.ofToken? at hop
        split at hop <;> simp_all [CarriesFrom.sight]
      rw [hknown]
      refine .ite (fun _ => .advance ?_) fun _ => .nothing
      refine .next carries_setQuantifier fun quantifier => .next (hright op) fun _ => .pure rfl
  · rcases ht with ht | ht <;> rw [ht, ht'] <;> exact .nothing

theorem carries_setTerm :
    Carries S r (SetExpr.shift S.placeholders) (setTerm g) (setTerm g') :=
  .next (carries_setOperand hg) fun b => carries_repeatFrom
    (steps_setExtend _ fun _ => carries_setOperand (r := r.inside) hg) b

theorem carries_setExpr :
    Carries S r (SetExpr.shift S.placeholders) (setExpr g) (setExpr g') :=
  .next (carries_setOperand hg) fun b => carries_repeatFrom
    (steps_setExtend _ fun _ => .ite (fun _ => carries_setOperand (r := r.inside) hg)
      fun _ => carries_setTerm (r := r.inside) hg) b

/-! ## Around the body -/

theorem carries_cte : Carries S r.inside (Cte.shift S.placeholders) (cte g) (cte g') := by
  have hparens : Carries S r.inside (Query.shift S.placeholders) (inParens g.query)
      (inParens g'.query) := Carries.inParens (r := r.inside) hg.query
  refine .next carries_identifier fun name => .next carries_optionalIdentifiers fun columns => ?_
  exact .expectKeyword .AS (.next hparens fun _ => .pure rfl)

theorem carries_withClause :
    Carries S r (With.shift S.placeholders) (withClause g) (withClause g') := by
  refine .expectKeyword .WITH (.next (carries_takeKeyword _) fun recursive => ?_)
  exact .next (carries_cte hg).commaList fun ctes => .pure (by simp [With.shift])

omit hg in
theorem carries_orderDirection : Carries S r id orderDirection orderDirection :=
  .takeKeyword .ASC (.pure rfl) (.takeKeyword .DESC (.pure rfl) (.pure rfl))

omit hg in
theorem carries_nullOrdering : Carries S r id nullOrdering nullOrdering :=
  .takeKeyword .NULLS
    (.takeKeyword .FIRST (.pure rfl) (.expectKeyword .LAST (.pure rfl))) (.pure rfl)

theorem carries_orderItem :
    Carries S r.inside (OrderItem.shift S.placeholders) (orderItem g) (orderItem g') :=
  .next (hg.expr 0) fun _ => .next carries_orderDirection fun _ =>
    .next carries_nullOrdering fun _ => .pure rfl

theorem carries_orderClause :
    Carries S r (List.map (OrderItem.shift S.placeholders)) (orderClause g) (orderClause g') :=
  .takeKeyword .ORDER (.expectKeyword .BY (carries_orderItem (r := r.inside) hg).commaList)
    (.pure rfl)

theorem carries_limitCount :
    Carries S r.inside (Limit.shift S.placeholders) (limitCount g) (limitCount g') := by
  have hcount := Carries.afterComma (r := r.inside) (hg.expr 0)
  refine .takeKeyword .NULL (.pure rfl) (.takeKeyword .ALL (.pure rfl) ?_)
  refine .next (hg.expr 0) fun first => .next hcount fun count => ?_
  cases count with
  | none => exact .pure rfl
  | some count => exact .pure rfl

theorem carries_limit : Carries S r (Limit.shift S.placeholders) (limit g d) (limit g' d) := by
  have hgroups : Steps S r.inside (List.map (Expr.shift S.placeholders))
      (afterKeyword .BY (exprList g)) (afterKeyword .BY (exprList g')) :=
    Carries.afterKeyword (r := r.inside) _ (carries_exprList hg)
  have hwith : ∀ (l : Limit) (groups : Option (List Expr)),
      { l.shift S.placeholders with
        groups := groups.map (List.map (Expr.shift S.placeholders)) } =
        ({ l with groups } : Limit).shift S.placeholders := by
    rintro ⟨rowCount, offset, all, null, _⟩ groups
    rw [Limit.shift_mk, Limit.shift_mk]
  refine .expectKeyword .LIMIT (.next (carries_limitCount hg) fun l => ?_)
  refine .ite (fun _ => .next hgroups fun groups => .pure (hwith l groups)) fun _ => ?_
  exact .pure (hwith l none)

theorem carries_limits :
    Carries S r (Prod.map (Option.map (Limit.shift S.placeholders))
      (Option.map (Limit.shift S.placeholders))) (limits g d) (limits g' d) := by
  have hlimit := (carries_limit (d := d) hg).ifKeyword .LIMIT
  refine .next hlimit fun first? => ?_
  cases first? with
  | none => exact .pure rfl
  | some first =>
    have hsome : (first.shift S.placeholders).groups.isSome = first.groups.isSome := by
      obtain ⟨rowCount, offset, all, null, groups⟩ := first
      rw [Limit.shift_mk, Option.isSome_map]
    rw [Option.map_some]
    dsimp only
    rw [hsome]
    exact .ite (fun _ => .next hlimit fun _ => .pure rfl) fun _ => .pure rfl

theorem carries_offsetCount :
    Carries S r.inside (Offset.shift S.placeholders) (offsetCount g) (offsetCount g') := by
  have hrows : Carries S r.inside id offsetRows offsetRows :=
    .takeKeyword .ROW (.pure rfl) (.takeKeyword .ROWS (.pure rfl) (.pure rfl))
  exact .next (hg.expr 0) fun _ => .next hrows fun _ => .pure rfl

theorem carries_query : Carries S r (Query.shift S.placeholders) (query g d) (query g' d) := by
  refine .next ((carries_withClause hg).ifKeyword _) fun ctes => ?_
  refine .next (carries_setExpr hg) fun body => .next (carries_orderClause hg) fun orderBy => ?_
  refine .next (carries_limits hg) fun ⟨limitBy, limit⟩ => ?_
  refine .next (Carries.afterKeyword _ (carries_offsetCount hg)) fun offset => .pure ?_
  rw [Query.shift_mk]

end Blocks

/-! ## Whole trees -/

include hg in
theorem carry_level : (level d g).Carry S r (level d g') where
  expr power := carries_expression hg power
  query := carries_query hg
  fromItem := carries_fromItem hg

/-- Trees in trees begin behind a token, so the tokens ahead of a part are allowance enough. -/
theorem carry_productions : ∀ allowance' allowance : List Token,
    allowance'.length ≤ allowance.length →
      (productions d allowance).Carry S ⟨allowance'.length, false⟩ (productions d allowance')
  | [], allowance, _ => by
    have hnone : ∀ g g' : Productions, g.Carry S (Room.inside ⟨0, false⟩) g' :=
      fun _ _ => ⟨fun _ => .noRoom, .noRoom, .noRoom⟩
    cases allowance with
    | nil => exact carry_level (hnone _ _)
    | cons t allowance => exact carry_level (hnone _ _)
  | t' :: allowance', [], hl => by simp at hl
  | t' :: allowance', t :: allowance, hl => by
    have ih := carry_productions allowance' allowance (Nat.le_of_succ_le_succ hl)
    exact carry_level ⟨ih.expr, ih.query, ih.fromItem⟩

end Parse
end SqlTree
