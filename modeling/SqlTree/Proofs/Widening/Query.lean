import Mathlib
import SqlTree.Query.Grammar.Knot
import SqlTree.Proofs.Widening.Expr

/-! # Queries in the generic dialect

* `widens_fromItem`: what a query reads from. It ends at no barred place.
* `widens_limit`: a narrow dialect that has no `LIMIT n BY` stops in front of `BY`.
* `widens_query`: whole queries.
* `widen_productions`: the readers that nest at most once for each token allowed.
-/

namespace SqlTree
set_option autoImplicit false

open Parse

namespace Parse

variable {d : Dialect} {e : Option Dialect} {g g' : Productions}

theorem Widens.ifKeyword {α : Type} {s : Option Dialect} {p p' : Parse α} (k : Keyword)
    (h : Widens none s p p') (hk : k ≠ .EXCLUDE ∧ k ≠ .BY) :
    Widens s s (ifKeyword k p) (ifKeyword k p') :=
  .keywordAt _ (.bind h fun _ => .pure _) (.pure _) hk

section Queries

variable (hg : g.Widen d g')

include hg

/-! ## Rows of values -/

theorem widens_valueRows : Widens none e (valueRows g) (valueRows g') := by
  have hrow : Widens none none (valueRow g) (valueRow g') :=
    .next fun _ => .next fun _ => .join (.refl _) (widens_exprList hg) fun _ =>
      .bind (.expectSymbol _ (by decide)) fun _ => .refl _
  exact .next fun _ => hrow.commaList.clean

/-! ## Rows into columns, columns into rows -/

theorem widens_closingItems : Widens none e (closingItems g) (closingItems g') :=
  .next fun _ => .next fun _ => .bind (widens_selectItems hg) fun _ =>
    .bind (.expectSymbol _ (by decide)) fun _ => .refl _

theorem widens_pivot : Widens none e (pivot g) (pivot g') :=
  .next fun _ => .next fun _ => .bind (widens_selectItems hg) fun _ =>
    .bind (.expectKeyword _ (by decide)) fun _ => .next fun _ => .bind (widens_closingItems hg) fun _ => .refl _

theorem widens_unpivot : Widens none e (unpivot g) (unpivot g') :=
  .next fun _ => .next fun _ => .next fun _ => .next fun _ => .next fun _ => .next fun _ =>
    .bind (widens_closingItems hg) fun _ => .refl _

/-! ## Joins -/

theorem widens_joins : Widens (some d) (some d) (joins g) (joins g') := by
  have hconstraint : Widens (some d) (some d) (joinConstraint g) (joinConstraint g') :=
    .takeKeyword _ (.bind (hg.expr 0) fun _ => .pure _) (.takeKeyword _ (.refl _) (.pure _) (by decide)) (by decide)
  have hjoin : Widens none (some d) (join g) (join g') := by
    refine .next fun kind? => ?_
    cases kind? with
    | none => exact .refl _
    | some kind => exact .bind hg.fromItem.clean fun _ => .bind hconstraint fun _ => .pure _
  -- No join begins at a barred place.
  refine .collect (.stays hjoin fun c hc => ⟨none, ?_⟩)
  have hkind : joinKind c = .ok none c := by
    rw [joinKind, bind_apply, current_apply]
    dsimp only
    rw [Cursor.current_kind_of_barred hc]
    rcases hc.kind with h | h | h <;> rw [h] <;> rfl
  rw [join, bind_apply, hkind]
  rfl

theorem widens_fromClause : Widens (some d) (some d) (fromClause g) (fromClause g') :=
  .takeKeyword _ (.bind hg.fromItem.clean fun _ => .bind (widens_joins hg) fun _ => .pure _) (.pure _) (by decide)

/-! ## Items -/

theorem widens_parenthesizedRelation :
    Widens none e (parenthesizedRelation g) (parenthesizedRelation g') := by
  have hclose : ∀ relation : Relation, Widens (some d) e
      (expectSymbol .rightParen >>= fun _ => pure relation)
      (expectSymbol .rightParen >>= fun _ => pure relation) := fun _ =>
    .bind (.expectSymbol _ (by decide)) fun _ => .refl _
  have hjoined : Widens none (some d)
      (g.fromItem >>= fun item => joins g >>= fun joins => pure (Relation.joined item joins))
      (g'.fromItem >>= fun item => joins g' >>= fun joins => pure (.joined item joins)) :=
    .bind hg.fromItem.clean fun _ => .bind (widens_joins hg) fun _ => .pure _
  refine .next fun _ => .next fun _ => .next fun _ => .ite ?_ (.ite ?_ (.bind hjoined hclose))
  · exact .bind (.map hg.query) hclose
  · exact .bind (.map (widens_valueRows hg)) hclose

theorem widens_relation : Widens none e (relation g) (relation g') := by
  refine .next fun token => ?_
  split
  · exact widens_parenthesizedRelation hg
  · refine .next fun _ => .next fun _ => .ite ?_ ?_
    · exact .bind hg.query fun _ => .bind (.expectSymbol _ (by decide)) fun _ => .refl _
    · exact .next fun _ => .bind (widens_functionCall hg _) fun _ => .refl _
  · exact .next fun _ => .next fun _ =>
      .ite (.bind (widens_functionCall hg _) fun _ => .refl _) (.refl _)

theorem widens_fromItem : Widens none none (fromItem g) (fromItem g') :=
  .bind (widens_relation hg) fun _ => .next fun _ => .bind (.ifKeyword _ (widens_pivot hg) (by decide)) fun _ =>
    .bind (.ifKeyword _ (widens_unpivot hg) (by decide)) fun _ => .pure _

/-! ## Blocks -/

theorem widens_groupClause : Widens (some d) (some d) (groupClause g) (groupClause g') :=
  .takeKeyword _ (.next fun _ => widens_exprList hg) (.pure _) (by decide)

theorem widens_select : Widens none (some d) (select g) (select g') := by
  have hclause : ∀ k, k ≠ .EXCLUDE ∧ k ≠ .BY →
      Widens (some d) (some d) (afterKeyword k (g.expr 0)) (afterKeyword k (g'.expr 0)) :=
    fun k hk => (hg.expr 0).afterKeyword k hk
  refine .next fun _ => .next fun _ => .bind (widens_selectItems hg) fun _ =>
    .bind (widens_fromClause hg) fun (source, joins) => ?_
  exact .bind (hclause _ (by decide)) fun _ => .bind (widens_groupClause hg) fun _ =>
    .bind (hclause _ (by decide)) fun _ => .bind (hclause _ (by decide)) fun _ => .pure _

/-! ## Set operators -/

theorem widens_setOperand : Widens none (some d) (setOperand g) (setOperand g') := by
  refine .next fun token => ?_
  split
  · exact .bind (widens_select hg) fun _ => .pure _
  · exact .bind (widens_valueRows hg) fun _ => .pure _
  · exact .bind hg.query.inParens fun _ => .pure _
  · exact .fail _

omit hg in
/-- No set operator begins at a barred place. -/
theorem widens_setExtend (admits : SetOperator → Bool) {right right' : SetOperator → Parse SetExpr}
    (hright : ∀ op, Widens none (some d) (right op) (right' op)) (left : SetExpr) :
    Widens (some d) (some d) (setExtend admits right left) (setExtend admits right' left) := by
  refine .stays ?_ fun c hc => ⟨none, ?_⟩
  · refine .next fun token => ?_
    split
    · exact .refl _
    · refine .ite ?_ (.refl _)
      exact .next fun _ => .next fun _ => .bind (hright _) fun _ => .pure _
  · rw [setExtend, bind_apply, current_apply]
    dsimp only
    rw [Cursor.current_kind_of_barred hc]
    rcases hc.kind with h | h | h <;> rw [h] <;> rfl

theorem widens_setExpr : Widens none (some d) (setExpr g) (setExpr g') := by
  have hterm : Widens none (some d) (setTerm g) (setTerm g') :=
    .bind (widens_setOperand hg) fun b =>
      .repeatFrom (widens_setExtend _ fun _ => widens_setOperand hg) b
  exact .bind (widens_setOperand hg) fun b =>
    .repeatFrom (widens_setExtend _ fun _ => .ite (widens_setOperand hg) hterm) b

/-! ## Around the body -/

theorem widens_withClause : Widens none none (withClause g) (withClause g') := by
  have hcte : Widens none none (cte g) (cte g') :=
    .next fun _ => .next fun _ => .next fun _ => .bind hg.query.inParens fun _ => .pure _
  exact .next fun _ => .next fun _ => .bind hcte.commaList fun _ => .pure _

omit hg in
theorem widens_orderDirection : Widens (some d) (some d) orderDirection orderDirection :=
  .takeKeyword _ (.refl _) (.takeKeyword _ (.refl _) (.pure _) (by decide)) (by decide)

omit hg in
theorem widens_nullOrdering : Widens (some d) (some d) nullOrdering nullOrdering :=
  .takeKeyword _ (.refl _) (.pure _) (by decide)

theorem widens_orderClause : Widens (some d) (some d) (orderClause g) (orderClause g') := by
  have hitem : Widens none (some d) (orderItem g) (orderItem g') :=
    .bind (hg.expr 0) fun _ => .bind widens_orderDirection fun _ =>
      .bind widens_nullOrdering fun _ => .pure _
  exact .takeKeyword _ (.next fun _ => hitem.commaList) (.pure _) (by decide)

/-! ## Limits -/

theorem widens_limitCount : Widens none (some d) (limitCount g) (limitCount g') := by
  refine .next fun _ => .ite (.refl _) (.next fun _ => .ite (.refl _) ?_)
  refine .bind (hg.expr 0) fun first => .bind (hg.expr 0).afterComma fun count? => ?_
  cases count? <;> exact .pure _

theorem widens_groups (hl : d.limitBy = true) : Widens (some d) (some d)
    (afterKeyword .BY (exprList g)) (afterKeyword .BY (exprList g')) := by
  refine .test (fun c hc => takeKeyword_of_ne fun he => ?_)
    (.bind (widens_exprList hg) fun _ => .pure _) (.pure _)
  rcases hc with h | ⟨h, -⟩ | ⟨h, -⟩
  · rw [he] at h
    cases h
  · rw [he] at h
    cases h
  · rw [hl] at h
    cases h

omit hg in
/-- A dialect without limits for each group is barred in front of `BY`. -/
theorem widens_noGroups (hl : d.limitBy = false) : Widens (some d) (some d)
    (pure none) (afterKeyword .BY (exprList g')) := by
  rintro c _ _ ⟨⟩
  refine ⟨id, ?_⟩
  by_cases hby : c.peek 0 = .keyword .BY
  · exact .inr (.inr (.inr ⟨hl, hby⟩))
  · rw [afterKeyword, bind_apply, takeKeyword_of_ne hby]
    exact .inl rfl

theorem widens_limit : Widens none (some d) (limit g d) (limit g' .generic) := by
  refine .next fun _ => .bind (widens_limitCount hg) fun l => ?_
  have hgeneric : Dialect.generic.limitBy = true := rfl
  dsimp only
  rw [if_pos hgeneric]
  by_cases hl : d.limitBy = true
  · rw [if_pos hl]
    exact .bind (widens_groups hg hl) fun _ => .pure _
  · rw [if_neg hl]
    exact .bind (widens_noGroups (Bool.eq_false_iff.2 hl)) fun _ => .pure _

theorem widens_limits : Widens (some d) (some d) (limits g d) (limits g' .generic) := by
  refine .bind ((widens_limit hg).ifKeyword _ (by decide)) fun first? => ?_
  cases first? with
  | none => exact .pure _
  | some first =>
    exact .ite (.bind ((widens_limit hg).ifKeyword _ (by decide)) fun _ => .pure _) (.pure _)

theorem widens_offsetCount : Widens none (some d) (offsetCount g) (offsetCount g') :=
  .bind (hg.expr 0) fun _ => .bind (.takeKeyword _ (.refl _) (.takeKeyword _ (.refl _) (.pure _) (by decide)) (by decide))
    fun _ => .pure _

theorem widens_query : Widens none (some d) (query g d) (query g' .generic) :=
  .bind ((widens_withClause hg).ifKeyword _ (by decide)) fun _ => .bind (widens_setExpr hg) fun _ =>
    .bind (widens_orderClause hg) fun _ => .bind (widens_limits hg) fun (limitBy, limit) =>
      .bind ((widens_offsetCount hg).afterKeyword _ (by decide)) fun _ => .pure _

end Queries

/-! ## Whole trees -/

variable (hd : d.IsNarrow)

include hd

theorem widen_level (hg : g.Widen d g') : (level d g).Widen d (level .generic g') where
  expr := widens_expression hg hd
  query := widens_query hg
  fromItem := widens_fromItem hg

theorem widen_productions (allowance : List Token) :
    (productions d allowance).Widen d (productions .generic allowance) := by
  induction allowance with
  | nil => exact widen_level hd (Productions.widen_exhausted d)
  | cons t allowance ih =>
    rw [productions_cons, productions_cons]
    exact widen_level hd ih

end Parse
end SqlTree
