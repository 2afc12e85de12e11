import Mathlib
import SqlTree.Query.Grammar.Knot
import SqlTree.Proofs.Descent.Expr

/-! # The readers of queries come to an end

* `consumes_fromItem`: what a query reads from.
* `consumes_query`: whole queries.
* `last_productions`: the tokens ahead are an ample allowance for trees in trees.
* `productions_expr_eq`, `productions_query_eq`, `productions_fromItem_eq`: a tree in a tree begins
  at a smaller weight.
-/

namespace SqlTree
set_option autoImplicit false

namespace Parse

variable {r : Outset} {k : Nat} {g g' : Productions} {d : Dialect} (hg : g.Last r.inside g')

/-! ## Rows of values -/

section Rows

include hg

theorem consumes_valueRow : Consumes r (valueRow g) (valueRow g') := by
  refine .expectSymbol .leftParen (.look (fun _ => rfl) fun _ => ?_)
  refine .join (fun _ => .pure _) (fun _ => (consumes_exprList hg).still) fun _ => ?_
  exact .expectSymbol .rightParen (.pure _)

theorem consumes_valueRows : Consumes r (valueRows g) (valueRows g') :=
  .expectKeyword .VALUES (lasts_commaList (consumes_valueRow hg.inside)).still

end Rows

/-! ## Rows into columns, columns into rows -/

theorem consumes_columnName : Consumes r columnName columnName :=
  .after consumes_dottedName fun _ => .pure _

theorem consumes_oneOrMoreColumns : Consumes r oneOrMoreColumns oneOrMoreColumns := by
  refine .takeSymbol .leftParen (.next (lasts_commaList consumes_columnName) fun _ => ?_)
    (.after consumes_columnName fun _ => .pure _)
  exact .expectSymbol .rightParen (.pure _)

theorem lasts_includeNulls : Lasts r includeNulls includeNulls :=
  .takeKeyword .INCLUDE (.expectKeyword .NULLS (.pure _))
    (.takeKeyword .EXCLUDE (.expectKeyword .NULLS (.pure _)) (.pure _))

section Pivots

include hg

theorem consumes_closingItems : Consumes r (closingItems g) (closingItems g') := by
  refine .expectKeyword .IN (.expectSymbol .leftParen (.next (consumes_selectItems hg) fun _ => ?_))
  exact .expectSymbol .rightParen (.expectSymbol .rightParen (.pure _))

theorem consumes_pivot : Consumes r (pivot g) (pivot g') := by
  refine .expectKeyword .PIVOT (.expectSymbol .leftParen (.next (consumes_selectItems hg) fun _ => ?_))
  refine .expectKeyword .FOR (.next consumes_oneOrMoreColumns fun _ => ?_)
  exact .next (consumes_closingItems hg.inside) fun _ => .next lasts_optionalAlias fun _ => .pure _

theorem consumes_unpivot : Consumes r (unpivot g) (unpivot g') := by
  refine .expectKeyword .UNPIVOT (.next lasts_includeNulls fun _ => .expectSymbol .leftParen ?_)
  refine .next consumes_oneOrMoreIdentifiers fun _ => .expectKeyword .FOR ?_
  refine .next consumes_oneOrMoreIdentifiers fun _ => .next (consumes_closingItems hg.inside) fun _ => ?_
  exact .next lasts_optionalAlias fun _ => .pure _

end Pivots

theorem rounds_ifKeyword {α : Type} {item item' : Parse α} (w : Keyword)
    (hitem : Consumes r item item') : Rounds r (ifKeyword w item) (ifKeyword w item') :=
  .keywordAt 0 w (.after (hitem.knowing (Nat.zero_le _)) fun _ => .pure _) .nothing

/-! ## Joins -/

theorem rounds_joinKind : Rounds r joinKind joinKind := by
  have hjoin : ∀ {r : Outset} (kind : JoinKind), Lasts r
      (expectKeyword .JOIN >>= fun _ => pure (some kind))
      (expectKeyword .JOIN >>= fun _ => pure (some kind)) := fun _ => .expectKeyword .JOIN (.pure _)
  have houter : ∀ kind, LastsFrom r 1 (fun o => o.isSome = true) (outerJoin kind) (outerJoin kind) :=
    fun kind => .advance (.next (lasts_takeKeyword _) fun _ => hjoin kind)
  refine .token fun kind _ _ => ?_
  dsimp only
  split
  · exact .advance (.pure _)
  · exact .advance (.pure _)
  · exact .advance (hjoin _)
  · exact houter _
  · exact houter _
  · exact houter _
  · exact .advance (hjoin _)
  · exact .nothing

section Joins

include hg

omit hg in
theorem lasts_joinConstraint (hg : g.Last r g') :
    Lasts r (joinConstraint g) (joinConstraint g') :=
  .takeKeyword .ON (.next (hg.inside.expr 0) fun _ => .pure _)
    (.takeKeyword .USING (.next consumes_identifiersInParens fun _ => .pure _) (.pure _))

theorem rounds_join : Rounds r (join g) (join g') := by
  refine .bind rounds_joinKind (fun kind? hkind => ?_) fun kind? hkind => ?_
  · cases kind? with
    | none => simp at hkind
    | some kind => exact .next hg.fromItem fun _ => .next (lasts_joinConstraint hg) fun _ => .pure _
  · cases kind? with
    | none => exact .nothing
    | some kind => exact absurd rfl hkind

theorem lasts_joins : Lasts r (joins g) (joins g') :=
  (rounds_join hg).collect

theorem lasts_fromClause : Lasts r (fromClause g) (fromClause g') :=
  .takeKeyword .FROM (.next hg.fromItem fun _ => .next (lasts_joins hg.inside) fun _ => .pure _)
    (.pure _)

/-! ## Items -/

/-- The opening parenthesis is under the cursor. -/
theorem lasts_parenthesizedRelation : LastsFrom r 1 (fun _ => True) (parenthesizedRelation g)
    (parenthesizedRelation g') := by
  have hclose : ∀ relation : Relation, Lasts r.inside
      (expectSymbol .rightParen >>= fun _ => pure relation)
      (expectSymbol .rightParen >>= fun _ => pure relation) :=
    fun _ => .expectSymbol .rightParen (.pure _)
  simp only [parenthesizedRelation, map_eq_pure_bind, bind_assoc, pure_bind]
  refine .advance (.look (fun _ => rfl) fun _ => .look (fun _ => rfl) fun _ => ?_)
  refine .ite (fun _ => .next hg.query fun _ => hclose _) fun _ => .ite (fun _ => ?_) fun _ => ?_
  · exact .next (consumes_valueRows hg.inside) fun _ => hclose _
  · exact .next hg.fromItem fun _ => .next (lasts_joins hg.inside) fun _ => hclose _

/-- The word is under the cursor. -/
theorem lasts_lateralRelation :
    LastsFrom r 1 (fun _ => True) (lateralRelation g) (lateralRelation g') := by
  refine .advance (.takeSymbol .leftParen (.next hg.inside.query fun _ => ?_) ?_)
  · exact .expectSymbol .rightParen (.pure _)
  · refine .next consumes_objectName fun _ => ?_
    exact .next (consumes_functionCall hg.inside _) fun _ => .pure _

theorem consumes_namedRelation : Consumes r (namedRelation g) (namedRelation g') :=
  .after consumes_objectName fun _ => .look (fun _ => rfl) fun _ =>
    .ite (fun _ => .next (consumes_functionCall hg.inside _) fun _ => .pure _) fun _ => .pure _

theorem consumes_relation : Consumes r (relation g) (relation g') := by
  refine .token fun kind _ _ => ?_
  dsimp only
  split
  · exact lasts_parenthesizedRelation hg
  · exact lasts_lateralRelation hg
  · exact (consumes_namedRelation hg).knowing (Nat.zero_le _)

theorem consumes_fromItem : Consumes r (fromItem g) (fromItem g') := by
  refine .after (consumes_relation hg) fun _ => .next lasts_tableAlias fun _ => ?_
  refine .next (rounds_ifKeyword _ (consumes_pivot hg.inside)) fun _ => ?_
  exact .next (rounds_ifKeyword _ (consumes_unpivot hg.inside)) fun _ => .pure _

end Joins

/-! ## Blocks -/

theorem lasts_distinctWord : Lasts r distinctWord distinctWord :=
  .takeKeyword .DISTINCT (.pure _) (.next (lasts_takeKeyword .ALL) fun _ => .pure _)

section Blocks

include hg

theorem lasts_groupClause : Lasts r (groupClause g) (groupClause g') :=
  .takeKeyword .GROUP (.expectKeyword .BY (consumes_exprList hg).still.inside) (.pure _)

theorem consumes_select : Consumes r (select g) (select g') := by
  have hclause : ∀ w : Keyword, Rounds r.inside (afterKeyword w (g.expr 0))
      (afterKeyword w (g'.expr 0)) := fun w => rounds_afterKeyword (r := r.inside) w (hg.expr 0)
  refine .expectKeyword .SELECT (.next lasts_distinctWord fun _ => ?_)
  refine .next (consumes_selectItems hg) fun _ => .next (lasts_fromClause hg.inside) fun _ => ?_
  refine .next (hclause .WHERE) fun _ => .next (lasts_groupClause hg.inside) fun _ => ?_
  exact .next (hclause .HAVING) fun _ => .next (hclause .QUALIFY) fun _ => .pure _

/-! ## Set operators -/

theorem consumes_setOperand : Consumes r (setOperand g) (setOperand g') := by
  refine .token fun kind _ _ => ?_
  dsimp only
  split
  · exact .after ((consumes_select hg).knowing (Nat.zero_le _)) fun _ => .pure _
  · exact .after ((consumes_valueRows hg).knowing (Nat.zero_le _)) fun _ => .pure _
  · exact .after (lasts_inParens hg.query) fun _ => .pure _
  · exact .fail _

omit hg in
theorem lasts_setQuantifier : Lasts r setQuantifier setQuantifier :=
  .takeKeyword .ALL (.pure _) (.takeKeyword .DISTINCT (.pure _) (.pure _))

omit hg in
theorem rounds_setExtend (admits : SetOperator → Bool) {right right' : SetOperator → Parse SetExpr}
    (hright : ∀ op, Lasts r.inside (right op) (right' op)) (left : SetExpr) :
    Rounds r (setExtend admits right left) (setExtend admits right' left) := by
  refine .token fun kind _ _ => ?_
  dsimp only
  cases hop : SetOperator.ofToken? kind with
  | none => exact .nothing
  | some op =>
    have hkind : kind ≠ .endOfInput := by
      rintro rfl
      cases hop
    rw [LastsFrom.sight_of_ne hkind]
    refine .ite (fun _ => .advance (.next lasts_setQuantifier fun _ => ?_)) fun _ => .nothing
    exact .next (hright op) fun _ => .pure _

theorem consumes_setTerm : Consumes r (setTerm g) (setTerm g') :=
  .after (consumes_setOperand hg) fun b => lasts_repeatFrom
    (rounds_setExtend _ fun _ => (consumes_setOperand hg.inside.inside).still) b

theorem consumes_setExpr : Consumes r (setExpr g) (setExpr g') :=
  .after (consumes_setOperand hg) fun b => lasts_repeatFrom
    (rounds_setExtend _ fun _ => .ite (fun _ => (consumes_setOperand hg.inside.inside).still)
      fun _ => (consumes_setTerm hg.inside.inside).still) b

/-! ## Around the body -/

theorem consumes_cte : Consumes r (cte g) (cte g') := by
  refine .after consumes_identifier fun _ => .next lasts_optionalIdentifiers fun _ => ?_
  exact .expectKeyword .AS (.next (lasts_inParens hg.query.inside) fun _ => .pure _)

theorem consumes_withClause : Consumes r (withClause g) (withClause g') :=
  .expectKeyword .WITH (.next (lasts_takeKeyword _) fun _ =>
    .next (lasts_commaList (consumes_cte hg.inside)) fun _ => .pure _)

omit hg in
theorem lasts_orderDirection : Lasts r orderDirection orderDirection :=
  .takeKeyword .ASC (.pure _) (.takeKeyword .DESC (.pure _) (.pure _))

omit hg in
theorem lasts_nullOrdering : Lasts r nullOrdering nullOrdering :=
  .takeKeyword .NULLS (.takeKeyword .FIRST (.pure _) (.expectKeyword .LAST (.pure _))) (.pure _)

omit hg in
theorem consumes_orderItem (hg : g.Last r g') : Consumes r (orderItem g) (orderItem g') :=
  .after (hg.expr 0) fun _ => .next lasts_orderDirection fun _ =>
    .next lasts_nullOrdering fun _ => .pure _

theorem lasts_orderClause : Lasts r (orderClause g) (orderClause g') :=
  .takeKeyword .ORDER (.expectKeyword .BY (lasts_commaList (consumes_orderItem hg)).still)
    (.pure _)

omit hg in
theorem lasts_limitCount (hg : g.Last r g') : Lasts r (limitCount g) (limitCount g') := by
  refine .takeKeyword .NULL (.pure _) (.takeKeyword .ALL (.pure _) ?_)
  refine .next (hg.expr 0) fun _ => .next (rounds_afterComma (hg.expr 0).inside) fun count => ?_
  cases count with
  | none => exact .pure _
  | some count => exact .pure _

theorem consumes_limit : Consumes r (limit g d) (limit g' d) := by
  refine .expectKeyword .LIMIT (.next (lasts_limitCount hg) fun _ => ?_)
  refine .join (fun _ => ?_) (fun _ => .pure _) fun _ => .pure _
  exact (rounds_afterKeyword .BY (consumes_exprList hg).inside).still

theorem lasts_limits : Lasts r (limits g d) (limits g' d) := by
  refine .next (rounds_ifKeyword _ (consumes_limit hg)) fun first? => ?_
  cases first? with
  | none => exact .pure _
  | some first =>
    refine .ite (fun _ => ?_) fun _ => .pure _
    exact .next (rounds_ifKeyword _ (consumes_limit hg)) fun _ => .pure _

omit hg in
theorem lasts_offsetRows : Lasts r offsetRows offsetRows :=
  .takeKeyword .ROW (.pure _) (.takeKeyword .ROWS (.pure _) (.pure _))

omit hg in
theorem consumes_offsetCount (hg : g.Last r g') : Consumes r (offsetCount g) (offsetCount g') :=
  .after (hg.expr 0) fun _ => .next lasts_offsetRows fun _ => .pure _

theorem consumes_query : Consumes r (query g d) (query g' d) := by
  refine .bind (rounds_ifKeyword _ (consumes_withClause hg)) (fun _ _ => ?_) fun _ _ => ?_
  · refine .next (consumes_setExpr hg.inside) fun _ => .next (lasts_orderClause hg.inside) fun _ => ?_
    refine .next (lasts_limits hg.inside) fun _ => ?_
    exact .next (rounds_afterKeyword _ (consumes_offsetCount hg.inside)) fun _ => .pure _
  · refine .after (consumes_setExpr hg) fun _ => .next (lasts_orderClause hg.inside) fun _ => ?_
    refine .next (lasts_limits hg.inside) fun _ => ?_
    exact .next (rounds_afterKeyword _ (consumes_offsetCount hg.inside)) fun _ => .pure _

end Blocks

/-! ## Whole trees -/

include hg in
theorem last_level : (level d g).Last r (level d g') where
  expr power := consumes_expression hg power
  query := consumes_query hg
  fromItem := consumes_fromItem hg

/-- Trees in trees begin behind a token, so the tokens ahead are an ample allowance. -/
theorem last_productions (allowance : List Token)
    (h : r.ample → r.start.ahead.length ≤ allowance.length) :
    (productions d allowance).Last r (productions d allowance) := by
  induction allowance generalizing r with
  | nil =>
    have hnone : r.ample → r.start.ahead.length = 0 := fun ha => Nat.le_zero.1 (h ha)
    exact last_level ⟨fun _ => .noRoom hnone, .noRoom hnone, .noRoom hnone⟩
  | cons t allowance ih =>
    -- An inner tree begins at `c`, with what is left of the allowance.
    have hinner (c : Cursor) (hc : r.inside.Reaches c) : (productions d allowance).Last
        ⟨c, hc.ended, r.ample, false⟩ (productions d allowance) := by
      refine ih fun ha => ?_
      have hlt := hc.length_lt
      have hle := h ha
      rw [List.length_cons] at hle
      show c.ahead.length ≤ allowance.length
      omega
    rw [productions_cons]
    exact last_level ⟨fun power => .restart fun c hc => (hinner c hc).expr power,
      .restart fun c hc => (hinner c hc).query, .restart fun c hc => (hinner c hc).fromItem⟩

end Parse

/-! ## Descent -/

/-- The readers, stopped where the weight ahead is not below `w`. -/
def Productions.below (w : Nat) (g : Productions) : Productions where
  expr power := Parse.below w (g.expr power)
  query := Parse.below w g.query
  fromItem := Parse.below w g.fromItem

namespace Parse

variable {c : Cursor} (hc : c.ending.kind = .endOfInput) (d : Dialect) (t : Token) (l : List Token)
include hc

/-- A tree in a tree begins at a smaller weight than the outer one. -/
theorem last_below : (level d (productions d l)).Last ⟨c, hc, False, false⟩
    (level d ((productions d l).below c.weight)) := by
  have hinner := last_productions (r := Outset.inside ⟨c, hc, False, false⟩) (d := d) l False.elim
  exact last_level ⟨fun power => (hinner.expr power).below, hinner.query.below,
    hinner.fromItem.below⟩

theorem productions_expr_eq (power : Nat) : (productions d (t :: l)).expr power c =
    (level d ((productions d l).below c.weight)).expr power c :=
  (((last_below hc d l).expr power) c ⟨.refl c, nofun⟩ (Nat.zero_le _)).same

theorem productions_query_eq : (productions d (t :: l)).query c =
    (level d ((productions d l).below c.weight)).query c :=
  ((last_below hc d l).query c ⟨.refl c, nofun⟩ (Nat.zero_le _)).same

theorem productions_fromItem_eq : (productions d (t :: l)).fromItem c =
    (level d ((productions d l).below c.weight)).fromItem c :=
  ((last_below hc d l).fromItem c ⟨.refl c, nofun⟩ (Nat.zero_le _)).same

end Parse
end SqlTree
