import Mathlib
import SqlTree.Query.Grammar.Knot
import SqlTree.Proofs.Tracking.Expr

/-! # Where the readers of queries lead

* `tracks_fromItem`: what a query reads from.
* `tracks_query`: whole queries.
* `track_productions`: the readers that nest at most once for each token allowed.

The two numbers of a limit are read in either order, so the parts of a limit are held in one order
and stand in the answer in another.
-/

namespace SqlTree
set_option autoImplicit false

open Parse

namespace Parse

variable {g : Productions} {d : Dialect}

/-! ## Rows of values -/

section Rows

variable (hg : g.Track)

include hg

theorem tracks_valueRow : Tracks Part.exprs (valueRow g) :=
  .next (moves_expectSymbol _) fun _ => .next (moves_symbolAt 0 _) fun _ =>
    .join (.same rfl) (tracks_exprList hg) fun _ => .next (moves_expectSymbol _) fun _ => .same rfl

theorem tracks_valueRows : Tracks Part.ofRows (valueRows g) := by
  refine .next (moves_expectKeyword _) fun _ => (tracks_valueRow hg).commaList.congr fun rows => ?_
  rw [Part.ofRows, Part.exprs, List.map_flatten]
  rfl

end Rows

/-! ## Rows into columns, columns into rows -/

theorem moves_columnName : Moves columnName :=
  .next moves_dottedName fun _ => .same rfl

theorem moves_oneOrMoreColumns : Moves oneOrMoreColumns := by
  refine .next (moves_takeSymbol _) fun _ => .ite ?_ (.next moves_columnName fun _ => .same rfl)
  exact .next (Moves.list moves_columnName.commaList) fun _ =>
    .next (moves_expectSymbol _) fun _ => .same rfl

theorem moves_includeNulls : Moves includeNulls :=
  .next (moves_takeKeyword _) fun _ => .ite (.next (moves_expectKeyword _) fun _ => .same rfl)
    (.next (moves_takeKeyword _) fun _ => .ite (.next (moves_expectKeyword _) fun _ => .same rfl)
      (.same rfl))

theorem Tracks.ifKeyword {α : Type} {parts : α → List Part} {p : Parse α} (k : Keyword)
    (h : Tracks parts p) : Tracks (optionalParts parts) (ifKeyword k p) :=
  .next (moves_keywordAt 0 _) fun _ => .ite (.bind h fun _ => .same rfl) (.same rfl)

section Items

variable (hg : g.Track)

include hg

theorem tracks_closingItems : Tracks SelectItem.parts (closingItems g) :=
  .next (moves_expectKeyword _) fun _ => .next (moves_expectSymbol _) fun _ =>
    .bind (tracks_selectItems hg) fun _ => .next (moves_expectSymbol _) fun _ =>
      .next (moves_expectSymbol _) fun _ => .same rfl

theorem tracks_pivot :
    Tracks (fun p => SelectItem.parts (p.aggregates ++ p.items)) (pivot g) := by
  refine .next (moves_expectKeyword _) fun _ => .next (moves_expectSymbol _) fun _ =>
    .bind (tracks_selectItems hg) fun aggregates => .next (moves_expectKeyword _) fun _ =>
      .next moves_oneOrMoreColumns fun _ => .bind (tracks_closingItems hg) fun items =>
        .next moves_optionalAlias fun _ => .same ?_
  exact List.map_append

theorem tracks_unpivot : Tracks (fun u => SelectItem.parts u.items) (unpivot g) :=
  .next (moves_expectKeyword _) fun _ => .next moves_includeNulls fun _ =>
    .next (moves_expectSymbol _) fun _ => .next moves_oneOrMoreIdentifiers fun _ =>
      .next (moves_expectKeyword _) fun _ => .next moves_oneOrMoreIdentifiers fun _ =>
        .bind (tracks_closingItems hg) fun _ => .next moves_optionalAlias fun _ => .same rfl

/-! ## Joins -/

omit hg in
theorem moves_joinKind : Moves joinKind := by
  have hjoin : ∀ kind : JoinKind,
      Moves (advance >>= fun _ => expectKeyword .JOIN >>= fun _ => pure (some kind)) := fun _ =>
    .next moves_advance fun _ => .next (moves_expectKeyword _) fun _ => .same rfl
  have houter : ∀ kind, Moves (outerJoin kind) := fun _ =>
    .next moves_advance fun _ => .next (moves_takeKeyword _) fun _ =>
      .next (moves_expectKeyword _) fun _ => .same rfl
  refine .next moves_current fun token => ?_
  split
  · exact .next moves_advance fun _ => .same rfl
  · exact .next moves_advance fun _ => .same rfl
  · exact hjoin _
  · exact houter _
  · exact houter _
  · exact houter _
  · exact hjoin _
  · exact .same rfl


theorem tracks_joinConstraint :
    Tracks (fun | .on condition => [.expr condition] | _ => []) (joinConstraint g) :=
  .next (moves_takeKeyword _) fun _ => .ite (.bind (hg.expr 0) fun _ => .same rfl)
    (.next (moves_takeKeyword _) fun _ =>
      .ite (.next moves_identifiersInParens fun _ => .same rfl) (.same rfl))

theorem tracks_join : Tracks (optionalParts Join.parts) (join g) := by
  refine .next moves_joinKind fun kind? => ?_
  cases kind? with
  | none => exact .same rfl
  | some kind =>
    exact .bind hg.fromItem fun item => .bind (tracks_joinConstraint hg) fun _ => .same rfl

theorem tracks_joins : Tracks (fun joins => joins.flatMap Join.parts) (joins g) :=
  (tracks_join hg).collect

theorem tracks_fromClause :
    Tracks (fun (source, joins) => source.toList.map .item ++ joins.flatMap Join.parts)
      (fromClause g) :=
  .next (moves_takeKeyword _) fun _ =>
    .ite (.bind hg.fromItem fun _ => .bind (tracks_joins hg) fun _ => .same rfl) (.same rfl)

/-! ## Items -/

theorem tracks_parenthesizedRelation : Tracks Relation.parts (parenthesizedRelation g) := by
  have hclose : ∀ relation : Relation, TracksWith relation.parts Relation.parts
      (expectSymbol .rightParen >>= fun _ => pure relation) := fun _ =>
    .next (moves_expectSymbol _) fun _ => .same rfl
  have hjoined : Tracks Relation.parts
      (g.fromItem >>= fun item => joins g >>= fun joins => pure (.joined item joins)) :=
    .bind hg.fromItem fun _ => .bind (tracks_joins hg) fun _ => .same rfl
  refine .next moves_advance fun _ => .next (moves_queryAt 0) fun _ =>
    .next (moves_keywordAt 0 _) fun _ => .ite ?_ (.ite ?_ (.bind hjoined hclose))
  · exact .bind (.map hg.query fun _ => .same rfl) hclose
  · exact .bind (.map (tracks_valueRows hg) fun _ => .same rfl) hclose

theorem tracks_lateralRelation : Tracks Relation.parts (lateralRelation g) := by
  refine .next moves_advance fun _ => .next (moves_takeSymbol _) fun _ => .ite ?_ ?_
  · exact .bind hg.query fun _ => .next (moves_expectSymbol _) fun _ => .same rfl
  · exact .next moves_objectName fun _ => .bind (tracks_functionCall hg _) fun _ => .same rfl

theorem tracks_namedRelation : Tracks Relation.parts (namedRelation g) :=
  .next moves_objectName fun _ => .next (moves_symbolAt 0 _) fun _ =>
    .ite (.bind (tracks_functionCall hg _) fun _ => .same rfl) (.same rfl)

theorem tracks_relation : Tracks Relation.parts (relation g) := by
  refine .next moves_current fun token => ?_
  split
  · exact tracks_parenthesizedRelation hg
  · exact tracks_lateralRelation hg
  · exact tracks_namedRelation hg

theorem tracks_fromItem : Tracks (fun i => [.item i]) (fromItem g) :=
  .bind (tracks_relation hg) fun _ => .next moves_tableAlias fun _ =>
    .bind ((tracks_pivot hg).ifKeyword _) fun _ =>
      .bind ((tracks_unpivot hg).ifKeyword _) fun _ => .node rfl rfl rfl

end Items

/-! ## Blocks -/

theorem moves_distinctWord : Moves distinctWord :=
  .next (moves_takeKeyword _) fun _ => .ite (.same rfl)
    (.next (moves_takeKeyword _) fun _ => .same rfl)

section Blocks

variable (hg : g.Track)

include hg

theorem tracks_groupClause : Tracks Part.exprs (groupClause g) :=
  .next (moves_takeKeyword _) fun _ =>
    .ite (.next (moves_expectKeyword _) fun _ => tracks_exprList hg) (.same rfl)

theorem tracks_select : Tracks (fun s => [.block s]) (select g) := by
  have hclause : ∀ k, Tracks (fun o => Part.exprs o.toList) (afterKeyword k (g.expr 0)) := fun _ =>
    (Tracks.afterKeyword _ (hg.expr 0)).congr fun o => by cases o <;> rfl
  refine .next (moves_expectKeyword _) fun _ => .next moves_distinctWord fun _ =>
    .bind (tracks_selectItems hg) fun items => .bind (tracks_fromClause hg) fun (source, joins) =>
      .bind (hclause _) fun condition => .bind (tracks_groupClause hg) fun groupBy =>
        .bind (hclause _) fun having => .bind (hclause _) fun qualify => .node rfl rfl ?_
  simp [Part.children, Select.children, Part.exprs]

/-! ## Set operators -/

theorem tracks_setOperand : Tracks (fun b => [.body b]) (setOperand g) := by
  refine .next moves_current fun token => ?_
  split
  · exact .bind (tracks_select hg) fun _ => .node rfl rfl rfl
  · exact .bind (tracks_valueRows hg) fun _ => .node rfl rfl rfl
  · exact .bind hg.query.inParens fun _ => .node rfl rfl rfl
  · exact .fail _

omit hg in
theorem moves_setQuantifier : Moves setQuantifier :=
  .next (moves_takeKeyword _) fun _ => .ite (.same rfl)
    (.next (moves_takeKeyword _) fun _ => .ite (.same rfl) (.same rfl))

omit hg in
theorem tracks_setExtend (admits : SetOperator → Bool) {right : SetOperator → Parse SetExpr}
    (hright : ∀ op, Tracks (fun b => [.body b]) (right op)) (left : SetExpr) :
    TracksWith [.body left] (optionalParts fun b => [.body b]) (setExtend admits right left) := by
  refine .next moves_current fun token => ?_
  split
  · exact .pure List.nil_subperm
  · refine .ite ?_ (.pure List.nil_subperm)
    exact .next moves_advance fun _ => .next moves_setQuantifier fun _ =>
      .bind (hright _) fun _ => .node rfl rfl rfl

theorem tracks_setTerm : Tracks (fun b => [.body b]) (setTerm g) :=
  .bind (tracks_setOperand hg) fun b =>
    tracks_repeatFrom (tracks_setExtend _ fun _ => tracks_setOperand hg) b

theorem tracks_setExpr : Tracks (fun b => [.body b]) (setExpr g) :=
  .bind (tracks_setOperand hg) fun b => tracks_repeatFrom
    (tracks_setExtend _ fun _ => .ite (tracks_setOperand hg) (tracks_setTerm hg)) b

/-! ## Around the body -/

theorem tracks_withClause :
    Tracks (fun w => w.ctes.map fun c => .query c.query) (withClause g) := by
  have hcte : Tracks (fun c => [.query c.query]) (cte g) :=
    .next moves_identifier fun _ => .next moves_optionalIdentifiers fun _ =>
      .next (moves_expectKeyword _) fun _ => .bind hg.query.inParens fun _ => .same rfl
  refine .next (moves_expectKeyword _) fun _ => .next (moves_takeKeyword _) fun _ =>
    .bind (hcte.commaList.congr fun _ => List.map_eq_flatMap ..) fun _ => .same rfl

omit hg in
theorem moves_orderDirection : Moves orderDirection :=
  .next (moves_takeKeyword _) fun _ => .ite (.same rfl)
    (.next (moves_takeKeyword _) fun _ => .ite (.same rfl) (.same rfl))

omit hg in
theorem moves_nullOrdering : Moves nullOrdering :=
  .next (moves_takeKeyword _) fun _ => .ite
    (.next (moves_takeKeyword _) fun _ => .ite (.same rfl)
      (.next (moves_expectKeyword _) fun _ => .same rfl))
    (.same rfl)

theorem tracks_orderClause :
    Tracks (fun items => items.map fun o => .expr o.expr) (orderClause g) := by
  have hitem : Tracks (fun o => [.expr o.expr]) (orderItem g) :=
    .bind (hg.expr 0) fun _ => .next moves_orderDirection fun _ =>
      .next moves_nullOrdering fun _ => .same rfl
  exact .next (moves_takeKeyword _) fun _ => .ite
    (.next (moves_expectKeyword _) fun _ =>
      hitem.commaList.congr fun _ => List.map_eq_flatMap ..)
    (.same rfl)

/-! ## Limits -/

/-- A limit as it is counted has no groups yet. -/
theorem tracks_limitCount :
    Tracks (fun l => Part.exprs (l.offset.toList ++ l.rowCount.toList)) (limitCount g) := by
  refine .next (moves_takeKeyword _) fun _ => .ite (.same rfl)
    (.next (moves_takeKeyword _) fun _ => .ite (.same rfl) ?_)
  refine .bind (hg.expr 0) fun first => .bind (hg.expr 0).afterComma fun count? => ?_
  cases count? <;> exact .same rfl

theorem tracks_limit : Tracks Limit.parts (limit g d) := by
  refine .next (moves_expectKeyword _) fun _ => .bind (tracks_limitCount hg) fun l => ?_
  refine .join (.afterKeyword _ (tracks_exprList hg)) (.same rfl) fun groups => .same ?_
  cases groups <;> simp [Limit.parts, optionalParts, Part.exprs]

theorem tracks_limits :
    Tracks (fun (limitBy, limit) => limitBy.elim [] Limit.parts ++ limit.elim [] Limit.parts)
      (limits g d) := by
  refine .bind ((tracks_limit (d := d) hg).ifKeyword _) fun first? => ?_
  cases first? with
  | none => exact .same rfl
  | some first =>
    exact .ite (.bind ((tracks_limit (d := d) hg).ifKeyword _) fun _ => .same rfl)
      (.same (by simp [optionalParts]))

omit hg in
theorem moves_offsetRows : Moves offsetRows :=
  .next (moves_takeKeyword _) fun _ => .ite (.same rfl)
    (.next (moves_takeKeyword _) fun _ => .ite (.same rfl) (.same rfl))

theorem tracks_offsetCount : Tracks (fun o => [.expr o.count]) (offsetCount g) :=
  .bind (hg.expr 0) fun _ => .next moves_offsetRows fun _ => .same rfl

theorem tracks_query : Tracks (fun q => [.query q]) (query g d) := by
  refine .bind ((tracks_withClause hg).ifKeyword _) fun ctes => .bind (tracks_setExpr hg) fun body =>
    .bind (tracks_orderClause hg) fun orderBy => .bind (tracks_limits hg) fun (limitBy, limit) =>
      .bind (.afterKeyword _ (tracks_offsetCount hg)) fun offset => .node rfl rfl ?_
  simp [Part.children, Query.children, optionalParts]

end Blocks

/-! ## Whole trees -/

theorem track_level (hg : g.Track) : (level d g).Track where
  expr := tracks_expression hg
  query := tracks_query hg
  fromItem := tracks_fromItem hg

theorem track_productions (allowance : List Token) : (productions d allowance).Track := by
  induction allowance with
  | nil => exact track_level Productions.track_exhausted
  | cons t allowance ih =>
    rw [productions_cons]
    exact track_level ih

end Parse
end SqlTree
