import Mathlib
import SqlTree.Proofs.Naming.Expr
import SqlTree.Proofs.Tracking.Query

/-! # The names in queries that are read

* `gives_joins`, `gives_fromItem`, `gives_select`, `gives_setExpr`, `gives_query`: all names in what
  queries are made of are legal.
* `name_productions`: so are all names in whole trees.
-/

namespace SqlTree
set_option autoImplicit false

open Parse

namespace Parse

variable {dq : Bool} {g : Productions} {d : Dialect}

/-! ## Rows into columns, columns into rows -/

theorem gives_oneOrMoreColumns :
    Gives dq oneOrMoreColumns fun cs => ∀ i ∈ cs.flatMap ColumnRef.names, i.Legal dq := by
  have hcolumn : Gives dq columnName fun c => ∀ i ∈ c.names, i.Legal dq :=
    gives_dottedName.bind fun _ h => .pure (names_columnOf h)
  refine .next (moves_takeSymbol _) fun _ => .ite ?_
    (hcolumn.bind fun _ h => .pure (by simpa using h))
  refine hcolumn.commaList.bind fun cs h => .next (moves_expectSymbol _) fun _ => .pure ?_
  simpa only [List.forall_mem_flatMap] using h

section Items

variable (hg : g.Name dq)

include hg

theorem gives_valueRows : Gives dq (valueRows g) fun rows =>
    ∀ p ∈ Part.ofRows rows, p.AllNamed dq := by
  have hrow : Gives dq (valueRow g) fun row => ∀ e ∈ row, (Part.expr e).AllNamed dq :=
    .next (moves_expectSymbol _) fun _ => .next (moves_symbolAt 0 _) fun _ =>
      .join (.pure (by simp)) (gives_exprList hg) fun _ h =>
        .next (moves_expectSymbol _) fun _ => .pure h
  refine .next (moves_expectKeyword _) fun _ => hrow.commaList.mono fun rows h => ?_
  simp only [Part.ofRows, Part.exprs, List.forall_mem_map, List.mem_flatten]
  rintro e ⟨row, hm, he⟩
  exact h row hm e he

theorem gives_closingItems :
    Gives dq (closingItems g) fun is => LegalNames dq (SelectItem.parts is) (SelectItem.names is) :=
  .next (moves_expectKeyword _) fun _ => .next (moves_expectSymbol _) fun _ =>
    (gives_selectItems hg).bind fun _ h => .next (moves_expectSymbol _) fun _ =>
      .next (moves_expectSymbol _) fun _ => .pure h

theorem gives_pivot : Gives dq (pivot g) fun p =>
    LegalNames dq (SelectItem.parts (p.aggregates ++ p.items)) p.names := by
  refine .next (moves_expectKeyword _) fun _ => .next (moves_expectSymbol _) fun _ =>
    (gives_selectItems hg).bind fun aggregates ha => .next (moves_expectKeyword _) fun _ =>
      gives_oneOrMoreColumns.bind fun columns hc => (gives_closingItems hg).bind fun items hi =>
        gives_optionalAlias.bind fun alias? hl => .pure ⟨?_, ?_⟩
  · simp only [SelectItem.parts, List.map_append, List.forall_mem_append]
    exact ⟨ha.parts, hi.parts⟩
  · simp only [Pivot.names, SelectItem.names, List.flatMap_append, List.forall_mem_append]
    exact ⟨⟨⟨ha.names, hi.names⟩, hc⟩, hl⟩

theorem gives_unpivot :
    Gives dq (unpivot g) fun u => LegalNames dq (SelectItem.parts u.items) u.names := by
  refine .next (moves_expectKeyword _) fun _ => .next moves_includeNulls fun _ =>
    .next (moves_expectSymbol _) fun _ => gives_oneOrMoreIdentifiers.bind fun values hv =>
      .next (moves_expectKeyword _) fun _ => gives_oneOrMoreIdentifiers.bind fun names hn =>
        (gives_closingItems hg).bind fun items hi => gives_optionalAlias.bind fun alias? hl =>
          .pure ⟨hi.parts, ?_⟩
  simp only [Unpivot.names, List.forall_mem_append]
  exact ⟨⟨⟨hv, hn⟩, hi.names⟩, hl⟩

/-! ## Joins -/

theorem gives_joins : Gives dq (joins g) fun js =>
    LegalNames dq (js.flatMap Join.parts) (Join.names js) := by
  have hconstraint : Gives dq (joinConstraint g) fun constraint =>
      (∀ e, constraint = .on e → (Part.expr e).AllNamed dq) ∧
        ∀ i ∈ constraint.names, i.Legal dq := by
    refine .next (moves_takeKeyword _) fun _ => .ite ?_
      (.next (moves_takeKeyword _) fun _ => .ite ?_ ?_)
    · exact (hg.expr 0).bind fun e he => .pure
        ⟨fun _ h => JoinConstraint.on.inj h ▸ he, by simp [JoinConstraint.names]⟩
    · exact gives_identifiersInParens.bind fun _ h => .pure ⟨by simp, h⟩
    · exact .pure ⟨by simp, by simp [JoinConstraint.names]⟩
  have hjoin : Gives dq (join g) fun o => ∀ j ∈ o, LegalNames dq j.parts j.constraint.names := by
    refine .next moves_joinKind fun kind? => ?_
    cases kind? with
    | none => exact .none
    | some kind =>
      refine hg.fromItem.bind fun i hi => hconstraint.bind fun constraint hc => .pure ?_
      rintro _ ⟨⟩
      refine ⟨List.forall_mem_cons.2 ⟨hi, ?_⟩, hc.2⟩
      cases constraint with
      | on e => simpa using hc.1 e rfl
      | _ => simp
  exact hjoin.collect.mono fun _ h => .flatMap h

theorem gives_fromClause : Gives dq (fromClause g) fun x =>
    (∀ i ∈ x.1, (Part.item i).AllNamed dq) ∧
      LegalNames dq (x.2.flatMap Join.parts) (Join.names x.2) :=
  .next (moves_takeKeyword _) fun _ => .ite
    (hg.fromItem.bind fun _ hi => (gives_joins hg).bind fun _ hj => .pure ⟨by simpa using hi, hj⟩)
    (.pure ⟨by simp, .nil⟩)

/-! ## Items -/

/-- A function that gives rows. -/
theorem gives_functionRelation (lead : Option String) {name : ObjectName}
    (h : ∀ i ∈ name.parts, i.Legal dq) :
    Gives dq (functionCall g name >>= fun c => pure (Relation.function lead c))
      fun r => LegalNames dq r.parts r.names :=
  (gives_functionCall hg name).bind fun c hc => .pure
    ⟨by simpa [Relation.parts, Part.exprs] using hc.2, by simpa [Relation.names, hc.1] using h⟩

theorem gives_parenthesizedRelation :
    Gives dq (parenthesizedRelation g) fun r => LegalNames dq r.parts r.names := by
  have hend : ∀ r : Relation, LegalNames dq r.parts r.names →
      Gives dq (expectSymbol .rightParen >>= fun _ => pure r)
        fun r => LegalNames dq r.parts r.names := fun _ h =>
    .next (moves_expectSymbol _) fun _ => .pure h
  have hjoined : Gives dq
      (do let item ← g.fromItem
          return Relation.joined item (← joins g)) fun r => LegalNames dq r.parts r.names :=
    hg.fromItem.bind fun _ hi => (gives_joins hg).bind fun _ hj =>
      .pure ⟨List.forall_mem_cons.2 ⟨hi, hj.parts⟩, hj.names⟩
  refine .next moves_advance fun _ => .next (moves_queryAt 0) fun _ =>
    .next (moves_keywordAt 0 _) fun _ => .ite ?_ (.ite ?_ (hjoined.bind hend))
  · refine (hg.query.map fun q hq => ?_).bind hend
    exact ⟨by simpa [Relation.parts] using hq, by simp [Relation.names]⟩
  · exact ((gives_valueRows hg).map fun rows h => ⟨h, by simp [Relation.names]⟩).bind hend

theorem gives_relation : Gives dq (relation g) fun r => LegalNames dq r.parts r.names := by
  refine .next moves_current fun token => ?_
  split
  · exact gives_parenthesizedRelation hg
  · refine .next moves_advance fun _ => .next (moves_takeSymbol _) fun _ => .ite ?_ ?_
    · exact hg.query.bind fun _ hq => .next (moves_expectSymbol _) fun _ =>
        .pure ⟨by simpa [Relation.parts] using hq, by simp [Relation.names]⟩
    · exact gives_objectName.bind fun name h => gives_functionRelation hg _ h
  · exact gives_objectName.bind fun name h => .next (moves_symbolAt 0 _) fun _ =>
      .ite (gives_functionRelation hg none h) (.pure ⟨by simp [Relation.parts], h⟩)

theorem gives_fromItem : Gives dq (fromItem g) fun i => (Part.item i).AllNamed dq := by
  refine (gives_relation hg).bind fun r hr => gives_tableAlias.bind fun alias? ha =>
    ((gives_pivot hg).ifKeyword _).bind fun pivot? hp =>
      ((gives_unpivot hg).ifKeyword _).bind fun unpivot? hu => .pure (.node ?_ ?_ rfl)
  · simp only [Part.names, FromItem.names, List.forall_mem_append]
    exact ⟨⟨⟨hr.names, ha⟩, (LegalNames.optional hp).names⟩, (LegalNames.optional hu).names⟩
  · simp only [Part.children, FromItem.children, List.forall_mem_append]
    exact ⟨⟨hr.parts, (LegalNames.optional hp).parts⟩, (LegalNames.optional hu).parts⟩

/-! ## Blocks -/

theorem gives_select : Gives dq (select g) fun s => (Part.block s).AllNamed dq := by
  have hclause := fun k => (hg.expr 0).afterKeyword k
  have hgroup : Gives dq (groupClause g) fun es => ∀ e ∈ es, (Part.expr e).AllNamed dq :=
    .next (moves_takeKeyword _) fun _ => .ite
      (.next (moves_expectKeyword _) fun _ => gives_exprList hg) (.pure (by simp))
  refine .next (moves_expectKeyword _) fun _ => .next moves_distinctWord fun _ =>
    (gives_selectItems hg).bind fun items hi => (gives_fromClause hg).bind fun (source, joins) hf =>
      (hclause _).bind fun condition hw => hgroup.bind fun groupBy hgr =>
        (hclause _).bind fun having hh => (hclause _).bind fun qualify hq => .pure (.node ?_ ?_ rfl)
  · exact List.forall_mem_append.2 ⟨hi.names, hf.2.names⟩
  · simp only [Part.children, Select.children, Part.exprs, List.forall_mem_append,
      List.forall_mem_map, List.map_append, Option.mem_toList]
    exact ⟨⟨⟨hi.parts, hf.1⟩, hf.2.parts⟩, ⟨⟨hw, hgr⟩, hh⟩, hq⟩

/-! ## Bodies -/

theorem gives_setOperand : Gives dq (setOperand g) fun b => (Part.body b).AllNamed dq := by
  refine .next moves_current fun token => ?_
  split
  · exact (gives_select hg).bind fun _ hs =>
      .pure (.of_children (by simpa [Part.children, SetExpr.children] using hs) rfl rfl)
  · exact (gives_valueRows hg).bind fun _ h => .pure (.of_children h rfl rfl)
  · exact hg.query.inParens.bind fun _ hq =>
      .pure (.of_children (by simpa [Part.children, SetExpr.children] using hq) rfl rfl)
  · exact .fail _

omit hg in
theorem gives_setExtend (admits : SetOperator → Bool) {right : SetOperator → Parse SetExpr}
    (hright : ∀ op, Gives dq (right op) fun b => (Part.body b).AllNamed dq) {left : SetExpr}
    (hl : (Part.body left).AllNamed dq) :
    Gives dq (setExtend admits right left) fun o => ∀ b ∈ o, (Part.body b).AllNamed dq := by
  refine .next moves_current fun token => ?_
  split
  · exact .none
  · refine .ite (.next moves_advance fun _ => .next moves_setQuantifier fun _ =>
      (hright _).bind fun b hb => .pure ?_) .none
    rintro _ ⟨⟩
    exact .of_children (by simpa [Part.children, SetExpr.children] using ⟨hl, hb⟩) rfl rfl

theorem gives_setExpr : Gives dq (setExpr g) fun b => (Part.body b).AllNamed dq := by
  have hterm : Gives dq (setTerm g) fun b => (Part.body b).AllNamed dq :=
    (gives_setOperand hg).bind fun _ hb =>
      .repeatFrom hb fun _ => gives_setExtend _ fun _ => gives_setOperand hg
  exact (gives_setOperand hg).bind fun _ hb =>
    .repeatFrom hb fun _ => gives_setExtend _ fun _ => .ite (gives_setOperand hg) hterm

/-! ## Around the body -/

theorem gives_withClause : Gives dq (withClause g) fun w =>
    LegalNames dq (w.ctes.map fun c => .query c.query) (w.ctes.flatMap Cte.names) := by
  have hcte : Gives dq (cte g) fun c => LegalNames dq [.query c.query] c.names :=
    gives_identifier.bind fun _ hi => gives_optionalIdentifiers.bind fun _ hc =>
      .next (moves_expectKeyword _) fun _ => hg.query.inParens.bind fun _ hq =>
        .pure ⟨by simpa using hq, List.forall_mem_cons.2 ⟨hi, hc⟩⟩
  exact .next (moves_expectKeyword _) fun _ => .next (moves_takeKeyword _) fun _ =>
    hcte.commaList.bind fun _ h => .pure (.map h)

theorem gives_orderClause : Gives dq (orderClause g) fun os =>
    ∀ o ∈ os, (Part.expr o.expr).AllNamed dq := by
  have hitem : Gives dq (orderItem g) fun o => (Part.expr o.expr).AllNamed dq :=
    (hg.expr 0).bind fun _ he => .next moves_orderDirection fun _ =>
      .next moves_nullOrdering fun _ => .pure he
  exact .next (moves_takeKeyword _) fun _ => .ite
    (.next (moves_expectKeyword _) fun _ => hitem.commaList) (.pure (by simp))

/-! ## Limits -/

/-- A limit as it is counted has no groups yet. -/
theorem gives_limitCount : Gives dq (limitCount g) fun l =>
    (∀ e ∈ l.offset, (Part.expr e).AllNamed dq) ∧ ∀ e ∈ l.rowCount, (Part.expr e).AllNamed dq := by
  refine .next (moves_takeKeyword _) fun _ => .ite (.pure (by simp))
    (.next (moves_takeKeyword _) fun _ => .ite (.pure (by simp)) ?_)
  refine (hg.expr 0).bind fun first hfirst => (hg.expr 0).afterComma.bind fun count? hc => ?_
  cases count? with
  | none => exact .pure ⟨by simp, by simpa using hfirst⟩
  | some count => exact .pure ⟨by simpa using hfirst, hc⟩

theorem gives_limit : Gives dq (limit g d) fun l => ∀ p ∈ l.parts, p.AllNamed dq := by
  refine .next (moves_expectKeyword _) fun _ => (gives_limitCount hg).bind fun l hl =>
    .join ((gives_exprList hg).afterKeyword _) .none fun groups hgr => .pure ?_
  simp only [Limit.parts, Part.exprs, List.forall_mem_map, List.forall_mem_append,
    Option.mem_toList]
  refine ⟨hl, ?_⟩
  cases groups with
  | none => simp
  | some es => exact hgr es rfl

theorem gives_limits : Gives dq (limits g d) fun x =>
    (∀ l ∈ x.1, ∀ p ∈ l.parts, p.AllNamed dq) ∧ ∀ l ∈ x.2, ∀ p ∈ l.parts, p.AllNamed dq := by
  refine ((gives_limit (d := d) hg).ifKeyword _).bind fun first? hf => ?_
  cases first? with
  | none => exact .pure (by simp)
  | some first =>
    exact .ite (((gives_limit (d := d) hg).ifKeyword _).bind fun _ hs => .pure ⟨hf, hs⟩)
      (.pure ⟨by simp, hf⟩)

theorem gives_query : Gives dq (query g d) fun q => (Part.query q).AllNamed dq := by
  have hoffset : Gives dq (offsetCount g) fun o => ∀ p ∈ [Part.expr o.count], p.AllNamed dq :=
    (hg.expr 0).bind fun _ he => .next moves_offsetRows fun _ => .pure (by simpa using he)
  refine ((gives_withClause hg).ifKeyword _).bind fun ctes? hw =>
    (gives_setExpr hg).bind fun body hb => (gives_orderClause hg).bind fun orderBy ho =>
      (gives_limits hg).bind fun (limitBy, limit) hl =>
        (hoffset.afterKeyword _).bind fun offset? hoff => .pure (.node ?_ ?_ rfl)
  · exact (LegalNames.optional hw).names
  · simp only [Part.children, Query.children, List.forall_mem_append, List.forall_mem_map,
      List.forall_mem_singleton]
    exact ⟨⟨⟨⟨⟨(LegalNames.optional hw).parts, hb⟩, ho⟩, forall_mem_elim hl.1⟩,
      forall_mem_elim hl.2⟩, forall_mem_elim hoff⟩

end Items

/-! ## Whole trees -/

theorem name_level (hg : g.Name dq) : (level d g).Name dq where
  expr := gives_expression hg
  query := gives_query hg
  fromItem := gives_fromItem hg

/-- All names in whole trees that are read are legal. -/
theorem name_productions (allowance : List Token) : (productions d allowance).Name dq := by
  induction allowance with
  | nil => exact name_level Productions.name_exhausted
  | cons t allowance ih =>
    rw [productions_cons]
    exact name_level ih

end Parse

end SqlTree
