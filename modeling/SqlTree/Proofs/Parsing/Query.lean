import Mathlib
import SqlTree.Proofs.Parsing.Operator
import SqlTree.Query.Grammar.Knot

/-! # The form of queries that are read

* `agrees_fromItem`, `agrees_select`, `agrees_setExpr`, `agrees_query`: the readers of what queries
  are made of.
* `agree_productions`: the readers of whole trees. More tokens allowed change no answer.
-/

namespace SqlTree
set_option autoImplicit false

open Parse

namespace Parse

variable {d : Dialect} {g g' : Productions} (hg : g.Agree d g')
include hg

/-! ## Items to read from -/

theorem agrees_valueRow : Agrees (valueRow g) (valueRow g')
    fun row => ∀ e ∈ row, (Part.expr e).AllFormed d := by
  refine (agrees_expectSymbol _).next fun _ => (agrees_symbolAt _ _).next fun b => ?_
  refine .join b (.pure (by simp)) ((agrees_exprList hg).mono fun _ h => h.2) fun es hes => ?_
  exact (agrees_expectSymbol _).next fun _ => .pure hes

theorem agrees_valueRows : Agrees (valueRows g) (valueRows g')
    fun rows => rows ≠ [] ∧ ∀ p ∈ Part.ofRows rows, p.AllFormed d := by
  refine (agrees_expectKeyword _).next fun _ => (agrees_valueRow hg).commaList.mono fun rows h => ?_
  refine ⟨h.1, ?_⟩
  simp only [Part.ofRows, Part.exprs, List.forall_mem_map, List.mem_flatten]
  rintro e ⟨row, hrow, he⟩
  exact h.2 row hrow e he

omit hg in
theorem agrees_oneOrMoreColumns : Agrees oneOrMoreColumns oneOrMoreColumns fun _ => True := by
  have hcolumn : Agrees columnName columnName fun _ => True :=
    agrees_dottedName.next fun _ => .pure trivial
  refine (agrees_takeSymbol _).next fun _ => .ite ?_ (hcolumn.next fun _ => .pure trivial)
  exact hcolumn.commaList.bind fun _ _ => (agrees_expectSymbol _).next fun _ => .pure trivial

theorem agrees_closingItems : Agrees (closingItems g) (closingItems g')
    fun is => ∀ i ∈ is, (Part.expr i.expr).AllFormed d := by
  refine (agrees_expectKeyword _).next fun _ => (agrees_expectSymbol _).next fun _ => ?_
  refine (agrees_selectItems hg).bind fun is his => (agrees_expectSymbol _).next fun _ => ?_
  exact (agrees_expectSymbol _).next fun _ => .pure his.2

theorem agrees_pivot : Agrees (pivot g) (pivot g')
    fun p => ∀ q ∈ SelectItem.parts (p.aggregates ++ p.items), q.AllFormed d := by
  refine (agrees_expectKeyword _).next fun _ => (agrees_expectSymbol _).next fun _ => ?_
  refine (agrees_selectItems hg).bind fun aggregates ha => (agrees_expectKeyword _).next fun _ => ?_
  refine agrees_oneOrMoreColumns.next fun _ => (agrees_closingItems hg).bind fun is his => ?_
  refine agrees_optionalAlias.next fun _ => .pure ?_
  simp only [SelectItem.parts, List.forall_mem_map, List.forall_mem_append]
  exact ⟨ha.2, his⟩

omit hg in
theorem agrees_includeNulls : Agrees includeNulls includeNulls fun _ => True :=
  (agrees_takeKeyword _).next fun _ =>
    .ite ((agrees_expectKeyword _).next fun _ => .pure trivial)
      ((agrees_takeKeyword _).next fun _ =>
        .ite ((agrees_expectKeyword _).next fun _ => .pure trivial) (.pure trivial))

theorem agrees_unpivot : Agrees (unpivot g) (unpivot g')
    fun u => ∀ q ∈ SelectItem.parts u.items, q.AllFormed d := by
  refine (agrees_expectKeyword _).next fun _ => agrees_includeNulls.next fun _ => ?_
  refine (agrees_expectSymbol _).next fun _ => agrees_oneOrMoreIdentifiers.bind fun _ _ => ?_
  refine (agrees_expectKeyword _).next fun _ => agrees_oneOrMoreIdentifiers.bind fun _ _ => ?_
  refine (agrees_closingItems hg).bind fun is his => agrees_optionalAlias.next fun _ => .pure ?_
  simpa only [SelectItem.parts, List.forall_mem_map] using his

omit hg in
theorem Agrees.ifKeyword {α : Type} {item item' : Parse α} {P : α → Prop} (h : Agrees item item' P)
    (k : Keyword) : Agrees (ifKeyword k item) (ifKeyword k item') fun o => ∀ a ∈ o, P a :=
  (agrees_keywordAt _ _).next fun _ =>
    .ite (h.bind fun a ha => .pure (by simpa using ha)) (.pure (by simp))

omit hg in
theorem agrees_joinKind : Agrees joinKind joinKind fun _ => True := by
  have houter : ∀ kind, Agrees (outerJoin kind) (outerJoin kind) fun _ => True := fun _ =>
    agrees_advance.next fun _ => (agrees_takeKeyword _).next fun _ =>
      (agrees_expectKeyword _).next fun _ => .pure trivial
  refine .token fun kind _ _ _ => ?_
  dsimp only
  split
  · exact agrees_advance.next fun _ => .pure trivial
  · exact agrees_advance.next fun _ => .pure trivial
  · exact agrees_advance.next fun _ => (agrees_expectKeyword _).next fun _ => .pure trivial
  · exact houter _
  · exact houter _
  · exact houter _
  · exact agrees_advance.next fun _ => (agrees_expectKeyword _).next fun _ => .pure trivial
  · exact .pure trivial

theorem agrees_joinConstraint : Agrees (joinConstraint g) (joinConstraint g')
    fun constraint => ∀ e, constraint = .on e → (Part.expr e).AllFormed d := by
  refine (agrees_takeKeyword _).next fun _ => .ite ?_ ?_
  · refine (agrees_anyExpr hg).bind fun e he => .pure ?_
    rintro _ ⟨⟩
    exact he
  · refine (agrees_takeKeyword _).next fun _ => .ite ?_ (.pure (by simp))
    exact agrees_identifiersInParens.bind fun _ _ => .pure (by simp)

theorem agrees_join : Agrees (join g) (join g')
    fun o => ∀ j ∈ o, ∀ p ∈ j.parts, p.AllFormed d := by
  refine agrees_joinKind.next fun o => ?_
  cases o with
  | none => exact .pure (by simp)
  | some kind =>
    refine hg.fromItem.bind fun i hi => (agrees_joinConstraint hg).bind fun constraint hc => .pure ?_
    rintro _ ⟨⟩
    cases constraint with
    | on e => simpa [Join.parts] using ⟨hi, hc e rfl⟩
    | _ => simpa [Join.parts] using hi

theorem agrees_joins : Agrees (joins g) (joins g')
    fun js => ∀ p ∈ js.flatMap Join.parts, p.AllFormed d :=
  (agrees_join hg).collect.mono fun js h => by simpa only [List.forall_mem_flatMap] using h

theorem agrees_fromClause : Agrees (fromClause g) (fromClause g') fun x =>
    (x.1 = none → x.2 = []) ∧ (∀ i ∈ x.1, (Part.item i).AllFormed d) ∧
      ∀ p ∈ x.2.flatMap Join.parts, p.AllFormed d := by
  refine (agrees_takeKeyword _).next fun _ => .ite ?_ (.pure (by simp))
  refine hg.fromItem.bind fun i hi => (agrees_joins hg).bind fun js hjs => .pure ?_
  exact ⟨by simp, by simpa using hi, hjs⟩

theorem agrees_parenthesizedRelation :
    Agrees (parenthesizedRelation g) (parenthesizedRelation g')
      fun r => ∀ p ∈ r.parts, p.AllFormed d := by
  have hend : ∀ r : Relation, (∀ p ∈ r.parts, p.AllFormed d) →
      Agrees (do expectSymbol .rightParen; return r) (do expectSymbol .rightParen; return r)
        fun r => ∀ p ∈ r.parts, p.AllFormed d := fun _ hr =>
    (agrees_expectSymbol _).next fun _ => .pure hr
  have hjoined : Agrees
      (do let item ← g.fromItem
          return Relation.joined item (← joins g))
      (do let item ← g'.fromItem
          return Relation.joined item (← joins g')) fun r => ∀ p ∈ r.parts, p.AllFormed d :=
    hg.fromItem.bind fun _ hi => (agrees_joins hg).bind fun _ hjs =>
      .pure (List.forall_mem_cons.2 ⟨hi, hjs⟩)
  refine agrees_advance.next fun _ => (agrees_queryAt _).next fun _ => ?_
  refine (agrees_keywordAt _ _).next fun _ => .ite ?_ (.ite ?_ (hjoined.bind hend))
  · exact (hg.query.map (by simp [Relation.parts])).bind hend
  · exact ((agrees_valueRows hg).map fun _ h => h.2).bind hend

theorem agrees_lateralRelation : Agrees (lateralRelation g) (lateralRelation g')
    fun r => ∀ p ∈ r.parts, p.AllFormed d := by
  refine agrees_advance.next fun _ => (agrees_takeSymbol _).next fun _ => .ite ?_ ?_
  · refine hg.query.bind fun q hq => (agrees_expectSymbol _).next fun _ => .pure ?_
    simpa [Relation.parts] using hq
  · refine agrees_objectName.next fun _ => (agrees_functionCall hg _).bind fun f hf => .pure ?_
    simpa [Relation.parts, Part.exprs] using hf

theorem agrees_namedRelation : Agrees (namedRelation g) (namedRelation g')
    fun r => ∀ p ∈ r.parts, p.AllFormed d := by
  refine agrees_objectName.next fun _ => (agrees_symbolAt _ _).next fun _ => .ite ?_ ?_
  · refine (agrees_functionCall hg _).bind fun f hf => .pure ?_
    simpa [Relation.parts, Part.exprs] using hf
  · exact .pure (by simp [Relation.parts])

theorem agrees_relation : Agrees (relation g) (relation g')
    fun r => ∀ p ∈ r.parts, p.AllFormed d := by
  refine .token fun kind _ _ _ => ?_
  dsimp only
  split
  · exact agrees_parenthesizedRelation hg
  · exact agrees_lateralRelation hg
  · exact agrees_namedRelation hg

theorem agrees_fromItem : Agrees (fromItem g) (fromItem g')
    fun i => (Part.item i).AllFormed d := by
  refine (agrees_relation hg).bind fun r hr => agrees_tableAlias.next fun _ => ?_
  refine ((agrees_pivot hg).ifKeyword _).bind fun pivot hp => ?_
  refine ((agrees_unpivot hg).ifKeyword _).bind fun unpivot hu => .pure ?_
  refine Part.obeys_iff.2 ⟨trivial, ?_⟩
  simp only [Part.children, FromItem.children, List.forall_mem_append]
  refine ⟨⟨hr, ?_⟩, ?_⟩
  · cases pivot with
    | none => simp
    | some p => exact hp p rfl
  · cases unpivot with
    | none => simp
    | some u => exact hu u rfl

/-! ## Blocks -/

omit hg in
theorem agrees_distinctWord : Agrees distinctWord distinctWord fun _ => True :=
  (agrees_takeKeyword _).next fun _ => .ite (.pure trivial)
    ((agrees_takeKeyword _).next fun _ => .pure trivial)

theorem agrees_groupClause : Agrees (groupClause g) (groupClause g')
    fun es => ∀ e ∈ es, (Part.expr e).AllFormed d := by
  refine (agrees_takeKeyword _).next fun _ => .ite ?_ (.pure (by simp))
  exact (agrees_expectKeyword _).next fun _ => (agrees_exprList hg).mono fun _ h => h.2

theorem agrees_select : Agrees (select g) (select g') fun s => (Part.block s).AllFormed d := by
  have hclause := fun k => (agrees_anyExpr hg).afterKeyword k
  refine (agrees_expectKeyword _).next fun _ => agrees_distinctWord.next fun _ => ?_
  refine (agrees_selectItems hg).bind fun items hi => (agrees_fromClause hg).bind ?_
  rintro ⟨source, joins⟩ ⟨hsj, hs, hj⟩
  refine (hclause _).bind fun condition hw => (agrees_groupClause hg).bind fun groupBy hgr => ?_
  refine (hclause _).bind fun having hh => (hclause _).bind fun qualify hq => .pure ?_
  refine Part.obeys_iff.2 ⟨⟨hi.1, hsj⟩, ?_⟩
  simp only [Part.children, Select.children, SelectItem.parts, Part.exprs, List.forall_mem_append,
    List.forall_mem_map, List.map_append, Option.mem_toList]
  exact ⟨⟨⟨hi.2, hs⟩, hj⟩, ⟨⟨hw, hgr⟩, hh⟩, hq⟩

/-! ## Bodies -/

theorem agrees_setOperand : Agrees (setOperand g) (setOperand g')
    fun b => (Part.body b).AllFormed d := by
  refine .token fun kind _ _ _ => ?_
  dsimp only
  split
  · refine (agrees_select hg).bind fun s hs => .pure (Part.obeys_iff.2 ⟨trivial, ?_⟩)
    simpa [Part.children, SetExpr.children] using hs
  · exact (agrees_valueRows hg).bind fun rows h => .pure (Part.obeys_iff.2 ⟨h.1, h.2⟩)
  · refine hg.query.inParens.bind fun q hq => .pure (Part.obeys_iff.2 ⟨trivial, ?_⟩)
    simpa [Part.children, SetExpr.children] using hq
  · exact .fail _ _

omit hg in
theorem agrees_setQuantifier : Agrees setQuantifier setQuantifier fun _ => True :=
  (agrees_takeKeyword _).next fun _ => .ite (.pure trivial)
    ((agrees_takeKeyword _).next fun _ => .ite (.pure trivial) (.pure trivial))

omit hg in
theorem agrees_setExtend (admits : SetOperator → Bool) {right right' : SetOperator → Parse SetExpr}
    (hright : ∀ op, Agrees (right op) (right' op) fun b => (Part.body b).AllFormed d)
    {left : SetExpr} (hl : (Part.body left).AllFormed d) :
    Agrees (setExtend admits right left) (setExtend admits right' left)
      fun o => ∀ b ∈ o, (Part.body b).AllFormed d := by
  refine .token fun kind _ _ _ => ?_
  dsimp only
  cases SetOperator.ofToken? kind with
  | none => exact .pure (by simp)
  | some op =>
    refine .ite ?_ (.pure (by simp))
    refine agrees_advance.next fun _ => agrees_setQuantifier.next fun quantifier => ?_
    refine (hright op).bind fun b hb => .pure ?_
    rintro _ ⟨⟩
    exact Part.obeys_iff.2 ⟨trivial, by simpa [Part.children, SetExpr.children] using ⟨hl, hb⟩⟩

theorem agrees_setTerm : Agrees (setTerm g) (setTerm g') fun b => (Part.body b).AllFormed d :=
  (agrees_setOperand hg).bind fun _ hb =>
    .repeatFrom hb fun _ hl => agrees_setExtend _ (fun _ => agrees_setOperand hg) hl

theorem agrees_setExpr : Agrees (setExpr g) (setExpr g') fun b => (Part.body b).AllFormed d := by
  have hright : ∀ op : SetOperator, Agrees (if op.bindsTighter then setOperand g else setTerm g)
      (if op.bindsTighter then setOperand g' else setTerm g')
      fun b => (Part.body b).AllFormed d := fun _ => .ite (agrees_setOperand hg) (agrees_setTerm hg)
  exact (agrees_setOperand hg).bind fun _ hb => .repeatFrom hb fun _ hl => agrees_setExtend _ hright hl

/-! ## Around the body -/

theorem agrees_cte : Agrees (cte g) (cte g') fun c => (Part.query c.query).AllFormed d :=
  agrees_identifier.next fun _ => agrees_optionalIdentifiers.next fun _ =>
    (agrees_expectKeyword _).next fun _ => hg.query.inParens.bind fun _ hq => .pure hq

theorem agrees_withClause : Agrees (withClause g) (withClause g')
    fun w => w.ctes ≠ [] ∧ ∀ c ∈ w.ctes, (Part.query c.query).AllFormed d :=
  (agrees_expectKeyword _).next fun _ => (agrees_takeKeyword _).next fun _ =>
    (agrees_cte hg).commaList.bind fun _ h => .pure h

omit hg in
theorem agrees_orderDirection : Agrees orderDirection orderDirection fun _ => True :=
  (agrees_takeKeyword _).next fun _ => .ite (.pure trivial)
    ((agrees_takeKeyword _).next fun _ => .ite (.pure trivial) (.pure trivial))

omit hg in
theorem agrees_nullOrdering : Agrees nullOrdering nullOrdering fun _ => True :=
  (agrees_takeKeyword _).next fun _ => .ite ((agrees_takeKeyword _).next fun _ =>
    .ite (.pure trivial) ((agrees_expectKeyword _).next fun _ => .pure trivial)) (.pure trivial)

theorem agrees_orderItem : Agrees (orderItem g) (orderItem g')
    fun o => (Part.expr o.expr).AllFormed d :=
  (agrees_anyExpr hg).bind fun _ he => agrees_orderDirection.next fun _ =>
    agrees_nullOrdering.next fun _ => .pure he

theorem agrees_orderClause : Agrees (orderClause g) (orderClause g')
    fun os => ∀ o ∈ os, (Part.expr o.expr).AllFormed d := by
  refine (agrees_takeKeyword _).next fun _ => .ite ?_ (.pure (by simp))
  exact (agrees_expectKeyword _).next fun _ => (agrees_orderItem hg).commaList.mono fun _ h => h.2

theorem agrees_limitCount : Agrees (limitCount g) (limitCount g')
    fun l => l.groups = none ∧ l.Formed d ∧ ∀ p ∈ l.parts, p.AllFormed d := by
  refine (agrees_takeKeyword _).next fun _ => .ite (.pure ?_) ?_
  · simp [Limit.Formed, Limit.parts, Part.exprs]
  refine (agrees_takeKeyword _).next fun _ => .ite (.pure ?_) ?_
  · simp [Limit.Formed, Limit.parts, Part.exprs]
  refine (agrees_anyExpr hg).bind fun first hf => (agrees_anyExpr hg).afterComma.bind fun o ho => ?_
  cases o with
  | none =>
    exact .pure ⟨rfl, ⟨.inr (.inr (by simp)), by simp⟩, by simpa [Limit.parts, Part.exprs] using hf⟩
  | some count =>
    have hc := ho count rfl
    refine .pure ⟨rfl, ⟨.inr (.inr (by simp)), by simp⟩, ?_⟩
    simpa [Limit.parts, Part.exprs] using ⟨hf, hc⟩

theorem agrees_limit : Agrees (limit g d) (limit g' d)
    fun l => l.Formed d ∧ ∀ p ∈ l.parts, p.AllFormed d := by
  refine (agrees_expectKeyword _).next fun _ => (agrees_limitCount hg).bind fun l ⟨hn, hl, hp⟩ => ?_
  obtain ⟨rowCount, offset, all, null, groups⟩ := l
  obtain rfl : groups = none := hn
  have hend : ∀ gs : Option (List Expr),
      (∀ es ∈ gs, d.limitBy = true ∧ es ≠ [] ∧ ∀ e ∈ es, (Part.expr e).AllFormed d) →
      (Limit.Formed d ⟨rowCount, offset, all, null, gs⟩ ∧
        ∀ p ∈ Limit.parts ⟨rowCount, offset, all, null, gs⟩, p.AllFormed d) := by
    intro gs hgs
    refine ⟨⟨hl.1, fun es hes => ⟨(hgs es hes).1, (hgs es hes).2.1⟩⟩, ?_⟩
    cases gs with
    | none => exact hp
    | some es =>
      simp only [Limit.parts, Part.exprs, List.map_append, List.forall_mem_append,
        List.forall_mem_map, Option.getD_none, Option.getD_some] at hp ⊢
      exact ⟨hp.1, (hgs es rfl).2.2⟩
  by_cases hd : d.limitBy = true
  · simp only [hd, if_true]
    refine ((agrees_exprList hg).afterKeyword _).bind fun gs hgs => .pure (hend gs ?_)
    exact fun es hes => ⟨hd, (hgs es hes).1, (hgs es hes).2⟩
  · simp only [hd]
    exact .pure (hend none (by simp))

theorem agrees_limits : Agrees (limits g d) (limits g' d) fun x =>
    (∀ l ∈ x.1, l.Formed d ∧ l.groups ≠ none) ∧
      (∀ l ∈ x.2, l.Formed d ∧ (x.1 = none → l.groups = none)) ∧
      ∀ l, l ∈ x.1 ∨ l ∈ x.2 → ∀ p ∈ l.parts, p.AllFormed d := by
  refine ((agrees_limit hg).ifKeyword _).bind fun o ho => ?_
  cases o with
  | none => exact .pure (by simp)
  | some first =>
    obtain ⟨hf, hp⟩ := ho first rfl
    cases hgr : first.groups with
    | none =>
      simp only [hgr, Option.isSome_none]
      exact .pure (by simpa [hgr] using ⟨hf, hp⟩)
    | some es =>
      simp only [hgr, Option.isSome_some, if_true]
      refine ((agrees_limit hg).ifKeyword _).bind fun o ho => .pure ⟨?_, ?_, ?_⟩
      · simpa [hgr] using hf
      · exact fun l hl => ⟨(ho l hl).1, by simp⟩
      · rintro l (hl | hl)
        · rw [← Option.some.inj hl]
          exact hp
        · exact (ho l hl).2

theorem agrees_offsetCount : Agrees (offsetCount g) (offsetCount g')
    fun o => (Part.expr o.count).AllFormed d := by
  have hrows : Agrees offsetRows offsetRows fun _ => True :=
    (agrees_takeKeyword _).next fun _ => .ite (.pure trivial)
      ((agrees_takeKeyword _).next fun _ => .ite (.pure trivial) (.pure trivial))
  exact (agrees_anyExpr hg).bind fun _ he => hrows.next fun _ => .pure he

theorem agrees_query : Agrees (query g d) (query g' d) fun q => (Part.query q).AllFormed d := by
  refine ((agrees_withClause hg).ifKeyword _).bind fun ctes hw => (agrees_setExpr hg).bind fun body hb => ?_
  refine (agrees_orderClause hg).bind fun orderBy ho => (agrees_limits hg).bind ?_
  rintro ⟨limitBy, limit⟩ ⟨hby, hl, hp⟩
  refine ((agrees_offsetCount hg).afterKeyword _).bind fun offset hoff => .pure ?_
  refine Part.obeys_iff.2 ⟨⟨fun w h => (hw w h).1, hby, hl⟩, ?_⟩
  simp only [Part.children, Query.children, List.forall_mem_append, List.forall_mem_map,
    List.forall_mem_singleton]
  refine ⟨⟨⟨⟨⟨?_, hb⟩, ho⟩, ?_⟩, ?_⟩, ?_⟩
  · cases ctes with
    | none => simp
    | some w => simpa using (hw w rfl).2
  · cases limitBy with
    | none => simp
    | some l => exact hp l (.inl rfl)
  · cases limit with
    | none => simp
    | some l => exact hp l (.inr rfl)
  · cases offset with
    | none => simp
    | some o => simpa using hoff o rfl

/-! ## Whole trees -/

theorem agree_level : (level d g).Agree d (level d g') :=
  ⟨fun _ hp _ _ hc => matches_expression hg hp hc, agrees_query hg, agrees_fromItem hg⟩

omit hg in
/-- The readers of whole trees answer the same with more tokens allowed. -/
theorem agree_productions (d : Dialect) : ∀ l l' : List Token, l.length ≤ l'.length →
    (productions d l).Agree d (productions d l') := by
  intro l
  induction l with
  | nil =>
    intro l' _
    cases l' with
    | nil => exact agree_level (Productions.agree_exhausted d _)
    | cons t' l' => exact agree_level (Productions.agree_exhausted d _)
  | cons t l ih =>
    intro l' hl
    cases l' with
    | nil => simp at hl
    | cons t' l' => exact agree_level (ih l' (by simpa using hl))

end Parse

end SqlTree
