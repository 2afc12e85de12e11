import Mathlib
import SqlTree.Proofs.Build.Collected
import SqlTree.Proofs.Carrying.Segments
import SqlTree.Proofs.Text.Conjunction
import SqlTree.Proofs.Text.Statement

/-! # Built `UPDATE` statements and their texts

* `FromItem.ComesBack`, `Join.ComesBack`: an item and a join that are read back from their text in a
  query.
* `UpdateDraft.parseStatement_readAs`: what a built `UPDATE` statement is read as. All calls are in it,
  the conditions with their parentheses, but joins only if there is an item they are joined to.
* `UpdateDraft.join_lost`: a join that is lost in the text.
-/

namespace SqlTree
set_option autoImplicit false

open Layout Parse

variable {o : Options}

/-! ## Items and joins -/

/-- All columns of an item and of what is joined to it. -/
def FromItem.asBlock (item : FromItem) (joins : List Join) : Select :=
  ⟨false, [.bare .star], some item, joins, none, [], none, none⟩

/-- The query for them. -/
def FromItem.asQuery (item : FromItem) (joins : List Join) : Query :=
  .ofBody (.select (item.asBlock joins))

/-- An item is read back from its text in a query. -/
def FromItem.ComesBack (o : Options) (item : FromItem) : Prop :=
  (item.asQuery []).ReadsBack o

/-- A join is read back from its text behind a table. -/
def Join.ComesBack (o : Options) (j : Join) : Prop :=
  ((FromItem.table ⟨[.plain "t"]⟩).asQuery [j]).ReadsBack o

theorem Query.ReadsBack.clear {q : Query} (hd : o.dialect.structStyle = .bigQuery)
    (h : q.ReadsBack o) (hn : (Part.query q).Unnumbered) : q.Clear o.dialect := by
  obtain ⟨-, text, ht, hread⟩ := h
  exact Query.clear_of_parseStatement hd ht hread hn.every_layout.numbered

theorem FromItem.within_asQuery (item : FromItem) (joins : List Join) :
    Part.Within (.block (item.asBlock joins)) (.query (item.asQuery joins)) :=
  .child (c := .body (item.asQuery joins).body)
    (by simp [asQuery, Query.ofBody, Part.children, Query.children])
    (.child (List.mem_singleton.2 rfl) .refl)

theorem FromItem.unnumbered_asQuery {item : FromItem} {joins : List Join}
    (hi : (Part.item item).Unnumbered) (hj : ∀ j ∈ joins, ∀ p ∈ j.parts, p.Unnumbered) :
    (Part.query (item.asQuery joins)).Unnumbered := by
  have hstar : (Part.expr .star).Unnumbered :=
    Part.obeys_iff.2 ⟨rfl, by simp [Expr.star, Part.children, Expr.children, SelectItem.parts]⟩
  have hblock : (Part.block (item.asBlock joins)).Unnumbered := by
    refine Part.obeys_iff.2 ⟨rfl, ?_⟩
    simp only [asBlock, Part.children, Select.children, SelectItem.parts, SelectItem.bare, Part.exprs,
      List.map_cons, List.map_nil, Option.toList_some, Option.toList_none, List.append_nil,
      List.cons_append, List.nil_append, List.forall_mem_cons, List.forall_mem_flatMap]
    exact ⟨hstar, hi, hj⟩
  refine Part.obeys_iff.2 ⟨rfl, ?_⟩
  simp only [asQuery, Query.ofBody, Part.children, Query.children, Option.elim_none, List.map_nil,
    List.append_nil, List.nil_append, List.forall_mem_singleton]
  exact Part.obeys_iff.2 ⟨rfl, by simpa [Part.children, SetExpr.children] using hblock⟩

theorem FromItem.ComesBack.clear {item : FromItem} (hd : o.dialect.structStyle = .bigQuery)
    (h : item.ComesBack o) (hn : (Part.item item).Unnumbered) : item.Clear o.dialect := by
  have hq := Query.ReadsBack.clear hd h (FromItem.unnumbered_asQuery hn (by simp))
  exact (hq.within (FromItem.within_asQuery item [])).child
    (by simp [asBlock, Part.children, Select.children])

theorem Join.ComesBack.clear {j : Join} (hd : o.dialect.structStyle = .bigQuery)
    (h : j.ComesBack o) (hn : ∀ p ∈ j.parts, p.Unnumbered) :
    j.Legal o.dialect.dq ∧ ∀ p ∈ j.parts, p.Obeys (Part.Clear o.dialect) := by
  have htable : (Part.item (.table ⟨[.plain "t"]⟩)).Unnumbered :=
    Part.obeys_iff.2 ⟨rfl, by simp [FromItem.table, FromItem.ofRelation, Part.children,
      FromItem.children, Relation.parts]⟩
  have hq := Query.ReadsBack.clear hd h (FromItem.unnumbered_asQuery htable (by simpa using hn))
  have hblock := hq.within (FromItem.within_asQuery _ _)
  refine ⟨hblock.head.1.2.2 j (List.mem_singleton.2 rfl), fun p hp => hblock.child ?_⟩
  simp [FromItem.asBlock, Part.children, Select.children, hp]

/-! ## `UPDATE` statements -/

namespace UpdateDraft

/-- The names of a call are bare words that are no keywords. Its expressions, items and joins come
back from their texts and hold no question marks. -/
def Call.ComesBack (o : Options) : Call → Prop
  | .table name => (ObjectName.ofText name).Plain o.dialect.dq
  | .named name => (Ident.plain name).Plain o.dialect.dq
  | .set column value =>
    (Ident.plain column).Plain o.dialect.dq ∧ (Part.expr value).Unnumbered ∧ value.ComesBack o
  | .source item => (Part.item item).Unnumbered ∧ item.ComesBack o
  | .join j => (∀ p ∈ j.parts, p.Unnumbered) ∧ j.ComesBack o
  | .condition e => (Part.expr e).Unnumbered ∧ e.ComesBack o

/-- What a call adds is legal and clear and holds no question marks. -/
structure Call.Legal (d : Dialect) (c : Call) : Prop where
  table : ∀ n ∈ c.table?, n.Plain d.dq
  other : ∀ a ∈ c.alias?, a.Plain d.dq
  assignments : ∀ a ∈ c.assignments,
    a.column.Plain d.dq ∧ (Part.expr a.value).Unnumbered ∧ a.value.Clear d
  source : ∀ i ∈ c.source?, (Part.item i).Unnumbered ∧ i.Clear d
  joins : ∀ j ∈ c.joins,
    j.Legal d.dq ∧ ∀ p ∈ j.parts, p.Unnumbered ∧ p.Obeys (Part.Clear d)
  condition : ∀ e ∈ c.condition?, (Part.expr e).Unnumbered ∧ e.Clear d

theorem Call.ComesBack.legal {c : Call} (hd : o.dialect.structStyle = .bigQuery)
    (h : c.ComesBack o) : c.Legal o.dialect := by
  cases c with
  | table name =>
    have htable : (ObjectName.ofText name).Plain o.dialect.dq := h
    constructor
    case table => simpa [Call.table?] using htable
    all_goals rintro _ ⟨⟩
  | named name =>
    have halias : (Alias.implicit (.plain name)).Plain o.dialect.dq := ⟨h, rfl⟩
    constructor
    case other => simpa [Call.alias?] using halias
    all_goals rintro _ ⟨⟩
  | set column value =>
    obtain ⟨hcolumn, hfree, hback⟩ := h
    constructor
    case assignments => simpa [Call.assignments] using ⟨hcolumn, hfree, hback.clear hd hfree⟩
    all_goals rintro _ ⟨⟩
  | source item =>
    obtain ⟨hfree, hback⟩ := h
    constructor
    case source => simpa [Call.source?] using ⟨hfree, hback.clear hd hfree⟩
    all_goals rintro _ ⟨⟩
  | join j =>
    obtain ⟨hfree, hback⟩ := h
    obtain ⟨hlegal, hclear⟩ := hback.clear hd hfree
    constructor
    case joins => simpa [Call.joins] using ⟨hlegal, fun p hp => ⟨hfree p hp, hclear p hp⟩⟩
    all_goals rintro _ ⟨⟩
  | condition e =>
    obtain ⟨hfree, hback⟩ := h
    constructor
    case condition => simpa [Call.condition?] using ⟨hfree, hback.clear hd hfree⟩
    all_goals rintro _ ⟨⟩

/-- What a built statement is read as. -/
def readAs (table : ObjectName) (calls : List Call) : Update :=
  let source := (calls.filterMap Call.source?).getLast?
  { table
    alias? := (calls.filterMap Call.alias?).getLast?
    assignments := calls.flatMap Call.assignments
    source
    joins := if source.isSome then calls.flatMap Call.joins else []
    condition := Expr.conjunction (calls.filterMap Call.condition?) }

variable {d : Dialect} {calls : List Call} {table : ObjectName} {draft : UpdateDraft} {s : Statement}

theorem mem_joins_readAs {j : Join} (h : j ∈ (readAs table calls).joins) :
    j ∈ calls.flatMap Call.joins := by
  unfold readAs at h
  dsimp only at h
  split at h
  · exact h
  · cases h

section Calls

variable (hc : ∀ c ∈ calls, c.Legal d)
include hc

theorem legal_readAs (ht : table ∈ (calls.filterMap Call.table?).getLast?)
    (hne : calls.flatMap Call.assignments ≠ []) : (readAs table calls).Legal d.dq := by
  refine ⟨?_, fun a ha => ?_, ⟨hne, fun a ha => ?_⟩, fun hs => ?_, fun j hj => ?_⟩
  · obtain ⟨c, hm, he⟩ := List.mem_filterMap.1 (List.mem_of_getLast? ht)
    exact (hc c hm).table _ he
  · obtain ⟨c, hm, he⟩ := List.mem_filterMap.1 (List.mem_of_getLast? ha)
    exact (hc c hm).other a he
  · obtain ⟨c, hm, he⟩ := List.mem_flatMap.1 ha
    exact ((hc c hm).assignments a he).1
  · have hnone : (calls.filterMap Call.source?).getLast? = none := hs
    exact if_neg (by simp [hnone])
  · obtain ⟨c, hm, he⟩ := List.mem_flatMap.1 (mem_joins_readAs hj)
    exact ((hc c hm).joins j he).1

theorem obeys_readAs : ∀ p ∈ (Statement.update (readAs table calls)).parts,
    p.Unnumbered ∧ p.Obeys (Part.Clear d) := by
  have hconditions : ∀ e ∈ calls.filterMap Call.condition?,
      (Part.expr e).Unnumbered ∧ e.Clear d := fun e he =>
    have ⟨c, hm, he⟩ := List.mem_filterMap.1 he
    (hc c hm).condition e he
  simp only [Statement.parts, Assignment.parts, Part.exprs, List.forall_mem_append,
    List.forall_mem_map, List.forall_mem_flatMap, Option.mem_toList]
  refine ⟨⟨⟨fun a ha => ?_, fun i hi => ?_⟩, fun j hj => ?_⟩, fun e he => ?_⟩
  · obtain ⟨c, hm, he⟩ := List.mem_flatMap.1 ha
    exact ((hc c hm).assignments a he).2
  · obtain ⟨c, hm, he⟩ := List.mem_filterMap.1 (List.mem_of_getLast? hi)
    exact (hc c hm).source i he
  · obtain ⟨c, hm, he⟩ := List.mem_flatMap.1 (mem_joins_readAs hj)
    exact ((hc c hm).joins j he).2
  · exact ⟨Expr.unnumbered_conjunction (fun e he => (hconditions e he).1) e he,
      Expr.clear_conjunction (fun e he => (hconditions e he).2) e he⟩

/-- It has the written form of what is built: without an item, joins are not written. -/
theorem layout_readAs : (readAs table calls).layout =
    { readAs table calls with
      joins := calls.flatMap Call.joins
      condition := (calls.filterMap Call.condition?).foldl Expr.conjoin none }.layout := by
  have hcondition : Expr.whereLayout (Expr.conjunction (calls.filterMap Call.condition?)) =
      Expr.whereLayout ((calls.filterMap Call.condition?).foldl Expr.conjoin none) :=
    Expr.layout_conjunction fun e he =>
      have ⟨c, hm, he⟩ := List.mem_filterMap.1 he
      ((hc c hm).condition e he).2
  unfold Update.layout readAs
  rw [hcondition]
  dsimp only
  cases (calls.filterMap Call.source?).getLast? <;> rfl

end Calls

/-- A built statement is read as what all calls say, the conditions with their parentheses. Joins are
read only if there is an item they are joined to. -/
theorem parseStatement_readAs (hd : o.dialect.structStyle = .bigQuery)
    (h : run? {} calls = some draft) (hb : draft.build? = some s)
    (hc : ∀ c ∈ calls, c.ComesBack o) :
    ∃ table text, (calls.filterMap Call.table?).getLast? = some table ∧ s.text = .ok text ∧
      parseStatement text o = .ok (.update (readAs table calls)) := by
  obtain rfl := run_eq h
  unfold build? hasSet at hb
  dsimp only at hb
  split at hb
  · cases hb
  · next table ht =>
    split at hb
    · next hset =>
      obtain rfl := Option.some.inj hb
      have hlegal : ∀ c ∈ calls, c.Legal o.dialect := fun c hm => (hc c hm).legal hd
      have hu := legal_readAs hlegal ht (by simpa using hset)
      have hparts : ∀ p ∈ (Statement.update (readAs table calls)).parts,
          p.Unnumbered ∧ p.Obeys (Part.Clear o.dialect) := obeys_readAs hlegal
      have hclear : ∀ p ∈ (Statement.update (readAs table calls)).parts,
          p.Obeys (Part.Clear o.dialect) := fun p hp => (hparts p hp).2
      have hapart : (readAs table calls).layout.Apart o.dialect.dq :=
        Update.apart hu fun p hp => Part.apart (hclear p hp)
      have hn : (readAs table calls).layout.Numbered 0 :=
        (usual_unnumbered.update fun p hp => (hparts p hp).1.every_layout).numbered
      obtain ⟨text, htext, hread⟩ := parseStatement_of_layout (s := .update (readAs table calls))
        hapart hn (fun he => by cases he) fun _ => finishes_update hu hclear
      refine ⟨table, text, ht, ?_, hread⟩
      rw [Statement.text, Statement.layout, layout_readAs hlegal] at htext
      exact htext
    · cases hb

/-- `UPDATE t SET a = 1` with a join of `u` and no item. The join is in the statement, not in its
text. -/
theorem join_lost :
    let join : Join := ⟨.inner, .table ⟨[.plain "u"]⟩, .none⟩
    let u : Update := ⟨⟨[.plain "t"]⟩, none, [⟨.plain "a", .literal (.integer "1")⟩], none, [join], none⟩
    ∃ draft, run? {} [.table "t", .set "a" (.literal (.integer "1")), .join join] = some draft ∧
      draft.build? = some (.update u) ∧ (Statement.update u).text = .ok "UPDATE t SET a = 1" ∧
      parseStatement "UPDATE t SET a = 1" {} = .ok (.update { u with joins := [] }) := by
  intro join u
  have htext : tokenize "UPDATE t SET a = 1" false = .ok
      ⟨[⟨.keyword .UPDATE, ⟨0, 6⟩, "UPDATE"⟩, ⟨.identifier "t" none, ⟨7, 8⟩, "t"⟩,
        ⟨.keyword .SET, ⟨9, 12⟩, "SET"⟩, ⟨.identifier "a" none, ⟨13, 14⟩, "a"⟩,
        ⟨.symbol .equal, ⟨15, 16⟩, "="⟩, ⟨.integer "1", ⟨17, 18⟩, "1"⟩],
        ⟨.endOfInput, ⟨18, 18⟩, ""⟩⟩ :=
    Lexer.run_of_steps (by simp) rfl (by with_unfolding_all rfl)
  exact ⟨_, rfl, rfl, by decide,
    (parseStatement_iff (o := {}) htext _).2 ⟨_, rfl⟩⟩

end UpdateDraft

end SqlTree
