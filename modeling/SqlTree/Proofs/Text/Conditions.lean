import Mathlib
import SqlTree.Proofs.Build.Clauses
import SqlTree.Proofs.Carrying.Segments
import SqlTree.Proofs.Text.Conjunction
import SqlTree.Proofs.Text.Statement

/-! # Built conditions and their texts

A query and a `DELETE` statement collect the conditions they are given. In the text these stand with
`AND` between them, and nothing that one condition leaves open takes a part of the next one.

* `SelectDraft.parseStatement_rowsWhere`: a built query of plain columns from a table comes back with the
  conditions put together from left to right, up to parentheses.
* `DeleteDraft.parseStatement_rowsWhere`: a built `DELETE` statement does.
* `parseStatement_conditions`: both.
-/

namespace SqlTree
set_option autoImplicit false

open Layout Parse

variable {o : Options}

/-- A condition that comes back from its text and holds no question marks. -/
def Expr.IsCondition (o : Options) (e : Expr) : Prop :=
  (Part.expr e).Unnumbered ∧ e.ComesBack o

theorem Expr.IsCondition.clear {e : Expr} (hd : o.dialect.structStyle = .bigQuery)
    (h : e.IsCondition o) : e.Clear o.dialect :=
  h.2.clear hd h.1

theorem Expr.IsCondition.of_obeys {e : Expr}
    (h : (Part.expr e).Obeys fun p => p.number? = none ∧ p.Clear o.dialect) : e.IsCondition o :=
  have hn : (Part.expr e).Unnumbered := h.mono fun _ => And.left
  ⟨hn, Expr.Clear.comesBack (h.mono fun _ => And.right) hn⟩

/-- A column with legal names, or all columns. -/
def SelectItem.IsPlain (dq : Bool) (i : SelectItem) : Prop :=
  i = .bare .star ∨ ∃ c : ColumnRef, c.Legal dq ∧ i = .bare (.column c)

section Plain

variable {d : Dialect}

theorem SelectItem.IsPlain.legal {i : SelectItem} {dq : Bool} (h : i.IsPlain dq) : i.Legal dq := by
  rcases h with rfl | ⟨c, -, rfl⟩ <;> exact ⟨fun _ => rfl, nofun⟩

theorem SelectItem.IsPlain.faithful {i : SelectItem} {dq : Bool} (h : i.IsPlain dq) :
    i.Faithful := by
  rcases h with rfl | ⟨c, -, rfl⟩ <;> exact fun _ => nofun

theorem SelectItem.IsPlain.obeys {i : SelectItem} (h : i.IsPlain d.dq) :
    (Part.expr i.expr).Obeys fun p => p.number? = none ∧ p.Clear d := by
  rcases h with rfl | ⟨c, hc, rfl⟩
  · refine Part.obeys_iff.2 ⟨⟨rfl, ⟨nofun, nofun, nofun⟩, nofun⟩, ?_⟩
    simp [SelectItem.bare, Expr.star, Part.children, Expr.children, SelectItem.parts]
  · refine Part.obeys_iff.2 ⟨⟨rfl, hc, trivial⟩, ?_⟩
    simp [SelectItem.bare, Part.children, Expr.children]

theorem FromItem.obeys_table {n : ObjectName} (h : n.Legal d.dq) :
    (Part.item (.table n)).Obeys fun p => p.number? = none ∧ p.Clear d := by
  refine Part.obeys_iff.2 ⟨⟨rfl, ⟨h, nofun, nofun, nofun⟩, nofun, nofun⟩, ?_⟩
  simp [FromItem.table, FromItem.ofRelation, Part.children, FromItem.children, Relation.parts]

end Plain

/-! ## Conditions that are put together -/

/-- What is read for some conditions: a clear expression without question marks, written as the
conditions are as they are collected, and up to parentheses the same. -/
theorem Expr.exists_conjunction (hd : o.dialect.structStyle = .bigQuery) {e : Expr} {more : List Expr}
    (h : ∀ c ∈ e :: more, c.IsCondition o) :
    ∃ e' : Expr, e'.bare = (more.foldl both e).bare ∧ e'.Clear o.dialect ∧ (Part.expr e').Unnumbered ∧
      Expr.whereLayout (some e') = Expr.whereLayout ((e :: more).foldl conjoin none) := by
  have hclear : ∀ c ∈ e :: more, c.Clear o.dialect := fun c hc => (h c hc).clear hd
  have hfree : ∀ c ∈ e :: more, (Part.expr c).Unnumbered := fun c hc => (h c hc).1
  obtain ⟨e', he', hbare⟩ := Option.map_eq_some_iff.1 (bare_conjunction e more)
  refine ⟨e', hbare, clear_conjunction hclear e' he', unnumbered_conjunction hfree e' he', ?_⟩
  rw [← he']
  exact layout_conjunction hclear

/-! ## Queries -/

namespace SelectDraft

/-- The condition that a call gives. -/
def Call.condition? : Call → Option Expr
  | .condition e => some e
  | _ => none

/-- What a call gives to read from. -/
def Call.source? : Call → Option FromItem
  | .table name => some (.table (ObjectName.ofText name))
  | .source i => some i
  | _ => none

/-- A call for plain columns, for a table with a legal name or for a condition. -/
def Call.IsPlain (dq : Bool) : Call → Prop
  | .item e => (SelectItem.bare e).IsPlain dq
  | .columns names => ∀ n ∈ names, (SelectItem.bare (.columnNamed n)).IsPlain dq
  | .table name => (ObjectName.ofText name).Legal dq
  | .allColumns | .condition _ => True
  | _ => False

variable {dq : Bool} {c : Call} {calls : List Call} {d : SelectDraft}

theorem Call.IsPlain.clause (h : c.IsPlain dq) : c.clause ∈ [.columns, .source, .condition] := by
  cases c <;> first | exact h.elim | simp [Call.clause]

theorem Call.IsPlain.items (h : c.IsPlain dq) : ∀ i ∈ c.items, i.IsPlain dq := by
  cases c with
  | item e =>
    intro i hi
    obtain rfl := List.mem_singleton.1 hi
    exact h
  | «columns» names => exact List.forall_mem_map.2 h
  | allColumns => simp [Call.items, SelectItem.IsPlain]
  | itemAs e name => exact h.elim
  | _ => simp [Call.items]

theorem Call.IsPlain.source (h : c.IsPlain dq) :
    ∀ i ∈ c.source?, ∃ n : ObjectName, n.Legal dq ∧ i = .table n := by
  cases c with
  | table name =>
    intro i hi
    exact ⟨_, h, (Option.some.inj hi).symm⟩
  | source item => exact h.elim
  | _ => nofun

theorem condition_run (h : run? {} calls = some d) :
    d.condition = (calls.filterMap Call.condition?).foldl Expr.conjoin none :=
  run_gathered (f := step?) (p := condition) (g := Call.condition?) (k := Expr.conjoin)
    (fun d c d' hstep => by
      obtain ⟨-, rfl⟩ := step?_eq_some hstep
      cases c <;> rfl) h

theorem source_run (h : run? {} calls = some d) :
    d.source = (calls.filterMap Call.source?).getLast? := by
  have hlast := run_last (f := step?) (p := SelectDraft.source) (g := Call.source?)
    (fun d c d' hstep => by
      obtain ⟨-, rfl⟩ := step?_eq_some hstep
      cases c <;> rfl) h
  simpa using hlast

/-- A draft for plain columns, a table and conditions has nothing else. -/
theorem eq_of_isPlain (h : run? {} calls = some d) (hc : ∀ c ∈ calls, c.IsPlain dq) :
    d = { items := d.items, source := d.source, condition := d.condition } := by
  apply eq_of_only
  intro clause
  by_cases hclause : clause ∈ [.columns, .source, .condition]
  · simp only [List.mem_cons, List.not_mem_nil, or_false] at hclause
    rcases hclause with rfl | rfl | rfl <;> rfl
  -- No call is for any other clause.
  · have hnone : callsFor clause calls = [] := by
      rw [callsFor, List.filter_eq_nil_iff]
      intro c hm he
      rw [decide_eq_true_eq] at he
      exact hclause (he ▸ (hc c hm).clause)
    rw [only_run clause h, hnone]
    cases clause <;> first | rfl | simp at hclause

/-- Plain columns from a table, where a condition holds. -/
def rowsWhere (items : List SelectItem) (source : Option FromItem) (condition : Option Expr) : Query :=
  .ofBody (.select ⟨false, items, source, [], condition, [], none, none⟩)

theorem layout_rowsWhere {items : List SelectItem} {source : Option FromItem} {e e' : Option Expr}
    (h : Expr.whereLayout e = Expr.whereLayout e') :
    (rowsWhere items source e).layout = (rowsWhere items source e').layout := by
  rw [Expr.whereLayout_eq, Expr.whereLayout_eq] at h
  have hblock : Select.layout ⟨false, items, source, [], e, [], none, none⟩ =
      Select.layout ⟨false, items, source, [], e', [], none, none⟩ := by
    rw [Select.layout_mk, Select.layout_mk, h]
  simp only [rowsWhere, Query.ofBody, Query.layout_mk, SetExpr.layout, hblock]

theorem obeys_rowsWhere {d : Dialect} {items : List SelectItem} {source : Option FromItem} {e : Expr}
    (hne : items ≠ []) (hitems : ∀ i ∈ items, i.IsPlain d.dq)
    (hsource : ∀ i ∈ source, ∃ n : ObjectName, n.Legal d.dq ∧ i = .table n)
    (hn : (Part.expr e).Unnumbered) (he : e.Clear d) :
    (Part.query (rowsWhere items source (some e))).Obeys
      fun p => p.number? = none ∧ p.Clear d := by
  have hblock : (Part.block ⟨false, items, source, [], some e, [], none, none⟩).Obeys
      fun p => p.number? = none ∧ p.Clear d := by
    refine Part.obeys_iff.2 ⟨⟨rfl, ⟨⟨hne, fun i hi => (hitems i hi).legal⟩, fun _ => rfl,
      List.forall_mem_nil _⟩, fun i hi => (hitems i hi).faithful⟩, ?_⟩
    simp only [Part.children, Select.children, SelectItem.parts, Part.exprs, List.flatMap_nil,
      Option.toList_some, Option.toList_none, List.append_nil, List.map_cons, List.map_nil,
      List.forall_mem_append, List.forall_mem_map, List.forall_mem_singleton, Option.mem_toList]
    refine ⟨⟨fun i hi => (hitems i hi).obeys, fun i hi => ?_⟩, hn.and he⟩
    obtain ⟨n, hlegal, rfl⟩ := hsource i hi
    exact FromItem.obeys_table hlegal
  have hbody : (Part.body (rowsWhere items source (some e)).body).Obeys
      fun p => p.number? = none ∧ p.Clear d :=
    Part.obeys_iff.2 ⟨⟨rfl, trivial, trivial⟩, List.forall_mem_singleton.2 hblock⟩
  have hlegal : (rowsWhere items source (some e)).Legal d := by
    simp [Query.Legal, rowsWhere, Query.ofBody]
  refine Part.obeys_iff.2 ⟨⟨rfl, hlegal, trivial⟩, ?_⟩
  simpa [rowsWhere, Query.ofBody, Part.children, Query.children] using hbody

/-- A built query of plain columns from a table comes back with its conditions put together from left
to right, up to parentheses. -/
theorem parseStatement_rowsWhere (hd : o.dialect.structStyle = .bigQuery) {s : Statement} {e : Expr}
    {more : List Expr} (h : run? {} calls = some d) (hs : d.statement? = some s)
    (hplain : ∀ c ∈ calls, c.IsPlain o.dialect.dq) (hitems : calls.flatMap Call.items ≠ [])
    (hw : calls.filterMap Call.condition? = e :: more) (he : ∀ c ∈ e :: more, c.IsCondition o) :
    ∃ text e', s.text = .ok text ∧
      parseStatement text o = .ok (.query (rowsWhere (calls.flatMap Call.items)
        (calls.filterMap Call.source?).getLast? (some e'))) ∧
      e'.bare = (more.foldl Expr.both e).bare := by
  obtain ⟨e', hbare, hclear, hn, hlayout⟩ := Expr.exists_conjunction hd he
  have hcolumns : ∀ i ∈ calls.flatMap Call.items, i.IsPlain o.dialect.dq := fun i hi => by
    obtain ⟨c, hc, hi⟩ := List.mem_flatMap.1 hi
    exact (hplain c hc).items i hi
  have hsource : ∀ i ∈ (calls.filterMap Call.source?).getLast?,
      ∃ n : ObjectName, n.Legal o.dialect.dq ∧ i = .table n := fun i hi => by
    obtain ⟨c, hc, hi⟩ := List.mem_filterMap.1 (List.mem_of_getLast? hi)
    exact (hplain c hc).source i hi
  have hobeys := obeys_rowsWhere hitems hcolumns hsource hn hclear
  have hfree : (Part.query _).Unnumbered := hobeys.mono fun _ => And.left
  obtain ⟨text, htext, hread⟩ := Query.Clear.parseStatement_text
    (hobeys.mono fun _ => And.right) hfree.every_layout.numbered
  refine ⟨text, e', ?_, hread, hbare⟩
  -- The draft holds the conditions without parentheses, with the same written form.
  have hitems' := items_run h
  obtain ⟨items, hsome, rfl⟩ : ∃ items, d.items = some items ∧
      s = .query (rowsWhere items d.source d.condition) := by
    rw [eq_of_isPlain h hplain] at hs
    cases hitems : d.items with
    | none => simp [statement?, query?, hitems] at hs
    | some items =>
      rw [statement?, query?, hitems] at hs
      exact ⟨items, rfl, (Option.some.inj hs).symm⟩
  rw [hsome, Option.getD_some] at hitems'
  rw [← hw, ← condition_run h] at hlayout
  rw [hitems', source_run h, Statement.text, Statement.layout, ← layout_rowsWhere hlayout]
  exact htext

end SelectDraft

/-! ## `DELETE` statements -/

namespace DeleteDraft

/-- The table that a call names. -/
def Call.table? : Call → Option ObjectName
  | .table name => some (ObjectName.ofText name)
  | _ => none

/-- The condition that a call gives. -/
def Call.condition? : Call → Option Expr
  | .condition e => some e
  | _ => none

variable {policy : DeletePolicy} {calls : List Call} {d : DeleteDraft}

/-- A draft is what its calls say: the last table and all conditions together. -/
theorem run_eq (h : run? policy {} calls = some d) :
    d = { table := (calls.filterMap Call.table?).getLast?
          condition := (calls.filterMap Call.condition?).foldl Expr.conjoin none } := by
  have hstep : ∀ (d : DeleteDraft) (c : Call) (d' : DeleteDraft), step? policy d c = some d' →
      d' = d.apply c := fun d c d' h => by
    unfold step? at h
    split at h
    · exact (Option.some.inj h).symm
    · cases h
  have htable := run_last (f := step? policy) (p := table) (g := Call.table?)
    (fun d c d' h => by rw [hstep d c d' h]; cases c <;> rfl) h
  have hcondition := run_gathered (f := step? policy) (p := condition) (g := Call.condition?)
    (k := Expr.conjoin) (fun d c d' h => by rw [hstep d c d' h]; cases c <;> rfl) h
  obtain ⟨table, condition⟩ := d
  simp only [Option.or_none] at htable hcondition
  rw [htable, hcondition]

/-- A built `DELETE` statement comes back with its conditions put together from left to right, up to
parentheses. -/
theorem parseStatement_rowsWhere (hd : o.dialect.structStyle = .bigQuery) {s : Statement} {e : Expr}
    {more : List Expr} (h : run? policy {} calls = some d) (hs : d.build? policy = some s)
    (hplain : ∀ n ∈ calls.filterMap Call.table?, n.Plain o.dialect.dq)
    (hw : calls.filterMap Call.condition? = e :: more) (he : ∀ c ∈ e :: more, c.IsCondition o) :
    ∃ table text e', (calls.filterMap Call.table?).getLast? = some table ∧ s.text = .ok text ∧
      parseStatement text o = .ok (.delete ⟨true, table, none, some e'⟩) ∧
      e'.bare = (more.foldl Expr.both e).bare := by
  obtain ⟨e', hbare, hclear, hn, hlayout⟩ := Expr.exists_conjunction hd he
  obtain rfl := run_eq h
  obtain ⟨table, ht, rfl⟩ : ∃ table, (calls.filterMap Call.table?).getLast? = some table ∧
      s = .delete ⟨true, table, none,
        (calls.filterMap Call.condition?).foldl Expr.conjoin none⟩ := by
    unfold build? at hs
    dsimp only at hs
    split at hs
    · cases hs
    · next table ht =>
      split at hs
      · exact ⟨table, ht, (Option.some.inj hs).symm⟩
      · cases hs
  have hlegal : (Statement.delete ⟨true, table, none, some e'⟩).Plain o.dialect.dq :=
    ⟨hplain table (List.mem_of_getLast? ht), nofun⟩
  have hparts : ∀ p ∈ (Statement.delete ⟨true, table, none, some e'⟩).parts,
      p = .expr e' := by
    simp [Statement.parts, Part.exprs]
  have hread : ∀ p ∈ (Statement.delete ⟨true, table, none, some e'⟩).parts,
      p.Obeys (Part.Clear o.dialect) := fun p hp => hparts p hp ▸ hclear
  have hfree : (Statement.delete ⟨true, table, none, some e'⟩).layout.Numbered 0 :=
    (usual_unnumbered.delete fun p hp => hparts p hp ▸ hn.every_layout).numbered
  obtain ⟨text, htext, hback⟩ := parseStatement_of_layout
    (Statement.apart hlegal fun p hp => Part.apart (hread p hp)) hfree (fun he => by cases he)
    fun source => Statement.finishes hlegal (fun q hq => by cases hparts _ hq) hread
  refine ⟨table, text, e', ht, ?_, hback, hbare⟩
  rw [hw, Statement.text, Statement.layout, Delete.layout, ← hlayout]
  exact htext

end DeleteDraft

/-! ## Both -/

/-- Conditions that come back from their texts, given one after another to a query of plain columns
from a table or to a `DELETE` statement, come back from its text put together from left to right, up
to parentheses. -/
theorem parseStatement_conditions (hd : o.dialect.structStyle = .bigQuery) {e : Expr}
    {more : List Expr} (he : ∀ c ∈ e :: more, c.IsCondition o) :
    (∀ (calls : List SelectDraft.Call) (d : SelectDraft) (s : Statement),
      SelectDraft.run? {} calls = some d → d.statement? = some s →
      (∀ c ∈ calls, c.IsPlain o.dialect.dq) → calls.flatMap SelectDraft.Call.items ≠ [] →
      calls.filterMap SelectDraft.Call.condition? = e :: more →
      ∃ text e', s.text = .ok text ∧
        parseStatement text o = .ok (.query (SelectDraft.rowsWhere
          (calls.flatMap SelectDraft.Call.items)
          (calls.filterMap SelectDraft.Call.source?).getLast? (some e'))) ∧
        e'.bare = (more.foldl Expr.both e).bare) ∧
    ∀ (policy : DeletePolicy) (calls : List DeleteDraft.Call) (d : DeleteDraft) (s : Statement),
      DeleteDraft.run? policy {} calls = some d → d.build? policy = some s →
      (∀ n ∈ calls.filterMap DeleteDraft.Call.table?, n.Plain o.dialect.dq) →
      calls.filterMap DeleteDraft.Call.condition? = e :: more →
      ∃ table text e', (calls.filterMap DeleteDraft.Call.table?).getLast? = some table ∧
        s.text = .ok text ∧
        parseStatement text o = .ok (.delete ⟨true, table, none, some e'⟩) ∧
        e'.bare = (more.foldl Expr.both e).bare := by
  constructor
  · intro calls d s h hs hplain hitems hw
    exact SelectDraft.parseStatement_rowsWhere hd h hs hplain hitems hw he
  · intro policy calls d s h hs hplain hw
    exact DeleteDraft.parseStatement_rowsWhere hd h hs hplain hw he

/-- `a OR b` and `c BETWEEN d AND e`, for a query and for a `DELETE` statement. -/
theorem parseStatement_conditions_between :
    let column (name : String) : Expr := .columnNamed name
    let first : Expr := (column "a").either (column "b")
    let second : Expr := (column "c").isBetween (column "d") (column "e")
    (∀ c ∈ [first, second], c.IsCondition {}) ∧
      (∃ d s text e',
        SelectDraft.run? {} [.item (column "a"), .table "t", .condition first, .condition second] =
          some d ∧ d.statement? = some s ∧ s.text = .ok text ∧
        parseStatement text {} = .ok (.query (SelectDraft.rowsWhere [.bare (column "a")]
          (some (.table ⟨[.plain "t"]⟩)) (some e'))) ∧
        e'.bare = (first.both second).bare) ∧
      ∃ d s text e',
        DeleteDraft.run? .anyRows {} [.table "t", .condition first, .condition second] = some d ∧
        d.build? .anyRows = some s ∧ s.text = .ok text ∧
        parseStatement text {} = .ok (.delete ⟨true, ⟨[.plain "t"]⟩, none, some e'⟩) ∧
        e'.bare = (first.both second).bare := by
  intro column first second
  have hlegal : ∀ name : String, (Ident.plain name).Plain false →
      (SelectItem.bare (.column ⟨none, .plain name⟩)).IsPlain false := fun name h =>
    .inr ⟨_, ⟨by simp, by simpa [ColumnRef.names] using Ident.Plain.legal h⟩, rfl⟩
  have hcolumn : ∀ name : String, (Ident.plain name).Plain false →
      (Part.expr (.column ⟨none, .plain name⟩)).Obeys fun p => p.number? = none ∧ p.Clear .generic :=
    fun name h => SelectItem.IsPlain.obeys (d := .generic) (hlegal name h)
  have hfirst : (Part.expr first).Obeys fun p => p.number? = none ∧ p.Clear .generic := by
    refine Part.obeys_iff.2 ⟨⟨rfl, ⟨by decide, by decide⟩, trivial⟩, ?_⟩
    simpa only [Part.children, Expr.children, first, Expr.either, List.forall_mem_cons] using
      ⟨hcolumn "a" (by decide), hcolumn "b" (by decide), List.forall_mem_nil _⟩
  have hsecond : (Part.expr second).Obeys fun p => p.number? = none ∧ p.Clear .generic := by
    refine Part.obeys_iff.2 ⟨⟨rfl, ⟨by decide, by decide, by decide, by decide⟩, trivial⟩, ?_⟩
    simpa only [Part.children, Expr.children, second, Expr.isBetween, List.forall_mem_cons] using
      ⟨hcolumn "c" (by decide), hcolumn "d" (by decide), hcolumn "e" (by decide),
        List.forall_mem_nil _⟩
  have he : ∀ c ∈ [first, second], c.IsCondition {} := by
    simp only [List.forall_mem_cons]
    exact ⟨.of_obeys hfirst, .of_obeys hsecond, List.forall_mem_nil _⟩
  have htable : (ObjectName.ofText "t").Plain false := ⟨by decide, by decide⟩
  have hplain : ∀ c ∈ [SelectDraft.Call.item (column "a"), .table "t", .condition first,
      .condition second], c.IsPlain false := by
    simp only [List.forall_mem_cons]
    exact ⟨hlegal "a" (by decide), htable.legal, trivial, trivial, List.forall_mem_nil _⟩
  obtain ⟨hselect, hdelete⟩ := parseStatement_conditions (o := {}) rfl he
  obtain ⟨text, e', htext, hread, hbare⟩ := hselect
    [.item (column "a"), .table "t", .condition first, .condition second] _ _ rfl rfl hplain
    (by simp [SelectDraft.Call.items]) rfl
  obtain ⟨table, text', e'', ht, htext', hread', hbare'⟩ := hdelete .anyRows
    [.table "t", .condition first, .condition second] _ _ rfl rfl
    (List.forall_mem_singleton.2 htable) rfl
  obtain rfl := Option.some.inj ht
  exact ⟨he, ⟨_, _, text, e', rfl, rfl, htext, hread, hbare⟩,
    ⟨_, _, text', e'', rfl, rfl, htext', hread', hbare'⟩⟩

end SqlTree
