import Mathlib
import SqlTree.Proofs.Carrying.Segments
import SqlTree.Proofs.Text.Statement

/-! # Rows that are there already, behind an inserted query

What happens to rows that are there already is written behind the inserted query, without
parentheses around it, and begins with `ON`. The same word begins the condition of a join. So a
query is read up to it only if it does not end with an item that is joined by nothing.

* `Insert.parseStatement_of_closed`: an `INSERT` statement whose query does not end so comes back
  from its text.
* `Insert.conflict_taken`: one whose query does, and that does not come back.
-/

namespace SqlTree
set_option autoImplicit false

open Layout Parse

namespace Insert

variable {i : Insert} {q : Query}

theorem apart_ofQuery {dq : Bool} (hq : i.source = .query q) (htable : i.table.Plain dq)
    (hcolumns : ∀ c ∈ i.columns, c.Plain dq) (hquery : q.layout.Apart dq)
    (hconflict : ∀ c ∈ i.onConflict, c.Plain dq ∧ ∀ p ∈ c.action.parts, p.layout.Apart dq) :
    i.layout.Apart dq := by
  rw [i.layout_eq, hq]
  refine apart_front htable hcolumns (hquery.then (Trails.optional fun c hc => ?_))
  exact (OnConflict.apart (hconflict c hc).1 (hconflict c hc).2).trails

/-- A query and what happens to rows that are there already are read back, if the query does not end
with an item that is joined by nothing. -/
theorem finishes_ofQuery {d : Dialect} {g : Productions} {bound : Nat} (hg : g.Reads d bound)
    (hq : i.source = .query q) (htable : i.table.Plain d.dq)
    (hcolumns : ∀ c ∈ i.columns, c.Plain d.dq) (hquery : q.Clear d) (hopens : q.opens = true)
    (hclosed : q.endsOpen = false)
    (hconflict : ∀ c ∈ i.onConflict, c.Plain d.dq ∧ ∀ p ∈ c.action.parts, p.Obeys (Part.Clear d))
    (hs : i.layout.size < bound) (n : Nat) :
    Finishes d.dq (insertStatement g) i.layout.solid n i := by
  rw [i.layout_eq, hq, size_append, size_append] at hs
  rw [i.layout_eq, hq, solid_append, solid_append]
  obtain ⟨withInto, table, columns, source, conflict⟩ := i
  obtain rfl : source = .query q := hq
  dsimp only [InsertSource.layout] at htable hcolumns hconflict hs ⊢
  let rest := (Layout.optional (fun c : OnConflict => .gap :: c.layout) conflict).solid
  have hfollows : FollowsQuery d.dq q rest := by
    refine ⟨?_, by simp [hclosed]⟩
    cases conflict <;> rfl
  have hread : Takes d.dq g.query (q.layout.solid ++ rest) q rest :=
    hg.query q hquery (by omega) rest hfollows
  obtain ⟨k, l, hl, hk⟩ := Query.head_layout hopens rest
  have hword : kindAhead d.dq (q.layout.solid ++ rest) 0 = .keyword .SELECT ∨
      kindAhead d.dq (q.layout.solid ++ rest) 0 = .keyword .WITH := by
    simp only [List.mem_cons, List.not_mem_nil, or_false] at hk
    rw [hl]
    exact hk.imp (congrArg TokenKind.keyword) (congrArg TokenKind.keyword)
  have hclause : Takes d.dq (ifKeyword .ON (Parse.onConflict g)) rest conflict [] := by
    refine takes_conflictClause hg (fun c hc => (hconflict c hc).1) ?_ (by omega)
    cases conflict with
    | none => simp
    | some c => exact (hconflict c rfl).2
  refine finishes_insertStatement htable hcolumns (hword.elim (fun h => ⟨_, h⟩) fun h => ⟨_, h⟩) ?_
  have hboth : Takes d.dq (do
      let source ← insertSource g
      let onConflict ← ifKeyword .ON (Parse.onConflict g)
      return (⟨withInto, table, columns, source, onConflict⟩ : Insert)) (q.layout.solid ++ rest)
      ⟨withInto, table, columns, .query q, conflict⟩ [] :=
    (takes_insertedQuery hword hread).bind (hclause.bind (.pure _ []))
  exact hboth.finishes

/-- An `INSERT` statement from a query comes back from its text, with any clause for rows that are
there already, if the query does not end with an item that is joined by nothing. -/
theorem parseStatement_of_closed {o : Options} (hq : i.source = .query q)
    (htable : i.table.Plain o.dialect.dq) (hcolumns : ∀ c ∈ i.columns, c.Plain o.dialect.dq)
    (hquery : q.Clear o.dialect) (hopens : q.opens = true) (hclosed : q.endsOpen = false)
    (hconflict : ∀ c ∈ i.onConflict,
      c.Plain o.dialect.dq ∧ ∀ p ∈ c.action.parts, p.Obeys (Part.Clear o.dialect))
    (hnumbered : i.layout.Numbered 0) :
    ∃ text, (Statement.insert i).text = .ok text ∧ parseStatement text o = .ok (.insert i) := by
  have hapart : i.layout.Apart o.dialect.dq := apart_ofQuery hq htable hcolumns (Part.apart hquery)
    fun c hc => ⟨(hconflict c hc).1, fun p hp => Part.apart ((hconflict c hc).2 p hp)⟩
  refine parseStatement_of_layout hapart hnumbered (fun he => by cases he) fun source =>
    finishes_insert rfl fun ahead ha => ?_
  refine finishes_ofQuery (reads_productions _ ahead) hq htable hcolumns hquery hopens hclosed
    hconflict ?_ _
  rw [Statement.layout, size_solid] at ha
  omega

/-- `SELECT a FROM u CROSS JOIN v` ends with an item that is joined by nothing. Behind it the clause
is taken for the condition of the join, and the statement is not read. -/
theorem conflict_taken : ∃ q : Query, q.endsOpen = true ∧ q.ReadsBack {} ∧
    (Statement.insert ⟨true, ⟨[⟨"t", none⟩]⟩, [], .query q, some ⟨[], .doNothing⟩⟩).text =
      .ok "INSERT INTO t SELECT a FROM u CROSS JOIN v ON CONFLICT DO NOTHING" ∧
    ∀ s, parseStatement "INSERT INTO t SELECT a FROM u CROSS JOIN v ON CONFLICT DO NOTHING" {} ≠
      .ok s := by
  have hquery : tokenize "SELECT a FROM u CROSS JOIN v" false = .ok
      ⟨[⟨.keyword .SELECT, ⟨0, 6⟩, "SELECT"⟩, ⟨.identifier "a" none, ⟨7, 8⟩, "a"⟩,
        ⟨.keyword .FROM, ⟨9, 13⟩, "FROM"⟩, ⟨.identifier "u" none, ⟨14, 15⟩, "u"⟩,
        ⟨.keyword .CROSS, ⟨16, 21⟩, "CROSS"⟩, ⟨.keyword .JOIN, ⟨22, 26⟩, "JOIN"⟩,
        ⟨.identifier "v" none, ⟨27, 28⟩, "v"⟩], ⟨.endOfInput, ⟨28, 28⟩, ""⟩⟩ :=
    Lexer.run_of_steps (by simp) rfl (by with_unfolding_all rfl)
  have hinsert : tokenize "INSERT INTO t SELECT a FROM u CROSS JOIN v ON CONFLICT DO NOTHING" false
      = .ok ⟨[⟨.keyword .INSERT, ⟨0, 6⟩, "INSERT"⟩, ⟨.keyword .INTO, ⟨7, 11⟩, "INTO"⟩,
        ⟨.identifier "t" none, ⟨12, 13⟩, "t"⟩, ⟨.keyword .SELECT, ⟨14, 20⟩, "SELECT"⟩,
        ⟨.identifier "a" none, ⟨21, 22⟩, "a"⟩, ⟨.keyword .FROM, ⟨23, 27⟩, "FROM"⟩,
        ⟨.identifier "u" none, ⟨28, 29⟩, "u"⟩, ⟨.keyword .CROSS, ⟨30, 35⟩, "CROSS"⟩,
        ⟨.keyword .JOIN, ⟨36, 40⟩, "JOIN"⟩, ⟨.identifier "v" none, ⟨41, 42⟩, "v"⟩,
        ⟨.keyword .ON, ⟨43, 45⟩, "ON"⟩, ⟨.keyword .CONFLICT, ⟨46, 54⟩, "CONFLICT"⟩,
        ⟨.keyword .DO, ⟨55, 57⟩, "DO"⟩, ⟨.keyword .NOTHING, ⟨58, 65⟩, "NOTHING"⟩],
        ⟨.endOfInput, ⟨65, 65⟩, ""⟩⟩ :=
    Lexer.run_of_steps (by simp) rfl (by with_unfolding_all rfl)
  refine ⟨.ofBody (.select ⟨false, [⟨.column ⟨none, ⟨"a", none⟩⟩, none⟩],
    some ⟨.table ⟨[⟨"u", none⟩]⟩, none, none, none⟩,
    [⟨.cross, ⟨.table ⟨[⟨"v", none⟩]⟩, none, none, none⟩, .none⟩], none, [], none, none⟩), rfl,
    ⟨rfl, _, by decide, (parseStatement_iff (o := {}) hquery _).2 ⟨_, rfl⟩⟩,
    by decide, fun s h => ?_⟩
  obtain ⟨d, hd⟩ := (parseStatement_iff (o := {}) hinsert s).1 h
  cases hd

end Insert
end SqlTree
