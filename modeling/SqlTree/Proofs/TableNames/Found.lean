import Mathlib
import SqlTree.Proofs.TableNames.Mentioned
import SqlTree.Proofs.TableNames.Visited
import SqlTree.Proofs.Lexing.Placed
import SqlTree.Proofs.Carrying.Segments

/-! # Which tables are found

* `Statement.Uses s name`: the statement changes, declares or refers to a table of that name, or
  going through it comes to an item that reads one.
* `Statement.Hides s name`: going through the statement comes to a query that gives this name to
  another query. It hides the name in the whole statement, and not only within that query.
* `TableFinder.mem_tables_visited`: of several statements, the tables found are those that some
  statement uses and none hides. `Statement.mem_tables` is the same for a single one.
* `Statement.mem_tables_or_leftOut`: an item anywhere in a statement reads a table that is found or
  hidden, or it stands in a part that is left out.
* `Statement.target_mem_tables`: what a statement changes or declares is found unless it is hidden.
-/

namespace SqlTree
set_option autoImplicit false

variable {name : ObjectName}

/-! ## What a statement uses and what it hides -/

namespace Statement

/-- A statement names a table itself, or going through it comes to an item that reads the table. -/
def Uses (s : Statement) (name : ObjectName) : Prop :=
  .table name ∈ s.named ∨ ∃ i : FromItem, s.Sees (.item i) ∧ i.relation = .table name

/-- Going through a statement comes to a query that gives a single name to another query, in any
case of ASCII letters. -/
def Hides (s : Statement) (name : ObjectName) : Prop :=
  ∃ q c single, s.Sees (.query q) ∧ c ∈ q.cteNames ∧ name.parts = [single] ∧
    Text.sameIgnoringCase c.name single.name = true

theorem cte_not_mem_named (s : Statement) (c : Ident) : .cte c ∉ s.named := by
  have href (d : ColumnDef) : Mention.cte c ∉ d.mentions := by
    unfold ColumnDef.mentions
    cases d.references <;> simp
  have hrule (t : TableConstraint) : Mention.cte c ∉ t.mentions := by
    unfold TableConstraint.mentions
    cases t.rule <;> simp
  have hchange (t : TableChange) : Mention.cte c ∉ t.mentions := by
    cases t <;> simp [TableChange.mentions, href, hrule]
  cases s with
  | createTable t => simp [named, href, hrule]
  | alterTable a => simp [named, AlterTable.mentions, hchange]
  | «show» r => cases r <;> simp [named, Show.mentions]
  | _ => simp [named]

theorem table_mem_mentions (s : Statement) : .table name ∈ s.mentions ↔ s.Uses name := by
  rw [mem_mentions_iff, Uses]
  refine or_congr Iff.rfl ⟨?_, ?_⟩
  · rintro ⟨q, hq, hm⟩
    cases q with
    | item i =>
      refine ⟨i, hq, ?_⟩
      rw [Part.named] at hm
      split at hm <;> simp_all
    | query q => simp [Part.named] at hm
    | _ => cases hm
  · rintro ⟨i, hi, hr⟩
    exact ⟨.item i, hi, by simp [Part.named, hr]⟩

theorem cte_mem_mentions (s : Statement) {c : Ident} :
    .cte c ∈ s.mentions ↔ ∃ q, s.Sees (.query q) ∧ c ∈ q.cteNames := by
  rw [mem_mentions_iff, or_iff_right (cte_not_mem_named s c)]
  constructor
  · rintro ⟨q, hq, hm⟩
    cases q with
    | item i =>
      rw [Part.named] at hm
      split at hm <;> simp at hm
    | query q => exact ⟨q, hq, by simpa [Part.named] using hm⟩
    | _ => cases hm
  · rintro ⟨q, hq, hc⟩
    exact ⟨.query q, hq, List.mem_map_of_mem hc⟩

end Statement

/-! ## Taking in mentions -/

namespace TableFinder

variable {f : TableFinder}

theorem mem_names_note (m : Mention) :
    name ∈ (f.note m).names ↔ name ∈ f.names ∨ m = .table name := by
  cases m with
  | cte c => simp [note, addCte]
  | table n =>
    rw [note, add]
    split
    case isTrue h =>
      rw [Mention.table.injEq]
      exact ⟨.inl, fun hn => hn.elim id (· ▸ h)⟩
    case isFalse => simp [eq_comm]

theorem mem_ctes_note (m : Mention) {c : Ident} :
    c ∈ (f.note m).ctes ↔ c ∈ f.ctes ∨ m = .cte c := by
  cases m with
  | cte d => simp [note, addCte, eq_comm]
  | table n =>
    rw [note, add]
    split <;> simp

theorem nodup_note (h : f.names.Nodup) (m : Mention) : (f.note m).names.Nodup := by
  cases m with
  | cte c => exact h
  | table n =>
    rw [note, add]
    split
    case isTrue => exact h
    case isFalse hn => exact List.nodup_append.2 ⟨h, by simp, fun a ha b hb hab => by simp_all⟩

/-- A further statement adds the tables that it uses. -/
theorem mem_names_visit (s : Statement) :
    name ∈ (f.visit s).names ↔ name ∈ f.names ∨ s.Uses name := by
  rw [← s.table_mem_mentions, visit_eq]
  induction s.mentions generalizing f with
  | nil => simp
  | cons m ms ih => rw [List.foldl_cons, ih, mem_names_note, or_assoc, List.mem_cons, eq_comm]

/-- A further statement adds the names that its queries give to queries. -/
theorem mem_ctes_visit (s : Statement) {c : Ident} :
    c ∈ (f.visit s).ctes ↔ c ∈ f.ctes ∨ ∃ q, s.Sees (.query q) ∧ c ∈ q.cteNames := by
  rw [← s.cte_mem_mentions, visit_eq]
  induction s.mentions generalizing f with
  | nil => simp
  | cons m ms ih => rw [List.foldl_cons, ih, mem_ctes_note, or_assoc, List.mem_cons, eq_comm]

theorem nodup_visit (h : f.names.Nodup) (s : Statement) : (f.visit s).names.Nodup := by
  rw [visit_eq]
  induction s.mentions generalizing f with
  | nil => exact h
  | cons m ms ih => exact ih (nodup_note h m)

theorem namesCte_iff : f.namesCte name = true ↔
    ∃ c single, c ∈ f.ctes ∧ name.parts = [single] ∧
      Text.sameIgnoringCase c.name single.name = true := by
  unfold namesCte ObjectName.isOneOf
  split
  case h_1 single h => simp [h]
  case h_2 h =>
    refine ⟨fun hf => absurd hf (by simp), ?_⟩
    rintro ⟨-, single, -, hs, -⟩
    exact absurd hs (h single)

/-- A further statement hides what its own queries hide. -/
theorem namesCte_visit (s : Statement) :
    (f.visit s).namesCte name = true ↔ f.namesCte name = true ∨ s.Hides name := by
  simp only [namesCte_iff, mem_ctes_visit, Statement.Hides, or_and_right, exists_or]
  refine or_congr Iff.rfl ⟨?_, ?_⟩
  · rintro ⟨c, single, ⟨q, hq, hc⟩, hrest⟩
    exact ⟨q, c, single, hq, hc, hrest⟩
  · rintro ⟨q, c, single, hq, hc, hrest⟩
    exact ⟨c, single, ⟨q, hq, hc⟩, hrest⟩

/-! ## Several statements -/

theorem mem_tables : name ∈ f.tables ↔ name ∈ f.names ∧ ¬f.namesCte name = true := by
  rw [tables, List.mem_filter, Bool.not_eq_true', Bool.not_eq_true]

/-- Of several statements, the tables found are those that some statement uses and none hides. -/
theorem mem_tables_visited (ss : List Statement) :
    name ∈ (ss.foldl visit {}).tables ↔ (∃ s ∈ ss, s.Uses name) ∧ ∀ s ∈ ss, ¬s.Hides name := by
  have hrun (f : TableFinder) : name ∈ (ss.foldl visit f).tables ↔
      (name ∈ f.names ∨ ∃ s ∈ ss, s.Uses name) ∧
        ¬f.namesCte name = true ∧ ∀ s ∈ ss, ¬s.Hides name := by
    induction ss generalizing f with
    | nil => simp [mem_tables]
    | cons s ss ih =>
      rw [List.foldl_cons, ih, mem_names_visit, namesCte_visit]
      simp only [List.mem_cons, exists_eq_or_imp, forall_eq_or_imp, not_or, or_assoc, and_assoc]
  simpa [namesCte_iff] using hrun {}

/-- Each table is found once. -/
theorem nodup_tables_visited (ss : List Statement) : (ss.foldl visit {}).tables.Nodup := by
  have hrun (f : TableFinder) (h : f.names.Nodup) : (ss.foldl visit f).names.Nodup := by
    induction ss generalizing f with
    | nil => exact h
    | cons s ss ih => exact ih _ (nodup_visit h s)
  exact (hrun {} .nil).filter _

end TableFinder

/-! ## One statement -/

/-- The item that the block of a query reads from stands in the query. -/
theorem Query.within_source {q : Query} {s : Select} {i : FromItem} (hbody : q.body = .select s)
    (hsource : s.source = some i) : Part.Within (.item i) (.query q) := by
  have hblock : Part.block s ∈ (Part.body q.body).children := by
    simp [hbody, Part.children, SetExpr.children]
  exact .child (c := .body q.body) (by simp [Part.children, Query.children])
    (.child hblock (.child (by simp [hsource, Part.children, Select.children]) .refl))

/-- A query in the number of a limit stands in the query that is limited. -/
theorem Query.within_limit {q inner : Query} {l : Limit} (hlimit : q.limit = some l)
    (hcount : l.rowCount = some (.subquery inner)) : Part.Within (.query inner) (.query q) := by
  have hexpr : Part.expr (.subquery inner) ∈ (Part.query q).children := by
    simp [hlimit, hcount, Part.children, Query.children, Limit.parts, Part.exprs]
  exact .child hexpr (.child (List.mem_singleton_self _) .refl)

namespace Statement

/-- The tables found are those that the statement uses and does not hide. -/
theorem mem_tables (s : Statement) : name ∈ s.tables ↔ s.Uses name ∧ ¬s.Hides name := by
  have hvisited : name ∈ (TableFinder.visit {} s).tables ↔
      (∃ t ∈ [s], t.Uses name) ∧ ∀ t ∈ [s], ¬t.Hides name := TableFinder.mem_tables_visited [s]
  rw [tables, hvisited]
  simp only [List.mem_singleton, exists_eq_left, forall_eq]

/-- A part that is not gone through, right below a statement or below a part that is. -/
def LeavesOut (s : Statement) (c : Part) : Prop :=
  (c ∈ s.parts ∧ c ∉ s.gone) ∨ ∃ r, s.Sees r ∧ c ∈ r.children ∧ c ∉ r.gone

/-- A table that an item reads, anywhere in a statement, is found or hidden, or the item stands in a
part that is left out. -/
theorem mem_tables_or_leftOut (s : Statement) {p : Part} {i : FromItem} (hp : p ∈ s.parts)
    (hi : Part.Within (.item i) p) (hr : i.relation = .table name) :
    name ∈ s.tables ∨ s.Hides name ∨ ∃ c, s.LeavesOut c ∧ Part.Within (.item i) c := by
  by_cases hgone : p ∈ s.gone
  · rcases hi.sees_or_leftOut with hsees | ⟨r, c, hsees, hc, hnot, hi⟩
    · rw [mem_tables, or_iff_not_imp_right, not_or]
      exact fun hhides => ⟨.inr ⟨i, ⟨p, hgone, hsees⟩, hr⟩, hhides.1⟩
    · exact .inr (.inr ⟨c, .inr ⟨r, ⟨p, hgone, hsees⟩, hc, hnot⟩, hi⟩)
  · exact .inr (.inr ⟨p, .inl ⟨hp, hgone⟩, hi⟩)

/-- The number of a limit is left out, and with it the table that a query in it reads. -/
theorem limit_leftOut : ∃ s q i,
    parseStatement "SELECT a FROM t LIMIT (SELECT b FROM u)" {} = .ok s ∧ s.parts = [.query q] ∧
    Part.Within (.item i) (.query q) ∧ i.relation = .table ⟨[⟨"u", none⟩]⟩ ∧
    ⟨[⟨"u", none⟩]⟩ ∉ s.tables := by
  have hlexed : tokenize "SELECT a FROM t LIMIT (SELECT b FROM u)" false = .ok
      ⟨[⟨.keyword .SELECT, ⟨0, 6⟩, "SELECT"⟩, ⟨.identifier "a" none, ⟨7, 8⟩, "a"⟩,
        ⟨.keyword .FROM, ⟨9, 13⟩, "FROM"⟩, ⟨.identifier "t" none, ⟨14, 15⟩, "t"⟩,
        ⟨.keyword .LIMIT, ⟨16, 21⟩, "LIMIT"⟩, ⟨.symbol .leftParen, ⟨22, 23⟩, "("⟩,
        ⟨.keyword .SELECT, ⟨23, 29⟩, "SELECT"⟩, ⟨.identifier "b" none, ⟨30, 31⟩, "b"⟩,
        ⟨.keyword .FROM, ⟨32, 36⟩, "FROM"⟩, ⟨.identifier "u" none, ⟨37, 38⟩, "u"⟩,
        ⟨.symbol .rightParen, ⟨38, 39⟩, ")"⟩], ⟨.endOfInput, ⟨39, 39⟩, ""⟩⟩ :=
    Lexer.run_of_steps (by simp) rfl (by with_unfolding_all rfl)
  have hs : parseStatement "SELECT a FROM t LIMIT (SELECT b FROM u)" {} = .ok (.query ⟨none,
      .select ⟨false, [⟨.column ⟨none, ⟨"a", none⟩⟩, none⟩],
        some ⟨.table ⟨[⟨"t", none⟩]⟩, none, none, none⟩, [], none, [], none, none⟩, [], none,
      some ⟨some (.subquery ⟨none, .select ⟨false, [⟨.column ⟨none, ⟨"b", none⟩⟩, none⟩],
        some ⟨.table ⟨[⟨"u", none⟩]⟩, none, none, none⟩, [], none, [], none, none⟩, [], none,
        none, none⟩), none, false, false, none⟩, none⟩) :=
    (parseStatement_iff (o := {}) hlexed _).2 ⟨_, rfl⟩
  exact ⟨_, _, _, hs, rfl, (Query.within_source rfl rfl).trans (Query.within_limit rfl rfl), rfl,
    by decide⟩

/-- The table that a statement changes or declares. -/
def target? : Statement → Option ObjectName
  | .insert i => some i.table
  | .update u => some u.table
  | .delete d => some d.table
  | .createTable c => some c.name
  | .alterTable a => some a.name
  | .query _ | .show _ | .unsupported _ => none

/-- What a statement changes or declares is found unless a query gives its name to a query. -/
theorem target_mem_tables (s : Statement) (h : s.target? = some name) :
    name ∈ s.tables ↔ ¬s.Hides name := by
  have huses : s.Uses name := by
    refine .inl ?_
    cases s <;> simp_all [target?, named, AlterTable.mentions]
  rw [mem_tables, and_iff_right huses]

/-- The name given to a query hides the table of that name that a statement inserts into. -/
theorem target_hidden : ∃ s, parseStatement
    "INSERT INTO t WITH t AS (SELECT b FROM u) SELECT b FROM t" {} = .ok s ∧
    s.target? = some ⟨[⟨"t", none⟩]⟩ ∧ ⟨[⟨"t", none⟩]⟩ ∉ s.tables := by
  have hlexed : tokenize "INSERT INTO t WITH t AS (SELECT b FROM u) SELECT b FROM t" false = .ok
      ⟨[⟨.keyword .INSERT, ⟨0, 6⟩, "INSERT"⟩, ⟨.keyword .INTO, ⟨7, 11⟩, "INTO"⟩,
        ⟨.identifier "t" none, ⟨12, 13⟩, "t"⟩, ⟨.keyword .WITH, ⟨14, 18⟩, "WITH"⟩,
        ⟨.identifier "t" none, ⟨19, 20⟩, "t"⟩, ⟨.keyword .AS, ⟨21, 23⟩, "AS"⟩,
        ⟨.symbol .leftParen, ⟨24, 25⟩, "("⟩, ⟨.keyword .SELECT, ⟨25, 31⟩, "SELECT"⟩,
        ⟨.identifier "b" none, ⟨32, 33⟩, "b"⟩, ⟨.keyword .FROM, ⟨34, 38⟩, "FROM"⟩,
        ⟨.identifier "u" none, ⟨39, 40⟩, "u"⟩, ⟨.symbol .rightParen, ⟨40, 41⟩, ")"⟩,
        ⟨.keyword .SELECT, ⟨42, 48⟩, "SELECT"⟩, ⟨.identifier "b" none, ⟨49, 50⟩, "b"⟩,
        ⟨.keyword .FROM, ⟨51, 55⟩, "FROM"⟩, ⟨.identifier "t" none, ⟨56, 57⟩, "t"⟩],
        ⟨.endOfInput, ⟨57, 57⟩, ""⟩⟩ :=
    Lexer.run_of_steps (by simp) rfl (by with_unfolding_all rfl)
  have hs : parseStatement "INSERT INTO t WITH t AS (SELECT b FROM u) SELECT b FROM t" {} =
      .ok (.insert ⟨true, ⟨[⟨"t", none⟩]⟩, [], .query
        ⟨some ⟨false, [⟨⟨"t", none⟩, [],
          ⟨none, .select ⟨false, [⟨.column ⟨none, ⟨"b", none⟩⟩, none⟩],
            some ⟨.table ⟨[⟨"u", none⟩]⟩, none, none, none⟩, [], none, [], none, none⟩, [], none,
            none, none⟩⟩]⟩,
          .select ⟨false, [⟨.column ⟨none, ⟨"b", none⟩⟩, none⟩],
            some ⟨.table ⟨[⟨"t", none⟩]⟩, none, none, none⟩, [], none, [], none, none⟩, [], none,
          none, none⟩, none⟩) :=
    (parseStatement_iff (o := {}) hlexed _).2 ⟨_, rfl⟩
  exact ⟨_, hs, rfl, by decide⟩

end Statement
end SqlTree
