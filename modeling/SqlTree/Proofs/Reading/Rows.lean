import Mathlib
import SqlTree.Proofs.Reading.Finish
import SqlTree.Proofs.Reading.Query
import SqlTree.Proofs.Tree.Statement
import SqlTree.Proofs.Tree.Written
import SqlTree.Statement.Grammar.Rows
import SqlTree.Statement.Layout

/-! # Statements that change rows are read back

* `takes_assignments`, `takes_onConflict`, …: one lemma for each reader.
* `finishes_insertStatement`: an `INSERT` statement, given its source and what is behind it.
  `finishes_insertRows`, `finishes_insertQuery`: the same for each source.
* `takes_updateStatement`, `takes_deleteStatement`.
-/

namespace SqlTree
set_option autoImplicit false

open Parse

variable {d : Dialect} {dq : Bool} {g : Productions} {bound : Nat} {r : Layout}

/-! ## Arrangements of statements -/

theorem Ident.Plain.takes {i : Ident} (h : i.Plain dq) :
    Takes dq identifier (i.layout.solid ++ r) i r :=
  takes_identifier h.legal

theorem ObjectName.Plain.takes {n : ObjectName} (h : n.Plain dq)
    (hr : kindAhead dq r 0 ≠ .symbol .dot) : Takes dq objectName (n.layout.solid ++ r) n r :=
  takes_objectName h.legal fun hd => absurd hd hr

theorem takes_parensAfterGap {names : List Ident} (h : ∀ i ∈ names, i.Plain dq)
    (hr : names = [] → kindAhead dq r 0 ≠ .symbol .leftParen) :
    Takes dq optionalIdentifiers ((Ident.parensAfterGap names).solid ++ r) names r := by
  have hl : (Ident.parensAfterGap names).solid =
      (Layout.onlyIf (!names.isEmpty) (Layout.parens (Ident.listLayout names))).solid := by
    cases names <;> rfl
  rw [hl]
  exact takes_optionalIdentifiers (Ident.Plain.legalAll h) hr

/-- What stands behind the name of a table that no alias is behind. -/
theorem kindAhead_parensAfterGap {names : List Ident} {kind : TokenKind}
    (hk : kind ≠ .symbol .leftParen) (hr : kindAhead dq r 0 ≠ kind) :
    kindAhead dq ((Ident.parensAfterGap names).solid ++ r) 0 ≠ kind := by
  cases names with
  | nil => exact hr
  | cons i names => exact hk.symm

/-- Alias behind the name of a table, in front of a word that is no name. -/
theorem takes_plainAlias {alias? : Option Alias} (h : ∀ a ∈ alias?, a.Plain dq)
    (hr : kindAhead dq r 0 ≠ .keyword .AS ∧ startsName (kindAhead dq r 0) = false) :
    Takes dq optionalAlias ((Alias.layoutAfter alias?).solid ++ r) alias? r :=
  takes_optionalAlias (fun a ha => (h a ha).legal) fun _ => hr

theorem kindAhead_plainAlias {alias? : Option Alias} (h : ∀ a ∈ alias?, a.Plain dq)
    (hr : kindAhead dq r 0 ≠ .symbol .dot) :
    kindAhead dq ((Alias.layoutAfter alias?).solid ++ r) 0 ≠ .symbol .dot := by
  match alias? with
  | none => exact hr
  | some ⟨name, true, columns⟩ => exact fun he => by cases he
  | some ⟨name, false, columns⟩ =>
    have hk := (h _ rfl).1.head ((Layout.onlyIf (!columns.isEmpty)
      (Layout.parens (Ident.listLayout columns))).solid ++ r)
    intro he
    have he' : kindAhead dq (name.layout.solid ++ ((Layout.onlyIf (!columns.isEmpty)
        (Layout.parens (Ident.listLayout columns))).solid ++ r)) 0 = .symbol .dot := by
      simpa [Alias.layoutAfter, Alias.layout, Layout.onlyIf] using he
    rw [hk] at he'
    cases he'

theorem Expr.whereLayout_eq (condition : Option Expr) :
    Expr.whereLayout condition =
      Layout.optional (fun e => Layout.behind [.WHERE] e.layout) condition := by
  cases condition <;> rfl

section Readers

variable (hg : g.Reads d bound)
include hg

/-! ## Values that are set -/

theorem takes_assignment {a : Assignment} (hl : a.column.Plain d.dq) (h : a.value.Clear d)
    (hs : a.layout.size ≤ bound) (hb : Breaks d a.layout r) :
    Takes d.dq (assignment g) (a.layout.solid ++ r) a r := by
  obtain ⟨column, value⟩ := a
  simp only [Assignment.layout, Layout.size_append, Layout.size_symbol, Layout.size_gap] at hs
  have hv := takes_expr hg (e := value) h (by omega) hb.suffix
  simp only [Assignment.layout, Layout.solid_append, Layout.solid_gap, Layout.solid_symbol,
    List.append_assoc, List.cons_append, List.nil_append]
  exact hl.takes.bind ((takes_expectSymbol _ _ (by decide)).bind (hv.bind (.pure _ r)))

theorem takes_assignments {as : List Assignment} (hl : Assignment.PlainList d.dq as)
    (h : ∀ p ∈ Assignment.parts as, p.Obeys (Part.Clear d))
    (hs : (Assignment.listLayout as).size ≤ bound) (hb : Breaks d (Assignment.listLayout as) r)
    (hc : kindAhead d.dq r 0 ≠ .symbol .comma) :
    Takes d.dq (assignments g) ((Assignment.listLayout as).solid ++ r) as r := by
  refine takes_commaList hc hl.1 fun a ha r' hr' => takes_assignment hg (hl.2 a ha) ?_ ?_ ?_
  · exact h _ (List.mem_map_of_mem (f := fun a => Part.expr a.value) ha)
  · exact (size_of_mem_commas (List.mem_map_of_mem ha)).trans hs
  · rcases hr' with ⟨hlast, rfl⟩ | ⟨l, rfl⟩
    · obtain ⟨l, hlist⟩ := commas_of_getLast? (f := Assignment.layout) hlast
      rw [Assignment.listLayout, hlist] at hb
      exact hb.suffix
    · exact .inl rfl

/-! ## Rows that are there already -/

theorem takes_conflictAction {a : ConflictAction}
    (hl : ∀ as, a = .doUpdate as → Assignment.PlainList d.dq as)
    (h : ∀ p ∈ a.parts, p.Obeys (Part.Clear d)) (hs : a.layout.size ≤ bound)
    (hb : breaksExpr (kindAhead d.dq r 0) = true) (hc : kindAhead d.dq r 0 ≠ .symbol .comma) :
    Takes d.dq (conflictAction g) (a.layout.solid ++ r) a r := by
  cases a with
  | doNothing =>
    exact (takes_expectKeyword _ _).bind ((takes_takeKeyword_yes _ _).bind (.pure _ r))
  | doUpdate as =>
    simp only [ConflictAction.layout, Layout.size_append, Layout.size_gap] at hs
    have hset := takes_assignments hg (hl as rfl) h (by omega) (.inl hb) hc
    simp only [ConflictAction.layout, Layout.solid_append, Layout.solid_keywords,
      Layout.solid_gap, List.append_assoc]
    refine (takes_expectKeyword _ _).bind ((takes_takeKeyword_no (by simp)).bind ?_)
    refine (takes_expectKeyword _ _).bind ((takes_expectKeyword _ _).bind ?_)
    exact hset.bind (.pure _ r)

theorem takes_onConflict {c : OnConflict} (hl : c.Plain d.dq)
    (h : ∀ p ∈ c.action.parts, p.Obeys (Part.Clear d)) (hs : c.layout.size ≤ bound)
    (hb : breaksExpr (kindAhead d.dq r 0) = true) (hc : kindAhead d.dq r 0 ≠ .symbol .comma) :
    Takes d.dq (onConflict g) (c.layout.solid ++ r) c r := by
  obtain ⟨columns, action⟩ := c
  obtain ⟨hcols, ha⟩ := hl
  simp only [OnConflict.layout, Layout.size_append, Layout.size_gap] at hs
  have hact := takes_conflictAction hg (a := action) (fun as he => by subst he; exact ha) h
    (by omega) hb hc
  have hdo : kindAhead d.dq (action.layout.solid ++ r) 0 ≠ .symbol .leftParen := by
    cases action <;> exact fun he => by cases he
  simp only [OnConflict.layout, Layout.solid_append, Layout.solid_keywords, Layout.solid_gap,
    List.append_assoc]
  refine (takes_expectKeyword _ _).bind ((takes_expectKeyword _ _).bind ?_)
  exact (takes_parensAfterGap hcols fun _ => hdo).bind (hact.bind (.pure _ r))

/-! ## Inserting -/

omit hg in
theorem takes_insertColumns {columns : List Ident} (h : ∀ i ∈ columns, i.Plain dq)
    (hr : columns = [] → kindAhead dq r 0 ≠ .symbol .leftParen) :
    Takes dq insertColumns ((Ident.parensAfterGap columns).solid ++ r) columns r := by
  cases columns with
  | nil =>
    refine (takes_symbolAt_no (hr rfl) (by decide) (by simp)).bind (takes_test_any (fun c => ⟨_, rfl⟩) fun answer => ?_)
    exact .pure [] r
  | cons i columns =>
    have hl : (Ident.parensAfterGap (i :: columns)).solid ++ r =
        (Layout.parens (Ident.listLayout (i :: columns))).solid ++ r := rfl
    have hk : kindAhead dq ((Layout.parens (Ident.listLayout (i :: columns))).solid ++ r) 1 =
        .identifier i.name i.quote := by
      simp only [Layout.parens, Layout.solid_symbol, List.cons_append, kindAhead_succ,
        Ident.listLayout, List.map_cons, Layout.commas, solid_sepBy, Layout.solid_append,
        List.append_assoc]
      exact (h i (by simp)).head _
    rw [hl]
    refine (takes_symbolAt_yes rfl (by decide) (by simp)).bind ((takes_anyKeywordAt_no ?_ ?_).bind ?_)
    · intro w _ he
      rw [hk] at he
      cases he
    · simp [Layout.parens]
    · exact takes_identifiersInParens (by simp) (Ident.Plain.legalAll h)

/-- What is inserted, if it is no query. -/
theorem takes_insertSource {s : InsertSource} (hl : s.Plain) (hq : ∀ q, s ≠ .query q)
    (h : ∀ p ∈ s.parts, p.Obeys (Part.Clear d)) (hs : s.layout.size ≤ bound)
    (hc : kindAhead d.dq r 0 ≠ .symbol .comma) :
    Takes d.dq (insertSource g) (s.layout.solid ++ r) s r := by
  cases s with
  | values rows =>
    have hrows : ∀ row ∈ rows, ∀ e ∈ row, e.Clear d := fun row hrow e he =>
      h (.expr e) (List.mem_map_of_mem (List.mem_flatten_of_mem hrow he))
    refine (takes_keywordAt_yes rfl (by simp)).bind ?_
    exact (takes_valueRows hg hl hrows hs hc).bind (.pure _ r)
  | query q => exact absurd rfl (hq q)
  | defaultValues =>
    refine (takes_keywordAt_no (by simp [InsertSource.layout, Layout.keywords]) (by simp)).bind ?_
    refine (takes_takeKeyword_yes _ _).bind ((takes_expectKeyword _ _).bind ?_)
    exact .pure _ r

omit hg in
/-- In front of the word that begins a query the query is inserted. -/
theorem insertSource_apply {c : Cursor} {l : Layout} (hc : c.At dq l)
    (hk : kindAhead dq l 0 = .keyword .SELECT ∨ kindAhead dq l 0 = .keyword .WITH) :
    insertSource g c = (g.query >>= fun q => pure (InsertSource.query q)) c := by
  have hp : c.peek 0 = .keyword .SELECT ∨ c.peek 0 = .keyword .WITH :=
    hk.imp (hc.peek_eq (by simp) (by simp) (by simp)).2 (hc.peek_eq (by simp) (by simp) (by simp)).2
  have hword : ∀ k ∈ [Keyword.VALUES, .DEFAULT], keywordAt 0 k c = .ok false c := by
    intro k hm
    show EStateM.Result.ok (c.peek 0 == .keyword k) c = _
    simp only [List.mem_cons, List.not_mem_nil, or_false] at hm
    rcases hp with hp | hp <;> rcases hm with rfl | rfl <;> rw [hp] <;> rfl
  have hquery : queryAt 0 c = .ok true c := by
    show EStateM.Result.ok ((c.peek 0).keyword?.any [Keyword.SELECT, .WITH].contains) c = _
    rcases hp with hp | hp <;> rw [hp] <;> rfl
  have hsymbol : symbolAt 0 .leftParen c = .ok false c := by
    show EStateM.Result.ok (c.peek 0 == .symbol .leftParen) c = _
    rcases hp with hp | hp <;> rw [hp] <;> rfl
  have hdefault : takeKeyword .DEFAULT c = .ok false c := by
    simp only [takeKeyword, bind_apply, hword .DEFAULT (by simp), Bool.false_eq_true, if_false]
    rfl
  simp only [insertSource, bind_apply, hword .VALUES (by simp), hdefault, hquery, hsymbol,
    Bool.false_eq_true, if_false, Bool.true_or, if_true]

omit hg in
theorem takes_insertedQuery {q : Query} {l : Layout}
    (hk : kindAhead dq l 0 = .keyword .SELECT ∨ kindAhead dq l 0 = .keyword .WITH)
    (h : Takes dq g.query l q r) : Takes dq (insertSource g) l (.query q) r := fun c hc => by
  rw [insertSource_apply hc hk]
  exact h.bind (.pure (InsertSource.query q) r) c hc

omit hg in
/-- A query at the end of the text is inserted. -/
theorem finishes_insertSource {q : Query} {l : Layout} {n : Nat}
    (hk : kindAhead dq l 0 = .keyword .SELECT ∨ kindAhead dq l 0 = .keyword .WITH)
    (h : Finishes dq g.query l n q) : Finishes dq (insertSource g) l n (.query q) := fun c hc => by
  rw [insertSource_apply hc.toAt hk]
  exact h.bind_pure (f := fun q => pure (InsertSource.query q)) (fun c _ => rfl) c hc

/-- What happens to rows that are there already, at the end of the text. -/
theorem takes_conflictClause {conflict : Option OnConflict} (hl : ∀ c ∈ conflict, c.Plain d.dq)
    (h : ∀ p ∈ conflict.elim [] fun c => c.action.parts, p.Obeys (Part.Clear d))
    (hs : (Layout.optional (fun c : OnConflict => .gap :: c.layout) conflict).size ≤ bound) :
    Takes d.dq (ifKeyword .ON (onConflict g))
      (Layout.optional (fun c : OnConflict => .gap :: c.layout) conflict).solid conflict [] := by
  cases conflict with
  | none => exact takes_ifKeyword_none (by simp)
  | some c =>
    simp only [Layout.optional_some, Layout.size_gap] at hs
    have hc := takes_onConflict (r := []) hg (hl c rfl) h (by omega) rfl (by simp)
    rw [List.append_nil] at hc
    exact takes_ifKeyword_some rfl hc

/-- What an `INSERT` statement is written with in front of its source. -/
def Insert.front (i : Insert) : Layout :=
  [.keyword .INSERT, .gap] ++ Layout.onlyIf i.withInto [.keyword .INTO, .gap] ++ i.table.layout ++
    Ident.parensAfterGap i.columns ++ [.gap]

omit hg in
theorem Insert.layout_eq (i : Insert) :
    i.layout = i.front ++ (i.source.layout ++ Layout.optional (fun c => .gap :: c.layout)
      i.onConflict) := by
  obtain ⟨withInto, table, columns, source, onConflict⟩ := i
  cases onConflict <;> simp [Insert.layout, Insert.front]

omit hg in
/-- An `INSERT` statement, given its source and what is behind it. -/
theorem finishes_insertStatement {i : Insert} (ht : i.table.Plain dq)
    (hc : ∀ c ∈ i.columns, c.Plain dq) {l : Layout} {n : Nat}
    (hk : ∃ k, kindAhead dq l 0 = .keyword k)
    (h : Finishes dq (do
      let source ← insertSource g
      let onConflict ← ifKeyword .ON (onConflict g)
      return { i with source, onConflict }) l n i) :
    Finishes dq (insertStatement g) (i.front.solid ++ l) n i := by
  obtain ⟨withInto, table, columns, source, conflict⟩ := i
  dsimp only at ht hc
  obtain ⟨k, hk⟩ := hk
  have hinto : Takes dq (takeKeyword .INTO)
      ((Layout.onlyIf withInto [.keyword .INTO, .gap]).solid ++
        (table.layout.solid ++ ((Ident.parensAfterGap columns).solid ++ l))) withInto
      (table.layout.solid ++ ((Ident.parensAfterGap columns).solid ++ l)) := by
    cases withInto with
    | true => exact takes_takeKeyword_yes _ _
    | false =>
      obtain ⟨name, quote, hn⟩ := ht.head ((Ident.parensAfterGap columns).solid ++ l)
      exact takes_takeKeyword_no fun he => by cases hn.symm.trans he
  simp only [Insert.front, Layout.solid_append, Layout.solid_keyword, Layout.solid_gap,
    Layout.solid_nil, List.append_assoc, List.cons_append, List.nil_append, List.append_nil]
  refine (takes_expectKeyword _ _).finish (hinto.finish ?_)
  refine (ht.takes (kindAhead_parensAfterGap (by simp) (by simp [hk]))).finish ?_
  exact (takes_insertColumns hc fun _ => by simp [hk]).finish h

/-- An `INSERT` statement whose source is no query is read back. -/
theorem finishes_insertRows {i : Insert} (hl : i.Plain d.dq) (hq : ∀ q, i.source ≠ .query q)
    (h : ∀ p ∈ (Statement.insert i).parts, p.Obeys (Part.Clear d)) (hs : i.layout.size ≤ bound)
    (n : Nat) : Finishes d.dq (insertStatement g) i.layout.solid n i := by
  have hfinish := finishes_insertStatement (g := g) (n := n) hl.1 hl.2.1
    (l := (i.source.layout ++ Layout.optional (fun c => .gap :: c.layout) i.onConflict).solid)
  rw [i.layout_eq, Layout.size_append, Layout.size_append] at hs
  rw [i.layout_eq, Layout.solid_append]
  obtain ⟨withInto, table, columns, source, conflict⟩ := i
  obtain ⟨-, -, hsrc, hon, -⟩ := hl
  dsimp only at hq hsrc hon hs hfinish ⊢
  obtain ⟨h1, h2⟩ := List.forall_mem_append.1 h
  refine hfinish ?_ ?_
  · cases source with
    | values rows => exact ⟨.VALUES, rfl⟩
    | query q => exact absurd rfl (hq q)
    | defaultValues => exact ⟨.DEFAULT, rfl⟩
  · rw [Layout.solid_append]
    have hconflict := takes_conflictClause hg hon h2 (by omega)
    have hsource := takes_insertSource (r := (Layout.optional
      (fun c : OnConflict => .gap :: c.layout) conflict).solid) hg hsrc hq h1 (by omega)
      (by cases conflict <;> exact fun he => by cases he)
    have hread : Takes d.dq (do
        let source ← insertSource g
        let onConflict ← ifKeyword .ON (onConflict g)
        return (⟨withInto, table, columns, source, onConflict⟩ : Insert)) _
        ⟨withInto, table, columns, source, conflict⟩ [] :=
      hsource.bind (hconflict.bind (.pure _ []))
    exact hread.finishes

omit hg in
/-- An `INSERT` statement whose source is a query is read back. -/
theorem finishes_insertQuery {i : Insert} {q : Query} (hl : i.Plain dq) (hq : i.source = .query q)
    {l : Layout} {n : Nat}
    (hk : kindAhead dq l 0 = .keyword .SELECT ∨ kindAhead dq l 0 = .keyword .WITH)
    (h : Finishes dq g.query l n q) :
    Finishes dq (insertStatement g) (i.front.solid ++ l) n i := by
  have hnone : i.onConflict = none := hl.2.2.2.2 q hq
  refine finishes_insertStatement hl.1 hl.2.1 (hk.elim (fun h => ⟨_, h⟩) fun h => ⟨_, h⟩) ?_
  obtain ⟨withInto, table, columns, source, conflict⟩ := i
  obtain rfl : source = .query q := hq
  obtain rfl : conflict = none := hnone
  refine (finishes_insertSource hk h).bind_pure fun c hc => ?_
  simp only [bind_apply, ifKeyword_of_done hc]
  rfl

/-! ## Changing and deleting -/

omit hg in
/-- The end of the text ends every clause. -/
theorem ends_nil (l : Layout) : Ends d l 9 [] :=
  ⟨⟨9, rfl, le_rfl⟩, fun _ => opensExcept_of_ne (by simp)⟩

omit hg in
theorem ends_where (l : Layout) (condition : Option Expr) :
    Ends d l 1 ((Layout.optional (fun e => Layout.behind [.WHERE] e.layout) condition).solid ++ []) :=
  (ends_nil _).clause (by omega) (optional_cases .WHERE [] Expr.layout condition) (by decide)

omit hg in
theorem Update.layout_eq (u : Update) :
    u.layout = [.keyword .UPDATE, .gap] ++ u.table.layout ++ Alias.layoutAfter u.alias? ++
      [.gap, .keyword .SET, .gap] ++ Assignment.listLayout u.assignments ++
      Layout.optional (fun item => Layout.behind [.FROM] (item.layout ++ Join.layouts u.joins))
        u.source ++
      Layout.optional (fun e => Layout.behind [.WHERE] e.layout) u.condition := by
  obtain ⟨table, alias?, as, source, js, condition⟩ := u
  simp only [Update.layout, Expr.whereLayout_eq]
  cases source <;> simp [Layout.behind, Layout.keywords]

theorem takes_updateStatement {u : Update} (hl : u.Legal d.dq)
    (h : ∀ p ∈ (Statement.update u).parts, p.Obeys (Part.Clear d)) (hs : u.layout.size ≤ bound) :
    Takes d.dq (updateStatement g) u.layout.solid u [] := by
  obtain ⟨table, alias?, as, source, js, condition⟩ := u
  obtain ⟨ht, ha, has, hsrc, hj⟩ := hl
  dsimp only at ht ha has hsrc hj
  simp only [Statement.parts, Part.exprs, List.forall_mem_append, List.forall_mem_map,
    List.forall_mem_flatMap, Option.mem_toList] at h
  obtain ⟨⟨⟨h1, h2⟩, h3⟩, h4⟩ := h
  rw [Update.layout_eq] at hs ⊢
  simp only [Layout.size_append] at hs
  -- What stands behind each of the clauses, the last one first.
  have hw := ends_where (d := d) (Layout.optional
    (fun item => Layout.behind [.FROM] (item.layout ++ Join.layouts js)) source) condition
  have hf : Ends d (Assignment.listLayout as) 0 ((Layout.optional
      (fun item => Layout.behind [.FROM] (item.layout ++ Join.layouts js)) source).solid ++
      ((Layout.optional (fun e => Layout.behind [.WHERE] e.layout) condition).solid ++ [])) :=
    (ends_where _ condition).clause (by omega) (optional_cases .FROM []
      (fun item : FromItem => item.layout ++ Join.layouts js) source) (by decide)
  have hopen : Join.endOpen js = true → kindAhead d.dq ((Layout.optional
      (fun e => Layout.behind [.WHERE] e.layout) condition).solid ++ []) 0 ≠ .keyword .ON :=
    fun _ => by cases condition <;> simp
  have hset := takes_assignments hg has h1 (by omega) hf.breaks (hf.ne_of_not_endsJoins rfl)
  have hfrom := takes_fromClause hg hsrc h2 hj h3 (by omega) hw hopen
  have hwhere := takes_exprClause (k := .WHERE) hg h4 (by omega) (ends_nil (d := d) _)
    (by decide)
  rw [List.append_nil] at hwhere hfrom hset
  simp only [Layout.solid_append, Layout.solid_keyword, Layout.solid_gap, List.append_assoc,
    List.cons_append, List.nil_append]
  refine (takes_expectKeyword _ _).bind ((ht.takes ?_).bind ((takes_plainAlias ha ?_).bind ?_))
  · exact kindAhead_plainAlias ha (by simp)
  · exact ⟨by simp, rfl⟩
  · exact (takes_expectKeyword _ _).bind (hset.bind (hfrom.bind (hwhere.bind (.pure _ _))))

theorem takes_deleteStatement {s : Delete} (hl : s.Plain d.dq)
    (h : ∀ p ∈ (Statement.delete s).parts, p.Obeys (Part.Clear d)) (hs : s.layout.size ≤ bound) :
    Takes d.dq (deleteStatement g) s.layout.solid s [] := by
  obtain ⟨withFrom, table, alias?, condition⟩ := s
  obtain ⟨ht, ha⟩ := hl
  dsimp only at ht ha
  simp only [Statement.parts, Part.exprs, List.forall_mem_map, Option.mem_toList] at h
  rw [Delete.layout, Expr.whereLayout_eq] at hs ⊢
  simp only [Layout.size_append] at hs
  have hw := ends_where (d := d) [] condition
  have hwhere := takes_exprClause (k := .WHERE) hg h (by omega) (ends_nil (d := d) _)
    (by decide)
  have hfrom : Takes d.dq (takeKeyword .FROM)
      ((Layout.onlyIf withFrom [.keyword .FROM, .gap]).solid ++ (table.layout.solid ++
        ((Alias.layoutAfter alias?).solid ++ ((Layout.optional
          (fun e => Layout.behind [.WHERE] e.layout) condition).solid ++ [])))) withFrom
      (table.layout.solid ++ ((Alias.layoutAfter alias?).solid ++ ((Layout.optional
        (fun e => Layout.behind [.WHERE] e.layout) condition).solid ++ []))) := by
    cases withFrom with
    | true => exact takes_takeKeyword_yes _ _
    | false =>
      obtain ⟨name, quote, hn⟩ := ht.head ((Alias.layoutAfter alias?).solid ++
        ((Layout.optional (fun e => Layout.behind [.WHERE] e.layout) condition).solid ++ []))
      exact takes_takeKeyword_no fun he => by cases hn.symm.trans he
  simp only [Layout.solid_append, Layout.solid_keyword, Layout.solid_gap, List.append_assoc,
    List.cons_append, List.nil_append]
  rw [← List.append_nil (Layout.optional _ condition).solid]
  refine (takes_expectKeyword _ _).bind (hfrom.bind ((ht.takes ?_).bind ?_))
  · exact kindAhead_plainAlias ha (hw.ne_of_not_endsJoins rfl)
  · refine (takes_plainAlias ha ⟨hw.ne_of_not_endsJoins rfl, hw.startsName⟩).bind ?_
    exact hwhere.bind (.pure _ _)

end Readers

end SqlTree
