import Mathlib
import SqlTree.Proofs.Spending.Expr

/-! # What queries read from and what it takes

* `Expr.RowsRead`, `Join.Read`, `Relation.Read` and the like: what holds of rows, of joined items and
  of sources that are read between two cursors.
* `Select.FromRead`: what holds of all that is read behind `FROM`.
* `spends_fromItem`, `spends_fromClause`: it holds of everything that is read.
-/

namespace SqlTree
set_option autoImplicit false

open Parse

variable {d : Dialect} {c c' : Cursor}

/-! ## How items end -/

namespace Layout

variable {l m : Layout}

theorem ends_append {p : Piece} (hl : l.getLast? ≠ some p) (hm : m.getLast? ≠ some p) :
    (l ++ m).getLast? ≠ some p :=
  fun h => hm (getLast?_behind h hl)

theorem sheds_of_ne (h : l.getLast? ≠ some (.symbol .star)) : l.Sheds d c :=
  fun he => absurd he h

/-- What stands last decides, and the cursor goes on only behind something. -/
theorem Sheds.append (hl : l.Sheds d c) (hm : m.Sheds d c') (h : m = [] → c' = c) :
    (l ++ m).Sheds d c' := by
  intro he
  cases m with
  | nil =>
    rw [h rfl]
    exact hl (by rwa [List.append_nil] at he)
  | cons p m => exact hm (by rwa [List.getLast?_append_cons] at he)

theorem Sheds.behind (words : List Keyword) (h : l.Sheds d c) :
    (Layout.behind words l).Sheds d c := by
  have hb : Layout.behind words l = .gap :: keywords words ++ [.gap] ++ l := by
    simp [Layout.behind]
  intro he
  rw [hb] at he
  exact h (getLast?_behind he (by simp [List.getLast?_cons]))

end Layout

theorem Alias.getLast?_layoutAfter (alias? : Option Alias) (s : Symbol) (hs : s ≠ .rightParen) :
    (Alias.layoutAfter alias?).getLast? ≠ some (.symbol s) := by
  rcases alias? with _ | ⟨name, columns, withAs⟩
  · simp [Alias.layoutAfter]
  · cases columns <;> cases withAs <;> simp [Alias.layoutAfter, Alias.layout, Ident.layout,
      Layout.onlyIf, Layout.parens, List.getLast?_append, List.getLast?_cons, hs.symm]

/-- No item ends with a wildcard. -/
theorem FromItem.getLast?_ne_star (i : FromItem) : i.layout.getLast? ≠ some (.symbol .star) := by
  rw [FromItem.layout_eq]
  refine Layout.ends_append (Layout.ends_append (Layout.ends_append ?_ ?_) ?_) ?_
  · cases i.relation with
    | table name =>
      intro h
      rcases ObjectName.mem_layout (List.mem_of_getLast? h) with he | ⟨w, he⟩ <;> cases he
    | function lead call =>
      simp [Relation.layout, FunctionCall.layout_eq, Layout.parens, List.getLast?_append,
        List.getLast?_cons]
    | _ => simp [Relation.layout, Layout.parens, List.getLast?_cons]
  · exact Alias.getLast?_layoutAfter _ .star (by simp)
  · cases i.pivot with
    | none => simp
    | some p =>
      obtain ⟨aggregates, columns, items, alias?⟩ := p
      rw [Layout.optional_some, Pivot.layout]
      refine Layout.ends_append ?_ (Alias.getLast?_layoutAfter _ .star (by simp))
      simp [Layout.parens, List.getLast?_append, List.getLast?_cons]
  · cases i.unpivot with
    | none => simp
    | some u =>
      rw [Layout.optional_some]
      rcases u with ⟨_ | _ | _, valueColumns, nameColumns, items, alias?⟩ <;> rw [Unpivot.layout] <;>
        refine Layout.ends_append ?_ (Alias.getLast?_layoutAfter _ .star (by simp)) <;>
        simp [Layout.parens, List.getLast?_append, List.getLast?_cons]

/-! ## What holds of items -/

/-- What is written in `l` with the parts `ps` in it was read between two cursors. -/
structure Layout.Taken (d : Dialect) (l : Layout) (ps : List Part) (c c' : Cursor) : Prop where
  fine : ∀ q ∈ ps, q.Fine d
  cost : l.loose + Part.lapsesIn d ps + c'.loose ≤ c.loose

/-- What is written in `l` was read between two cursors, which are one if there is nothing. -/
structure Layout.Read (d : Dialect) (l : Layout) (ps : List Part) (c c' : Cursor) : Prop
    extends Layout.Taken d l ps c c' where
  sheds : l.Sheds d c'
  none : l = [] → c' = c

/-- What holds of rows of values that are read between two cursors. -/
structure Expr.RowsRead (d : Dialect) (rows : List (List Expr)) (c c' : Cursor) : Prop
    extends Layout.Taken d (Layout.valueRows (Expr.rowLayouts rows)) (Part.ofRows rows) c c' where
  ne : rows ≠ []

/-- What holds of a joined item that is read between two cursors. -/
structure Join.Read (d : Dialect) (j : Join) (c c' : Cursor) : Prop
    extends Layout.Taken d j.layout j.parts c c' where
  legal : j.Legal d.dq
  sheds : j.layout.Sheds d c'

/-- What holds of joined items that are read one behind the other. -/
structure Join.ListRead (d : Dialect) (js : List Join) (c c' : Cursor) : Prop
    extends Layout.Read d (Join.layouts js) (js.flatMap Join.parts) c c' where
  legal : ∀ j ∈ js, j.Legal d.dq

/-- What holds of a source of rows that is read between two cursors. -/
structure Relation.Read (d : Dialect) (r : Relation) (c c' : Cursor) : Prop
    extends Layout.Taken d r.layout r.parts c c' where
  legal : r.Legal d.dq

/-- What holds of rows turned into columns as they are read between two cursors. -/
structure Pivot.Read (d : Dialect) (p : Pivot) (c c' : Cursor) : Prop where
  fine : ∀ q ∈ SelectItem.parts (p.aggregates ++ p.items), q.Fine d
  legal : p.Legal d.dq
  cost : p.layout.loose + ((p.aggregates ++ p.items).map SelectItem.lapse).sum +
    Part.lapsesIn d (SelectItem.parts (p.aggregates ++ p.items)) + c'.loose ≤ c.loose

/-- What holds of columns turned into rows as they are read between two cursors. -/
structure Unpivot.Read (d : Dialect) (u : Unpivot) (c c' : Cursor) : Prop where
  fine : ∀ q ∈ SelectItem.parts u.items, q.Fine d
  legal : u.Legal d.dq
  cost : u.layout.loose + (u.items.map SelectItem.lapse).sum +
    Part.lapsesIn d (SelectItem.parts u.items) + c'.loose ≤ c.loose

/-- The written form of what a block reads from. -/
def Select.fromLayout (source : Option FromItem) (joins : List Join) : Layout :=
  Layout.optional (fun item => Layout.behind [.FROM] (item.layout ++ Join.layouts joins)) source

/-- The parts in what a block reads from. -/
def Select.fromParts (source : Option FromItem) (joins : List Join) : List Part :=
  source.toList.map .item ++ joins.flatMap Join.parts

/-- What holds of all that is read behind `FROM` between two cursors. -/
structure Select.FromRead (d : Dialect) (source : Option FromItem) (joins : List Join)
    (c c' : Cursor) : Prop
    extends Layout.Read d (fromLayout source joins) (fromParts source joins) c c' where
  alone : source = .none → joins = []
  legal : ∀ j ∈ joins, j.Legal d.dq

/-! ## One behind the other -/

namespace Layout

variable {l m : Layout} {ps qs : List Part} {e : Cursor}

theorem Taken.append (h : l.Taken d ps c e) (h' : m.Taken d qs e c') :
    (l ++ m).Taken d (ps ++ qs) c c' where
  fine := List.forall_mem_append.2 ⟨h.fine, h'.fine⟩
  cost := by
    have := h.cost
    have := h'.cost
    rw [loose_append, Part.lapsesIn_append]
    omega

theorem Read.append (h : l.Read d ps c e) (h' : m.Read d qs e c') :
    (l ++ m).Read d (ps ++ qs) c c' where
  toTaken := h.toTaken.append h'.toTaken
  sheds := h.sheds.append h'.sheds h'.none
  none hn := by
    rw [List.append_eq_nil_iff] at hn
    exact (h'.none hn.2).trans (h.none hn.1)

theorem taken_nil : Taken d [] [] c c :=
  ⟨by simp, by simp⟩

/-- Pieces without parts. -/
theorem Taken.bare (h : l.loose + c'.loose ≤ c.loose) : l.Taken d [] c c' :=
  ⟨by simp, by simpa using h⟩

theorem read_nil : Read d [] [] c c :=
  ⟨taken_nil, sheds_of_ne (by simp), fun _ => rfl⟩

theorem Taken.behind (words : List Keyword) (h : l.Taken d ps e c')
    (hw : (words.map Keyword.loose).sum + e.loose ≤ c.loose) :
    (Layout.behind words l).Taken d ps c c' where
  fine := h.fine
  cost := by
    have := h.cost
    rw [loose_behind]
    omega

/-- Something is read behind words. -/
theorem Taken.clause (words : List Keyword) (h : l.Taken d ps e c') (hs : l.Sheds d c')
    (hw : (words.map Keyword.loose).sum + e.loose ≤ c.loose) :
    (Layout.behind words l).Read d ps c c' where
  toTaken := h.behind words hw
  sheds := hs.behind words
  none hn := by cases hn

end Layout

theorem Part.Read.taken {p : Part} (h : p.Read d c c') : p.layout.Taken d [p] c c' where
  fine := by simpa using h.fine
  cost := by simpa [Part.cost] using h.cost

/-- A part without lapses of its own. -/
theorem Layout.Taken.part {p : Part} (h : p.layout.Taken d p.children c c')
    (own : p.AllFormed d → p.Legal d) (hk : p.Kept d) : p.Read d c c' :=
  .whole (n := 0) own h.fine (fun _ => hk) h.cost

theorem Part.lapsesIn_flatMap {α : Type} (parts : α → List Part) (as : List α) :
    lapsesIn d (as.flatMap parts) = (as.map fun a => lapsesIn d (parts a)).sum := by
  induction as with
  | nil => rfl
  | cons a as ih => rw [List.flatMap_cons, lapsesIn_append, ih, List.map_cons, List.sum_cons]

theorem Part.ofRows_eq_flatMap (rows : List (List Expr)) :
    ofRows rows = rows.flatMap exprs := by
  rw [ofRows, exprs, List.map_flatten]
  rfl

theorem JoinKind.loose_layout (kind : JoinKind) : kind.layout.loose = 0 := by
  cases kind <;> simp [JoinKind.layout, JoinKind.keywords]

namespace Parse

/-- Items with commas between them. -/
theorem Listed.taken {α : Type} {R : α → Cursor → Cursor → Prop} {as : List α}
    (lay : α → Layout) (parts : α → List Part) (h : Listed R as c c')
    (hR : ∀ a d₁ d₂, R a d₁ d₂ → (lay a).Taken d (parts a) d₁ d₂) :
    (Layout.commas (as.map lay)).Taken d (as.flatMap parts) c c' where
  fine := by
    rw [List.forall_mem_flatMap]
    intro a ha
    obtain ⟨d₁, d₂, h⟩ := h.all a ha
    exact (hR a d₁ d₂ h).fine
  cost := by
    have hsum := h.sum (w := fun a => (lay a).loose + Part.lapsesIn d (parts a))
      fun a d₁ d₂ h => (hR a d₁ d₂ h).cost
    rw [List.sum_map_add, ← Part.lapsesIn_flatMap] at hsum
    simpa [Function.comp_def] using hsum

theorem InTurn.joins {js : List Join} (h : InTurn (Join.Read d) js c c') :
    Join.ListRead d js c c' := by
  induction h with
  | nil c => exact ⟨Layout.read_nil, by simp⟩
  | @cons j js c e c' hj _ ih =>
    refine ⟨⟨hj.toTaken.append ih.toTaken, hj.sheds.append ih.sheds ih.none, ?_⟩,
      List.forall_mem_cons.2 ⟨hj.legal, ih.legal⟩⟩
    obtain ⟨kind, item, constraint⟩ := j
    simp [Join.layouts, Join.layout]

theorem Spends.ifKeyword {dq : Bool} {α : Type} {item : Parse α} {Q : α → Cursor → Prop}
    {k : Keyword} (h : Spends dq c item Q) :
    Spends dq c (ifKeyword k item) fun o c' => o.elim (c' = c) fun a => Q a c' :=
  .keywordAt (fun _ => h.bind fun _ _ _ ha => .pure ha) fun _ => .pure rfl

variable {g : Productions} (hg : g.Read d)
include hg

/-! ## Rows of values -/

theorem spends_valueRow : Spends d.dq c (valueRow g) fun row c' =>
    (Expr.rowLayout row).Taken d (Part.exprs row) c c' := by
  have hbehind : ∀ (row : List Expr) (e : Cursor), (∀ q ∈ Part.exprs row, q.Fine d) →
      Part.costs d (Part.exprs row) + e.loose ≤ c.loose →
      Spends d.dq e (do expectSymbol .rightParen; return row) fun row c' =>
        (Expr.rowLayout row).Taken d (Part.exprs row) c c' := by
    refine fun row e hf hc => .expectSymbol fun _ h => .pure ⟨hf, ?_⟩
    have hl : (Expr.rowLayout row).loose = Part.looses (Part.exprs row) := by
      simp [Expr.rowLayout, Function.comp_def]
    rw [Part.costs_eq] at hc
    omega
  refine .expectSymbol fun _ h₁ => .symbolAt (fun _ => ?_) fun _ => ?_
  · exact hbehind [] _ (by simp [Part.exprs]) (by simpa [Part.exprs] using h₁)
  · exact (spends_exprList hg).bind fun row e _ h => hbehind row e h.2.fine (h.2.cost.trans h₁)

theorem spends_valueRows : Spends d.dq c (valueRows g) fun rows c' => Expr.RowsRead d rows c c' := by
  refine .expectKeyword fun _ h₁ => (Spends.commaList fun _ _ => spends_valueRow hg).mono
    fun rows c' _ h => ⟨?_, h.ne⟩
  have hrows := h.taken _ _ fun _ _ _ h => h
  rw [← Part.ofRows_eq_flatMap] at hrows
  refine ⟨hrows.fine, ?_⟩
  have hcost := hrows.cost
  simp [Layout.valueRows, Expr.rowLayouts_eq_map] at h₁ hcost ⊢
  omega

/-! ## Rows into columns, columns into rows -/

omit hg in
theorem spends_columnName : Spends d.dq c columnName fun col c' =>
    col.Legal d.dq ∧ col.layout.loose + c'.loose ≤ c.loose :=
  spends_dottedName.bind fun _ _ _ h => .pure h.columnOf

omit hg in
theorem spends_oneOrMoreColumns : Spends d.dq c oneOrMoreColumns fun cols c' =>
    (cols ≠ [] ∧ ∀ col ∈ cols, col.Legal d.dq) ∧
      (cols.map fun col => col.layout.loose).sum + c'.loose ≤ c.loose := by
  refine .takeSymbol (fun _ h₁ => ?_) fun _ => spends_columnName.bind fun col e _ ⟨hl, hc⟩ =>
    .pure ⟨by simpa using hl, by simpa using hc⟩
  refine (Spends.commaList fun _ _ => spends_columnName).bind fun cols e _ h =>
    .expectSymbol fun _ h₂ => .pure ⟨⟨h.ne, fun col hcol => ?_⟩, ?_⟩
  · obtain ⟨_, _, hl, -⟩ := h.all col hcol
    exact hl
  · have := h.sum (w := fun col => col.layout.loose) fun _ _ _ h => h.2
    omega

theorem spends_closingItems : Spends d.dq c (closingItems g) fun items c' =>
    SelectItem.LegalList d.dq items ∧ (∀ q ∈ SelectItem.parts items, q.Fine d) ∧
      (items.map (SelectItem.cost d)).sum + c'.loose ≤ c.loose := by
  refine .expectKeyword fun _ h₁ => .expectSymbol fun _ h₂ => (spends_selectItems hg).bind
    fun items e _ ⟨hne, h⟩ => .expectSymbol fun _ h₃ => .expectSymbol fun _ h₄ =>
      .pure ⟨⟨hne, h.legal⟩, h.fine, ?_⟩
  have := h.cost
  omega

theorem spends_pivot : Spends d.dq c (pivot g) fun p c' => p.Read d c c' := by
  refine .expectKeyword fun _ h₁ => .expectSymbol fun _ h₂ => (spends_selectItems hg).bind
    fun aggregates e₁ _ ⟨hane, ha⟩ => .expectKeyword fun _ h₃ => spends_oneOrMoreColumns.bind
      fun columns e₂ _ ⟨hcl, hcc⟩ => (spends_closingItems hg).bind
        fun items e₃ _ ⟨hil, hif, hic⟩ => spends_optionalAlias.bind fun alias? e₄ _ ⟨hal, hacol⟩ =>
          .pure ⟨?_, ?_, ?_⟩
  · simp only [SelectItem.parts, List.map_append, List.forall_mem_append]
    exact ⟨ha.fine, hif⟩
  · exact ⟨⟨hane, ha.legal⟩, hcl, hil, fun a h => ⟨hal.legal a h, hacol a h⟩⟩
  · have hac := ha.cost
    have hals := hal.cost
    rw [SelectItem.sum_cost] at hac hic
    simp [Pivot.layout, SelectItem.layouts_eq_map, SelectItem.parts, Function.comp_def] at h₁ hac hic ⊢
    omega

omit hg in
theorem spends_includeNulls : Spends d.dq c includeNulls fun _ _ => True :=
  .takeKeyword (fun _ _ => .expectKeyword fun _ _ => .pure trivial) fun _ =>
    .takeKeyword (fun _ _ => .expectKeyword fun _ _ => .pure trivial) fun _ => .pure trivial

theorem spends_unpivot : Spends d.dq c (unpivot g) fun u c' => u.Read d c c' := by
  refine .expectKeyword fun _ h₁ => spends_includeNulls.bind fun includeNulls e₀ h₀ _ =>
    .expectSymbol fun _ h₂ => spends_oneOrMoreIdentifiers.bind fun values e₁ _ ⟨hvne, hv⟩ =>
      .expectKeyword fun _ h₃ => spends_oneOrMoreIdentifiers.bind fun names e₂ _ ⟨hnne, hn⟩ =>
        (spends_closingItems hg).bind fun items e₃ _ ⟨hil, hif, hic⟩ =>
          spends_optionalAlias.bind fun alias? e₄ _ ⟨hal, hacol⟩ => .pure ⟨hif, ?_, ?_⟩
  · exact ⟨⟨hvne, hv.legal⟩, ⟨hnne, hn.legal⟩, hil, fun a h => ⟨hal.legal a h, hacol a h⟩⟩
  · have hvc := hv.cost
    have hnc := hn.cost
    have hals := hal.cost
    rw [SelectItem.sum_cost] at hic
    rcases includeNulls with _ | _ | _ <;>
      simp [Unpivot.layout, SelectItem.layouts_eq_map, Function.comp_def] at h₁ hic ⊢ <;> omega

/-! ## Joins -/

omit hg in
theorem spends_joinKind : Spends d.dq c joinKind fun o c' => o = none → c' = c := by
  have houter : ∀ kind, Spends d.dq c (outerJoin kind) fun o c' => o = none → c' = c := by
    have hend : ∀ kind e, Spends d.dq e (do expectKeyword .JOIN; return some kind : Parse (Option JoinKind))
        fun o c' => o = none → c' = c := fun _ _ => .expectKeyword fun _ _ => .pure (by simp)
    exact fun kind => .advance fun _ => .takeKeyword (fun _ _ => hend kind _) fun _ => hend kind _
  refine .current ?_
  split
  · exact .advance fun _ => .pure (by simp)
  · exact .advance fun _ => .pure (by simp)
  · exact .advance fun _ => .expectKeyword fun _ _ => .pure (by simp)
  · exact houter _
  · exact houter _
  · exact houter _
  · exact .advance fun _ => .expectKeyword fun _ _ => .pure (by simp)
  · exact .pure fun _ => rfl

/-- A joined item behind what is read of it in front of its condition. -/
theorem spends_joinConstraint {item : FromItem} {b : Cursor} (kind : JoinKind)
    (hi : (Part.item item).Read d b c) :
    Spends d.dq c (joinConstraint g) fun constraint c' =>
      Join.Read d ⟨kind, item, constraint⟩ b c' := by
  have hkind := kind.loose_layout
  have hitem : ∀ condition : Bool, (Layout.onlyIf condition [.gap] ++ kind.layout ++
      .gap :: item.layout).Taken d [.item item] b c := by
    refine fun condition => ⟨hi.taken.fine, ?_⟩
    have := hi.taken.cost
    cases condition <;> simpa [hkind, Part.layout] using this
  have hstar : ∀ l : Layout, (l ++ .gap :: item.layout).Sheds d c := by
    refine fun l he => absurd ?_ item.getLast?_ne_star
    rw [List.append_cons] at he
    exact Layout.getLast?_behind he (by simp)
  refine .takeKeyword (fun _ h₁ => ?_) fun _ => .takeKeyword (fun _ h₁ => ?_) fun _ => ?_
  · refine (hg.expr 0 (Nat.zero_le _) _).bind fun e e₁ _ he =>
      .pure ⟨(hitem _).append (he.1.taken.behind [.ON] ?_), trivial, ?_⟩
    · simpa using h₁
    · exact (hstar _).append (he.1.sheds.behind [.ON]) (by simp [JoinConstraint.layout])
  · refine spends_identifiersInParens.bind fun columns e₁ _ hcolumns => .pure ?_
    obtain ⟨hne, h⟩ := hcolumns
    refine ⟨?_, ⟨hne, h.legal⟩, ?_⟩
    · refine (hitem _).append (.bare ?_)
      have := h.cost
      simp [JoinConstraint.layout] at h₁ ⊢
      omega
    · refine Layout.sheds_of_ne ?_
      simp [Join.layout, JoinConstraint.layout, Layout.parens, List.getLast?_append,
        List.getLast?_cons]
  · refine .pure ⟨(hitem _).append Layout.taken_nil, trivial, ?_⟩
    rw [Join.layout, JoinConstraint.layout, List.append_nil]
    exact hstar _

theorem spends_join : Spends d.dq c (join g) fun o c' =>
    o.elim (c' = c) fun j => j.Read d c c' := by
  refine spends_joinKind.bind fun o e h hnone => ?_
  cases o with
  | none => exact .pure (hnone rfl)
  | some kind =>
    refine (hg.fromItem e).bind fun item e₁ _ hi => ?_
    exact (spends_joinConstraint hg kind (hi.behind h)).bind fun _ _ _ hj => .pure hj

theorem spends_joins : Spends d.dq c (joins g) fun js c' => Join.ListRead d js c c' :=
  (Spends.collect fun _ _ => spends_join hg).mono fun _ _ _ h => h.joins

theorem spends_fromClause : Spends d.dq c (fromClause g) fun x c' =>
    Select.FromRead d x.1 x.2 c c' := by
  refine .takeKeyword (fun _ h₁ => ?_) fun _ => .pure ⟨Layout.read_nil, fun _ => rfl, by simp⟩
  refine (hg.fromItem _).bind fun item e₁ _ hi => (spends_joins hg).bind fun js e₂ _ hj =>
    .pure ⟨?_, by simp, hj.legal⟩
  refine (hi.taken.append hj.toTaken).clause [.FROM] ?_ (by simpa using h₁)
  exact (Layout.sheds_of_ne item.getLast?_ne_star).append hj.sheds hj.none

/-! ## Sources -/

theorem spends_parenthesizedRelation : Spends d.dq c (parenthesizedRelation g)
    fun r c' => r.Read d c c' := by
  have hbehind : ∀ (r : Relation) (e : Cursor), r.Read d c e →
      Spends d.dq e (do expectSymbol .rightParen; return r) fun r c' => r.Read d c c' :=
    fun r e hr => .expectSymbol fun _ h => .pure
      ⟨⟨hr.fine, (Nat.add_le_add_left h _).trans hr.cost⟩, hr.legal⟩
  refine .advance fun h₁ => .look (g := fun c => c.opensQuery 0) (fun _ => rfl)
    (.look (g := fun c => c.peek 0 == .keyword .VALUES) (fun _ => rfl)
      (.ite (fun hq => ?_) fun _ => .ite (fun _ => ?_) fun _ => ?_))
  · refine Spends.bind (.map ((hg.query _).mono fun q e _ ⟨h, hopens⟩ => ?_))
      fun r e _ => hbehind r e
    have hc := h.taken.cost
    refine ⟨⟨h.taken.fine, ?_⟩, hopens hq⟩
    simp [Relation.layout, Relation.parts, Part.layout] at hc ⊢
    omega
  · refine Spends.bind (.map ((spends_valueRows hg).mono fun rows e _ h => ?_))
      fun r e _ => hbehind r e
    have hc := h.cost
    refine ⟨⟨h.fine, ?_⟩, h.ne⟩
    simp [Relation.layout, Relation.parts] at hc ⊢
    omega
  · refine Spends.bind ((hg.fromItem _).bind fun item e₁ _ hi => (spends_joins hg).bind
      fun js e₂ _ hj => .pure ?_) fun r e _ => hbehind r e
    have h := hi.taken.append hj.toTaken
    have hc := h.cost
    refine ⟨⟨h.fine, ?_⟩, hj.legal⟩
    simp [Relation.layout, Relation.parts, Part.layout] at hc ⊢
    omega

/-- A call of a function that gives rows. -/
theorem spends_functionRelation {name : ObjectName} {lead : Option String} {b : Cursor}
    (hlead : lead = none ∨ lead = some Keyword.LATERAL.text) (hname : name.Legal d.dq)
    (hc : name.layout.loose + c.loose ≤ b.loose) :
    Spends d.dq c (functionCall g name >>= fun call => pure (Relation.function lead call))
      fun r c' => r.Read d b c' := by
  refine (spends_functionCall hg name).bind fun call e _ ⟨hn, hf, hcost⟩ => .pure ?_
  obtain ⟨called, distinct, es⟩ := call
  obtain rfl : called = name := hn
  refine ⟨⟨hf, ?_⟩, hlead, hname⟩
  have hl : (Relation.function lead ⟨called, distinct, es⟩).layout.loose =
      called.layout.loose + Part.looses (Part.exprs es) := by
    have hw : looseCount Keyword.LATERAL.text.toList = 0 := Keyword.LATERAL.looseCount_text
    rcases hlead with rfl | rfl <;> simp [Relation.layout, FunctionCall.layout_eq,
      Expr.layouts_eq_map, Function.comp_def, hw]
  rw [hl]
  dsimp only at hcost
  rw [Part.costs_eq] at hcost
  simp only [Relation.parts]
  omega

theorem spends_lateralRelation : Spends d.dq c (lateralRelation g) fun r c' => r.Read d c c' := by
  refine .advance fun h₁ => .takeSymbol (fun _ h₂ => ?_) fun _ => ?_
  · refine (hg.query _).bind fun q e _ ⟨h, _⟩ => .expectSymbol fun _ h₃ => .pure ?_
    have hc := h.taken.cost
    refine ⟨⟨h.taken.fine, ?_⟩, trivial⟩
    simp [Relation.layout, Relation.parts, Part.layout] at hc ⊢
    omega
  · refine spends_objectName.bind fun name e _ hn => ?_
    exact spends_functionRelation hg (.inr rfl) hn.legal (hn.cost.trans h₁)

theorem spends_namedRelation : Spends d.dq c (namedRelation g) fun r c' => r.Read d c c' := by
  refine spends_objectName.bind fun name e _ hn => .symbolAt (fun _ => ?_) fun _ => .pure ?_
  · exact spends_functionRelation hg (.inl rfl) hn.legal hn.cost
  · exact ⟨⟨by simp [Relation.parts], by simpa [Relation.layout, Relation.parts] using hn.cost⟩, hn.legal⟩

theorem spends_relation : Spends d.dq c (relation g) fun r c' => r.Read d c c' := by
  refine .current ?_
  split
  · exact spends_parenthesizedRelation hg
  · exact spends_lateralRelation hg
  · exact spends_namedRelation hg

theorem spends_fromItem : Spends d.dq c (fromItem g) fun i c' => (Part.item i).Read d c c' := by
  refine (spends_relation hg).bind fun r e₁ _ hr => spends_tableAlias.bind fun alias? e₂ _ ha => ?_
  refine (spends_pivot hg).ifKeyword.bind fun pivot e₃ _ hp => ?_
  refine (spends_unpivot hg).ifKeyword.bind fun unpivot e₄ _ hu => .pure ?_
  have hrc := hr.cost
  have hac := ha.cost
  refine .whole
    (n := (pivot.elim 0 fun p => ((p.aggregates ++ p.items).map SelectItem.lapse).sum) +
      unpivot.elim 0 fun u => (u.items.map SelectItem.lapse).sum) (fun _ => ?_) ?_ (fun hn => ?_) ?_
  · refine ⟨hr.legal, ha.legal, ?_, ?_⟩
    · rintro p rfl
      exact hp.legal
    · rintro u rfl
      exact hu.legal
  · simp only [Part.children, FromItem.children, List.forall_mem_append]
    refine ⟨⟨hr.fine, ?_⟩, ?_⟩
    · cases pivot with
      | none => simp
      | some p => exact hp.fine
    · cases unpivot with
      | none => simp
      | some u => exact hu.fine
  · rw [Nat.add_eq_zero_iff] at hn
    refine ⟨?_, ?_⟩
    · rintro p rfl
      exact SelectItem.faithful_of_lapse hn.1
    · rintro u rfl
      exact SelectItem.faithful_of_lapse hn.2
  · have hpc : (Layout.optional Pivot.layout pivot).loose +
        (pivot.elim 0 fun p => ((p.aggregates ++ p.items).map SelectItem.lapse).sum) +
        Part.lapsesIn d (pivot.elim [] fun p => SelectItem.parts (p.aggregates ++ p.items)) +
        e₃.loose ≤ e₂.loose := by
      cases pivot with
      | none =>
        obtain rfl : e₃ = e₂ := hp
        simp
      | some p => exact hp.cost
    have huc : (Layout.optional Unpivot.layout unpivot).loose +
        (unpivot.elim 0 fun u => (u.items.map SelectItem.lapse).sum) +
        Part.lapsesIn d (unpivot.elim [] fun u => SelectItem.parts u.items) + e₄.loose ≤ e₃.loose := by
      cases unpivot with
      | none =>
        obtain rfl : e₄ = e₃ := hu
        simp
      | some u => exact hu.cost
    simp only [Part.layout, FromItem.layout_eq, Layout.loose_append, Part.children,
      FromItem.children, Part.lapsesIn_append]
    omega

end Parse

end SqlTree
