import Mathlib
import SqlTree.Proofs.Reading.Head
import SqlTree.Proofs.Spending.Name

/-! # Expressions that are read and what they take

* `Expr.Read d e c c'`: what holds of an expression that is read between two cursors.
* `Productions.Read d g`: it holds of whatever the readers `g` of whole trees answer.
* `spends_primary`: expressions without operators around them.

Struct values in braces are left out: in their written form a value can run into the colon behind
its key.
-/

namespace SqlTree
set_option autoImplicit false

open Parse

variable {d : Dialect} {c c' : Cursor}

/-! ## How pieces end -/

/-- Whether `EXCEPT` with columns to leave out stands ahead, as far as a dialect has it. -/
def Cursor.opensExcept (d : Dialect) (c : Cursor) : Bool :=
  d.wildcardExcept && c.peek 0 == .keyword .EXCEPT && c.peek 1 == .symbol .leftParen &&
    !c.opensQuery 2

/-- What is written in `l` was read up to a cursor: if it ends with a wildcard, no columns to leave
out stand behind it. -/
def Layout.Sheds (d : Dialect) (l : Layout) (c : Cursor) : Prop :=
  l.getLast? = some (.symbol .star) → c.opensExcept d = false

/-- A last piece that is in the last part of a layout. -/
theorem Layout.getLast?_behind {l m : Layout} {p : Piece} (h : (l ++ m).getLast? = some p)
    (hl : l.getLast? ≠ some p) : m.getLast? = some p := by
  rw [List.getLast?_append] at h
  cases hm : m.getLast? with
  | none =>
    rw [hm] at h
    exact absurd h hl
  | some q => simpa [hm] using h

theorem Layout.getLast?_parensIf {wrap : Bool} {l : Layout} {p : Piece}
    (h : (Layout.parensIf wrap l).getLast? = some p) (hp : p ≠ .symbol .rightParen) :
    l.getLast? = some p := by
  cases wrap with
  | true =>
    simp only [Layout.parensIf, Layout.parens, if_true, ← List.cons_append, List.getLast?_append,
      List.getLast?_singleton, Option.some_or, Option.some.injEq] at h
    exact absurd h.symm hp
  | false => exact h

/-! ## What holds of expressions -/

/-- What holds of an expression that is read between two cursors. It begins with `NULL` only if that
stands at the first one. -/
structure Expr.Read (d : Dialect) (e : Expr) (c c' : Cursor) : Prop
    extends (Part.expr e).Read d c c' where
  begins : e.layout.Begins d.dq (c.peek 0 = .keyword .NULL)
  sheds : e.layout.Sheds d c'
  double : e.layout.getLast? = some (.keyword .DOUBLE) →
    isWord "PRECISION" (c'.peek 0) = true → (Part.expr e).cost d + c'.loose < c.loose

/-- What holds of expressions that are read one behind the other. -/
structure Expr.ListRead (d : Dialect) (es : List Expr) (c c' : Cursor) : Prop where
  fine : ∀ q ∈ Part.exprs es, q.Fine d
  cost : Part.costs d (Part.exprs es) + c'.loose ≤ c.loose
  sheds : ∀ e ∈ es.getLast?, e.layout.Sheds d c'

/-- What holds of an expression that may be there. -/
structure Expr.OptionRead (d : Dialect) (e? : Option Expr) (c c' : Cursor) : Prop where
  fine : ∀ q ∈ Part.exprs e?.toList, q.Fine d
  cost : Part.costs d (Part.exprs e?.toList) + c'.loose ≤ c.loose
  none : e? = none → c' = c
  sheds : ∀ e ∈ e?, e.layout.Sheds d c'

/-- What holds of an item that is read between two cursors. -/
structure SelectItem.Read (d : Dialect) (i : SelectItem) (c c' : Cursor) : Prop where
  fine : (Part.expr i.expr).Fine d
  legal : i.Legal d.dq
  cost : i.cost d + c'.loose ≤ c.loose
  sheds : i.layout.Sheds d c'

/-- What holds of items that are read one behind the other. -/
structure SelectItem.ListRead (d : Dialect) (items : List SelectItem) (c c' : Cursor) : Prop where
  fine : ∀ q ∈ SelectItem.parts items, q.Fine d
  legal : ∀ i ∈ items, i.Legal d.dq
  cost : (items.map (SelectItem.cost d)).sum + c'.loose ≤ c.loose
  sheds : ∀ i ∈ items.getLast?, i.layout.Sheds d c'

/-- What readers of whole trees answer is what the grammar makes of it, apart from lapses, and a query
behind its first word begins with it. -/
structure Productions.Read (d : Dialect) (g : Productions) : Prop where
  expr : ∀ power ≤ castPower, ∀ c, Spends d.dq c (g.expr power) fun e c' =>
    e.Read d c c' ∧ ∀ k ∈ c'.reach, k < e.rightEdge
  query : ∀ c, Spends d.dq c g.query fun q c' =>
    (Part.query q).Read d c c' ∧ (c.opensQuery 0 = true → q.opens = true)
  fromItem : ∀ c, Spends d.dq c g.fromItem fun i c' => (Part.item i).Read d c c'

theorem Productions.read_exhausted : Productions.exhausted.Read d :=
  ⟨fun _ _ _ => .stop _, fun _ => .stop _, fun _ => .stop _⟩

/-- An expression that ends with a mark of its own. -/
theorem Expr.Read.closed {e : Expr} (h : (Part.expr e).Read d c c')
    (hb : e.layout.Begins d.dq (c.peek 0 = .keyword .NULL))
    (hstar : e.layout.getLast? ≠ some (.symbol .star))
    (hdouble : e.layout.getLast? ≠ some (.keyword .DOUBLE)) : e.Read d c c' :=
  ⟨h, hb, fun he => absurd he hstar, fun he => absurd he hdouble⟩

theorem Expr.optionRead_none : Expr.OptionRead d none c c :=
  ⟨by simp [Part.exprs], by simp [Part.exprs], fun _ => rfl, by simp⟩

theorem Expr.Read.option {e : Expr} (h : e.Read d c c') : Expr.OptionRead d (some e) c c' := by
  refine ⟨?_, ?_, nofun, ?_⟩
  · simpa [Part.exprs] using h.fine
  · simpa [Part.exprs] using h.cost
  · simpa using h.sheds

/-- An expression without parts. -/
theorem Part.Read.leaf {e : Expr} (hc : e.children = []) (own : e.Legal d) (kept : e.Kept d.dq)
    (h : e.layout.loose + c'.loose ≤ c.loose) : (Part.expr e).Read d c c' := by
  refine .node (m := e.layout.loose) (n := 0) (fun _ => own) ?_ ?_ (fun _ => kept) ?_
  · simp [Part.children, hc]
  · exact Nat.le_add_right _ _
  · simpa [Part.children, hc] using h

/-! ## Columns -/

/-- The column that names with points between them spell is written with these names. -/
theorem layout_columnOf (first : Ident) (more : List Ident) :
    (columnOf first more).table ≠ some ⟨[]⟩ ∧ (columnOf first more).names = first :: more ∧
      (columnOf first more).layout = ObjectName.layout ⟨first :: more⟩ := by
  have hnames : (columnOf first more).names = first :: more := by
    unfold columnOf
    cases hl : more.getLast? with
    | none => simp_all [ColumnRef.names]
    | some name =>
      have hm := List.dropLast_append_getLast? name hl
      simp only [ColumnRef.names, Option.elim, List.cons_append, hm]
  have htable : (columnOf first more).table ≠ some ⟨[]⟩ := by
    unfold columnOf
    split <;> simp
  obtain ⟨first', more', hn, -, hl⟩ := ColumnRef.exists_names htable
  obtain ⟨rfl, rfl⟩ := List.cons.inj (hnames.symm.trans hn)
  exact ⟨htable, hnames, hl⟩

/-- Names are written with points between words. -/
theorem ObjectName.mem_layout {n : ObjectName} {p : Piece} (h : p ∈ n.layout) :
    p = .symbol .dot ∨ ∃ w, p = .word w := by
  obtain ⟨parts⟩ := n
  rw [ObjectName.layout] at h
  induction parts with
  | nil => simp [Layout.sepBy] at h
  | cons i parts ih =>
    cases parts with
    | nil => exact .inr ⟨i.text, by simpa [Layout.sepBy, Ident.layout] using h⟩
    | cons j parts =>
      simp only [List.map_cons, Layout.sepBy, List.mem_append, List.mem_singleton] at h
      rcases h with (h | h) | h
      · exact .inr ⟨i.text, by simpa [Ident.layout] using h⟩
      · exact .inl h
      · exact ih h

/-- A column that is read as names with points between them. -/
theorem ObjectName.Read.columnOf {first : Ident} {more : List Ident}
    (h : ObjectName.Read d.dq ⟨first :: more⟩ c c') :
    (Parse.columnOf first more).Legal d.dq ∧
      (Parse.columnOf first more).layout.loose + c'.loose ≤ c.loose := by
  obtain ⟨htable, hnames, hl⟩ := layout_columnOf first more
  exact ⟨⟨htable, fun i hi => h.legal.2 i (hnames ▸ hi)⟩, hl ▸ h.cost⟩

theorem ObjectName.Read.column {first : Ident} {more : List Ident}
    (h : ObjectName.Read d.dq ⟨first :: more⟩ c c') :
    (Expr.column (Parse.columnOf first more)).Read d c c' := by
  obtain ⟨-, -, hl⟩ := layout_columnOf first more
  have hlast : ∀ p : Piece, (∀ w, p ≠ .word w) → p ≠ .symbol .dot →
      (Expr.column (Parse.columnOf first more)).layout.getLast? ≠ some p := by
    intro p hw hd hp
    rw [Expr.layout, hl] at hp
    rcases ObjectName.mem_layout (List.mem_of_getLast? hp) with he | ⟨w, he⟩
    · exact hd he
    · exact hw w he
  refine .closed (.leaf rfl h.columnOf.1 trivial h.columnOf.2) ?_ (hlast _ (by simp) (by simp))
    (hlast _ (by simp) (by simp))
  rw [Expr.layout, hl]
  exact h.begins

namespace Parse

variable {g : Productions} (hg : g.Read d)

theorem Listed.exprs {es : List Expr} (h : Listed (Expr.Read d) es c c') :
    Expr.ListRead d es c c' where
  fine := by
    simp only [Part.exprs, List.forall_mem_map]
    intro e he
    obtain ⟨_, _, h⟩ := h.all e he
    exact h.fine
  cost := by
    have hs := h.sum (w := fun e => (Part.expr e).cost d) fun _ _ _ h => h.cost
    simpa [Part.costs, Part.exprs, Function.comp_def] using hs
  sheds e he := by
    obtain ⟨_, h⟩ := h.last e he
    exact h.sheds

theorem Listed.items {items : List SelectItem} (h : Listed (SelectItem.Read d) items c c') :
    SelectItem.ListRead d items c c' where
  fine := by
    simp only [SelectItem.parts, List.forall_mem_map]
    intro i hi
    obtain ⟨_, _, h⟩ := h.all i hi
    exact h.fine
  legal i hi := by
    obtain ⟨_, _, h⟩ := h.all i hi
    exact h.legal
  cost := h.sum fun _ _ _ h => h.cost
  sheds i hi := by
    obtain ⟨_, h⟩ := h.last i hi
    exact h.sheds

include hg

theorem spends_exprList : Spends d.dq c (exprList g) fun es c' =>
    es ≠ [] ∧ Expr.ListRead d es c c' :=
  (Spends.commaList (R := Expr.Read d) fun e _ =>
    (hg.expr 0 (Nat.zero_le _) e).mono fun _ _ _ h => h.1).mono fun _ _ _ h => ⟨h.ne, h.exprs⟩

/-- An expression behind a keyword, if that is there. -/
theorem spends_exprAfter (k : Keyword) : Spends d.dq c (afterKeyword k (g.expr 0)) fun e? c' =>
    Expr.OptionRead d e? c c' := by
  refine (Spends.afterKeyword (Q := fun e c' => Expr.OptionRead d (some e) c c') fun _ hle =>
    (hg.expr 0 (Nat.zero_le _) _).mono fun e c' _ h => ?_).mono fun e? c' _ h => ?_
  · have hs := h.1.option
    exact ⟨hs.fine, by have := hs.cost; omega, nofun, hs.sheds⟩
  · cases e? with
    | none =>
      obtain rfl : c' = c := h
      exact Expr.optionRead_none
    | some e => exact h

/-! ## Items -/

theorem spends_selectItem : Spends d.dq c (selectItem g) fun i c' => i.Read d c c' := by
  refine (hg.expr 0 (Nat.zero_le _) c).bind fun e e₁ _ hexpr => .ite (fun hw => .pure ?_) fun hw => ?_
  all_goals obtain ⟨he, -⟩ := hexpr
  · have hf : (⟨e, none⟩ : SelectItem).lapse ≤ 0 := SelectItem.lapse_le fun _ _ _ => by simp
    refine ⟨he.fine, ⟨fun _ => rfl, by simp⟩, ?_, ?_⟩
    · have := he.cost
      simp only [SelectItem.cost, Alias.layoutAfter, Layout.loose_nil]
      omega
    · simpa [SelectItem.layout, Alias.layoutAfter] using he.sheds
  · refine spends_optionalAlias.bind fun alias? e₂ _ halias => .pure ?_
    obtain ⟨ha, hcolumns⟩ := halias
    refine ⟨he.fine, ⟨fun h => absurd h hw, fun a hm => ⟨ha.legal a hm, hcolumns a hm⟩⟩, ?_, ?_⟩
    · have hcost := he.cost
      have halias := ha.cost
      by_cases hf : (⟨e, alias?⟩ : SelectItem).Faithful
      · have hlapse : (⟨e, alias?⟩ : SelectItem).lapse ≤ 0 := SelectItem.lapse_le fun _ => hf
        simp only [SelectItem.cost]
        omega
      · -- The alias is read with the type in front of it only if the type has lost a word.
        have hlapse : (⟨e, alias?⟩ : SelectItem).lapse ≤ 1 := SelectItem.lapse_le (by simp)
        simp only [SelectItem.Faithful, not_forall] at hf
        obtain ⟨hd, a, hm, hbare, hp⟩ := hf
        have hstrict := he.double hd (ha.bare a hm hbare (by simpa using hp))
        simp only [SelectItem.cost]
        omega
    · cases alias? with
      | none =>
        obtain rfl := ha.none rfl
        simpa [SelectItem.layout, Alias.layoutAfter] using he.sheds
      | some a =>
        intro hl
        have hc := hcolumns a rfl
        simp [SelectItem.layout, Alias.layoutAfter, Alias.layout, Ident.layout, hc, Layout.onlyIf,
          List.getLast?_append, List.getLast?_cons] at hl

theorem spends_selectItems : Spends d.dq c (selectItems g) fun items c' =>
    items ≠ [] ∧ SelectItem.ListRead d items c c' :=
  (Spends.commaList (R := SelectItem.Read d) fun _ _ => spends_selectItem hg).mono
    fun _ _ _ h => ⟨h.ne, h.items⟩

/-- An argument of a call. -/
theorem spends_argument : Spends d.dq c (argument g) fun e c' => e.Read d c c' := by
  refine .queryAt (fun hq => ?_) fun _ => (hg.expr 0 (Nat.zero_le _) c).mono fun _ _ _ h => h.1
  refine (hg.query c).bind fun q e _ ⟨h, hopens⟩ => .pure ?_
  refine .closed ?_ (Layout.begins_symbol _ _) ?_ ?_
  · refine .node (m := 0) (n := 0) (fun _ => hopens hq) ?_ ?_ (fun _ => trivial) ?_
    · simpa [Part.children, Expr.children] using h.fine
    · simp [Part.layout, Expr.layout, Part.children, Expr.children]
    · simpa [Part.children, Expr.children] using h.cost
  · simp [Expr.layout, Layout.parens, List.getLast?_cons]
  · simp [Expr.layout, Layout.parens, List.getLast?_cons]

/-- What holds of a call whose name is read in front of it. -/
theorem spends_functionCall (name : ObjectName) :
    Spends d.dq c (functionCall g name) fun call c' => call.name = name ∧
      (∀ q ∈ Part.exprs call.arguments, q.Fine d) ∧
      Part.costs d (Part.exprs call.arguments) + c'.loose ≤ c.loose := by
  have hbehind : ∀ (distinct : Bool) (es : List Expr) (e : Cursor), e.loose ≤ c.loose →
      (∀ q ∈ Part.exprs es, q.Fine d) → Part.costs d (Part.exprs es) + e.loose ≤ c.loose →
      Spends d.dq e (do expectSymbol .rightParen; return ({ name, distinct, arguments := es } : FunctionCall))
        fun call c' => call.name = name ∧ (∀ q ∈ Part.exprs call.arguments, q.Fine d) ∧
          Part.costs d (Part.exprs call.arguments) + c'.loose ≤ c.loose :=
    fun _ _ _ _ hf hc => .expectSymbol fun _ he => .pure ⟨rfl, hf, by dsimp only; omega⟩
  have harguments : ∀ (distinct : Bool) (e : Cursor), e.loose ≤ c.loose →
      Spends d.dq e (do
          let arguments ← if ← symbolAt 0 .rightParen then pure [] else commaList (argument g)
          expectSymbol .rightParen
          return ({ name, distinct, arguments } : FunctionCall))
        fun call c' => call.name = name ∧ (∀ q ∈ Part.exprs call.arguments, q.Fine d) ∧
          Part.costs d (Part.exprs call.arguments) + c'.loose ≤ c.loose := by
    intro distinct e he
    refine .symbolAt (fun _ => hbehind distinct [] e he (by simp [Part.exprs]) (by simpa [Part.exprs]))
      fun _ => ?_
    refine (Spends.commaList (R := Expr.Read d) fun _ _ => spends_argument hg).bind
      fun es e' he' h => hbehind distinct es e' (he'.trans he) h.exprs.fine ?_
    exact h.exprs.cost.trans he
  refine .expectSymbol fun _ h₁ => .takeKeyword (fun _ h₂ => ?_) fun _ => ?_
  · exact harguments true _ ((Nat.le_of_add_left_le h₂).trans h₁)
  · exact harguments false _ h₁

/-- A call behind its name. -/
theorem spends_call {name : ObjectName} {b : Cursor}
    (hname : name.Legal d.dq ∨ name.IsFunctionWord d.dq)
    (hb : name.layout.Begins d.dq (b.peek 0 = .keyword .NULL))
    (hc : name.layout.loose + c.loose ≤ b.loose) :
    Spends d.dq c (functionCall g name >>= fun call => pure (Expr.call call))
      fun e c' => e.Read d b c' := by
  refine (spends_functionCall hg name).bind fun call e _ ⟨hn, hf, hcost⟩ => .pure ?_
  obtain ⟨called, distinct, es⟩ := call
  obtain rfl : called = name := hn
  dsimp only at hf hcost
  refine .closed ?_ ?_ ?_ ?_
  · refine .node (m := called.layout.loose) (n := 0) (fun _ => hname) hf ?_ (fun _ => trivial) ?_
    · simp [Part.layout, Expr.layout, FunctionCall.layout_eq, Part.children, Expr.children,
        Expr.layouts_eq_map, Function.comp_def]
    · simp only [Part.children, Expr.children]
      omega
  · rw [Expr.layout, FunctionCall.layout_eq]
    exact hb.append _
  · simp [Expr.layout, FunctionCall.layout_eq, Layout.parens, List.getLast?_append, List.getLast?_cons]
  · simp [Expr.layout, FunctionCall.layout_eq, Layout.parens, List.getLast?_append, List.getLast?_cons]

/-! ## Wildcards -/

omit hg in
theorem spends_wildcardExcept : Spends d.dq c (wildcardExcept d) fun except c' =>
    (∀ e ∈ except, e.Legal d) ∧
      (Layout.optional WildcardExcept.layout except).loose + c'.loose ≤ c.loose ∧
      (except = none → c' = c ∧ c.opensExcept d = false) := by
  have hcolumns : ∀ word : ExceptWord,
      (∀ names, names ≠ [] → (∀ i ∈ names, i.Legal d.dq) → WildcardExcept.Legal d ⟨word, names⟩) →
      c.peek 0 = .keyword word.keyword →
      Spends d.dq c (do advance; return some (⟨word, ← identifiersInParens⟩ : WildcardExcept))
        fun except c' => (∀ e ∈ except, e.Legal d) ∧
          (Layout.optional WildcardExcept.layout except).loose + c'.loose ≤ c.loose ∧
          (except = none → c' = c ∧ c.opensExcept d = false) := by
    intro word hword hk
    refine .advanceKeyword hk fun hd => spends_identifiersInParens.bind fun names e _ h => .pure ?_
    refine ⟨by simpa using hword names h.1 h.2.legal, ?_, by simp⟩
    have hc := h.2.cost
    simp only [Layout.optional_some, WildcardExcept.layout, Layout.loose_gap_cons,
      Layout.loose_keyword_cons, Layout.loose_parens]
    omega
  refine .look (g := fun c => c.peek 1 == .symbol .leftParen) (fun _ => rfl)
    (.look (g := fun c => c.peek 0 == .keyword .EXCEPT) (fun _ => rfl)
      (.look (g := fun c => c.opensQuery 2) (fun _ => rfl) (.ite (fun h => ?_) fun hno => ?_)))
  · simp only [Bool.and_eq_true, beq_iff_eq] at h
    exact hcolumns .except (fun _ hne hlegal => ⟨h.1.1.1, hne, hlegal⟩) h.1.1.2
  · refine .look (g := fun c => c.peek 0 == .keyword .EXCLUDE) (fun _ => rfl)
      (.ite (fun h => ?_) fun _ => .pure ⟨by simp, by simp, fun _ => ⟨rfl, ?_⟩⟩)
    · simp only [Bool.and_eq_true, beq_iff_eq] at h
      exact hcolumns .exclude (fun _ hne hlegal => ⟨h.1.1, hne, hlegal⟩) h.1.2
    · simpa [Cursor.opensExcept] using hno

theorem spends_wildcardReplace : Spends d.dq c (wildcardReplace g d) fun replace c' =>
    (∀ items ∈ replace, d.wildcardReplace = true ∧ items ≠ [] ∧
      (∀ q ∈ SelectItem.parts items, q.Fine d) ∧ ∀ i ∈ items, i.Legal d.dq) ∧
    (replace.elim 0 fun items => 1 + (items.map (SelectItem.cost d)).sum) + c'.loose ≤ c.loose ∧
    (replace = none → c' = c) := by
  refine .look (g := fun c => c.peek 0 == .keyword .REPLACE) (fun _ => rfl)
    (.look (g := fun c => c.peek 1 == .symbol .leftParen) (fun _ => rfl)
      (.ite (fun h => ?_) fun _ => .pure ⟨by simp, by simp, fun _ => rfl⟩))
  simp only [Bool.and_eq_true, beq_iff_eq] at h
  refine .advanceKeyword h.1.2 fun h₁ => .advance fun h₂ => (spends_selectItems hg).bind
    fun items e _ hi => .expectSymbol fun _ h₃ => .pure ⟨?_, ?_, by simp⟩
  · simpa using ⟨h.1.1, hi.1, hi.2.fine, hi.2.legal⟩
  · have hc := hi.2.cost
    simp only [Keyword.loose, Option.elim] at h₁ ⊢
    omega

/-- A wildcard behind its star. -/
theorem spends_wildcard {table : Option ObjectName} {b : Cursor}
    (ht : ∀ t ∈ table, t.Legal d.dq)
    (hb : ∀ t ∈ table, t.layout.Begins d.dq (b.peek 0 = .keyword .NULL))
    (hc : (Layout.optional (fun t : ObjectName => t.layout ++ [.symbol .dot]) table).loose + c.loose ≤
      b.loose) :
    Spends d.dq c (wildcard g d table) fun e c' => e.Read d b c' := by
  refine spends_wildcardExcept.bind fun except e₁ h₁ ⟨hel, hec, heno⟩ =>
    (spends_wildcardReplace hg).bind fun replace e₂ h₂ ⟨hrl, hrc, hrno⟩ => .pure ?_
  refine ⟨?_, ?_, ?_, ?_⟩
  · refine .node
      (m := (Layout.optional (fun t : ObjectName => t.layout ++ [.symbol .dot]) table).loose +
        (Layout.optional WildcardExcept.layout except).loose +
        replace.elim 0 fun items => 1 + SelectItem.aliasLoose items)
      (n := ((replace.getD []).map SelectItem.lapse).sum) (fun _ => ?_) ?_ ?_ (fun hn => ?_) ?_
    · exact ⟨ht, hel, fun items hi => ⟨(hrl items hi).1, (hrl items hi).2.1, (hrl items hi).2.2.2⟩⟩
    · intro q hq
      cases replace with
      | none => simp [Part.children, Expr.children, SelectItem.parts] at hq
      | some items => exact (hrl items rfl).2.2.1 q hq
    · rw [Part.layout, Expr.layout_wildcard]
      cases replace with
      | none => simp
      | some items =>
        simp [Part.children, Expr.children, Function.comp_def, SelectItem.loose_layouts]
        omega
    · intro items hi i hm
      obtain rfl : replace = some items := hi
      exact SelectItem.faithful_of_lapse hn i hm
    · cases replace with
      | none =>
        simp [Part.children, Expr.children, SelectItem.parts] at hc hec hrc ⊢
        omega
      | some items =>
        rw [Option.elim, SelectItem.costs_eq] at hrc
        simp only [Part.children, Expr.children, Option.getD_some, Option.elim]
        omega
  · rw [Expr.layout_wildcard]
    cases table with
    | none => exact Layout.begins_symbol _ _
    | some t =>
      simp only [Layout.optional_some, List.append_assoc]
      exact (hb t rfl).append _
  · intro hl
    cases replace with
    | some items =>
      simp [Expr.layout_wildcard, Layout.behind, Layout.parens, List.getLast?_append,
        List.getLast?_cons] at hl
    | none =>
      cases except with
      | some x =>
        simp [Expr.layout_wildcard, WildcardExcept.layout, Layout.parens, List.getLast?_append,
          List.getLast?_cons] at hl
      | none =>
        obtain rfl := hrno rfl
        obtain ⟨rfl, hopens⟩ := heno rfl
        exact hopens
  · intro hl
    cases replace <;> cases except <;> simp [Expr.layout_wildcard, WildcardExcept.layout,
      Layout.behind, Layout.parens, List.getLast?_append, List.getLast?_cons] at hl

/-! ## Columns and calls -/

theorem spends_named : Spends d.dq c (named g d) fun e c' => e.Read d c c' := by
  refine spends_dottedName.bind fun names e₁ h₁ h => ?_
  obtain ⟨first, more⟩ := names
  replace h : ObjectName.Read d.dq ⟨first :: more⟩ c e₁ := h
  have hcall : ∀ e : Cursor, e.loose ≤ e₁.loose →
      Spends d.dq e (functionCall g ⟨first :: more⟩ >>= fun call => pure (Expr.call call))
        fun e c' => e.Read d c c' := fun e he =>
    spends_call hg (.inl h.legal) h.begins ((Nat.add_le_add_left he _).trans h.cost)
  have hcolumn : Spends d.dq e₁ (do
      if ← symbolAt 0 .leftParen then return Expr.call (← functionCall g ⟨first :: more⟩)
      else return Expr.column (columnOf first more)) fun e c' => e.Read d c c' :=
    .symbolAt (fun _ => hcall e₁ (Nat.le_refl _)) fun _ => .pure h.column
  refine .symbolAt (fun _ => .symbolAt (fun _ => ?_) fun _ => hcolumn)
    fun _ => .symbolAt (fun _ => hcolumn) fun _ => hcolumn
  refine .advance fun h₂ => .advance fun h₃ => spends_wildcard hg ?_ ?_ ?_
  · simpa using h.legal
  · simpa using h.begins
  · have := h.cost
    simp only [Layout.optional_some, Layout.loose_append, Layout.loose_symbol_cons,
      Layout.loose_nil]
    omega

/-! ## Brackets and parentheses -/

theorem spends_parenthesized : Spends d.dq c (parenthesized g) fun e c' => e.Read d c c' := by
  refine .queryAt (fun hq => ?_) fun _ => ?_
  · refine .advance fun h₁ => (hg.query _).bind fun q e _ hquery =>
      .expectSymbol fun _ h₂ => .pure ?_
    obtain ⟨h, hopens⟩ := hquery
    refine .closed ?_ (Layout.begins_symbol _ _) ?_ ?_
    · refine .node (m := 0) (n := 0) (fun _ => hopens ?_) ?_ ?_ (fun _ => trivial) ?_
      · simpa [Cursor.opensQuery] using hq
      · simpa [Part.children, Expr.children] using h.fine
      · simp [Part.layout, Expr.layout, Part.children, Expr.children]
      · have := h.cost
        simp [Part.children, Expr.children]
        omega
    · simp [Expr.layout, Layout.parens, List.getLast?_cons]
    · simp [Expr.layout, Layout.parens, List.getLast?_cons]
  · refine .expectSymbol fun _ h₁ => (hg.expr 0 (Nat.zero_le _) _).bind fun first e₁ h₂ hfirst => ?_
    obtain ⟨hf, -⟩ := hfirst
    have hrest : Spends d.dq e₁ (Parse.collect (afterComma (g.expr 0)))
        fun es c' => InTurn (Behind (Expr.Read d)) es e₁ c' :=
      .collect fun e _ => .afterComma fun e' _ =>
        (hg.expr 0 (Nat.zero_le _) e').mono fun _ _ _ h => h.1
    refine hrest.bind fun more e₂ h₃ hm => ?_
    have hl := (Listed.cons hf hm).exprs
    have hcost := hl.cost
    cases more with
    | nil =>
      refine .expectSymbol fun _ h₄ => .pure (.closed ?_ (Layout.begins_symbol _ _) ?_ ?_)
      · refine .node (m := 0) (n := 0) (fun _ => trivial) hl.fine ?_ (fun _ => trivial) ?_
        · simp [Part.layout, Expr.layout, Part.children, Expr.children]
        · change 0 + 0 + Part.costs d (Part.exprs [first]) + _ ≤ _
          omega
      · simp [Expr.layout, Layout.parens, List.getLast?_cons]
      · simp [Expr.layout, Layout.parens, List.getLast?_cons]
    | cons second more =>
      refine .expectSymbol fun _ h₄ => .pure (.closed ?_ (Layout.begins_symbol _ _) ?_ ?_)
      · refine .node (m := 0) (n := 0) (fun hform => hform.head) hl.fine ?_ (fun _ => trivial) ?_
        · simp [Part.layout, Expr.layout, Part.children, Expr.children, Expr.layouts_eq_map,
            Function.comp_def]
        · simp only [Part.children, Expr.children]
          omega
      · simp [Expr.layout, Layout.parens, List.getLast?_cons]
      · simp [Expr.layout, Layout.parens, List.getLast?_cons]

/-- An array behind its opening bracket, perhaps with the word in front of it. -/
theorem spends_arrayElements {b : Cursor} (withWord : Bool) (hc : c.loose ≤ b.loose) :
    Spends d.dq c (arrayElements g withWord) fun e c' => e.Read d b c' := by
  have hbehind : ∀ (es : List Expr) (e : Cursor), (∀ q ∈ Part.exprs es, q.Fine d) →
      Part.costs d (Part.exprs es) + e.loose ≤ c.loose →
      Spends d.dq e (do expectSymbol .rightBracket; return Expr.array withWord es)
        fun e c' => e.Read d b c' := by
    intro es e hf hcost
    refine .expectSymbol fun _ h => .pure (.closed ?_ ?_ ?_ ?_)
    · refine .node (m := 0) (n := 0) (fun _ => trivial) hf ?_ (fun _ => trivial) ?_
      · cases withWord <;> simp [Part.layout, Expr.layout, Part.children, Expr.children,
          Expr.layouts_eq_map, Function.comp_def]
      · simp only [Part.children, Expr.children]
        omega
    · cases withWord with
      | true => exact Layout.begins_keyword (by simp) _
      | false => exact Layout.begins_symbol _ _
    · simp [Expr.layout, List.getLast?_cons, List.getLast?_append]
    · simp [Expr.layout, List.getLast?_cons, List.getLast?_append]
  refine .symbolAt (fun _ => hbehind [] c (by simp [Part.exprs]) (by simp [Part.exprs])) fun _ => ?_
  exact (spends_exprList hg).bind fun es e _ h => hbehind es e h.2.fine h.2.cost

/-! ## Struct values -/

omit hg in
/-- Typed fields in angles. -/
theorem spends_valueFields : Spends d.dq c valueFields fun fields c' =>
    (∀ fs ∈ fields, (DataType.struct .angles fs).Legal d.dq) ∧
      (Layout.optional StructField.anglesLayout fields).loose +
        (fields.elim 0 fun fs => (DataType.struct .angles fs).lapse d.dq) + c'.loose ≤ c.loose := by
  refine .takeSymbol (fun _ h₁ => ?_) fun _ => .pure ⟨by simp, by simp⟩
  refine (spends_structFields true).bind fun fs e _ ⟨hne, hl, _, hc⟩ =>
    .closingAngle fun e' he' => .pure ⟨?_, ?_⟩
  · rintro _ ⟨⟩
    exact ⟨⟨hne, fun f hf => (hl f hf).1, by simp⟩,
      StructField.allTypes_iff.2 fun f hf => (hl f hf).2⟩
  · have hlapse := DataType.lapse_struct d.dq .angles fs
    have hsum := StructField.sum_cost d.dq fs
    simp [StructField.anglesLayout, Function.comp_def]
    omega

/-- Values in parentheses. -/
theorem spends_valueArguments (typed : Bool) : Spends d.dq c (valueArguments g typed)
    fun arguments c' =>
      (∀ items ∈ arguments, (∀ q ∈ SelectItem.parts items, q.Fine d) ∧ ∀ i ∈ items, i.Legal d.dq) ∧
      (arguments.elim 0 fun items => (items.map (SelectItem.cost d)).sum) + c'.loose ≤ c.loose ∧
      (arguments = none → c' = c) := by
  have hbehind : ∀ (items : List SelectItem) (e : Cursor), (∀ q ∈ SelectItem.parts items, q.Fine d) →
      (∀ i ∈ items, i.Legal d.dq) → (items.map (SelectItem.cost d)).sum + e.loose ≤ c.loose →
      Spends d.dq e (do expectSymbol .rightParen; return some items) fun arguments c' =>
        (∀ items ∈ arguments, (∀ q ∈ SelectItem.parts items, q.Fine d) ∧
          ∀ i ∈ items, i.Legal d.dq) ∧
        (arguments.elim 0 fun items => (items.map (SelectItem.cost d)).sum) + c'.loose ≤ c.loose ∧
        (arguments = none → c' = c) := by
    refine fun items e hf hl hc => .expectSymbol fun _ h => .pure ⟨?_, ?_, by simp⟩
    · simpa using ⟨hf, hl⟩
    · simp only [Option.elim]
      omega
  refine .takeSymbol (fun _ h₁ => .symbolAt (fun _ => ?_) fun _ => ?_)
    fun _ => ?_
  · exact hbehind [] _ (by simp [SelectItem.parts]) (by simp) (by simpa)
  · refine (spends_selectItems hg).bind fun items e h₂ h => hbehind items e h.2.fine h.2.legal ?_
    have := h.2.cost
    omega
  · cases typed with
    | true => exact .pure ⟨by simp, by simp, fun _ => rfl⟩
    | false => exact .fail _

/-- A struct value with its word, in the dialects that have it. -/
theorem spends_structWithWord (hd : d.structStyle = .bigQuery)
    (hk : c.peek 0 = .keyword .STRUCT) :
    Spends d.dq c (structWithWord g) fun e c' => e.Read d c c' := by
  refine .intro fun hgen => .current (.advance fun h₁ => spends_valueFields.bind
    fun fields e₁ h₂ ⟨hfl, hfc⟩ => (spends_valueArguments hg _).bind
      fun arguments e₂ h₃ ⟨hal, hac, _⟩ => .pure ?_)
  have hkind : c.current.kind = .keyword .STRUCT := hgen.current_kind.trans hk
  obtain ⟨-, -, hword, -⟩ := hgen.cons (by simp [hkind])
  have hspend := hgen.spend (by simp [hkind])
  rw [Token.Genuine, hkind] at hword
  have hlast : ∀ p : Piece, (∀ w, p ≠ .word w) → p ≠ .closingAngle → p ≠ .symbol .rightParen →
      (Expr.struct ⟨.bigQuery, some c.current.text, fields, arguments⟩).layout.getLast? ≠
        some p := by
    intro p hw ha hr hp
    rw [Expr.layout, StructValue.layout_bigQuery] at hp
    cases fields <;> cases arguments <;> simp [Layout.word, StructField.anglesLayout,
      Layout.parens, List.getLast?_append, List.getLast?_cons] at hp
    · exact hw _ hp.symm
    · exact hr hp.symm
    · exact ha hp.symm
    · exact hr hp.symm
  refine .closed ?_ ?_ (hlast _ (by simp) (by simp) (by simp)) (hlast _ (by simp) (by simp) (by simp))
  · refine .node
      (m := looseCount c.current.text.toList +
        (Layout.optional StructField.anglesLayout fields).loose +
        SelectItem.aliasLoose (arguments.getD []))
      (n := (fields.elim 0 fun fs => (DataType.struct .angles fs).lapse d.dq) +
        ((arguments.getD []).map SelectItem.lapse).sum) (fun hform => ?_) ?_ ?_ (fun hn => ?_) ?_
    · exact ⟨hd.symm, ⟨_, rfl, hword⟩, hfl, hform.head.2.2, fun items hi => (hal items hi).2⟩
    · intro q hq
      cases arguments with
      | none => simp [Part.children, Expr.children, SelectItem.parts] at hq
      | some items => exact (hal items rfl).1 q hq
    · rw [Part.layout, Expr.layout, StructValue.layout_bigQuery]
      cases arguments with
      | none =>
        simp [Layout.word]
        omega
      | some items =>
        simp [Layout.word, Part.children, Expr.children, Function.comp_def,
          SelectItem.loose_layouts]
        omega
    · rw [Nat.add_eq_zero_iff] at hn
      refine ⟨fun fs hfs => ?_, fun items hi => ?_⟩
      · obtain rfl : fields = some fs := hfs
        exact DataType.faithful_struct.2 (DataType.faithful_struct.1
          (DataType.faithful_of_lapse hn.1))
      · obtain rfl : arguments = some items := hi
        exact SelectItem.faithful_of_lapse hn.2
    · cases arguments with
      | none =>
        simp [Part.children, Expr.children, SelectItem.parts, SelectItem.aliasLoose] at hfc hac ⊢
        omega
      | some items =>
        rw [Option.elim, SelectItem.costs_eq] at hac
        simp only [Part.children, Expr.children, Option.getD_some]
        omega
  · rw [Expr.layout, StructValue.layout_bigQuery, List.append_assoc]
    exact Layout.begins_word hword (by simp) _

/-! ## Words -/

theorem spends_castCall : Spends d.dq c (castCall g) fun e c' => e.Read d c c' := by
  refine .expectKeyword fun _ h₁ => .expectSymbol fun _ h₂ =>
    (hg.expr 0 (Nat.zero_le _) _).bind fun operand e₁ _ ⟨ho, _⟩ => .expectKeyword fun _ h₃ =>
      spends_dataType.bind fun type e₂ _ ht => .expectSymbol fun _ h₄ => .pure ?_
  refine .closed ?_ (Layout.begins_keyword (by simp) _) ?_ ?_
  · refine .node (m := type.layout.loose) (n := type.lapse d.dq) (fun _ => ht.legal) ?_ ?_
      DataType.faithful_of_lapse ?_
    · simpa [Part.children, Expr.children] using ho.fine
    · simp [Part.layout, Expr.layout, Part.children, Expr.children, Nat.add_comm]
    · have h₅ := ho.cost
      have h₆ := ht.cost
      simp only [DataType.cost, Part.children, Expr.children, Part.costs_cons,
        Part.costs_nil] at h₆ ⊢
      omega
  · simp [Expr.layout, Layout.parens, List.getLast?_cons]
  · simp [Expr.layout, Layout.parens, List.getLast?_cons]

/-- An arm of a choice. -/
theorem spends_whenArm : Spends d.dq c (whenArm g) fun o c' => o.elim (c' = c) fun arm =>
    (Part.expr arm.condition).Fine d ∧ (Part.expr arm.result).Fine d ∧
      (Part.expr arm.condition).cost d + (Part.expr arm.result).cost d + c'.loose ≤ c.loose := by
  refine .takeKeyword (fun _ h₁ => ?_) fun _ => .pure rfl
  refine (hg.expr 0 (Nat.zero_le _) _).bind fun condition e₁ _ ⟨hc, _⟩ => .expectKeyword fun _ h₂ =>
    (hg.expr 0 (Nat.zero_le _) _).bind fun result e₂ _ ⟨hr, _⟩ => .pure ⟨hc.fine, hr.fine, ?_⟩
  have h₃ := hc.cost
  have h₄ := hr.cost
  dsimp only
  omega

omit hg in
/-- The written forms of some arms. -/
theorem loose_whenArms (arms : List WhenArm) :
    (Layout.loose (WhenArm.layouts arms)) =
      Part.looses (arms.flatMap fun a => [.expr a.condition, .expr a.result]) := by
  induction arms with
  | nil => rfl
  | cons a arms ih =>
    obtain ⟨condition, result⟩ := a
    simp [WhenArm.layouts, WhenArm.layout, ih, Part.layout]

omit hg in
theorem costs_whenArms (arms : List WhenArm) :
    Part.costs d (arms.flatMap fun a => [.expr a.condition, .expr a.result]) =
      (arms.map fun a => (Part.expr a.condition).cost d + (Part.expr a.result).cost d).sum := by
  induction arms with
  | nil => rfl
  | cons a arms ih =>
    simp only [List.flatMap_cons, Part.costs_append, ih, Part.costs_cons, Part.costs_nil,
      List.map_cons, List.sum_cons, Nat.add_zero]

theorem spends_caseExpr : Spends d.dq c (caseExpr g) fun e c' => e.Read d c c' := by
  have hbehind : ∀ (operand : Option Expr) (e : Cursor),
      (∀ q ∈ Part.exprs operand.toList, q.Fine d) →
      Part.costs d (Part.exprs operand.toList) + e.loose ≤ c.loose →
      Spends d.dq e (do
          let arms ← collect (whenArm g)
          if arms.isEmpty then fail [Keyword.WHEN.text]
          else
            let otherwise ← afterKeyword .ELSE (g.expr 0)
            expectKeyword .END
            return Expr.caseWhen operand arms otherwise)
        fun e c' => e.Read d c c' := by
    intro operand e hof hoc
    refine (Spends.collect fun e' _ => spends_whenArm hg).bind fun arms e₁ _ harms =>
      .ite (fun _ => .fail _) fun _ => (spends_exprAfter hg .ELSE).bind fun otherwise e₂ _ hw =>
        .expectKeyword fun _ h => .pure ?_
    have harm : ∀ a ∈ arms, (Part.expr a.condition).Fine d ∧ (Part.expr a.result).Fine d := by
      intro a ha
      obtain ⟨_, _, hc, hr, -⟩ := harms.all a ha
      exact ⟨hc, hr⟩
    have hsum := harms.sum
      (w := fun a => (Part.expr a.condition).cost d + (Part.expr a.result).cost d)
      fun _ _ _ h => h.2.2
    refine .closed ?_ (Layout.begins_keyword (by simp) _) ?_ ?_
    · refine .node (m := 0) (n := 0) (fun hform => hform.head) ?_ ?_ (fun _ => trivial) ?_
      · simp only [Part.children, Expr.children, List.forall_mem_append, List.forall_mem_flatMap]
        refine ⟨⟨hof, fun a ha => ?_⟩, hw.fine⟩
        simpa using harm a ha
      · cases operand <;> cases otherwise <;> simp [Part.layout, Expr.layout, Part.children,
          Expr.children, Expr.layoutAfter, loose_whenArms]
      · have h₂ := hw.cost
        simp only [Part.children, Expr.children, Part.costs_append, costs_whenArms]
        omega
    · simp [Expr.layout, List.getLast?_append, List.getLast?_cons]
    · simp [Expr.layout, List.getLast?_append, List.getLast?_cons]
  refine .expectKeyword fun _ h₁ => .keywordAt (fun _ => ?_) fun _ => ?_
  · exact hbehind none _ (by simp [Part.exprs]) (by simpa [Part.exprs] using h₁)
  · have hsome : Spends d.dq c.advance (some <$> g.expr 0)
        fun e? c' => Expr.OptionRead d e? c.advance c' :=
      .map ((hg.expr 0 (Nat.zero_le _) _).mono fun e c' _ h => h.1.option)
    refine hsome.bind fun o e _ ho => hbehind o e ho.fine ?_
    have := ho.cost
    omega

theorem spends_existsTest : Spends d.dq c (existsTest g) fun e c' => e.Read d c c' := by
  refine .expectKeyword fun _ h₁ => Spends.bind (Q := fun q c' =>
    (Part.query q).Fine d ∧ (Part.query q).cost d + c'.loose ≤ c.loose) ?_ fun q e _ ⟨hf, hc⟩ => .pure ?_
  · refine .expectSymbol fun _ h₂ => (hg.query _).bind fun q e _ ⟨h, _⟩ => .expectSymbol fun _ h₃ =>
      .pure ⟨h.fine, ?_⟩
    have := h.cost
    omega
  · refine .closed ?_ (Layout.begins_keyword (by simp) _) ?_ ?_
    · refine .node (m := 0) (n := 0) (fun _ => trivial) ?_ ?_ (fun _ => trivial) ?_
      · simpa [Part.children, Expr.children] using hf
      · simp [Part.layout, Expr.layout, Part.children, Expr.children]
      · simpa [Part.children, Expr.children] using hc
    · simp [Expr.layout, Layout.parens, List.getLast?_cons]
    · simp [Expr.layout, Layout.parens, List.getLast?_cons]

omit hg in
/-- A named place. Without its quotes the name has fewer loose characters. -/
theorem spends_namedPlaceholder {sigil : Char} (hs : sigil = ':' ∨ sigil = '@') :
    Spends d.dq c (namedPlaceholder sigil) fun e c' => e.Read d c c' := by
  refine .advance fun h₁ => spends_identifier.bind fun i e _ hi => .pure ?_
  have hsigil : looseCount [sigil] = 0 := by rcases hs with rfl | rfl <;> rfl
  obtain ⟨w, hw, hw'⟩ := ofWord?_sigil d.dq hs
  have hcost := hi.cost
  rw [Ident.loose_layout] at hcost
  have hname : ∃ n, looseCount i.name.toList + n ≤ looseCount i.text.toList ∧
      (n = 0 → Ident.Legal d.dq { name := i.name }) := by
    obtain ⟨name, quote⟩ := i
    cases quote with
    | none => exact ⟨0, Nat.le_refl _, fun _ => hi.legal⟩
    | some q =>
      obtain ⟨kind, hk, rfl | ⟨k, -, -, hq⟩⟩ := hi.legal
      · exact ⟨1, looseCount_name hk, by simp⟩
      · cases hq
  obtain ⟨n, hn, hlegal⟩ := hname
  refine .closed ?_ (Layout.begins_word hw (by rcases hw' with ⟨-, rfl⟩ | ⟨-, rfl⟩ <;> simp) _) ?_ ?_
  · refine .node (m := looseCount i.name.toList) (n := n) (fun _ => hs) ?_ ?_ hlegal ?_
    · simp [Part.children, Expr.children]
    · simp [Part.layout, Expr.layout, Placeholder.layout, hsigil]
    · simp only [Part.children, Expr.children, Part.costs_nil]
      omega
  · simp [Expr.layout, Placeholder.layout]
  · simp [Expr.layout, Placeholder.layout]

/-! ## Primary expressions -/

omit hg in
/-- A constant that is a token. -/
theorem spends_constant {v : Literal} (hc : c.current.kind ≠ .endOfInput)
    (own : (Expr.literal v).Legal d) (hv : (Expr.literal v).layout.loose ≤
      looseCount c.current.text.toList)
    (hnull : v.kind = .keyword .NULL → c.peek 0 = .keyword .NULL)
    (hdouble : v.piece ≠ .keyword .DOUBLE) (hstar : v.piece ≠ .symbol .star) :
    Spends d.dq c (do advance; return Expr.literal v) fun e c' => e.Read d c c' := by
  refine .intro fun hgen => .advance fun _ => .pure (.closed (.leaf rfl own ?_ ?_) ?_ ?_ ?_)
  · trivial
  · have := hgen.spend hc
    omega
  · intro r hr
    refine hnull ?_
    rw [← (Literal.kind_piece own).1]
    cases v with
    | boolean value => cases value <;> exact hr
    | _ => exact hr
  · simpa [Expr.layout] using hstar
  · simpa [Expr.layout] using hdouble

/-- The keyword is the one under the cursor. -/
theorem spends_keywordPrimary (hd : d.structStyle = .bigQuery) {k : Keyword}
    (hk : c.peek 0 = .keyword k) : Spends d.dq c (keywordPrimary g d k) fun e c' => e.Read d c c' := by
  refine .intro fun hgen => ?_
  have hkind : c.current.kind = .keyword k := hgen.current_kind.trans hk
  have hconstant : ∀ v : Literal, v.kind = .keyword k → (Expr.literal v).Legal d →
      (Expr.literal v).layout.loose = 0 → v.piece ≠ .keyword .DOUBLE →
      v.piece ≠ .symbol .star →
      Spends d.dq c (do advance; return Expr.literal v) fun e c' => e.Read d c c' := by
    intro v hv own hl h₁ h₂
    refine spends_constant (by simp [hkind]) own (by omega) (fun h => ?_) h₁ h₂
    rw [hk, ← hv, h]
  unfold keywordPrimary
  split
  · exact hconstant (.boolean true) rfl trivial (by simp [Expr.layout, Literal.piece]) (by decide)
      (by decide)
  · exact hconstant (.boolean false) rfl trivial (by simp [Expr.layout, Literal.piece]) (by decide)
      (by decide)
  · exact hconstant .null rfl trivial (by simp [Expr.layout, Literal.piece]) (by decide) (by decide)
  · exact spends_caseExpr hg
  · exact spends_castCall hg
  · exact spends_existsTest hg
  · refine .look (g := fun c => c.peek 1 == .symbol .leftBracket) (fun _ => rfl) (.ite (fun _ => ?_)
      fun _ => .ite (fun hs => ?_) fun _ => ?_)
    · exact .advance fun h₁ => .advance fun h₂ => spends_arrayElements hg true (h₂.trans h₁)
    · simp only [Bool.and_eq_true, decide_eq_true_eq] at hs
      exact spends_structWithWord hg hd (hs.1 ▸ hk)
    · refine .look (g := fun c => c.peek 1 == .symbol .leftParen) (fun _ => rfl) (.ite (fun hw => ?_)
        fun _ => .ite (fun _ => .fail _) fun _ => spends_named hg)
      rw [Bool.and_eq_true, List.contains_iff_mem] at hw
      obtain ⟨-, -, hword, -⟩ := hgen.cons (by simp [hkind])
      have hspend := hgen.spend (by simp [hkind])
      rw [Token.Genuine, hkind] at hword
      refine .current (.advance fun _ => spends_call hg (.inr ⟨_, k, rfl, hword, hw.1⟩) ?_ ?_)
      · exact Layout.begins_word hword (fun he => by rw [hk, he]) _
      · simpa [ObjectName.layout, Layout.sepBy, Ident.layout, Ident.text] using hspend.le

theorem spends_symbolPrimary (hd : d.structStyle = .bigQuery) (s : Symbol) :
    Spends d.dq c (symbolPrimary g d s) fun e c' => e.Read d c c' := by
  unfold symbolPrimary
  split
  · refine .advance fun h₁ => Spends.bind (Q := fun _ c' => c'.loose ≤ c.advance.loose) ?_
      fun n e _ he => .pure (.closed (.leaf rfl trivial trivial ?_) ?_ ?_ ?_)
    · rintro hgen _ _ ⟨⟩
      exact ⟨⟨hgen.ahead, hgen.ending⟩, Nat.le_refl _, Nat.le_refl _⟩
    · simp [Expr.layout, Placeholder.layout]
      omega
    · intro r hr
      cases hr
    · simp [Expr.layout, Placeholder.layout]
    · simp [Expr.layout, Placeholder.layout]
  · exact spends_namedPlaceholder (.inl rfl)
  · exact spends_namedPlaceholder (.inr rfl)
  · exact .advance fun h₁ => spends_wildcard hg (by simp) (by simp) (by simpa)
  · exact spends_parenthesized hg
  · exact .advance fun h₁ => spends_arrayElements hg false h₁
  · exact .ite (fun h => by rw [hd] at h; cases h) fun _ => .fail _
  · exact .fail _

theorem spends_primary (hd : d.structStyle = .bigQuery) :
    Spends d.dq c (primary g d) fun e c' => e.Read d c c' := by
  refine .intro fun hgen => .current ?_
  have hword : ∀ {kind : TokenKind}, c.current.kind = kind → kind ≠ .endOfInput →
      TokenKind.ofWord? d.dq c.current.text = some kind := by
    rintro _ rfl hk
    obtain ⟨-, -, ht, -⟩ := hgen.cons hk
    exact ht
  split
  · next digits hk =>
    have hw := hword hk (by simp)
    obtain rfl := digits_of_ofWord? (.inl hw)
    exact spends_constant (by simp [hk]) hw (by simp [Expr.layout, Literal.piece]) (by
      simp [Literal.kind]) (by simp [Literal.piece]) (by simp [Literal.piece])
  · next digits hk =>
    have hw := hword hk (by simp)
    obtain rfl := digits_of_ofWord? (.inr hw)
    exact spends_constant (by simp [hk]) hw (by simp [Expr.layout, Literal.piece]) (by
      simp [Literal.kind]) (by simp [Literal.piece]) (by simp [Literal.piece])
  · next content hk =>
    have hw := hword hk (by simp)
    refine spends_constant (by simp [hk]) trivial ?_ (by simp [Literal.kind])
      (by simp [Literal.piece]) (by simp [Literal.piece])
    simpa [Expr.layout, Literal.piece, looseCount_enclose] using looseCount_string hw
  · next bytes hk =>
    refine spends_constant (by simp [hk]) trivial ?_ (by simp [Literal.kind])
      (by simp [Literal.piece]) (by simp [Literal.piece])
    have hl : (Expr.literal (.blob bytes)).layout.loose = 0 := by
      rw [Expr.layout, Literal.piece, Layout.loose_word_cons, String.toList_ofList]
      change looseCount (['X', '\''] ++ Text.Hexadecimal.ofBytes bytes ++ ['\'']) + 0 = 0
      rw [looseCount_append, looseCount_append, looseCount_ofBytes]
      rfl
    omega
  · exact spends_named hg
  · next k hk => exact spends_keywordPrimary hg hd (hgen.current_kind ▸ hk)
  · exact spends_symbolPrimary hg hd _
  · exact .fail _

end Parse

end SqlTree
