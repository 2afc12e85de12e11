import Mathlib
import SqlTree.Proofs.Lexing.Spacing
import SqlTree.Statement.Layout

/-! # Equations of written forms

The written form of a list of parts is the list of their written forms, and an optional part is
written if it is there. Each equation holds whatever the optional parts are.
-/

namespace SqlTree
set_option autoImplicit false

/-! ## Lists -/

theorem Expr.layouts_eq_map (es : List Expr) : Expr.layouts es = es.map Expr.layout := by
  induction es with
  | nil => rfl
  | cons e es ih => simp [Expr.layouts, ih]

theorem SelectItem.layouts_eq_map (items : List SelectItem) :
    SelectItem.layouts items = items.map SelectItem.layout := by
  induction items with
  | nil => rfl
  | cons i items ih => simp [SelectItem.layouts, ih]

theorem Cte.layouts_eq_map (ctes : List Cte) : Cte.layouts ctes = ctes.map Cte.layout := by
  induction ctes with
  | nil => rfl
  | cons c ctes ih => simp [Cte.layouts, ih]

theorem OrderItem.layouts_eq_map (items : List OrderItem) :
    OrderItem.layouts items = items.map OrderItem.layout := by
  induction items with
  | nil => rfl
  | cons o items ih => simp [OrderItem.layouts, ih]

/-- The written form of a row of values. -/
def Expr.rowLayout (row : List Expr) : Layout :=
  Layout.parens (Layout.commas (row.map Expr.layout))

theorem Expr.rowLayouts_eq_map (rows : List (List Expr)) :
    Expr.rowLayouts rows = rows.map Expr.rowLayout := by
  induction rows with
  | nil => rfl
  | cons row rows ih => simp [Expr.rowLayouts, Expr.rowLayout, Expr.layouts_eq_map, ih]

/-- The written form of a field in braces with its key. -/
def SelectItem.keyedLayout (i : SelectItem) : Layout :=
  i.alias?.elim [] (fun a => a.name.layout) ++ .symbol .colon :: i.expr.layout

theorem SelectItem.fieldLayouts_eq_map {items : List SelectItem}
    (h : ∀ i ∈ items, i.alias? ≠ none) (n : Nat) :
    SelectItem.fieldLayouts n items = items.map SelectItem.keyedLayout := by
  induction items generalizing n with
  | nil => rfl
  | cons i items ih =>
    obtain ⟨expr, alias?⟩ := i
    cases alias? with
    | none => exact absurd rfl (h ⟨expr, none⟩ (by simp))
    | some a =>
      have ih := ih (fun i hi => h i (by simp [hi])) (n + 1)
      simp [SelectItem.fieldLayouts, SelectItem.fieldLayout, SelectItem.keyedLayout, ih]

/-! ## Optional parts -/

/-- What is written for an optional part. -/
def Layout.optional {α : Type} (lay : α → Layout) : Option α → Layout
  | none => []
  | some a => lay a

/-- A layout behind words that introduce it, with gaps around them. -/
def Layout.behind (words : List Keyword) (l : Layout) : Layout :=
  .gap :: (Layout.keywords words ++ .gap :: l)

@[simp]
theorem Layout.optional_none {α : Type} (lay : α → Layout) : Layout.optional lay none = [] := rfl

@[simp]
theorem Layout.optional_some {α : Type} (lay : α → Layout) (a : α) :
    Layout.optional lay (some a) = lay a := rfl

theorem Layout.solid_keywords (words : List Keyword) :
    (Layout.keywords words).solid = words.map Piece.keyword := by
  fun_induction Layout.keywords words with
  | case1 => rfl
  | case2 k => rfl
  | case3 k ks _ ih => simp [ih]

@[simp]
theorem Layout.solid_behind (words : List Keyword) (l : Layout) :
    (Layout.behind words l).solid = words.map Piece.keyword ++ l.solid := by
  simp [Layout.behind, Layout.solid_keywords]

theorem Expr.layoutAfter_eq (lead : Layout) (e : Option Expr) :
    Expr.layoutAfter lead e = Layout.optional (fun e => lead ++ e.layout) e := by
  cases e <;> rfl

theorem Expr.listAfter_eq (lead : Layout) (es : Option (List Expr)) :
    Expr.listAfter lead es =
      Layout.optional (fun es => lead ++ Layout.commas (es.map Expr.layout)) es := by
  cases es with
  | none => rfl
  | some es => rw [Expr.listAfter, Expr.layouts_eq_map]; rfl

theorem Alias.layoutAfter_eq (alias? : Option Alias) :
    Alias.layoutAfter alias? = Layout.optional (fun a => .gap :: a.layout) alias? := by
  cases alias? <;> rfl

theorem FunctionCall.layout_eq (c : FunctionCall) :
    c.layout = c.name.layout ++ Layout.parens
      (Layout.onlyIf c.distinct [.keyword .DISTINCT, .gap] ++
        Layout.commas (Expr.layouts c.arguments)) := by
  cases c
  rfl

/-- Typed fields in angles. -/
def StructField.anglesLayout (fields : List StructField) : Layout :=
  .symbol .less :: (Layout.tightCommas (fields.map StructField.layout) ++ [.closingAngle])

/-- Typed fields in parentheses, behind what a cast begins with. -/
def StructField.castLayout (fields : List StructField) : Layout :=
  .symbol .doubleColon :: .keyword .STRUCT :: .symbol .leftParen :: .gap ::
    (Layout.tightCommas (fields.map StructField.layout) ++ [.symbol .rightParen])

/-- Fields with their keys in braces. -/
def SelectItem.bracesLayout (items : List SelectItem) : Layout :=
  .symbol .leftBrace :: .gap ::
    (Layout.tightCommas (SelectItem.fieldLayouts 1 items) ++ [.gap, .symbol .rightBrace])

theorem StructValue.layout_bigQuery (word : Option String) (fields : Option (List StructField))
    (arguments : Option (List SelectItem)) :
    StructValue.layout ⟨.bigQuery, word, fields, arguments⟩ =
      Layout.optional Layout.word word ++ Layout.optional StructField.anglesLayout fields ++
        Layout.optional
          (fun items => Layout.parens (Layout.tightCommas (items.map SelectItem.layout)))
          arguments := by
  simp only [← SelectItem.layouts_eq_map]
  cases word <;> cases fields <;> cases arguments <;> rfl

theorem StructValue.layout_duckDb (word : Option String) (fields : Option (List StructField))
    (arguments : Option (List SelectItem)) :
    StructValue.layout ⟨.duckDb, word, fields, arguments⟩ =
      Layout.optional SelectItem.bracesLayout arguments ++
        Layout.optional StructField.castLayout fields := by
  cases fields <;> cases arguments <;> rfl

theorem Expr.layout_wildcard (table : Option ObjectName) (except : Option WildcardExcept)
    (replace : Option (List SelectItem)) :
    (Expr.wildcard table except replace).layout =
      Layout.optional (fun t => t.layout ++ [.symbol .dot]) table ++ [.symbol .star] ++
        Layout.optional WildcardExcept.layout except ++
        Layout.optional (fun items => Layout.behind [.REPLACE]
          (Layout.parens (Layout.commas (items.map SelectItem.layout)))) replace := by
  simp only [← SelectItem.layouts_eq_map]
  cases table <;> cases except <;> cases replace <;> rfl

theorem Query.layout_mk (ctes : Option With) (body : SetExpr) (orderBy : List OrderItem)
    (limitBy limit : Option Limit) (offset : Option Offset) :
    (Query.mk ctes body orderBy limitBy limit offset).layout =
      Layout.optional With.layout ctes ++ body.layout ++
        Layout.onlyIf (!orderBy.isEmpty)
          (Layout.behind [.ORDER, .BY] (Layout.commas (OrderItem.layouts orderBy))) ++
        Layout.optional Limit.layout limitBy ++ Layout.optional Limit.layout limit ++
        Layout.optional Offset.layout offset := by
  cases ctes <;> cases limitBy <;> cases limit <;> cases offset <;> rfl

theorem Query.layout_eq (q : Query) :
    q.layout = Layout.optional With.layout q.ctes ++ q.body.layout ++
      Layout.onlyIf (!q.orderBy.isEmpty)
        (Layout.behind [.ORDER, .BY] (Layout.commas (q.orderBy.map OrderItem.layout))) ++
      Layout.optional Limit.layout q.limitBy ++ Layout.optional Limit.layout q.limit ++
      Layout.optional Offset.layout q.offset := by
  obtain ⟨ctes, body, orderBy, limitBy, limit, offset⟩ := q
  rw [Query.layout_mk, OrderItem.layouts_eq_map]

theorem Select.layout_mk (distinct : Bool) (items : List SelectItem) (source : Option FromItem)
    (joins : List Join) (condition : Option Expr) (groupBy : List Expr)
    (having qualify : Option Expr) :
    (Select.mk distinct items source joins condition groupBy having qualify).layout =
      .keyword .SELECT :: .gap :: Layout.onlyIf distinct [.keyword .DISTINCT, .gap] ++
        Layout.commas (SelectItem.layouts items) ++
        Layout.optional (fun item => Layout.behind [.FROM] (item.layout ++ Join.layouts joins))
          source ++
        Layout.optional (fun e => Layout.behind [.WHERE] e.layout) condition ++
        Layout.onlyIf (!groupBy.isEmpty)
          (Layout.behind [.GROUP, .BY] (Layout.commas (Expr.layouts groupBy))) ++
        Layout.optional (fun e => Layout.behind [.HAVING] e.layout) having ++
        Layout.optional (fun e => Layout.behind [.QUALIFY] e.layout) qualify := by
  cases source <;> cases condition <;> cases having <;> cases qualify <;> rfl

theorem Select.layout_eq (s : Select) :
    s.layout = .keyword .SELECT :: .gap :: Layout.onlyIf s.distinct [.keyword .DISTINCT, .gap] ++
      Layout.commas (s.items.map SelectItem.layout) ++
      Layout.optional (fun item => Layout.behind [.FROM] (item.layout ++ Join.layouts s.joins))
        s.source ++
      Layout.optional (fun e => Layout.behind [.WHERE] e.layout) s.condition ++
      Layout.onlyIf (!s.groupBy.isEmpty)
        (Layout.behind [.GROUP, .BY] (Layout.commas (s.groupBy.map Expr.layout))) ++
      Layout.optional (fun e => Layout.behind [.HAVING] e.layout) s.having ++
      Layout.optional (fun e => Layout.behind [.QUALIFY] e.layout) s.qualify := by
  obtain ⟨distinct, items, source, joins, condition, groupBy, having, qualify⟩ := s
  rw [Select.layout_mk, SelectItem.layouts_eq_map, Expr.layouts_eq_map]

/-- The word of a direction behind a gap, if there is one. -/
def OrderDirection.layoutAfter : Option OrderDirection → Layout :=
  Layout.optional fun direction => [.gap, .keyword direction.keyword]

/-- The words for where nulls go behind a gap, if there are any. -/
def NullOrdering.layoutAfter : Option NullOrdering → Layout :=
  Layout.optional fun nulls => .gap :: Layout.keywords nulls.keywords

theorem OrderItem.layout_eq (o : OrderItem) :
    o.layout = o.expr.layout ++ OrderDirection.layoutAfter o.direction ++
      NullOrdering.layoutAfter o.nulls := by
  obtain ⟨expr, direction, nulls⟩ := o
  cases direction <;> cases nulls <;> rfl

/-- What a limit says in front of its groups, behind the word `LIMIT`. -/
def Limit.count (l : Limit) : Layout :=
  if l.null then [.keyword .NULL]
  else if l.all then [.keyword .ALL]
  else
    Layout.optional (fun o => o.layout ++ [.symbol .comma, .gap]) l.offset ++
      Layout.optional Expr.layout l.rowCount

theorem Limit.layout_eq {l : Limit} (h : l.null = true ∨ l.all = true ∨ l.rowCount ≠ none) :
    l.layout = Layout.behind [.LIMIT] l.count ++
      Layout.optional (fun es => Layout.behind [.BY] (Layout.commas (es.map Expr.layout)))
        l.groups := by
  obtain ⟨rowCount, offset, all, null, groups⟩ := l
  have hg : Expr.listAfter [.gap, .keyword .BY, .gap] groups = Layout.optional
      (fun es => Layout.behind [.BY] (Layout.commas (es.map Expr.layout))) groups := by
    rw [Expr.listAfter_eq]
    rfl
  cases null <;> cases all <;> cases rowCount <;> cases offset <;>
    simp [Limit.layout, hg, Limit.count, Layout.behind, Layout.keywords] at h ⊢

theorem FromItem.layout_eq (i : FromItem) :
    i.layout = i.relation.layout ++ Alias.layoutAfter i.alias? ++
      Layout.optional Pivot.layout i.pivot ++ Layout.optional Unpivot.layout i.unpivot := by
  obtain ⟨relation, alias?, pivot, unpivot⟩ := i
  cases pivot <;> cases unpivot <;> rfl

end SqlTree
