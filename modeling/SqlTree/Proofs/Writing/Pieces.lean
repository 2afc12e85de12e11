import Mathlib
import SqlTree.Proofs.Tree.Induction
import SqlTree.Proofs.Tree.Written
import SqlTree.Statement.Layout

/-! # Where certain pieces come from

A star in a written tree comes from a wildcard or a product, a question mark from a placeholder, and
a defect from a limit that says nothing or a value in braces without a key.

* `Layout.Every P l`: every piece of `l` satisfies `P`.
* `Usual P`: every piece but stars, question marks and defects satisfies `P`.
* `Part.every_layout`: if the stars, question marks and defects of a part satisfy `P`, all its pieces
  do.
-/

namespace SqlTree
set_option autoImplicit false

/-- Every piece of a layout satisfies a property. -/
def Layout.Every (P : Piece → Prop) (l : Layout) : Prop :=
  ∀ x ∈ l, P x

/-- Every piece but stars, question marks and defects satisfies a property. -/
structure Usual (P : Piece → Prop) : Prop where
  keyword : ∀ k, P (.keyword k)
  symbol : ∀ s, s ≠ .star → P (.symbol s)
  closingAngle : P .closingAngle
  word : ∀ w, P (.word w)
  gap : P .gap

/-- The defects for the values without a key satisfy a property, if a struct value stands in
braces. -/
def StructValue.Marks (P : Piece → Prop) (v : StructValue) : Prop :=
  v.style = .duckDb → ∀ i ∈ v.arguments.getD [], i.alias? = none →
    ∀ n, P (.defect (.unnamedField n))

/-- The stars, the question marks and the defects that an expression is written with satisfy a
property, apart from those of the parts in it. -/
def Expr.Marks (P : Piece → Prop) : Expr → Prop
  | .binary _ .mul _ => P (.symbol .star)
  | .struct v => v.Marks P
  | .wildcard _ _ _ => P (.symbol .star)
  | .placeholder (.positional n) => P (.question n)
  | _ => True

/-- A limit that says nothing is written with a defect. -/
def Limit.Marks (P : Piece → Prop) (l : Limit) : Prop :=
  l.null = false → l.all = false → l.rowCount = none → P (.defect .emptyLimit)

/-- The same for any part. -/
def Part.Marks (P : Piece → Prop) : Part → Prop
  | .expr e => e.Marks P
  | .query q => (∀ l ∈ q.limitBy, l.Marks P) ∧ ∀ l ∈ q.limit, l.Marks P
  | _ => True

variable {P : Piece → Prop}

/-! ## Arrangements -/

namespace Layout

@[simp]
theorem every_nil : Every P [] := by simp [Every]

@[simp]
theorem every_cons {p : Piece} {l : Layout} : Every P (p :: l) ↔ P p ∧ l.Every P := by
  simp [Every]

@[simp]
theorem every_append {l₁ l₂ : Layout} : Every P (l₁ ++ l₂) ↔ l₁.Every P ∧ l₂.Every P := by
  simp [Every, or_imp, forall_and]

theorem Every.onlyIf {l : Layout} (h : l.Every P) (condition : Bool) :
    (onlyIf condition l).Every P := by
  cases condition with
  | true => exact h
  | false => exact every_nil

theorem Every.optional {α : Type} {lay : α → Layout} {a? : Option α}
    (h : ∀ a ∈ a?, (lay a).Every P) : (Layout.optional lay a?).Every P := by
  cases a? with
  | none => exact every_nil
  | some a => exact h a rfl

theorem every_sepBy {separator : Layout} (hs : separator.Every P) :
    ∀ ls : List Layout, (∀ l ∈ ls, l.Every P) → (sepBy separator ls).Every P
  | [], _ => every_nil
  | [l], h => h l (by simp)
  | l :: m :: ls, h => by
    have ih := every_sepBy hs (m :: ls) fun k hk => h k (by simp [hk])
    simp [sepBy, h l (by simp), hs, ih]

end Layout

open Layout

namespace Usual

variable (h : Usual P)
include h

theorem parens {l : Layout} (hl : l.Every P) : (parens l).Every P := by
  simp [Layout.parens, h.symbol, hl]

theorem parensIf {l : Layout} (hl : l.Every P) (wrap : Bool) : (parensIf wrap l).Every P := by
  cases wrap with
  | true => exact h.parens hl
  | false => exact hl

theorem commas {ls : List Layout} (hl : ∀ l ∈ ls, l.Every P) : (commas ls).Every P :=
  every_sepBy (by simp [h.symbol, h.gap]) ls hl

theorem tightCommas {ls : List Layout} (hl : ∀ l ∈ ls, l.Every P) : (tightCommas ls).Every P :=
  every_sepBy (by simp [h.symbol]) ls hl

theorem keywords : ∀ ks : List Keyword, (keywords ks).Every P
  | [] => every_nil
  | [k] => by simp [Layout.keywords, h.keyword]
  | k :: k' :: ks => by simp [Layout.keywords, h.keyword, h.gap, keywords (k' :: ks)]

theorem behind (ks : List Keyword) {l : Layout} (hl : l.Every P) : (behind ks l).Every P := by
  simp [Layout.behind, h.gap, h.keywords ks, hl]

/-! ## Names and types -/

theorem ident (i : Ident) : i.layout.Every P := by
  simp [Ident.layout, h.word]

theorem identList (names : List Ident) : (Ident.listLayout names).Every P :=
  h.commas (by simpa using fun i _ => h.ident i)

theorem objectName (n : ObjectName) : n.layout.Every P :=
  every_sepBy (by simp [h.symbol]) _ (by simpa using fun i _ => h.ident i)

theorem column (c : ColumnRef) : c.layout.Every P := by
  obtain ⟨table, name⟩ := c
  cases table <;> simp [ColumnRef.layout, h.objectName, h.ident, h.symbol]

theorem aliasAfter (alias? : Option Alias) : (Alias.layoutAfter alias?).Every P := by
  cases alias? with
  | none => exact every_nil
  | some a =>
    have hw : (onlyIf a.withAs [.keyword .AS, .gap]).Every P :=
      Every.onlyIf (by simp [h.keyword, h.gap]) _
    have hc : (onlyIf (!a.columns.isEmpty) (Layout.parens (Ident.listLayout a.columns))).Every P :=
      (h.parens (h.identList a.columns)).onlyIf _
    simp [Alias.layoutAfter, Alias.layout, h.gap, h.ident, hw, hc]

theorem modifiers (ms : List String) :
    (onlyIf (!ms.isEmpty) (Layout.parens (Layout.commas (ms.map Layout.word)))).Every P :=
  (h.parens (h.commas (by simp [Layout.word, h.word]))).onlyIf _

theorem dataType : ∀ t : DataType, t.layout.Every P
  | .plain type => by simp [DataType.layout, h.keyword]
  | .sized type none => by simp [DataType.layout, DataType.lengthLayout, h.keyword]
  | .sized type (some n) => by
    simp [DataType.layout, DataType.lengthLayout, h.keyword, h.parens, h.word]
  | .scaled type none _ => by simp [DataType.layout, DataType.scaleLayout, h.keyword]
  | .scaled type (some p) none => by
    simp [DataType.layout, DataType.scaleLayout, h.keyword, h.parens, h.word]
  | .scaled type (some p) (some s) => by
    simp [DataType.layout, DataType.scaleLayout, h.keyword, h.parens, h.word, h.symbol, h.gap]
  | .struct form fields => by
    have ih : ∀ f ∈ fields, f.layout.Every P := by
      intro f hm
      have ht := dataType f.type
      obtain ⟨name, type⟩ := f
      cases name <;> simp [StructField.layout, h.ident, h.gap, ht]
    have hc : (Layout.commas (fields.map StructField.layout)).Every P := h.commas (by simpa using ih)
    cases form <;>
      simp [DataType.layout, StructField.layouts_eq_map, h.keyword, h.symbol, h.closingAngle,
        h.parens, hc]
  | .array form element => by
    have ih := dataType element
    cases form <;> simp [DataType.layout, h.keyword, h.symbol, h.closingAngle, ih]
  | .custom name ms => by simp [DataType.layout, h.word, h.modifiers]
termination_by t => sizeOf t
decreasing_by
  all_goals simp_wf
  · have := List.sizeOf_lt_of_mem hm
    obtain ⟨name, type⟩ := f
    simp only [StructField.mk.sizeOf_spec] at this ⊢
    omega

theorem structField (f : StructField) : f.layout.Every P := by
  obtain ⟨name, type⟩ := f
  cases name <;> simp [StructField.layout, h.ident, h.gap, h.dataType]

/-! ## Expressions -/

omit h in
theorem exprs {es : List Expr} (hc : ∀ c ∈ Part.exprs es, c.layout.Every P) :
    ∀ l ∈ Expr.layouts es, l.Every P := by
  rw [Expr.layouts_eq_map]
  simpa [Part.exprs, Part.layout] using hc

omit h in
theorem layoutAfter {e? : Option Expr} {lead : Layout} (hl : lead.Every P)
    (hc : ∀ c ∈ Part.exprs e?.toList, c.layout.Every P) : (Expr.layoutAfter lead e?).Every P := by
  cases e? with
  | none => exact every_nil
  | some e => exact every_append.2 ⟨hl, hc (.expr e) (by simp [Part.exprs])⟩

theorem listAfter {es? : Option (List Expr)} {lead : Layout} (hl : lead.Every P)
    (hc : ∀ c ∈ Part.exprs (es?.getD []), c.layout.Every P) : (Expr.listAfter lead es?).Every P := by
  cases es? with
  | none => exact every_nil
  | some es => exact every_append.2 ⟨hl, h.commas (exprs hc)⟩

theorem items {items : List SelectItem} (hc : ∀ c ∈ SelectItem.parts items, c.layout.Every P) :
    ∀ l ∈ SelectItem.layouts items, l.Every P := by
  rw [SelectItem.layouts_eq_map]
  simp only [List.forall_mem_map]
  intro i hi
  have he := hc (.expr i.expr) (List.mem_map_of_mem (f := fun i => Part.expr i.expr) hi)
  obtain ⟨expr, alias?⟩ := i
  exact every_append.2 ⟨he, h.aliasAfter alias?⟩

theorem rows {rows : List (List Expr)} (hc : ∀ c ∈ Part.ofRows rows, c.layout.Every P) :
    (Layout.valueRows (Expr.rowLayouts rows)).Every P := by
  have hr : (Layout.commas (Expr.rowLayouts rows)).Every P := by
    rw [Expr.rowLayouts_eq_map]
    refine h.commas ?_
    simp only [List.forall_mem_map]
    intro row hrow
    refine h.parens (h.commas ?_)
    simp only [List.forall_mem_map]
    exact fun e he => hc (.expr e) (List.mem_map_of_mem (List.mem_flatten.2 ⟨row, hrow, he⟩))
  simp [Layout.valueRows, h.keyword, h.gap, hr]

theorem negation (negated : Bool) : (negation negated).Every P :=
  Every.onlyIf (by simp [h.gap, h.keyword]) _

theorem call {c : FunctionCall} (hc : ∀ a ∈ Part.exprs c.arguments, a.layout.Every P) :
    c.layout.Every P := by
  have hd : (onlyIf c.distinct [.keyword .DISTINCT, .gap]).Every P :=
    Every.onlyIf (by simp [h.gap, h.keyword]) _
  rw [FunctionCall.layout_eq]
  simp [h.objectName, h.parens, hd, h.commas (exprs hc)]

theorem arms {arms : List WhenArm}
    (hc : ∀ c ∈ arms.flatMap fun a => [Part.expr a.condition, .expr a.result], c.layout.Every P) :
    (WhenArm.layouts arms).Every P := by
  induction arms with
  | nil => exact every_nil
  | cons a arms ih =>
    obtain ⟨condition, result⟩ := a
    simp only [List.flatMap_cons, List.forall_mem_append, List.forall_mem_cons] at hc
    obtain ⟨⟨h1, h2, -⟩, hr⟩ := hc
    simp only [Part.layout] at h1 h2
    simp [WhenArm.layouts, WhenArm.layout, h.gap, h.keyword, h1, h2, ih hr]

theorem fieldLayouts {items : List SelectItem}
    (hd : ∀ i ∈ items, i.alias? = none → ∀ n, P (.defect (.unnamedField n)))
    (hc : ∀ c ∈ SelectItem.parts items, c.layout.Every P) (n : Nat) :
    ∀ l ∈ SelectItem.fieldLayouts n items, l.Every P := by
  induction items generalizing n with
  | nil => simp [SelectItem.fieldLayouts]
  | cons i items ih =>
    obtain ⟨expr, alias?⟩ := i
    simp only [SelectItem.parts, List.map_cons, List.forall_mem_cons] at hc
    obtain ⟨he, hr⟩ := hc
    obtain ⟨hi, hd⟩ := List.forall_mem_cons.1 hd
    replace he : expr.layout.Every P := he
    rw [SelectItem.fieldLayouts, List.forall_mem_cons]
    refine ⟨?_, ih hd hr (n + 1)⟩
    cases alias? with
    | none => simp [SelectItem.fieldLayout, hi rfl, h.symbol, he]
    | some a => simp [SelectItem.fieldLayout, h.ident, h.symbol, he]

theorem structValue {v : StructValue} (hm : v.Marks P)
    (hc : ∀ c ∈ SelectItem.parts (v.arguments.getD []), c.layout.Every P) : v.layout.Every P := by
  obtain ⟨style, word, fields, arguments⟩ := v
  have hf : ∀ fs : List StructField, (Layout.tightCommas (fs.map StructField.layout)).Every P :=
    fun fs => h.tightCommas (by simpa using fun f _ => h.structField f)
  cases style with
  | bigQuery =>
    rw [StructValue.layout_bigQuery]
    simp only [every_append]
    refine ⟨⟨Every.optional fun w _ => ?_, Every.optional fun fs _ => ?_⟩,
      Every.optional fun items hi => ?_⟩
    · simp [Layout.word, h.word]
    · simp [StructField.anglesLayout, h.symbol, h.closingAngle, hf]
    · cases hi
      rw [← SelectItem.layouts_eq_map]
      exact h.parens (h.tightCommas (h.items hc))
  | duckDb =>
    rw [StructValue.layout_duckDb]
    simp only [every_append]
    refine ⟨Every.optional fun items hi => ?_, Every.optional fun fs _ => ?_⟩
    · cases hi
      have hl := h.tightCommas (h.fieldLayouts (hm rfl) hc 1)
      simp only [Option.getD_some] at hl
      simp [SelectItem.bracesLayout, h.symbol, h.gap, hl]
    · simp [StructField.castLayout, h.symbol, h.keyword, h.gap, hf]

theorem wildcard {table : Option ObjectName} {except : Option WildcardExcept}
    {replace : Option (List SelectItem)} (hs : P (.symbol .star))
    (hc : ∀ c ∈ SelectItem.parts (replace.getD []), c.layout.Every P) :
    (Expr.wildcard table except replace).layout.Every P := by
  rw [Expr.layout_wildcard]
  simp only [every_append, every_cons]
  refine ⟨⟨⟨Every.optional fun t _ => ?_, hs, every_nil⟩, Every.optional fun e _ => ?_⟩,
    Every.optional fun items hm => ?_⟩
  · simp [h.objectName, h.symbol]
  · simp [WildcardExcept.layout, h.gap, h.keyword, h.parens, h.identList]
  · cases hm
    rw [← SelectItem.layouts_eq_map]
    exact h.behind _ (h.parens (h.commas (h.items hc)))

theorem gapAfterUnary (op : UnaryOp) (l : Layout) : (gapAfterUnary op l).Every P := by
  cases op <;> first | exact Every.onlyIf (by simp [h.gap]) _ | simp [SqlTree.gapAfterUnary, h.gap]

theorem unaryPiece (op : UnaryOp) : P op.piece := by
  cases op <;> simp [UnaryOp.piece, h.symbol, h.keyword]

theorem literal (v : Literal) : P v.piece := by
  rcases v with _ | _ | _ | _ | (_ | _) | _ <;> simp [Literal.piece, h.word, h.keyword]

theorem binaryPiece {left right : Expr} {op : BinaryOp} (hm : (Expr.binary left op right).Marks P) :
    P op.piece := by
  cases op with
  | mul => exact hm
  | _ => simp [BinaryOp.piece, h.symbol, h.keyword]

/-- The pieces of an expression, given those of the parts in it. -/
theorem expr {e : Expr} (hm : e.Marks P) (hc : ∀ c ∈ e.children, c.layout.Every P) :
    e.layout.Every P := by
  cases e with
  | literal v => simp [Expr.layout, h.literal]
  | column c => exact h.column c
  | binary left op right =>
    have hl : left.layout.Every P := hc (.expr left) (by simp [Expr.children])
    have hr : right.layout.Every P := hc (.expr right) (by simp [Expr.children])
    simp [Expr.layout, h.gap, h.binaryPiece hm, h.parensIf hl, h.parensIf hr]
  | unary op operand =>
    have ho : operand.layout.Every P := hc (.expr operand) (by simp [Expr.children])
    simp [Expr.layout, h.unaryPiece, h.gapAfterUnary, h.parensIf ho]
  | call c => exact h.call hc
  | array withWord elements =>
    have hw : (onlyIf withWord [.keyword .ARRAY]).Every P := Every.onlyIf (by simp [h.keyword]) _
    simp [Expr.layout, h.symbol, hw, h.tightCommas (exprs hc)]
  | struct v => exact h.structValue hm hc
  | subquery q => exact h.parens (hc (.query q) (by simp [Expr.children]))
  | existsQuery q =>
    have hq : q.layout.Every P := hc (.query q) (by simp [Expr.children])
    simp [Expr.layout, h.keyword, h.gap, h.parens hq]
  | inList tested negated items =>
    obtain ⟨ht, hi⟩ := List.forall_mem_cons.1 hc
    replace ht : tested.layout.Every P := ht
    simp [Expr.layout, ht, h.negation, h.gap, h.keyword, h.parens (h.commas (exprs hi))]
  | inQuery tested negated q =>
    have ht : tested.layout.Every P := hc (.expr tested) (by simp [Expr.children])
    have hq : q.layout.Every P := hc (.query q) (by simp [Expr.children])
    simp [Expr.layout, ht, h.negation, h.gap, h.keyword, h.parens hq]
  | between tested negated low high =>
    have ht : tested.layout.Every P := hc (.expr tested) (by simp [Expr.children])
    have hl : low.layout.Every P := hc (.expr low) (by simp [Expr.children])
    have hh : high.layout.Every P := hc (.expr high) (by simp [Expr.children])
    simp [Expr.layout, ht, hl, hh, h.negation, h.gap, h.keyword]
  | isNull tested negated =>
    have ht : tested.layout.Every P := hc (.expr tested) (by simp [Expr.children])
    simp [Expr.layout, ht, h.negation, h.gap, h.keyword]
  | like tested negated caseless pattern =>
    have ht : tested.layout.Every P := hc (.expr tested) (by simp [Expr.children])
    have hp : pattern.layout.Every P := hc (.expr pattern) (by simp [Expr.children])
    simp [Expr.layout, ht, hp, h.negation, h.gap, h.keyword]
  | caseWhen operand arms otherwise =>
    simp only [Expr.children, List.forall_mem_append] at hc
    obtain ⟨⟨ho, ha⟩, hw⟩ := hc
    have h1 : (Expr.layoutAfter [.gap] operand).Every P := layoutAfter (by simp [h.gap]) ho
    have h2 : (Expr.layoutAfter [.gap, .keyword .ELSE, .gap] otherwise).Every P :=
      layoutAfter (by simp [h.gap, h.keyword]) hw
    simp [Expr.layout, h.keyword, h.gap, h1, h2, h.arms ha]
  | cast style operand type =>
    have ho : operand.layout.Every P := hc (.expr operand) (by simp [Expr.children])
    cases style with
    | function =>
      simp [Expr.layout, h.keyword, h.gap, h.parens, ho, h.dataType]
    | doubleColon => simp [Expr.layout, h.symbol, h.parensIf ho, h.dataType]
  | nested inner => exact h.parens (hc (.expr inner) (by simp [Expr.children]))
  | tuple items => exact h.parens (h.commas (exprs hc))
  | placeholder place =>
    cases place with
    | positional n => exact every_cons.2 ⟨hm, every_nil⟩
    | named sigil name => simp [Expr.layout, Placeholder.layout, h.word]
  | wildcard table except replace => exact h.wildcard hm hc

/-! ## Items to read from -/

theorem joinParts {j : Join} (hc : ∀ c ∈ j.parts, c.layout.Every P) : j.layout.Every P := by
  obtain ⟨kind, item, constraint⟩ := j
  obtain ⟨hi, hr⟩ := List.forall_mem_cons.1 hc
  replace hi : item.layout.Every P := hi
  have hk : kind.layout.Every P := by
    cases kind with
    | comma => simp [JoinKind.layout, h.symbol]
    | _ => exact h.keywords _
  have hg : (onlyIf (kind != .comma) [.gap]).Every P := Every.onlyIf (by simp [h.gap]) _
  have hcon : constraint.layout.Every P := by
    cases constraint with
    | on e =>
      have he : e.layout.Every P := hr (.expr e) (by simp)
      simp [JoinConstraint.layout, h.gap, h.keyword, he]
    | «using» columns =>
      simp [JoinConstraint.layout, h.gap, h.keyword, h.parens, h.identList]
    | none => exact every_nil
  simp [Join.layout, hk, hg, hi, hcon, h.gap]

theorem joins {joins : List Join} (hc : ∀ c ∈ joins.flatMap Join.parts, c.layout.Every P) :
    (Join.layouts joins).Every P := by
  induction joins with
  | nil => exact every_nil
  | cons j joins ih =>
    obtain ⟨h1, h2⟩ := List.forall_mem_append.1 (List.flatMap_cons ▸ hc)
    exact every_append.2 ⟨h.joinParts h1, ih h2⟩

theorem relation {r : Relation} (hc : ∀ c ∈ r.parts, c.layout.Every P) : r.layout.Every P := by
  cases r with
  | table name => exact h.objectName name
  | query q => exact h.parens (hc (.query q) (by simp [Relation.parts]))
  | lateral q =>
    have hq : q.layout.Every P := hc (.query q) (by simp [Relation.parts])
    simp [Relation.layout, h.keyword, h.gap, h.parens hq]
  | function lead c =>
    cases lead <;> simp [Relation.layout, h.word, h.gap, h.call hc]
  | joined item js =>
    obtain ⟨hi, hj⟩ := List.forall_mem_cons.1 hc
    exact h.parens (every_append.2 ⟨hi, h.joins hj⟩)
  | values vs => exact h.parens (h.rows hc)

theorem pivot {p : Pivot} (hc : ∀ c ∈ SelectItem.parts (p.aggregates ++ p.items), c.layout.Every P) :
    p.layout.Every P := by
  obtain ⟨aggregates, columns, is, alias?⟩ := p
  simp only [SelectItem.parts, List.map_append, List.forall_mem_append] at hc
  have hcols : (Layout.commas (columns.map ColumnRef.layout)).Every P :=
    h.commas (by simpa using fun c _ => h.column c)
  simp [Pivot.layout, h.gap, h.keyword, h.parens, h.parensIf hcols, h.commas (h.items hc.1),
    h.commas (h.items hc.2), h.aliasAfter]

theorem unpivot {u : Unpivot} (hc : ∀ c ∈ SelectItem.parts u.items, c.layout.Every P) :
    u.layout.Every P := by
  obtain ⟨includeNulls, valueColumns, nameColumns, is, alias?⟩ := u
  rcases includeNulls with - | (- | -) <;>
    simp [Unpivot.layout, h.gap, h.keyword, h.parens, h.parensIf (h.identList _),
      h.commas (h.items hc), h.aliasAfter]

theorem fromItem {i : FromItem} (hc : ∀ c ∈ i.children, c.layout.Every P) : i.layout.Every P := by
  obtain ⟨rel, alias?, piv, unpiv⟩ := i
  simp only [FromItem.children, List.forall_mem_append] at hc
  obtain ⟨⟨h1, h2⟩, h3⟩ := hc
  rw [FromItem.layout_eq]
  simp only [every_append]
  refine ⟨⟨⟨h.relation h1, h.aliasAfter alias?⟩, Every.optional fun p hm => ?_⟩,
    Every.optional fun u hm => ?_⟩
  · cases hm
    exact h.pivot h2
  · cases hm
    exact h.unpivot h3

/-! ## Blocks, bodies and queries -/

theorem clause {e? : Option Expr} (hc : ∀ c ∈ Part.exprs e?.toList, c.layout.Every P)
    (ks : List Keyword) :
    (Layout.optional (fun e : Expr => Layout.behind ks e.layout) e?).Every P :=
  Every.optional fun e he => h.behind ks (hc (.expr e) (List.mem_map_of_mem (by simpa using he)))

theorem block {s : Select} (hc : ∀ c ∈ s.children, c.layout.Every P) : s.layout.Every P := by
  obtain ⟨distinct, is, source, js, condition, groupBy, having, qualify⟩ := s
  simp only [Select.children, Part.exprs, List.map_append, List.forall_mem_append] at hc
  obtain ⟨⟨⟨hitems, hsource⟩, hjoins⟩, ⟨⟨hcond, hgroup⟩, hhaving⟩, hqualify⟩ := hc
  have hd : (onlyIf distinct [.keyword .DISTINCT, .gap]).Every P :=
    Every.onlyIf (by simp [h.gap, h.keyword]) _
  have hg := h.commas (exprs hgroup)
  have hi := h.commas (h.items hitems)
  rw [Expr.layouts_eq_map] at hg
  rw [SelectItem.layouts_eq_map] at hi
  have hs : (Layout.optional (fun item : FromItem => Layout.behind [.FROM]
      (item.layout ++ Join.layouts js)) source).Every P := Every.optional fun item hm =>
    h.behind _ (every_append.2
      ⟨hsource (.item item) (List.mem_map_of_mem (by simpa using hm)), h.joins hjoins⟩)
  rw [Select.layout_eq]
  simp [h.keyword, h.gap, hd, hi, hs, h.clause hcond, h.clause hhaving, h.clause hqualify,
    Every.onlyIf (h.behind [.GROUP, .BY] hg)]

theorem body {b : SetExpr} (hc : ∀ c ∈ b.children, c.layout.Every P) : b.layout.Every P := by
  cases b with
  | select s => exact hc (.block s) (by simp [SetExpr.children])
  | parens q => exact h.parens (hc (.query q) (by simp [SetExpr.children]))
  | combine op quantifier left right =>
    have hl : left.layout.Every P := hc (.body left) (by simp [SetExpr.children])
    have hr : right.layout.Every P := hc (.body right) (by simp [SetExpr.children])
    cases quantifier <;> simp [SetExpr.layout, SetQuantifier.layout, h.gap, h.keyword, hl, hr]
  | values vs => exact h.rows hc

theorem with_ {w : With} (hc : ∀ c ∈ w.ctes, c.query.layout.Every P) : w.layout.Every P := by
  obtain ⟨recursive, ctes⟩ := w
  have hr : (onlyIf recursive [.keyword .RECURSIVE, .gap]).Every P :=
    Every.onlyIf (by simp [h.gap, h.keyword]) _
  have hctes : (Layout.commas (Cte.layouts ctes)).Every P := by
    rw [Cte.layouts_eq_map]
    refine h.commas ?_
    simp only [List.forall_mem_map]
    intro c hm
    have hq := hc c hm
    obtain ⟨name, columns, query⟩ := c
    have hcols : (onlyIf (!columns.isEmpty)
        (.gap :: Layout.parens (Ident.listLayout columns))).Every P :=
      Every.onlyIf (by simp [h.gap, h.parens, h.identList]) _
    simp [Cte.layout, h.ident, hcols, h.gap, h.keyword, h.parens hq]
  simp [With.layout, h.keyword, h.gap, hr, hctes]

theorem orderItem {o : OrderItem} (he : o.expr.layout.Every P) : o.layout.Every P := by
  obtain ⟨e, direction, nulls⟩ := o
  cases direction <;> cases nulls <;> simp [OrderItem.layout, he, h.gap, h.keyword, h.keywords]

theorem limit {l : Limit} (hm : l.Marks P) (hc : ∀ c ∈ l.parts, c.layout.Every P) :
    l.layout.Every P := by
  obtain ⟨rowCount, offset, all, null, groups⟩ := l
  simp only [Limit.parts, Part.exprs, List.map_append, List.forall_mem_append] at hc
  obtain ⟨⟨ho, hr⟩, hg⟩ := hc
  have hgroups : (Expr.listAfter [.gap, .keyword .BY, .gap] groups).Every P :=
    h.listAfter (by simp [h.gap, h.keyword]) hg
  have hrow : ∀ e ∈ rowCount, e.layout.Every P := fun e he =>
    hr (.expr e) (List.mem_map_of_mem (by simpa using he))
  have hoff : ∀ e ∈ offset, e.layout.Every P := fun e he =>
    ho (.expr e) (List.mem_map_of_mem (by simpa using he))
  cases null <;> cases all <;> cases rowCount <;> cases offset <;>
    simp_all [Limit.layout, Limit.Marks, h.gap, h.keyword, h.symbol]

theorem query {q : Query} (hm : (Part.query q).Marks P) (hc : ∀ c ∈ q.children, c.layout.Every P) :
    q.layout.Every P := by
  obtain ⟨ctes, b, orderBy, limitBy, lim, offset⟩ := q
  simp only [Query.children, List.forall_mem_append, List.forall_mem_map, List.forall_mem_cons] at hc
  obtain ⟨⟨⟨⟨⟨hctes, hbody, -⟩, horder⟩, hcby⟩, hclimit⟩, hoffset⟩ := hc
  have ho : (Layout.commas (orderBy.map OrderItem.layout)).Every P := by
    refine h.commas ?_
    simp only [List.forall_mem_map]
    exact fun o hm => h.orderItem (horder o hm)
  rw [Query.layout_eq]
  simp only [every_append]
  refine ⟨⟨⟨⟨⟨Every.optional fun w hw => ?_, hbody⟩, Every.onlyIf (h.behind _ ho) _⟩,
    Every.optional fun l hl => ?_⟩, Every.optional fun l hl => ?_⟩, Every.optional fun o hl => ?_⟩
  · cases hw
    exact h.with_ fun c hm => hctes _ (List.mem_map_of_mem hm)
  · cases hl
    exact h.limit (hm.1 l rfl) hcby
  · cases hl
    exact h.limit (hm.2 l rfl) hclimit
  · cases hl
    obtain ⟨count, word⟩ := o
    have hcount : count.layout.Every P := hoffset (.expr count) (by simp)
    cases word <;> simp [Offset.layout, OffsetRows.layout, h.gap, h.keyword, hcount]

end Usual

/-- If the stars, the question marks and the defects of a part satisfy a property, all its pieces
do. -/
theorem Part.every_layout (h : Usual P) {p : Part} (hp : p.Obeys (Part.Marks P)) :
    p.layout.Every P := by
  refine Part.Obeys.induct (P := fun p => p.layout.Every P) (fun p hm hc => ?_) hp
  cases p with
  | expr e => exact h.expr hm.head hc
  | query q => exact h.query hm.head hc
  | body b => exact h.body hc
  | block s => exact h.block hc
  | item i => exact h.fromItem hc

/-! ## Question marks -/

theorem usual_unnumbered : Usual fun x => x.number? = none where
  keyword _ := rfl
  symbol _ _ := rfl
  closingAngle := rfl
  word _ := rfl
  gap := rfl

theorem numbers_eq_nil {l : Layout} : l.numbers = [] ↔ l.Every fun x => x.number? = none :=
  List.filterMap_eq_nil_iff

theorem Layout.Every.numbered {l : Layout} (h : l.Every fun x => x.number? = none) :
    l.Numbered 0 := by
  rw [Layout.Numbered, numbers_eq_nil.2 h]
  rfl

end SqlTree
