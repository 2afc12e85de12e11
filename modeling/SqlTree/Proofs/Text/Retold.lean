import Mathlib
import SqlTree.Proofs.Spending.Cost

/-! # Trees with the parentheses that are written

The written form of a cast has parentheses around some operands that stand without them in the tree.
With them in the tree too, the form says all that the tree holds, and it is the same.

* `Expr.Retold d e e'`: the expression `e'` is clear, is written like `e` and holds as tightly.
* `Part.Retellable d p`: a part that is written like `p` is clear.
* `Part.retellable`: so is every legal part that says all but these parentheses, in the dialects that
  have no struct values in braces.

The induction is on the parts of a tree. At each part the ones right below it are taken from their
own existence, so the new tree is never built by recursion.
-/

namespace SqlTree
set_option autoImplicit false

open Parse

variable {d : Dialect}

/-! ## Clear trees with the same text -/

/-- A clear expression with the written form of another one, which holds as tightly. -/
structure Expr.Retold (d : Dialect) (e e' : Expr) : Prop where
  clear : e'.Clear d
  layout : e'.layout = e.layout
  precedence : e'.precedence? = e.precedence?
  cast : parensBeforeCast e' = parensBeforeCast e
  wildcard : e'.isWildcard = e.isWildcard
  left : e.leftEdge ≤ e'.leftEdge
  right : e.rightEdge ≤ e'.rightEdge

/-- A clear query with the written form of another one. -/
structure Query.Retold (d : Dialect) (q q' : Query) : Prop where
  clear : q'.Clear d
  layout : q'.layout = q.layout
  opens : q'.opens = q.opens

/-- A clear body with the written form of another one, which holds as tightly. -/
structure SetExpr.Retold (d : Dialect) (b b' : SetExpr) : Prop where
  clear : (Part.body b').Obeys (Part.Clear d)
  layout : b'.layout = b.layout
  opens : b'.opens = b.opens
  level : b'.level = b.level

/-- A clear block with the written form of another one. -/
structure Select.Retold (d : Dialect) (s s' : Select) : Prop where
  clear : (Part.block s').Obeys (Part.Clear d)
  layout : s'.layout = s.layout

/-- A clear item to read from with the written form of another one. -/
structure FromItem.Retold (d : Dialect) (i i' : FromItem) : Prop where
  clear : i'.Clear d
  layout : i'.layout = i.layout

/-- A part that is written like `p` is clear. -/
def Part.Retellable (d : Dialect) : Part → Prop
  | .expr e => ∃ e', e.Retold d e'
  | .query q => ∃ q', q.Retold d q'
  | .body b => ∃ b', b.Retold d b'
  | .block s => ∃ s', s.Retold d s'
  | .item i => ∃ i', i.Retold d i'

instance : Nonempty Expr := ⟨.literal .null⟩

instance : Nonempty FromItem := ⟨.table ⟨[]⟩⟩

instance : Nonempty SetExpr := ⟨.values []⟩

instance : Nonempty Select := ⟨⟨false, [], none, [], none, [], none, none⟩⟩

instance : Nonempty Query := ⟨.ofBody (.values [])⟩

/-! ## One part for another -/

section Retell

variable (d)

/-- A clear expression that is written like another one, if there is any. -/
noncomputable def Expr.retell (e : Expr) : Expr :=
  Classical.epsilon fun e' => e.Retold d e'

/-- A clear query that is written like another one, if there is any. -/
noncomputable def Query.retell (q : Query) : Query :=
  Classical.epsilon fun q' => q.Retold d q'

/-- A clear body that is written like another one, if there is any. -/
noncomputable def SetExpr.retell (b : SetExpr) : SetExpr :=
  Classical.epsilon fun b' => b.Retold d b'

/-- A clear block that is written like another one, if there is any. -/
noncomputable def Select.retell (s : Select) : Select :=
  Classical.epsilon fun s' => s.Retold d s'

/-- A clear item to read from that is written like another one, if there is any. -/
noncomputable def FromItem.retell (i : FromItem) : FromItem :=
  Classical.epsilon fun i' => i.Retold d i'

noncomputable def SelectItem.retell (i : SelectItem) : SelectItem :=
  { i with expr := i.expr.retell d }

noncomputable def WhenArm.retell (a : WhenArm) : WhenArm :=
  ⟨a.condition.retell d, a.result.retell d⟩

noncomputable def With.retell (w : With) : With :=
  { w with ctes := w.ctes.map fun c => { c with query := c.query.retell d } }

noncomputable def OrderItem.retell (o : OrderItem) : OrderItem :=
  { o with expr := o.expr.retell d }

noncomputable def Limit.retell (l : Limit) : Limit :=
  { l with
    rowCount := l.rowCount.map (Expr.retell d)
    offset := l.offset.map (Expr.retell d)
    groups := l.groups.map (List.map (Expr.retell d)) }

noncomputable def Offset.retell (o : Offset) : Offset :=
  { o with count := o.count.retell d }

noncomputable def JoinConstraint.retell : JoinConstraint → JoinConstraint
  | .on condition => .on (condition.retell d)
  | .using columns => .using columns
  | .none => .none

noncomputable def Join.retell (j : Join) : Join :=
  { j with item := j.item.retell d, constraint := j.constraint.retell d }

noncomputable def Relation.retell : Relation → Relation
  | .table name => .table name
  | .query q => .query (q.retell d)
  | .lateral q => .lateral (q.retell d)
  | .function lead c => .function lead { c with arguments := c.arguments.map (Expr.retell d) }
  | .joined item joins => .joined (item.retell d) (joins.map (Join.retell d))
  | .values rows => .values (rows.map (List.map (Expr.retell d)))

noncomputable def Pivot.retell (p : Pivot) : Pivot :=
  { p with
    aggregates := p.aggregates.map (SelectItem.retell d)
    items := p.items.map (SelectItem.retell d) }

noncomputable def Unpivot.retell (u : Unpivot) : Unpivot :=
  { u with items := u.items.map (SelectItem.retell d) }

end Retell

theorem Part.Retellable.expr {e : Expr} (h : (Part.expr e).Retellable d) :
    e.Retold d (e.retell d) :=
  Classical.epsilon_spec h

theorem Part.Retellable.query {q : Query} (h : (Part.query q).Retellable d) :
    q.Retold d (q.retell d) :=
  Classical.epsilon_spec h

theorem Part.Retellable.body {b : SetExpr} (h : (Part.body b).Retellable d) :
    b.Retold d (b.retell d) :=
  Classical.epsilon_spec h

theorem Part.Retellable.block {s : Select} (h : (Part.block s).Retellable d) :
    s.Retold d (s.retell d) :=
  Classical.epsilon_spec h

theorem Part.Retellable.item {i : FromItem} (h : (Part.item i).Retellable d) :
    i.Retold d (i.retell d) :=
  Classical.epsilon_spec h

/-! ## Lists -/

/-- All the parts of a list are clear. -/
abbrev Part.AllClear (d : Dialect) (ps : List Part) : Prop :=
  ∀ p ∈ ps, p.Obeys (Part.Clear d)

/-- There are clear parts that are written like the ones of a list. -/
abbrev Part.AllRetellable (d : Dialect) (ps : List Part) : Prop :=
  ∀ p ∈ ps, p.Retellable d

theorem Part.AllRetellable.exprs (es : List Expr) (h : Part.AllRetellable d (Part.exprs es)) :
    Part.AllClear d (Part.exprs (es.map (Expr.retell d))) ∧
      (es.map (Expr.retell d)).map Expr.layout = es.map Expr.layout := by
  simp only [Part.exprs, Part.AllRetellable, List.forall_mem_map] at h
  constructor
  · simp only [Part.exprs, Part.AllClear, List.forall_mem_map]
    exact fun e he => (h e he).expr.clear
  · rw [List.map_map]
    exact List.map_congr_left fun e he => (h e he).expr.layout

theorem Part.AllRetellable.items (items : List SelectItem)
    (h : Part.AllRetellable d (SelectItem.parts items)) :
    Part.AllClear d (SelectItem.parts (items.map (SelectItem.retell d))) ∧
      (items.map (SelectItem.retell d)).map SelectItem.layout = items.map SelectItem.layout ∧
      (∀ dq, (∀ i ∈ items, i.Legal dq) → ∀ i ∈ items.map (SelectItem.retell d), i.Legal dq) ∧
      ((∀ i ∈ items, i.Faithful) → ∀ i ∈ items.map (SelectItem.retell d), i.Faithful) := by
  simp only [SelectItem.parts, Part.AllRetellable, List.forall_mem_map] at h
  refine ⟨?_, ?_, fun dq hl => ?_, fun hf => ?_⟩
  · simp only [SelectItem.parts, Part.AllClear, List.forall_mem_map]
    exact fun i hi => (h i hi).expr.clear
  · rw [List.map_map]
    refine List.map_congr_left fun i hi => ?_
    have he := (h i hi).expr.layout
    obtain ⟨expr, alias?⟩ := i
    simpa [SelectItem.layout, SelectItem.retell] using he
  · simp only [List.forall_mem_map]
    intro i hi
    simpa [SelectItem.Legal, SelectItem.retell, (h i hi).expr.wildcard] using hl i hi
  · simp only [List.forall_mem_map]
    intro i hi
    simpa [SelectItem.Faithful, SelectItem.retell, (h i hi).expr.layout] using hf i hi

/-- An optional expression behind what introduces it. -/
theorem Part.AllRetellable.option {e? : Option Expr}
    (h : Part.AllRetellable d (Part.exprs e?.toList)) :
    Part.AllClear d (Part.exprs (e?.map (Expr.retell d)).toList) ∧
      ∀ lead : Layout → Layout, Layout.optional (fun e => lead e.layout) (e?.map (Expr.retell d)) =
        Layout.optional (fun e => lead e.layout) e? := by
  cases e? with
  | none => exact ⟨by simp [Part.exprs, Part.AllClear], fun _ => rfl⟩
  | some e =>
    have he := (h (.expr e) (by simp [Part.exprs])).expr
    exact ⟨by simpa [Part.exprs, Part.AllClear] using he.clear, fun lead => by simp [he.layout]⟩

theorem Part.AllRetellable.arms {arms : List WhenArm}
    (h : Part.AllRetellable d (arms.flatMap fun a => [.expr a.condition, .expr a.result])) :
    Part.AllClear d ((arms.map (WhenArm.retell d)).flatMap
        fun a => [.expr a.condition, .expr a.result]) ∧
      WhenArm.layouts (arms.map (WhenArm.retell d)) = WhenArm.layouts arms := by
  induction arms with
  | nil => exact ⟨by simp [Part.AllClear], rfl⟩
  | cons a arms ih =>
    obtain ⟨condition, result⟩ := a
    simp only [Part.AllRetellable, List.flatMap_cons, List.forall_mem_append, List.forall_mem_cons] at h
    obtain ⟨⟨hcondition, hresult, -⟩, hrest⟩ := h
    obtain ⟨hc, hl⟩ := ih hrest
    constructor
    · simp only [Part.AllClear, List.map_cons, List.flatMap_cons, List.forall_mem_append,
        List.forall_mem_cons]
      exact ⟨⟨hcondition.expr.clear, hresult.expr.clear, List.forall_mem_nil _⟩, hc⟩
    · simp only [List.map_cons, WhenArm.layouts, WhenArm.retell, WhenArm.layout,
        hcondition.expr.layout, hresult.expr.layout, hl]

/-! ## Expressions -/

/-- An expression that is put together of others as another one is. -/
theorem Expr.Retold.node {e e' : Expr} (own : e'.Legal d) (faithful : e'.Faithful d.dq)
    (children : Part.AllClear d e'.children) (hl : e'.layout = e.layout)
    (hp : e'.precedence? = e.precedence?) (hc : parensBeforeCast e' = parensBeforeCast e)
    (hw : e'.isWildcard = e.isWildcard) (hleft : e.leftEdge ≤ e'.leftEdge)
    (hright : e.rightEdge ≤ e'.rightEdge) : e.Retold d e' :=
  ⟨Part.obeys_iff.2 ⟨⟨own, faithful⟩, children⟩, hl, hp, hc, hw, hleft, hright⟩

theorem Expr.Legal.ascribe (hd : d.structStyle = .bigQuery) {e : Expr} (h : e.Legal d)
    (type : DataType) : Parse.ascribe e type = .cast .doubleColon e type := by
  unfold Parse.ascribe
  split
  · have hs : StructStyle.duckDb = d.structStyle := h.1
    rw [hd] at hs
    cases hs
  · rfl

/-- Nothing holds more tightly than what is closed. -/
theorem Expr.edges_le (e : Expr) : e.leftEdge ≤ closedEdge ∧ e.rightEdge ≤ closedEdge := by
  have hcast : castPower ≤ closedEdge := by decide
  have hpredicate : leftPower predicateLevel ≤ closedEdge ∧ rightPower predicateLevel ≤ closedEdge := by
    decide
  have hop : ∀ op : BinaryOp,
      leftPower op.precedence ≤ closedEdge ∧ rightPower op.precedence ≤ closedEdge := by
    intro op
    cases op <;> decide
  have hpower : ∀ op : UnaryOp, operandPower op ≤ closedEdge := by
    intro op
    cases op <;> decide
  constructor
  · unfold Expr.leftEdge
    split
    · exact (min_le_left _ _).trans (hop _).1
    all_goals first
      | exact (min_le_left _ _).trans hpredicate.1
      | exact (min_le_left _ _).trans hcast
      | exact hcast
      | exact le_rfl
  · unfold Expr.rightEdge
    split
    · exact (min_le_left _ _).trans (hop _).2
    · exact (min_le_left _ _).trans (hpower _)
    · exact (min_le_left _ _).trans hpredicate.2
    · exact (min_le_left _ _).trans hpredicate.2
    · exact le_rfl

/-- The operand of a cast, in parentheses if they are written around it. -/
def Expr.fence (e : Expr) : Expr :=
  if parensBeforeCast e then .nested e else e

theorem Expr.Retold.fence {e e' : Expr} (h : e.Retold d e') :
    e'.fence.Clear d ∧ parensBeforeCast e'.fence = false ∧
      e'.fence.layout = Layout.parensIf (parensBeforeCast e) e.layout ∧
      e.leftEdge ≤ e'.fence.leftEdge ∧ e.rightEdge ≤ e'.fence.rightEdge := by
  have hc := h.cast
  unfold Expr.fence
  cases hp : parensBeforeCast e with
  | false =>
    rw [hp] at hc
    rw [if_neg (by simp [hc])]
    exact ⟨h.clear, hc, h.layout, h.left, h.right⟩
  | true =>
    rw [hp] at hc
    rw [if_pos hc]
    refine ⟨Part.obeys_iff.2 ⟨⟨trivial, trivial⟩, ?_⟩, rfl, ?_, e.edges_le.1, e.edges_le.2⟩
    · simpa [Part.children, Expr.children] using h.clear
    · rw [Expr.layout, h.layout]
      rfl

theorem Expr.retellable (hd : d.structStyle = .bigQuery) {e : Expr} (own : e.Legal d)
    (kept : e.Kept d.dq) (h : Part.AllRetellable d e.children) : ∃ e', e.Retold d e' := by
  have hexpr : ∀ x, .expr x ∈ e.children → x.Retold d (x.retell d) := fun x hx => (h _ hx).expr
  have hquery : ∀ q, .query q ∈ e.children → q.Retold d (q.retell d) := fun q hq => (h _ hq).query
  cases e with
  | literal value => exact ⟨_, .node own kept (List.forall_mem_nil _) rfl rfl rfl rfl le_rfl le_rfl⟩
  | column ref => exact ⟨_, .node own kept (List.forall_mem_nil _) rfl rfl rfl rfl le_rfl le_rfl⟩
  | placeholder place => exact ⟨_, .node own kept (List.forall_mem_nil _) rfl rfl rfl rfl le_rfl le_rfl⟩
  | binary left op right =>
    have hl := hexpr left (by simp [Expr.children])
    have hr := hexpr right (by simp [Expr.children])
    refine ⟨.binary (left.retell d) op (right.retell d), .node ?_ trivial ?_ ?_ rfl rfl rfl ?_ ?_⟩
    · exact ⟨own.1.trans_le hl.right, own.2.trans hr.left⟩
    · simpa [Expr.children, Part.AllClear] using ⟨hl.clear, hr.clear⟩
    · simp only [Expr.layout, parensLeft, parensRight, hl.layout, hl.precedence, hr.layout,
        hr.precedence]
    · exact min_le_min le_rfl hl.left
    · exact min_le_min le_rfl hr.right
  | unary op operand =>
    have ho := hexpr operand (by simp [Expr.children])
    refine ⟨.unary op (operand.retell d), .node ?_ trivial ?_ ?_ rfl rfl rfl le_rfl ?_⟩
    · exact own.trans ho.left
    · simpa [Expr.children, Part.AllClear] using ho.clear
    · have hp : parensUnary op (operand.retell d) = parensUnary op operand := by
        cases op <;> simp [parensUnary, ho.precedence]
      simp only [Expr.layout, hp, ho.layout]
    · exact min_le_min le_rfl ho.right
  | call call =>
    obtain ⟨name, distinct, es⟩ := call
    obtain ⟨hc, hl⟩ := Part.AllRetellable.exprs _ h
    refine ⟨.call ⟨name, distinct, es.map (retell d)⟩,
      .node own trivial hc ?_ rfl rfl rfl le_rfl le_rfl⟩
    simp only [Expr.layout, FunctionCall.layout, Expr.layouts_eq_map, hl]
  | array withWord es =>
    obtain ⟨hc, hl⟩ := Part.AllRetellable.exprs _ h
    refine ⟨.array withWord (es.map (retell d)), .node trivial trivial hc ?_ rfl rfl rfl le_rfl le_rfl⟩
    simp only [Expr.layout, Expr.layouts_eq_map, hl]
  | struct value =>
    obtain ⟨style, word, fields, arguments⟩ := value
    obtain rfl : style = .bigQuery := own.1.trans hd
    cases arguments with
    | none => exact ⟨_, .node own kept (List.forall_mem_nil _) rfl rfl rfl rfl le_rfl le_rfl⟩
    | some items =>
      obtain ⟨hs, hw, hfl, -, hil⟩ := own
      obtain ⟨hc, hl, hlegal, hfaith⟩ := Part.AllRetellable.items items h
      refine ⟨.struct ⟨.bigQuery, word, fields, some (items.map (SelectItem.retell d))⟩,
        .node ⟨hs, hw, hfl, by simp, ?_⟩ ⟨kept.1, ?_⟩ hc ?_ rfl rfl rfl le_rfl le_rfl⟩
      · rintro _ ⟨⟩
        exact hlegal _ (hil items rfl)
      · rintro _ ⟨⟩
        exact hfaith (kept.2 items rfl)
      · simp only [Expr.layout, StructValue.layout, SelectItem.layouts_eq_map, hl]
  | subquery q =>
    have hq := hquery q (by simp [Expr.children])
    refine ⟨.subquery (q.retell d), .node ?_ trivial ?_ ?_ rfl rfl rfl le_rfl le_rfl⟩
    · exact hq.opens.trans own
    · simpa [Expr.children, Part.AllClear] using hq.clear
    · simp only [Expr.layout, hq.layout]
  | existsQuery q =>
    have hq := hquery q (by simp [Expr.children])
    refine ⟨.existsQuery (q.retell d), .node trivial trivial ?_ ?_ rfl rfl rfl le_rfl le_rfl⟩
    · simpa [Expr.children, Part.AllClear] using hq.clear
    · simp only [Expr.layout, hq.layout]
  | inList tested negated es =>
    have ht := hexpr tested (by simp [Expr.children])
    obtain ⟨hc, hl⟩ := Part.AllRetellable.exprs _ fun p hp => h p (List.mem_cons_of_mem _ hp)
    refine ⟨.inList (tested.retell d) negated (es.map (retell d)),
      .node ⟨own.1.trans_le ht.right, by simpa using own.2⟩ trivial
        (List.forall_mem_cons.2 ⟨ht.clear, hc⟩) ?_ rfl rfl rfl (min_le_min le_rfl ht.left) le_rfl⟩
    simp only [Expr.layout, Expr.layouts_eq_map, ht.layout, hl]
  | inQuery tested negated q =>
    have ht := hexpr tested (by simp [Expr.children])
    have hq := hquery q (by simp [Expr.children])
    refine ⟨.inQuery (tested.retell d) negated (q.retell d),
      .node ⟨own.1.trans_le ht.right, hq.opens.trans own.2⟩ trivial ?_ ?_ rfl rfl rfl
        (min_le_min le_rfl ht.left) le_rfl⟩
    · simpa [Expr.children, Part.AllClear] using ⟨ht.clear, hq.clear⟩
    · simp only [Expr.layout, ht.layout, hq.layout]
  | between tested negated low high =>
    have ht := hexpr tested (by simp [Expr.children])
    have hl := hexpr low (by simp [Expr.children])
    have hh := hexpr high (by simp [Expr.children])
    obtain ⟨h₁, h₂, h₃, h₄⟩ := own
    refine ⟨.between (tested.retell d) negated (low.retell d) (high.retell d),
      .node ⟨h₁.trans_le ht.right, h₂.trans hl.left, h₃.trans_le hl.right, h₄.trans hh.left⟩ trivial
        ?_ ?_ rfl rfl rfl (min_le_min le_rfl ht.left) (min_le_min le_rfl hh.right)⟩
    · simpa [Expr.children, Part.AllClear] using ⟨ht.clear, hl.clear, hh.clear⟩
    · simp only [Expr.layout, ht.layout, hl.layout, hh.layout]
  | isNull tested negated =>
    have ht := hexpr tested (by simp [Expr.children])
    refine ⟨.isNull (tested.retell d) negated,
      .node (own.trans_le ht.right) trivial ?_ ?_ rfl rfl rfl (min_le_min le_rfl ht.left) le_rfl⟩
    · simpa [Expr.children, Part.AllClear] using ht.clear
    · simp only [Expr.layout, ht.layout]
  | like tested negated caseless pattern =>
    have ht := hexpr tested (by simp [Expr.children])
    have hp := hexpr pattern (by simp [Expr.children])
    refine ⟨.like (tested.retell d) negated caseless (pattern.retell d),
      .node ⟨own.1.trans_le ht.right, own.2.trans hp.left⟩ trivial ?_ ?_ rfl rfl rfl
        (min_le_min le_rfl ht.left) (min_le_min le_rfl hp.right)⟩
    · simpa [Expr.children, Part.AllClear] using ⟨ht.clear, hp.clear⟩
    · simp only [Expr.layout, ht.layout, hp.layout]
  | caseWhen operand arms otherwise =>
    simp only [Expr.children, Part.AllRetellable, List.forall_mem_append] at h
    obtain ⟨⟨ho, ha⟩, hw⟩ := h
    obtain ⟨hoc, hol⟩ := Part.AllRetellable.option ho
    obtain ⟨hac, hal⟩ := Part.AllRetellable.arms ha
    obtain ⟨hwc, hwl⟩ := Part.AllRetellable.option hw
    refine ⟨.caseWhen (operand.map (retell d)) (arms.map (WhenArm.retell d)) (otherwise.map (retell d)),
      .node (by simpa [Expr.Legal] using own) trivial ?_ ?_ rfl rfl rfl le_rfl le_rfl⟩
    · simp only [Expr.children, Part.AllClear, List.forall_mem_append]
      exact ⟨⟨hoc, hac⟩, hwc⟩
    · simp only [Expr.layout, Expr.layoutAfter_eq, hal]
      rw [hol (([.gap] : Layout) ++ ·), hwl (([.gap, .keyword .ELSE, .gap] : Layout) ++ ·)]
  | cast style operand type =>
    have ho := hexpr operand (by simp [Expr.children])
    cases style with
    | function =>
      refine ⟨.cast .function (operand.retell d) type,
        .node own kept ?_ ?_ rfl rfl rfl le_rfl le_rfl⟩
      · simpa [Expr.children, Part.AllClear] using ho.clear
      · simp only [Expr.layout, ho.layout]
    | doubleColon =>
      obtain ⟨hc, hp, hl, hleft, hright⟩ := ho.fence
      refine ⟨.cast .doubleColon (operand.retell d).fence type,
        .node ⟨own.1, own.2.1.trans_le hright, ?_⟩ ⟨kept, hp⟩ ?_ ?_ rfl rfl rfl
          (min_le_min le_rfl hleft) le_rfl⟩
      · exact Expr.Legal.ascribe hd hc.head.1 type
      · simpa [Expr.children, Part.AllClear] using hc
      · rw [Expr.layout, Expr.layout, hp, hl]
        rfl
  | nested inner =>
    have hi := hexpr inner (by simp [Expr.children])
    refine ⟨.nested (inner.retell d), .node trivial trivial ?_ ?_ rfl rfl rfl le_rfl le_rfl⟩
    · simpa [Expr.children, Part.AllClear] using hi.clear
    · simp only [Expr.layout, hi.layout]
  | tuple es =>
    obtain ⟨hc, hl⟩ := Part.AllRetellable.exprs _ h
    refine ⟨.tuple (es.map (retell d)), .node ?_ trivial hc ?_ rfl rfl rfl le_rfl le_rfl⟩
    · exact own.trans_eq (List.length_map _).symm
    · simp only [Expr.layout, Expr.layouts_eq_map, hl]
  | wildcard table except replace =>
    cases replace with
    | none => exact ⟨_, .node own kept (List.forall_mem_nil _) rfl rfl rfl rfl le_rfl le_rfl⟩
    | some items =>
      obtain ⟨ht, hx, hil⟩ := own
      obtain ⟨hreplace, hne, hall⟩ := hil items rfl
      obtain ⟨hc, hl, hlegal, hfaith⟩ := Part.AllRetellable.items items h
      refine ⟨.wildcard table except (some (items.map (SelectItem.retell d))),
        .node ⟨ht, hx, ?_⟩ ?_ hc ?_ rfl rfl rfl le_rfl le_rfl⟩
      · rintro _ ⟨⟩
        exact ⟨hreplace, by simpa using hne, hlegal _ hall⟩
      · rintro _ ⟨⟩
        exact hfaith (kept items rfl)
      · simp only [Expr.layout_wildcard, Layout.optional_some, hl]

/-! ## Items to read from -/

theorem Part.AllRetellable.rows {rows : List (List Expr)} (h : Part.AllRetellable d (Part.ofRows rows)) :
    Part.AllClear d (Part.ofRows (rows.map (List.map (Expr.retell d)))) ∧
      Expr.rowLayouts (rows.map (List.map (Expr.retell d))) = Expr.rowLayouts rows := by
  obtain ⟨hc, -⟩ := Part.AllRetellable.exprs _ h
  constructor
  · rwa [Part.ofRows, ← List.map_flatten]
  · rw [Expr.rowLayouts_eq_map, Expr.rowLayouts_eq_map, List.map_map]
    refine List.map_congr_left fun row hrow => ?_
    have hl : (row.map (Expr.retell d)).map Expr.layout = row.map Expr.layout := by
      refine (Part.AllRetellable.exprs (d := d) row ?_).2
      simp only [Part.AllRetellable, Part.ofRows, Part.exprs, List.forall_mem_map] at h ⊢
      exact fun e he => h e (List.mem_flatten.2 ⟨row, hrow, he⟩)
    simp only [Function.comp_apply, Expr.rowLayout, hl]

theorem Part.AllRetellable.joins {js : List Join}
    (h : Part.AllRetellable d (js.flatMap Join.parts)) :
    Part.AllClear d ((js.map (Join.retell d)).flatMap Join.parts) ∧
      Join.layouts (js.map (Join.retell d)) = Join.layouts js := by
  induction js with
  | nil => exact ⟨by simp [Part.AllClear], rfl⟩
  | cons j js ih =>
    obtain ⟨kind, item, constraint⟩ := j
    simp only [Part.AllRetellable, List.flatMap_cons, List.forall_mem_append] at h
    obtain ⟨hj, hrest⟩ := h
    obtain ⟨hc, hl⟩ := ih hrest
    have hi := (hj (.item item) (by simp [Join.parts])).item
    have hconstraint : Part.AllClear d (Join.retell d ⟨kind, item, constraint⟩).parts ∧
        (constraint.retell d).layout = constraint.layout := by
      cases constraint with
      | on condition =>
        have he := (hj (.expr condition) (by simp [Join.parts])).expr
        exact ⟨by simpa [Join.retell, JoinConstraint.retell, Join.parts, Part.AllClear] using
          ⟨hi.clear, he.clear⟩, by simp [JoinConstraint.retell, JoinConstraint.layout, he.layout]⟩
      | _ =>
        exact ⟨by simpa [Join.retell, JoinConstraint.retell, Join.parts, Part.AllClear] using hi.clear,
          rfl⟩
    constructor
    · simp only [Part.AllClear, List.map_cons, List.flatMap_cons, List.forall_mem_append]
      exact ⟨hconstraint.1, hc⟩
    · simp only [List.map_cons, Join.layouts, Join.retell, Join.layout, hi.layout, hconstraint.2, hl]

theorem Join.legal_retell {dq : Bool} {j : Join} (h : j.Legal dq) : (j.retell d).Legal dq := by
  obtain ⟨kind, item, constraint⟩ := j
  cases constraint <;> exact h

theorem Relation.retold {r : Relation} (own : r.Legal d.dq) (h : Part.AllRetellable d r.parts) :
    (r.retell d).Legal d.dq ∧ Part.AllClear d (r.retell d).parts ∧
      (r.retell d).layout = r.layout := by
  cases r with
  | table name => exact ⟨own, nofun, rfl⟩
  | query q =>
    have hq := (h (.query q) (by simp [Relation.parts])).query
    refine ⟨hq.opens.trans own, ?_, by simp only [Relation.retell, Relation.layout, hq.layout]⟩
    simpa [Relation.retell, Relation.parts, Part.AllClear] using hq.clear
  | lateral q =>
    have hq := (h (.query q) (by simp [Relation.parts])).query
    refine ⟨own, ?_, by simp only [Relation.retell, Relation.layout, hq.layout]⟩
    simpa [Relation.retell, Relation.parts, Part.AllClear] using hq.clear
  | function lead call =>
    obtain ⟨name, distinct, es⟩ := call
    obtain ⟨hc, hl⟩ := Part.AllRetellable.exprs _ h
    refine ⟨own, hc, ?_⟩
    simp only [Relation.retell, Relation.layout, FunctionCall.layout, Expr.layouts_eq_map, hl]
  | joined item js =>
    have hi := (h (.item item) (by simp [Relation.parts])).item
    obtain ⟨hc, hl⟩ := Part.AllRetellable.joins fun p hp => h p (List.mem_cons_of_mem _ hp)
    refine ⟨?_, List.forall_mem_cons.2 ⟨hi.clear, hc⟩, ?_⟩
    · simp only [Relation.retell, Relation.Legal, List.forall_mem_map]
      exact fun j hj => Join.legal_retell (own j hj)
    · simp only [Relation.retell, Relation.layout, hi.layout, hl]
  | values rows =>
    obtain ⟨hc, hl⟩ := Part.AllRetellable.rows h
    refine ⟨by simpa [Relation.retell, Relation.Legal] using own, hc, ?_⟩
    simp only [Relation.retell, Relation.layout, hl]

theorem FromItem.retellable {i : FromItem} (own : i.Legal d.dq) (kept : i.Faithful)
    (h : Part.AllRetellable d i.children) : ∃ i', i.Retold d i' := by
  obtain ⟨relation, alias?, pivot, unpivot⟩ := i
  obtain ⟨hr, ha, hp, hu⟩ := own
  simp only [FromItem.children, Part.AllRetellable, List.forall_mem_append] at h
  obtain ⟨⟨hrc, hpc⟩, huc⟩ := h
  obtain ⟨hrl, hrc, hrlay⟩ := Relation.retold hr hrc
  have hpivot : (∀ p ∈ pivot.map (Pivot.retell d), p.Legal d.dq) ∧
      (∀ p ∈ pivot.map (Pivot.retell d), ∀ s ∈ p.aggregates ++ p.items, s.Faithful) ∧
      Part.AllClear d ((pivot.map (Pivot.retell d)).elim []
        fun p => SelectItem.parts (p.aggregates ++ p.items)) ∧
      Layout.optional Pivot.layout (pivot.map (Pivot.retell d)) =
        Layout.optional Pivot.layout pivot := by
    cases pivot with
    | none => exact ⟨by simp, by simp, List.forall_mem_nil _, rfl⟩
    | some p =>
      obtain ⟨aggregates, columns, items, alias?⟩ := p
      obtain ⟨⟨hane, hal⟩, hcol, ⟨hine, hil⟩, hale⟩ := hp _ rfl
      have hf := kept.1 _ rfl
      simp only [Option.elim, SelectItem.parts, List.map_append, List.forall_mem_append] at hpc hf
      obtain ⟨hac, halay, halegal, hafaith⟩ := Part.AllRetellable.items _ hpc.1
      obtain ⟨hic, hilay, hilegal, hifaith⟩ := Part.AllRetellable.items _ hpc.2
      refine ⟨?_, ?_, ?_, ?_⟩
      · rintro _ ⟨⟩
        exact ⟨⟨by simpa [Pivot.retell] using hane, halegal _ hal⟩, hcol,
          ⟨by simpa [Pivot.retell] using hine, hilegal _ hil⟩, hale⟩
      · rintro _ ⟨⟩
        exact List.forall_mem_append.2 ⟨hafaith hf.1, hifaith hf.2⟩
      · simp only [Option.map_some, Option.elim, Pivot.retell, SelectItem.parts, List.map_append,
          Part.AllClear, List.forall_mem_append]
        exact ⟨hac, hic⟩
      · simp only [Option.map_some, Layout.optional_some, Pivot.retell, Pivot.layout,
          SelectItem.layouts_eq_map, halay, hilay]
  have hunpivot : (∀ u ∈ unpivot.map (Unpivot.retell d), u.Legal d.dq) ∧
      (∀ u ∈ unpivot.map (Unpivot.retell d), ∀ s ∈ u.items, s.Faithful) ∧
      Part.AllClear d ((unpivot.map (Unpivot.retell d)).elim []
        fun u => SelectItem.parts u.items) ∧
      Layout.optional Unpivot.layout (unpivot.map (Unpivot.retell d)) =
        Layout.optional Unpivot.layout unpivot := by
    cases unpivot with
    | none => exact ⟨by simp, by simp, List.forall_mem_nil _, rfl⟩
    | some u =>
      obtain ⟨includeNulls, values, names, items, alias?⟩ := u
      obtain ⟨hv, hn, ⟨hine, hil⟩, hale⟩ := hu _ rfl
      obtain ⟨hic, hilay, hilegal, hifaith⟩ := Part.AllRetellable.items items huc
      refine ⟨?_, ?_, hic, ?_⟩
      · rintro _ ⟨⟩
        exact ⟨hv, hn, ⟨by simpa [Unpivot.retell] using hine, hilegal _ hil⟩, hale⟩
      · rintro _ ⟨⟩
        exact hifaith (kept.2 _ rfl)
      · rcases includeNulls with _ | _ | _ <;> simp only [Option.map_some, Layout.optional_some,
          Unpivot.retell, Unpivot.layout, SelectItem.layouts_eq_map, hilay]
  refine ⟨⟨relation.retell d, alias?, pivot.map (Pivot.retell d), unpivot.map (Unpivot.retell d)⟩,
    Part.obeys_iff.2 ⟨⟨⟨hrl, ha, hpivot.1, hunpivot.1⟩, hpivot.2.1, hunpivot.2.1⟩, ?_⟩, ?_⟩
  · simp only [Part.children, FromItem.children, List.forall_mem_append]
    exact ⟨⟨hrc, hpivot.2.2.1⟩, hunpivot.2.2.1⟩
  · simp only [FromItem.layout_eq, hrlay, hpivot.2.2.2, hunpivot.2.2.2]

/-! ## Queries -/

theorem Select.retellable {s : Select} (own : s.Legal d.dq) (kept : ∀ i ∈ s.items, i.Faithful)
    (h : Part.AllRetellable d s.children) : ∃ s', s.Retold d s' := by
  obtain ⟨distinct, items, source, joins, condition, groupBy, having, qualify⟩ := s
  obtain ⟨⟨hne, hil⟩, hsj, hj⟩ := own
  simp only [Select.children, Part.AllRetellable, Part.exprs, List.map_append,
    List.forall_mem_append] at h
  obtain ⟨⟨⟨hi, hs⟩, hjs⟩, ⟨⟨hw, hg⟩, hh⟩, hq⟩ := h
  obtain ⟨hic, hilay, hilegal, hifaith⟩ := Part.AllRetellable.items _ hi
  obtain ⟨hjc, hjlay⟩ := Part.AllRetellable.joins hjs
  obtain ⟨hwc, hwlay⟩ := Part.AllRetellable.option hw
  obtain ⟨hgc, hglay⟩ := Part.AllRetellable.exprs _ hg
  obtain ⟨hhc, hhlay⟩ := Part.AllRetellable.option hh
  obtain ⟨hqc, hqlay⟩ := Part.AllRetellable.option hq
  have hsource : Part.AllClear d ((source.map (FromItem.retell d)).toList.map .item) ∧
      ∀ lead : Layout → Layout,
        Layout.optional (fun i => lead i.layout) (source.map (FromItem.retell d)) =
          Layout.optional (fun i => lead i.layout) source := by
    cases source with
    | none => exact ⟨List.forall_mem_nil _, fun _ => rfl⟩
    | some i =>
      have hi := (hs (.item i) (by simp)).item
      exact ⟨by simpa [Part.AllClear] using hi.clear, fun lead => by simp [hi.layout]⟩
  refine ⟨⟨distinct, items.map (SelectItem.retell d), source.map (FromItem.retell d),
    joins.map (Join.retell d), condition.map (Expr.retell d), groupBy.map (Expr.retell d),
    having.map (Expr.retell d), qualify.map (Expr.retell d)⟩,
    Part.obeys_iff.2 ⟨⟨⟨⟨by simpa using hne, hilegal _ hil⟩, ?_, ?_⟩, hifaith kept⟩, ?_⟩, ?_⟩
  · simpa using hsj
  · simp only [List.forall_mem_map]
    exact fun j hm => Join.legal_retell (hj j hm)
  · simp only [Part.children, Select.children, Part.exprs, List.map_append, List.forall_mem_append]
    exact ⟨⟨⟨hic, hsource.1⟩, hjc⟩, ⟨⟨hwc, hgc⟩, hhc⟩, hqc⟩
  · simp only [Select.layout_eq, hilay, hjlay, hglay, List.isEmpty_map]
    rw [hsource.2 fun l => Layout.behind [.FROM] (l ++ Join.layouts joins),
      hwlay (Layout.behind [.WHERE]), hhlay (Layout.behind [.HAVING]),
      hqlay (Layout.behind [.QUALIFY])]

theorem SetExpr.retellable {b : SetExpr} (own : b.Legal d)
    (h : Part.AllRetellable d b.children) : ∃ b', b.Retold d b' := by
  cases b with
  | select s =>
    have hs := (h (.block s) (by simp [SetExpr.children])).block
    refine ⟨.select (s.retell d), Part.obeys_iff.2 ⟨⟨trivial, trivial⟩, ?_⟩, ?_, rfl, rfl⟩
    · simpa [Part.children, SetExpr.children] using hs.clear
    · simp only [SetExpr.layout, hs.layout]
  | parens q =>
    have hq := (h (.query q) (by simp [SetExpr.children])).query
    refine ⟨.parens (q.retell d), Part.obeys_iff.2 ⟨⟨trivial, trivial⟩, ?_⟩, ?_, rfl, rfl⟩
    · simpa [Part.children, SetExpr.children] using hq.clear
    · simp only [SetExpr.layout, hq.layout]
  | combine op quantifier left right =>
    have hl := (h (.body left) (by simp [SetExpr.children])).body
    have hr := (h (.body right) (by simp [SetExpr.children])).body
    refine ⟨.combine op quantifier (left.retell d) (right.retell d),
      Part.obeys_iff.2 ⟨⟨?_, trivial⟩, ?_⟩, ?_, hl.opens, rfl⟩
    · obtain ⟨h₁, h₂, h₃⟩ := own
      exact ⟨hl.level ▸ h₁, hr.level ▸ h₂, by rwa [hl.layout, hr.layout]⟩
    · simpa [Part.children, SetExpr.children] using ⟨hl.clear, hr.clear⟩
    · simp only [SetExpr.layout, hl.layout, hr.layout]
  | values rows =>
    obtain ⟨hc, hl⟩ := Part.AllRetellable.rows h
    refine ⟨.values (rows.map (List.map (Expr.retell d))),
      Part.obeys_iff.2 ⟨⟨fun hn => own (List.map_eq_nil_iff.1 hn), trivial⟩, hc⟩, ?_, rfl, rfl⟩
    simp only [SetExpr.layout, hl]

theorem With.retold {w : With} (h : Part.AllRetellable d (w.ctes.map fun c => .query c.query)) :
    Part.AllClear d ((w.retell d).ctes.map fun c => .query c.query) ∧
      (w.retell d).layout = w.layout ∧ (w.Legal d.dq → (w.retell d).Legal d.dq) := by
  obtain ⟨recursive, ctes⟩ := w
  simp only [Part.AllRetellable, List.forall_mem_map] at h
  refine ⟨?_, ?_, fun hl => ⟨by simpa [With.retell] using hl.1, ?_, fun hr => ?_⟩⟩
  · simp only [With.retell, Part.AllClear, List.forall_mem_map]
    exact fun c hc => (h c hc).query.clear
  · have hlays : (With.retell d ⟨recursive, ctes⟩).ctes.map Cte.layout = ctes.map Cte.layout := by
      rw [With.retell, List.map_map]
      refine List.map_congr_left fun c hc => ?_
      have hq := (h c hc).query.layout
      obtain ⟨name, columns, query⟩ := c
      simp only [Function.comp_apply, Cte.layout, hq]
    simp only [With.retell] at hlays
    simp only [With.retell, With.layout, Cte.layouts_eq_map, hlays]
  · simpa only [With.retell, List.forall_mem_map] using hl.2.1
  · simpa [With.retell] using hl.2.2 hr

theorem Limit.retold {l : Limit} (own : l.Legal d) (h : Part.AllRetellable d l.parts) :
    Part.AllClear d (l.retell d).parts ∧ (l.retell d).layout = l.layout ∧ (l.retell d).Legal d := by
  obtain ⟨rowCount, offset, all, null, groups⟩ := l
  obtain ⟨hlegal₀, hbelow⟩ := own
  simp only [Limit.parts, Part.exprs, List.map_append, Part.AllRetellable, List.forall_mem_append] at h
  obtain ⟨⟨ho, hr⟩, hg⟩ := h
  obtain ⟨hoc, holay⟩ := Part.AllRetellable.option ho
  obtain ⟨hrc, hrlay⟩ := Part.AllRetellable.option hr
  have hgroups : Part.AllClear d (Part.exprs ((groups.map (List.map (Expr.retell d))).getD [])) ∧
      ∀ lead : List Layout → Layout,
        Layout.optional (fun es => lead (es.map Expr.layout)) (groups.map (List.map (Expr.retell d))) =
          Layout.optional (fun es => lead (es.map Expr.layout)) groups := by
    cases groups with
    | none => exact ⟨List.forall_mem_nil _, fun _ => rfl⟩
    | some es =>
      obtain ⟨hc, hl⟩ := Part.AllRetellable.exprs es hg
      exact ⟨hc, fun lead => by rw [Option.map_some, Layout.optional_some, hl, Layout.optional_some]⟩
  have hcount : null = true ∨ all = true ∨ rowCount ≠ none := by
    rcases hlegal₀ with h | h | ⟨-, -, count, h, -⟩
    · exact .inl h.1
    · exact .inr (.inl h.2.1)
    · exact .inr (.inr (Option.ne_none_iff_exists'.2 ⟨count, h⟩))
  refine ⟨?_, ?_, ?_, ?_⟩
  · simp only [Limit.retell, Limit.parts, Part.exprs, List.map_append, Part.AllClear,
      List.forall_mem_append]
    exact ⟨⟨hoc, hrc⟩, hgroups.1⟩
  · rw [Limit.layout_eq (l := ⟨rowCount, offset, all, null, groups⟩) hcount,
      Limit.layout_eq (by simpa [Limit.retell] using hcount)]
    have hr := hrlay id
    have ho := holay (· ++ [.symbol .comma, .gap])
    have hg := hgroups.2 fun ls => Layout.behind [.BY] (Layout.commas ls)
    simp only [id] at hr
    simp only [Limit.retell, Limit.count, hr, ho, hg]
  · refine hlegal₀.imp ?_ (Or.imp ?_ ?_)
    · simp +contextual [Limit.retell]
    · simp +contextual [Limit.retell]
    · rintro ⟨hn, ha, count, rfl, hk⟩
      have hlay : ((offset.map (Expr.retell d)).getD (count.retell d)).layout =
          (offset.getD count).layout := by
        cases offset with
        | none => exact (hr (.expr count) (by simp)).expr.layout
        | some o => exact (ho (.expr o) (by simp)).expr.layout
      refine ⟨hn, ha, count.retell d, rfl, ?_⟩
      rwa [← hlay] at hk
  · intro es' hes'
    obtain ⟨es, hes, rfl⟩ := Option.map_eq_some_iff.1 hes'
    exact ⟨(hbelow es hes).1, by simpa using (hbelow es hes).2⟩

theorem Query.retellable {q : Query} (own : q.Legal d) (h : Part.AllRetellable d q.children) :
    ∃ q', q.Retold d q' := by
  obtain ⟨ctes, body, orderBy, limitBy, limit, offset⟩ := q
  obtain ⟨hw, hby, hl⟩ := own
  simp only [Query.children, Part.AllRetellable, List.forall_mem_append, List.forall_mem_singleton] at h
  obtain ⟨⟨⟨⟨⟨hwc, hbc⟩, hoc⟩, hbyc⟩, hlc⟩, hofc⟩ := h
  have hb := hbc.body
  have hwith : Part.AllClear d ((ctes.map (With.retell d)).elim []
        fun w => w.ctes.map fun c => .query c.query) ∧
      Layout.optional With.layout (ctes.map (With.retell d)) = Layout.optional With.layout ctes ∧
      ∀ w ∈ ctes.map (With.retell d), w.Legal d.dq := by
    cases ctes with
    | none => exact ⟨nofun, rfl, nofun⟩
    | some w =>
      obtain ⟨hc, hlay, hlegal⟩ := With.retold hwc
      refine ⟨hc, hlay, ?_⟩
      rintro _ ⟨⟩
      exact hlegal (hw w rfl)
  have horder : Part.AllClear d ((orderBy.map (OrderItem.retell d)).map fun o => .expr o.expr) ∧
      (orderBy.map (OrderItem.retell d)).map OrderItem.layout = orderBy.map OrderItem.layout := by
    simp only [List.forall_mem_map] at hoc
    constructor
    · simp only [Part.AllClear, List.forall_mem_map]
      exact fun o ho => (hoc o ho).expr.clear
    · rw [List.map_map]
      refine List.map_congr_left fun o ho => ?_
      simp only [Function.comp_apply, OrderItem.layout_eq, OrderItem.retell, (hoc o ho).expr.layout]
  have hlimit : ∀ l? : Option Limit, (∀ l ∈ l?, l.Legal d) →
      (∀ p ∈ l?.elim [] Limit.parts, p.Retellable d) →
      Part.AllClear d ((l?.map (Limit.retell d)).elim [] Limit.parts) ∧
        Layout.optional Limit.layout (l?.map (Limit.retell d)) = Layout.optional Limit.layout l? ∧
        ∀ l ∈ l?.map (Limit.retell d), l.Legal d := by
    intro l? hlegal hparts
    cases l? with
    | none => exact ⟨nofun, rfl, nofun⟩
    | some l =>
      obtain ⟨hc, hlay, hl⟩ := Limit.retold (hlegal l rfl) hparts
      refine ⟨hc, hlay, ?_⟩
      rintro _ ⟨⟩
      exact hl
  have hoffset : Part.AllClear d ((offset.map (Offset.retell d)).elim [] fun o => [.expr o.count]) ∧
      Layout.optional Offset.layout (offset.map (Offset.retell d)) =
        Layout.optional Offset.layout offset := by
    cases offset with
    | none => exact ⟨nofun, rfl⟩
    | some o =>
      obtain ⟨count, word⟩ := o
      have hc := (hofc (.expr count) (by simp)).expr
      exact ⟨by simpa [Offset.retell, Part.AllClear] using hc.clear,
        by simp [Offset.retell, Offset.layout, hc.layout]⟩
  obtain ⟨hbc, hblay, hblegal⟩ := hlimit limitBy (fun l h => (hby l h).1) hbyc
  obtain ⟨hlc, hllay, hllegal⟩ := hlimit limit (fun l h => (hl l h).1) hlc
  refine ⟨⟨ctes.map (With.retell d), body.retell d, orderBy.map (OrderItem.retell d),
    limitBy.map (Limit.retell d), limit.map (Limit.retell d), offset.map (Offset.retell d)⟩,
    Part.obeys_iff.2 ⟨⟨⟨hwith.2.2, ?_, ?_⟩, trivial⟩, ?_⟩, ?_, ?_⟩
  · intro l' hl'
    refine ⟨hblegal l' hl', ?_⟩
    obtain ⟨l, hm, rfl⟩ := Option.map_eq_some_iff.1 hl'
    simpa [Limit.retell] using (hby l hm).2
  · intro l' hl'
    refine ⟨hllegal l' hl', fun hn => ?_⟩
    obtain ⟨l, hm, rfl⟩ := Option.map_eq_some_iff.1 hl'
    simpa [Limit.retell] using (hl l hm).2 (by simpa using hn)
  · simp only [Part.children, Query.children, List.forall_mem_append, List.forall_mem_singleton]
    exact ⟨⟨⟨⟨⟨hwith.1, hb.clear⟩, horder.1⟩, hbc⟩, hlc⟩, hoffset.1⟩
  · simp only [Query.layout_eq, hwith.2.1, hb.layout, horder.2, hblay, hllay, hoffset.2,
      List.isEmpty_map]
  · simp only [Query.opens, Option.isSome_map, hb.opens]

/-! ## All parts -/

/-- There is a clear part that is written like a legal one whose form says all but parentheses. -/
theorem Part.retellable (hd : d.structStyle = .bigQuery) {p : Part}
    (h : p.Obeys fun q => q.Legal d ∧ q.Kept d) : p.Retellable d := by
  refine Part.Obeys.induct (P := Part.Retellable d) (fun p hp ih => ?_) h
  obtain ⟨own, kept⟩ := hp.head
  cases p with
  | expr e => exact Expr.retellable hd own kept ih
  | query q => exact Query.retellable own ih
  | body b => exact SetExpr.retellable own ih
  | block s => exact Select.retellable own kept ih
  | item i => exact FromItem.retellable own kept ih

end SqlTree
