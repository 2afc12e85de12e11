import Mathlib
import SqlTree.Proofs.Spending.Expr

/-! # Operators and what they take

* `Expr.Read.binary`, `Expr.Read.ascribe` and the like: an expression put together of others that are
  read one behind the other.
* `spends_extend`: what goes on behind an operand.
* `spends_expression`: an operand with everything behind it.
-/

namespace SqlTree
set_option autoImplicit false

open Parse

variable {d : Dialect} {c c₁ c₂ c₃ c₄ c' : Cursor} {e left right tested : Expr}

/-! ## Expressions with an operand at the end -/

/-- An expression that ends with another one in front of the cursor. -/
theorem Expr.Read.ending {whole : Expr} (m : Layout) (wrap : Bool) {b : Cursor}
    (h : (Part.expr whole).Read d c c') (he : e.Read d b c')
    (hb : whole.layout.Begins d.dq (c.peek 0 = .keyword .NULL))
    (hl : whole.layout = m ++ Layout.parensIf wrap e.layout)
    (hm : ∀ p, p = .symbol .star ∨ p = .keyword .DOUBLE → m.getLast? ≠ some p)
    (hstrict : (Part.expr e).cost d + c'.loose < b.loose →
      (Part.expr whole).cost d + c'.loose < c.loose) : whole.Read d c c' := by
  refine ⟨h, hb, fun hs => he.sheds ?_, fun hd hw => hstrict (he.double ?_ hw)⟩
  · rw [hl] at hs
    exact Layout.getLast?_parensIf (Layout.getLast?_behind hs (hm _ (.inl rfl))) (by simp)
  · rw [hl] at hd
    exact Layout.getLast?_parensIf (Layout.getLast?_behind hd (hm _ (.inr rfl))) (by simp)

/-- An expression that holds nothing loose of its own costs what the parts in it cost. -/
theorem Expr.cost_le (hl : e.layout.loose = Part.looses e.children) (hk : e.Kept d.dq) :
    (Part.expr e).cost d ≤ Part.costs d e.children := by
  have h := Part.cost_le (d := d) (p := .expr e) (m := 0) (n := 0)
    (hl.le.trans (Nat.le_add_left _ _)) fun _ => hk
  simpa [Part.children] using h

theorem BinaryOp.looseCount_piece (op : BinaryOp) : looseCount op.piece.text.toList = 0 := by
  have h : Layout.loose [op.piece] = 0 := by cases op <;> simp [BinaryOp.piece]
  simpa [Layout.loose_cons] using h

theorem UnaryOp.looseCount_piece (op : UnaryOp) : looseCount op.piece.text.toList = 0 := by
  have h : Layout.loose [op.piece] = 0 := by cases op <;> simp [UnaryOp.piece]
  simpa [Layout.loose_cons] using h

theorem loose_negation (negated : Bool) : (negation negated).loose = 0 := by
  cases negated <;> simp [negation]

theorem Expr.cost_binary (left : Expr) (op : BinaryOp) (right : Expr) :
    (Part.expr (.binary left op right)).cost d ≤
      (Part.expr left).cost d + (Part.expr right).cost d := by
  have h := Expr.cost_le (d := d) (e := .binary left op right) (by
    simp [Expr.layout, Expr.children, Layout.loose_cons op.piece, op.looseCount_piece, Part.layout])
    trivial
  simpa [Expr.children] using h

theorem Expr.cost_unary (op : UnaryOp) (operand : Expr) :
    (Part.expr (.unary op operand)).cost d ≤ (Part.expr operand).cost d := by
  have hgap : ∀ inner : Layout, (gapAfterUnary op inner).loose = 0 := by
    intro inner
    cases op <;> simp [gapAfterUnary]
  have h := Expr.cost_le (d := d) (e := .unary op operand) (by
    simp [Expr.layout, Expr.children, Layout.loose_cons op.piece, op.looseCount_piece, hgap,
      Part.layout]) trivial
  simpa [Expr.children] using h

theorem Expr.cost_between (tested : Expr) (negated : Bool) (low high : Expr) :
    (Part.expr (.between tested negated low high)).cost d ≤
      (Part.expr tested).cost d + ((Part.expr low).cost d + (Part.expr high).cost d) := by
  have h := Expr.cost_le (d := d) (e := .between tested negated low high) (by
    simp [Expr.layout, Expr.children, loose_negation, Part.layout]) trivial
  simpa [Expr.children] using h

theorem Expr.cost_like (tested : Expr) (negated caseless : Bool) (pattern : Expr) :
    (Part.expr (.like tested negated caseless pattern)).cost d ≤
      (Part.expr tested).cost d + (Part.expr pattern).cost d := by
  have h := Expr.cost_le (d := d) (e := .like tested negated caseless pattern) (by
    cases caseless <;> simp [Expr.layout, Expr.children, loose_negation, Part.layout]) trivial
  simpa [Expr.children] using h

theorem Expr.Read.binary (op : BinaryOp) (hl : left.Read d c c₁) (hc : c₂.loose ≤ c₁.loose)
    (hr : right.Read d c₂ c') : (Expr.binary left op right).Read d c c' := by
  have hcost := Expr.cost_binary (d := d) left op right
  have h₁ := hl.cost
  have h₂ := hr.cost
  refine .ending (Layout.parensIf (parensLeft op left) left.layout ++ [.gap, op.piece, .gap])
    (parensRight op right) ⟨Part.obeys_iff.2 ⟨fun h => h.head, ?_⟩, by omega⟩ hr ?_
    (by rw [Expr.layout]) ?_ (by omega)
  · simpa [Part.children, Expr.children] using ⟨hl.fine, hr.fine⟩
  · rw [Expr.layout, List.append_assoc]
    exact (hl.begins.parensIf _).append _
  · rintro p (rfl | rfl) <;> simp [List.getLast?_append]

theorem Expr.Read.unary (op : UnaryOp) (hc : c₁.loose ≤ c.loose) (h : e.Read d c₁ c') :
    (Expr.unary op e).Read d c c' := by
  have hcost := Expr.cost_unary (d := d) op e
  have h₁ := h.cost
  refine .ending (op.piece :: gapAfterUnary op (Layout.parensIf (parensUnary op e) e.layout))
    (parensUnary op e) ⟨Part.obeys_iff.2 ⟨fun h => h.head, ?_⟩, by omega⟩ h ?_
    (by rw [Expr.layout]) ?_ (by omega)
  · simpa [Part.children, Expr.children] using h.fine
  · rw [Expr.layout]
    cases op with
    | not => exact Layout.begins_keyword (by simp) _
    | _ => exact Layout.begins_symbol _ _
  · rintro p (rfl | rfl) <;> cases op with
    | not => simp [gapAfterUnary]
    | _ =>
      simp only [gapAfterUnary, Layout.onlyIf, UnaryOp.piece]
      split <;> simp

/-! ## Predicates -/

theorem Expr.Read.like (negated caseless : Bool) (ht : tested.Read d c c₁)
    (hc : c₂.loose ≤ c₁.loose) (hr : right.Read d c₂ c') :
    (Expr.like tested negated caseless right).Read d c c' := by
  have hcost := Expr.cost_like (d := d) tested negated caseless right
  have h₁ := ht.cost
  have h₂ := hr.cost
  refine .ending (tested.layout ++ negation negated ++
      [.gap, .keyword (if caseless then .ILIKE else .LIKE), .gap]) false
    ⟨Part.obeys_iff.2 ⟨fun h => h.head, ?_⟩, by omega⟩ hr ?_ (by rw [Expr.layout]; rfl) ?_ (by omega)
  · simpa [Part.children, Expr.children] using ⟨ht.fine, hr.fine⟩
  · simp only [Expr.layout, List.append_assoc]
    exact ht.begins.append _
  · rintro p (rfl | rfl) <;> simp [List.getLast?_append]

theorem Expr.Read.between (negated : Bool) (ht : tested.Read d c c₁) (hc : c₂.loose ≤ c₁.loose)
    (hl : left.Read d c₂ c₃) (hand : leftPower BinaryOp.and.precedence < left.rightEdge)
    (hc' : c₄.loose ≤ c₃.loose) (hr : right.Read d c₄ c') :
    (Expr.between tested negated left right).Read d c c' := by
  have hcost := Expr.cost_between (d := d) tested negated left right
  have h₁ := ht.cost
  have h₂ := hl.cost
  have h₃ := hr.cost
  refine .ending (tested.layout ++ negation negated ++ [.gap, .keyword .BETWEEN, .gap] ++
      left.layout ++ [.gap, .keyword .AND, .gap]) false
    ⟨Part.obeys_iff.2 ⟨fun h => ?_, ?_⟩, by omega⟩ hr ?_ (by rw [Expr.layout]; rfl) ?_ (by omega)
  · obtain ⟨htested, hlow, hhigh⟩ := h.head
    exact ⟨htested, hlow, hand, hhigh⟩
  · simpa [Part.children, Expr.children] using ⟨ht.fine, hl.fine, hr.fine⟩
  · simp only [Expr.layout, List.append_assoc]
    exact ht.begins.append _
  · rintro p (rfl | rfl) <;> simp [List.getLast?_append, List.getLast?_cons]

/-! ## Casts -/

theorem DataType.getLast?_layout (t : DataType) (s : Symbol) (hs : s ≠ .rightParen)
    (hb : s ≠ .rightBracket) : t.layout.getLast? ≠ some (.symbol s) := by
  cases t with
  | struct form fields =>
    cases form <;> simp [layout, Layout.parens, List.getLast?_cons, List.getLast?_append, hs.symm]
  | array form element => cases form <;> simp [layout, List.getLast?_cons, List.getLast?_append, hb.symm]
  | plain type => simp [layout]
  | sized type length =>
    cases length <;> simp [layout, lengthLayout, Layout.parens, List.getLast?_cons, hs.symm]
  | scaled type precision scale =>
    cases precision <;> cases scale <;>
      simp [layout, scaleLayout, Layout.parens, List.getLast?_cons, hs.symm]
  | custom name ms =>
    cases ms <;> simp [layout, Layout.onlyIf, Layout.parens, List.getLast?_cons, hs.symm]

/-- Behind a struct value in braces without typed fields a type may give the fields. -/
theorem ascribe_cases (e : Expr) (type : DataType) :
    ascribe e type = .cast .doubleColon e type ∨ ∃ word arguments fields,
      e = .struct ⟨.duckDb, word, none, arguments⟩ ∧ type = .struct .parens fields ∧
        ascribe e type = .struct ⟨.duckDb, word, some fields, arguments⟩ := by
  unfold ascribe
  split
  · exact .inr ⟨_, _, _, rfl, rfl, rfl⟩
  · exact .inl rfl

theorem Expr.cost_cast (e : Expr) (type : DataType) :
    (Part.expr (.cast .doubleColon e type)).cost d ≤ (Part.expr e).cost d + type.cost d.dq := by
  have h := Part.cost_le (d := d) (p := .expr (.cast .doubleColon e type)) (m := type.layout.loose)
    (n := type.lapse d.dq) (by
      simp [Part.layout, Expr.layout, Part.children, Expr.children, Nat.add_comm])
    DataType.faithful_of_lapse
  simp only [Part.children, Expr.children, Part.costs_cons, Part.costs_nil] at h
  rw [DataType.cost]
  omega

theorem Expr.cost_typed (word : Option String) (arguments : Option (List SelectItem))
    (fields : List StructField) :
    (Part.expr (.struct ⟨.duckDb, word, some fields, arguments⟩)).cost d ≤
      (Part.expr (.struct ⟨.duckDb, word, none, arguments⟩)).cost d +
        (DataType.struct .parens fields).cost d.dq := by
  have hloose : (Expr.struct ⟨.duckDb, word, some fields, arguments⟩).layout.loose =
      (Expr.struct ⟨.duckDb, word, none, arguments⟩).layout.loose +
        (DataType.struct .parens fields).layout.loose := by
    simp [Expr.layout, StructValue.layout_duckDb, StructField.castLayout, DataType.layout,
      StructField.layouts_eq_map, Function.comp_def]
  have hlapse : (Part.expr (.struct ⟨.duckDb, word, some fields, arguments⟩)).lapse d ≤
      (Part.expr (.struct ⟨.duckDb, word, none, arguments⟩)).lapse d +
        (DataType.struct .parens fields).lapse d.dq := by
    refine Part.lapse_le fun h => ?_
    rw [Nat.add_eq_zero_iff] at h
    obtain ⟨-, hitems⟩ : StructValue.Faithful d.dq ⟨.duckDb, word, none, arguments⟩ :=
      Part.kept_of_lapse h.1
    refine ⟨?_, hitems⟩
    rintro _ ⟨⟩
    exact DataType.faithful_of_lapse h.2
  simp only [Part.cost, Part.lapses_eq, DataType.cost, Part.layout, Part.children, Expr.children]
  omega

theorem Expr.Read.cast {type : DataType} (hcast : ascribe e type = .cast .doubleColon e type)
    (he : e.Read d c c₁) (hc : c₂.loose ≤ c₁.loose) (ht : type.Read d.dq c₂ c') :
    (Expr.cast .doubleColon e type).Read d c c' := by
  have hcost := Expr.cost_cast (d := d) e type
  have h₁ := he.cost
  have h₂ := ht.cost
  have hlast : ∀ p, type.layout.getLast? ≠ some p → p ≠ .symbol .doubleColon →
      (Expr.cast .doubleColon e type).layout.getLast? ≠ some p := by
    intro p hp hne hl
    rw [Expr.layout] at hl
    cases hm : type.layout.getLast? with
    | none => simp [List.getLast?_append, List.getLast?_cons, hm, hne.symm] at hl
    | some q => simp_all [List.getLast?_append, List.getLast?_cons]
  refine ⟨⟨Part.obeys_iff.2 ⟨fun h => ⟨ht.legal, h.head, hcast⟩, ?_⟩, by omega⟩, ?_, ?_, ?_⟩
  · simpa [Part.children, Expr.children] using he.fine
  · rw [Expr.layout]
    exact (he.begins.parensIf _).append _
  · intro hl
    exact absurd hl (hlast _ (type.getLast?_layout .star (by simp) (by simp)) (by simp))
  · intro hl hw
    have hd := ht.double (by by_contra h; exact hlast _ h (by simp) hl) hw
    omega

/-- In a dialect without braces the form says nothing of values in them. -/
theorem Expr.Read.ascribe {type : DataType} (hd : d.structStyle = .bigQuery) (he : e.Read d c c₁)
    (hc : c₂.loose ≤ c₁.loose) (ht : type.Read d.dq c₂ c') :
    (Parse.ascribe e type).Read d c c' := by
  rcases ascribe_cases e type with h | ⟨word, arguments, fields, rfl, rfl, h⟩
  · rw [h]
    exact he.cast h hc ht
  rw [h]
  have hcost := Expr.cost_typed (d := d) word arguments fields
  have h₁ := he.cost
  have h₂ := ht.cost
  refine .closed ⟨Part.obeys_iff.2 ⟨fun hform => ?_, fun q hq => he.fine.child hq⟩, by omega⟩ ?_ ?_ ?_
  · have hstyle : StructStyle.duckDb = d.structStyle := hform.head.1
    rw [hd] at hstyle
    cases hstyle
  · have hbegins := he.begins
    simp only [Expr.layout, StructValue.layout_duckDb] at hbegins ⊢
    cases arguments with
    | none => exact Layout.begins_symbol _ _
    | some items => exact Layout.begins_symbol _ _
  · simp [Expr.layout, StructValue.layout_duckDb, StructField.castLayout, List.getLast?_append,
      List.getLast?_cons]
  · simp [Expr.layout, StructValue.layout_duckDb, StructField.castLayout, List.getLast?_append,
      List.getLast?_cons]

/-- Where a word follows that nothing ends with, an expression may end as well. -/
theorem Expr.Read.behindKeyword {k : Keyword} (h : e.Read d c c₁) (hc : c'.loose ≤ c₁.loose)
    (hk : c'.peek 0 = .keyword k) (hne : k ≠ .EXCEPT) : e.Read d c c' where
  fine := h.fine
  cost := (Nat.add_le_add_left hc _).trans h.cost
  begins := h.begins
  sheds _ := by simp [Cursor.opensExcept, hk, hne]
  double _ hw := by simp [hk, isWord] at hw

namespace Parse

variable {g : Productions} (hg : g.Read d) {b : Cursor}

/-! ## What goes on behind an operand -/

section Predicates

variable (ht : tested.Read d b c)
include ht

theorem spends_nullTest : Spends d.dq c (nullTest tested) fun e c' => e.Read d b c' := by
  have hread : ∀ (negated : Bool) (c₁ : Cursor), c₁.loose ≤ c.loose →
      Spends d.dq c₁ (do expectKeyword .NULL; return Expr.isNull tested negated)
        fun e c' => e.Read d b c' := by
    intro negated c₁ h₁
    have h₂ := ht.cost
    refine .expectKeyword fun _ h₃ => .pure (.closed ?_ ?_ ?_ ?_)
    · refine .node (m := 0) (n := 0) (fun h => h.head) ?_ ?_ (fun _ => trivial) ?_
      · simpa [Part.children, Expr.children] using ht.fine
      · simp [Part.layout, Expr.layout, Part.children, Expr.children, loose_negation]
      · simp [Part.children, Expr.children]
        omega
    · simp only [Expr.layout, List.append_assoc]
      exact ht.begins.append _
    · simp [Expr.layout, List.getLast?_append, List.getLast?_cons]
    · simp [Expr.layout, List.getLast?_append, List.getLast?_cons]
  refine .expectKeyword fun _ h₁ => .takeKeyword (fun _ h₂ => hread true _ ?_)
    fun _ => hread false _ ?_
  · omega
  · omega

include hg

theorem spends_membership (negated : Bool) :
    Spends d.dq c (membership g tested negated) fun e c' => e.Read d b c' := by
  have h₀ := ht.cost
  refine .expectKeyword fun _ h₁ => .expectSymbol fun _ h₂ => .queryAt (fun hq => ?_) fun _ => ?_
  · refine (hg.query _).bind fun q c₁ _ hquery => .expectSymbol fun _ h₃ => .pure ?_
    obtain ⟨h, hopens⟩ := hquery
    have h₄ := h.cost
    refine .closed ?_ ?_ ?_ ?_
    · refine .node (m := 0) (n := 0) (fun hform => ⟨hform.head, hopens hq⟩) ?_ ?_ (fun _ => trivial) ?_
      · simpa [Part.children, Expr.children] using ⟨ht.fine, h.fine⟩
      · simp [Part.layout, Expr.layout, Part.children, Expr.children, loose_negation]
      · simp [Part.children, Expr.children]
        omega
    · simp only [Expr.layout, List.append_assoc]
      exact ht.begins.append _
    · simp [Expr.layout, Layout.parens, List.getLast?_append, List.getLast?_cons]
    · simp [Expr.layout, Layout.parens, List.getLast?_append, List.getLast?_cons]
  · refine (spends_exprList hg).bind fun es c₁ _ hes => .expectSymbol fun _ h₃ => .pure ?_
    obtain ⟨-, h⟩ := hes
    have h₄ := h.cost
    refine .closed ?_ ?_ ?_ ?_
    · refine .node (m := 0) (n := 0) (fun hform => hform.head) ?_ ?_ (fun _ => trivial) ?_
      · simpa only [Part.children, Expr.children, List.forall_mem_cons] using ⟨ht.fine, h.fine⟩
      · simp [Part.layout, Expr.layout, Part.children, Expr.children, loose_negation,
          Expr.layouts_eq_map, Function.comp_def]
      · simp [Part.children, Expr.children]
        omega
    · simp only [Expr.layout, List.append_assoc]
      exact ht.begins.append _
    · simp [Expr.layout, Layout.parens, List.getLast?_append, List.getLast?_cons]
    · simp [Expr.layout, Layout.parens, List.getLast?_append, List.getLast?_cons]

theorem spends_betweenTest (negated : Bool) :
    Spends d.dq c (betweenTest g tested negated) fun e c' => e.Read d b c' := by
  have hpower : rightPower predicateLevel ≤ castPower := by decide
  refine .expectKeyword fun _ h₁ => (hg.expr _ hpower _).bind fun low c₁ _ ⟨hlow, hreach⟩ => ?_
  refine .intro fun hgen => .expectKeyword fun hand h₂ => (hg.expr _ hpower _).bind
    fun high c₂ _ ⟨hhigh, _⟩ => .pure (ht.between negated (by omega) hlow ?_ (by omega) hhigh)
  -- The lower bound ends in front of `AND`.
  refine hreach _ ?_
  rw [Cursor.reach, hgen.current_kind, hand]
  rfl

theorem spends_likeTest (negated : Bool) :
    Spends d.dq c (likeTest g tested negated) fun e c' => e.Read d b c' :=
  .look (fun _ => rfl) (.advance fun h₁ => (hg.expr _ (by decide) _).bind
    fun _ _ _ ⟨h, _⟩ => .pure (ht.like negated _ h₁ h))

theorem spends_predicate (negated : Bool) :
    Spends d.dq c (predicate g tested negated) fun e c' => e.Read d b c' :=
  .keywordAt (fun _ => spends_membership hg ht negated)
    fun _ => .keywordAt (fun _ => spends_betweenTest hg ht negated)
      fun _ => spends_likeTest hg ht negated

end Predicates

include hg

theorem spends_extend (hd : d.structStyle = .bigQuery) (power : Nat) (hl : left.Read d b c) :
    Spends d.dq c (extend g power left) fun o c' =>
      o.elim (left.Read d b c') fun e => e.Read d b c' := by
  have hnone : Spends d.dq c (Pure.pure none : Parse (Option Expr)) fun o c' =>
      o.elim (left.Read d b c') fun e => e.Read d b c' := .pure hl
  have hsome : ∀ {p : Parse Expr} {e : Cursor}, Spends d.dq e p (fun e c' => e.Read d b c') →
      Spends d.dq e (do return some (← p)) fun o c' =>
        o.elim (left.Read d b c') fun e => e.Read d b c' :=
    fun h => h.bind fun _ _ _ h => .pure h
  refine .current (.ite (fun _ => .ite (fun _ => hnone) fun _ => ?_) fun _ => ?_)
  · exact .advance fun h₁ => spends_dataType.bind fun type c₁ _ ht => .pure (hl.ascribe hd h₁ ht)
  split
  · next op _ =>
    have hpower : rightPower op.precedence ≤ castPower := by
      have := op.precedence_bounds
      simp only [rightPower, castPower, leftPower]
      omega
    exact .ite (fun _ => hnone) fun _ => .advance fun h₁ =>
      (hg.expr _ hpower _).bind fun _ _ _ h => .pure (hl.binary op h₁ h.1)
  · refine .ite (fun _ => hnone) fun _ => .ite (fun _ => hsome (spends_nullTest hl)) fun _ => ?_
    refine .ite (fun _ => ?_) fun _ => hsome (spends_predicate hg hl false)
    refine .test (g := fun c => (c.peek 1).keyword?.any negatedWords.contains) (fun _ => rfl)
      (fun hw => .advance fun h₁ => ?_) fun _ => hnone
    obtain ⟨k, hk, hm⟩ : ∃ k, c.peek 1 = .keyword k ∧ k ∈ negatedWords := by
      cases hp : c.peek 1 <;> simp [hp, TokenKind.keyword?] at hw ⊢
      exact hw
    refine hsome (spends_predicate hg (hl.behindKeyword h₁ (by simpa using hk) ?_) true)
    rintro rfl
    exact absurd hm (by decide)

theorem spends_operand (hd : d.structStyle = .bigQuery) :
    Spends d.dq c (operand g d) fun e c' => e.Read d c c' := by
  refine .current ?_
  split
  · next op _ =>
    have hpower : operandPower op ≤ castPower := by cases op <;> decide
    exact .advance fun h₁ => (hg.expr _ hpower _).bind fun _ _ _ ⟨h, _⟩ => .pure (h.unary op h₁)
  · exact spends_primary hg hd

/-- The rounds of the loop keep what holds of the expression read so far. -/
theorem spends_expression (hd : d.structStyle = .bigQuery) (power : Nat) :
    Spends d.dq c (expression g d power) fun e c' => e.Read d c c' :=
  (spends_operand hg hd).bind fun _ _ _ he =>
    .repeatFrom (I := fun e c' => e.Read d c c') he fun _ _ _ h => spends_extend hg hd power h

end Parse

end SqlTree
