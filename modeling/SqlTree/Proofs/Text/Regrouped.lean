import Mathlib
import SqlTree.Proofs.Text.Query

/-! # Bodies that nest in another way than the grammar

The operands of a set operator are written without parentheses around them. So the text of a body is
the same however its operators are nested, and what is read from it nests as the grammar does: the
tighter operator first, then from the left to the right.

* `SetExpr.operands`: the operands of all operators of a body, in the order they are written in.
* `SetExpr.Nested`: every operator nests as the grammar nests it.
* `SetExpr.regroup`: the same operators between the same operands, nested as the grammar does.
* `SetExpr.parseStatement_of_operands`: from the text of any body its `regroup` is read.
* `SetExpr.parseStatement_iff_nested`: a body comes back from its text just if it is `Nested`.
-/

namespace SqlTree
set_option autoImplicit false

namespace SetExpr

/-! ## How operators nest -/

/-- The operands of all operators of a body, in the order they are written in. -/
def operands : SetExpr → List SetExpr
  | .combine _ _ left right => left.operands ++ right.operands
  | b => [b]

/-- Every operator holds its left operand as tightly as itself, and its right one tighter. -/
def Nested : SetExpr → Prop
  | .combine op _ left right =>
    (op.level ≤ left.level ∧ op.level < right.level) ∧ left.Nested ∧ right.Nested
  | _ => True

/-- A body with an operator and an operand written behind it. A looser operator at the end of the
body lets the new one have its right operand. -/
def addOperand : SetExpr → SetOperator → SetQuantifier → SetExpr → SetExpr
  | .combine op' quantifier' left right, op, quantifier, operand =>
    if op'.level < op.level then
      .combine op' quantifier' left (right.addOperand op quantifier operand)
    else .combine op quantifier (.combine op' quantifier' left right) operand
  | b, op, quantifier, operand => .combine op quantifier b operand

/-- A body with an operator and all of another body written behind it. -/
def addBody (b : SetExpr) (op : SetOperator) (quantifier : SetQuantifier) : SetExpr → SetExpr
  | .combine op' quantifier' left right =>
    (b.addBody op quantifier left).addBody op' quantifier' right
  | operand => b.addOperand op quantifier operand

/-- The same operators between the same operands, nested as the grammar nests them. -/
def regroup : SetExpr → SetExpr
  | .combine op quantifier left right => left.regroup.addBody op quantifier right
  | b => b

variable {b acc left right operand : SetExpr} {op : SetOperator} {quantifier : SetQuantifier}

@[simp]
theorem level_combine : (combine op quantifier left right).level = op.level := rfl

@[simp]
theorem nested_combine : (combine op quantifier left right).Nested ↔
    (op.level ≤ left.level ∧ op.level < right.level) ∧ left.Nested ∧ right.Nested := Iff.rfl

/-- What is no operator with two operands is an operand itself. -/
theorem operands_of_one_lt_level (h : 1 < b.level) : b.operands = [b] := by
  cases b with
  | combine op quantifier left right => exact absurd rfl (level_eq_two h op quantifier left right)
  | _ => rfl

theorem nested_of_one_lt_level (h : 1 < b.level) : b.Nested := by
  cases b with
  | combine op quantifier left right => exact absurd rfl (level_eq_two h op quantifier left right)
  | _ => trivial

/-! ## Adding an operand -/

theorem addOperand_of_level_le (h : op.level ≤ b.level) :
    b.addOperand op quantifier operand = .combine op quantifier b operand := by
  cases b with
  | combine op' quantifier' left right =>
    rw [level_combine] at h
    rw [addOperand, if_neg (Nat.not_lt.2 h)]
  | _ => rfl

theorem addBody_of_one_lt_level (h : 1 < operand.level) :
    b.addBody op quantifier operand = b.addOperand op quantifier operand := by
  cases operand with
  | combine op' quantifier' left right =>
    exact absurd rfl (level_eq_two h op' quantifier' left right)
  | _ => rfl

theorem level_addOperand : (b.addOperand op quantifier operand).level = min b.level op.level := by
  have hop := op.level_le_one
  cases b with
  | combine op' quantifier' left right =>
    by_cases h : op'.level < op.level
    · simp [addOperand, h, Nat.min_eq_left h.le]
    · simp [addOperand, h, Nat.min_eq_right (Nat.not_lt.1 h)]
  | _ => exact (Nat.min_eq_right (hop.trans one_le_two)).symm

theorem layout_addOperand :
    ∀ b : SetExpr, (b.addOperand op quantifier operand).layout =
      (SetExpr.combine op quantifier b operand).layout
  | .combine op' quantifier' left right => by
    by_cases h : op'.level < op.level
    · have ih := layout_addOperand right
      simp only [addOperand, h, if_true]
      simp [layout, ih]
    · simp only [addOperand, h, if_false]
  | .select _ | .parens _ | .values _ => rfl

theorem nested_addOperand (hx : 1 < operand.level) :
    ∀ {b : SetExpr}, b.Nested → (b.addOperand op quantifier operand).Nested
  | .combine op' quantifier' left right, h => by
    obtain ⟨⟨hl, hr⟩, hleft, hright⟩ := h
    by_cases h : op'.level < op.level
    · simp only [addOperand, h, if_true, nested_combine, level_addOperand]
      exact ⟨⟨hl, lt_min hr h⟩, hleft, nested_addOperand hx hright⟩
    · simp only [addOperand, h, if_false, nested_combine, level_combine]
      exact ⟨⟨Nat.not_lt.1 h, op.level_le_one.trans_lt hx⟩, ⟨⟨hl, hr⟩, hleft, hright⟩,
        nested_of_one_lt_level hx⟩
  | .select _, _ | .parens _, _ | .values _, _ =>
    ⟨⟨op.level_le_one.trans one_le_two, op.level_le_one.trans_lt hx⟩, trivial,
      nested_of_one_lt_level hx⟩

theorem operands_addOperand (hx : 1 < operand.level) :
    ∀ b : SetExpr, (b.addOperand op quantifier operand).operands = b.operands ++ [operand]
  | .combine op' quantifier' left right => by
    by_cases h : op'.level < op.level
    · simp only [addOperand, h, if_true, operands, operands_addOperand hx right, List.append_assoc]
    · simp only [addOperand, h, if_false, operands, operands_of_one_lt_level hx]
  | .select _ | .parens _ | .values _ => by
    simp only [addOperand, operands, operands_of_one_lt_level hx]

/-! ## Adding a body -/

theorem layout_addBody : ∀ (acc : SetExpr) (op : SetOperator) (quantifier : SetQuantifier)
    (b : SetExpr), (acc.addBody op quantifier b).layout =
      (SetExpr.combine op quantifier acc b).layout
  | acc, op, quantifier, .combine op' quantifier' left right => by
    rw [addBody, layout_addBody _ op' quantifier' right]
    simp [layout, layout_addBody acc op quantifier left]
  | acc, _, _, .select _ | acc, _, _, .parens _ | acc, _, _, .values _ => layout_addOperand acc

theorem nested_addBody : ∀ {acc : SetExpr} (op : SetOperator) (quantifier : SetQuantifier)
    (b : SetExpr), acc.Nested → (acc.addBody op quantifier b).Nested
  | _, op, quantifier, .combine op' quantifier' left right, h =>
    nested_addBody op' quantifier' right (nested_addBody op quantifier left h)
  | _, _, _, .select _, h | _, _, _, .parens _, h | _, _, _, .values _, h =>
    nested_addOperand (by exact Nat.one_lt_two) h

theorem operands_addBody : ∀ (acc : SetExpr) (op : SetOperator) (quantifier : SetQuantifier)
    (b : SetExpr), (acc.addBody op quantifier b).operands = acc.operands ++ b.operands
  | acc, op, quantifier, .combine op' quantifier' left right => by
    rw [addBody, operands_addBody _ op' quantifier' right, operands_addBody acc op quantifier left,
      operands, List.append_assoc]
  | acc, _, _, .select _ | acc, _, _, .parens _ | acc, _, _, .values _ =>
    operands_addOperand (by exact Nat.one_lt_two) acc

/-- A body that binds tighter is added as one operand. -/
theorem addBody_of_nested : ∀ {b : SetExpr}, b.Nested → op.level ≤ acc.level →
    op.level < b.level → acc.addBody op quantifier b = .combine op quantifier acc b
  | .combine op' quantifier' left right, h, hl, hr => by
    obtain ⟨⟨hleft, hright⟩, hn, -⟩ := h
    -- The operator in front is the looser one and that of the body the tighter one.
    have hone : op'.level = 1 :=
      le_antisymm op'.level_le_one (Nat.one_le_of_lt (level_combine ▸ hr))
    have hleaf : 1 < right.level := hone ▸ hright
    rw [addBody, addBody_of_nested hn hl (lt_of_lt_of_le hr hleft), addBody_of_one_lt_level hleaf]
    rw [level_combine] at hr
    simp only [addOperand, hr, if_true, addOperand_of_level_le hleft]
  | .select _, _, hl, _ | .parens _, _, hl, _ | .values _, _, hl, _ => addOperand_of_level_le hl

/-! ## Nesting again -/

theorem layout_regroup : ∀ b : SetExpr, b.regroup.layout = b.layout
  | .combine op quantifier left right => by
    rw [regroup, layout_addBody]
    simp only [layout, layout_regroup left]
  | .select _ | .parens _ | .values _ => rfl

theorem nested_regroup : ∀ b : SetExpr, b.regroup.Nested
  | .combine op quantifier left right => nested_addBody op quantifier right (nested_regroup left)
  | .select _ | .parens _ | .values _ => trivial

theorem operands_regroup : ∀ b : SetExpr, b.regroup.operands = b.operands
  | .combine op quantifier left right => by
    rw [regroup, operands_addBody, operands_regroup left, operands]
  | .select _ | .parens _ | .values _ => rfl

theorem regroup_of_nested : ∀ {b : SetExpr}, b.Nested → b.regroup = b
  | .combine _ _ _ _, ⟨⟨hl, hr⟩, hleft, hright⟩ => by
    rw [regroup, regroup_of_nested hleft, addBody_of_nested hright hl hr]
  | .select _, _ | .parens _, _ | .values _, _ => rfl

theorem regroup_eq_self_iff : b.regroup = b ↔ b.Nested :=
  ⟨fun h => h ▸ nested_regroup b, regroup_of_nested⟩

/-! ## Reading the text of a body -/

variable {dq : Bool}

/-- A body nested as the grammar nests it is plain if its operands are. -/
theorem obeys_of_operands : ∀ {b : SetExpr}, b.Nested →
    (∀ x ∈ b.operands, (Part.body x).Obeys (Part.Plain dq)) → (Part.body b).Obeys (Part.Plain dq)
  | .combine op quantifier left right, ⟨hlevel, hleft, hright⟩, h => by
    obtain ⟨h1, h2⟩ := List.forall_mem_append.1 h
    refine Part.obeys_iff.2 ⟨hlevel, ?_⟩
    simp only [Part.children, children, List.forall_mem_cons]
    exact ⟨obeys_of_operands hleft h1, obeys_of_operands hright h2, by simp⟩
  | .select _, _, h | .parens _, _, h | .values _, _, h => h _ (List.mem_singleton_self _)

/-- From the text of a body whose operands are plain, the body nested as the grammar nests it is
read. -/
theorem parseStatement_of_operands (b : SetExpr) (keep : Bool)
    (h : ∀ x ∈ b.operands, (Part.body x).Obeys (Part.Plain false)) :
    ∃ text, (Query.ofBody b).text = .ok text ∧
      parseStatement text ⟨.generic, keep⟩ = .ok (.query (.ofBody b.regroup)) := by
  have hbody : (Part.body b.regroup).Obeys (Part.Plain false) :=
    obeys_of_operands (nested_regroup b) (operands_regroup b ▸ h)
  have hquery : (Part.query (.ofBody b.regroup)).Obeys (Part.Plain false) := by
    refine Part.obeys_iff.2 ⟨by simp [Part.Plain, Query.Plain, Query.ofBody], ?_⟩
    simpa [Query.ofBody, Part.children, Query.children, Part.exprs] using hbody
  obtain ⟨text, ht, hread⟩ := Query.Clear.parseStatement_text (o := ⟨.generic, keep⟩)
    (Part.Plain.clear hquery)
    (Part.every_layout usual_unnumbered (hquery.mono fun _ => Part.Plain.marks)).numbered
  refine ⟨text, ?_, hread⟩
  have hlayout : (Query.ofBody b).layout = (Query.ofBody b.regroup).layout := by
    simp only [Query.ofBody, Query.layout_eq, layout_regroup]
  rw [← ht, Query.text, Query.text, hlayout]

/-- A body whose operands are plain comes back from its text just if it nests as the grammar
does. -/
theorem parseStatement_iff_nested (b : SetExpr) (keep : Bool)
    (h : ∀ x ∈ b.operands, (Part.body x).Obeys (Part.Plain false)) :
    ∃ text, (Query.ofBody b).text = .ok text ∧
      (parseStatement text ⟨.generic, keep⟩ = .ok (.query (.ofBody b)) ↔ b.Nested) := by
  obtain ⟨text, ht, hread⟩ := parseStatement_of_operands b keep h
  refine ⟨text, ht, ?_⟩
  rw [hread, ← regroup_eq_self_iff]
  simp [Query.ofBody]

/-- `SELECT column FROM table`. -/
def columnOf (column table : String) : SetExpr :=
  .select ⟨false, [⟨.column { name := ⟨column, none⟩ }, none⟩], some (.table ⟨[⟨table, none⟩]⟩), [],
    none, [], none, none⟩

/-- From the text of `a EXCEPT (b EXCEPT c)` the body `(a EXCEPT b) EXCEPT c` is read. -/
theorem except_regrouped :
    let a := columnOf "a" "t"
    let b := columnOf "b" "u"
    let c := columnOf "c" "v"
    ∃ text, (Query.ofBody (.combine .except .none a (.combine .except .none b c))).text = .ok text ∧
      parseStatement text ⟨.generic, false⟩ =
        .ok (.query (.ofBody (.combine .except .none (.combine .except .none a b) c))) := by
  intro a b c
  have hname : ∀ name ∈ ["a", "b", "c", "t", "u", "v"], Ident.Legal false ⟨name, none⟩ :=
    fun name h =>
    have hword : ∀ name ∈ ["a", "b", "c", "t", "u", "v"],
        TokenKind.ofWord? false (Ident.text ⟨name, none⟩) = some (.identifier name none) := by
      decide
    ⟨_, hword name h, .inl rfl⟩
  refine parseStatement_of_operands (.combine .except .none a (.combine .except .none b c)) false ?_
  simp [a, b, c, operands, columnOf, Part.obeys_iff_allObey, FromItem.table, FromItem.ofRelation,
    Part.children, SetExpr.children, Select.children, FromItem.children, Relation.parts,
    Expr.children, SelectItem.parts, Part.exprs, Part.Plain, SetExpr.Plain, Select.Legal,
    SelectItem.LegalList, SelectItem.Legal, FromItem.Legal, Relation.Legal, ObjectName.Legal,
    ColumnRef.Legal, ColumnRef.names, Expr.IsLeaf, Expr.isWildcard, hname]

end SetExpr
end SqlTree
