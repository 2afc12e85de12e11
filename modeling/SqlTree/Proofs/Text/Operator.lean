import Mathlib
import SqlTree.Proofs.Parsing.DataType
import SqlTree.Proofs.Text.Query

/-! # Operator trees are what their texts spell

The written form of an operator tree has parentheses that the tree does not hold. What is read is
the tree with these parentheses.

* `Expr.IsOperand`: constants and columns. `Expr.IsOperatorTree`: operands under operators, casts and
  parentheses.
* `Expr.grouped`: a tree with the parentheses it is written with. It has the same written form.
* `Expr.bare`: a tree without parentheses.
* `Expr.parseStatement_of_isOperatorTree`: up to parentheses an operator tree comes back from its
  text.
-/

namespace SqlTree
set_option autoImplicit false

open Layout Parse

namespace Expr

/-- A constant or a column. A number is one token, and a name is one that is no keyword. -/
def IsOperand : Expr → Prop
  | .literal (.integer digits) => ∃ n, TokenKind.ofWord? false digits = some (.integer n)
  | .literal (.float digits) => ∃ n, TokenKind.ofWord? false digits = some (.float n)
  | .literal _ => True
  | .column c => c.table ≠ some ⟨[]⟩ ∧
      ∀ i ∈ c.names, TokenKind.ofWord? false i.text = some (.identifier i.name i.quote)
  | _ => False

/-- Constants and columns under binary operators, signs, casts with colons and parentheses, in any
shape. -/
inductive IsOperatorTree : Expr → Prop where
  | operand {e : Expr} (h : e.IsOperand) : IsOperatorTree e
  | binary {left right : Expr} (op : BinaryOp) (hl : left.IsOperatorTree)
      (hr : right.IsOperatorTree) : IsOperatorTree (.binary left op right)
  | unary {op : UnaryOp} {operand : Expr} (hop : op ≠ .not) (h : operand.IsOperatorTree) :
      IsOperatorTree (.unary op operand)
  | cast {operand : Expr} {type : DataType} (ht : type.ReadsBack false)
      (h : operand.IsOperatorTree) : IsOperatorTree (.cast .doubleColon operand type)
  | nested {inner : Expr} (h : inner.IsOperatorTree) : IsOperatorTree (.nested inner)

/-- An expression in parentheses if `wrap` holds. -/
def nestIf (wrap : Bool) (e : Expr) : Expr :=
  if wrap then .nested e else e

/-- An operator tree with the parentheses it is written with. -/
def grouped : Expr → Expr
  | .binary left op right =>
    .binary (nestIf (parensLeft op left) left.grouped) op (nestIf (parensRight op right) right.grouped)
  | .unary op operand => .unary op (nestIf (parensUnary op operand) operand.grouped)
  | .cast .doubleColon operand type =>
    .cast .doubleColon (nestIf (parensBeforeCast operand) operand.grouped) type
  | .nested inner => .nested inner.grouped
  | e => e

/-- An operator tree without parentheses. -/
def bare : Expr → Expr
  | .binary left op right => .binary left.bare op right.bare
  | .unary op operand => .unary op operand.bare
  | .cast .doubleColon operand type => .cast .doubleColon operand.bare type
  | .nested inner => inner.bare
  | e => e

/-! ## The parentheses of an operator tree -/

theorem bare_nestIf (wrap : Bool) (e : Expr) : (nestIf wrap e).bare = e.bare := by
  cases wrap <;> rfl

/-- Added parentheses are all that tells a tree from the one it was made of. -/
theorem bare_grouped (e : Expr) : e.grouped.bare = e.bare := by
  fun_induction grouped e with
  | case1 left op right ihl ihr => simp only [bare, bare_nestIf, ihl, ihr]
  | case2 op operand ih => simp only [bare, bare_nestIf, ih]
  | case3 operand type ih => simp only [bare, bare_nestIf, ih]
  | case4 inner ih => simpa only [bare] using ih
  | case5 e => rfl

theorem precedence?_grouped (e : Expr) : e.grouped.precedence? = e.precedence? := by
  fun_cases grouped e <;> rfl

theorem parensBeforeCast_grouped (e : Expr) :
    parensBeforeCast e.grouped = parensBeforeCast e := by
  fun_cases grouped e <;> rfl

theorem layout_nestIf (wrap : Bool) (e : Expr) : (nestIf wrap e).layout = parensIf wrap e.layout := by
  cases wrap <;> rfl

/-- Where parentheses were added, none are added again. -/
theorem parens_nestIf (test : Expr → Bool) (hn : ∀ e, test (.nested e) = false) (e e' : Expr)
    (he : test e' = test e) : test (nestIf (test e) e') = false := by
  cases h : test e with
  | true => exact hn e'
  | false => rw [nestIf, if_neg Bool.false_ne_true, he, h]

/-- The added parentheses are the ones that are written. -/
theorem layout_grouped (e : Expr) : e.grouped.layout = e.layout := by
  fun_induction grouped e with
  | case1 left op right ihl ihr =>
    have hl : parensLeft op (nestIf (parensLeft op left) left.grouped) = false :=
      parens_nestIf (parensLeft op) (fun _ => rfl) _ _
        (by rw [parensLeft, precedence?_grouped]; rfl)
    have hr : parensRight op (nestIf (parensRight op right) right.grouped) = false :=
      parens_nestIf (parensRight op) (fun _ => rfl) _ _
        (by rw [parensRight, precedence?_grouped]; rfl)
    simp only [layout, hl, hr, layout_nestIf, ihl, ihr, parensIf, Bool.false_eq_true, if_false]
  | case2 op operand ih =>
    have ho : parensUnary op (nestIf (parensUnary op operand) operand.grouped) = false := by
      refine parens_nestIf (parensUnary op) (fun _ => by cases op <;> rfl) _ _ ?_
      cases op <;> simp only [parensUnary, precedence?_grouped]
    simp only [layout, ho, layout_nestIf, ih, parensIf, Bool.false_eq_true, if_false]
  | case3 operand type ih =>
    have ho : parensBeforeCast (nestIf (parensBeforeCast operand) operand.grouped) = false :=
      parens_nestIf parensBeforeCast (fun _ => rfl) _ _ (parensBeforeCast_grouped operand)
    simp only [layout, ho, layout_nestIf, ih, parensIf, Bool.false_eq_true, if_false]
  | case4 inner ih => simp only [layout, ih]
  | case5 e => rfl

/-! ## The edges of an operator tree -/

/-- How tightly an operator tree holds together on both sides: as its operator does, or tighter than
every binary operator. -/
structure Edges (e : Expr) : Prop where
  binary : ∀ p ∈ e.precedence?, e.leftEdge = leftPower p ∧ e.rightEdge = rightPower p
  other : e.precedence? = none → castPower ≤ e.leftEdge ∧ leftPower 9 ≤ e.rightEdge
  cast : parensBeforeCast e = false → e.rightEdge = closedEdge

theorem Edges.of_closed {e : Expr} (hp : e.precedence? = none) (hl : castPower ≤ e.leftEdge)
    (hr : e.rightEdge = closedEdge) : e.Edges where
  binary p h := by simp [hp] at h
  other _ := ⟨hl, by rw [hr]; decide⟩
  cast _ := hr

theorem castPower_le_closedEdge : castPower ≤ closedEdge := by decide

theorem precedence_bounds (op : BinaryOp) : 1 ≤ op.precedence ∧ op.precedence ≤ 8 := by
  cases op <;> decide

section Operands

variable {e : Expr} (h : e.Edges) {wrap : Bool}
include h

/-- An operand that has parentheses if it binds looser than a level. -/
theorem Edges.operand {level : Nat} (hl : 1 ≤ level ∧ level ≤ 9)
    (hw : wrap = e.precedence?.any (· < level)) :
    leftPower level ≤ (nestIf wrap e).leftEdge ∧ leftPower level ≤ (nestIf wrap e).rightEdge ∧
      (level ≤ 8 → leftPower level < (nestIf wrap e).rightEdge) := by
  cases hp : e.precedence? with
  | none =>
    have hn : nestIf wrap e = e := by simp [nestIf, hw, hp]
    have ho := h.other hp
    unfold castPower leftPower at ho
    unfold leftPower
    rw [hn]
    omega
  | some p =>
    by_cases hlt : p < level
    · have hn : nestIf wrap e = .nested e := by simp [nestIf, hw, hp, hlt]
      have h1 : (nested e).leftEdge = 20 := rfl
      have h2 : (nested e).rightEdge = 20 := rfl
      rw [hn, h1, h2]
      unfold leftPower
      omega
    · have hn : nestIf wrap e = e := by simp [nestIf, hw, hp, hlt]
      obtain ⟨h1, h2⟩ := h.binary p hp
      rw [hn, h1, h2]
      unfold leftPower rightPower
      omega

/-- An operand that has parentheses if it has a binary operator. -/
theorem Edges.signed (hw : wrap = e.precedence?.isSome) :
    castPower ≤ (nestIf wrap e).leftEdge ∧ leftPower 9 ≤ (nestIf wrap e).rightEdge := by
  subst hw
  cases hp : e.precedence? with
  | none => exact h.other hp
  | some p =>
    have hclosed : leftPower 9 ≤ closedEdge := by decide
    exact ⟨castPower_le_closedEdge, hclosed⟩

/-- An operand that has parentheses if a cast would take a part of it only. -/
theorem Edges.castOperand (hw : wrap = parensBeforeCast e) :
    castPower ≤ (nestIf wrap e).leftEdge ∧ (nestIf wrap e).rightEdge = closedEdge := by
  subst hw
  cases hp : parensBeforeCast e with
  | true => exact ⟨castPower_le_closedEdge, rfl⟩
  | false =>
    have hnone : e.precedence? = none := by
      cases e with
      | binary left op right => cases hp
      | _ => rfl
    exact ⟨(h.other hnone).1, h.cast hp⟩

end Operands

theorem Edges.left {e : Expr} (h : e.grouped.Edges) (op : BinaryOp) :
    leftPower op.precedence ≤ (nestIf (parensLeft op e) e.grouped).leftEdge ∧
      leftPower op.precedence < (nestIf (parensLeft op e) e.grouped).rightEdge := by
  have hb := precedence_bounds op
  have hw : parensLeft op e = e.grouped.precedence?.any (· < op.precedence) := by
    rw [precedence?_grouped, parensLeft]
  obtain ⟨h1, -, h2⟩ := h.operand ⟨by omega, by omega⟩ hw
  exact ⟨h1, h2 hb.2⟩

theorem Edges.right {e : Expr} (h : e.grouped.Edges) (op : BinaryOp) :
    rightPower op.precedence ≤ (nestIf (parensRight op e) e.grouped).leftEdge ∧
      rightPower op.precedence ≤ (nestIf (parensRight op e) e.grouped).rightEdge := by
  have hb := precedence_bounds op
  have hw : parensRight op e = e.grouped.precedence?.any (· < op.precedence + 1) := by
    simp only [precedence?_grouped, parensRight, Nat.lt_succ_iff]
  obtain ⟨h1, h2, -⟩ := h.operand ⟨by omega, by omega⟩ hw
  unfold leftPower at h1 h2
  unfold rightPower
  omega

theorem Edges.sign {e : Expr} (h : e.grouped.Edges) {op : UnaryOp} (hop : op ≠ .not) :
    operandPower op = leftPower 9 ∧
      castPower ≤ (nestIf (parensUnary op e) e.grouped).leftEdge ∧
      leftPower 9 ≤ (nestIf (parensUnary op e) e.grouped).rightEdge := by
  have hw : parensUnary op e = e.grouped.precedence?.isSome := by
    rw [precedence?_grouped]
    cases op <;> first | rfl | exact absurd rfl hop
  refine ⟨?_, h.signed hw⟩
  cases op <;> first | rfl | exact absurd rfl hop

theorem Edges.casted {e : Expr} (h : e.grouped.Edges) :
    castPower ≤ (nestIf (parensBeforeCast e) e.grouped).leftEdge ∧
      (nestIf (parensBeforeCast e) e.grouped).rightEdge = closedEdge :=
  h.castOperand (parensBeforeCast_grouped e).symm

/-- What is known of an operand: nothing is below it, so no parentheses are added. -/
theorem IsOperand.leaf {e : Expr} (h : e.IsOperand) :
    e.grouped = e ∧ e.children = [] ∧ e.Edges ∧ ∀ P, e.Marks P := by
  cases e with
  | literal v => exact ⟨rfl, rfl, .of_closed rfl castPower_le_closedEdge rfl, fun _ => trivial⟩
  | column c => exact ⟨rfl, rfl, .of_closed rfl castPower_le_closedEdge rfl, fun _ => trivial⟩
  | _ => exact h.elim

theorem IsOperatorTree.edges {e : Expr} (h : e.IsOperatorTree) : e.grouped.Edges := by
  induction h with
  | operand h => exact h.leaf.1.symm ▸ h.leaf.2.2.1
  | binary op _ _ ihl ihr =>
    refine ⟨?_, by simp [grouped, precedence?], by simp [grouped, parensBeforeCast]⟩
    rintro p hp
    obtain rfl : op.precedence = p := by simpa [grouped, precedence?] using hp
    exact ⟨min_eq_left (ihl.left op).1, min_eq_left (ihr.right op).2⟩
  | @unary op operand hop _ ih =>
    obtain ⟨hpower, -, hr⟩ := ih.sign hop
    have hedge : (grouped (.unary op operand)).rightEdge = leftPower 9 := by
      rw [grouped, rightEdge, hpower]
      exact min_eq_left hr
    refine ⟨by simp [grouped, precedence?], fun _ => ⟨castPower_le_closedEdge, hedge.ge⟩, ?_⟩
    simp [grouped, parensBeforeCast]
  | cast _ _ ih => exact .of_closed rfl (le_min (Nat.le_refl _) ih.casted.1) rfl
  | nested _ _ => exact .of_closed rfl castPower_le_closedEdge rfl

/-! ## Operator trees are clear -/

theorem Clear.nestIf {d : Dialect} {e : Expr} (h : e.Clear d) (wrap : Bool) :
    (nestIf wrap e).Clear d := by
  cases wrap with
  | false => exact h
  | true =>
    refine Part.obeys_iff.2 ⟨⟨trivial, trivial⟩, fun c hc => ?_⟩
    obtain rfl : c = .expr e := List.mem_singleton.1 hc
    exact h

theorem IsOperatorTree.ne_struct {e : Expr} (h : e.IsOperatorTree) (wrap : Bool) (v : StructValue) :
    Expr.nestIf wrap e.grouped ≠ .struct v := by
  cases wrap with
  | true => simp [Expr.nestIf]
  | false =>
    cases h with
    | operand h =>
      rintro he
      rw [h.leaf.1] at he
      obtain rfl : e = .struct v := he
      exact h
    | _ => simp [Expr.nestIf, grouped]

theorem ascribe_of_ne_struct {e : Expr} (h : ∀ v, e ≠ .struct v) (type : DataType) :
    ascribe e type = .cast .doubleColon e type := by
  unfold ascribe
  split
  · exact absurd rfl (h _)
  · rfl

theorem IsOperand.clear {e : Expr} (h : e.IsOperand) : e.Clear .generic := by
  have hlaw : Part.Clear .generic (.expr e) := by
    cases e with
    | literal v =>
      refine ⟨?_, trivial⟩
      cases v with
      | integer digits =>
        obtain ⟨n, hn⟩ := h
        exact digits_of_ofWord? (.inl hn) ▸ hn
      | float digits =>
        obtain ⟨n, hn⟩ := h
        exact digits_of_ofWord? (.inr hn) ▸ hn
      | _ => trivial
    | column c => exact ⟨⟨h.1, fun i hi => ⟨_, h.2 i hi, .inl rfl⟩⟩, trivial⟩
    | _ => exact h.elim
  refine Part.obeys_iff.2 ⟨hlaw, ?_⟩
  simp [Part.children, h.leaf.2.1]

/-- With its parentheses an operator tree is what the grammar makes of its written form. -/
theorem IsOperatorTree.clear {e : Expr} (h : e.IsOperatorTree) : e.grouped.Clear .generic := by
  induction h with
  | operand h => exact h.leaf.1.symm ▸ h.clear
  | binary op hl hr ihl ihr =>
    refine Part.obeys_iff.2 ⟨⟨⟨(hl.edges.left op).2, (hr.edges.right op).1⟩, trivial⟩, ?_⟩
    simp only [grouped, Part.children, children, List.forall_mem_cons]
    exact ⟨ihl.nestIf _, ihr.nestIf _, by simp⟩
  | @unary op operand hop h ih =>
    obtain ⟨hpower, hl, -⟩ := h.edges.sign hop
    have hle : operandPower op ≤ castPower := by rw [hpower]; decide
    refine Part.obeys_iff.2 ⟨⟨hle.trans hl, trivial⟩, ?_⟩
    simp only [grouped, Part.children, children, List.forall_mem_cons]
    exact ⟨ih.nestIf _, by simp⟩
  | @cast operand type ht h ih =>
    obtain ⟨hl, hf⟩ := ht.legal_faithful
    have hr : castPower < (Expr.nestIf (parensBeforeCast operand) operand.grouped).rightEdge := by
      rw [h.edges.casted.2]
      decide
    have ha := ascribe_of_ne_struct (h.ne_struct (parensBeforeCast operand)) type
    have hp : parensBeforeCast (Expr.nestIf (parensBeforeCast operand) operand.grouped) = false :=
      parens_nestIf parensBeforeCast (fun _ => rfl) _ _ (parensBeforeCast_grouped operand)
    refine Part.obeys_iff.2 ⟨⟨⟨hl, hr, ha⟩, hf, hp⟩, ?_⟩
    simp only [grouped, Part.children, children, List.forall_mem_cons]
    exact ⟨ih.nestIf _, by simp⟩
  | nested _ ih =>
    refine Part.obeys_iff.2 ⟨⟨trivial, trivial⟩, ?_⟩
    simp only [grouped, Part.children, children, List.forall_mem_cons]
    exact ⟨ih, by simp⟩

/-! ## Operator trees in a query -/

/-- A query for the value of an expression. -/
def asQuery (e : Expr) : Query :=
  .ofBody (.select
    { distinct := false, items := [⟨e, none⟩], source := none, joins := [], condition := none,
      groupBy := [], having := none, qualify := none })

theorem layout_asQuery (e : Expr) : e.asQuery.layout = .keyword .SELECT :: .gap :: e.layout := by
  simp [asQuery, Query.ofBody, Query.layout_eq, SetExpr.layout, Select.layout_eq, Layout.onlyIf,
    Layout.commas, Layout.sepBy, SelectItem.layout, Alias.layoutAfter]

theorem chars_asQuery (e : Expr) : e.asQuery.layout.chars = "SELECT " ++ e.layout.chars := by
  rw [← String.toList_inj, layout_asQuery, String.toList_append, chars_toList, chars_toList]
  rfl

theorem Clear.asQuery {d : Dialect} {e : Expr} (h : e.Clear d) : e.asQuery.Clear d := by
  have he : Part.Clear d (.expr e) ∧ Part.AllObey (Part.Clear d) (Part.expr e).children :=
    Part.obeys_iff.1 h
  rw [Query.Clear, Part.obeys_iff_allObey]
  simp [Expr.asQuery, Query.ofBody, Part.children, Query.children, SetExpr.children,
    Select.children, SelectItem.parts, Part.exprs, Part.Clear, Part.Legal, Part.Faithful, Query.Legal,
    SetExpr.Legal, Select.Legal, SelectItem.LegalList, SelectItem.Legal, SelectItem.Faithful]
  exact he

/-- An operator tree is written without question marks. -/
theorem IsOperatorTree.unnumbered {e : Expr} (h : e.IsOperatorTree) :
    e.layout.Every fun x => x.number? = none := by
  induction h with
  | operand h => exact usual_unnumbered.expr (h.leaf.2.2.2 _) (by simp [h.leaf.2.1])
  | binary op _ _ ihl ihr =>
    refine usual_unnumbered.expr (by cases op <;> trivial) ?_
    simp only [children, List.forall_mem_cons]
    exact ⟨ihl, ihr, by simp⟩
  | unary _ _ ih => exact usual_unnumbered.expr trivial (by simpa [children, Part.layout] using ih)
  | cast _ _ ih => exact usual_unnumbered.expr trivial (by simpa [children, Part.layout] using ih)
  | nested _ ih => exact usual_unnumbered.expr trivial (by simpa [children, Part.layout] using ih)

/-- Up to parentheses an operator tree comes back from its text. -/
theorem parseStatement_of_isOperatorTree {e : Expr} (h : e.IsOperatorTree)
    (keepUnsupported : Bool) :
    ∃ (text : String) (e' : Expr), e.text = .ok text ∧
      parseStatement ("SELECT " ++ text) ⟨.generic, keepUnsupported⟩ = .ok (.query e'.asQuery) ∧
      e'.bare = e.bare := by
  have hq : e.grouped.asQuery.Clear Dialect.generic := h.clear.asQuery
  have hn : e.grouped.asQuery.layout.Numbered 0 := by
    refine Layout.Every.numbered ?_
    rw [layout_asQuery, layout_grouped]
    simp only [every_cons]
    exact ⟨rfl, rfl, h.unnumbered⟩
  obtain ⟨text, ht, hp⟩ :=
    Query.Clear.parseStatement_text (o := ⟨.generic, keepUnsupported⟩) hq hn
  have hc : text = "SELECT " ++ e.layout.chars := by
    have ha : e.grouped.asQuery.layout.text = .ok e.grouped.asQuery.layout.chars :=
      text_of_apart (Part.apart hq)
    rw [Query.text, ha, chars_asQuery, layout_grouped] at ht
    exact (Except.ok.inj ht).symm
  have he : e.text = .ok e.layout.chars := by
    have ha := text_of_apart (Part.apart h.clear)
    rwa [Part.layout, layout_grouped] at ha
  exact ⟨e.layout.chars, e.grouped, he, hc ▸ hp, bare_grouped e⟩

/-- `- (a - (1.5 - 2)) * (~ t."b" || 'x')::DECIMAL(5, 2)[] = NULL OR TRUE`, some of its parentheses
being in the tree and some not. -/
def operatorTree : Expr :=
  let difference : Expr := .binary (.column { name := { name := "a" } }) .sub
    (.binary (.literal (.float "1.5")) .sub (.literal (.integer "2")))
  let column : Expr := .column ⟨some ⟨[{ name := "t" }]⟩, ⟨"b", some '"'⟩⟩
  let type : DataType := .array .brackets (.scaled .decimal (some 5) (some 2))
  .binary
    (.binary
      (.binary (.unary .neg difference) .mul
        (.cast .doubleColon
          (.nested (.binary (.unary .bitNot column) .concat (.literal (.string "x")))) type))
      .equal (.literal .null))
    .or (.literal (.boolean true))

theorem parseStatement_of_operatorTree :
    operatorTree.IsOperatorTree ∧
      ∃ (text : String) (e' : Expr), operatorTree.text = .ok text ∧
        parseStatement ("SELECT " ++ text) ⟨.generic, false⟩ = .ok (.query e'.asQuery) ∧
        e'.bare = operatorTree.bare := by
  have ha : IsOperand (.column { name := { name := "a" } }) :=
    ⟨by simp, by simp [ColumnRef.names]; decide⟩
  have hb : IsOperand (.column ⟨some ⟨[{ name := "t" }]⟩, ⟨"b", some '"'⟩⟩) :=
    ⟨by simp, by simp [ColumnRef.names]; decide⟩
  have hf : IsOperand (.literal (.float "1.5")) := ⟨"1.5", by decide⟩
  have hi : IsOperand (.literal (.integer "2")) := ⟨"2", by decide⟩
  have ht : (DataType.array .brackets (.scaled .decimal (some 5) (some 2))).ReadsBack false :=
    DataType.readsBack (by simp [DataType.Legal, DataType.All, DataType.LegalHead])
      (by simp [DataType.Faithful, DataType.All, DataType.FaithfulHead])
  have h : operatorTree.IsOperatorTree := by
    have hd : IsOperatorTree (.binary (.column { name := { name := "a" } }) .sub
        (.binary (.literal (.float "1.5")) .sub (.literal (.integer "2")))) :=
      .binary _ (.operand ha) (.binary _ (.operand hf) (.operand hi))
    have hc : IsOperatorTree (.binary (.unary .bitNot
        (.column ⟨some ⟨[{ name := "t" }]⟩, ⟨"b", some '"'⟩⟩)) .concat (.literal (.string "x"))) :=
      .binary _ (.unary (by simp) (.operand hb)) (.operand trivial)
    refine .binary _ (.binary _ (.binary _ (.unary (by simp) hd) (.cast ht (.nested hc))) ?_) ?_
    · exact .operand trivial
    · exact .operand trivial
  exact ⟨h, parseStatement_of_isOperatorTree h false⟩

end Expr

end SqlTree
