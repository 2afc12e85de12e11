import Mathlib
import SqlTree.Build.Expr
import SqlTree.Proofs.Parsing.Precedence
import SqlTree.Proofs.Text.ReadBack

/-! # Conditions that are collected

Conditions that are given one after another are put together with `AND` from left to right. In the
written form those that bind looser have parentheses, and these are in the tree that is read.

* `Expr.Clear.leftPower_le`, `Expr.Clear.leftPower_lt`: how tightly a clear expression holds together
  on both sides.
* `Expr.conjunction`: several conditions with `AND` between them and with their parentheses.
* `Expr.bare_conjunction`: without parentheses it is what is collected.
* `Expr.groups_conjunction`: it is clear and has the written form of the conditions as they are
  collected.
-/

namespace SqlTree
set_option autoImplicit false

open Layout Parse

variable {d : Dialect}

namespace Expr

/-! ## The edges of clear expressions -/

section Operands

variable {operand : Expr} {power level : Nat}

/-- What holds together on the right at the power of a level is no operator of a lower level. -/
theorem any_precedence_of_rightEdge (hp : leftPower level ≤ power) (h : power < operand.rightEdge) :
    operand.precedence?.any (· < level) = false := by
  rw [Option.any_eq_false]
  intro p hm
  have hr := rightEdge_le hm
  unfold leftPower at hp
  unfold rightPower at hr
  simp only [decide_eq_false_iff_not, not_lt]
  omega

/-- The same on the left. -/
theorem any_precedence_of_leftEdge (hp : leftPower level < power) (h : power ≤ operand.leftEdge) :
    operand.precedence?.any (· < level) = false := by
  rw [Option.any_eq_false]
  intro p hm
  have hl := leftEdge_le hm
  unfold leftPower at hp hl
  simp only [decide_eq_false_iff_not, not_lt]
  omega

end Operands

/-- A clear expression begins with what holds together at any level of its outermost operator, up to
the level of predicates. -/
theorem Clear.leftPower_le {e : Expr} (h : e.Clear d) {level : Nat} (hlevel : level ≤ predicateLevel)
    (he : e.precedence?.any (· < level) = false) : leftPower level ≤ e.leftEdge := by
  have hpredicate : leftPower level ≤ leftPower predicateLevel := by
    unfold leftPower
    omega
  have hcast : leftPower level ≤ castPower := hpredicate.trans (by decide)
  have hclosed : leftPower level ≤ closedEdge := hpredicate.trans (by decide)
  -- The operand in front is again clear, and its own operator is of no lower level.
  have hoperand : ∀ {operand : Expr} {power : Nat}, .expr operand ∈ e.children →
      leftPower level ≤ power → power < operand.rightEdge →
      leftPower level ≤ min power operand.leftEdge := fun {operand power} hm hp hr =>
    have hlt : sizeOf operand < sizeOf e := Expr.weight_children hm
    le_min hp (Clear.leftPower_le (h.child hm) hlevel (any_precedence_of_rightEdge hp hr))
  cases e with
  | binary left op right =>
    have hop : leftPower level ≤ leftPower op.precedence := by
      have : level ≤ op.precedence := by simpa [precedence?] using he
      unfold leftPower
      omega
    exact hoperand (by simp [children]) hop h.head.1.1
  | inList tested negated items => exact hoperand (by simp [children]) hpredicate h.head.1.1
  | inQuery tested negated q => exact hoperand (by simp [children]) hpredicate h.head.1.1
  | between tested negated low high => exact hoperand (by simp [children]) hpredicate h.head.1.1
  | isNull tested negated => exact hoperand (by simp [children]) hpredicate h.head.1
  | like tested negated caseless pattern =>
    exact hoperand (by simp [children]) hpredicate h.head.1.1
  | cast style operand type =>
    cases style with
    | doubleColon => exact hoperand (by simp [children]) hcast h.head.1.2.1
    | function => exact hclosed
  | struct v =>
    obtain ⟨style, word, fields, arguments⟩ := v
    cases style <;> cases fields <;> first | exact hclosed | exact hcast
  | _ => exact hclosed
termination_by sizeOf e

/-- It ends with what holds together there, too, at the levels below predicates. -/
theorem Clear.leftPower_lt {e : Expr} (h : e.Clear d) {level : Nat} (hlevel : level < predicateLevel)
    (he : e.precedence?.any (· < level) = false) : leftPower level < e.rightEdge := by
  have hpredicate : leftPower level < leftPower predicateLevel := by
    unfold leftPower
    omega
  have hclosed : leftPower level < closedEdge := hpredicate.trans (by decide)
  have hoperand : ∀ {operand : Expr} {power : Nat}, .expr operand ∈ e.children →
      leftPower level < power → power ≤ operand.leftEdge →
      leftPower level < min power operand.rightEdge := fun {operand power} hm hp hl =>
    have hlt : sizeOf operand < sizeOf e := Expr.weight_children hm
    lt_min hp (Clear.leftPower_lt (h.child hm) hlevel (any_precedence_of_leftEdge hp hl))
  cases e with
  | binary left op right =>
    have hop : leftPower level < rightPower op.precedence := by
      have : level ≤ op.precedence := by simpa [precedence?] using he
      have := precedence_bounds op
      unfold leftPower rightPower
      omega
    exact hoperand (by simp [children]) hop h.head.1.2
  | unary op operand =>
    have hop : leftPower level < operandPower op := by
      cases op <;> first | exact hpredicate | exact hpredicate.trans (by decide)
    exact hoperand (by simp [children]) hop h.head.1
  | between tested negated low high =>
    exact hoperand (by simp [children]) (hpredicate.trans (by decide)) h.head.1.2.2.2
  | like tested negated caseless pattern =>
    exact hoperand (by simp [children]) (hpredicate.trans (by decide)) h.head.1.2
  | _ => exact hclosed
termination_by sizeOf e

/-! ## Conjunctions -/

/-- Two conditions with `AND` between them and with the parentheses they are written in. -/
def bothGrouped (left right : Expr) : Expr :=
  (nestIf (parensLeft .and left) left).both (nestIf (parensRight .and right) right)

/-- Several conditions with `AND` between them, from left to right, and with the parentheses they are
written in. -/
def conjunction (conditions : List Expr) : Option Expr :=
  conditions.foldl (fun earlier e => some (earlier.elim e (·.bothGrouped e))) none

/-- Parentheses are all that tells a conjunction from the conditions as they are collected. -/
theorem bare_conjunction (e : Expr) (more : List Expr) :
    (conjunction (e :: more)).map bare = some (more.foldl both e).bare := by
  suffices hfold : ∀ e' : Expr, e'.bare = e.bare →
      (more.foldl (fun earlier e => some (earlier.elim e (·.bothGrouped e))) (some e')).map bare =
        some (more.foldl both e).bare from hfold e rfl
  induction more generalizing e with
  | nil =>
    intro e' he
    exact congrArg some he
  | cons e₁ more ih =>
    intro e' he
    apply ih
    simp only [Option.elim_some, bothGrouped, both, bare, bare_nestIf, he]

/-- A clear expression with the written form and the outermost operator of another one. -/
structure Groups (d : Dialect) (e e' : Expr) : Prop where
  clear : e'.Clear d
  layout : e'.layout = e.layout
  precedence : e'.precedence? = e.precedence?

theorem Groups.both {left left' right : Expr} (hl : Groups d left left') (hr : right.Clear d) :
    Groups d (left.both right) (left'.bothGrouped right) := by
  have hlw : parensLeft .and left = parensLeft .and left' := by
    rw [parensLeft, parensLeft, hl.precedence]
  have hleft : leftPower BinaryOp.and.precedence <
      (nestIf (parensLeft .and left') left').rightEdge := by
    cases hw : parensLeft .and left' with
    | true => exact (by decide : leftPower BinaryOp.and.precedence < closedEdge)
    | false => exact hl.clear.leftPower_lt (by decide) hw
  have hright : rightPower BinaryOp.and.precedence ≤
      (nestIf (parensRight .and right) right).leftEdge := by
    cases hw : parensRight .and right with
    | true => exact (by decide : rightPower BinaryOp.and.precedence ≤ closedEdge)
    | false =>
      have hle : right.precedence?.any (· ≤ 2) = false := hw
      have hlt : right.precedence?.any (· < predicateLevel) = false := by
        simpa only [predicateLevel, Nat.lt_succ_iff] using hle
      exact (by decide : rightPower 2 ≤ leftPower predicateLevel).trans
        (hr.leftPower_le le_rfl hlt)
  refine ⟨Part.obeys_iff.2 ⟨⟨⟨hleft, hright⟩, trivial⟩, ?_⟩, ?_, rfl⟩
  · simpa [bothGrouped, Part.children, children, Expr.both] using ⟨hl.clear.nestIf _, hr.nestIf _⟩
  · have hwl : parensLeft .and (nestIf (parensLeft .and left') left') = false :=
      parens_nestIf (parensLeft .and) (fun _ => rfl) _ _ rfl
    have hwr : parensRight .and (nestIf (parensRight .and right) right) = false :=
      parens_nestIf (parensRight .and) (fun _ => rfl) _ _ rfl
    simp only [bothGrouped, Expr.both, Expr.layout, hwl, hwr, layout_nestIf, hlw, hl.layout, parensIf,
      Bool.false_eq_true, if_false]

/-- Conditions as they are collected are written as their conjunction is, and this is clear. -/
theorem groups_conjunction {conditions : List Expr} (h : ∀ e ∈ conditions, e.Clear d) :
    Option.Rel (Groups d) (conditions.foldl conjoin none) (conjunction conditions) := by
  suffices hfold : ∀ o o', Option.Rel (Groups d) o o' →
      Option.Rel (Groups d) (conditions.foldl conjoin o)
        (conditions.foldl (fun earlier e => some (earlier.elim e (·.bothGrouped e))) o') from
    hfold none none .none
  induction conditions with
  | nil => exact fun o o' ho => ho
  | cons e conditions ih =>
    obtain ⟨he, hmore⟩ := List.forall_mem_cons.1 h
    intro o o' ho
    refine ih hmore _ _ ?_
    cases ho with
    | none => exact .some ⟨he, rfl, rfl⟩
    | some hg => exact .some (hg.both he)

theorem clear_conjunction {conditions : List Expr} (h : ∀ e ∈ conditions, e.Clear d) :
    ∀ e ∈ conjunction conditions, e.Clear d := by
  intro e he
  have hg := groups_conjunction h
  rw [Option.mem_def.1 he] at hg
  generalize conditions.foldl conjoin none = o at hg
  cases hg with
  | some hg => exact hg.clear

theorem layout_conjunction {conditions : List Expr} (h : ∀ e ∈ conditions, e.Clear d) :
    whereLayout (conjunction conditions) = whereLayout (conditions.foldl conjoin none) := by
  have hg := groups_conjunction h
  generalize conditions.foldl conjoin none = o, conjunction conditions = o' at hg ⊢
  cases hg with
  | some hg => simp [whereLayout, Expr.layoutAfter, hg.layout]
  | none => rfl

/-- A conjunction has no question marks if none of the conditions has. -/
theorem unnumbered_conjunction {conditions : List Expr}
    (h : ∀ e ∈ conditions, (Part.expr e).Unnumbered) :
    ∀ e ∈ conjunction conditions, (Part.expr e).Unnumbered := by
  have hnest : ∀ (wrap : Bool) {e : Expr}, (Part.expr e).Unnumbered →
      (Part.expr (nestIf wrap e)).Unnumbered := by
    rintro (_ | _) e he
    · exact he
    · exact Part.obeys_iff.2 ⟨rfl, by simpa [nestIf, Part.children, children] using he⟩
  suffices hfold : ∀ o : Option Expr, (∀ e ∈ o, (Part.expr e).Unnumbered) →
      ∀ e ∈ conditions.foldl (fun earlier e => some (earlier.elim e (·.bothGrouped e))) o,
        (Part.expr e).Unnumbered from hfold none (by simp)
  induction conditions with
  | nil => exact fun o ho => ho
  | cons e conditions ih =>
    obtain ⟨he, hmore⟩ := List.forall_mem_cons.1 h
    refine fun o ho => ih hmore _ fun e' hm => ?_
    obtain rfl := Option.some.inj hm
    cases o with
    | none => exact he
    | some earlier =>
      refine Part.obeys_iff.2 ⟨rfl, ?_⟩
      simpa [bothGrouped, both, Part.children, children] using
        ⟨hnest _ (ho earlier rfl), hnest _ he⟩

end Expr

end SqlTree
