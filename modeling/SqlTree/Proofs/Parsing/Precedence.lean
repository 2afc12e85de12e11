import Mathlib
import SqlTree.Proofs.Parsing.Statement
import SqlTree.Proofs.Text.Query

/-! # Precedence in trees that are read

* `Expr.Grouped`: no operand of an expression binds looser than the operator allows.
* `Session.read_grouped`: every expression in every statement that a session answers is grouped.

The binding powers say how far an operand reaches on either side. What binds too loosely has an edge
below the power that the operator asks for.
-/

namespace SqlTree
set_option autoImplicit false

open Parse

/-! ## Shapes of operands -/

/-- An operator of the level that comparisons and predicates share. -/
def BinaryOp.isComparison (op : BinaryOp) : Bool :=
  op.precedence == predicateLevel

namespace Expr

/-- A conjunction or a disjunction. -/
def isConnective : Expr → Bool
  | .binary _ .and _ | .binary _ .or _ => true
  | _ => false

/-- A comparison of two operands. -/
def isComparison : Expr → Bool
  | .binary _ op _ => op.isComparison
  | _ => false

/-- A test with `IN`, `BETWEEN`, `LIKE` or `IS NULL`. -/
def isPredicate : Expr → Bool
  | .inList .. | .inQuery .. | .between .. | .like .. | .isNull .. => true
  | _ => false

/-- A negation. -/
def isNot : Expr → Bool
  | .unary .not _ => true
  | _ => false

/-- What binds no tighter than a comparison. -/
def isLoose (e : Expr) : Bool :=
  e.isConnective || e.isComparison || e.isPredicate

/-- What can be tested by a predicate. -/
def isTestable (e : Expr) : Bool :=
  !e.isConnective && !e.isNot

/-- What can be cast without parentheses. -/
def isCastable : Expr → Bool
  | .binary .. | .unary .. | .between .. | .like .. => false
  | _ => true

/-- No operand binds looser than the operator allows on its side. -/
def Grouped : Expr → Prop
  | .binary left op right =>
    (∀ p ∈ left.precedence?, op.precedence ≤ p) ∧ (∀ p ∈ right.precedence?, op.precedence < p) ∧
      (op.isComparison = true → right.isLoose = false)
  | .unary .not operand => operand.isConnective = false
  | .unary _ operand => operand.precedence? = none ∧ operand.isPredicate = false
  | .inList tested _ _ | .inQuery tested _ _ | .isNull tested _ => tested.isTestable = true
  | .between tested _ low high =>
    tested.isTestable = true ∧ low.isLoose = false ∧ high.isLoose = false
  | .like tested _ _ pattern => tested.isTestable = true ∧ pattern.isLoose = false
  | .cast .doubleColon operand _ => operand.isCastable = true
  | _ => True

/-! ## Edges of operands -/

variable {e : Expr} {p : Nat}

theorem leftEdge_le (h : p ∈ e.precedence?) : e.leftEdge ≤ leftPower p := by
  cases e with
  | binary left op right =>
    obtain rfl : op.precedence = p := by simpa [precedence?] using h
    exact min_le_left _ _
  | _ => cases h

theorem rightEdge_le (h : p ∈ e.precedence?) : e.rightEdge ≤ rightPower p := by
  cases e with
  | binary left op right =>
    obtain rfl : op.precedence = p := by simpa [precedence?] using h
    exact min_le_left _ _
  | _ => cases h

theorem leftEdge_of_isPredicate (h : e.isPredicate = true) :
    e.leftEdge ≤ leftPower predicateLevel := by
  cases e <;> first | exact min_le_left _ _ | cases h

/-- Conjunctions and disjunctions are the operators of the lowest two levels. -/
theorem precedence_of_isConnective (h : e.isConnective = true) : ∃ p ∈ e.precedence?, p ≤ 2 := by
  cases e with
  | binary left op right => cases op <;> first | exact ⟨_, rfl, by decide⟩ | cases h
  | _ => cases h

theorem precedence_of_isComparison (h : e.isComparison = true) :
    predicateLevel ∈ e.precedence? := by
  cases e with
  | binary left op right =>
    simp only [isComparison, BinaryOp.isComparison, beq_iff_eq] at h
    simp [precedence?, h]
  | _ => cases h

theorem isConnective_eq_false (h : rightPower 2 ≤ e.leftEdge ∨ rightPower 2 < e.rightEdge) :
    e.isConnective = false := by
  by_contra hc
  obtain ⟨p, hp, hle⟩ := precedence_of_isConnective (Bool.eq_true_of_not_eq_false hc)
  have hl := leftEdge_le hp
  have hr := rightEdge_le hp
  simp only [leftPower, rightPower] at h hl hr
  omega

theorem isLoose_eq_false (h : rightPower predicateLevel ≤ e.leftEdge) : e.isLoose = false := by
  have hconnective : e.isConnective = false := by
    refine isConnective_eq_false (.inl ?_)
    simp only [rightPower, predicateLevel] at h ⊢
    omega
  have hcomparison : e.isComparison = false := by
    by_contra hc
    have hl := leftEdge_le (precedence_of_isComparison (Bool.eq_true_of_not_eq_false hc))
    simp only [leftPower, rightPower, predicateLevel] at h hl
    omega
  have hpredicate : e.isPredicate = false := by
    by_contra hc
    have hl := leftEdge_of_isPredicate (Bool.eq_true_of_not_eq_false hc)
    simp only [leftPower, rightPower, predicateLevel] at h hl
    omega
  simp [isLoose, hconnective, hcomparison, hpredicate]

theorem isTestable_eq_true (h : leftPower predicateLevel < e.rightEdge) : e.isTestable = true := by
  have hconnective : e.isConnective = false := by
    refine isConnective_eq_false (.inr ?_)
    simp only [leftPower, rightPower, predicateLevel] at h ⊢
    omega
  have hnot : e.isNot = false := by
    cases e with
    | unary op operand =>
      cases op with
      | not =>
        have hr : (Expr.unary .not operand).rightEdge ≤ operandPower .not := min_le_left _ _
        simp only [operandPower, leftPower, predicateLevel] at h hr
        omega
      | _ => rfl
    | _ => rfl
  simp [isTestable, hconnective, hnot]

theorem isCastable_eq_true (h : castPower < e.rightEdge) : e.isCastable = true := by
  cases e with
  | binary left op right =>
    have hr : (Expr.binary left op right).rightEdge ≤ rightPower op.precedence := min_le_left _ _
    have := op.precedence_bounds
    simp only [castPower, leftPower, rightPower] at h hr
    omega
  | unary op operand =>
    have hr : (Expr.unary op operand).rightEdge ≤ operandPower op := min_le_left _ _
    have : operandPower op ≤ castPower := by cases op <;> decide
    omega
  | between tested negated low high =>
    have hr : (Expr.between tested negated low high).rightEdge ≤ rightPower predicateLevel :=
      min_le_left _ _
    simp only [castPower, leftPower, rightPower, predicateLevel] at h hr
    omega
  | like tested negated caseless pattern =>
    have hr : (Expr.like tested negated caseless pattern).rightEdge ≤ rightPower predicateLevel :=
      min_le_left _ _
    simp only [castPower, leftPower, rightPower, predicateLevel] at h hr
    omega
  | _ => rfl

/-- Operands whose edges hold are grouped. -/
theorem Formed.grouped {d : Dialect} (h : e.Formed d) : e.Grouped := by
  cases e with
  | binary left op right =>
    refine ⟨fun p hp => ?_, fun p hp => ?_, fun hc => isLoose_eq_false ?_⟩
    · have hr := rightEdge_le hp
      have hl := h.1
      simp only [leftPower, rightPower] at hr hl
      omega
    · have hl := leftEdge_le hp
      have hr := h.2
      simp only [leftPower, rightPower] at hr hl
      have := op.precedence_bounds
      omega
    · have hp : op.precedence = predicateLevel := by simpa [BinaryOp.isComparison] using hc
      rw [← hp]
      exact h.2
  | unary op operand =>
    have hsign : leftPower 9 ≤ operand.leftEdge →
        operand.precedence? = none ∧ operand.isPredicate = false := by
      intro hl
      refine ⟨?_, ?_⟩
      · cases operand with
        | binary left op' right =>
          have hle : (Expr.binary left op' right).leftEdge ≤ leftPower op'.precedence :=
            min_le_left _ _
          have := op'.precedence_bounds
          simp only [leftPower] at hl hle
          omega
        | _ => rfl
      · by_contra hc
        have hle := leftEdge_of_isPredicate (Bool.eq_true_of_not_eq_false hc)
        simp only [leftPower, predicateLevel] at hl hle
        omega
    cases op with
    | not => exact isConnective_eq_false (.inl (le_trans (by decide) h))
    | neg => exact hsign h
    | plus => exact hsign h
    | bitNot => exact hsign h
  | inList tested negated items => exact isTestable_eq_true h.1
  | inQuery tested negated q => exact isTestable_eq_true h
  | isNull tested negated => exact isTestable_eq_true h
  | between tested negated low high =>
    exact ⟨isTestable_eq_true h.1, isLoose_eq_false h.2.1, isLoose_eq_false h.2.2⟩
  | like tested negated caseless pattern =>
    exact ⟨isTestable_eq_true h.1, isLoose_eq_false h.2⟩
  | cast style operand type =>
    cases style with
    | function => trivial
    | doubleColon => exact isCastable_eq_true h
  | _ => trivial

end Expr

/-! ## Statements that are read -/

/-- Every expression in every statement that a session answers is grouped: a text that is read at
once is the session that starts with it. -/
theorem Session.read_grouped (s : Session) :
    (∀ t, s.statement.1 = .ok t → ∀ e, t.Contains e → e.Grouped) ∧
      ∀ ts, s.statements.1 = .ok ts → ∀ t ∈ ts, ∀ e, t.Contains e → e.Grouped := by
  have hgrouped : ∀ t : Statement, t.Obeys (Part.Formed s.options.dialect) →
      ∀ e, t.Contains e → e.Grouped := by
    rintro t ht e ⟨p, hp, he⟩
    have hf : e.Formed s.options.dialect := ht p hp (.expr e) he
    exact hf.grouped
  obtain ⟨hone, hall⟩ := s.allFormed
  exact ⟨fun t h => hgrouped t (hone t h), fun ts h t ht => hgrouped t (hall ts h t ht)⟩

/-- `SELECT a + 2 * a < 3 AND NOT a IS NULL`. -/
def operatorQuery : Query :=
  let a : Expr := .column { name := { name := "a" } }
  let number (digits : String) : Expr := .literal (.integer digits)
  let less : Expr := .binary (.binary a .add (.binary (number "2") .mul a)) .less (number "3")
  .ofBody (.select ⟨false, [⟨.binary less .and (.unary .not (.isNull a false)), none⟩], none, [], none,
    [], none, none⟩)

theorem Session.read_grouped_operatorQuery :
    ∃ text, (Session.start text ⟨.generic, false⟩).statement.1 = .ok (.query operatorQuery) ∧
      ∀ e, (Statement.query operatorQuery).Contains e → e.Grouped := by
  have ha : Ident.Legal false { name := "a" } := ⟨_, by decide, .inl rfl⟩
  have h2 : TokenKind.ofWord? false "2" = some (.integer "2") := by decide
  have h3 : TokenKind.ofWord? false "3" = some (.integer "3") := by decide
  have hclear : operatorQuery.Clear .generic := by
    rw [Query.Clear, Part.obeys_iff_allObey]
    simp [operatorQuery, Query.ofBody, Part.children, Query.children, SetExpr.children,
      Select.children, SelectItem.parts, Expr.children, Part.exprs, Part.Clear, Part.Legal,
      Part.Faithful, Query.Legal, SetExpr.Legal, Select.Legal, SelectItem.LegalList, SelectItem.Legal,
      SelectItem.Faithful, Expr.Legal, Expr.Faithful, ColumnRef.Legal, ColumnRef.names,
      Expr.leftEdge, Expr.rightEdge, BinaryOp.precedence, leftPower, rightPower, operandPower,
      predicateLevel, closedEdge, Dialect.doubleQuotedStrings, ha, h2, h3]
  obtain ⟨text, -, h⟩ := Query.Clear.parseStatement_text (o := ⟨.generic, false⟩) hclear rfl
  exact ⟨text, h, (Session.read_grouped _).1 _ h⟩

end SqlTree
