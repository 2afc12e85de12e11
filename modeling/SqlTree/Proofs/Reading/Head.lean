import Mathlib
import SqlTree.Proofs.Reading.Follow
import SqlTree.Proofs.Tree.Written

/-! # How expressions and queries begin

* `parensLeft_eq_false`, `parensRight_eq_false`, `parensUnary_eq_false`: an operand whose edge holds
  gets no parentheses.
* `Expr.head_layout`: the token that a clear expression begins with.
* `Query.head_layout`: the word that a query begins with.
-/

namespace SqlTree
set_option autoImplicit false

open Parse

variable {d : Dialect}

/-! ## No parentheses are added -/

theorem BinaryOp.precedence_bounds (op : BinaryOp) : 1 ≤ op.precedence ∧ op.precedence ≤ 8 := by
  cases op <;> decide

theorem parensLeft_eq_false {op : BinaryOp} {left : Expr}
    (h : leftPower op.precedence < left.rightEdge) : parensLeft op left = false := by
  unfold parensLeft
  cases left with
  | binary l op' r' =>
    have hb := op'.precedence_bounds
    simp only [Expr.rightEdge, lt_min_iff, leftPower, rightPower] at h
    simp only [Expr.precedence?, Option.any_some, decide_eq_false_iff_not]
    omega
  | _ => rfl

theorem parensRight_eq_false {op : BinaryOp} {right : Expr}
    (h : rightPower op.precedence ≤ right.leftEdge) : parensRight op right = false := by
  unfold parensRight
  cases right with
  | binary l op' r' =>
    have hb := op'.precedence_bounds
    simp only [Expr.leftEdge, le_min_iff, leftPower, rightPower] at h
    simp only [Expr.precedence?, Option.any_some, decide_eq_false_iff_not]
    omega
  | _ => rfl

theorem parensUnary_eq_false {op : UnaryOp} {operand : Expr}
    (h : operandPower op ≤ operand.leftEdge) : parensUnary op operand = false := by
  cases operand with
  | binary l op' r' =>
    have hb := op'.precedence_bounds
    simp only [Expr.leftEdge, le_min_iff, leftPower] at h
    cases op <;> simp [operandPower, leftPower, predicateLevel, parensUnary, Expr.precedence?] at h ⊢ <;>
      omega
  | _ => cases op <;> rfl

/-! ## The beginning of an expression -/

/-- The kind of the token for a constant. -/
def Literal.kind : Literal → TokenKind
  | .integer digits => .integer digits
  | .float digits => .float digits
  | .string content => .string content
  | .blob bytes => .blob bytes
  | .boolean true => .keyword .TRUE
  | .boolean false => .keyword .FALSE
  | .null => .keyword .NULL

theorem Literal.kind_piece {v : Literal} (h : (Expr.literal v).Legal d) :
    v.piece.kind d.dq = v.kind ∧ v.piece ≠ .closingAngle := by
  match v, h with
  | .integer digits, h => exact ⟨Piece.kind_word h, by simp [Literal.piece]⟩
  | .float digits, h => exact ⟨Piece.kind_word h, by simp [Literal.piece]⟩
  | .string content, _ =>
    exact ⟨Piece.kind_word (ofWord?_string d.dq content), by simp [Literal.piece]⟩
  | .blob bytes, _ => exact ⟨Piece.kind_word (ofWord?_blob d.dq bytes), by simp [Literal.piece]⟩
  | .boolean true, _ => exact ⟨rfl, by simp [Literal.piece]⟩
  | .boolean false, _ => exact ⟨rfl, by simp [Literal.piece]⟩
  | .null, _ => exact ⟨rfl, by simp [Literal.piece]⟩

theorem ofWord?_sigil (dq : Bool) {sigil : Char} (h : sigil = ':' ∨ sigil = '@') :
    ∃ s, TokenKind.ofWord? dq (String.ofList [sigil]) = some (.symbol s) ∧
      (sigil = ':' ∧ s = .colon ∨ sigil = '@' ∧ s = .atSign) := by
  have hc : ∀ s : Symbol, TokenKind.ofWord? dq s.text = some (.symbol s) := by
    intro s
    apply TokenKind.ofWord?_eq_some
    · have hs : scanToken dq (s.text.toList ++ []) = _ := s.scan_text dq (by simp)
      simpa using hs
    · cases s <;> simp [Symbol.text]
  rcases h with rfl | rfl
  · exact ⟨.colon, hc .colon, .inl ⟨rfl, rfl⟩⟩
  · exact ⟨.atSign, hc .atSign, .inr ⟨rfl, rfl⟩⟩

theorem startsExpr_names {first : Ident} (h : first.Legal d.dq) (more : List Ident) (r : Layout) :
    ∃ p l, (ObjectName.layout ⟨first :: more⟩).solid ++ r = p :: l ∧ p ≠ .closingAngle ∧
      startsExpr (p.kind d.dq) = true := by
  rw [ObjectName.layout, List.map_cons, solid_sepBy]
  exact ⟨.word first.text, _, rfl, by simp, startsExpr_of_startsName (h.startsName [])⟩

/-- The first piece of an expression is a token that begins expressions. -/
theorem Expr.head_layout :
    ∀ (e : Expr), e.Clear d → ∀ r : Layout,
      ∃ p l, e.layout.solid ++ r = p :: l ∧ p ≠ .closingAngle ∧
        startsExpr (p.kind d.dq) = true
  | .literal v, h, r => by
    obtain ⟨hk, hp⟩ := Literal.kind_piece h.head.1
    refine ⟨v.piece, r, ?_, hp, ?_⟩
    · match v with
      | .boolean true | .boolean false | .integer _ | .float _ | .string _ | .blob _ | .null => rfl
    · rw [hk]
      match v with
      | .boolean true | .boolean false | .integer _ | .float _ | .string _ | .blob _ | .null => rfl
  | .column c, h, r => by
    obtain ⟨ht, hl⟩ : c.Legal d.dq := h.head.1
    obtain ⟨first, more, hn, -, hlay⟩ := ColumnRef.exists_names ht
    rw [Expr.layout, hlay]
    exact startsExpr_names (hl first (by simp [hn])) more r
  | .binary left op right, h, r => by
    have hleft := h.child (q := .expr left) (by simp [Part.children, Expr.children])
    have hh := Expr.head_layout left hleft
    simp only [Expr.layout, parensLeft_eq_false h.head.1.1, Layout.parensIf, Layout.solid_append,
      List.append_assoc]
    exact hh _
  | .unary op operand, _, r => by cases op <;> exact ⟨_, _, rfl, by simp [UnaryOp.piece], rfl⟩
  | .call ⟨name, distinct, arguments⟩, h, r => by
    simp only [Expr.layout, FunctionCall.layout, Layout.solid_append, List.append_assoc]
    rcases h.head.1 with hn | ⟨w, k, hn, hw, hk⟩
    · obtain ⟨parts⟩ := name
      cases parts with
      | nil => exact absurd rfl hn.1
      | cons first more => exact startsExpr_names (hn.2 first (by simp)) more _
    · dsimp only at hn
      rw [hn]
      refine ⟨.word w, _, rfl, by simp, ?_⟩
      rw [Piece.kind_word hw]
      simp only [functionWords, List.mem_cons, List.not_mem_nil, or_false] at hk
      rcases hk with rfl | rfl | rfl <;> rfl
  | .array true elements, _, r => ⟨_, _, rfl, by simp, rfl⟩
  | .array false elements, _, r => ⟨_, _, rfl, by simp, rfl⟩
  | .struct ⟨style, word, fields, arguments⟩, h, r => by
    obtain ⟨-, hv⟩ : StructValue.Legal d ⟨style, word, fields, arguments⟩ := h.head.1
    cases style with
    | bigQuery =>
      obtain ⟨⟨w, rfl, hw⟩, -⟩ := hv
      rw [Expr.layout, StructValue.layout_bigQuery, List.append_assoc, Layout.solid_append]
      exact ⟨.word w, _, rfl, by simp, by rw [Piece.kind_word hw]; rfl⟩
    | duckDb =>
      obtain ⟨-, -, items, rfl, -⟩ := hv
      rw [Expr.layout, StructValue.layout_duckDb, Layout.solid_append]
      exact ⟨.symbol .leftBrace, _, rfl, by simp, rfl⟩
  | .subquery q, _, r => ⟨_, _, rfl, by simp, rfl⟩
  | .existsQuery q, _, r => ⟨_, _, rfl, by simp, rfl⟩
  | .inList tested negated items, h, r => by
    have ht := h.child (q := .expr tested) (by simp [Part.children, Expr.children])
    simp only [Expr.layout, Layout.solid_append, List.append_assoc]
    exact Expr.head_layout tested ht _
  | .inQuery tested negated q, h, r => by
    have ht := h.child (q := .expr tested) (by simp [Part.children, Expr.children])
    simp only [Expr.layout, Layout.solid_append, List.append_assoc]
    exact Expr.head_layout tested ht _
  | .between tested negated low high, h, r => by
    have ht := h.child (q := .expr tested) (by simp [Part.children, Expr.children])
    simp only [Expr.layout, Layout.solid_append, List.append_assoc]
    exact Expr.head_layout tested ht _
  | .isNull tested negated, h, r => by
    have ht := h.child (q := .expr tested) (by simp [Part.children, Expr.children])
    simp only [Expr.layout, Layout.solid_append, List.append_assoc]
    exact Expr.head_layout tested ht _
  | .like tested negated caseless pattern, h, r => by
    have ht := h.child (q := .expr tested) (by simp [Part.children, Expr.children])
    simp only [Expr.layout, Layout.solid_append, List.append_assoc]
    exact Expr.head_layout tested ht _
  | .caseWhen operand arms otherwise, _, r => ⟨_, _, rfl, by simp, rfl⟩
  | .cast .function operand type, _, r => ⟨_, _, rfl, by simp, rfl⟩
  | .cast .doubleColon operand type, h, r => by
    have ht := h.child (q := .expr operand) (by simp [Part.children, Expr.children])
    simp only [Expr.layout, h.head.2.2, Layout.parensIf, Layout.solid_append, List.append_assoc]
    exact Expr.head_layout operand ht _
  | .nested inner, _, r => ⟨_, _, rfl, by simp, rfl⟩
  | .tuple items, _, r => ⟨_, _, rfl, by simp, rfl⟩
  | .placeholder (.positional n), _, r => ⟨_, _, rfl, by simp, rfl⟩
  | .placeholder (.named sigil name), h, r => by
    have hs : sigil = ':' ∨ sigil = '@' := h.head.1
    obtain ⟨s, hw, hs⟩ := ofWord?_sigil d.dq hs
    refine ⟨.word (String.ofList [sigil]), _, rfl, by simp, ?_⟩
    rw [Piece.kind_word hw]
    rcases hs with ⟨-, rfl⟩ | ⟨-, rfl⟩ <;> rfl
  | .wildcard none except replace, h, r => by
    rw [Expr.layout_wildcard]
    exact ⟨.symbol .star, _, rfl, by simp, rfl⟩
  | .wildcard (some ⟨parts⟩) except replace, h, r => by
    have ht : (ObjectName.mk parts).Legal d.dq := h.head.1.1 _ rfl
    rw [Expr.layout_wildcard]
    simp only [Layout.optional_some, Layout.solid_append, List.append_assoc]
    cases parts with
    | nil => exact absurd rfl ht.1
    | cons first more => exact startsExpr_names (ht.2 first (by simp)) more _

theorem Expr.kindAhead_ne {e : Expr} (h : e.Clear d) (r : Layout) {kind : TokenKind}
    (hk : startsExpr kind = false) : kindAhead d.dq (e.layout.solid ++ r) 0 ≠ kind := by
  obtain ⟨p, l, hl, -, hs⟩ := e.head_layout h r
  rw [hl]
  exact ne_of_startsExpr hs hk

theorem Expr.kindAhead_append {e : Expr} (h : e.Clear d) (r : Layout) :
    kindAhead d.dq (e.layout.solid ++ r) 0 = kindAhead d.dq e.layout.solid 0 := by
  obtain ⟨p, l, hl, -⟩ := e.head_layout h []
  rw [List.append_nil] at hl
  rw [hl]
  rfl

/-! ## The beginning of a query -/

theorem SetExpr.head_layout {b : SetExpr} (h : b.opens = true) :
    ∃ l, b.layout.solid = .keyword .SELECT :: l := by
  match b with
  | .select s =>
    rw [SetExpr.layout, Select.layout_eq]
    exact ⟨_, rfl⟩
  | .combine op quantifier left right =>
    obtain ⟨l, hl⟩ := SetExpr.head_layout (b := left) h
    simp only [SetExpr.layout, Layout.solid_append, hl]
    exact ⟨_, rfl⟩
  | .parens q => simp [SetExpr.opens] at h
  | .values rows => simp [SetExpr.opens] at h

/-- A query begins with `WITH` or with its body. -/
theorem Query.head_layout {q : Query} (h : q.opens = true) (r : Layout) :
    ∃ k l, q.layout.solid ++ r = .keyword k :: l ∧ k ∈ [Keyword.SELECT, .WITH] := by
  rw [Query.layout_eq]
  obtain ⟨ctes, body, orderBy, limitBy, limit, offset⟩ := q
  cases ctes with
  | some w =>
    obtain ⟨recursive, ctes⟩ := w
    exact ⟨.WITH, _, rfl, by simp⟩
  | none =>
    obtain ⟨l, hl⟩ := SetExpr.head_layout (b := body) h
    simp only [Layout.optional_none, List.nil_append, Layout.solid_append, hl]
    exact ⟨.SELECT, _, rfl, by simp⟩

/-- A body that does not begin with a block begins with `VALUES` or with a parenthesis and more
behind it. -/
theorem SetExpr.head_layout_of_not_opens {b : SetExpr} (h : b.opens = false) :
    ∃ p l, b.layout.solid = p :: l ∧ (p = .symbol .leftParen ∧ l ≠ [] ∨ p = .keyword .VALUES) := by
  match b with
  | .select s => simp [SetExpr.opens] at h
  | .combine op quantifier left right =>
    obtain ⟨p, l, hl, hp⟩ := SetExpr.head_layout_of_not_opens (b := left) h
    simp only [SetExpr.layout, Layout.solid_append, hl]
    exact ⟨p, _, rfl, hp.imp_left fun ⟨hp, hne⟩ => ⟨hp, by simp [hne]⟩⟩
  | .parens q => exact ⟨_, _, rfl, .inl ⟨rfl, by simp⟩⟩
  | .values rows => exact ⟨_, _, rfl, .inr rfl⟩

end SqlTree
