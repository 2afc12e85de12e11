import Mathlib
import SqlTree.Proofs.Tree.Law
import SqlTree.Query.Grammar.From

/-! # What may stand behind a part

* `reach`: the power on the left of what goes on with an expression, if anything does.
* `Follows d e r`: what stands ahead in `r` is not taken for a part of the expression `e`.
* `Breaks d l r`: what stands ahead in `r` ends any expression that is written last in `l`.
* `endsItem`, `endsQuery`: tokens that end any item to read from and any query.
* `startsExpr`: the tokens that expressions begin with.
* `Productions.Reads`: readers that read every clear part that is shorter than a bound.
-/

namespace SqlTree
set_option autoImplicit false

open Parse

/-! ## Behind an expression -/

/-- The words of a predicate that may stand behind `NOT`. -/
def negatedWords : List Keyword := [.IN, .LIKE, .ILIKE, .BETWEEN]

/-- The power on the left of what two tokens begin behind an expression, if they go on with it. -/
def reachOf (first second : TokenKind) : Option Nat :=
  match first with
  | .symbol .doubleColon => some castPower
  | .keyword .NOT =>
    if second.keyword?.any negatedWords.contains then some (leftPower predicateLevel) else none
  | .keyword .IS | .keyword .IN | .keyword .LIKE | .keyword .ILIKE | .keyword .BETWEEN =>
    some (leftPower predicateLevel)
  | kind => (BinaryOp.ofToken? kind).map fun op => leftPower op.precedence

/-- The power on the left of what goes on with an expression, if anything does. -/
def reach (dq : Bool) (l : Layout) : Option Nat :=
  reachOf (kindAhead dq l 0) (kindAhead dq l 1)

/-- What stands ahead goes on neither with the type nor with the wildcard that ends a layout. -/
def Meets (d : Dialect) (l r : Layout) : Prop :=
  (l.getLast? = some (.keyword .DOUBLE) → isWord "PRECISION" (kindAhead d.dq r 0) = false) ∧
    (l.getLast? = some (.symbol .star) → opensExcept d r = false) ∧
    ¬(kindAhead d.dq r 0 ∈ [.keyword .EXCLUDE, .keyword .REPLACE] ∧
      kindAhead d.dq r 1 = .symbol .leftParen)

/-- What stands ahead is not taken for a part of an expression. -/
structure Follows (d : Dialect) (e : Expr) (r : Layout) : Prop where
  stops : ∀ k ∈ reach d.dq r, k < e.rightEdge
  plain : kindAhead d.dq r 0 ∉
    [TokenKind.symbol .dot, .symbol .leftParen, .symbol .leftBracket]
  solid : r.head? ≠ some .closingAngle
  meets : Meets d e.layout r

/-- A token that ends any expression. -/
def breaksExpr : TokenKind → Bool
  | .endOfInput => true
  | .symbol s => [Symbol.rightParen, .rightBracket, .rightBrace, .comma, .semicolon].contains s
  | .keyword k =>
    !([Keyword.AND, .OR, .NOT, .IS, .IN, .LIKE, .ILIKE, .BETWEEN, .EXCEPT, .EXCLUDE,
      .REPLACE].contains k)
  | _ => false

theorem opensExcept_of_ne {d : Dialect} {r : Layout}
    (h : kindAhead d.dq r 0 ≠ .keyword .EXCEPT) : opensExcept d r = false := by
  unfold opensExcept
  rw [beq_false_of_ne h, Bool.and_false, Bool.false_and, Bool.false_and]

/-- What stands ahead ends an expression that is written last in `l`. Only where that is no
wildcard, any `EXCEPT` may stand ahead. -/
def Breaks (d : Dialect) (l r : Layout) : Prop :=
  breaksExpr (kindAhead d.dq r 0) = true ∨
    kindAhead d.dq r 0 = .keyword .EXCEPT ∧
      (l.getLast? = some (.symbol .star) → opensExcept d r = false)

namespace Breaks

variable {d : Dialect} {l l' r : Layout}

theorem kind (h : Breaks d l r) :
    breaksExpr (kindAhead d.dq r 0) = true ∨ kindAhead d.dq r 0 = .keyword .EXCEPT :=
  h.imp_right And.left

theorem ne {other : TokenKind} (h : Breaks d l r) (ho : breaksExpr other = false)
    (hx : other ≠ .keyword .EXCEPT) : kindAhead d.dq r 0 ≠ other := by
  rintro rfl
  rcases h.kind with hk | hk
  · simp [hk] at ho
  · exact hx hk

theorem suffix (h : Breaks d (l ++ l') r) : Breaks d l' r := by
  refine h.imp_right fun ⟨hk, hx⟩ => ⟨hk, fun hl => hx ?_⟩
  rw [List.getLast?_append, hl, Option.some_or]

theorem reach_eq (h : Breaks d l r) : reach d.dq r = none := by
  have hk := h.kind
  unfold reach reachOf
  generalize kindAhead d.dq r 0 = kind at hk
  cases kind with
  | keyword k => cases k <;> first | rfl | exact absurd hk (by decide)
  | symbol s => cases s <;> first | rfl | exact absurd hk (by decide)
  | _ => rfl

theorem head (h : Breaks d l r) : r.head? ≠ some .closingAngle := by
  cases r with
  | nil => simp
  | cons p r =>
    rintro hp
    obtain rfl : p = .closingAngle := by simpa using hp
    have hne : kindAhead d.dq (.closingAngle :: r) 0 ≠ .symbol .greater := h.ne rfl (by simp)
    exact hne rfl

theorem follows {e : Expr} (h : Breaks d e.layout r) : Follows d e r := by
  refine ⟨by simp [h.reach_eq], ?_, h.head, ?_, ?_, ?_⟩
  · simp only [List.mem_cons, List.not_mem_nil, or_false, not_or]
    exact ⟨h.ne rfl (by simp), h.ne rfl (by simp), h.ne rfl (by simp)⟩
  · intro _
    have hk := h.kind
    generalize kindAhead d.dq r 0 = kind at hk
    cases kind <;> first | rfl | exact absurd hk (by simp [breaksExpr])
  · intro hl
    rcases h with hk | ⟨-, hx⟩
    · refine opensExcept_of_ne fun he => ?_
      rw [he] at hk
      exact absurd hk (by decide)
    · exact hx hl
  · rintro ⟨hm, -⟩
    simp only [List.mem_cons, List.not_mem_nil, or_false] at hm
    rcases hm with hm | hm
    · exact h.ne rfl (by simp) hm
    · exact h.ne rfl (by simp) hm

end Breaks

/-! ## Behind items and queries -/

/-- A token that ends an item to read from. -/
def endsItem (kind : TokenKind) : Bool :=
  !startsName kind && !([TokenKind.keyword .AS, .keyword .PIVOT, .keyword .UNPIVOT,
    .symbol .leftParen, .symbol .dot].contains kind)

/-- A token that ends an item with everything joined to it. -/
def endsJoins (kind : TokenKind) : Bool :=
  endsItem kind && !([TokenKind.symbol .comma, .keyword .JOIN, .keyword .INNER, .keyword .LEFT,
    .keyword .RIGHT, .keyword .FULL, .keyword .CROSS, .keyword .USING].contains kind)

/-- A token that ends a query. -/
def endsQuery : TokenKind → Bool
  | .endOfInput | .symbol .rightParen | .symbol .semicolon | .keyword .ON => true
  | _ => false

/-- Whether no condition stands behind a joined item. -/
def Join.isOpen (j : Join) : Bool :=
  match j.constraint with
  | .none => true
  | _ => false

/-- Whether a condition may still stand behind the last one of some joined items. -/
def Join.endOpen (joins : List Join) : Bool :=
  joins.getLast?.any Join.isOpen

/-- Whether a block ends with an item that a condition may still be joined by. -/
def Select.endsOpen (s : Select) : Bool :=
  Join.endOpen s.joins && s.condition.isNone && s.groupBy.isEmpty && s.having.isNone &&
    s.qualify.isNone

/-- Whether a body ends with an item that a condition may still be joined by. -/
def SetExpr.endsOpen : SetExpr → Bool
  | .select s => s.endsOpen
  | .combine _ _ _ right => right.endsOpen
  | _ => false

/-- Whether a query ends with an item that a condition may still be joined by. -/
def Query.endsOpen (q : Query) : Bool :=
  q.body.endsOpen && q.orderBy.isEmpty && q.limitBy.isNone && q.limit.isNone && q.offset.isNone

/-- What stands ahead is not taken for a part of a query. -/
def FollowsQuery (dq : Bool) (q : Query) (r : Layout) : Prop :=
  endsQuery (kindAhead dq r 0) = true ∧ (q.endsOpen = true → kindAhead dq r 0 ≠ .keyword .ON)

/-! ## Readers -/

/-- Readers that read every clear part that is shorter than a bound. -/
structure Productions.Reads (d : Dialect) (g : Productions) (bound : Nat) : Prop where
  expr : ∀ (e : Expr) (power : Nat), e.Clear d → e.layout.size < bound → power ≤ e.leftEdge →
    ∀ r, Follows d e r → (∀ k ∈ reach d.dq r, k < power) →
      Takes d.dq (g.expr power) (e.layout.solid ++ r) e r
  query : ∀ q : Query, q.Clear d → q.layout.size < bound →
    ∀ r, FollowsQuery d.dq q r → Takes d.dq g.query (q.layout.solid ++ r) q r
  fromItem : ∀ i : FromItem, i.Clear d → i.layout.size < bound →
    ∀ r, endsItem (kindAhead d.dq r 0) = true → Takes d.dq g.fromItem (i.layout.solid ++ r) i r

/-- Readers that stop at once read nothing. -/
theorem reads_zero (d : Dialect) (g : Productions) : g.Reads d 0 :=
  ⟨fun _ _ _ h => absurd h (Nat.not_lt_zero _), fun _ _ h => absurd h (Nat.not_lt_zero _),
    fun _ _ h => absurd h (Nat.not_lt_zero _)⟩

/-! ## The beginning of an expression -/

/-- The tokens that expressions begin with. -/
def startsExpr : TokenKind → Bool
  | .integer _ | .float _ | .string _ | .blob _ | .identifier _ _ => true
  | .keyword k =>
    !k.isReserved || [Keyword.TRUE, .FALSE, .NULL, .CASE, .CAST, .EXISTS, .ARRAY, .STRUCT, .LEFT,
      .RIGHT, .NOT].contains k
  | .symbol s =>
    [Symbol.question, .colon, .atSign, .star, .leftParen, .leftBracket, .leftBrace, .minus, .plus,
      .bitNot].contains s
  | .endOfInput => false

theorem startsExpr_of_startsName {kind : TokenKind} (h : startsName kind = true) :
    startsExpr kind = true := by
  cases kind with
  | keyword k =>
    simp only [startsName] at h
    simp [startsExpr, h]
  | identifier name quote => rfl
  | _ => simp [startsName] at h

/-- Nothing that ends an expression begins one. -/
theorem ne_of_startsExpr {kind other : TokenKind} (h : startsExpr kind = true)
    (ho : startsExpr other = false) : kind ≠ other := by
  rintro rfl
  simp [h] at ho

end SqlTree
