import Mathlib
import SqlTree.Proofs.Reading.Primary

/-! # Expressions with operators are read back

* `takes_extend_none`: what stands behind an expression does not go on with it.
* `climbs_extend`: the operators behind the first operand are read one after another, and each
  round builds a left operand of the expression. The induction is on the left operands, and the
  edges of the expression carry it.
* `reads_expression`: an expression is read back by readers of everything shorter.
-/

namespace SqlTree
set_option autoImplicit false

open Parse

variable {d : Dialect} {g : Productions} {bound : Nat} {r : Layout}

/-! ## Nothing to go on with -/

theorem BinaryOp.ofToken?_piece (dq : Bool) (op : BinaryOp) :
    BinaryOp.ofToken? (op.piece.kind dq) = some op := by
  cases op <;> rfl

theorem BinaryOp.eq_piece_of_ofToken? (dq : Bool) {kind : TokenKind} {op : BinaryOp}
    (h : BinaryOp.ofToken? kind = some op) : kind = op.piece.kind dq := by
  unfold BinaryOp.ofToken? at h
  split at h <;> cases h <;> rfl

theorem reachOf_operator {first second : TokenKind} {op : BinaryOp}
    (h : BinaryOp.ofToken? first = some op) :
    reachOf first second = some (leftPower op.precedence) := by
  rw [BinaryOp.eq_piece_of_ofToken? false h]
  cases op <;> rfl

theorem reach_of_operator {op : BinaryOp}
    (h : BinaryOp.ofToken? (kindAhead d.dq r 0) = some op) :
    reach d.dq r = some (leftPower op.precedence) :=
  reachOf_operator h

/-- The words that begin a predicate by themselves. -/
def plainWords : List Keyword := [.IS, .IN, .LIKE, .ILIKE, .BETWEEN]

theorem reachOf_plainWord {k : Keyword} (hk : k ∈ plainWords) (second : TokenKind) :
    reachOf (.keyword k) second = some (leftPower predicateLevel) := by
  simp only [plainWords, List.mem_cons, List.not_mem_nil, or_false] at hk
  rcases hk with rfl | rfl | rfl | rfl | rfl <;> rfl

theorem reach_of_plainWord {k : Keyword} (hk : k ∈ plainWords)
    (h : kindAhead d.dq r 0 = .keyword k) : reach d.dq r = some (leftPower predicateLevel) := by
  rw [reach, h, reachOf_plainWord hk]

theorem takes_extend_none {power : Nat} (e : Expr) (hs : r.head? ≠ some .closingAngle)
    (hr : ∀ k ∈ reach d.dq r, k < power) : Takes d.dq (extend g power e) r none r := by
  refine takes_current_plain hs fun t ht => ?_
  simp only [ht]
  by_cases hcolon : kindAhead d.dq r 0 = .symbol .doubleColon
  · have hlow : castPower < power := hr _ (by simp [reach, reachOf, hcolon])
    rw [if_pos hcolon, if_pos hlow]
    exact .pure none r
  rw [if_neg hcolon]
  cases hop : BinaryOp.ofToken? (kindAhead d.dq r 0) with
  | some op =>
    have hlow : leftPower op.precedence < power := hr _ (reach_of_operator hop)
    simp only
    rw [if_pos hlow]
    exact .pure none r
  | none =>
    simp only
    by_cases hlow : leftPower predicateLevel < power
    · rw [if_pos (by simp [hlow])]
      exact .pure none r
    -- No word but `NOT` begins a predicate here, and that one does not either.
    have hplain : ∀ k ∈ plainWords, kindAhead d.dq r 0 ≠ .keyword k := fun k hk h =>
      hlow (hr _ (reach_of_plainWord hk h))
    by_cases hnot : kindAhead d.dq r 0 = .keyword .NOT
    · have hnext : ∀ w ∈ negatedWords, kindAhead d.dq r 1 ≠ .keyword w := fun w hw h =>
        hlow (hr _ (by simp [reach, reachOf, hnot, h, TokenKind.keyword?, hw]))
      have hone : ∀ p ∈ r.take 1, p ≠ .closingAngle := by
        cases r with
        | nil => simp
        | cons p l => simpa using hs
      rw [hnot, if_neg (by simpa [TokenKind.keyword?, predicateWords] using hlow),
        if_neg (by simp), if_pos rfl]
      exact (takes_anyKeywordAt_no hnext hone).bind (.pure none r)
    · rw [if_pos]
      · exact .pure none r
      · cases hk : kindAhead d.dq r 0 with
        | keyword k =>
          have hk' : k ∉ plainWords := fun h => hplain k h hk
          have hne : k ≠ .NOT := by
            rintro rfl
            exact hnot hk
          simp only [plainWords, List.mem_cons, List.not_mem_nil, or_false, not_or] at hk'
          simp [TokenKind.keyword?, predicateWords, hk', hne]
        | _ => simp [TokenKind.keyword?]

/-! ## In front of an operator -/

/-- A token that goes on with an expression. -/
def goesOn : TokenKind → Bool
  | .symbol s => s == .doubleColon || (BinaryOp.ofToken? (.symbol s)).isSome
  | .keyword k => predicateWords.contains k || (BinaryOp.ofToken? (.keyword k)).isSome
  | _ => false

theorem follows_of_goesOn {e : Expr} (hk : goesOn (kindAhead d.dq r 0) = true)
    (hs : r.head? ≠ some .closingAngle) (hr : ∀ k ∈ reach d.dq r, k < e.rightEdge) :
    Follows d e r := by
  have hne : ∀ {kind : TokenKind}, goesOn kind = false → kindAhead d.dq r 0 ≠ kind := by
    rintro kind hkind rfl
    simp [hk] at hkind
  refine ⟨hr, ?_, hs, fun _ => ?_, fun _ => opensExcept_of_ne (hne rfl), ?_⟩
  · simp only [List.mem_cons, List.not_mem_nil, or_false, not_or]
    exact ⟨hne rfl, hne rfl, hne rfl⟩
  · cases hkind : kindAhead d.dq r 0 with
    | identifier name quote => exact absurd hkind (hne rfl)
    | _ => rfl
  · simp only [List.mem_cons, List.not_mem_nil, or_false]
    rintro ⟨hx | hx, -⟩
    · exact hne rfl hx
    · exact hne rfl hx

theorem follows_operator {left : Expr} {op : BinaryOp}
    (h : leftPower op.precedence < left.rightEdge) (l : Layout) :
    Follows d left (op.piece :: l) := by
  refine follows_of_goesOn ?_ (by cases op <;> simp [BinaryOp.piece]) ?_
  · cases op <;> rfl
  · have hop : BinaryOp.ofToken? (kindAhead d.dq (op.piece :: l) 0) = some op :=
      BinaryOp.ofToken?_piece d.dq op
    rw [reach_of_operator hop]
    simpa using h

/-- In front of a predicate stands its tested expression. -/
theorem follows_predicate {tested : Expr} (h : leftPower predicateLevel < tested.rightEdge)
    (negated : Bool) {k : Keyword} (hk : k ∈ negatedWords) (l : Layout) :
    Follows d tested ((negation negated).solid ++ .keyword k :: l) := by
  simp only [negatedWords, List.mem_cons, List.not_mem_nil, or_false] at hk
  have hreach : ∀ n ∈ reach d.dq ((negation negated).solid ++ .keyword k :: l),
      n < tested.rightEdge := by
    cases negated <;> rcases hk with rfl | rfl | rfl | rfl <;> simpa [reach, reachOf, negation,
      Layout.onlyIf, negatedWords, TokenKind.keyword?, Layout.solid] using h
  refine follows_of_goesOn ?_ ?_ hreach
  · cases negated
    · rcases hk with rfl | rfl | rfl | rfl <;> rfl
    · rfl
  · cases negated <;> simp [negation, Layout.onlyIf]

/-- What follows an expression follows the expression that it ends with. -/
theorem Follows.last {e e' : Expr} {l : Layout} (h : Follows d e r) (hl : e.layout = l ++ e'.layout)
    (he : e.rightEdge ≤ e'.rightEdge) : Follows d e' r := by
  obtain ⟨hstops, hplain, hsolid, hdouble, hstar, hwords⟩ := h
  have hlast : ∀ p, e'.layout.getLast? = some p → e.layout.getLast? = some p := by
    intro p hp
    rw [hl, List.getLast?_append, hp, Option.some_or]
  exact ⟨fun k hk => (hstops k hk).trans_le he, hplain, hsolid, fun h => hdouble (hlast _ h),
    fun h => hstar (hlast _ h), hwords⟩

/-! ## One round -/

section Rounds

variable (hg : g.Reads d bound) {power : Nat}

theorem takes_extend_binary {left right : Expr} {op : BinaryOp} (hp : power ≤ leftPower op.precedence)
    (hr : Takes d.dq (g.expr (rightPower op.precedence)) (right.layout.solid ++ r) right r) :
    Takes d.dq (extend g power left) (op.piece :: (right.layout.solid ++ r))
      (some (.binary left op right)) r := by
  have hne : op.piece ≠ .closingAngle ∧ op.piece.questions = 0 ∧
      op.piece.kind d.dq ≠ .symbol .doubleColon := by
    cases op <;> simp [BinaryOp.piece, Piece.questions]
  refine takes_current hne.1 fun t ht _ => ?_
  simp only [ht]
  rw [if_neg hne.2.2, BinaryOp.ofToken?_piece]
  simp only
  rw [if_neg (by omega)]
  exact (takes_advance hne.1 hne.2.1).bind (hr.bind (.pure _ r))

theorem takes_extend_cast (operand : Expr) {type : DataType} (hp : power ≤ castPower)
    (hr : Takes d.dq dataType (type.layout.solid ++ r) type r) :
    Takes d.dq (extend g power operand) (.symbol .doubleColon :: (type.layout.solid ++ r))
      (some (ascribe operand type)) r := by
  refine takes_current (by simp) fun t ht _ => ?_
  simp only [ht, Piece.kind_symbol, if_true]
  rw [if_neg (by omega)]
  exact (takes_advance (by simp) rfl).bind (hr.bind (.pure _ r))

theorem takes_extend_isNull {tested : Expr} (hp : power ≤ leftPower predicateLevel)
    (negated : Bool) :
    Takes d.dq (extend g power tested)
      (.keyword .IS :: ((negation negated).solid ++ .keyword .NULL :: r))
      (some (.isNull tested negated)) r := by
  refine takes_current (by simp) fun t ht _ => ?_
  simp only [ht, Piece.kind_keyword]
  rw [if_neg (by simp)]
  simp only [BinaryOp.ofToken?]
  rw [if_neg (by simp [TokenKind.keyword?, predicateWords]; omega), if_pos trivial]
  have hread : Takes d.dq (nullTest tested)
      (.keyword .IS :: ((negation negated).solid ++ .keyword .NULL :: r)) (.isNull tested negated)
      r := by
    refine (takes_expectKeyword _ _).bind ?_
    have hend : Takes d.dq (do
        expectKeyword .NULL
        return Expr.isNull tested negated) (.keyword .NULL :: r) (.isNull tested negated) r :=
      (takes_expectKeyword _ r).bind (.pure _ r)
    cases negated with
    | true => exact (takes_takeKeyword_yes _ _).bind hend
    | false => exact (takes_takeKeyword_no (by simp [negation, Layout.onlyIf])).bind hend
  exact hread.bind (.pure _ r)

/-- A predicate is read behind the expression that it tests. -/
theorem takes_extend_predicate {tested e : Expr} {negated : Bool} {k : Keyword} {l : Layout}
    (hp : power ≤ leftPower predicateLevel) (hk : k ∈ negatedWords)
    (h : Takes d.dq (predicate g tested negated) (.keyword k :: l) e r) :
    Takes d.dq (extend g power tested) ((negation negated).solid ++ .keyword k :: l) (some e) r := by
  have hk' : k = .IN ∨ k = .LIKE ∨ k = .ILIKE ∨ k = .BETWEEN := by simpa [negatedWords] using hk
  cases negated with
  | true =>
    refine takes_current (p := .keyword .NOT) (by simp) fun t ht _ => ?_
    simp only [ht, Piece.kind_keyword]
    rw [if_neg (by simp)]
    simp only [BinaryOp.ofToken?]
    rw [if_neg (by simp [TokenKind.keyword?, predicateWords]; omega), if_neg (by simp),
      if_pos trivial]
    refine (takes_anyKeywordAt_yes (w := k) rfl hk (by simp)).bind ?_
    exact (takes_advance (by simp) rfl).bind (h.bind (.pure _ r))
  | false =>
    refine takes_current (p := .keyword k) (by simp) fun t ht _ => ?_
    simp only [ht, Piece.kind_keyword]
    rcases hk' with rfl | rfl | rfl | rfl <;>
      (rw [if_neg (by simp)]
       simp only [BinaryOp.ofToken?]
       rw [if_neg (by simp [TokenKind.keyword?, predicateWords]; omega), if_neg (by simp),
         if_neg (by simp)]
       exact h.bind (.pure _ r))

include hg

theorem takes_predicate_inList (tested : Expr) (negated : Bool) {items : List Expr}
    (hne : items ≠ []) (h : ∀ e ∈ items, e.Clear d)
    (hs : (Layout.commas (items.map Expr.layout)).size < bound) :
    Takes d.dq (predicate g tested negated)
      (.keyword .IN :: ((Layout.parens (Layout.commas (items.map Expr.layout))).solid ++ r))
      (.inList tested negated items) r := by
  have hlist := takes_exprList (r := .symbol .rightParen :: r) hg hne h hs (.inl rfl) (by simp)
  have hno : Takes d.dq (queryAt 0)
      ((Layout.commas (items.map Expr.layout)).solid ++ .symbol .rightParen :: r) false
      ((Layout.commas (items.map Expr.layout)).solid ++ .symbol .rightParen :: r) := by
    cases items with
    | nil => contradiction
    | cons e es =>
      rw [List.map_cons, Layout.commas, solid_sepBy, List.append_assoc]
      exact takes_queryAt_no (h e (by simp))
  simp only [Layout.parens, Layout.solid_symbol, Layout.solid_append, Layout.solid_nil,
    List.cons_append, List.append_assoc, List.nil_append]
  refine (takes_keywordAt_yes rfl (by simp)).bind ((takes_expectKeyword _ _).bind ?_)
  refine (takes_expectSymbol _ _ (by decide)).bind (hno.bind (hlist.bind ?_))
  exact (takes_expectSymbol _ r (by decide)).bind (.pure _ r)

theorem takes_predicate_inQuery (tested : Expr) (negated : Bool) {q : Query} (h : q.Clear d)
    (ho : q.opens = true) (hs : q.layout.size < bound) :
    Takes d.dq (predicate g tested negated)
      (.keyword .IN :: ((Layout.parens q.layout).solid ++ r)) (.inQuery tested negated q) r := by
  have hquery := hg.query q h hs (.symbol .rightParen :: r) ⟨rfl, by simp⟩
  simp only [Layout.parens, Layout.solid_symbol, Layout.solid_append, Layout.solid_nil,
    List.cons_append, List.append_assoc, List.nil_append]
  refine (takes_keywordAt_yes rfl (by simp)).bind ((takes_expectKeyword _ _).bind ?_)
  refine (takes_expectSymbol _ _ (by decide)).bind ((takes_queryAt_yes ho).bind (hquery.bind ?_))
  exact (takes_expectSymbol _ r (by decide)).bind (.pure _ r)

theorem takes_predicate_between (tested : Expr) (negated : Bool) {low high : Expr} (hl : low.Clear d)
    (hh : high.Clear d) (hs : low.layout.size < bound ∧ high.layout.size < bound)
    (hp : rightPower predicateLevel ≤ low.leftEdge ∧ rightPower predicateLevel ≤ high.leftEdge)
    (ha : leftPower BinaryOp.and.precedence < low.rightEdge) (hf : Follows d high r)
    (hr : ∀ k ∈ reach d.dq r, k < rightPower predicateLevel) :
    Takes d.dq (predicate g tested negated)
      (.keyword .BETWEEN :: (low.layout.solid ++ .keyword .AND :: (high.layout.solid ++ r)))
      (.between tested negated low high) r := by
  have hreach : reach d.dq (.keyword .AND :: (high.layout.solid ++ r)) =
      some (leftPower BinaryOp.and.precedence) := rfl
  have hlow := hg.expr low _ hl hs.1 hp.1 _ (follows_operator ha (high.layout.solid ++ r))
    (by simp [BinaryOp.piece, hreach, leftPower, rightPower, BinaryOp.precedence, predicateLevel])
  have hhigh := hg.expr high _ hh hs.2 hp.2 r hf hr
  refine (takes_keywordAt_no (by simp) (by simp)).bind ((takes_keywordAt_yes rfl (by simp)).bind ?_)
  refine (takes_expectKeyword _ _).bind (hlow.bind ((takes_expectKeyword _ _).bind ?_))
  exact hhigh.bind (.pure _ r)

theorem takes_predicate_like (tested : Expr) (negated : Bool) {pattern : Expr} (caseless : Bool)
    (h : pattern.Clear d) (hs : pattern.layout.size < bound)
    (hp : rightPower predicateLevel ≤ pattern.leftEdge) (hf : Follows d pattern r)
    (hr : ∀ k ∈ reach d.dq r, k < rightPower predicateLevel) :
    Takes d.dq (predicate g tested negated)
      (.keyword (if caseless then .ILIKE else .LIKE) :: (pattern.layout.solid ++ r))
      (.like tested negated caseless pattern) r := by
  have hpattern := hg.expr pattern _ h hs hp r hf hr
  cases caseless with
  | true =>
    refine (takes_keywordAt_no (by simp) (by simp)).bind ((takes_keywordAt_no (by simp) (by simp)).bind ?_)
    refine (takes_keywordAt_yes rfl (by simp)).bind ((takes_advance (by simp) rfl).bind ?_)
    exact hpattern.bind (.pure _ r)
  | false =>
    refine (takes_keywordAt_no (by simp) (by simp)).bind ((takes_keywordAt_no (by simp) (by simp)).bind ?_)
    refine (takes_keywordAt_no (by simp) (by simp)).bind ((takes_advance (by simp) rfl).bind ?_)
    exact hpattern.bind (.pure _ r)

theorem takes_operand_unary {op : UnaryOp} {e : Expr} (h : e.Clear d) (hs : e.layout.size < bound)
    (hp : operandPower op ≤ e.leftEdge) (hf : Follows d e r)
    (hr : ∀ k ∈ reach d.dq r, k < operandPower op) :
    Takes d.dq (operand g d) (op.piece :: (e.layout.solid ++ r)) (.unary op e) r := by
  have hread := hg.expr e _ h hs hp r hf hr
  have hop : op.piece ≠ .closingAngle ∧ op.piece.questions = 0 ∧
      UnaryOp.ofToken? (op.piece.kind d.dq) = some op := by
    cases op <;> simp [UnaryOp.piece, Piece.questions, UnaryOp.ofToken?]
  refine takes_current hop.1 fun t ht _ => ?_
  simp only [ht, hop.2.2]
  exact (takes_advance hop.1 hop.2.1).bind (hread.bind (.pure _ r))

/-! ## All rounds -/

/-- The operators behind the first operand of an expression are read one after another. -/
theorem climbs_extend {power : Nat} : ∀ e : Expr, e.Clear d → e.layout.size ≤ bound →
    power ≤ e.leftEdge → ∀ r, Follows d e r →
      ∃ base l, Takes d.dq (operand g d) (e.layout.solid ++ r) base l ∧
        Climbs d.dq (extend g power) base l e r
  | .binary left op right, h, hs, hp, r, hr => by
    obtain ⟨⟨⟨hleft, hright⟩, -⟩, hc⟩ := Expr.clear_iff.1 h
    simp only [Expr.children, List.forall_mem_cons] at hc
    have hlay : (Expr.binary left op right).layout =
        (left.layout ++ [.gap, op.piece, .gap]) ++ right.layout := by
      simp [Expr.layout, parensLeft_eq_false hleft, parensRight_eq_false hright, Layout.parensIf]
    have hsolid : (left.layout ++ [.gap, op.piece, .gap]).solid = left.layout.solid ++ [op.piece] := by
      cases op <;> simp [BinaryOp.piece]
    have hsize : (Expr.binary left op right).layout.size =
        left.layout.size + 1 + right.layout.size := by
      rw [hlay]
      cases op <;> simp [BinaryOp.piece] <;> omega
    simp only [Expr.leftEdge, le_min_iff] at hp
    obtain ⟨base, l, h1, h2⟩ := climbs_extend left hc.1 (by omega) hp.2
      (op.piece :: (right.layout.solid ++ r)) (follows_operator hleft _)
    have hedge : (Expr.binary left op right).rightEdge ≤ right.rightEdge := min_le_right _ _
    have hread := hg.expr right _ hc.2.1 (by omega) hright r (hr.last hlay hedge)
      fun k hk => (hr.stops k hk).trans_le (min_le_left _ _)
    refine ⟨base, l, ?_, h2.next (takes_extend_binary hp.1 hread) ?_⟩
    · rw [hlay, Layout.solid_append, hsolid]
      simpa using h1
    · cases op <;> simp [BinaryOp.piece]
  | .cast .doubleColon operand type, h, hs, hp, r, hr => by
    obtain ⟨⟨⟨hl, hedge, hascribe⟩, hf, hparens⟩, hc⟩ := Expr.clear_iff.1 h
    have hlay : (Expr.cast .doubleColon operand type).layout =
        operand.layout ++ .symbol .doubleColon :: type.layout := by
      simp [Expr.layout, hparens, Layout.parensIf]
    rw [hlay] at hs ⊢
    simp only [Layout.size_append, Layout.size_symbol] at hs
    simp only [Expr.leftEdge, le_min_iff] at hp
    have hfo : Follows d operand (.symbol .doubleColon :: (type.layout.solid ++ r)) :=
      follows_of_goesOn rfl (by simp) (by simpa [reach, reachOf, reachOf] using hedge)
    obtain ⟨base, l, h1, h2⟩ := climbs_extend operand (hc _ (by simp [Expr.children])) (by omega)
      hp.2 _ hfo
    have htype : FollowsType d.dq type r := by
      obtain ⟨-, hplain, -, hdouble, -⟩ := hr
      simp only [List.mem_cons, List.not_mem_nil, or_false, not_or] at hplain
      refine ⟨hplain.2.1, hplain.2.2, ?_⟩
      rintro rfl
      exact hdouble (by simp [hlay, DataType.layout, PlainType.keyword])
    have hround := takes_extend_cast (g := g) operand hp.1 (takes_dataType hl hf htype)
    rw [hascribe] at hround
    refine ⟨base, l, ?_, h2.next hround (by simp)⟩
    simpa using h1
  | .struct ⟨.duckDb, word, some fields, arguments⟩, h, hs, hp, r, hr => by
    obtain ⟨⟨⟨hd, hword, hl, items, harguments, hi⟩, hf, hv⟩, hc⟩ := Expr.clear_iff.1 h
    dsimp only at hword harguments
    subst hword harguments
    have hlay : (Expr.struct ⟨.duckDb, none, some fields, some items⟩).layout =
        SelectItem.bracesLayout items ++ StructField.castLayout fields := by
      rw [Expr.layout, StructValue.layout_duckDb, Layout.optional_some, Layout.optional_some]
    rw [hlay] at hs ⊢
    rw [Layout.size_append] at hs
    have hbase : (Expr.struct ⟨.duckDb, none, none, some items⟩).Clear d :=
      Expr.clear_iff.2 ⟨⟨⟨hd, rfl, by simp, items, rfl, hi⟩, by simp, hv⟩, hc⟩
    have hbraces := takes_structInBraces (r := (StructField.castLayout fields).solid ++ r) hg hbase
      (by omega)
    have htype := takes_dataType (r := r) (hl fields rfl) (hf fields rfl) ⟨fun h => hr.plain (by simp [h]),
      fun h => hr.plain (by simp [h]), by simp⟩
    have hcast : (StructField.castLayout fields).solid ++ r =
        .symbol .doubleColon :: ((DataType.struct .parens fields).layout.solid ++ r) := by
      simp [StructField.castLayout, DataType.layout, Layout.parens, StructField.layouts_eq_map,
        solid_tightCommas]
    have hround := takes_extend_cast (g := g) (.struct ⟨.duckDb, none, none, some items⟩) hp htype
    rw [← hcast] at hround
    refine ⟨_, _, ?_, Climbs.refl.next hround ?_⟩
    · simpa using hbraces
    · rw [hcast]
      simp
  | .isNull tested negated, h, hs, hp, r, hr => by
    obtain ⟨⟨hedge, -⟩, hc⟩ := Expr.clear_iff.1 h
    replace hedge : leftPower predicateLevel < tested.rightEdge := hedge
    simp only [Expr.leftEdge, le_min_iff] at hp
    simp only [Expr.layout, Layout.size_append] at hs
    have hfo : Follows d tested (.keyword .IS :: ((negation negated).solid ++ .keyword .NULL :: r)) :=
      follows_of_goesOn rfl (by simp) (by simpa [reach, reachOf, reachOf] using hedge)
    obtain ⟨base, l, h1, h2⟩ := climbs_extend tested (hc _ (by simp [Expr.children])) (by omega)
      hp.2 _ hfo
    refine ⟨base, l, ?_, h2.next (takes_extend_isNull hp.1 negated) (by simp; omega)⟩
    simpa [Expr.layout] using h1
  | .inList tested negated items, h, hs, hp, r, hr => by
    obtain ⟨⟨⟨hedge, hne⟩, -⟩, hc⟩ := Expr.clear_iff.1 h
    simp only [Expr.children, Part.exprs, List.forall_mem_cons, List.forall_mem_map] at hc
    simp only [Expr.leftEdge, le_min_iff] at hp
    simp only [Expr.layout, Expr.layouts_eq_map, Layout.parens, Layout.size_append,
      Layout.size_symbol, Layout.size_nil] at hs
    obtain ⟨base, l, h1, h2⟩ := climbs_extend tested hc.1 (by omega) hp.2 _
      (follows_predicate hedge negated (k := .IN) (by simp [negatedWords])
        ((Layout.parens (Layout.commas (items.map Expr.layout))).solid ++ r))
    have hread := takes_predicate_inList (r := r) hg tested negated hne hc.2
      (by omega)
    refine ⟨base, l, ?_, h2.next (takes_extend_predicate hp.1 (by simp [negatedWords]) hread)
      (by simp; omega)⟩
    simpa [Expr.layout, Expr.layouts_eq_map] using h1
  | .inQuery tested negated q, h, hs, hp, r, hr => by
    obtain ⟨⟨⟨hedge, ho⟩, -⟩, hc⟩ := Expr.clear_iff.1 h
    simp only [Expr.children, List.forall_mem_cons] at hc
    simp only [Expr.leftEdge, le_min_iff] at hp
    simp only [Expr.layout, Layout.parens, Layout.size_append, Layout.size_symbol,
      Layout.size_nil] at hs
    obtain ⟨base, l, h1, h2⟩ := climbs_extend tested hc.1 (by omega) hp.2 _
      (follows_predicate hedge negated (k := .IN) (by simp [negatedWords])
        ((Layout.parens q.layout).solid ++ r))
    have hread := takes_predicate_inQuery (r := r) hg tested negated hc.2.1 ho
      (by omega)
    refine ⟨base, l, ?_, h2.next (takes_extend_predicate hp.1 (by simp [negatedWords]) hread)
      (by simp; omega)⟩
    simpa [Expr.layout] using h1
  | .between tested negated low high, h, hs, hp, r, hr => by
    obtain ⟨⟨⟨hedge, hlow, hand, hhigh⟩, -⟩, hc⟩ := Expr.clear_iff.1 h
    simp only [Expr.children, List.forall_mem_cons] at hc
    simp only [Expr.leftEdge, le_min_iff] at hp
    simp only [Expr.layout, Layout.size_append, Layout.size_gap, Layout.size_keyword,
      Layout.size_nil] at hs
    obtain ⟨base, l, h1, h2⟩ := climbs_extend tested hc.1 (by omega) hp.2 _
      (follows_predicate hedge negated (k := .BETWEEN) (by simp [negatedWords])
        (low.layout.solid ++ .keyword .AND :: (high.layout.solid ++ r)))
    have hread := takes_predicate_between hg tested negated hc.2.1 hc.2.2.1
      ⟨by omega, by omega⟩ ⟨hlow, hhigh⟩ hand (hr.last rfl (min_le_right _ _))
      fun k hk => (hr.stops k hk).trans_le (min_le_left _ _)
    refine ⟨base, l, ?_, h2.next (takes_extend_predicate hp.1 (by simp [negatedWords]) hread)
      (by simp; omega)⟩
    simpa [Expr.layout] using h1
  | .like tested negated caseless pattern, h, hs, hp, r, hr => by
    obtain ⟨⟨⟨hedge, hpattern⟩, -⟩, hc⟩ := Expr.clear_iff.1 h
    simp only [Expr.children, List.forall_mem_cons] at hc
    simp only [Expr.leftEdge, le_min_iff] at hp
    simp only [Expr.layout, Layout.size_append, Layout.size_gap, Layout.size_keyword,
      Layout.size_nil] at hs
    have hk : (if caseless = true then Keyword.ILIKE else .LIKE) ∈ negatedWords := by
      cases caseless <;> decide
    obtain ⟨base, l, h1, h2⟩ := climbs_extend tested hc.1 (by omega) hp.2 _
      (follows_predicate hedge negated hk (pattern.layout.solid ++ r))
    have hread := takes_predicate_like hg tested negated caseless hc.2.1
      (by omega) hpattern (hr.last rfl (min_le_right _ _))
      fun k hk => (hr.stops k hk).trans_le (min_le_left _ _)
    refine ⟨base, l, ?_, h2.next (takes_extend_predicate hp.1 hk hread) (by simp; omega)⟩
    simpa [Expr.layout] using h1
  | .unary op operand, h, hs, hp, r, hr => by
    obtain ⟨⟨hedge, -⟩, hc⟩ := Expr.clear_iff.1 h
    have hlay : (Expr.unary op operand).layout =
        (op.piece :: gapAfterUnary op operand.layout) ++ operand.layout := by
      simp [Expr.layout, parensUnary_eq_false hedge, Layout.parensIf]
    have hsolid : (Layout.solid (op.piece :: gapAfterUnary op operand.layout)) = [op.piece] := by
      cases op <;> simp [UnaryOp.piece, gapAfterUnary, Layout.onlyIf] <;> split <;> simp
    have hsize : (Layout.size (op.piece :: gapAfterUnary op operand.layout)) = 1 := by
      rw [← Layout.size_solid, hsolid]
      cases op <;> simp [UnaryOp.piece]
    have hedge' : (Expr.unary op operand).rightEdge ≤ operand.rightEdge := min_le_right _ _
    rw [hlay, Layout.size_append, hsize] at hs
    have hread := takes_operand_unary hg (hc (.expr operand) (by simp [Expr.children])) (by omega) hedge
      (hr.last hlay hedge') fun k hk => (hr.stops k hk).trans_le (min_le_left _ _)
    refine ⟨_, r, ?_, .refl⟩
    rw [hlay, Layout.solid_append, hsolid]
    exact hread
  | .literal v, h, hs, hp, r, hr => ⟨_, r, takes_primary hg rfl h hs hr, .refl⟩
  | .column c, h, hs, hp, r, hr => ⟨_, r, takes_primary hg rfl h hs hr, .refl⟩
  | .call c, h, hs, hp, r, hr => ⟨_, r, takes_primary hg rfl h hs hr, .refl⟩
  | .array withWord elements, h, hs, hp, r, hr => ⟨_, r, takes_primary hg rfl h hs hr, .refl⟩
  | .struct ⟨.bigQuery, word, fields, arguments⟩, h, hs, hp, r, hr =>
    ⟨_, r, takes_primary hg rfl h hs hr, .refl⟩
  | .struct ⟨.duckDb, word, none, arguments⟩, h, hs, hp, r, hr =>
    ⟨_, r, takes_primary hg rfl h hs hr, .refl⟩
  | .subquery q, h, hs, hp, r, hr => ⟨_, r, takes_primary hg rfl h hs hr, .refl⟩
  | .existsQuery q, h, hs, hp, r, hr => ⟨_, r, takes_primary hg rfl h hs hr, .refl⟩
  | .caseWhen operand arms otherwise, h, hs, hp, r, hr =>
    ⟨_, r, takes_primary hg rfl h hs hr, .refl⟩
  | .cast .function operand type, h, hs, hp, r, hr =>
    ⟨_, r, takes_primary hg rfl h hs hr, .refl⟩
  | .nested inner, h, hs, hp, r, hr => ⟨_, r, takes_primary hg rfl h hs hr, .refl⟩
  | .tuple items, h, hs, hp, r, hr => ⟨_, r, takes_primary hg rfl h hs hr, .refl⟩
  | .placeholder place, h, hs, hp, r, hr => ⟨_, r, takes_primary hg rfl h hs hr, .refl⟩
  | .wildcard table except replace, h, hs, hp, r, hr =>
    ⟨_, r, takes_primary hg rfl h hs hr, .refl⟩

end Rounds

/-- An expression is read back, given readers of everything shorter. -/
theorem reads_expression (hg : g.Reads d bound) {e : Expr} {power : Nat} (h : e.Clear d)
    (hs : e.layout.size ≤ bound) (hp : power ≤ e.leftEdge) (hf : Follows d e r)
    (hr : ∀ k ∈ reach d.dq r, k < power) :
    Takes d.dq (expression g d power) (e.layout.solid ++ r) e r := by
  obtain ⟨base, l, h1, h2⟩ := climbs_extend hg e h hs hp r hf
  exact h1.bind (h2.takes (takes_extend_none e hf.solid hr))

end SqlTree
