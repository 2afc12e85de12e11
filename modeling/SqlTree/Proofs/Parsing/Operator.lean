import Mathlib
import SqlTree.Proofs.Parsing.Expr
import SqlTree.Proofs.Reading.Operator

/-! # The form of operators that are read

* `matches_extend`: what goes on with an expression leaves its edges whole.
* `matches_expression`: an expression with everything behind it that binds tightly enough.

The rounds of the loop keep one invariant: what was read so far ends at the cursor, that is, nothing
that goes on there could take a part of it away.
-/

namespace SqlTree
set_option autoImplicit false

open Parse

/-! ## What goes on -/

theorem reachOf_le {first second : TokenKind} : ∀ k ∈ reachOf first second, k ≤ castPower := by
  have hop : ∀ op : BinaryOp, leftPower op.precedence ≤ castPower := by
    intro op
    have := op.precedence_bounds
    simp only [leftPower, castPower]
    omega
  have hmap : ∀ kind, ∀ k ∈ (BinaryOp.ofToken? kind).map fun op => leftPower op.precedence,
      k ≤ castPower := by
    intro kind k hk
    obtain ⟨op, -, rfl⟩ := Option.map_eq_some_iff.1 hk
    exact hop op
  intro k hk
  unfold reachOf at hk
  split at hk
  · cases hk
    exact le_rfl
  · split at hk
    · cases hk
      decide
    · cases hk
  all_goals first | (cases hk; decide) | exact hmap _ k hk

/-- What goes on without an operator is a predicate. -/
theorem reachOf_word {first second : TokenKind} (hop : BinaryOp.ofToken? first = none)
    (hc : first ≠ .symbol .doubleColon) : ∀ k ∈ reachOf first second,
      k = leftPower predicateLevel ∧ first.keyword?.any predicateWords.contains = true := by
  intro k hk
  unfold reachOf at hk
  split at hk
  · exact absurd rfl hc
  · split at hk
    · exact ⟨(Option.some.inj hk).symm, rfl⟩
    · cases hk
  all_goals first | exact ⟨(Option.some.inj hk).symm, rfl⟩ | (rw [hop] at hk; cases hk)

/-- Behind an expression that is closed on its right nothing takes a part of it away. -/
theorem Expr.endsAt_of_closed {power : Nat} {e : Expr} (hl : power ≤ e.leftEdge)
    (hr : e.rightEdge = closedEdge) (c : Cursor) : e.EndsAt power c := by
  refine ⟨hl, fun k hk => ?_⟩
  have := reachOf_le k hk
  rw [hr]
  exact Nat.lt_of_le_of_lt this (by decide)

namespace Parse

variable {α : Type} {Q : α → Cursor → Prop}

theorem Matches.token {f f' : Token → Parse α} {c c' : Cursor} (hc : c.Alike c')
    (h : ∀ kind span span' text, c.current.kind = kind →
      Matches Q (f ⟨kind, span, text⟩ c) (f' ⟨kind, span', text⟩ c')) :
    Matches Q ((current >>= f) c) ((current >>= f') c') := by
  obtain ⟨hk, ht⟩ := hc.current
  have hf := h c.current.kind c.current.span c'.current.span c.current.text rfl
  have he : c'.current = ⟨c.current.kind, c'.current.span, c.current.text⟩ := by rw [hk, ht]
  rw [← he] at hf
  exact hf

theorem matches_anyKeywordAt (n : Nat) (ks : List Keyword) {c c' : Cursor} (hc : c.Alike c') :
    Matches (fun b c₁ => c₁ = c ∧ b = (c.peek n).keyword?.any ks.contains)
      (anyKeywordAt n ks c) (anyKeywordAt n ks c') := by
  show Matches _ (.ok ((c.peek n).keyword?.any ks.contains) c)
    (.ok ((c'.peek n).keyword?.any ks.contains) c')
  rw [hc.peek n]
  exact .ok hc ⟨rfl, rfl⟩

variable {d : Dialect} {g g' : Productions} (hg : g.Agree d g')
include hg

/-! ## Operands -/

theorem matches_operand {power : Nat} (hp : power ≤ castPower) {c c' : Cursor} (hc : c.Alike c') :
    Matches (fun e c => (Part.expr e).AllFormed d ∧ e.EndsAt power c)
      (operand g d c) (operand g' d c') := by
  have hclosed : power ≤ closedEdge := hp.trans (by decide)
  refine Matches.token hc fun kind _ _ _ _ => ?_
  dsimp only
  cases hop : UnaryOp.ofToken? kind with
  | none =>
    refine (agrees_primary hg c c' hc).mono fun e c₁ ⟨he, hl, hr⟩ => ⟨he, ?_⟩
    exact e.endsAt_of_closed (by rw [hl]; exact hclosed) hr c₁
  | some op =>
    have hop : operandPower op ≤ castPower := by cases op <;> decide
    refine (agrees_advance c c' hc).bind fun _ c₁ c₁' _ h₁ => ?_
    refine (hg.expr _ hop c₁ c₁' h₁).bind fun e c₂ c₂' ⟨he, hends, hk⟩ h₂ => .ok h₂ ?_
    refine ⟨Part.obeys_iff.2 ⟨hends.left, by simpa [Part.children, Expr.children] using he⟩, ?_⟩
    exact ⟨hclosed, fun k hm => lt_min (hk k hm) (hends.right k hm)⟩

/-! ## Predicates -/

section Predicates

variable {tested : Expr} (ht : (Part.expr tested).AllFormed d)
  (hr : leftPower predicateLevel < tested.rightEdge)
include ht hr

omit hg in
theorem agrees_nullTest : Agrees (nullTest tested) (nullTest tested) fun e =>
    (Part.expr e).AllFormed d ∧ e.leftEdge = min (leftPower predicateLevel) tested.leftEdge ∧
      e.rightEdge = closedEdge := by
  refine (agrees_expectKeyword _).next fun _ => (agrees_takeKeyword _).next fun _ => ?_
  refine (agrees_expectKeyword _).next fun _ => .pure ⟨Part.obeys_iff.2 ⟨hr, ?_⟩, rfl, rfl⟩
  simpa [Part.children, Expr.children] using ht

theorem agrees_membership (negated : Bool) :
    Agrees (membership g tested negated) (membership g' tested negated) fun e =>
      (Part.expr e).AllFormed d ∧ e.leftEdge = min (leftPower predicateLevel) tested.leftEdge ∧
        e.rightEdge = closedEdge := by
  refine (agrees_expectKeyword _).next fun _ => (agrees_expectSymbol _).next fun _ => ?_
  refine (agrees_queryAt _).next fun _ => .ite ?_ ?_
  · refine hg.query.bind fun q hq => (agrees_expectSymbol _).next fun _ => .pure ⟨?_, rfl, rfl⟩
    exact Part.obeys_iff.2 ⟨hr, by simpa [Part.children, Expr.children] using ⟨ht, hq⟩⟩
  · refine (agrees_exprList hg).bind fun es hes => (agrees_expectSymbol _).next fun _ => .pure ⟨?_, rfl, rfl⟩
    refine Part.obeys_iff.2 ⟨⟨hr, hes.1⟩, ?_⟩
    simpa [Part.children, Expr.children, Part.exprs] using ⟨ht, hes.2⟩

theorem matches_betweenTest (negated : Bool) {c c' : Cursor} (hc : c.Alike c') :
    Matches (fun e c => (Part.expr e).AllFormed d ∧
        e.leftEdge = min (leftPower predicateLevel) tested.leftEdge ∧ ∀ k ∈ c.reach, k < e.rightEdge)
      (betweenTest g tested negated c) (betweenTest g' tested negated c') := by
  have hpower : rightPower predicateLevel ≤ castPower := by decide
  refine (agrees_expectKeyword .BETWEEN c c' hc).bind fun _ c₁ c₁' _ h₁ => ?_
  refine (agrees_expr hg hpower c₁ c₁' h₁).bind fun low c₂ c₂' ⟨hlow, hle⟩ h₂ => ?_
  refine (agrees_expectKeyword .AND c₂ c₂' h₂).bind fun _ c₃ c₃' _ h₃ => ?_
  refine (hg.expr _ hpower c₃ c₃' h₃).bind fun high c₄ c₄' ⟨hhigh, hends, hk⟩ h₄ => .ok h₄ ?_
  refine ⟨Part.obeys_iff.2 ⟨⟨hr, hle, hends.left⟩, ?_⟩, rfl, fun k hm => ?_⟩
  · simpa [Part.children, Expr.children] using ⟨ht, hlow, hhigh⟩
  · exact lt_min (hk k hm) (hends.right k hm)

theorem matches_likeTest (negated : Bool) {c c' : Cursor} (hc : c.Alike c') :
    Matches (fun e c => (Part.expr e).AllFormed d ∧
        e.leftEdge = min (leftPower predicateLevel) tested.leftEdge ∧ ∀ k ∈ c.reach, k < e.rightEdge)
      (likeTest g tested negated c) (likeTest g' tested negated c') := by
  refine (agrees_keywordAt 0 .ILIKE c c' hc).bind fun _ c₁ c₁' _ h₁ => ?_
  refine (agrees_advance c₁ c₁' h₁).bind fun _ c₂ c₂' _ h₂ => ?_
  refine (hg.expr _ (by decide) c₂ c₂' h₂).bind fun pattern c₃ c₃' ⟨hpat, hends, hk⟩ h₃ => .ok h₃ ?_
  refine ⟨Part.obeys_iff.2 ⟨⟨hr, hends.left⟩, ?_⟩, rfl, fun k hm => ?_⟩
  · simpa [Part.children, Expr.children] using ⟨ht, hpat⟩
  · exact lt_min (hk k hm) (hends.right k hm)

omit hg ht hr in
theorem closed_reach {e : Expr} (h : e.rightEdge = closedEdge) (c : Cursor) :
    ∀ k ∈ c.reach, k < e.rightEdge :=
  (e.endsAt_of_closed (Nat.zero_le _) h c).right

theorem matches_predicate (negated : Bool) {c c' : Cursor} (hc : c.Alike c') :
    Matches (fun e c => (Part.expr e).AllFormed d ∧
        e.leftEdge = min (leftPower predicateLevel) tested.leftEdge ∧ ∀ k ∈ c.reach, k < e.rightEdge)
      (predicate g tested negated c) (predicate g' tested negated c') := by
  refine (agrees_keywordAt 0 .IN c c' hc).bind fun b c₁ c₁' _ h₁ => ?_
  cases b with
  | true =>
    refine (agrees_membership hg ht hr negated c₁ c₁' h₁).mono fun e c₂ ⟨he, hl, hright⟩ => ?_
    exact ⟨he, hl, closed_reach hright c₂⟩
  | false =>
    refine (agrees_keywordAt 0 .BETWEEN c₁ c₁' h₁).bind fun b c₂ c₂' _ h₂ => ?_
    cases b with
    | true => exact matches_betweenTest hg ht hr negated h₂
    | false => exact matches_likeTest hg ht hr negated h₂

end Predicates

/-! ## The loop -/

omit hg in
theorem formed_ascribe {e : Expr} {type : DataType} (he : (Part.expr e).AllFormed d)
    (hr : castPower < e.rightEdge) (ht : type.FieldsNamed) :
    (Part.expr (ascribe e type)).AllFormed d ∧
      min castPower e.leftEdge ≤ (ascribe e type).leftEdge ∧
      (ascribe e type).rightEdge = closedEdge := by
  unfold ascribe
  split
  · next word arguments fields =>
    obtain ⟨⟨hs, -, hitems⟩, hc⟩ := Part.obeys_iff.1 he
    refine ⟨Part.obeys_iff.2 ⟨⟨hs, ?_, hitems⟩, hc⟩, min_le_left _ _, rfl⟩
    rintro _ ⟨⟩
    exact ht fields rfl
  · refine ⟨Part.obeys_iff.2 ⟨hr, ?_⟩, le_rfl, rfl⟩
    simpa [Part.children, Expr.children] using he

/-- One round of the loop: what was read so far and what goes on with it end at the cursor, or
nothing goes on with it. -/
theorem matches_extend {power : Nat} (hp : power ≤ castPower) {left : Expr}
    (hl : (Part.expr left).AllFormed d) {c c' : Cursor} (he : left.EndsAt power c)
    (hc : c.Alike c') :
    Matches (fun o c => o.elim
        ((Part.expr left).AllFormed d ∧ left.EndsAt power c ∧ ∀ k ∈ c.reach, k < power)
        fun e => (Part.expr e).AllFormed d ∧ e.EndsAt power c)
      (extend g power left c) (extend g' power left c') := by
  have hleft := he.left
  refine Matches.token hc fun kind _ _ _ hkind => ?_
  dsimp only
  -- Where nothing goes on, the cursor has not moved.
  have hnone : (∀ k ∈ c.reach, k < power) → Matches (fun o c => o.elim
        ((Part.expr left).AllFormed d ∧ left.EndsAt power c ∧ ∀ k ∈ c.reach, k < power)
        fun e => (Part.expr e).AllFormed d ∧ e.EndsAt power c)
      ((Pure.pure none : Parse (Option Expr)) c) ((Pure.pure none : Parse (Option Expr)) c') :=
    fun h => .ok hc ⟨hl, he, h⟩
  by_cases hcolon : kind = .symbol .doubleColon
  · rw [if_pos hcolon, if_pos hcolon, if_neg (not_lt.2 hp)]
    have hcast : castPower < left.rightEdge := he.right _ (by rw [Cursor.reach, hkind, hcolon]; rfl)
    refine (agrees_advance c c' hc).bind fun _ c₁ c₁' _ h₁ => ?_
    refine (agrees_dataType c₁ c₁' h₁).bind fun type c₂ c₂' htype h₂ => .ok h₂ ?_
    obtain ⟨h, hedge, hclosed⟩ := formed_ascribe hl hcast htype
    exact ⟨h, Expr.endsAt_of_closed ((le_min hp hleft).trans hedge) hclosed c₂⟩
  rw [if_neg hcolon, if_neg hcolon]
  cases hop : BinaryOp.ofToken? kind with
  | some op =>
    have hreach : c.reach = some (leftPower op.precedence) := by
      rw [Cursor.reach, hkind, reachOf_operator hop]
    dsimp only
    by_cases hlow : leftPower op.precedence < power
    · rw [if_pos hlow, if_pos hlow]
      exact hnone (by simpa [hreach] using hlow)
    · rw [if_neg hlow, if_neg hlow]
      have hpower : rightPower op.precedence ≤ castPower := by
        have := op.precedence_bounds
        simp only [rightPower, castPower, leftPower]
        omega
      refine (agrees_advance c c' hc).bind fun _ c₁ c₁' _ h₁ => ?_
      refine (hg.expr _ hpower c₁ c₁' h₁).bind ?_
      rintro right c₂ c₂' ⟨hright, hends, hk⟩ h₂
      refine .ok h₂ ⟨Part.obeys_iff.2 ⟨⟨he.right _ hreach, hends.left⟩, ?_⟩, ?_, fun k hm => ?_⟩
      · simpa [Part.children, Expr.children] using ⟨hl, hright⟩
      · exact le_min (not_lt.1 hlow) hleft
      · exact lt_min (hk k hm) (hends.right k hm)
  | none =>
    dsimp only
    by_cases hword : (!kind.keyword?.any predicateWords.contains ||
        leftPower predicateLevel < power) = true
    · rw [if_pos hword, if_pos hword]
      refine hnone fun k hk => ?_
      rw [Cursor.reach, hkind] at hk
      obtain ⟨rfl, hw⟩ := reachOf_word hop hcolon k hk
      simpa [hw] using hword
    rw [if_neg hword, if_neg hword]
    obtain ⟨hw, hpower⟩ : kind.keyword?.any predicateWords.contains = true ∧
        power ≤ leftPower predicateLevel := by simpa using hword
    have hedge := le_min hpower hleft
    obtain ⟨k, rfl, hk⟩ : ∃ k, kind = .keyword k ∧ k ∈ predicateWords := by
      cases kind <;> simp [TokenKind.keyword?] at hw ⊢
      exact hw
    have hplain : k ∈ plainWords → leftPower predicateLevel < left.rightEdge := fun h =>
      he.right _ (by rw [Cursor.reach, hkind, reachOf_plainWord h]; rfl)
    by_cases his : k = .IS
    · subst his
      refine (agrees_nullTest hl (hplain (by decide)) c c' hc).bind ?_
      rintro e c₁ c₁' ⟨h, hl', hr⟩ h₁
      exact .ok h₁ ⟨h, e.endsAt_of_closed (by rw [hl']; exact hedge) hr c₁⟩
    have his : TokenKind.keyword k ≠ .keyword .IS := by simpa using his
    rw [if_neg his, if_neg his]
    have hend : ∀ negated c₁ c₁', leftPower predicateLevel < left.rightEdge → c₁.Alike c₁' →
        Matches (fun o c => o.elim
            ((Part.expr left).AllFormed d ∧ left.EndsAt power c ∧ ∀ k ∈ c.reach, k < power)
            fun e => (Part.expr e).AllFormed d ∧ e.EndsAt power c)
          ((predicate g left negated >>= fun e => Pure.pure (some e)) c₁)
          ((predicate g' left negated >>= fun e => Pure.pure (some e)) c₁') := by
      intro negated c₁ c₁' hr h₁
      refine (matches_predicate hg hl hr negated h₁).bind ?_
      rintro e c₂ c₂' ⟨h, hl', hr'⟩ h₂
      exact .ok h₂ ⟨h, by rw [hl']; exact hedge, hr'⟩
    by_cases hnot : k = .NOT
    · subst hnot
      refine (matches_anyKeywordAt 1 negatedWords hc).bind ?_
      rintro b c₁ c₁' ⟨rfl, rfl⟩ h₁
      by_cases hb : (c₁.peek 1).keyword?.any negatedWords.contains = true
      · rw [if_pos hb, if_pos hb]
        have hr : leftPower predicateLevel < left.rightEdge := he.right _ (by
          simp only [Cursor.reach, hkind, reachOf, hb, if_true, Option.mem_def])
        exact (agrees_advance c₁ c₁' h₁).bind fun _ c₂ c₂' _ h₂ => hend true c₂ c₂' hr h₂
      · rw [if_neg hb, if_neg hb]
        refine .ok h₁ ⟨hl, he, fun k hk => ?_⟩
        simp [Cursor.reach, hkind, reachOf, hb] at hk
    · have hne : TokenKind.keyword k ≠ .keyword .NOT := by simpa using hnot
      rw [if_neg hne, if_neg hne]
      refine hend false c c' (hplain ?_) hc
      simp only [predicateWords, plainWords, List.mem_cons, List.not_mem_nil, or_false] at hk ⊢
      tauto

/-- The answer of an expression reader, with what stands behind it. -/
theorem matches_expression {power : Nat} (hp : power ≤ castPower) {c c' : Cursor}
    (hc : c.Alike c') :
    Matches (fun e c => (Part.expr e).AllFormed d ∧ e.EndsAt power c ∧ ∀ k ∈ c.reach, k < power)
      (expression g d power c) (expression g' d power c') :=
  (matches_operand hg hp hc).bind fun _ _ _ he hc₁ =>
    matches_repeatFrom (I := fun e c => (Part.expr e).AllFormed d ∧ e.EndsAt power c)
      (fun _ _ _ h hc₂ => matches_extend hg hp h.1 h.2 hc₂) he hc₁

end Parse

end SqlTree
