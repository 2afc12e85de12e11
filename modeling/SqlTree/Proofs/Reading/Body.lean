import Mathlib
import SqlTree.Proofs.Reading.Block

/-! # Bodies of queries are read back

* `FollowsBody d b r`: what stands ahead in `r` is not taken for a part of the body `b`.
* `climbs_setExtend`: the set operators behind the first operand are read one after another. The
  induction is on the left operands, as for the operators of expressions.
* `takes_setExpr`: a body is read back by readers of everything shorter.
-/

namespace SqlTree
set_option autoImplicit false

open Parse

variable {d : Dialect} {g : Productions} {bound : Nat} {r : Layout}

/-! ## Behind a body -/

/-- What stands ahead is not taken for a part of a body. A set operator there binds no tighter than
those of the body. -/
structure FollowsBody (d : Dialect) (b : SetExpr) (r : Layout) : Prop where
  ends : Ends d b.layout 5 r
  on : b.endsOpen = true → kindAhead d.dq r 0 ≠ .keyword .ON
  level : ∀ op, SetOperator.ofToken? (kindAhead d.dq r 0) = some op → op.level ≤ b.level

theorem SetOperator.ofToken?_keyword (op : SetOperator) :
    SetOperator.ofToken? (.keyword op.keyword) = some op := by
  cases op <;> rfl

theorem SetOperator.level_eq_one {op : SetOperator} : op.level = 1 ↔ op.bindsTighter = true := by
  cases op <;> decide

theorem SetOperator.level_le_one (op : SetOperator) : op.level ≤ 1 := by
  cases op <;> decide

theorem SetExpr.level_eq_two {b : SetExpr} (h : 1 < b.level) (op : SetOperator)
    (quantifier : SetQuantifier) (left right : SetExpr) : b ≠ .combine op quantifier left right := by
  rintro rfl
  have hop := op.level_le_one
  simp only [SetExpr.level, SetOperator.level] at h hop
  omega

section Readers

variable (hg : g.Reads d bound)
include hg

/-! ## Operands -/

theorem takes_setOperand {b : SetExpr} (h : (Part.body b).Obeys (Part.Clear d))
    (hs : b.layout.size ≤ bound) (hb : 1 < b.level) (hr : FollowsBody d b r) :
    Takes d.dq (setOperand g) (b.layout.solid ++ r) b r := by
  obtain ⟨⟨hl, -⟩, hc⟩ := Part.obeys_iff.1 h
  cases b with
  | select block =>
    have hread := takes_select hg (hc (.block block) (by simp [Part.children, SetExpr.children])) hs
      hr.ends hr.on
    obtain ⟨l, hlay⟩ := SetExpr.head_layout (b := .select block) rfl
    rw [SetExpr.layout] at hlay ⊢
    rw [hlay, List.cons_append] at hread ⊢
    refine takes_current (by simp) fun t ht _ => ?_
    simp only [ht, Piece.kind_keyword]
    exact hread.bind (.pure _ r)
  | parens q =>
    simp only [SetExpr.layout, Layout.parens, Layout.size_symbol, Layout.size_append,
      Layout.size_nil] at hs
    have hquery := hg.query q (hc (.query q) (by simp [Part.children, SetExpr.children])) (by omega)
      (.symbol .rightParen :: r) ⟨rfl, by simp⟩
    simp only [SetExpr.layout, Layout.parens, Layout.solid_symbol, Layout.solid_append,
      Layout.solid_nil, List.cons_append, List.append_assoc, List.nil_append]
    refine takes_current (by simp) fun t ht _ => ?_
    simp only [ht, Piece.kind_symbol]
    exact (takes_inParens hquery).bind (.pure _ r)
  | combine op quantifier left right => exact absurd rfl (SetExpr.level_eq_two hb op _ _ _)
  | values rows =>
    have hrows := takes_valueRows hg hl
      (fun row hrow e he => hc (.expr e) (List.mem_map_of_mem (List.mem_flatten_of_mem hrow he))) hs
      (hr.ends.ne_of_not_endsJoins rfl)
    have hlay : ∃ l, (SetExpr.values rows).layout.solid ++ r = .keyword .VALUES :: l := ⟨_, rfl⟩
    obtain ⟨l, hlay⟩ := hlay
    have hlay' : (Layout.valueRows (Expr.rowLayouts rows)).solid ++ r = .keyword .VALUES :: l := hlay
    rw [hlay'] at hrows
    rw [hlay]
    refine takes_current (by simp) fun t ht _ => ?_
    simp only [ht, Piece.kind_keyword]
    exact hrows.bind (.pure _ r)

/-! ## Set operators -/

omit hg in
theorem takes_setQuantifier (quantifier : SetQuantifier)
    (hr : ∀ k ∈ [Keyword.ALL, .DISTINCT], kindAhead d.dq r 0 ≠ .keyword k) :
    Takes d.dq setQuantifier (quantifier.layout.solid ++ r) quantifier r := by
  cases quantifier with
  | none =>
    refine (takes_takeKeyword_no (hr .ALL (by simp))).bind ?_
    exact (takes_takeKeyword_no (hr .DISTINCT (by simp))).bind (.pure _ r)
  | all => exact (takes_takeKeyword_yes _ r).bind (.pure _ r)
  | distinct =>
    refine (takes_takeKeyword_no (by simp [SetQuantifier.layout])).bind ?_
    exact (takes_takeKeyword_yes _ r).bind (.pure _ r)

omit hg in
/-- A body begins with `SELECT`, with `VALUES` or with a parenthesis. -/
theorem SetExpr.kindAhead_ne (b : SetExpr) (r : Layout) {kind : TokenKind}
    (hk : kind ∉ [TokenKind.keyword .SELECT, .keyword .VALUES, .symbol .leftParen]) :
    kindAhead d.dq (b.layout.solid ++ r) 0 ≠ kind := by
  simp only [List.mem_cons, List.not_mem_nil, or_false, not_or] at hk
  cases ho : b.opens with
  | true =>
    obtain ⟨l, hl⟩ := b.head_layout ho
    rw [hl]
    exact Ne.symm hk.1
  | false =>
    obtain ⟨p, l, hl, ⟨rfl, -⟩ | rfl⟩ := b.head_layout_of_not_opens ho
    · rw [hl]
      exact Ne.symm hk.2.2
    · rw [hl]
      exact Ne.symm hk.2.1

omit hg in
/-- Whether columns to leave out stand behind a wildcard is decided by what a body begins with. -/
theorem opensExcept_append {op : SetOperator} {quantifier : SetQuantifier} {b : SetExpr}
    (h : opensExcept d (.keyword op.keyword :: (quantifier.layout.solid ++ b.layout.solid)) = false) :
    opensExcept d (.keyword op.keyword :: (quantifier.layout.solid ++ (b.layout.solid ++ r))) =
      false := by
  cases quantifier with
  | all => simp [opensExcept, SetQuantifier.layout]
  | distinct => simp [opensExcept, SetQuantifier.layout]
  | none =>
    cases ho : b.opens with
    | true =>
      obtain ⟨l, hl⟩ := b.head_layout ho
      simp [opensExcept, SetQuantifier.layout, hl]
    | false =>
      obtain ⟨p, l, hl, ⟨rfl, hne⟩ | rfl⟩ := b.head_layout_of_not_opens ho
      · cases l with
        | nil => contradiction
        | cons q l => simpa [opensExcept, SetQuantifier.layout, hl] using h
      · simp [opensExcept, SetQuantifier.layout, hl]

omit hg in
theorem takes_setExtend_some {admits : SetOperator → Bool} {right : SetOperator → Parse SetExpr}
    {op : SetOperator} (ha : admits op = true) (quantifier : SetQuantifier) (b : SetExpr)
    {b' : SetExpr} (h : Takes d.dq (right op) (b'.layout.solid ++ r) b' r) :
    Takes d.dq (setExtend admits right b)
      (.keyword op.keyword :: (quantifier.layout.solid ++ (b'.layout.solid ++ r)))
      (some (.combine op quantifier b b')) r := by
  refine takes_current (by simp) fun t ht _ => ?_
  simp only [ht, Piece.kind_keyword, SetOperator.ofToken?_keyword, ha]
  refine (takes_advance (by simp) rfl).bind ((takes_setQuantifier quantifier ?_).bind
    (h.bind (.pure _ r)))
  simp only [List.forall_mem_cons]
  exact ⟨b'.kindAhead_ne r (by decide), b'.kindAhead_ne r (by decide), by simp⟩

omit hg in
theorem takes_setExtend_none {admits : SetOperator → Bool} {right : SetOperator → Parse SetExpr}
    (b : SetExpr) (hs : r.head? ≠ some .closingAngle)
    (hr : ∀ op, SetOperator.ofToken? (kindAhead d.dq r 0) = some op → admits op = false) :
    Takes d.dq (setExtend admits right b) r none r := by
  refine takes_current_plain hs fun t ht => ?_
  simp only [ht]
  cases hop : SetOperator.ofToken? (kindAhead d.dq r 0) with
  | none => exact .pure none r
  | some op =>
    simp only [hr op hop]
    exact .pure none r

/-- The set operators behind the first operand of a body are read one after another. -/
theorem climbs_setExtend (admits : SetOperator → Bool) (right : SetOperator → Parse SetExpr)
    (level : Nat) (hadmits : ∀ op : SetOperator, level ≤ op.level → admits op = true)
    (hright : ∀ (op : SetOperator) (b : SetExpr), (Part.body b).Obeys (Part.Clear d) →
      b.layout.size ≤ bound → level ≤ op.level → op.level < b.level →
      ∀ r, FollowsBody d b r →
        (∀ op', SetOperator.ofToken? (kindAhead d.dq r 0) = some op' → op'.level ≤ op.level) →
        Takes d.dq (right op) (b.layout.solid ++ r) b r) :
    ∀ b : SetExpr, (Part.body b).Obeys (Part.Clear d) → b.layout.size ≤ bound → level ≤ b.level →
      ∀ r, FollowsBody d b r → ∃ base l,
        Takes d.dq (setOperand g) (b.layout.solid ++ r) base l ∧
          Climbs d.dq (setExtend admits right) base l b r
  | .combine op quantifier left b, h, hs, hl, r, hr => by
    obtain ⟨⟨⟨hleft, hb, hstar⟩, -⟩, hc⟩ := Part.obeys_iff.1 h
    simp only [Part.children, SetExpr.children, List.forall_mem_cons] at hc
    have hlevel : (SetExpr.combine op quantifier left b).level = op.level := rfl
    rw [hlevel] at hl
    have hlay : (SetExpr.combine op quantifier left b).layout =
        (left.layout ++ [.gap, .keyword op.keyword] ++ quantifier.layout ++ [.gap]) ++ b.layout := by
      simp [SetExpr.layout]
    rw [hlay] at hs
    simp only [Layout.size_append, Layout.size_gap, Layout.size_keyword, Layout.size_nil] at hs
    have hfollows : FollowsBody d b r := by
      obtain ⟨hends, hon, hop⟩ := hr
      rw [hlay] at hends
      exact ⟨hends.suffix, hon, fun op' h' => (hop op' h').trans hb.le⟩
    have hread := hright op b hc.2.1 (by omega) hl hb r hfollows hr.level
    have hstep := takes_setExtend_some (hadmits op hl) quantifier left hread
    have hnext : FollowsBody d left
        (.keyword op.keyword :: (quantifier.layout.solid ++ (b.layout.solid ++ r))) := by
      refine ⟨⟨?_, ?_⟩, fun _ => by cases op <;> simp [SetOperator.keyword], ?_⟩
      · cases op <;> exact ⟨5, rfl, le_rfl⟩
      · exact fun hlast => opensExcept_append (hstar hlast)
      · intro op' h'
        rw [kindAhead_zero, Piece.kind_keyword, SetOperator.ofToken?_keyword] at h'
        cases h'
        exact hleft
    obtain ⟨base, l, h1, h2⟩ := climbs_setExtend admits right level hadmits hright left hc.1 (by omega)
      (hl.trans hleft) _ hnext
    refine ⟨base, l, ?_, h2.next hstep (by simp; omega)⟩
    rw [hlay]
    simpa using h1
  | .select block, h, hs, hl, r, hr => ⟨_, r, takes_setOperand hg h hs (by simp [SetExpr.level]) hr, .refl⟩
  | .parens q, h, hs, hl, r, hr => ⟨_, r, takes_setOperand hg h hs (by simp [SetExpr.level]) hr, .refl⟩
  | .values rows, h, hs, hl, r, hr => ⟨_, r, takes_setOperand hg h hs (by simp [SetExpr.level]) hr, .refl⟩

/-! ## Whole bodies -/

/-- A body with only the tighter operator in it is read back. -/
theorem takes_setTerm {b : SetExpr} (h : (Part.body b).Obeys (Part.Clear d))
    (hs : b.layout.size ≤ bound) (hl : 1 ≤ b.level) (hr : FollowsBody d b r)
    (hop : ∀ op, SetOperator.ofToken? (kindAhead d.dq r 0) = some op → op.level ≤ 0) :
    Takes d.dq (setTerm g) (b.layout.solid ++ r) b r := by
  have hadmits : ∀ op : SetOperator, 1 ≤ op.level → op.bindsTighter = true := fun op hop =>
    SetOperator.level_eq_one.1 (le_antisymm op.level_le_one hop)
  obtain ⟨base, l, h1, h2⟩ := climbs_setExtend hg _ (fun _ => setOperand g) 1 hadmits
    (fun op b h hs hl hb r hr _ => takes_setOperand hg h hs (by omega) hr) b h hs hl r hr
  refine h1.bind (h2.takes (takes_setExtend_none b hr.ends.head fun op h => ?_))
  have hlow := hop op h
  cases op <;> first | rfl | exact absurd hlow (by decide)

/-- A body is read back in front of what goes on with no body. -/
theorem takes_setExpr {b : SetExpr} (h : (Part.body b).Obeys (Part.Clear d))
    (hs : b.layout.size ≤ bound) (hr : Ends d b.layout 6 r)
    (ho : b.endsOpen = true → kindAhead d.dq r 0 ≠ .keyword .ON) :
    Takes d.dq (setExpr g) (b.layout.solid ++ r) b r := by
  have hnone : SetOperator.ofToken? (kindAhead d.dq r 0) = none := by
    cases hop : SetOperator.ofToken? (kindAhead d.dq r 0) with
    | none => rfl
    | some op =>
      have hkind : kindAhead d.dq r 0 = .keyword op.keyword := by
        unfold SetOperator.ofToken? at hop
        split at hop <;> cases hop <;> assumption
      exact absurd hkind (hr.ne (by cases op <;> decide))
  obtain ⟨hrank, hstar⟩ := hr
  have hfollows : FollowsBody d b r :=
    ⟨⟨hrank.imp fun k hk => ⟨hk.1, by omega⟩, hstar⟩, ho, by simp [hnone]⟩
  have hright : ∀ (op : SetOperator) (b : SetExpr), (Part.body b).Obeys (Part.Clear d) →
      b.layout.size ≤ bound → 0 ≤ op.level → op.level < b.level → ∀ r, FollowsBody d b r →
        (∀ op', SetOperator.ofToken? (kindAhead d.dq r 0) = some op' → op'.level ≤ op.level) →
        Takes d.dq (if op.bindsTighter then setOperand g else setTerm g) (b.layout.solid ++ r) b r := by
    intro op b h hs _ hb r hr hop
    cases hx : op.bindsTighter with
    | true =>
      rw [SetOperator.level_eq_one.2 hx] at hb
      exact takes_setOperand hg h hs hb hr
    | false =>
      have h0 : op.level = 0 := by simp [SetOperator.level, hx]
      rw [h0] at hb hop
      exact takes_setTerm hg h hs (by omega) hr hop
  obtain ⟨base, l, h1, h2⟩ := climbs_setExtend hg (fun _ => true) _ 0 (fun _ _ => rfl)
    hright b h hs (Nat.zero_le _) r hfollows
  exact h1.bind (h2.takes (takes_setExtend_none b hfollows.ends.head (by simp [hnone])))

end Readers

end SqlTree
