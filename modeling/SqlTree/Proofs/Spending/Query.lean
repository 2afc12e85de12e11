import Mathlib
import SqlTree.Proofs.Parsing.Query
import SqlTree.Proofs.Spending.From
import SqlTree.Proofs.Spending.Operator

/-! # Queries that are read and what they take

* `Select.Read`, `SetExpr.Read` and the like: what holds of blocks, of bodies and of what stands
  around them, as they are read between two cursors.
* `spends_query`: it holds of queries.
* `read_productions`: it holds of whatever the readers of whole trees answer, in the dialects that
  have no struct values in braces.

A body tells how it begins and how tightly it holds, so that the operands of a set operator are what
the grammar makes of them.
-/

namespace SqlTree
set_option autoImplicit false

open Parse

variable {d : Dialect} {c c' : Cursor}

/-! ## What holds of queries -/

/-- What is written in `l` begins with a parenthesis only if one stands at a cursor, and goes on with
a query if one stands behind that. -/
def Layout.OpensAt (dq : Bool) (l : Layout) (c : Cursor) : Prop :=
  ∀ r, kindAhead dq (l.solid ++ r) 0 = .symbol .leftParen →
    c.peek 0 = .symbol .leftParen ∧ (c.opensQuery 1 = true →
      kindAhead dq (l.solid ++ r) 1 = .keyword .SELECT ∨
        kindAhead dq (l.solid ++ r) 1 = .keyword .WITH)

/-- What holds of a block that is read between two cursors. -/
structure Select.Read (d : Dialect) (s : Select) (c c' : Cursor) : Prop
    extends (Part.block s).Read d c c' where
  sheds : s.layout.Sheds d c'

/-- What holds of a body that is read between two cursors. -/
structure SetExpr.Read (d : Dialect) (b : SetExpr) (c c' : Cursor) : Prop
    extends (Part.body b).Read d c c' where
  sheds : b.layout.Sheds d c'
  opens : c.opensQuery 0 = true → b.opens = true
  begins : b.layout.OpensAt d.dq c

/-- What holds of a named query that is read between two cursors. -/
structure Cte.Read (d : Dialect) (x : Cte) (c c' : Cursor) : Prop
    extends Layout.Taken d x.layout [.query x.query] c c' where
  legal : x.name.Legal d.dq ∧ ∀ i ∈ x.columns, i.Legal d.dq
  word : TokenKind.ofWord? d.dq x.name.text = some (c.peek 0)

/-- What holds of a limit that is read between two cursors. -/
structure Limit.Read (d : Dialect) (l : Limit) (c c' : Cursor) : Prop
    extends Layout.Taken d l.layout l.parts c c' where
  legal : l.Legal d

namespace Layout

theorem OpensAt.append {dq : Bool} {l : Layout} (h : l.OpensAt dq c) (m : Layout) :
    (l ++ m).OpensAt dq c := by
  intro r hr
  rw [solid_append, List.append_assoc] at hr ⊢
  exact h _ hr

theorem opensAt_keyword {dq : Bool} (k : Keyword) (l : Layout) :
    OpensAt dq (.keyword k :: l) c := by
  intro r hr
  cases hr

theorem sheds_commas {α : Type} {lay : α → Layout} {as : List α}
    (h : ∀ a ∈ as.getLast?, (lay a).Sheds d c) : (commas (as.map lay)).Sheds d c := by
  induction as with
  | nil => exact sheds_of_ne (by simp [commas, sepBy])
  | cons a as ih =>
    cases as with
    | nil => simpa [commas, sepBy] using h
    | cons b bs =>
      have hl : commas ((a :: b :: bs).map lay) =
          lay a ++ [.symbol .comma, .gap] ++ commas ((b :: bs).map lay) := rfl
      intro he
      rw [hl] at he
      exact ih (by simpa using h) (getLast?_behind he (by simp [List.getLast?_append]))

end Layout

theorem SetQuantifier.loose_layout (q : SetQuantifier) : q.layout.loose = 0 := by
  cases q <;> simp [SetQuantifier.layout]

theorem OffsetRows.loose_layout (word : OffsetRows) : word.layout.loose = 0 := by
  cases word <;> simp [OffsetRows.layout]

namespace Parse

variable {g : Productions} (hg : g.Read d)
include hg

/-! ## Blocks -/

omit hg in
theorem spends_distinctWord : Spends d.dq c distinctWord fun _ _ => True :=
  .takeKeyword (fun _ _ => .pure trivial) fun _ =>
    .takeKeyword (fun _ _ => .pure trivial) fun _ => .pure trivial

/-- An expression behind a word, with the word. -/
theorem spends_exprClause (k : Keyword) :
    Spends d.dq c (afterKeyword k (g.expr 0)) fun e? c' =>
      Layout.Read d (Layout.optional (fun e => Layout.behind [k] e.layout) e?)
        (Part.exprs e?.toList) c c' := by
  refine (Spends.afterKeyword fun _ h => (hg.expr 0 (Nat.zero_le _) _).mono
    (S := fun e c' => Layout.Read d (Layout.behind [k] e.layout) (Part.exprs [e]) c c')
    fun e c' _ ⟨he, _⟩ => he.taken.clause [k] he.sheds (by simpa using h)).mono fun e? c' _ h => ?_
  cases e? with
  | none =>
    obtain rfl : c' = c := h
    exact Layout.read_nil
  | some e => exact h

theorem spends_groupClause : Spends d.dq c (groupClause g) fun es c' =>
    Layout.Read d (Layout.onlyIf (!es.isEmpty)
      (Layout.behind [.GROUP, .BY] (Layout.commas (es.map Expr.layout)))) (Part.exprs es) c c' := by
  refine .takeKeyword (fun _ h₁ => ?_) fun _ => .pure Layout.read_nil
  refine .expectKeyword fun _ h₂ => (spends_exprList hg).mono fun es c' _ ⟨hne, h⟩ => ?_
  have htaken : (Layout.commas (es.map Expr.layout)).Taken d (Part.exprs es) c.advance.advance c' := by
    refine ⟨h.fine, ?_⟩
    have := h.cost
    rw [Part.costs_eq] at this
    simpa [Function.comp_def] using this
  have hclause := htaken.clause (c := c) [.GROUP, .BY] (Layout.sheds_commas h.sheds) (by
    simp at h₁ h₂ ⊢
    omega)
  simpa [Layout.onlyIf, hne] using hclause

theorem spends_select : Spends d.dq c (select g) fun s c' => s.Read d c c' := by
  refine .expectKeyword fun _ h₁ => spends_distinctWord.bind fun distinct e₀ h₀ _ =>
    (spends_selectItems hg).bind fun items e₁ _ ⟨hne, hi⟩ => (spends_fromClause hg).bind ?_
  rintro ⟨source, joins⟩ e₂ _ hf
  refine (spends_exprClause hg .WHERE).bind fun condition e₃ _ hw => (spends_groupClause hg).bind
    fun groupBy e₄ _ hgr => (spends_exprClause hg .HAVING).bind fun having e₅ _ hh =>
      (spends_exprClause hg .QUALIFY).bind fun qualify e₆ _ hq => .pure ?_
  -- What stands behind the items is read one clause behind the other.
  have hrest := (((hf.toRead.append hw).append hgr).append hh).append hq
  obtain ⟨rest, parts, hl, hp, hrest⟩ : ∃ rest parts,
      (Select.mk distinct items source joins condition groupBy having qualify).layout =
        .keyword .SELECT :: .gap :: Layout.onlyIf distinct [.keyword .DISTINCT, .gap] ++
          Layout.commas (items.map SelectItem.layout) ++ rest ∧
      (Select.mk distinct items source joins condition groupBy having qualify).children =
        SelectItem.parts items ++ parts ∧ Layout.Read d rest parts e₁ e₆ := by
    refine ⟨_, _, ?_, ?_, hrest⟩
    · simp only [Select.layout_eq, Select.fromLayout, List.append_assoc]
    · simp only [Select.children, Select.fromParts, Part.exprs, List.map_append, List.append_assoc]
  refine ⟨.whole (n := (items.map SelectItem.lapse).sum) (fun _ => ?_) ?_ (fun hn => ?_) ?_, ?_⟩
  · exact ⟨⟨hne, hi.legal⟩, hf.alone, hf.legal⟩
  · rw [Part.children, hp, List.forall_mem_append]
    exact ⟨hi.fine, hrest.fine⟩
  · exact SelectItem.faithful_of_lapse hn
  · have hic := hi.cost
    have hrc := hrest.cost
    rw [SelectItem.sum_cost] at hic
    rw [Part.layout, hl, Part.children, hp]
    simp [Function.comp_def] at h₁ ⊢
    omega
  · rw [hl]
    refine Layout.Sheds.append (fun he => ?_) hrest.sheds hrest.none
    refine Layout.sheds_commas hi.sheds (Layout.getLast?_behind he ?_)
    cases distinct <;> simp [Layout.onlyIf]

/-! ## Set operators -/

theorem spends_setOperand : Spends d.dq c (setOperand g) fun b c' => b.Read d c c' ∧ b.level = 2 := by
  refine .intro fun hgen => .current ?_
  have hpeek := hgen.current_kind
  split
  · refine (spends_select hg).bind fun s e _ hs => .pure ⟨⟨?_, ?_, fun _ => rfl, ?_⟩, rfl⟩
    · refine Layout.Taken.part ?_ (fun _ => trivial) trivial
      rw [Part.layout, SetExpr.layout]
      exact hs.taken
    · rw [SetExpr.layout]
      exact hs.sheds
    · rw [SetExpr.layout, Select.layout_eq]
      exact Layout.opensAt_keyword _ _
  · next hk =>
    refine (spends_valueRows hg).bind fun rows e _ hr => .pure ⟨⟨?_, ?_, fun ho => ?_, ?_⟩, rfl⟩
    · refine Layout.Taken.part ?_ (fun _ => hr.ne) trivial
      rw [Part.layout, SetExpr.layout]
      exact hr.toTaken
    · rw [SetExpr.layout, Layout.valueRows, Expr.rowLayouts_eq_map]
      intro he
      refine Layout.sheds_commas (fun row _ => Layout.sheds_of_ne ?_) (Layout.getLast?_behind he (by simp))
      simp [Expr.rowLayout, Layout.parens, List.getLast?_cons]
    · rw [Cursor.opensQuery, ← hpeek, hk] at ho
      cases ho
    · rw [SetExpr.layout]
      exact Layout.opensAt_keyword _ _
  · next hk =>
    refine Spends.bind (Q := fun q c' => (Layout.parens q.layout).Taken d [.query q] c c' ∧
      (c.opensQuery 1 = true → q.opens = true)) ?_ fun q e _ hq =>
        .pure ⟨⟨?_, ?_, fun ho => ?_, ?_⟩, rfl⟩
    · refine .expectSymbol fun _ h₁ => (hg.query _).bind fun q e _ h =>
        .expectSymbol fun _ h₂ => .pure ⟨⟨h.1.taken.fine, ?_⟩, fun ho => h.2 ?_⟩
      · have := h.1.taken.cost
        simp [Part.layout] at this ⊢
        omega
      · simpa [Cursor.opensQuery] using ho
    · refine Layout.Taken.part ?_ (fun _ => trivial) trivial
      rw [Part.layout, SetExpr.layout]
      exact hq.1
    · refine Layout.sheds_of_ne ?_
      simp [SetExpr.layout, Layout.parens, List.getLast?_cons]
    · rw [Cursor.opensQuery, ← hpeek, hk] at ho
      cases ho
    · refine fun r _ => ⟨hpeek ▸ hk, fun ho => ?_⟩
      obtain ⟨k, l, hl, hm⟩ := q.head_layout (hq.2 ho) (.symbol .rightParen :: r)
      have hsolid : (SetExpr.parens q).layout.solid ++ r =
          .symbol .leftParen :: (q.layout.solid ++ .symbol .rightParen :: r) := by
        simp [SetExpr.layout, Layout.parens]
      rw [hsolid, hl]
      simpa [Piece.kind] using hm
  · exact .fail _

omit hg in
theorem spends_setQuantifier : Spends d.dq c setQuantifier fun q c' => q = .none → c' = c :=
  .takeKeyword (fun _ _ => .pure (by simp)) fun _ =>
    .takeKeyword (fun _ _ => .pure (by simp)) fun _ => .pure fun _ => rfl

omit hg in
/-- No columns to leave out stand behind the left operand of a set operator. -/
theorem opensExcept_combine {op : SetOperator} {quantifier : SetQuantifier} {right : SetExpr}
    {e : Cursor} (hop : c.peek 0 = .keyword op.keyword) (hc : c.opensExcept d = false)
    (hq : quantifier = .none → e = c.advance) (hr : right.layout.OpensAt d.dq e) :
    opensExcept d (.keyword op.keyword :: (quantifier.layout.solid ++ right.layout.solid)) = false := by
  by_contra hx
  simp only [opensExcept, Bool.not_eq_false, Bool.and_eq_true, beq_iff_eq, kindAhead_zero,
    kindAhead_succ, Piece.kind] at hx
  obtain ⟨⟨⟨hd, hexcept⟩, hparen⟩, hquery⟩ := hx
  cases quantifier with
  | all => cases hparen
  | distinct => cases hparen
  | none =>
    obtain rfl := hq rfl
    simp only [SetQuantifier.layout, Layout.solid_nil, List.nil_append] at hparen hquery
    obtain ⟨hp, ho⟩ := hr [] (by rwa [List.append_nil])
    rw [Cursor.peek_advance] at hp
    rw [List.append_nil] at ho
    have hopens : c.opensQuery 2 = true := by
      rw [hexcept] at hop
      simpa [Cursor.opensExcept, hd, hop, hp] using hc
    rcases ho (by simpa [Cursor.opensQuery] using hopens) with h | h <;> simp [h] at hquery

omit hg in
/-- A set operator that is let pass, with its right operand. Where nothing goes on, no such operator
stands ahead. -/
theorem spends_setExtend {admits : SetOperator → Bool} {right : SetOperator → Parse SetExpr}
    {Q : SetOperator → Cursor → Prop} {left : SetExpr} {b : Cursor} (hl : left.Read d b c)
    (hlevel : ∀ op, admits op = true → c.peek 0 = .keyword op.keyword → op.level ≤ left.level)
    (hright : ∀ op, admits op = true → ∀ e, Spends d.dq e (right op) fun r c' =>
      r.Read d e c' ∧ op.level < r.level ∧ Q op c') :
    Spends d.dq c (setExtend admits right left) fun o c' =>
      o.elim (left.Read d b c' ∧ ∀ op, c'.peek 0 = .keyword op.keyword → admits op = false)
        fun whole => whole.Read d b c' ∧
          ∃ op, admits op = true ∧ whole.level = op.level ∧ Q op c' := by
  have hword : ∀ op : SetOperator, SetOperator.ofToken? (.keyword op.keyword) = some op := by
    intro op
    cases op <;> rfl
  refine .intro fun hgen => .current ?_
  rw [hgen.current_kind]
  split
  · next hnone =>
    refine .pure ⟨hl, fun op hop => ?_⟩
    rw [hop, hword] at hnone
    cases hnone
  · next op hop =>
    have hk : c.peek 0 = .keyword op.keyword := by
      unfold SetOperator.ofToken? at hop
      split at hop <;> cases hop <;> assumption
    refine .ite (fun ha => .advanceKeyword hk fun h₁ => spends_setQuantifier.bind
      fun quantifier e₁ h₂ hq => (hright op ha e₁).bind fun r e₂ _ ⟨hr, hrl, hQ⟩ => .pure ?_)
      fun ha => .pure ⟨hl, fun op' hop' => ?_⟩
    · refine ⟨⟨?_, ?_, hl.opens, ?_⟩, op, ha, rfl, hQ⟩
      · refine Layout.Taken.part ⟨?_, ?_⟩ (fun _ => ⟨hlevel op ha hk, hrl, fun hstar => ?_⟩) trivial
        · simpa [Part.children, SetExpr.children] using ⟨hl.fine, hr.fine⟩
        · have h₃ := hl.taken.cost
          have h₄ := hr.taken.cost
          simp [Part.layout, SetExpr.layout, Part.children, SetExpr.children,
            quantifier.loose_layout] at h₁ h₃ h₄ ⊢
          omega
        · exact opensExcept_combine hk (hl.sheds hstar) hq hr.begins
      · intro he
        rw [SetExpr.layout, List.append_cons] at he
        refine hr.sheds (Layout.getLast?_behind he ?_)
        simp [List.getLast?_append, List.getLast?_cons]
      · simp only [SetExpr.layout, List.append_assoc]
        exact hl.begins.append _
    · obtain rfl : op' = op := by
        rw [hop', hword] at hop
        exact Option.some.inj hop
      simpa using ha

theorem spends_setTerm : Spends d.dq c (setTerm g) fun b c' =>
    b.Read d c c' ∧ 1 ≤ b.level ∧ c'.peek 0 ≠ .keyword .INTERSECT := by
  refine (spends_setOperand hg).bind fun b e _ ⟨hb, hlevel⟩ =>
    .repeatFrom (I := fun b e => b.Read d c e ∧ 1 ≤ b.level) ⟨hb, by omega⟩ fun left e _ ⟨hl, hone⟩ => ?_
  refine (spends_setExtend (Q := fun _ _ => True) hl (fun op _ _ => ?_) fun op _ e => ?_).mono
    fun o e' _ ho => ?_
  · cases op <;> simp [SetOperator.level, SetOperator.bindsTighter, hone]
  · refine (spends_setOperand hg).mono fun r c' _ ⟨hr, hrl⟩ => ⟨hr, ?_, trivial⟩
    cases op <;> simp [SetOperator.level, SetOperator.bindsTighter, hrl]
  · cases o with
    | none => exact ⟨ho.1, hone, fun hk => by simpa [SetOperator.bindsTighter] using ho.2 .intersect hk⟩
    | some whole =>
      obtain ⟨hw, op, ha, hwl, -⟩ := ho
      refine ⟨hw, ?_⟩
      rw [hwl, SetOperator.level, if_pos ha]

/-- Where a looser operator is outermost, no tighter one stands ahead. -/
theorem spends_setExpr : Spends d.dq c (setExpr g) fun b c' => b.Read d c c' := by
  refine (spends_setOperand hg).bind fun b e _ ⟨hb, hlevel⟩ =>
    .repeatFrom (I := fun b e => b.Read d c e ∧ (b.level = 0 → e.peek 0 ≠ .keyword .INTERSECT))
      ⟨hb, by omega⟩ fun left e _ ⟨hl, htight⟩ => ?_
  refine (spends_setExtend (Q := fun op e => op.bindsTighter = false → e.peek 0 ≠ .keyword .INTERSECT)
    hl (fun op _ hk => ?_) fun op _ e => ?_).mono fun o e' _ ho => ?_
  · cases op with
    | intersect => exact Nat.one_le_iff_ne_zero.2 fun h => htight h hk
    | _ => exact Nat.zero_le _
  · cases op with
    | intersect =>
      exact (spends_setOperand hg).mono fun r c' _ ⟨hr, hrl⟩ => ⟨hr, by rw [hrl]; decide, nofun⟩
    | _ => exact (spends_setTerm hg).mono fun r c' _ ⟨hr, hrl, hk⟩ => ⟨hr, hrl, fun _ => hk⟩
  · cases o with
    | none => exact ho.1
    | some whole =>
      obtain ⟨hw, op, -, hwl, hQ⟩ := ho
      refine ⟨hw, fun h => hQ ?_⟩
      rw [hwl, SetOperator.level] at h
      simpa using h

/-! ## Around the body -/

theorem spends_cte : Spends d.dq c (cte g) fun x c' => x.Read d c c' := by
  refine spends_identifier.bind fun name e₁ _ hn => spends_optionalIdentifiers.bind
    fun columns e₂ _ hc => .expectKeyword fun _ h₁ => Spends.bind (Q := fun q c' =>
      (Part.query q).Read d e₂ c') ?_ fun q e₃ _ hq => .pure ⟨⟨hq.taken.fine, ?_⟩, ⟨hn.legal, hc.legal⟩, hn.word⟩
  · refine .expectSymbol fun _ h₂ => (hg.query _).bind fun q e _ ⟨h, _⟩ => .expectSymbol fun _ h₃ =>
      .pure ⟨h.fine, ?_⟩
    have := h.cost
    omega
  · have h₂ := hn.cost
    have h₃ := hc.cost
    have h₄ := hq.taken.cost
    by_cases hne : columns = []
    · subst hne
      simp [Cte.layout, Part.layout, Layout.onlyIf] at h₂ h₄ ⊢
      omega
    · simp [Cte.layout, Part.layout, hne] at h₂ h₄ ⊢
      omega

theorem spends_withClause : Spends d.dq c (withClause g) fun w c' =>
    w.layout.Taken d (w.ctes.map fun x => .query x.query) c c' ∧ w.Legal d.dq := by
  have hbehind : ∀ (recursive : Bool) (e : Cursor), e.loose ≤ c.loose →
      (recursive = false → e.peek 0 ≠ .keyword .RECURSIVE) →
      Spends d.dq e (do return ({ recursive, ctes := ← commaList (cte g) } : With)) fun w c' =>
        w.layout.Taken d (w.ctes.map fun x => .query x.query) c c' ∧ w.Legal d.dq := by
    intro recursive e he hr
    refine (Spends.commaList fun _ _ => spends_cte hg).bind fun ctes e' _ h => .pure ?_
    have htaken := h.taken Cte.layout (fun x => [.query x.query])
      fun _ _ _ hx => hx.toTaken
    rw [← List.map_eq_flatMap] at htaken
    refine ⟨⟨htaken.fine, ?_⟩, h.ne, fun x hx => ?_, fun hrec x hx hw => ?_⟩
    · have := htaken.cost
      cases recursive <;> simp [With.layout, Cte.layouts_eq_map] at this ⊢ <;> omega
    · obtain ⟨_, _, h⟩ := h.all x hx
      exact h.legal
    · obtain ⟨_, h⟩ := h.first x hx
      exact hr hrec (Option.some.inj (h.word.symm.trans hw))
  refine .expectKeyword fun _ h₁ => .takeKeyword (fun _ h₂ => ?_) fun hr => ?_
  · exact hbehind true _ (by omega) (by simp)
  · exact hbehind false _ (by omega) fun _ => hr

theorem spends_orderItem : Spends d.dq c (orderItem g) fun o c' =>
    o.layout.Taken d [.expr o.expr] c c' := by
  have hdirection : ∀ e, Spends d.dq e orderDirection fun direction e' =>
      (OrderDirection.layoutAfter direction).Taken d [] e e' := by
    intro e
    refine .takeKeyword (fun _ h => .pure ⟨by simp, ?_⟩) fun _ =>
      .takeKeyword (fun _ h => .pure ⟨by simp, ?_⟩) fun _ => .pure Layout.taken_nil
    all_goals simpa [OrderDirection.layoutAfter, OrderDirection.keyword] using h
  have hnulls : ∀ e, Spends d.dq e nullOrdering fun nulls e' =>
      (NullOrdering.layoutAfter nulls).Taken d [] e e' := by
    intro e
    refine .takeKeyword (fun _ h => .takeKeyword (fun _ h' => .pure ⟨by simp, ?_⟩) fun _ =>
      .expectKeyword fun _ h' => .pure ⟨by simp, ?_⟩) fun _ => .pure Layout.taken_nil
    all_goals
      simp [NullOrdering.layoutAfter, NullOrdering.keywords] at h h' ⊢
      omega
  refine (hg.expr 0 (Nat.zero_le _) c).bind fun e e₁ _ ⟨he, _⟩ => (hdirection e₁).bind
    fun direction e₂ _ hd => (hnulls e₂).bind fun nulls e₃ _ hn => .pure ?_
  rw [OrderItem.layout_eq]
  exact (he.taken.append hd).append hn

theorem spends_orderClause : Spends d.dq c (orderClause g) fun os c' =>
    (Layout.onlyIf (!os.isEmpty) (Layout.behind [.ORDER, .BY]
      (Layout.commas (os.map OrderItem.layout)))).Taken d (os.map fun o => .expr o.expr) c c' := by
  refine .takeKeyword (fun _ h₁ => .expectKeyword fun _ h₂ =>
    (Spends.commaList fun _ _ => spends_orderItem hg).mono fun os c' _ h => ?_)
    fun _ => .pure Layout.taken_nil
  have htaken := h.taken OrderItem.layout (fun o => [.expr o.expr])
    fun _ _ _ ho => ho
  rw [← List.map_eq_flatMap] at htaken
  have hclause := htaken.behind (c := c) [.ORDER, .BY] (by
    simp at h₁ h₂ ⊢
    omega)
  simpa [Layout.onlyIf, h.ne] using hclause

/-! ## Limits -/

/-- What a limit says, in front of its groups. -/
theorem spends_limitCount : Spends d.dq c (limitCount g) fun l c' =>
    l.groups = none ∧ l.Legal d ∧ l.count.Taken d l.parts c c' := by
  refine .takeKeyword (fun _ h => .pure ⟨rfl, ⟨.inl (by simp), by simp⟩, ⟨by simp [Limit.parts, Part.exprs], ?_⟩⟩)
    fun hnull => .takeKeyword (fun _ h => .pure ⟨rfl, ⟨.inr (.inl (by simp)), by simp⟩,
      ⟨by simp [Limit.parts, Part.exprs], ?_⟩⟩) fun _ => ?_
  · simpa [Limit.count, Limit.parts, Part.exprs] using h
  · simpa [Limit.count, Limit.parts, Part.exprs] using h
  refine (hg.expr 0 (Nat.zero_le _) c).bind fun first e₁ _ hfirst =>
    (Spends.afterComma (R := Expr.Read d) fun e _ =>
      (hg.expr 0 (Nat.zero_le _) e).mono fun _ _ _ h => h.1).bind fun o e₂ _ ho => ?_
  obtain ⟨hf, -⟩ := hfirst
  -- The first expression does not begin with `NULL`, for that was not there.
  have hbegins : kindAhead d.dq first.layout.solid 0 ≠ .keyword .NULL := by
    intro hk
    exact hnull (hf.begins [] (by rwa [List.append_nil]))
  cases o with
  | none =>
    obtain rfl : e₂ = e₁ := ho
    refine .pure ⟨rfl, ⟨.inr (.inr ⟨rfl, rfl, first, rfl, hbegins⟩), by simp⟩, ?_⟩
    simpa [Limit.count, Limit.parts, Part.exprs, Part.layout] using hf.taken
  | some count =>
    obtain ⟨e, he, hc⟩ := ho
    refine .pure ⟨rfl, ⟨.inr (.inr ⟨rfl, rfl, count, rfl, hbegins⟩), by simp⟩, ?_⟩
    have hboth := hf.taken.append (hc.toRead.behind he).taken
    refine ⟨?_, ?_⟩
    · simpa [Limit.parts, Part.exprs] using hboth.fine
    · simpa [Limit.count, Limit.parts, Part.exprs, Part.layout] using hboth.cost

theorem spends_limit : Spends d.dq c (limit g d) fun l c' => l.Read d c c' := by
  refine .expectKeyword fun _ h₁ => (spends_limitCount hg).bind fun l e _ h => ?_
  obtain ⟨hn, hl, ht⟩ := h
  obtain ⟨rowCount, offset, all, null, groups⟩ := l
  obtain rfl : groups = none := hn
  have hend : ∀ (gs : Option (List Expr)) (e' : Cursor),
      (∀ es ∈ gs, d.limitBy = true ∧ es ≠ []) →
      (Layout.optional (fun es => Layout.behind [.BY] (Layout.commas (es.map Expr.layout)))
        gs).Taken d (Part.exprs (gs.getD [])) e e' →
      Limit.Read d ⟨rowCount, offset, all, null, gs⟩ c e' := by
    intro gs e' hgs ht'
    refine ⟨?_, hl.1, hgs⟩
    have hcount : null = true ∨ all = true ∨ rowCount ≠ none := by
      rcases hl.1 with h | h | ⟨-, -, count, h, -⟩
      · exact .inl h.1
      · exact .inr (.inl h.2.1)
      · exact .inr (.inr (by simp only at h; simp [h]))
    rw [Limit.layout_eq hcount]
    have hboth := (ht.behind (c := c) [.LIMIT] (by simpa using h₁)).append ht'
    simpa [Limit.parts, Part.exprs, Limit.count] using hboth
  by_cases hd : d.limitBy = true
  · simp only [hd, if_true]
    refine Spends.bind (Spends.afterKeyword fun _ h => (spends_exprList hg).mono
      (S := fun es c' => es ≠ [] ∧ (Layout.behind [.BY]
        (Layout.commas (es.map Expr.layout))).Taken d (Part.exprs es) e c')
      fun es c' _ hes => ⟨hes.1, Layout.Taken.behind [.BY] ⟨hes.2.fine, ?_⟩ (by simpa using h)⟩)
      fun gs e' _ hgs => .pure (hend gs e' ?_ ?_)
    · have := hes.2.cost
      rw [Part.costs_eq] at this
      simpa [Function.comp_def] using this
    · rintro es rfl
      exact ⟨hd, hgs.1⟩
    · cases gs with
      | none =>
        obtain rfl : e' = e := hgs
        exact Layout.taken_nil
      | some es => exact hgs.2
  · simp only [hd]
    exact .pure (hend none e (by simp) Layout.taken_nil)

theorem spends_limits : Spends d.dq c (limits g d) fun x c' =>
    (Layout.optional Limit.layout x.1 ++ Layout.optional Limit.layout x.2).Taken d
      (x.1.elim [] Limit.parts ++ x.2.elim [] Limit.parts) c c' ∧
    (∀ l ∈ x.1, l.Legal d ∧ l.groups ≠ none) ∧
    ∀ l ∈ x.2, l.Legal d ∧ (x.1 = none → l.groups = none) := by
  refine (spends_limit hg).ifKeyword.bind fun o e _ ho => ?_
  cases o with
  | none =>
    obtain rfl : e = c := ho
    exact .pure ⟨Layout.taken_nil, by simp, by simp⟩
  | some first =>
    replace ho : first.Read d c e := ho
    cases hgr : first.groups with
    | none =>
      simp only [hgr, Option.isSome_none]
      exact .pure ⟨ho.toTaken, by simp, by simpa [hgr] using ho.legal⟩
    | some es =>
      simp only [hgr, Option.isSome_some, if_true]
      refine (spends_limit hg).ifKeyword.bind fun o e' _ ho' => .pure ⟨?_, ?_, ?_⟩
      · cases o with
        | none =>
          obtain rfl : e' = e := ho'
          exact ho.toTaken.append Layout.taken_nil
        | some second => exact ho.toTaken.append ho'.toTaken
      · simpa [hgr] using ho.legal
      · rintro second rfl
        exact ⟨ho'.legal, by simp⟩

theorem spends_offsetCount : Spends d.dq c (offsetCount g) fun o c' =>
    (o.count.layout ++ o.rows.layout).Taken d [.expr o.count] c c' := by
  have hrows : ∀ e, Spends d.dq e offsetRows fun _ _ => True := fun _ =>
    .takeKeyword (fun _ _ => .pure trivial) fun _ =>
      .takeKeyword (fun _ _ => .pure trivial) fun _ => .pure trivial
  refine (hg.expr 0 (Nat.zero_le _) c).bind fun count e₁ _ ⟨hc, _⟩ => (hrows e₁).bind
    fun word e₂ he _ => .pure (hc.taken.append (.bare ?_))
  simpa [word.loose_layout] using he

/-- A query begins as its body does, unless it has named queries. -/
theorem spends_query : Spends d.dq c (query g d) fun q c' =>
    (Part.query q).Read d c c' ∧ (c.opensQuery 0 = true → q.opens = true) := by
  refine (spends_withClause hg).ifKeyword.bind fun ctes e₁ _ hw => (spends_setExpr hg).bind
    fun body e₂ _ hb => (spends_orderClause hg).bind fun orderBy e₃ _ ho => (spends_limits hg).bind ?_
  rintro ⟨limitBy, limit⟩ e₄ _ ⟨hl, hby, hlimit⟩
  refine Spends.bind (Spends.afterKeyword fun _ h => (spends_offsetCount hg).mono
    (S := fun o c' => o.layout.Taken d [.expr o.count] e₄ c') fun o c' _ hoc => ?_)
    fun offset e₅ _ hoff => .pure ⟨?_, fun hq => ?_⟩
  · obtain ⟨count, word⟩ := o
    rw [Offset.layout]
    exact hoc.behind [.OFFSET] (by simpa using h)
  · have hwith : (Layout.optional With.layout ctes).Taken d
        (ctes.elim [] fun w => w.ctes.map fun x => .query x.query) c e₁ := by
      cases ctes with
      | none =>
        obtain rfl : e₁ = c := hw
        exact Layout.taken_nil
      | some w => exact hw.1
    have hoffset : (Layout.optional Offset.layout offset).Taken d
        (offset.elim [] fun o => [.expr o.count]) e₄ e₅ := by
      cases offset with
      | none =>
        obtain rfl : e₅ = e₄ := hoff
        exact Layout.taken_nil
      | some o => exact hoff
    have hall := (((hwith.append hb.taken).append ho).append hl).append hoffset
    refine Layout.Taken.part ?_ (fun _ => ⟨?_, hby, hlimit⟩) trivial
    · rw [Part.layout, Query.layout_eq, Part.children, Query.children]
      simpa only [List.append_assoc, Part.layout] using hall
    · rintro w rfl
      exact hw.2
  · cases ctes with
    | some w => rfl
    | none =>
      obtain rfl : e₁ = c := hw
      exact hb.opens hq

/-! ## Whole trees -/

omit hg in
/-- What the readers of whole trees answer. The form of the answers tells how far an expression
reaches. -/
theorem read_productions (hd : d.structStyle = .bigQuery) : ∀ l : List Token,
    (productions d l).Read d := by
  have hlevel : ∀ {g : Productions}, g.Read d → (level d g).Agree d (level d g) →
      (level d g).Read d := by
    refine fun hg hagree => ⟨fun power hp c => ?_, fun _ => spends_query hg,
      fun _ => spends_fromItem hg⟩
    intro hc e c' he
    obtain ⟨hc', hle, hread⟩ := spends_expression hg hd power hc e c' he
    obtain ⟨⟨-, hends, -⟩, -⟩ := hagree.expr power hp c c (.refl c) e c' he
    exact ⟨hc', hle, hread, hends.right⟩
  intro l
  induction l with
  | nil => exact hlevel Productions.read_exhausted (agree_productions d [] [] le_rfl)
  | cons t l ih => exact hlevel ih (agree_productions d (t :: l) (t :: l) le_rfl)

end Parse

end SqlTree
