import Mathlib
import SqlTree.Proofs.Reading.Head

/-! # Expressions without operators are read back

One lemma `takes_…` for each reader of `Query.Grammar.Expr` up to `primary`, given readers `g` of
everything that is shorter than `bound`.
-/

namespace SqlTree
set_option autoImplicit false

open Parse

variable {d : Dialect} {g : Productions} {bound : Nat} {r : Layout}

/-! ## Whole expressions and lists of them -/

theorem Expr.clear_iff {e : Expr} : e.Clear d ↔
    (e.Legal d ∧ e.Faithful d.dq) ∧ ∀ c ∈ e.children, c.Obeys (Part.Clear d) :=
  Part.obeys_iff

theorem takes_queryAt_no {e : Expr} (h : e.Clear d) :
    Takes d.dq (queryAt 0) (e.layout.solid ++ r) false (e.layout.solid ++ r) := by
  refine takes_anyKeywordAt_no ?_ (by simp)
  simp only [List.forall_mem_cons]
  exact ⟨e.kindAhead_ne h r rfl, e.kindAhead_ne h r rfl, by simp⟩

theorem takes_queryAt_yes {q : Query} (h : q.opens = true) :
    Takes d.dq (queryAt 0) (q.layout.solid ++ r) true (q.layout.solid ++ r) := by
  obtain ⟨k, l, hl, hk⟩ := q.head_layout h r
  rw [hl]
  exact takes_anyKeywordAt_yes rfl hk (by simp)

section Readers

variable (hg : g.Reads d bound)
include hg

theorem takes_expr {e : Expr} (h : e.Clear d) (hs : e.layout.size < bound)
    (hr : Breaks d e.layout r) : Takes d.dq (g.expr 0) (e.layout.solid ++ r) e r :=
  hg.expr e 0 h hs (Nat.zero_le _) r hr.follows (by simp [hr.reach_eq])

theorem takes_exprList {es : List Expr} (hne : es ≠ []) (h : ∀ e ∈ es, e.Clear d)
    (hs : (Layout.commas (es.map Expr.layout)).size < bound)
    (hr : Breaks d (Layout.commas (es.map Expr.layout)) r)
    (hc : kindAhead d.dq r 0 ≠ .symbol .comma) :
    Takes d.dq (exprList g) ((Layout.commas (es.map Expr.layout)).solid ++ r) es r := by
  refine takes_commaList hc hne fun e he r' hr' => takes_expr hg (h e he) ?_ ?_
  · exact (size_of_mem_commas (List.mem_map_of_mem he)).trans_lt hs
  · rcases hr' with ⟨hl, rfl⟩ | ⟨l, rfl⟩
    · obtain ⟨l, hl⟩ := commas_of_getLast? (f := Expr.layout) hl
      rw [hl] at hr
      exact hr.suffix
    · exact .inl rfl

/-! ## Items -/

omit hg in
/-- A bare alias or the word in front of one is not taken for a part of the expression. -/
theorem follows_alias {i : SelectItem} {a : Alias} (ha : i.alias? = some a) (hl : a.Legal d.dq)
    (hc : a.columns = []) (hf : i.Faithful) (hr : kindAhead d.dq r 0 ≠ .symbol .leftParen) :
    Follows d i.expr ((Alias.layoutAfter (some a)).solid ++ r) ∧
      reach d.dq ((Alias.layoutAfter (some a)).solid ++ r) = none := by
  obtain ⟨name, withAs, columns⟩ := a
  obtain rfl : columns = [] := hc
  cases withAs with
  | true =>
    have hb : Breaks d i.expr.layout
        ((Alias.layoutAfter (some ⟨name, true, []⟩)).solid ++ r) := .inl rfl
    exact ⟨hb.follows, hb.reach_eq⟩
  | false =>
    have hlay : (Alias.layoutAfter (some ⟨name, false, []⟩)).solid ++ r = .word name.text :: r := rfl
    rw [hlay]
    obtain ⟨kind, hw, hk⟩ := hl.1
    have h0 : kindAhead d.dq (.word name.text :: r) 0 = kind := Piece.kind_word hw
    have hreach : reach d.dq (.word name.text :: r) = none := by
      unfold reach reachOf
      rw [h0]
      rcases hk with rfl | ⟨k, rfl, hk, -⟩
      · rfl
      · cases k <;> first | rfl | exact absurd hk (by decide)
    refine ⟨⟨by simp [hreach], ?_, by simp, ?_, ?_, ?_⟩, hreach⟩
    · rw [h0]
      rcases hk with rfl | ⟨k, rfl, -, -⟩ <;> simp
    · intro hd
      rw [h0]
      rcases hk with rfl | ⟨k, rfl, -, -⟩
      · exact hf hd _ ha rfl
      · rfl
    · intro _
      refine opensExcept_of_ne ?_
      rw [h0]
      rcases hk with rfl | ⟨k, rfl, hk, -⟩
      · simp
      · rintro he
        cases he
        exact absurd hk (by decide)
    · rintro ⟨-, hp⟩
      exact hr hp

theorem takes_selectItem {i : SelectItem} (h : i.expr.Clear d) (hl : i.Legal d.dq) (hf : i.Faithful)
    (hs : i.layout.size < bound) (hr : Breaks d i.layout r)
    (hn : startsName (kindAhead d.dq r 0) = false) (ha : kindAhead d.dq r 0 ≠ .keyword .AS) :
    Takes d.dq (selectItem g) (i.layout.solid ++ r) i r := by
  have hp : kindAhead d.dq r 0 ≠ .symbol .leftParen := hr.ne rfl (by simp)
  obtain ⟨expr, alias?⟩ := i
  have hlay : (SelectItem.layout ⟨expr, alias?⟩).solid ++ r =
      expr.layout.solid ++ ((Alias.layoutAfter alias?).solid ++ r) := by
    simp [SelectItem.layout]
  have hs' : expr.layout.size < bound := by
    simp only [SelectItem.layout, Layout.size_append] at hs
    omega
  rw [hlay]
  have hx : Takes d.dq (g.expr 0) (expr.layout.solid ++ ((Alias.layoutAfter alias?).solid ++ r)) expr
      ((Alias.layoutAfter alias?).solid ++ r) := by
    cases alias? with
    | none =>
      rw [SelectItem.layout, Alias.layoutAfter, List.append_nil] at hr
      exact takes_expr hg h hs' hr
    | some a =>
      obtain ⟨hal, hac⟩ := hl.2 a rfl
      obtain ⟨hfo, hre⟩ := follows_alias rfl hal hac hf hp
      exact hg.expr expr 0 h hs' (Nat.zero_le _) _ hfo (by simp [hre])
  refine hx.bind ?_
  by_cases hw : expr.isWildcard = true
  · have hnone : alias? = none := hl.1 hw
    subst hnone
    rw [if_pos hw]
    exact .pure _ r
  · rw [if_neg hw]
    exact (takes_optionalAlias hl.2 fun _ => ⟨ha, hn⟩).bind (.pure _ r)

theorem takes_selectItems {items : List SelectItem} (hl : SelectItem.LegalList d.dq items)
    (h : ∀ i ∈ items, i.expr.Clear d) (hf : ∀ i ∈ items, i.Faithful)
    (hs : (Layout.commas (items.map SelectItem.layout)).size < bound)
    (hr : Breaks d (Layout.commas (items.map SelectItem.layout)) r)
    (hn : startsName (kindAhead d.dq r 0) = false) (ha : kindAhead d.dq r 0 ≠ .keyword .AS)
    (hc : kindAhead d.dq r 0 ≠ .symbol .comma) :
    Takes d.dq (selectItems g) ((Layout.commas (items.map SelectItem.layout)).solid ++ r) items
      r := by
  refine takes_commaList hc hl.1 fun i hi r' hr' => ?_
  have hs' := (size_of_mem_commas (List.mem_map_of_mem hi)).trans_lt hs
  rcases hr' with ⟨hlast, rfl⟩ | ⟨l, rfl⟩
  · obtain ⟨l, hlast⟩ := commas_of_getLast? (f := SelectItem.layout) hlast
    rw [hlast] at hr
    exact takes_selectItem hg (h i hi) (hl.2 i hi) (hf i hi) hs' hr.suffix hn ha
  · exact takes_selectItem hg (h i hi) (hl.2 i hi) (hf i hi) hs' (.inl rfl) rfl (by simp)

/-! ## Calls -/

theorem takes_argument {e : Expr} (h : e.Clear d) (hs : e.layout.size < bound)
    (hr : Breaks d e.layout r) : Takes d.dq (argument g) (e.layout.solid ++ r) e r :=
  (takes_queryAt_no h).bind (takes_expr hg h hs hr)

theorem takes_functionCall {c : FunctionCall} (h : ∀ e ∈ c.arguments, e.Clear d)
    (hs : c.layout.size ≤ bound) :
    Takes d.dq (functionCall g c.name)
      ((Layout.parens (Layout.onlyIf c.distinct [.keyword .DISTINCT, .gap] ++
        Layout.commas (Expr.layouts c.arguments))).solid ++ r) c r := by
  obtain ⟨name, distinct, arguments⟩ := c
  simp only [FunctionCall.layout, Expr.layouts_eq_map] at hs h ⊢
  have hs' : (Layout.commas (arguments.map Expr.layout)).size < bound := by
    simp only [Layout.parens, Layout.size_append, Layout.size_symbol, Layout.size_nil] at hs
    omega
  have hargs : Takes d.dq
      (do
        let arguments ← if ← symbolAt 0 .rightParen then pure [] else commaList (argument g)
        expectSymbol .rightParen
        return (⟨name, distinct, arguments⟩ : FunctionCall))
      ((Layout.commas (arguments.map Expr.layout)).solid ++ .symbol .rightParen :: r)
      ⟨name, distinct, arguments⟩ r := by
    cases arguments with
    | nil =>
      refine (takes_symbolAt_yes rfl (by decide) (by simp)).bind ((Takes.pure [] _).bind ?_)
      exact (takes_expectSymbol _ r (by decide)).bind (.pure _ r)
    | cons e es =>
      have hhead : kindAhead d.dq ((Layout.commas ((e :: es).map Expr.layout)).solid ++
          .symbol .rightParen :: r) 0 ≠ .symbol .rightParen := by
        rw [List.map_cons, Layout.commas, solid_sepBy, List.append_assoc]
        exact e.kindAhead_ne (h e (by simp)) _ rfl
      refine (takes_symbolAt_no hhead (by decide) (by simp)).bind (Takes.bind (a := e :: es) ?_
        ((takes_expectSymbol _ r (by decide)).bind (.pure _ r)))
      refine takes_commaList (by simp) (by simp) fun a ha r' hr' => ?_
      refine takes_argument hg (h a ha) ?_ ?_
      · exact (size_of_mem_commas (List.mem_map_of_mem ha)).trans_lt hs'
      · rcases hr' with ⟨-, rfl⟩ | ⟨l, rfl⟩ <;> exact .inl rfl
  have hd : kindAhead d.dq ((Layout.commas (arguments.map Expr.layout)).solid ++
      .symbol .rightParen :: r) 0 ≠ .keyword .DISTINCT := by
    cases arguments with
    | nil => simp [Layout.commas, Layout.sepBy]
    | cons e es =>
      rw [List.map_cons, Layout.commas, solid_sepBy, List.append_assoc]
      exact e.kindAhead_ne (h e (by simp)) _ rfl
  simp only [Layout.parens, Layout.solid_symbol, Layout.solid_append, Layout.solid_nil,
    List.cons_append, List.append_assoc, List.nil_append]
  refine (takes_expectSymbol _ _ (by decide)).bind ?_
  cases distinct with
  | true => exact (takes_takeKeyword_yes _ _).bind hargs
  | false => exact (takes_takeKeyword_no hd).bind hargs

/-! ## Wildcards -/

omit hg in
theorem takes_wildcardExcept_none (hs : r.head? ≠ some .closingAngle)
    (hx : opensExcept d r = false)
    (hp : ¬(kindAhead d.dq r 0 = .keyword .EXCLUDE ∧ kindAhead d.dq r 1 = .symbol .leftParen)) :
    Takes d.dq (wildcardExcept d) r none r := by
  have hone : ∀ p ∈ r.take 1, p ≠ .closingAngle := by
    cases r with
    | nil => simp
    | cons p l => simpa using hs
  have hany : ∀ {k : Nat} {ks : List Keyword} {f : Bool → Parse (Option WildcardExcept)},
      (∀ answer, Takes d.dq (f answer) r none r) → Takes d.dq (anyKeywordAt k ks >>= f) r none r :=
    takes_test_any fun c => ⟨_, rfl⟩
  by_cases h1 : kindAhead d.dq r 1 = .symbol .leftParen
  · have hno : kindAhead d.dq r 0 ≠ .keyword .EXCLUDE := fun h0 => hp ⟨h0, h1⟩
    refine (takes_symbolAt_yes h1 (by decide) hone).bind ?_
    by_cases h0 : kindAhead d.dq r 0 = .keyword .EXCEPT
    · have htwo : ∀ p ∈ r.take 2, p ≠ .closingAngle := by
        match r with
        | [] => simp
        | [p] => simpa using hs
        | p :: q :: l =>
          have hq : q ≠ .closingAngle := by
            rintro rfl
            simp at h1
          simpa [hq] using hs
      refine (takes_keywordAt_yes h0 (by simp)).bind ?_
      by_cases hw : kindAhead d.dq r 2 = .keyword .SELECT ∨ kindAhead d.dq r 2 = .keyword .WITH
      · have hq : Takes d.dq (queryAt 2) r true r := by
          rcases hw with hw | hw <;> exact takes_anyKeywordAt_yes hw (by simp) htwo
        refine hq.bind ?_
        rw [if_neg (by simp)]
        refine (takes_keywordAt_no hno (by simp)).bind ?_
        rw [if_neg (by simp)]
        exact .pure none r
      · have hn : d.wildcardExcept = false := by
          rw [not_or] at hw
          simpa [opensExcept, h0, h1, hw] using hx
        refine hany fun answer => ?_
        rw [if_neg (by simp [hn])]
        refine (takes_keywordAt_no hno (by simp)).bind ?_
        rw [if_neg (by simp)]
        exact .pure none r
    · refine (takes_keywordAt_no h0 (by simp)).bind (hany fun answer => ?_)
      rw [if_neg (by simp)]
      refine (takes_keywordAt_no hno (by simp)).bind ?_
      rw [if_neg (by simp)]
      exact .pure none r
  · refine (takes_symbolAt_no h1 (by decide) hone).bind ?_
    refine takes_test_any (fun c => ⟨_, rfl⟩) fun answer => hany fun answer' => ?_
    rw [if_neg (by simp)]
    refine takes_test_any (fun c => ⟨_, rfl⟩) fun answer => ?_
    rw [if_neg (by simp)]
    exact .pure none r

omit hg in
theorem takes_wildcardExcept_some {e : WildcardExcept} (he : e.Legal d) :
    Takes d.dq (wildcardExcept d) (e.layout.solid ++ r) (some e) r := by
  obtain ⟨word, columns⟩ := e
  obtain ⟨hd, hne, hc⟩ := he
  dsimp only at hd hne hc
  have hcols := takes_identifiersInParens (r := r) hne hc
  have hlay : (WildcardExcept.layout ⟨word, columns⟩).solid ++ r =
      .keyword word.keyword :: ((Layout.parens (Ident.listLayout columns)).solid ++ r) := rfl
  rw [hlay]
  refine (takes_symbolAt_yes rfl (by decide) (by simp)).bind ?_
  cases word with
  | except =>
    have hname := startsName_identifierList hne hc (.symbol .rightParen :: r)
    have hq : Takes d.dq (queryAt 2)
        (.keyword .EXCEPT :: ((Layout.parens (Ident.listLayout columns)).solid ++ r)) false
        (.keyword .EXCEPT :: ((Layout.parens (Ident.listLayout columns)).solid ++ r)) := by
      refine takes_anyKeywordAt_no ?_ ?_
      · simp only [Layout.parens, Layout.solid_symbol, Layout.solid_append, Layout.solid_nil,
          List.cons_append, List.append_assoc, List.nil_append, kindAhead_succ, List.forall_mem_cons]
        exact ⟨startsName_reserved hname rfl, startsName_reserved hname rfl, by simp⟩
      · simp [Layout.parens]
    refine (takes_keywordAt_yes rfl (by simp)).bind (hq.bind ?_)
    rw [if_pos (by simp [hd])]
    exact (takes_advance (by simp) rfl).bind (hcols.bind (.pure _ r))
  | exclude =>
    refine (takes_keywordAt_no (by simp [ExceptWord.keyword]) (by simp)).bind ?_
    refine takes_test_any (fun c => ⟨_, rfl⟩) fun answer => ?_
    rw [if_neg (by simp)]
    refine (takes_keywordAt_yes rfl (by simp)).bind ?_
    rw [if_pos (by simp [hd])]
    exact (takes_advance (by simp) rfl).bind (hcols.bind (.pure _ r))

omit hg in
theorem takes_wildcardReplace_none (hs : r.head? ≠ some .closingAngle)
    (hp : ¬(kindAhead d.dq r 0 = .keyword .REPLACE ∧ kindAhead d.dq r 1 = .symbol .leftParen)) :
    Takes d.dq (wildcardReplace g d) r none r := by
  have hone : ∀ p ∈ r.take 1, p ≠ .closingAngle := by
    cases r with
    | nil => simp
    | cons p l => simpa using hs
  by_cases h0 : kindAhead d.dq r 0 = .keyword .REPLACE
  · refine (takes_keywordAt_yes h0 (by simp)).bind ?_
    refine (takes_symbolAt_no (fun h1 => hp ⟨h0, h1⟩) (by decide) hone).bind ?_
    rw [if_neg (by simp)]
    exact .pure none r
  · refine (takes_keywordAt_no h0 (by simp)).bind (takes_test_any (fun c => ⟨_, rfl⟩) fun answer => ?_)
    rw [if_neg (by simp)]
    exact .pure none r

theorem takes_wildcardReplace_some {items : List SelectItem} (hd : d.wildcardReplace = true)
    (hl : SelectItem.LegalList d.dq items) (h : ∀ i ∈ items, i.expr.Clear d)
    (hf : ∀ i ∈ items, i.Faithful)
    (hs : (Layout.commas (items.map SelectItem.layout)).size < bound) :
    Takes d.dq (wildcardReplace g d)
      (.keyword .REPLACE ::
        ((Layout.parens (Layout.commas (items.map SelectItem.layout))).solid ++ r))
      (some items) r := by
  have hitems := takes_selectItems (r := .symbol .rightParen :: r) hg hl h hf hs (.inl rfl) rfl
    (by simp) (by simp)
  simp only [Layout.parens, Layout.solid_symbol, Layout.solid_append, Layout.solid_nil,
    List.cons_append, List.append_assoc, List.nil_append]
  refine (takes_keywordAt_yes rfl (by simp)).bind ((takes_symbolAt_yes rfl (by decide) (by simp)).bind ?_)
  rw [if_pos (by simp [hd])]
  refine (takes_advance (by simp) rfl).bind ((takes_advance (by simp) rfl).bind ?_)
  exact hitems.bind ((takes_expectSymbol _ r (by decide)).bind (.pure _ r))

/-- What is written behind the star of a wildcard. -/
theorem takes_wildcard {table : Option ObjectName} {except : Option WildcardExcept}
    {replace : Option (List SelectItem)} (h : (Expr.wildcard table except replace).Clear d)
    (hs : (Expr.wildcard table except replace).layout.size ≤ bound)
    (hr : Follows d (.wildcard table except replace) r) :
    Takes d.dq (wildcard g d table)
      ((Layout.optional WildcardExcept.layout except).solid ++
        ((Layout.optional (fun items => Layout.behind [.REPLACE]
          (Layout.parens (Layout.commas (items.map SelectItem.layout)))) replace).solid ++ r))
      (.wildcard table except replace) r := by
  obtain ⟨⟨⟨-, he, hl⟩, hf⟩, hc⟩ := Expr.clear_iff.1 h
  obtain ⟨-, -, hplain, -, hstar, hwords⟩ := hr
  rw [Expr.layout_wildcard] at hs hstar
  simp only [List.mem_cons, List.not_mem_nil, or_false, or_and_right, not_or] at hwords
  have hreplace : Takes d.dq (wildcardReplace g d)
      ((Layout.optional (fun items => Layout.behind [.REPLACE]
        (Layout.parens (Layout.commas (items.map SelectItem.layout)))) replace).solid ++ r)
      replace r := by
    cases replace with
    | none =>
      exact takes_wildcardReplace_none hplain hwords.2
    | some items =>
      obtain ⟨hd, hl⟩ := hl _ rfl
      have hs' : (Layout.commas (items.map SelectItem.layout)).size < bound := by
        simp only [Layout.optional_some, Layout.behind, Layout.keywords, Layout.parens,
          Layout.size_append, Layout.size_symbol, Layout.size_keyword, Layout.size_gap] at hs
        omega
      rw [Layout.optional_some, Layout.solid_behind]
      exact takes_wildcardReplace_some hg hd hl
        (fun i hi => hc _ (List.mem_map_of_mem (f := fun i => Part.expr i.expr) hi)) (hf _ rfl) hs'
  refine Takes.bind ?_ (hreplace.bind (.pure _ r))
  cases except with
  | none =>
    cases replace with
    | none =>
      exact takes_wildcardExcept_none hplain (hstar (by simp)) hwords.1
    | some items =>
      rw [Layout.optional_some, Layout.solid_behind]
      exact takes_wildcardExcept_none (by simp) (opensExcept_of_ne (by simp)) (by simp)
  | some e => exact takes_wildcardExcept_some (he e rfl)

/-! ## Brackets and parentheses -/

theorem takes_subquery {q : Query} (h : q.Clear d) (ho : q.opens = true)
    (hs : q.layout.size < bound) :
    Takes d.dq (parenthesized g) ((Layout.parens q.layout).solid ++ r) (.subquery q) r := by
  have hquery := hg.query q h hs (.symbol .rightParen :: r) ⟨rfl, by simp⟩
  simp only [Layout.parens, Layout.solid_symbol, Layout.solid_append, Layout.solid_nil,
    List.cons_append, List.append_assoc, List.nil_append]
  have hyes : Takes d.dq (queryAt 1)
      (.symbol .leftParen :: (q.layout.solid ++ .symbol .rightParen :: r)) true
      (.symbol .leftParen :: (q.layout.solid ++ .symbol .rightParen :: r)) := by
    obtain ⟨k, l, hl, hk⟩ := q.head_layout ho (.symbol .rightParen :: r)
    rw [hl]
    exact takes_anyKeywordAt_yes rfl hk (by simp)
  refine hyes.bind ((takes_advance (by simp) rfl).bind (hquery.bind ?_))
  exact (takes_expectSymbol _ r (by decide)).bind (.pure _ r)

theorem takes_tuple {e : Expr} {es : List Expr} (h : ∀ a ∈ e :: es, a.Clear d)
    (hs : (Layout.commas ((e :: es).map Expr.layout)).size < bound) :
    Takes d.dq (parenthesized g)
      ((Layout.parens (Layout.commas ((e :: es).map Expr.layout))).solid ++ r)
      (if es = [] then .nested e else .tuple (e :: es)) r := by
  have hmem : ∀ a ∈ e :: es, a.layout.size < bound := fun a ha =>
    (size_of_mem_commas (List.mem_map_of_mem ha)).trans_lt hs
  have hitems := takes_collect (gathers_afterComma (p := g.expr 0) (f := Expr.layout)
    (r := .symbol .rightParen :: r) (by simp) es fun a ha r' hr' =>
      takes_expr hg (h a (by simp [ha])) (hmem a (by simp [ha])) (by
        rcases hr' with ⟨-, rfl⟩ | ⟨l, rfl⟩ <;> exact .inl rfl))
  have hfirst := takes_expr (r := (es.flatMap fun a => .symbol .comma :: a.layout.solid) ++
    .symbol .rightParen :: r) hg (h e (by simp)) (hmem e (by simp)) (by
      cases es <;> exact .inl rfl)
  simp only [Layout.parens, Layout.solid_symbol, Layout.solid_append, Layout.solid_nil,
    List.cons_append, List.append_assoc, List.nil_append, List.map_cons, Layout.commas,
    solid_sepBy, List.flatMap_map]
  have hno : Takes d.dq (queryAt 1)
      (.symbol .leftParen :: (e.layout.solid ++ ((es.flatMap fun a => .symbol .comma ::
        a.layout.solid) ++ .symbol .rightParen :: r))) false
      (.symbol .leftParen :: (e.layout.solid ++ ((es.flatMap fun a => .symbol .comma ::
        a.layout.solid) ++ .symbol .rightParen :: r))) := by
    refine takes_anyKeywordAt_no ?_ (by simp)
    simp only [List.forall_mem_cons, kindAhead_succ]
    exact ⟨e.kindAhead_ne (h e (by simp)) _ rfl, e.kindAhead_ne (h e (by simp)) _ rfl, by simp⟩
  refine hno.bind ((takes_expectSymbol _ _ (by decide)).bind (hfirst.bind (hitems.bind ?_)))
  cases es with
  | nil => exact (takes_expectSymbol _ r (by decide)).bind (.pure _ r)
  | cons a es => exact (takes_expectSymbol _ r (by decide)).bind (.pure _ r)

theorem takes_arrayElements (withWord : Bool) {elements : List Expr}
    (h : ∀ e ∈ elements, e.Clear d) (hs : (Layout.commas (elements.map Expr.layout)).size < bound) :
    Takes d.dq (arrayElements g withWord)
      ((Layout.commas (elements.map Expr.layout)).solid ++ .symbol .rightBracket :: r)
      (.array withWord elements) r := by
  have hend : Takes d.dq (do
      expectSymbol .rightBracket
      return Expr.array withWord elements) (.symbol .rightBracket :: r) (.array withWord elements) r :=
    (takes_expectSymbol _ r (by decide)).bind (.pure _ r)
  cases elements with
  | nil => exact (takes_symbolAt_yes rfl (by decide) (by simp)).bind ((Takes.pure [] _).bind hend)
  | cons e es =>
    have hlist := takes_exprList (r := .symbol .rightBracket :: r) hg (by simp) h hs (.inl rfl)
      (by simp)
    have hno : kindAhead d.dq ((Layout.commas ((e :: es).map Expr.layout)).solid ++
        .symbol .rightBracket :: r) 0 ≠ .symbol .rightBracket := by
      rw [List.map_cons, Layout.commas, solid_sepBy, List.append_assoc]
      exact e.kindAhead_ne (h e (by simp)) _ rfl
    exact (takes_symbolAt_no hno (by decide) (by simp)).bind (hlist.bind hend)

/-! ## Struct values -/

omit hg in
theorem takes_valueFields {fields : Option (List StructField)}
    (hl : ∀ fs ∈ fields, (DataType.struct .angles fs).Legal d.dq)
    (hf : ∀ fs ∈ fields, (DataType.struct .parens fs).Faithful d.dq)
    (hr : fields = none → kindAhead d.dq r 0 ≠ .symbol .less) :
    Takes d.dq valueFields ((Layout.optional StructField.anglesLayout fields).solid ++ r) fields
      r := by
  cases fields with
  | none => exact (takes_takeSymbol_no (hr rfl) (by decide)).bind (.pure none r)
  | some fs =>
    obtain ⟨⟨hne, hn, -⟩, hl⟩ := hl fs rfl
    replace hl := StructField.allTypes_iff.1 hl
    have hf := StructField.allTypes_iff.1 (hf fs rfl).2
    have hread : Takes d.dq (structFields true)
        ((Layout.commas (fs.map StructField.layout)).solid ++ .closingAngle :: r) fs
        (.closingAngle :: r) :=
      takes_structFields (readsTypes_dataType _) true hne hn (by simp) hl hf
        (fun f _ => Nat.lt_succ_of_le (size_of_mem_commas
          (List.mem_map_of_mem (f := fun f => f.type.layout) ‹f ∈ fs›))) (.inl rfl)
    simp only [Layout.optional_some, StructField.anglesLayout, Layout.solid_symbol,
      Layout.solid_append, solid_tightCommas, Layout.solid_closingAngle, Layout.solid_nil,
      List.cons_append, List.append_assoc, List.nil_append]
    exact (takes_takeSymbol_yes _ _ (by decide)).bind (hread.bind ((takes_closingAngle r).bind (.pure _ r)))

theorem takes_valueArguments (typed : Bool) {arguments : Option (List SelectItem)}
    (hl : ∀ items ∈ arguments, ∀ i ∈ items, i.Legal d.dq)
    (h : ∀ items ∈ arguments, ∀ i ∈ items, i.expr.Clear d)
    (hf : ∀ items ∈ arguments, ∀ i ∈ items, i.Faithful)
    (hs : ∀ items ∈ arguments, (Layout.commas (items.map SelectItem.layout)).size < bound)
    (ht : arguments = none → typed = true)
    (hr : arguments = none → kindAhead d.dq r 0 ≠ .symbol .leftParen) :
    Takes d.dq (valueArguments g typed)
      ((Layout.optional
        (fun items => Layout.parens (Layout.tightCommas (items.map SelectItem.layout)))
        arguments).solid ++ r) arguments r := by
  cases arguments with
  | none =>
    refine (takes_takeSymbol_no (hr rfl) (by decide)).bind ?_
    rw [ht rfl]
    exact .pure none r
  | some items =>
    simp only [Layout.optional_some, Layout.parens, Layout.solid_symbol, Layout.solid_append,
      Layout.solid_nil, solid_tightCommas, List.cons_append, List.append_assoc, List.nil_append]
    refine (takes_takeSymbol_yes _ _ (by decide)).bind ?_
    have hend : Takes d.dq (do
        expectSymbol .rightParen
        return some items) (.symbol .rightParen :: r) (some items) r :=
      (takes_expectSymbol _ r (by decide)).bind (.pure _ r)
    cases items with
    | nil => exact (takes_symbolAt_yes rfl (by decide) (by simp)).bind ((Takes.pure [] _).bind hend)
    | cons i is =>
      have hno : kindAhead d.dq ((Layout.commas ((i :: is).map SelectItem.layout)).solid ++
          .symbol .rightParen :: r) 0 ≠ .symbol .rightParen := by
        obtain ⟨expr, alias?⟩ := i
        simp only [List.map_cons, Layout.commas, solid_sepBy, SelectItem.layout,
          Layout.solid_append, List.append_assoc]
        exact expr.kindAhead_ne (h _ rfl ⟨expr, alias?⟩ (by simp)) _ rfl
      have hlist := takes_selectItems (r := .symbol .rightParen :: r) hg ⟨by simp, hl _ rfl⟩ (h _ rfl)
        (hf _ rfl) (hs _ rfl) (.inl rfl) rfl (by simp) (by simp)
      exact (takes_symbolAt_no hno (by decide) (by simp)).bind (hlist.bind hend)

omit hg in
/-- Where no operator stands in front, an operand is an expression without operators. -/
theorem takes_operand_of_primary {p : Piece} {l l' : Layout} {e : Expr} (hp : p ≠ .closingAngle)
    (hk : UnaryOp.ofToken? (p.kind d.dq) = none) (h : Takes d.dq (primary g d) (p :: l) e l') :
    Takes d.dq (operand g d) (p :: l) e l' := by
  refine takes_current hp fun t ht _ => ?_
  simp only [ht, hk]
  exact h

theorem takes_structWithWord {word : Option String} {fields : Option (List StructField)}
    {arguments : Option (List SelectItem)}
    (h : (Expr.struct ⟨.bigQuery, word, fields, arguments⟩).Clear d)
    (hs : (Expr.struct ⟨.bigQuery, word, fields, arguments⟩).layout.size ≤ bound)
    (hr : kindAhead d.dq r 0 ≠ .symbol .leftParen) :
    Takes d.dq (operand g d)
      ((Expr.struct ⟨.bigQuery, word, fields, arguments⟩).layout.solid ++ r)
      (.struct ⟨.bigQuery, word, fields, arguments⟩) r := by
  obtain ⟨⟨⟨hd, ⟨w, rfl, hw⟩, hl, hne, hli⟩, hf, hfi⟩, hc⟩ := Expr.clear_iff.1 h
  dsimp only at hd hl hne hli hf hfi
  rw [Expr.layout, StructValue.layout_bigQuery] at hs ⊢
  have hs' : ∀ items ∈ arguments, (Layout.commas (items.map SelectItem.layout)).size < bound := by
    rintro items rfl
    rw [← Layout.size_solid, ← solid_tightCommas, Layout.size_solid]
    simp only [Layout.optional_some, Layout.parens, Layout.word, Layout.size_append,
      Layout.size_symbol, Layout.size_word, Layout.size_nil] at hs
    omega
  have hc' : ∀ items ∈ arguments, ∀ i ∈ items, i.expr.Clear d := by
    rintro items rfl i hi
    exact hc _ (List.mem_map_of_mem (f := fun i => Part.expr i.expr) hi)
  have harguments := takes_valueArguments (r := r) hg fields.isSome hli hc' hfi hs'
    (by cases fields <;> simp_all) (fun _ => hr)
  have hfields := takes_valueFields (r := (Layout.optional
    (fun items => Layout.parens (Layout.tightCommas (items.map SelectItem.layout)))
    arguments).solid ++ r) hl hf (by
      intro hnone
      cases arguments with
      | none => exact absurd rfl (hne hnone)
      | some items => simp [Layout.parens])
  simp only [Layout.optional_some, Layout.word, Layout.solid_append, Layout.solid_word,
    List.cons_append, List.append_assoc, List.nil_append]
  refine takes_operand_of_primary (by simp) (by rw [Piece.kind_word hw]; rfl) ?_
  refine takes_current (by simp) fun t ht _ => ?_
  rw [Piece.kind_word hw] at ht
  simp only [ht]
  refine takes_test_any (fun c => ⟨_, rfl⟩) fun answer => ?_
  rw [if_neg (by simp), if_pos (by simp [← hd])]
  refine takes_current (by simp) fun t _ hx => ?_
  rw [hx w rfl]
  exact (takes_advance (by simp) rfl).bind (hfields.bind (harguments.bind (.pure _ r)))

omit hg in
theorem ofWord?_key (dq : Bool) {key : Ident} (h : key.quote = some '\'') :
    TokenKind.ofWord? dq key.text = some (.string key.name) := by
  rw [Ident.text, h]
  exact ofWord?_string dq key.name

omit hg in
theorem takes_fieldKey {key : Ident} (h : key.IsKey d.dq) :
    Takes d.dq fieldKey (key.layout.solid ++ r) key r := by
  have hother : ∀ {kind : TokenKind}, (∀ content, kind ≠ .string content) →
      (Piece.word key.text).kind d.dq = kind → Takes d.dq identifier (key.layout.solid ++ r) key r →
      Takes d.dq fieldKey (key.layout.solid ++ r) key r := by
    intro kind hne hk hi
    refine takes_current (p := .word key.text) (by simp) fun t ht _ => ?_
    rw [hk] at ht
    simp only [ht]
    cases kind with
    | string content => exact absurd rfl (hne content)
    | _ => exact hi
  rcases h with h | hq
  · obtain ⟨kind, hw, hk⟩ := h
    refine hother ?_ (Piece.kind_word hw) (takes_identifier ⟨kind, hw, hk⟩)
    rcases hk with rfl | ⟨k, rfl, -, -⟩ <;> simp
  · refine takes_current (p := .word key.text) (by simp) fun t ht _ => ?_
    rw [Piece.kind_word (ofWord?_key d.dq hq)] at ht
    simp only [ht]
    have hkey : key = { name := key.name, quote := some '\'' } := by rw [← hq]
    refine (takes_advance (by simp) rfl).bind ?_
    rw [← hkey]
    exact .pure key r

theorem takes_keyedField {i : SelectItem} {key : Ident} (ha : i.alias? = some (.implicit key))
    (hk : key.IsKey d.dq) (h : i.expr.Clear d) (hs : i.keyedLayout.size < bound)
    (hr : Breaks d i.expr.layout r) :
    Takes d.dq (keyedField g) (i.keyedLayout.solid ++ r) i r := by
  obtain ⟨expr, alias?⟩ := i
  obtain rfl : alias? = some (.implicit key) := ha
  have hlay : (SelectItem.keyedLayout ⟨expr, some (.implicit key)⟩).solid ++ r =
      key.layout.solid ++ (.symbol .colon :: (expr.layout.solid ++ r)) := by
    simp [SelectItem.keyedLayout, Alias.implicit]
  rw [hlay]
  refine (takes_fieldKey hk).bind ((takes_expectSymbol _ _ (by decide)).bind ?_)
  have hs' : expr.layout.size < bound := by
    simp only [SelectItem.keyedLayout, Layout.size_append, Layout.size_symbol] at hs
    omega
  exact (takes_expr hg h hs' hr).bind (.pure _ r)

theorem takes_structInBraces {items : List SelectItem}
    (h : (Expr.struct ⟨.duckDb, none, none, some items⟩).Clear d)
    (hs : (SelectItem.bracesLayout items).size ≤ bound) :
    Takes d.dq (operand g d) ((SelectItem.bracesLayout items).solid ++ r)
      (.struct ⟨.duckDb, none, none, some items⟩) r := by
  obtain ⟨⟨⟨hd, -, -, _, ⟨⟩, hi⟩, -, hf⟩, hc⟩ := Expr.clear_iff.1 h
  dsimp only at hd hf
  have hfields : SelectItem.fieldLayouts 1 items = items.map SelectItem.keyedLayout := by
    refine SelectItem.fieldLayouts_eq_map (fun i hmem => ?_) 1
    obtain ⟨key, hkey, -⟩ := hi i hmem
    simp [hkey]
  rw [SelectItem.bracesLayout, hfields] at hs ⊢
  have hs' : (Layout.commas (items.map SelectItem.keyedLayout)).size < bound := by
    rw [← Layout.size_solid, ← solid_tightCommas, Layout.size_solid]
    simp only [Layout.size_append, Layout.size_symbol, Layout.size_gap, Layout.size_nil] at hs
    omega
  simp only [Layout.solid_symbol, Layout.solid_gap, Layout.solid_append, Layout.solid_nil,
    solid_tightCommas, List.cons_append, List.append_assoc, List.nil_append]
  refine takes_operand_of_primary (by simp) rfl (takes_current (by simp) fun t ht _ => ?_)
  simp only [ht, Piece.kind_symbol]
  have hduck : d.structStyle = .duckDb := hd.symm
  have hend : Takes d.dq (do
      expectSymbol .rightBrace
      return Expr.struct ⟨.duckDb, none, none, some items⟩) (.symbol .rightBrace :: r)
      (.struct ⟨.duckDb, none, none, some items⟩) r :=
    (takes_expectSymbol _ r (by decide)).bind (.pure _ r)
  simp only [symbolPrimary, hduck, if_true]
  refine (takes_expectSymbol _ _ (by decide)).bind ?_
  cases items with
  | nil => exact (takes_symbolAt_yes rfl (by decide) (by simp)).bind ((Takes.pure [] _).bind hend)
  | cons i is =>
    have hno : kindAhead d.dq ((Layout.commas ((i :: is).map SelectItem.keyedLayout)).solid ++
        .symbol .rightBrace :: r) 0 ≠ .symbol .rightBrace := by
      obtain ⟨key, hkey, hk⟩ := hi i (by simp)
      rw [List.map_cons, Layout.commas, solid_sepBy, List.append_assoc, SelectItem.keyedLayout, hkey]
      show (Piece.word key.text).kind d.dq ≠ _
      rcases hk with ⟨kind, hw, hk⟩ | hq
      · rw [Piece.kind_word hw]
        rcases hk with rfl | ⟨k, rfl, -, -⟩ <;> simp
      · simp [Piece.kind_word (ofWord?_key d.dq hq)]
    refine (takes_symbolAt_no hno (by decide) (by simp)).bind (Takes.bind (a := i :: is) ?_ hend)
    refine takes_commaList (by simp) (by simp) fun a ha r' hr' => ?_
    obtain ⟨key, hkey, hk⟩ := hi a ha
    refine takes_keyedField hg hkey hk (hc _ (List.mem_map_of_mem (f := fun i => Part.expr i.expr) ha))
      ((size_of_mem_commas (List.mem_map_of_mem ha)).trans_lt hs') ?_
    rcases hr' with ⟨-, rfl⟩ | ⟨l, rfl⟩ <;> exact .inl rfl

/-! ## Words -/

theorem takes_castCall {operand : Expr} {type : DataType} (h : operand.Clear d)
    (hl : type.Legal d.dq) (hf : type.Faithful d.dq) (hs : operand.layout.size < bound) :
    Takes d.dq (castCall g) ((Expr.cast .function operand type).layout.solid ++ r)
      (.cast .function operand type) r := by
  have hoperand := takes_expr (r := .keyword .AS :: (type.layout.solid ++ .symbol .rightParen :: r))
    hg h hs (.inl rfl)
  have htype := takes_dataType (r := .symbol .rightParen :: r) hl hf
    ⟨by simp, by simp, fun _ => rfl⟩
  simp only [Expr.layout, Layout.parens, Layout.solid_keyword, Layout.solid_symbol,
    Layout.solid_append, Layout.solid_gap, Layout.solid_nil, List.cons_append, List.append_assoc,
    List.nil_append]
  refine (takes_expectKeyword _ _).bind ((takes_expectSymbol _ _ (by decide)).bind (hoperand.bind ?_))
  refine (takes_expectKeyword _ _).bind (htype.bind ?_)
  exact (takes_expectSymbol _ r (by decide)).bind (.pure _ r)

omit hg in
theorem breaksExpr_whenArms (hb : breaksExpr (kindAhead d.dq r 0) = true) (arms : List WhenArm) :
    breaksExpr (kindAhead d.dq ((WhenArm.layouts arms).solid ++ r) 0) = true := by
  cases arms with
  | nil => exact hb
  | cons a arms =>
    obtain ⟨condition, result⟩ := a
    rfl

theorem gathers_whenArm (hr : kindAhead d.dq r 0 ≠ .keyword .WHEN)
    (hb : breaksExpr (kindAhead d.dq r 0) = true) :
    ∀ arms : List WhenArm, (∀ a ∈ arms, a.condition.Clear d ∧ a.result.Clear d) →
      (WhenArm.layouts arms).size ≤ bound →
      Gathers d.dq (whenArm g) ((WhenArm.layouts arms).solid ++ r) arms r
  | [], _, _ => .done ((takes_takeKeyword_no hr).bind (.pure none r))
  | ⟨condition, result⟩ :: arms, h, hs => by
    obtain ⟨hc, hx⟩ := h ⟨condition, result⟩ (by simp)
    dsimp only at hc hx
    simp only [WhenArm.layouts, WhenArm.layout, Layout.size_append, Layout.size_gap,
      Layout.size_keyword, Layout.size_nil] at hs
    have ih := gathers_whenArm hr hb arms (fun a ha => h a (by simp [ha])) (by omega)
    have hcondition := takes_expr (r := .keyword .THEN :: (result.layout.solid ++
      ((WhenArm.layouts arms).solid ++ r))) hg hc (by omega) (.inl rfl)
    have hresult := takes_expr hg hx (by omega) (.inl (breaksExpr_whenArms hb arms))
    simp only [WhenArm.layouts, WhenArm.layout, Layout.solid_append, Layout.solid_gap,
      Layout.solid_keyword, List.cons_append, List.append_assoc, List.nil_append]
    refine .more ((takes_takeKeyword_yes _ _).bind (hcondition.bind ?_)) (by simp; omega) ih
    exact (takes_expectKeyword _ _).bind (hresult.bind (.pure _ _))

theorem takes_caseExpr {operand : Option Expr} {arms : List WhenArm} {otherwise : Option Expr}
    (h : (Expr.caseWhen operand arms otherwise).Clear d)
    (hs : (Expr.caseWhen operand arms otherwise).layout.size ≤ bound) :
    Takes d.dq (caseExpr g) ((Expr.caseWhen operand arms otherwise).layout.solid ++ r)
      (.caseWhen operand arms otherwise) r := by
  obtain ⟨⟨hne, -⟩, hc⟩ := Expr.clear_iff.1 h
  replace hne : arms ≠ [] := hne
  have hchildren : (∀ e ∈ operand, e.Clear d) ∧
      (∀ a ∈ arms, a.condition.Clear d ∧ a.result.Clear d) ∧ ∀ e ∈ otherwise, e.Clear d := by
    simp only [Expr.children, Part.exprs, List.forall_mem_append, List.forall_mem_map,
      List.forall_mem_flatMap, List.forall_mem_cons] at hc
    refine ⟨fun e he => hc.1.1 e (by simpa using he), fun a ha => ?_,
      fun e he => hc.2 e (by simpa using he)⟩
    exact ⟨(hc.1.2 a ha).1, (hc.1.2 a ha).2.1⟩
  obtain ⟨hoperand, harms, hotherwise⟩ := hchildren
  simp only [Expr.layout, Layout.size_append, Layout.size_keyword, Layout.size_gap,
    Layout.size_nil] at hs
  -- Behind the arms stands the other result, if there is one, and the last word.
  have hend : Takes d.dq (do
      let otherwise ← afterKeyword .ELSE (g.expr 0)
      expectKeyword .END
      return Expr.caseWhen operand arms otherwise)
      ((Expr.layoutAfter [.gap, .keyword .ELSE, .gap] otherwise).solid ++ .keyword .END :: r)
      (.caseWhen operand arms otherwise) r := by
    refine Takes.bind (a := otherwise) ?_ ((takes_expectKeyword _ r).bind (.pure _ r))
    cases otherwise with
    | none => exact takes_afterKeyword_none (by simp [Expr.layoutAfter])
    | some e =>
      have he : e.layout.size < bound := by
        simp only [Expr.layoutAfter, Layout.size_append, Layout.size_keyword, Layout.size_gap,
          Layout.size_nil] at hs
        omega
      exact takes_afterKeyword_some (takes_expr hg (hotherwise e rfl) he (.inl rfl))
  have hhead : kindAhead d.dq ((Expr.layoutAfter [.gap, .keyword .ELSE, .gap] otherwise).solid ++
      .keyword .END :: r) 0 ≠ .keyword .WHEN ∧ breaksExpr (kindAhead d.dq
        ((Expr.layoutAfter [.gap, .keyword .ELSE, .gap] otherwise).solid ++ .keyword .END :: r) 0)
          = true := by
    cases otherwise with
    | none => exact ⟨by simp [Expr.layoutAfter], rfl⟩
    | some e => exact ⟨by simp [Expr.layoutAfter], rfl⟩
  have hcollect := takes_collect (gathers_whenArm hg hhead.1 hhead.2 arms harms (by omega))
  have hempty : arms.isEmpty = false := by
    cases arms with
    | nil => contradiction
    | cons a arms => rfl
  have hrest : Takes d.dq (do
      let arms ← collect (whenArm g)
      if arms.isEmpty then fail [Keyword.WHEN.text]
      else
        let otherwise ← afterKeyword .ELSE (g.expr 0)
        expectKeyword .END
        return Expr.caseWhen operand arms otherwise)
      ((WhenArm.layouts arms).solid ++ ((Expr.layoutAfter [.gap, .keyword .ELSE, .gap]
        otherwise).solid ++ .keyword .END :: r)) (.caseWhen operand arms otherwise) r := by
    refine hcollect.bind ?_
    rw [hempty]
    exact hend
  simp only [Expr.layout, Layout.solid_append, Layout.solid_gap, Layout.solid_keyword,
    Layout.solid_nil, List.cons_append, List.append_assoc, List.nil_append]
  refine (takes_expectKeyword _ _).bind ?_
  cases operand with
  | none =>
    cases arms with
    | nil => contradiction
    | cons a arms =>
      obtain ⟨condition, result⟩ := a
      exact (takes_keywordAt_yes rfl (by simp)).bind ((Takes.pure none _).bind hrest)
  | some e =>
    have he : e.layout.size < bound := by
      simp only [Expr.layoutAfter, Layout.size_append, Layout.size_gap, Layout.size_nil] at hs
      omega
    have hread := takes_expr hg (hoperand e rfl) he
      (.inl (breaksExpr_whenArms hhead.2 arms))
    simp only [Expr.layoutAfter, Layout.solid_append, Layout.solid_gap, Layout.solid_nil,
      List.nil_append]
    exact (takes_keywordAt_no (e.kindAhead_ne (hoperand e rfl) _ rfl) (by simp)).bind
      ((hread.map some).bind hrest)

theorem takes_existsTest {q : Query} (h : q.Clear d) (hs : q.layout.size < bound) :
    Takes d.dq (existsTest g) ((Expr.existsQuery q).layout.solid ++ r) (.existsQuery q) r := by
  have hquery := hg.query q h hs (.symbol .rightParen :: r) ⟨rfl, by simp⟩
  simp only [Expr.layout, Layout.parens, Layout.solid_keyword, Layout.solid_gap,
    Layout.solid_symbol, Layout.solid_append, Layout.solid_nil, List.cons_append,
    List.append_assoc, List.nil_append]
  exact (takes_expectKeyword _ _).bind ((takes_inParens hquery).bind (.pure _ r))

/-! ## Names -/

omit hg in
/-- An operand that begins with a name is what a name begins. -/
theorem takes_operand_of_named {first : Ident} (hf : first.Legal d.dq) {l l' : Layout} {e : Expr}
    (h : Takes d.dq (named g d) (.word first.text :: l) e l') :
    Takes d.dq (operand g d) (.word first.text :: l) e l' := by
  obtain ⟨kind, hw, hk⟩ := hf
  have hkind : (Piece.word first.text).kind d.dq = kind := Piece.kind_word hw
  have hunary : UnaryOp.ofToken? kind = none := by
    rcases hk with rfl | ⟨k, rfl, hk, -⟩
    · rfl
    · cases k <;> first | rfl | exact absurd hk (by decide)
  refine takes_operand_of_primary (by simp) (by rw [hkind, hunary]) ?_
  refine takes_current (by simp) fun t ht _ => ?_
  rw [hkind] at ht
  rcases hk with rfl | ⟨k, rfl, hk, -⟩
  · simp only [ht]
    exact h
  · simp only [ht]
    have hword : Takes d.dq (do
        if k = .ARRAY && (← symbolAt 1 .leftBracket) then
          advance
          advance
          arrayElements g true
        else if k = .STRUCT && d.structStyle = .bigQuery then structWithWord g
        else if functionWords.contains k && (← symbolAt 1 .leftParen) then
          let name : Ident := { name := (← current).text }
          advance
          return .call (← functionCall g ⟨[name]⟩)
        else if k.isReserved then fail ["expression"]
        else named g d) (.word first.text :: l) e l' := by
      have hne : k ≠ .ARRAY ∧ k ≠ .STRUCT ∧ functionWords.contains k = false := by
        cases k <;> first | exact absurd hk (by decide) | decide
      refine takes_test_any (fun c => ⟨_, rfl⟩) fun answer => ?_
      rw [if_neg (by simp [hne.1]), if_neg (by simp [hne.2.1])]
      refine takes_test_any (fun c => ⟨_, rfl⟩) fun answer => ?_
      rw [if_neg (by rw [hne.2.2]; simp), if_neg (by simp [hk])]
      exact h
    cases k <;> first | exact hword | exact absurd hk (by decide)

omit hg in
theorem takes_column {c : ColumnRef} (hl : c.Legal d.dq) (hr : kindAhead d.dq r 0 ∉
    [TokenKind.symbol .dot, .symbol .leftParen, .symbol .leftBracket]) :
    Takes d.dq (operand g d) (c.layout.solid ++ r) (.column c) r := by
  simp only [List.mem_cons, List.not_mem_nil, or_false, not_or] at hr
  obtain ⟨hdot, hparen, -⟩ := hr
  obtain ⟨first, more, hn, hcol, hlay⟩ := ColumnRef.exists_names hl.1
  have hnames : ∀ i ∈ first :: more, i.Legal d.dq := hn ▸ hl.2
  have hread := takes_dottedName (r := r) hnames (fun h => absurd h hdot)
  rw [hlay]
  rw [ObjectName.layout, List.map_cons, solid_sepBy] at hread ⊢
  refine takes_operand_of_named (hnames first (by simp)) (hread.bind ?_)
  refine (takes_symbolAt_no hdot (by decide) (by simp)).bind (takes_test_any (fun c => ⟨_, rfl⟩) fun answer => ?_)
  rw [if_neg (by simp)]
  refine (takes_symbolAt_no hparen (by decide) (by simp)).bind ?_
  rw [if_neg (by simp), hcol]
  exact .pure _ r

theorem takes_call {c : FunctionCall} (h : (Expr.call c).Clear d)
    (hs : c.layout.size ≤ bound) :
    Takes d.dq (operand g d) (c.layout.solid ++ r) (.call c) r := by
  obtain ⟨⟨hl, -⟩, hc⟩ := Expr.clear_iff.1 h
  have hcall := takes_functionCall (r := r) hg (c := c)
    (fun e he => hc _ (List.mem_map_of_mem he)) hs
  obtain ⟨name, distinct, arguments⟩ := c
  rw [FunctionCall.layout, Layout.solid_append, List.append_assoc]
  have hparen : kindAhead d.dq ((Layout.parens (Layout.onlyIf distinct [.keyword .DISTINCT, .gap] ++
      Layout.commas (Expr.layouts arguments))).solid ++ r) 0 = .symbol .leftParen := rfl
  generalize (Layout.parens (Layout.onlyIf distinct [.keyword .DISTINCT, .gap] ++
      Layout.commas (Expr.layouts arguments))).solid ++ r = rest at hcall hparen
  rcases hl with ⟨hne, hnames⟩ | ⟨w, k, hn, hw, hk⟩
  · obtain ⟨parts⟩ := name
    cases parts with
    | nil => exact absurd rfl hne
    | cons first more =>
      have hread := takes_dottedName (r := rest) hnames (by rw [hparen]; simp)
      rw [ObjectName.layout, List.map_cons, solid_sepBy] at hread ⊢
      refine takes_operand_of_named (hnames first (by simp)) (hread.bind ?_)
      refine (takes_symbolAt_no (by rw [hparen]; simp) (by decide) (by simp)).bind
        (takes_test_any (fun c => ⟨_, rfl⟩) fun answer => ?_)
      rw [if_neg (by simp)]
      refine (takes_symbolAt_yes hparen (by decide) (by simp)).bind ?_
      exact hcall.bind (.pure _ r)
  · dsimp only at hn
    subst hn
    have hkind : (Piece.word w).kind d.dq = .keyword k := Piece.kind_word hw
    show Takes d.dq (operand g d) (.word w :: rest) _ r
    have hcurrent : Takes d.dq (do
        let name : Ident := { name := (← current).text }
        advance
        return Expr.call (← functionCall g ⟨[name]⟩)) (.word w :: rest)
        (Expr.call ⟨⟨[{ name := w }]⟩, distinct, arguments⟩) r := by
      refine takes_current (by simp) fun t _ hx => ?_
      rw [hx w rfl]
      exact (takes_advance (by simp) rfl).bind (hcall.bind (.pure _ r))
    have hbracket : kindAhead d.dq (.word w :: rest) 1 ≠ .symbol .leftBracket := by
      rw [kindAhead_succ, hparen]
      simp
    have hone : kindAhead d.dq (.word w :: rest) 1 = .symbol .leftParen := hparen
    simp only [functionWords, List.mem_cons, List.not_mem_nil, or_false] at hk
    rcases hk with rfl | rfl | rfl <;>
      refine takes_operand_of_primary (by simp) (by rw [hkind]; rfl)
        (takes_current (by simp) fun t ht _ => ?_) <;>
      rw [hkind] at ht <;> simp only [ht] <;>
      exact (takes_symbolAt_no hbracket (by decide) (by simp)).bind ((takes_symbolAt_yes hone (by decide) (by simp)).bind hcurrent)

theorem takes_operand_wildcard {table : Option ObjectName} {except : Option WildcardExcept}
    {replace : Option (List SelectItem)} (h : (Expr.wildcard table except replace).Clear d)
    (hs : (Expr.wildcard table except replace).layout.size ≤ bound)
    (hr : Follows d (.wildcard table except replace) r) :
    Takes d.dq (operand g d) ((Expr.wildcard table except replace).layout.solid ++ r)
      (.wildcard table except replace) r := by
  have hwildcard := takes_wildcard hg h hs hr
  rw [Expr.layout_wildcard]
  simp only [Layout.solid_append, List.append_assoc]
  generalize (Layout.optional WildcardExcept.layout except).solid ++ _ = rest at hwildcard ⊢
  cases table with
  | none =>
    refine takes_operand_of_primary (by simp) rfl (takes_current (by simp) fun t ht _ => ?_)
    simp only [ht]
    exact (takes_advance (by simp) rfl).bind hwildcard
  | some table =>
    obtain ⟨parts⟩ := table
    obtain ⟨hne, hnames⟩ : (ObjectName.mk parts).Legal d.dq := h.head.1.1 _ rfl
    cases parts with
    | nil => exact absurd rfl hne
    | cons first more =>
      have hread := takes_dottedName (r := .symbol .dot :: .symbol .star :: rest) hnames
        (fun _ => rfl)
      simp only [Layout.optional_some, Layout.solid_append, Layout.solid_symbol, Layout.solid_nil,
        List.append_assoc, List.cons_append, List.nil_append]
      rw [ObjectName.layout, List.map_cons, solid_sepBy] at hread ⊢
      refine takes_operand_of_named (hnames first (by simp)) (hread.bind ?_)
      refine (takes_symbolAt_yes rfl (by decide) (by simp)).bind ((takes_symbolAt_yes rfl (by decide) (by simp)).bind ?_)
      exact (takes_advance (by simp) rfl).bind ((takes_advance (by simp) rfl).bind hwildcard)

/-! ## Everything without operators -/

omit hg in
theorem takes_literal {v : Literal} (h : (Expr.literal v).Legal d) :
    Takes d.dq (operand g d) (v.piece :: r) (.literal v) r := by
  obtain ⟨hk, hp⟩ := Literal.kind_piece h
  have hq : v.piece.questions = 0 := by
    match v with
    | .boolean true | .boolean false | .integer _ | .float _ | .string _ | .blob _ | .null => rfl
  have hadvance : Takes d.dq advance (v.piece :: r) () r := takes_advance hp hq
  refine takes_operand_of_primary hp ?_ (takes_current hp fun t ht _ => ?_)
  · rw [hk]
    match v with
    | .boolean true | .boolean false | .integer _ | .float _ | .string _ | .blob _ | .null => rfl
  · rw [hk] at ht
    match v with
    | .boolean true | .boolean false | .integer _ | .float _ | .string _ | .blob _ | .null =>
      simp only [ht, Literal.kind]
      exact hadvance.bind (.pure _ r)

omit hg in
theorem takes_placeholder {place : Placeholder} (h : (Expr.placeholder place).Clear d) :
    Takes d.dq (operand g d) (place.layout.solid ++ r) (.placeholder place) r := by
  cases place with
  | positional n =>
    refine takes_operand_of_primary (by simp) rfl (takes_current (by simp) fun t ht _ => ?_)
    simp only [ht, Piece.kind_question]
    exact takes_question (.pure _ r)
  | named sigil name =>
    have hs : sigil = ':' ∨ sigil = '@' := h.head.1
    have hi : Ident.Legal d.dq { name } := h.head.2
    obtain ⟨s, hw, hs⟩ := ofWord?_sigil d.dq hs
    have hk : (Piece.word (String.ofList [sigil])).kind d.dq = .symbol s := Piece.kind_word hw
    have hread : Takes d.dq (namedPlaceholder sigil)
        (.word (String.ofList [sigil]) :: .word name :: r) (.placeholder (.named sigil name)) r :=
      (takes_advance (by simp) rfl).bind ((takes_identifier hi).bind (.pure _ r))
    show Takes d.dq (operand g d) (.word (String.ofList [sigil]) :: .word name :: r) _ r
    rcases hs with ⟨rfl, rfl⟩ | ⟨rfl, rfl⟩ <;>
      refine takes_operand_of_primary (by simp) (by rw [hk]; rfl)
        (takes_current (by simp) fun t ht _ => ?_) <;>
      rw [hk] at ht <;> simp only [ht] <;> exact hread

end Readers

/-- Whether no operator, predicate or cast with colons is the outermost part of an expression. -/
def Expr.isPrimary : Expr → Bool
  | .binary .. | .unary .. | .inList .. | .inQuery .. | .between .. | .isNull .. | .like ..
  | .cast .doubleColon .. | .struct ⟨.duckDb, _, some _, _⟩ => false
  | _ => true

/-- An expression without operators around it is read back. -/
theorem takes_primary (hg : g.Reads d bound) {e : Expr} (hp : e.isPrimary = true) (h : e.Clear d)
    (hs : e.layout.size ≤ bound) (hr : Follows d e r) :
    Takes d.dq (operand g d) (e.layout.solid ++ r) e r := by
  have hkeyword : ∀ {k : Keyword} {l : Layout}, UnaryOp.ofToken? (.keyword k) = none →
      Takes d.dq (keywordPrimary g d k) (.keyword k :: l) e r →
      Takes d.dq (operand g d) (.keyword k :: l) e r := by
    intro k l hk h
    refine takes_operand_of_primary (by simp) hk (takes_current (by simp) fun t ht _ => ?_)
    simp only [ht, Piece.kind_keyword]
    exact h
  have hsymbol : ∀ {s : Symbol} {l : Layout}, UnaryOp.ofToken? (.symbol s) = none →
      Takes d.dq (symbolPrimary g d s) (.symbol s :: l) e r →
      Takes d.dq (operand g d) (.symbol s :: l) e r := by
    intro s l hk h
    refine takes_operand_of_primary (by simp) hk (takes_current (by simp) fun t ht _ => ?_)
    simp only [ht, Piece.kind_symbol]
    exact h
  obtain ⟨⟨hl, hf⟩, hc⟩ := Expr.clear_iff.1 h
  match e with
  | .literal v =>
    have hlay : (Expr.literal v).layout.solid ++ r = v.piece :: r := by
      match v with
      | .boolean true | .boolean false | .integer _ | .float _ | .string _ | .blob _ | .null => rfl
    rw [hlay]
    exact takes_literal hl
  | .column c => exact takes_column hl hr.plain
  | .call c => exact takes_call hg h hs
  | .array withWord elements =>
    have hs' : (Layout.commas (elements.map Expr.layout)).size < bound := by
      rw [← Layout.size_solid, ← solid_tightCommas, Layout.size_solid, ← Expr.layouts_eq_map]
      simp only [Expr.layout, Layout.size_append, Layout.size_symbol, Layout.size_nil] at hs
      omega
    have hread := takes_arrayElements (r := r) hg withWord
      (fun e he => hc _ (List.mem_map_of_mem he)) hs'
    simp only [Expr.layout, Expr.layouts_eq_map, Layout.solid_append, Layout.solid_symbol,
      Layout.solid_nil, solid_tightCommas, List.append_assoc, List.cons_append, List.nil_append]
    cases withWord with
    | true =>
      refine hkeyword rfl ((takes_symbolAt_yes rfl (by decide) (by simp)).bind ?_)
      exact (takes_advance (by simp) rfl).bind ((takes_advance (by simp) rfl).bind hread)
    | false => exact hsymbol rfl ((takes_advance (by simp) rfl).bind hread)
  | .struct ⟨.bigQuery, word, fields, arguments⟩ =>
    refine takes_structWithWord hg h hs fun hparen => hr.plain ?_
    simp [hparen]
  | .struct ⟨.duckDb, word, none, arguments⟩ =>
    obtain ⟨-, rfl, -, items, rfl, -⟩ := hl
    rw [Expr.layout, StructValue.layout_duckDb, Layout.optional_none, List.append_nil,
      Layout.optional_some] at hs ⊢
    exact takes_structInBraces hg h hs
  | .subquery q =>
    simp only [Expr.layout, Layout.parens, Layout.size_symbol, Layout.size_append,
      Layout.size_nil] at hs
    exact hsymbol rfl (takes_subquery hg (hc (.query q) (by simp [Expr.children])) hl (by omega))
  | .existsQuery q =>
    simp only [Expr.layout, Layout.parens, Layout.size_symbol, Layout.size_append,
      Layout.size_nil, Layout.size_keyword, Layout.size_gap] at hs
    exact hkeyword rfl (takes_existsTest hg (hc (.query q) (by simp [Expr.children])) (by omega))
  | .caseWhen operand arms otherwise => exact hkeyword rfl (takes_caseExpr hg h hs)
  | .cast .function operand type =>
    simp only [Expr.layout, Layout.parens, Layout.size_symbol, Layout.size_append,
      Layout.size_nil, Layout.size_keyword, Layout.size_gap] at hs
    exact hkeyword rfl
      (takes_castCall hg (hc (.expr operand) (by simp [Expr.children])) hl hf (by omega))
  | .nested inner =>
    simp only [Expr.layout, Layout.parens, Layout.size_symbol, Layout.size_append,
      Layout.size_nil] at hs
    have hi : ∀ a ∈ [inner], a.Clear d := by
      simpa using hc (.expr inner) (by simp [Expr.children])
    exact hsymbol rfl (takes_tuple hg hi (by simp [Layout.commas, Layout.sepBy]; omega))
  | .tuple (a :: b :: items) =>
    simp only [Expr.layout, Layout.parens, Layout.size_symbol, Layout.size_append,
      Layout.size_nil, Expr.layouts_eq_map] at hs
    rw [Expr.layout, Expr.layouts_eq_map]
    exact hsymbol rfl (takes_tuple hg (fun e he => hc _ (List.mem_map_of_mem he)) (by omega))
  | .placeholder place => exact takes_placeholder h
  | .wildcard table except replace => exact takes_operand_wildcard hg h hs hr

end SqlTree
