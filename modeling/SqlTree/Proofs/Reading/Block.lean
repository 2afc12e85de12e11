import Mathlib
import SqlTree.Proofs.Reading.From
import SqlTree.Query.Grammar.Select

/-! # Blocks are read back

* `clauseRank`: the place of a clause in a query, by the token that it begins with.
* `Ends d l n r`: behind what is written as `l` stands no clause of a lower rank than `n`.
* `takes_select`: a block is read back by readers of everything shorter.

The clauses of a query come in the order of their ranks, and each may be missing. So what stands
behind a clause is always one of a higher rank, and none of them goes on with an expression.
-/

namespace SqlTree
set_option autoImplicit false

open Parse

variable {d : Dialect} {g : Productions} {bound : Nat} {l r : Layout} {n : Nat}

/-! ## The order of the clauses -/

/-- The place of a clause in a query, by the token that it begins with. What ends a query comes
last. -/
def clauseRank : TokenKind → Option Nat
  | .keyword .FROM => some 0
  | .keyword .WHERE => some 1
  | .keyword .GROUP => some 2
  | .keyword .HAVING => some 3
  | .keyword .QUALIFY => some 4
  | .keyword .UNION | .keyword .INTERSECT | .keyword .EXCEPT => some 5
  | .keyword .ORDER => some 6
  | .keyword .LIMIT => some 7
  | .keyword .OFFSET => some 8
  | .endOfInput | .symbol .rightParen | .symbol .semicolon | .keyword .ON => some 9
  | _ => none

/-- Behind what is written as `l` stands no clause of a lower rank than `n`, and none that goes on
with a wildcard. -/
structure Ends (d : Dialect) (l : Layout) (n : Nat) (r : Layout) : Prop where
  rank : ∃ k ∈ clauseRank (kindAhead d.dq r 0), n ≤ k
  star : l.getLast? = some (.symbol .star) → opensExcept d r = false

/-- What is true of all tokens that clauses begin with. -/
theorem clauseRank_cases {P : TokenKind → Prop} {kind : TokenKind} {k : Nat}
    (h : clauseRank kind = some k) (hk : P (.keyword .FROM) ∧ P (.keyword .WHERE) ∧
      P (.keyword .GROUP) ∧ P (.keyword .HAVING) ∧ P (.keyword .QUALIFY) ∧ P (.keyword .UNION) ∧
      P (.keyword .INTERSECT) ∧ P (.keyword .EXCEPT) ∧ P (.keyword .ORDER) ∧ P (.keyword .LIMIT) ∧
      P (.keyword .OFFSET) ∧ P .endOfInput ∧ P (.symbol .rightParen) ∧ P (.symbol .semicolon) ∧
      P (.keyword .ON)) : P kind := by
  unfold clauseRank at h
  split at h <;> first | (simp at h; done) | tauto

namespace Ends

theorem suffix {l' : Layout} (h : Ends d (l ++ l') n r) : Ends d l' n r := by
  refine ⟨h.rank, fun hl => h.star ?_⟩
  rw [List.getLast?_append, hl, Option.some_or]

theorem breaks (h : Ends d l n r) : Breaks d l r := by
  obtain ⟨⟨k, hk, -⟩, hs⟩ := h
  have hb : breaksExpr (kindAhead d.dq r 0) = true ∨ kindAhead d.dq r 0 = .keyword .EXCEPT :=
    clauseRank_cases (P := fun kind => breaksExpr kind = true ∨ kind = .keyword .EXCEPT) hk
      (by decide)
  exact hb.imp_right fun he => ⟨he, hs⟩

theorem ne (h : Ends d l n r) {kind : TokenKind} (hk : ∀ k ∈ clauseRank kind, k < n) :
    kindAhead d.dq r 0 ≠ kind := by
  rintro rfl
  obtain ⟨k, hk', hn⟩ := h.rank
  exact absurd (hk k hk') (by omega)

theorem endsJoins (h : Ends d l n r) : endsJoins (kindAhead d.dq r 0) = true := by
  obtain ⟨⟨k, hk, -⟩, -⟩ := h
  exact clauseRank_cases (P := fun kind => SqlTree.endsJoins kind = true) hk (by decide)

theorem ne_of_not_endsJoins (h : Ends d l n r) {kind : TokenKind}
    (hk : SqlTree.endsJoins kind = false) : kindAhead d.dq r 0 ≠ kind := by
  rintro rfl
  simp [h.endsJoins] at hk

theorem startsName (h : Ends d l n r) : startsName (kindAhead d.dq r 0) = false := by
  have hj := h.endsJoins
  simp only [SqlTree.endsJoins, endsItem, Bool.and_eq_true, Bool.not_eq_true'] at hj
  exact hj.1.1

theorem head (h : Ends d l n r) : r.head? ≠ some .closingAngle :=
  h.breaks.head

/-- A clause that may be missing is in front of what stands behind it. -/
theorem clause {m : Nat} {c : Layout} {k : Keyword} (h : Ends d (l ++ c) m r) (hm : n ≤ m)
    (hc : c = [] ∨ ∃ l', c.solid = .keyword k :: l')
    (hk : k ≠ .EXCEPT ∧ ∃ j ∈ clauseRank (.keyword k), n ≤ j) :
    Ends d l n (c.solid ++ r) := by
  obtain ⟨hne, hk⟩ := hk
  rcases hc with rfl | ⟨l', hc⟩
  · rw [List.append_nil] at h
    obtain ⟨⟨j, hj, hn⟩, hs⟩ := h
    exact ⟨⟨j, hj, hm.trans hn⟩, hs⟩
  · rw [hc]
    exact ⟨hk, fun _ => opensExcept_of_ne (by simpa using hne)⟩

end Ends

theorem optional_cases {α : Type} (k : Keyword) (ks : List Keyword) (lay : α → Layout)
    (o : Option α) : Layout.optional (fun a => Layout.behind (k :: ks) (lay a)) o = [] ∨
      ∃ l', (Layout.optional (fun a => Layout.behind (k :: ks) (lay a)) o).solid =
        .keyword k :: l' := by
  cases o with
  | none => exact .inl rfl
  | some a => exact .inr ⟨_, Layout.solid_behind _ _⟩

theorem onlyIf_cases (k : Keyword) (ks : List Keyword) (condition : Bool) (c : Layout) :
    Layout.onlyIf condition (Layout.behind (k :: ks) c) = [] ∨
      ∃ l', (Layout.onlyIf condition (Layout.behind (k :: ks) c)).solid = .keyword k :: l' := by
  cases condition with
  | false => exact .inl rfl
  | true => exact .inr ⟨_, Layout.solid_behind _ _⟩

/-! ## The clauses of a block -/

section Readers

variable (hg : g.Reads d bound)
include hg

/-- An expression behind a keyword, if it is there. -/
theorem takes_exprClause {k : Keyword} {e : Option Expr} (h : ∀ a ∈ e, a.Clear d)
    (hs : (Layout.optional (fun e => Layout.behind [k] e.layout) e).size ≤ bound)
    (hr : Ends d (Layout.optional (fun e => Layout.behind [k] e.layout) e) n r)
    (hk : ∀ j ∈ clauseRank (.keyword k), j < n) :
    Takes d.dq (afterKeyword k (g.expr 0))
      ((Layout.optional (fun e => Layout.behind [k] e.layout) e).solid ++ r) e r := by
  cases e with
  | none => exact takes_afterKeyword_none (hr.ne hk)
  | some e =>
    have hlay : Layout.optional (fun e => Layout.behind [k] e.layout) (some e) =
        [.gap, .keyword k, .gap] ++ e.layout := rfl
    rw [hlay] at hs hr
    simp only [Layout.size_append, Layout.size_gap, Layout.size_keyword, Layout.size_nil] at hs
    exact takes_afterKeyword_some (takes_expr hg (h e rfl) (by omega) hr.suffix.breaks)

theorem takes_groupClause {es : List Expr} (h : ∀ e ∈ es, e.Clear d)
    (hs : (Layout.onlyIf (!es.isEmpty)
      (Layout.behind [.GROUP, .BY] (Layout.commas (es.map Expr.layout)))).size ≤ bound)
    (hr : Ends d (Layout.onlyIf (!es.isEmpty)
      (Layout.behind [.GROUP, .BY] (Layout.commas (es.map Expr.layout)))) 3 r) :
    Takes d.dq (groupClause g)
      ((Layout.onlyIf (!es.isEmpty)
        (Layout.behind [.GROUP, .BY] (Layout.commas (es.map Expr.layout)))).solid ++ r) es r := by
  cases es with
  | nil => exact (takes_takeKeyword_no (hr.ne (by decide))).bind (.pure [] r)
  | cons e es =>
    have hlay : Layout.onlyIf (!(e :: es).isEmpty)
        (Layout.behind [.GROUP, .BY] (Layout.commas ((e :: es).map Expr.layout))) =
        [.gap, .keyword .GROUP, .gap, .keyword .BY, .gap] ++
          Layout.commas ((e :: es).map Expr.layout) := rfl
    rw [hlay] at hs hr ⊢
    simp only [Layout.size_append, Layout.size_gap, Layout.size_keyword, Layout.size_nil] at hs
    have hlist := takes_exprList hg (by simp) h (by omega) hr.suffix.breaks
      (hr.ne_of_not_endsJoins rfl)
    exact (takes_takeKeyword_yes _ _).bind ((takes_expectKeyword _ _).bind hlist)

theorem takes_fromClause {source : Option FromItem} {joins : List Join}
    (hsource : source = none → joins = []) (h : ∀ i ∈ source, i.Clear d)
    (hl : ∀ j ∈ joins, j.Legal d.dq) (hj : ∀ j ∈ joins, ∀ p ∈ j.parts, p.Obeys (Part.Clear d))
    (hs : (Layout.optional (fun item => Layout.behind [.FROM] (item.layout ++ Join.layouts joins))
      source).size ≤ bound)
    (hr : Ends d (Layout.optional
      (fun item => Layout.behind [.FROM] (item.layout ++ Join.layouts joins)) source) 1 r)
    (ho : Join.endOpen joins = true → kindAhead d.dq r 0 ≠ .keyword .ON) :
    Takes d.dq (fromClause g)
      ((Layout.optional (fun item => Layout.behind [.FROM] (item.layout ++ Join.layouts joins))
        source).solid ++ r) (source, joins) r := by
  cases source with
  | none =>
    obtain rfl := hsource rfl
    exact (takes_takeKeyword_no (hr.ne (by decide))).bind (.pure _ r)
  | some item =>
    have hlay : Layout.optional
        (fun item : FromItem => Layout.behind [.FROM] (item.layout ++ Join.layouts joins)) (some item) =
        [.gap, .keyword .FROM, .gap] ++ (item.layout ++ Join.layouts joins) := rfl
    rw [hlay] at hs hr ⊢
    simp only [Layout.size_append, Layout.size_gap, Layout.size_keyword, Layout.size_nil] at hs
    have hends := hr.endsJoins
    have hitem := hg.fromItem item (h item rfl) (by omega) ((Join.layouts joins).solid ++ r)
      (Join.ahead_layouts (by simp only [endsJoins, Bool.and_eq_true] at hends; exact hends.1) joins)
    have hjoins := takes_joins hg hr.head hends hl hj (by omega) hr.suffix.suffix.breaks ho
    simp only [Layout.solid_append, Layout.solid_gap, Layout.solid_keyword, List.cons_append,
      List.nil_append, List.append_assoc]
    exact (takes_takeKeyword_yes _ _).bind (hitem.bind (hjoins.bind (.pure _ r)))

omit hg in
theorem takes_distinctWord (distinct : Bool) (hr : ∀ k ∈ [Keyword.DISTINCT, .ALL],
    kindAhead d.dq r 0 ≠ .keyword k) :
    Takes d.dq distinctWord
      ((Layout.onlyIf distinct [.keyword .DISTINCT, .gap]).solid ++ r) distinct r := by
  cases distinct with
  | true => exact (takes_takeKeyword_yes _ r).bind (.pure true r)
  | false =>
    refine (takes_takeKeyword_no (hr .DISTINCT (by simp))).bind ?_
    exact (takes_takeKeyword_no (hr .ALL (by simp))).bind (.pure false r)

/-- A block is read back in front of what is none of its clauses. -/
theorem takes_select {s : Select} (h : (Part.block s).Obeys (Part.Clear d))
    (hs : s.layout.size ≤ bound) (hr : Ends d s.layout 5 r)
    (ho : s.endsOpen = true → kindAhead d.dq r 0 ≠ .keyword .ON) :
    Takes d.dq (select g) (s.layout.solid ++ r) s r := by
  obtain ⟨⟨⟨hitems, hsource, hjoins⟩, hf⟩, hc⟩ := Part.obeys_iff.1 h
  obtain ⟨distinct, items, source, joins, condition, groupBy, having, qualify⟩ := s
  dsimp only at hitems hsource hjoins hf
  simp only [Part.children, Select.children, Part.exprs, SelectItem.parts, List.map_append,
    List.forall_mem_append, List.forall_mem_map, List.forall_mem_flatMap, Option.mem_toList] at hc
  obtain ⟨⟨⟨hci, hcs⟩, hcj⟩, ⟨⟨hcw, hcg⟩, hch⟩, hcq⟩ := hc
  rw [Select.layout_eq] at hs hr ⊢
  simp only [Layout.size_append] at hs
  -- What stands behind each of the clauses, the last one first.
  have hq := hr.clause (n := 4) (by omega) (optional_cases .QUALIFY [] Expr.layout qualify)
    (by decide)
  have hh := hq.clause (n := 3) (by omega) (optional_cases .HAVING [] Expr.layout having)
    (by decide)
  have hg' := hh.clause (n := 2) (by omega) (onlyIf_cases .GROUP [.BY] (!groupBy.isEmpty)
    (Layout.commas (groupBy.map Expr.layout))) (by decide)
  have hw := hg'.clause (n := 1) (by omega) (optional_cases .WHERE [] Expr.layout condition)
    (by decide)
  have hfrom := hw.clause (n := 0) (by omega) (optional_cases .FROM []
    (fun item : FromItem => item.layout ++ Join.layouts joins) source) (by decide)
  have hopen : Join.endOpen joins = true → kindAhead d.dq
      ((Layout.optional (fun e => Layout.behind [.WHERE] e.layout) condition).solid ++
        ((Layout.onlyIf (!groupBy.isEmpty)
          (Layout.behind [.GROUP, .BY] (Layout.commas (groupBy.map Expr.layout)))).solid ++
          ((Layout.optional (fun e => Layout.behind [.HAVING] e.layout) having).solid ++
            ((Layout.optional (fun e => Layout.behind [.QUALIFY] e.layout) qualify).solid ++ r)))) 0 ≠
        .keyword .ON := by
    intro hj
    cases condition with
    | some e => simp
    | none =>
      cases groupBy with
      | cons e es => simp [Layout.onlyIf]
      | nil =>
        cases having with
        | some e => simp [Layout.onlyIf]
        | none =>
          cases qualify with
          | some e => simp [Layout.onlyIf]
          | none => simpa [Layout.onlyIf] using ho (by simp [Select.endsOpen, hj])
  have htail := takes_fromClause hg hsource hcs hjoins hcj (by omega) hw.suffix hopen
  have hwhere := takes_exprClause hg hcw (by omega) hg'.suffix (by decide)
  have hgroup := takes_groupClause hg hcg (by omega) hh.suffix
  have hhaving := takes_exprClause hg hch (by omega) hq.suffix (by decide)
  have hqualify := takes_exprClause hg hcq (by omega) hr.suffix (by decide)
  have hlist := takes_selectItems hg hitems hci hf
    (by simp only [Layout.size_keyword, Layout.size_gap] at hs; omega) hfrom.suffix.breaks
    hfrom.startsName (hfrom.ne_of_not_endsJoins rfl) (hfrom.ne_of_not_endsJoins rfl)
  simp only [Layout.solid_append, Layout.solid_keyword, Layout.solid_gap, List.cons_append,
    List.append_assoc]
  refine (takes_expectKeyword _ _).bind ((takes_distinctWord distinct ?_).bind ?_)
  · obtain ⟨hne, -⟩ := hitems
    cases items with
    | nil => contradiction
    | cons i items =>
      obtain ⟨expr, alias?⟩ := i
      simp only [List.map_cons, Layout.commas, solid_sepBy, SelectItem.layout, Layout.solid_append,
        List.append_assoc, List.forall_mem_cons]
      have hi := hci ⟨expr, alias?⟩ (by simp)
      exact ⟨expr.kindAhead_ne hi _ rfl, expr.kindAhead_ne hi _ rfl, by simp⟩
  refine hlist.bind (htail.bind (hwhere.bind (hgroup.bind (hhaving.bind (hqualify.bind ?_)))))
  exact .pure _ r

end Readers

end SqlTree
