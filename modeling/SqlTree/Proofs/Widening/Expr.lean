import Mathlib
import SqlTree.Query.Grammar.Expr
import SqlTree.Proofs.Widening.Rules

/-! # Expressions in the generic dialect

* `Dialect.IsNarrow d`: the generic dialect reads what `d` reads, but for double quotes.
* `Productions.Widen d g g'`: the readers `g'` of whole trees read what the readers `g` of the
  dialect `d` read. An item to read from ends at no barred place.
* `widens_wildcard`: a narrow dialect stops in front of `EXCLUDE (`.
* `widens_expression`: whole expressions, by `widens_primary` and `widens_extend`.
-/

namespace SqlTree
set_option autoImplicit false

open Parse

/-- A dialect all of whose constructs the generic one has. -/
def Dialect.IsNarrow (d : Dialect) : Prop :=
  d = .bigQuery ∨ d = .clickHouse

/-- The second readers of whole trees read what the first ones read in a dialect. -/
structure Productions.Widen (d : Dialect) (g g' : Productions) : Prop where
  expr : ∀ power, Widens none (some d) (g.expr power) (g'.expr power)
  query : Widens none (some d) g.query g'.query
  fromItem : Widens none none g.fromItem g'.fromItem

theorem Productions.widen_exhausted (d : Dialect) :
    Productions.exhausted.Widen d Productions.exhausted :=
  ⟨fun _ => .refl _, .refl _, .refl _⟩

namespace Parse

variable {d : Dialect} {g g' : Productions}

/-! ## Lists and items -/

section Lists

variable (hg : g.Widen d g')

include hg

theorem widens_exprList : Widens none (some d) (exprList g) (exprList g') :=
  (hg.expr 0).commaList

theorem widens_selectItems : Widens none (some d) (selectItems g) (selectItems g') := by
  have hitem : Widens none (some d) (selectItem g) (selectItem g') :=
    .bind (hg.expr 0) fun _ => .ite (.pure _) (.bind widens_optionalAlias fun _ => .pure _)
  exact hitem.commaList

theorem widens_functionCall {e : Option Dialect} (name : ObjectName) :
    Widens none e (functionCall g name) (functionCall g' name) := by
  have hargument : Widens none (some d) (argument g) (argument g') :=
    .next fun _ => .ite (.bind hg.query fun _ => .pure _) (hg.expr 0)
  refine .next fun _ => .next fun _ => .next fun _ =>
    .join (.refl _) hargument.commaList fun _ => ?_
  exact .bind (.expectSymbol _ (by decide)) fun _ => .refl _

end Lists

/-! ## Wildcards -/

theorem branch_apply {α : Type} {condition : Prop} [Decidable condition] (p q : Parse α)
    (c : Cursor) : (if condition then p else q) c = if condition then p c else q c := by
  split <;> rfl

theorem wildcardExcept_apply (d : Dialect) (c : Cursor) : wildcardExcept d c =
    if d.wildcardExcept && c.peek 0 == .keyword .EXCEPT && c.peek 1 == .symbol .leftParen &&
        !(c.peek 2).keyword?.any [Keyword.SELECT, .WITH].contains then
      (advance >>= fun _ => identifiersInParens >>= fun columns =>
        pure (some ⟨.except, columns⟩) : Parse (Option WildcardExcept)) c
    else if d.wildcardExclude && c.peek 0 == .keyword .EXCLUDE && c.peek 1 == .symbol .leftParen then
      (advance >>= fun _ => identifiersInParens >>= fun columns =>
        pure (some ⟨.exclude, columns⟩) : Parse (Option WildcardExcept)) c
    else .ok none c := by
  have hexcept : keywordAt 0 .EXCEPT c = .ok (c.peek 0 == .keyword .EXCEPT) c := rfl
  have hexclude : keywordAt 0 .EXCLUDE c = .ok (c.peek 0 == .keyword .EXCLUDE) c := rfl
  have hopens : symbolAt 1 .leftParen c = .ok (c.peek 1 == .symbol .leftParen) c := rfl
  have hquery : queryAt 2 c =
      .ok ((c.peek 2).keyword?.any [Keyword.SELECT, .WITH].contains) c := rfl
  unfold wildcardExcept
  rw [bind_apply, hopens]
  dsimp only
  rw [bind_apply, hexcept]
  dsimp only
  rw [bind_apply, hquery]
  dsimp only
  rw [branch_apply]
  refine if_congr Iff.rfl rfl ?_
  rw [bind_apply, hexclude]
  dsimp only
  rw [branch_apply]
  rfl

/-- A narrow dialect takes no columns behind `EXCLUDE`, and is barred there. -/
theorem widens_wildcardExcept (hd : d.IsNarrow) :
    Widens none (some d) (wildcardExcept d) (wildcardExcept .generic) := by
  intro c a e h
  refine ⟨False.elim, ?_⟩
  have hexcept : d.wildcardExcept = Dialect.generic.wildcardExcept := by
    rcases hd with rfl | rfl <;> rfl
  have hexclude : d.wildcardExclude = false := by rcases hd with rfl | rfl <;> rfl
  rw [wildcardExcept_apply, hexcept, hexclude] at h
  rw [wildcardExcept_apply]
  split at h
  · next hc =>
    rw [if_pos hc]
    exact .inl h
  · next hc =>
    rw [if_neg hc]
    rw [if_neg (by simp)] at h
    split
    · next hbar =>
      cases h
      simp only [Bool.and_eq_true, beq_iff_eq] at hbar
      exact .inr (.inr (.inl ⟨hbar.1.2, hbar.2⟩))
    · exact .inl h

theorem widens_wildcardReplace (hd : d.IsNarrow) (hg : g.Widen d g') :
    Widens (some d) (some d) (wildcardReplace g d) (wildcardReplace g' .generic) := by
  have hreplace : d.wildcardReplace = Dialect.generic.wildcardReplace := by
    rcases hd with rfl | rfl <;> rfl
  unfold wildcardReplace
  rw [hreplace]
  refine .stays ?_ fun c hc => ?_
  · refine .next fun _ => .next fun _ => .ite ?_ (.refl _)
    exact .next fun _ => .next fun _ => .bind (widens_selectItems hg) fun _ =>
      .bind (.expectSymbol _ (by decide)) fun _ => .refl _
  · have hopens : symbolAt 1 .leftParen c = .ok (c.peek 1 == .symbol .leftParen) c := rfl
    rw [bind_apply, keywordAt_of_ne (hc.not_keyword (by decide))]
    dsimp only
    rw [bind_apply, hopens]
    exact ⟨none, rfl⟩

theorem widens_wildcard (hd : d.IsNarrow) (hg : g.Widen d g') (table : Option ObjectName) :
    Widens none (some d) (wildcard g d table) (wildcard g' .generic table) :=
  .bind (widens_wildcardExcept hd) fun _ => .bind (widens_wildcardReplace hd hg) fun _ => .pure _

section Expressions

variable (hg : g.Widen d g')

include hg

/-! ## Brackets and parentheses -/

theorem widens_parenthesized {e : Option Dialect} :
    Widens none e (parenthesized g) (parenthesized g') := by
  refine .next fun _ => .ite ?_ ?_
  · exact .next fun _ => .bind hg.query fun _ => .bind (.expectSymbol _ (by decide)) fun _ => .refl _
  · refine .next fun _ => .bind (hg.expr 0) fun _ =>
      .bind (hg.expr 0).afterComma.collect fun more => ?_
    cases more with
    | nil => exact .bind (.expectSymbol _ (by decide)) fun _ => .refl _
    | cons e more => exact .bind (.expectSymbol _ (by decide)) fun _ => .refl _

theorem widens_arrayElements {e : Option Dialect} (withWord : Bool) :
    Widens none e (arrayElements g withWord) (arrayElements g' withWord) :=
  .next fun _ => .join (.refl _) (widens_exprList hg) fun _ =>
    .bind (.expectSymbol _ (by decide)) fun _ => .refl _

theorem widens_structWithWord {e : Option Dialect} :
    Widens none e (structWithWord g) (structWithWord g') := by
  have harguments : ∀ typed,
      Widens none none (valueArguments g typed) (valueArguments g' typed) := fun _ =>
    .next fun _ => .ite (.next fun _ => .join (.refl _) (widens_selectItems hg)
      fun _ => .bind (.expectSymbol _ (by decide)) fun _ => .refl _) (.refl _)
  exact .next fun _ => .next fun _ => .next fun _ =>
    .bind (harguments _) fun _ => .refl _

/-! ## Words -/

theorem widens_castCall {e : Option Dialect} : Widens none e (castCall g) (castCall g') :=
  .next fun _ => .next fun _ => .bind (hg.expr 0) fun _ =>
    .bind (.expectKeyword _ (by decide)) fun _ => .refl _

theorem widens_caseExpr {e : Option Dialect} : Widens none e (caseExpr g) (caseExpr g') := by
  have harm : Widens (some d) (some d) (whenArm g) (whenArm g') := by
    refine .takeKeyword _ (.bind (hg.expr 0) fun _ => ?_) (.pure _) (by decide)
    exact .bind (.expectKeyword _ (by decide)) fun _ => .bind (hg.expr 0) fun _ => .pure _
  refine .next fun _ => .next fun _ =>
    .join (.refl _) (.map (hg.expr 0)) fun _ => .bind harm.collect fun _ => .ite (.fail _) ?_
  exact .bind ((hg.expr 0).afterKeyword _ (by decide)) fun _ => .bind (.expectKeyword _ (by decide)) fun _ => .refl _

theorem widens_existsTest {e : Option Dialect} : Widens none e (existsTest g) (existsTest g') :=
  .next fun _ => .bind hg.query.inParens fun _ => .refl _

variable (hd : d.IsNarrow)

include hd

theorem widens_named : Widens none (some d) (named g d) (named g' .generic) := by
  refine .next fun (first, more) => .next fun _ => .next fun _ =>
    .ite ?_ (.next fun _ => .ite ?_ (.refl _))
  · exact .next fun _ => .next fun _ => widens_wildcard hd hg _
  · exact .bind (widens_functionCall hg _) fun _ => .pure _

theorem widens_keywordPrimary (k : Keyword) :
    Widens none (some d) (keywordPrimary g d k) (keywordPrimary g' .generic k) := by
  have hstyle : d.structStyle = Dialect.generic.structStyle := by rcases hd with rfl | rfl <;> rfl
  unfold keywordPrimary
  split
  · exact .refl _
  · exact .refl _
  · exact .refl _
  · exact widens_caseExpr hg
  · exact widens_castCall hg
  · exact widens_existsTest hg
  · rw [hstyle]
    refine .next fun _ => .ite ?_ (.ite (widens_structWithWord hg) ?_)
    · exact .next fun _ => .next fun _ => widens_arrayElements hg true
    · refine .next fun _ => .ite ?_ (.ite (.fail _) (widens_named hg hd))
      exact .next fun _ => .next fun _ =>
        .bind (widens_functionCall hg _) fun _ => .pure _

theorem widens_symbolPrimary (y : Symbol) :
    Widens none (some d) (symbolPrimary g d y) (symbolPrimary g' .generic y) := by
  have hstyle : d.structStyle ≠ .duckDb := by rcases hd with rfl | rfl <;> exact nofun
  unfold symbolPrimary
  split
  · exact .refl _
  · exact .refl _
  · exact .refl _
  · exact .next fun _ => widens_wildcard hd hg none
  · exact widens_parenthesized hg
  · exact .next fun _ => widens_arrayElements hg false
  · rw [if_neg hstyle]
    exact .fail _
  · exact .fail _

theorem widens_primary : Widens none (some d) (primary g d) (primary g' .generic) := by
  refine .next fun token => ?_
  split
  · exact .refl _
  · exact .refl _
  · exact .refl _
  · exact .refl _
  · exact widens_named hg hd
  · exact widens_keywordPrimary hg hd _
  · exact widens_symbolPrimary hg hd _
  · exact .fail _

/-! ## Operators -/

theorem widens_operand : Widens none (some d) (operand g d) (operand g' .generic) := by
  refine .next fun token => ?_
  split
  · exact .next fun _ => .bind (hg.expr _) fun _ => .pure _
  · exact widens_primary hg hd

omit hd in
theorem widens_predicate (tested : Expr) (negated : Bool) :
    Widens none (some d) (predicate g tested negated) (predicate g' tested negated) := by
  refine .next fun _ => .ite ?_ (.next fun _ => .ite ?_ ?_)
  · refine .next fun _ => .next fun _ => .next fun _ => .ite ?_ ?_
    · exact .bind hg.query fun _ => .bind (.expectSymbol _ (by decide)) fun _ => .refl _
    · exact .bind (widens_exprList hg) fun _ => .bind (.expectSymbol _ (by decide)) fun _ => .refl _
  · exact .next fun _ => .bind (hg.expr _) fun _ => .bind (.expectKeyword _ (by decide)) fun _ =>
      .bind (hg.expr _) fun _ => .pure _
  · exact .next fun _ => .next fun _ => .bind (hg.expr _) fun _ => .pure _

omit hd in
/-- No operator begins at a barred place. -/
theorem widens_extend (power : Nat) (left : Expr) :
    Widens (some d) (some d) (extend g power left) (extend g' power left) := by
  refine .stays ?_ fun c hc => ?_
  · refine .next fun token => .ite (.ite (.refl _) (.refl _)) ?_
    split
    · exact .ite (.refl _) (.next fun _ => .bind (hg.expr _) fun _ => .pure _)
    · refine .ite (.refl _) (.ite (.refl _) (.ite (.next fun _ => .ite ?_ (.refl _)) ?_))
      · exact .next fun _ => .bind (widens_predicate hg left _) fun _ => .pure _
      · exact .bind (widens_predicate hg left _) fun _ => .pure _
  · refine ⟨none, ?_⟩
    rw [extend, bind_apply, current_apply]
    dsimp only
    rw [Cursor.current_kind_of_barred hc]
    rcases hc.kind with h | h | h <;> rw [h] <;> rfl

theorem widens_expression (power : Nat) :
    Widens none (some d) (expression g d power) (expression g' .generic power) :=
  .bind (widens_operand hg hd) fun e => .repeatFrom (widens_extend hg power) e

end Expressions

end Parse
end SqlTree
