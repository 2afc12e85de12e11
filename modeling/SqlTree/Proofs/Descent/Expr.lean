import Mathlib
import SqlTree.Query.Grammar.Expr
import SqlTree.Proofs.Descent.Name

/-! # The readers of expressions come to an end

* `Productions.Last r g g'`: inside a tree that begins at `r` the readers `g` do what `g'` do, and
  do not run out.
* `consumes_primary`: expressions without operators around them.
* `consumes_expression`: an operand with everything behind it.
-/

namespace SqlTree
set_option autoImplicit false

open Parse

/-- The readers `g` do what `g'` do, and each of them takes a token and does not run out. -/
structure Productions.Last (r : Outset) (g g' : Productions) : Prop where
  expr : ∀ power, Consumes r (g.expr power) (g'.expr power)
  query : Consumes r g.query g'.query
  fromItem : Consumes r g.fromItem g'.fromItem

theorem Productions.Last.inside {r : Outset} {g g' : Productions} (h : g.Last r g') :
    g.Last r.inside g' :=
  ⟨fun power => (h.expr power).inside, h.query.inside, h.fromItem.inside⟩

namespace Parse

variable {r : Outset} {k : Nat} {g g' : Productions} {d : Dialect}

/-! ## Lists and items -/

section Items

variable (hg : g.Last r g')
include hg

theorem consumes_exprList : Consumes r (exprList g) (exprList g') :=
  lasts_commaList (hg.expr 0)

theorem consumes_selectItem : Consumes r (selectItem g) (selectItem g') :=
  .after (hg.expr 0) fun _ => .ite (fun _ => .pure _) fun _ =>
    .next lasts_optionalAlias fun _ => .pure _

theorem consumes_selectItems : Consumes r (selectItems g) (selectItems g') :=
  lasts_commaList (consumes_selectItem hg)

theorem consumes_argument : Consumes r (argument g) (argument g') :=
  .anyKeywordAt 0 _ (.after (hg.query.knowing (Nat.zero_le _)) fun _ => .pure _) (hg.expr 0)

end Items

theorem consumes_functionCall (hg : g.Last r.inside g') (name : ObjectName) :
    Consumes r (functionCall g name) (functionCall g' name) := by
  refine .expectSymbol .leftParen (.next (lasts_takeKeyword _) fun distinct => ?_)
  refine .look (fun _ => rfl) fun _ => ?_
  refine .join (fun _ => .pure _) (fun _ => (lasts_commaList (consumes_argument hg)).still) fun _ => ?_
  exact .expectSymbol .rightParen (.pure _)

/-! ## Wildcards -/

theorem lasts_wildcardExcept : Lasts r (wildcardExcept d) (wildcardExcept d) := by
  have hcolumns : ∀ word : ExceptWord, Lasts r
      (advance >>= fun _ => identifiersInParens >>= fun columns =>
        pure (some ⟨word, columns⟩ : Option WildcardExcept))
      (advance >>= fun _ => identifiersInParens >>= fun columns => pure (some ⟨word, columns⟩)) :=
    fun _ => .next lasts_advance fun _ => .next consumes_identifiersInParens fun _ => .pure _
  refine .look (fun _ => rfl) fun _ => .look (fun _ => rfl) fun _ => .look (fun _ => rfl) fun _ => ?_
  refine .ite (fun _ => hcolumns _) fun _ => .look (fun _ => rfl) fun _ => ?_
  exact .ite (fun _ => hcolumns _) fun _ => .pure _

variable (hg : g.Last r.inside g')

section Columns

include hg

theorem lasts_wildcardReplace : Lasts r (wildcardReplace g d) (wildcardReplace g' d) := by
  refine .look (fun _ => rfl) fun _ => .symbolAt 1 .leftParen ?_ (.ite (fun h => ?_) fun _ => .pure _)
  · refine .ite (fun _ => .advance (.advance ?_)) fun _ => .pure _
    exact .next (consumes_selectItems hg) fun _ => .expectSymbol .rightParen (.pure _)
  · rw [Bool.and_false] at h
    cases h

theorem lasts_wildcard (table : Option ObjectName) :
    Lasts r (wildcard g d table) (wildcard g' d table) :=
  .next lasts_wildcardExcept fun _ => .next (lasts_wildcardReplace hg) fun _ => .pure _

/-! ## Columns and calls -/

theorem consumes_named : Consumes r (named g d) (named g' d) := by
  refine .after consumes_dottedName fun ⟨first, more⟩ => ?_
  refine .look (fun _ => rfl) fun _ => .look (fun _ => rfl) fun _ => .ite (fun _ => ?_) fun _ => ?_
  · exact .next lasts_advance fun _ => .next lasts_advance fun _ => lasts_wildcard hg.inside _
  · exact .look (fun _ => rfl) fun _ => .ite
      (fun _ => .next (consumes_functionCall hg.inside _) fun _ => .pure _) fun _ => .pure _

/-! ## Brackets, braces and parentheses -/

/-- The opening parenthesis is under the cursor. -/
theorem lasts_parenthesized :
    LastsFrom r 1 (fun _ => True) (parenthesized g) (parenthesized g') := by
  refine .look (fun _ => rfl) fun _ => .ite (fun _ => ?_) fun _ => ?_
  · exact .advance (.next hg.query fun _ => .expectSymbol .rightParen (.pure _))
  · refine .expectSymbol .leftParen (.next (hg.expr 0) fun first => ?_)
    refine .next (rounds_afterComma (r := r.inside) (hg.expr 0)).collect fun more => ?_
    cases more with
    | nil => exact .expectSymbol .rightParen (.pure _)
    | cons e es => exact .expectSymbol .rightParen (.pure _)

omit hg in
theorem lasts_arrayElements (hg : g.Last r g') (withWord : Bool) :
    Lasts r (arrayElements g withWord) (arrayElements g' withWord) := by
  refine .look (fun _ => rfl) fun _ =>
    .join (fun _ => .pure _) (fun _ => (consumes_exprList hg).still) fun _ => ?_
  exact .expectSymbol .rightBracket (.pure _)

end Columns

theorem lasts_valueFields : Lasts r valueFields valueFields :=
  .takeSymbol .less
    (.next (consumes_structFields true) fun _ => .next lasts_closingAngle fun _ => .pure _) (.pure _)

section Structs

include hg

theorem lasts_valueArguments (typed : Bool) :
    Lasts r (valueArguments g typed) (valueArguments g' typed) := by
  refine .takeSymbol .leftParen (.look (fun _ => rfl) fun _ => ?_) ?_
  · refine .join (fun _ => .pure _) (fun _ => (consumes_selectItems hg).still) fun _ => ?_
    exact .expectSymbol .rightParen (.pure _)
  · exact .ite nofun fun _ => .ite (fun _ => .pure _) fun _ => .fail _

/-- The word of a struct value is under the cursor. -/
theorem lasts_structWithWord :
    LastsFrom r 1 (fun _ => True) (structWithWord g) (structWithWord g') := by
  refine .look (fun _ => rfl) fun _ => .advance (.next lasts_valueFields fun _ => ?_)
  exact .next (lasts_valueArguments hg.inside _) fun _ => .pure _

omit hg in
theorem consumes_fieldKey : Consumes r fieldKey fieldKey := by
  refine .token fun kind _ _ => ?_
  cases kind with
  | string content => exact .advance (.pure _)
  | _ => exact consumes_identifier.knowing (Nat.zero_le _)

theorem consumes_keyedField : Consumes r (keyedField g) (keyedField g') :=
  .after consumes_fieldKey fun _ => .expectSymbol .colon (.next (hg.expr 0) fun _ => .pure _)

theorem consumes_structInBraces : Consumes r (structInBraces g) (structInBraces g') := by
  refine .expectSymbol .leftBrace (.look (fun _ => rfl) fun _ => ?_)
  refine .join (fun _ => .pure _) (fun _ => (lasts_commaList (consumes_keyedField hg.inside)).still)
    fun _ => ?_
  exact .expectSymbol .rightBrace (.pure _)

/-! ## Words -/

theorem consumes_castCall : Consumes r (castCall g) (castCall g') := by
  refine .expectKeyword .CAST (.expectSymbol .leftParen (.next (hg.expr 0) fun _ => ?_))
  exact .expectKeyword .AS (.next consumes_dataType fun _ => .expectSymbol .rightParen (.pure _))

theorem rounds_whenArm : Rounds r (whenArm g) (whenArm g') := by
  refine .takeKeyword .WHEN (.next (hg.expr 0) fun _ => ?_) .nothing
  exact .expectKeyword .THEN (.next (hg.expr 0) fun _ => .pure _)

theorem consumes_caseExpr : Consumes r (caseExpr g) (caseExpr g') := by
  have hoperand : Lasts r.inside (some <$> g.expr 0) (some <$> g'.expr 0) := by
    rw [map_eq_pure_bind, map_eq_pure_bind]
    exact .next (hg.expr 0) fun _ => .pure _
  refine .expectKeyword .CASE (.look (fun _ => rfl) fun _ => ?_)
  refine .join (fun _ => .pure _) (fun _ => hoperand) fun _ => ?_
  refine .next (rounds_whenArm hg.inside).collect fun arms => .ite (fun _ => .fail _) fun _ => ?_
  refine .next (rounds_afterKeyword (r := r.inside) .ELSE (hg.expr 0)) fun _ => ?_
  exact .expectKeyword .END (.pure _)

theorem consumes_existsTest : Consumes r (existsTest g) (existsTest g') :=
  .expectKeyword .EXISTS (.next (lasts_inParens (r := r.inside) hg.query) fun _ => .pure _)

end Structs

/-- The sigil is under the cursor. -/
theorem lasts_namedPlaceholder (sigil : Char) :
    LastsFrom r 1 (fun _ => True) (namedPlaceholder sigil) (namedPlaceholder sigil) :=
  .advance (.next consumes_identifier fun _ => .pure _)

/-- A constant is a token. -/
theorem lasts_literal (value : Literal) : LastsFrom r 1 (fun _ => True)
    (advance >>= fun _ => pure (.literal value) : Parse Expr)
    (advance >>= fun _ => pure (.literal value)) :=
  .advance (.pure _)

section Primary

include hg

/-- The word is under the cursor. -/
theorem lasts_keywordPrimary (w : Keyword) :
    LastsFrom r 1 (fun _ => True) (keywordPrimary g d w) (keywordPrimary g' d w) := by
  unfold keywordPrimary
  split
  · exact lasts_literal _
  · exact lasts_literal _
  · exact lasts_literal _
  · exact (consumes_caseExpr hg).knowing (Nat.zero_le _)
  · exact (consumes_castCall hg).knowing (Nat.zero_le _)
  · exact (consumes_existsTest hg).knowing (Nat.zero_le _)
  · refine .look (fun _ => rfl) fun _ => .ite (fun _ => ?_) fun _ => ?_
    · exact .advance (.next lasts_advance fun _ => lasts_arrayElements hg true)
    refine .ite (fun _ => lasts_structWithWord hg) fun _ => ?_
    refine .look (fun _ => rfl) fun _ => .ite (fun _ => .look (fun _ => rfl) fun _ => ?_) fun _ => ?_
    · exact .advance (.next (consumes_functionCall hg.inside _) fun _ => .pure _)
    · exact .ite (fun _ => .fail _) fun _ => (consumes_named hg).knowing (Nat.zero_le _)

/-- The symbol is under the cursor. -/
theorem lasts_symbolPrimary (s : Symbol) :
    LastsFrom r 1 (fun _ => True) (symbolPrimary g d s) (symbolPrimary g' d s) := by
  unfold symbolPrimary
  split
  · exact .advance (.next lasts_nextPlaceholder fun _ => .pure _)
  · exact lasts_namedPlaceholder _
  · exact lasts_namedPlaceholder _
  · exact .advance (lasts_wildcard hg.inside none)
  · exact lasts_parenthesized hg
  · exact .advance (lasts_arrayElements hg false)
  · exact .ite (fun _ => (consumes_structInBraces hg).knowing (Nat.zero_le _)) fun _ => .fail _
  · exact .fail _

theorem consumes_primary : Consumes r (primary g d) (primary g' d) := by
  refine .token fun kind _ _ => ?_
  cases kind with
  | integer digits => exact lasts_literal _
  | float digits => exact lasts_literal _
  | string content => exact lasts_literal _
  | blob bytes => exact lasts_literal _
  | identifier name quote => exact (consumes_named hg).knowing (Nat.zero_le _)
  | keyword w => exact lasts_keywordPrimary hg w
  | symbol s => exact lasts_symbolPrimary hg s
  | endOfInput => exact .fail _

/-! ## Operators -/

theorem consumes_operand : Consumes r (operand g d) (operand g' d) := by
  refine .token fun kind _ _ => ?_
  cases hop : UnaryOp.ofToken? kind with
  | some op =>
    have hkind : kind ≠ .endOfInput := by
      rintro rfl
      cases hop
    rw [LastsFrom.sight_of_ne hkind]
    exact .advance (.next (hg.expr _) fun _ => .pure _)
  | none => exact (consumes_primary hg).knowing (Nat.zero_le _)

/-! ## Predicates -/

variable (tested : Expr) (negated : Bool)

theorem consumes_membership :
    Consumes r (membership g tested negated) (membership g' tested negated) := by
  refine .expectKeyword .IN (.expectSymbol .leftParen (.look (fun _ => rfl) fun _ => ?_))
  refine .ite (fun _ => ?_) fun _ => ?_
  · exact .next hg.query fun _ => .expectSymbol .rightParen (.pure _)
  · exact .next (consumes_exprList hg) fun _ => .expectSymbol .rightParen (.pure _)

theorem consumes_betweenTest :
    Consumes r (betweenTest g tested negated) (betweenTest g' tested negated) := by
  refine .expectKeyword .BETWEEN (.next (hg.expr _) fun _ => ?_)
  exact .expectKeyword .AND (.next (hg.expr _) fun _ => .pure _)

theorem lasts_likeTest :
    LastsFrom r 1 (fun _ => True) (likeTest g tested negated) (likeTest g' tested negated) :=
  .look (fun _ => rfl) fun _ => .advance (.next (hg.expr _) fun _ => .pure _)

omit hg in
theorem consumes_nullTest : Consumes r (nullTest tested) (nullTest tested) :=
  .expectKeyword .IS (.next (lasts_takeKeyword _) fun _ => .expectKeyword .NULL (.pure _))

/-- The first word of a predicate is under the cursor. -/
theorem lasts_predicate :
    LastsFrom r 1 (fun _ => True) (predicate g tested negated) (predicate g' tested negated) := by
  refine .look (fun _ => rfl) fun _ => .ite (fun _ => ?_) fun _ => .look (fun _ => rfl) fun _ => ?_
  · exact (consumes_membership hg tested negated).knowing (Nat.zero_le _)
  · exact .ite (fun _ => (consumes_betweenTest hg tested negated).knowing (Nat.zero_le _))
      fun _ => lasts_likeTest hg tested negated

theorem rounds_extend (power : Nat) (left : Expr) :
    Rounds r (extend g power left) (extend g' power left) := by
  refine .token fun kind _ _ => ?_
  dsimp only
  by_cases hcolon : kind = .symbol .doubleColon
  · rw [if_pos hcolon, if_pos hcolon, hcolon]
    exact .ite (fun _ => .nothing) fun _ => .advance (.next consumes_dataType fun _ => .pure _)
  rw [if_neg hcolon, if_neg hcolon]
  cases hop : BinaryOp.ofToken? kind with
  | some op =>
    have hkind : kind ≠ .endOfInput := by
      rintro rfl
      cases hop
    rw [LastsFrom.sight_of_ne hkind]
    exact .ite (fun _ => .nothing) fun _ => .advance (.next (hg.expr _) fun _ => .pure _)
  | none =>
    refine .ite (fun _ => .nothing) fun hword => ?_
    obtain ⟨w, rfl⟩ : ∃ w, kind = .keyword w := by
      cases kind with
      | keyword w => exact ⟨w, rfl⟩
      | _ => simp [TokenKind.keyword?] at hword
    refine .ite (fun _ => ?_) fun _ => .ite (fun _ => ?_) fun _ => ?_
    · exact .after ((consumes_nullTest left).knowing (Nat.zero_le _)) fun _ => .pure _
    · refine .anyKeywordAt 1 _ (.advance ?_) .nothing
      exact .after (lasts_predicate hg.inside left true) fun _ => .pure _
    · exact .after (lasts_predicate hg left false) fun _ => .pure _

theorem consumes_expression (power : Nat) :
    Consumes r (expression g d power) (expression g' d power) :=
  .after (consumes_operand hg) fun e => lasts_repeatFrom (rounds_extend hg.inside power) e

end Primary

end Parse
end SqlTree
