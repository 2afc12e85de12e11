import Mathlib
import SqlTree.Query.Grammar.Expr
import SqlTree.Proofs.Tracking.Name

/-! # Where the readers of expressions lead

* `Productions.Track g`: the readers `g` of whole trees lead on, with fresh numbers.
* `tracks_primary`: expressions without operators around them. A question mark gets the next number.
* `tracks_expression`: an operand with everything behind it.

What an answer is made of is what was read for it, so most answers hold just the parts held.
-/

namespace SqlTree
set_option autoImplicit false

open Parse

/-- The readers of whole trees lead on, with fresh numbers. -/
structure Productions.Track (g : Productions) : Prop where
  expr : ∀ power, Tracks (fun e => [.expr e]) (g.expr power)
  query : Tracks (fun q => [.query q]) g.query
  fromItem : Tracks (fun i => [.item i]) g.fromItem

theorem Productions.track_exhausted : Productions.exhausted.Track :=
  ⟨fun _ => .stop _, .stop _, .stop _⟩

namespace Parse

variable {g : Productions} {d : Dialect}

/-! ## Lists and items -/

section Expressions

variable (hg : g.Track)

include hg

theorem tracks_exprList : Tracks Part.exprs (exprList g) :=
  (hg.expr 0).commaList.congr fun _ => List.map_eq_flatMap ..

theorem tracks_selectItem : Tracks (fun i => [.expr i.expr]) (selectItem g) :=
  .bind (hg.expr 0) fun _ => .ite (.same rfl) (.next moves_optionalAlias fun _ => .same rfl)

theorem tracks_selectItems : Tracks SelectItem.parts (selectItems g) :=
  (tracks_selectItem hg).commaList.congr fun _ => List.map_eq_flatMap ..

theorem tracks_argument : Tracks (fun e => [.expr e]) (argument g) :=
  .next (moves_queryAt 0) fun _ => .ite (.bind hg.query fun _ => .node rfl rfl rfl) (hg.expr 0)

theorem tracks_functionCall (name : ObjectName) :
    Tracks (fun c => Part.exprs c.arguments) (functionCall g name) := by
  have harguments : Tracks Part.exprs (commaList (argument g)) :=
    (tracks_argument hg).commaList.congr fun _ => List.map_eq_flatMap ..
  refine .next (moves_expectSymbol _) fun _ => .next (moves_takeKeyword _) fun _ =>
    .next (moves_symbolAt 0 _) fun _ => .join (.same rfl) harguments fun _ => ?_
  exact .next (moves_expectSymbol _) fun _ => .same rfl

/-! ## Wildcards -/

omit hg in
theorem moves_wildcardExcept : Moves (wildcardExcept d) := by
  have hcolumns : ∀ word : ExceptWord, Moves (advance >>= fun _ => identifiersInParens >>=
      fun columns => pure (some ⟨word, columns⟩ : Option WildcardExcept)) := fun _ =>
    .next moves_advance fun _ => .next moves_identifiersInParens fun _ => .same rfl
  refine .next (moves_symbolAt 1 _) fun _ => .next (moves_keywordAt 0 _) fun _ =>
    .next (moves_queryAt 2) fun _ => .ite (hcolumns _) ?_
  exact .next (moves_keywordAt 0 _) fun _ => .ite (hcolumns _) (.same rfl)

theorem tracks_wildcard (table : Option ObjectName) :
    Tracks (fun e => [.expr e]) (wildcard g d table) := by
  have hreplace : Tracks (optionalParts SelectItem.parts) (wildcardReplace g d) := by
    refine .next (moves_keywordAt 0 _) fun _ => .next (moves_symbolAt 1 _) fun _ => .ite ?_ (.same rfl)
    exact .next moves_advance fun _ => .next moves_advance fun _ =>
      .bind (tracks_selectItems hg) fun _ => .next (moves_expectSymbol _) fun _ => .same rfl
  refine .next moves_wildcardExcept fun _ => .bind hreplace fun items => .node rfl rfl ?_
  cases items <;> rfl

/-! ## Columns and calls -/

theorem tracks_named : Tracks (fun e => [.expr e]) (named g d) := by
  refine .next moves_dottedName fun (first, more) => .next (moves_symbolAt 0 _) fun _ =>
    .next (moves_symbolAt 1 _) fun _ => .ite ?_ (.next (moves_symbolAt 0 _) fun _ => .ite ?_ ?_)
  · exact .next moves_advance fun _ => .next moves_advance fun _ => tracks_wildcard hg _
  · exact .bind (tracks_functionCall hg _) fun _ => .node rfl rfl rfl
  · exact .node rfl rfl rfl

/-! ## Brackets, braces and parentheses -/

theorem tracks_parenthesized : Tracks (fun e => [.expr e]) (parenthesized g) := by
  refine .next (moves_queryAt 1) fun _ => .ite ?_ ?_
  · exact .next moves_advance fun _ => .bind hg.query fun _ =>
      .next (moves_expectSymbol _) fun _ => .node rfl rfl rfl
  · have hmore : Tracks Part.exprs (collect (afterComma (g.expr 0))) :=
      (hg.expr 0).afterComma.collect.congr fun _ => List.map_eq_flatMap ..
    refine .next (moves_expectSymbol _) fun _ => .bind (hg.expr 0) fun _ => .bind hmore fun more => ?_
    cases more with
    | nil => exact .next (moves_expectSymbol _) fun _ => .node rfl rfl rfl
    | cons e more => exact .next (moves_expectSymbol _) fun _ => .node rfl rfl rfl

theorem tracks_arrayElements (withWord : Bool) :
    Tracks (fun e => [.expr e]) (arrayElements g withWord) :=
  .next (moves_symbolAt 0 _) fun _ => .join (.same rfl) (tracks_exprList hg) fun _ =>
    .next (moves_expectSymbol _) fun _ => .node rfl rfl rfl

omit hg in
theorem moves_valueFields : Moves valueFields :=
  .next (moves_takeSymbol _) fun _ => .ite
    (.next (moves_structFields _) fun _ => .next moves_closingAngle fun _ => .same rfl) (.same rfl)

theorem tracks_valueArguments (typed : Bool) :
    Tracks (optionalParts SelectItem.parts) (valueArguments g typed) := by
  refine .next (moves_takeSymbol _) fun _ => .ite ?_ (.ite (.same rfl) (.fail _))
  exact .next (moves_symbolAt 0 _) fun _ => .join (.same rfl) (tracks_selectItems hg) fun _ =>
    .next (moves_expectSymbol _) fun _ => .same rfl

theorem tracks_structWithWord : Tracks (fun e => [.expr e]) (structWithWord g) := by
  refine .next moves_current fun _ => .next moves_advance fun _ => .next moves_valueFields fun _ =>
    .bind (tracks_valueArguments hg _) fun items => .node rfl rfl ?_
  cases items <;> rfl

theorem tracks_keyedField : Tracks (fun i => [.expr i.expr]) (keyedField g) := by
  have hkey : Moves fieldKey := by
    refine .next moves_current fun token => ?_
    split
    · exact .next moves_advance fun _ => .same rfl
    · exact moves_identifier
  exact .next hkey fun _ => .next (moves_expectSymbol _) fun _ => .bind (hg.expr 0) fun _ => .same rfl

theorem tracks_structInBraces : Tracks (fun e => [.expr e]) (structInBraces g) := by
  have hfields : Tracks SelectItem.parts (commaList (keyedField g)) :=
    (tracks_keyedField hg).commaList.congr fun _ => List.map_eq_flatMap ..
  refine .next (moves_expectSymbol _) fun _ => .next (moves_symbolAt 0 _) fun _ =>
    .join (.same rfl) hfields fun _ => ?_
  exact .next (moves_expectSymbol _) fun _ => .node rfl rfl rfl

/-! ## Words -/

theorem tracks_castCall : Tracks (fun e => [.expr e]) (castCall g) :=
  .next (moves_expectKeyword _) fun _ => .next (moves_expectSymbol _) fun _ =>
    .bind (hg.expr 0) fun _ => .next (moves_expectKeyword _) fun _ => .next moves_dataType fun _ =>
      .next (moves_expectSymbol _) fun _ => .node rfl rfl rfl

theorem tracks_whenArm :
    Tracks (optionalParts fun a => [.expr a.condition, .expr a.result]) (whenArm g) :=
  .next (moves_takeKeyword _) fun _ => .ite
    (.bind (hg.expr 0) fun _ => .next (moves_expectKeyword _) fun _ =>
      .bind (hg.expr 0) fun _ => .same rfl)
    (.same rfl)

theorem tracks_caseExpr : Tracks (fun e => [.expr e]) (caseExpr g) := by
  have hoperand : Tracks (optionalParts fun e => [.expr e]) (some <$> g.expr 0) :=
    .map (hg.expr 0) fun _ => .same rfl
  refine .next (moves_expectKeyword _) fun _ => .next (moves_keywordAt 0 _) fun _ =>
    .join (.same rfl) hoperand fun tested => .bind (tracks_whenArm hg).collect fun arms =>
      .ite (.fail _) (.bind (.afterKeyword _ (hg.expr 0)) fun otherwise =>
        .next (moves_expectKeyword _) fun _ => .node rfl rfl ?_)
  cases tested <;> cases otherwise <;> rfl

theorem tracks_existsTest : Tracks (fun e => [.expr e]) (existsTest g) :=
  .next (moves_expectKeyword _) fun _ => .bind hg.query.inParens fun _ => .node rfl rfl rfl

omit hg in
theorem tracks_namedPlaceholder (sigil : Char) :
    Tracks (fun e => [.expr e]) (namedPlaceholder sigil) :=
  .next moves_advance fun _ => .next moves_identifier fun _ => .node rfl rfl rfl

omit hg in
/-- A constant is a token. -/
theorem tracks_literal (value : Literal) :
    Tracks (fun e => [.expr e]) (advance >>= fun _ => pure (.literal value)) :=
  .next moves_advance fun _ => .node rfl rfl rfl

theorem tracks_keywordPrimary (k : Keyword) :
    Tracks (fun e => [.expr e]) (keywordPrimary g d k) := by
  unfold keywordPrimary
  split
  · exact tracks_literal _
  · exact tracks_literal _
  · exact tracks_literal _
  · exact tracks_caseExpr hg
  · exact tracks_castCall hg
  · exact tracks_existsTest hg
  · refine .next (moves_symbolAt 1 _) fun _ => .ite ?_ (.ite (tracks_structWithWord hg) ?_)
    · exact .next moves_advance fun _ => .next moves_advance fun _ => tracks_arrayElements hg true
    · refine .next (moves_symbolAt 1 _) fun _ => .ite ?_ (.ite (.fail _) (tracks_named hg))
      exact .next moves_current fun _ => .next moves_advance fun _ =>
        .bind (tracks_functionCall hg _) fun _ => .node rfl rfl rfl

theorem tracks_symbolPrimary (s : Symbol) :
    Tracks (fun e => [.expr e]) (symbolPrimary g d s) := by
  unfold symbolPrimary
  split
  · exact .next moves_advance fun _ => .bind tracks_nextPlaceholder fun _ => .same rfl
  · exact tracks_namedPlaceholder _
  · exact tracks_namedPlaceholder _
  · exact .next moves_advance fun _ => tracks_wildcard hg none
  · exact tracks_parenthesized hg
  · exact .next moves_advance fun _ => tracks_arrayElements hg false
  · exact .ite (tracks_structInBraces hg) (.fail _)
  · exact .fail _

theorem tracks_primary : Tracks (fun e => [.expr e]) (primary g d) := by
  refine .next moves_current fun token => ?_
  split
  · exact tracks_literal _
  · exact tracks_literal _
  · exact tracks_literal _
  · exact tracks_literal _
  · exact tracks_named hg
  · exact tracks_keywordPrimary hg _
  · exact tracks_symbolPrimary hg _
  · exact .fail _

/-! ## Operators -/

theorem tracks_operand : Tracks (fun e => [.expr e]) (operand g d) := by
  refine .next moves_current fun token => ?_
  split
  · exact .next moves_advance fun _ => .bind (hg.expr _) fun _ => .node rfl rfl rfl
  · exact tracks_primary hg

omit hg in
theorem numbersOf_ascribe (e : Expr) (type : DataType) :
    numbersOf [.expr (ascribe e type)] = numbersOf [.expr e] := by
  unfold ascribe
  split
  · rw [numbersOf_node rfl, numbersOf_node rfl]
    rfl
  · exact numbersOf_node rfl

variable (tested : Expr) (negated : Bool)

theorem tracks_predicate :
    TracksWith [.expr tested] (fun e => [.expr e]) (predicate g tested negated) := by
  refine .next (moves_keywordAt 0 _) fun _ => .ite ?_ (.next (moves_keywordAt 0 _) fun _ => .ite ?_ ?_)
  · refine .next (moves_expectKeyword _) fun _ => .next (moves_expectSymbol _) fun _ =>
      .next (moves_queryAt 0) fun _ => .ite ?_ ?_
    · exact .bind hg.query fun _ => .next (moves_expectSymbol _) fun _ => .node rfl rfl rfl
    · exact .bind (tracks_exprList hg) fun _ => .next (moves_expectSymbol _) fun _ => .node rfl rfl rfl
  · exact .next (moves_expectKeyword _) fun _ => .bind (hg.expr _) fun _ =>
      .next (moves_expectKeyword _) fun _ => .bind (hg.expr _) fun _ => .node rfl rfl rfl
  · exact .next (moves_keywordAt 0 _) fun _ => .next moves_advance fun _ =>
      .bind (hg.expr _) fun _ => .node rfl rfl rfl

omit hg in
theorem tracks_nullTest : TracksWith [.expr tested] (fun e => [.expr e]) (nullTest tested) :=
  .next (moves_expectKeyword _) fun _ => .next (moves_takeKeyword _) fun _ =>
    .next (moves_expectKeyword _) fun _ => .node rfl rfl rfl

theorem tracks_extend (power : Nat) (left : Expr) :
    TracksWith [.expr left] (optionalParts fun e => [.expr e]) (extend g power left) := by
  have hnone : TracksWith [.expr left] (optionalParts fun e => [.expr e]) (pure none) :=
    .pure (List.nil_subperm)
  refine .next moves_current fun token => .ite (.ite hnone ?_) ?_
  · refine .next moves_advance fun _ => .next moves_dataType fun type => .pure ?_
    exact (numbersOf_ascribe left type).symm ▸ .refl _
  · split
    · refine .ite hnone (.next moves_advance fun _ => ?_)
      exact .bind (hg.expr _) fun _ => .node rfl rfl rfl
    · refine .ite hnone (.ite (tracks_nullTest left).some (.ite ?_ (tracks_predicate hg left _).some))
      exact .next (moves_anyKeywordAt 1 _) fun _ =>
        .ite (.next moves_advance fun _ => (tracks_predicate hg left _).some) hnone

theorem tracks_expression (power : Nat) : Tracks (fun e => [.expr e]) (expression g d power) :=
  .bind (tracks_operand hg) fun e => tracks_repeatFrom (tracks_extend hg power) e

end Expressions

end Parse
end SqlTree
