import Mathlib
import SqlTree.Query.Grammar.Expr
import SqlTree.Proofs.Carrying.Name
import SqlTree.Proofs.Tree.Shift

/-! # Expressions inside a longer text

* `Productions.Carry S r g g'`: within `S` the readers `g` do what `g'` do with a part alone.
* `carries_primary`: expressions without operators around them. A question mark gets the number
  that it has alone, increased by those met before the part.
* `carries_expression`: an operand with everything behind it.
-/

namespace SqlTree
set_option autoImplicit false

open Parse

/-- Within `S` the readers `g` do what `g'` do with a part alone. -/
structure Productions.Carry (S : Surroundings) (r : Room) (g g' : Productions) : Prop where
  expr : ∀ power, Carries S r (Expr.shift S.placeholders) (g.expr power) (g'.expr power)
  query : Carries S r (Query.shift S.placeholders) g.query g'.query
  fromItem : Carries S r (FromItem.shift S.placeholders) g.fromItem g'.fromItem

namespace Parse

variable {S : Surroundings} {k : Nat} {r : Room} {g g' : Productions} {d : Dialect}
  (hg : g.Carry S r.inside g')

/-! ## Lists and items -/

section Items

include hg

theorem carries_exprList :
    Carries S r.inside (List.map (Expr.shift S.placeholders)) (exprList g) (exprList g') :=
  (hg.expr 0).commaList

theorem carries_selectItem :
    Carries S r.inside (SelectItem.shift S.placeholders) (selectItem g) (selectItem g') := by
  refine .next (hg.expr 0) fun e => ?_
  rw [Expr.isWildcard_shift]
  exact .ite (fun _ => .pure rfl) fun _ => .next carries_optionalAlias fun _ => .pure rfl

theorem carries_selectItems :
    Carries S r.inside (List.map (SelectItem.shift S.placeholders)) (selectItems g)
      (selectItems g') :=
  (carries_selectItem hg).commaList

theorem carries_argument :
    Carries S r.inside (Expr.shift S.placeholders) (argument g) (argument g') :=
  .anyKeywordAt _ (.next hg.query fun _ => .pure rfl) (hg.expr 0)

theorem carries_functionCall (name : ObjectName) :
    Carries S r (FunctionCall.shift S.placeholders) (functionCall g name)
      (functionCall g' name) := by
  have harguments : Carries S r.inside (List.map (Expr.shift S.placeholders))
      (symbolAt 0 .rightParen >>= fun b => if b then pure [] else commaList (argument g))
      (symbolAt 0 .rightParen >>= fun b => if b then pure [] else commaList (argument g')) :=
    .symbolAt .rightParen ⟨rfl, rfl, rfl⟩ (.pure rfl) (carries_argument hg).commaList
  refine .expectSymbol .leftParen ⟨rfl, rfl, rfl⟩ (.next (carries_takeKeyword _) fun distinct => ?_)
  refine .branch harguments fun arguments => ?_
  exact .expectSymbol .rightParen ⟨rfl, rfl, rfl⟩ (.pure (by simp [FunctionCall.shift]))

end Items

/-! ## Wildcards -/

/-- What is behind a word decides only where the word is there. -/
theorem carries_wildcardExcept : Carries S r id (wildcardExcept d) (wildcardExcept d) := by
  have hcolumns : ∀ {k} (word : ExceptWord), CarriesFrom S (k + 1) r (fun _ => False) id
      (advance >>= fun _ => identifiersInParens >>= fun columns =>
        pure (some ⟨word, columns⟩ : Option WildcardExcept))
      (advance >>= fun _ => identifiersInParens >>= fun columns => pure (some ⟨word, columns⟩)) :=
    fun word => .advance (.next carries_identifiersInParens fun _ => .pure rfl)
  -- Both words are looked for before what is behind them.
  have horder : ∀ c, wildcardExcept d c =
      (keywordAt 0 .EXCEPT >>= fun excepts => keywordAt 0 .EXCLUDE >>= fun excludes =>
        symbolAt 1 .leftParen >>= fun opens => queryAt 2 >>= fun query =>
          if d.wildcardExcept && excepts && opens && !query then
            advance >>= fun _ => identifiersInParens >>= fun columns =>
              pure (some ⟨.except, columns⟩ : Option WildcardExcept)
          else if d.wildcardExclude && excludes && opens then
            advance >>= fun _ => identifiersInParens >>= fun columns =>
              pure (some ⟨.exclude, columns⟩ : Option WildcardExcept)
          else pure none) c := by
    intro c
    show (ite _ _ _ : Parse (Option WildcardExcept)) c = (ite _ _ _ : Parse _) c
    split <;> rfl
  refine .congr horder horder ?_
  have hword : ∀ excepts excludes, CarriesFrom S 1 r (fun _ => False) id
      (symbolAt 1 .leftParen >>= fun opens => queryAt 2 >>= fun query =>
          if d.wildcardExcept && excepts && opens && !query then
            advance >>= fun _ => identifiersInParens >>= fun columns =>
              pure (some ⟨.except, columns⟩ : Option WildcardExcept)
          else if d.wildcardExclude && excludes && opens then
            advance >>= fun _ => identifiersInParens >>= fun columns =>
              pure (some ⟨.exclude, columns⟩ : Option WildcardExcept)
          else pure none)
      (symbolAt 1 .leftParen >>= fun opens => queryAt 2 >>= fun query =>
          if d.wildcardExcept && excepts && opens && !query then
            advance >>= fun _ => identifiersInParens >>= fun columns =>
              pure (some ⟨.except, columns⟩ : Option WildcardExcept)
          else if d.wildcardExclude && excludes && opens then
            advance >>= fun _ => identifiersInParens >>= fun columns =>
              pure (some ⟨.exclude, columns⟩ : Option WildcardExcept)
          else pure none) := by
    intro excepts excludes
    refine .symbolBehind .leftParen ⟨rfl, rfl, rfl⟩ ?_ ?_
    · refine .anyKeywordBehind _ ?_ ?_ <;>
        exact .ite (fun _ => hcolumns _) fun _ => .ite (fun _ => hcolumns _) fun _ => .pure rfl
    · refine .look (fun _ => ⟨_, rfl⟩) fun _ _ => ?_
      simp only [Bool.and_false, Bool.false_and, Bool.false_eq_true, if_false]
      exact .pure rfl
  refine .keywordAt .EXCEPT (.keywordAt .EXCLUDE (hword _ _) (hword _ _))
    (.keywordAt .EXCLUDE (hword _ _) ?_)
  refine .look (fun _ => ⟨_, rfl⟩) fun _ _ => .look (fun _ => ⟨_, rfl⟩) fun _ _ => ?_
  simp only [Bool.and_false, Bool.false_and, Bool.false_eq_true, if_false]
  exact .pure rfl

include hg in
theorem carries_wildcardReplace :
    Carries S r (Option.map (List.map (SelectItem.shift S.placeholders))) (wildcardReplace g d)
      (wildcardReplace g' d) := by
  refine .keywordAt .REPLACE ?_ ?_
  · refine .symbolBehind .leftParen ⟨rfl, rfl, rfl⟩ (.ite (fun _ => ?_) fun _ => .pure rfl) ?_
    · refine .advance (.advance (.next (carries_selectItems hg) fun _ => ?_))
      exact .expectSymbol .rightParen ⟨rfl, rfl, rfl⟩ (.pure rfl)
    · simp only [Bool.and_false, Bool.false_eq_true, if_false]
      exact .pure rfl
  · refine .look (fun _ => ⟨_, rfl⟩) fun _ _ => ?_
    simp only [Bool.and_false, Bool.false_and, Bool.false_eq_true, if_false]
    exact .pure rfl

section Columns

include hg

theorem carries_wildcard (table : Option ObjectName) :
    Carries S r (Expr.shift S.placeholders) (wildcard g d table) (wildcard g' d table) :=
  .next carries_wildcardExcept fun _ => .next (carries_wildcardReplace hg) fun _ =>
    .pure (by simp [Expr.shift])

/-! ## Columns and calls -/

theorem carries_named : Carries S r (Expr.shift S.placeholders) (named g d) (named g' d) := by
  refine .next carries_dottedName fun ⟨first, more⟩ => ?_
  have hcall : ∀ {k}, CarriesFrom S k r (fun _ => False) (Expr.shift S.placeholders)
      (do
        if ← symbolAt 0 .leftParen then return .call (← functionCall g ⟨first :: more⟩)
        else return .column (columnOf first more))
      (do
        if ← symbolAt 0 .leftParen then return .call (← functionCall g' ⟨first :: more⟩)
        else return .column (columnOf first more)) :=
    .symbolAt .leftParen ⟨rfl, rfl, rfl⟩ (.next (carries_functionCall hg _) fun _ => .pure rfl)
      (.pure rfl)
  refine .symbolAt .dot ⟨rfl, rfl, rfl⟩ ?_ (.look (fun _ => ⟨_, rfl⟩) fun _ _ => hcall)
  refine .symbolBehind .star ⟨rfl, rfl, rfl⟩ ?_ hcall
  exact .advance (.advance (carries_wildcard (r := r.inside) hg _))

/-! ## Brackets, braces and parentheses -/

/-- The opening parenthesis is under the cursor. -/
theorem carries_parenthesized :
    CarriesFrom S 1 r (fun _ => False) (Expr.shift S.placeholders) (parenthesized g)
      (parenthesized g') := by
  refine .anyKeywordBehind _ ?_ ?_
  · refine .advance (.next hg.query fun _ => ?_)
    exact .expectSymbol .rightParen ⟨rfl, rfl, rfl⟩ (.pure rfl)
  · refine .expectSymbol .leftParen ⟨rfl, rfl, rfl⟩ (.next (hg.expr 0) fun first => ?_)
    have hmore := Carries.afterComma (r := r.inside) (hg.expr 0)
    refine .next hmore.collect fun more => ?_
    cases more with
    | nil => exact .expectSymbol .rightParen ⟨rfl, rfl, rfl⟩ (.pure rfl)
    | cons e es =>
      exact .expectSymbol .rightParen ⟨rfl, rfl, rfl⟩ (.pure (by simp [Expr.shift]))

theorem carries_arrayElements (withWord : Bool) :
    Carries S r.inside (Expr.shift S.placeholders) (arrayElements g withWord)
      (arrayElements g' withWord) := by
  have helements : Carries S r.inside (List.map (Expr.shift S.placeholders))
      (symbolAt 0 .rightBracket >>= fun b => if b then pure [] else exprList g)
      (symbolAt 0 .rightBracket >>= fun b => if b then pure [] else exprList g') :=
    .symbolAt .rightBracket ⟨rfl, rfl, rfl⟩ (.pure rfl) (carries_exprList hg)
  refine .branch helements fun elements => ?_
  exact .expectSymbol .rightBracket ⟨rfl, rfl, rfl⟩ (.pure (by simp [Expr.shift]))

end Columns

theorem carries_valueFields : Carries S r id valueFields valueFields := by
  refine .takeSymbol .less ⟨rfl, rfl, rfl⟩ ?_ (.pure rfl)
  exact .next (carries_structFields true) fun _ => .next carries_closingAngle fun _ => .pure rfl

section Structs

include hg

theorem carries_valueArguments (typed : Bool) :
    Carries S r (Option.map (List.map (SelectItem.shift S.placeholders)))
      (valueArguments g typed) (valueArguments g' typed) := by
  have hitems : Carries S r.inside (List.map (SelectItem.shift S.placeholders))
      (symbolAt 0 .rightParen >>= fun b => if b then pure [] else selectItems g)
      (symbolAt 0 .rightParen >>= fun b => if b then pure [] else selectItems g') :=
    .symbolAt .rightParen ⟨rfl, rfl, rfl⟩ (.pure rfl) (carries_selectItems hg)
  refine .takeSymbol .leftParen ⟨rfl, rfl, rfl⟩ (.branch hitems fun items => ?_) ?_
  · exact .expectSymbol .rightParen ⟨rfl, rfl, rfl⟩ (.pure rfl)
  · rw [if_neg Bool.false_ne_true, if_neg Bool.false_ne_true]
    exact .ite (fun _ => .pure rfl) fun _ => .fail _

/-- The word of a struct value is under the cursor. -/
theorem carries_structWithWord :
    CarriesFrom S (k + 1) r (fun _ => False) (Expr.shift S.placeholders) (structWithWord g)
      (structWithWord g') := by
  refine .knownToken fun _ _ _ _ => .advance (.next carries_valueFields fun fields => ?_)
  exact .next (carries_valueArguments (r := r.inside) hg _) fun arguments =>
    .pure (by simp [Expr.shift, StructValue.shift])

theorem carries_keyedField :
    Carries S r (SelectItem.shift S.placeholders) (keyedField g) (keyedField g') := by
  have hkey : Carries S r id fieldKey fieldKey := by
    refine .token (fun kind _ _ _ => ?_) fun t t' ht ht' => ?_
    · cases kind with
      | string content => exact .advance (.pure rfl)
      | _ => exact carries_identifier.still
    · rcases ht with ht | ht <;> rw [ht, ht'] <;> exact carries_identifier.still
  exact .next hkey fun _ => .expectSymbol .colon ⟨rfl, rfl, rfl⟩
    (.next (hg.expr 0) fun _ => .pure rfl)

theorem carries_structInBraces :
    Carries S r (Expr.shift S.placeholders) (structInBraces g) (structInBraces g') := by
  have hfields : Carries S r.inside (List.map (SelectItem.shift S.placeholders))
      (symbolAt 0 .rightBrace >>= fun b => if b then pure [] else commaList (keyedField g))
      (symbolAt 0 .rightBrace >>= fun b => if b then pure [] else commaList (keyedField g')) :=
    .symbolAt .rightBrace ⟨rfl, rfl, rfl⟩ (.pure rfl) (carries_keyedField (r := r.inside) hg).commaList
  refine .expectSymbol .leftBrace ⟨rfl, rfl, rfl⟩ (.branch hfields fun fields => ?_)
  exact .expectSymbol .rightBrace ⟨rfl, rfl, rfl⟩ (.pure (by simp [Expr.shift, StructValue.shift]))

/-! ## Words -/

theorem carries_castCall :
    Carries S r (Expr.shift S.placeholders) (castCall g) (castCall g') := by
  refine .expectKeyword .CAST (.expectSymbol .leftParen ⟨rfl, rfl, rfl⟩ ?_)
  refine .next (hg.expr 0) fun operand => .expectKeyword .AS (.next carries_dataType fun type => ?_)
  exact .expectSymbol .rightParen ⟨rfl, rfl, rfl⟩ (.pure rfl)

theorem steps_whenArm :
    Steps S r (WhenArm.shift S.placeholders) (whenArm g) (whenArm g') := by
  refine .takeKeyword .WHEN (.next (hg.expr 0) fun condition => ?_) .nothing
  exact .expectKeyword .THEN (.next (hg.expr 0) fun result => .pure rfl)

theorem carries_caseExpr :
    Carries S r (Expr.shift S.placeholders) (caseExpr g) (caseExpr g') := by
  have hoperand : Carries S r.inside (Option.map (Expr.shift S.placeholders))
      (keywordAt 0 .WHEN >>= fun b => if b then pure none else some <$> g.expr 0)
      (keywordAt 0 .WHEN >>= fun b => if b then pure none else some <$> g'.expr 0) := by
    simp only [map_eq_pure_bind]
    exact .keywordAt .WHEN (.pure rfl) (.next (hg.expr 0) fun _ => .pure rfl)
  refine .expectKeyword .CASE (.branch hoperand fun operand => ?_)
  refine .next (steps_whenArm (r := r.inside) hg).collect fun arms => ?_
  rw [List.isEmpty_map]
  refine .ite (fun _ => .fail _) fun _ => ?_
  refine .next (Carries.afterKeyword (r := r.inside) _ (hg.expr 0)) fun otherwise => ?_
  exact .expectKeyword .END (.pure (by simp [Expr.shift]))

theorem carries_existsTest :
    Carries S r (Expr.shift S.placeholders) (existsTest g) (existsTest g') := by
  have hquery : Carries S r.inside (Query.shift S.placeholders) (inParens g.query)
      (inParens g'.query) := Carries.inParens (r := r.inside) hg.query
  exact .expectKeyword .EXISTS (.next hquery fun _ => .pure rfl)

end Structs

/-- The sigil is under the cursor. -/
theorem carries_namedPlaceholder (sigil : Char) :
    CarriesFrom S 1 r (fun _ => False) (Expr.shift S.placeholders) (namedPlaceholder sigil)
      (namedPlaceholder sigil) :=
  .advance (.next carries_identifier fun _ => .pure rfl)

section Primary

include hg

/-- The word is under the cursor. -/
theorem carries_keywordPrimary (w : Keyword) :
    CarriesFrom S 1 r (fun _ => False) (Expr.shift S.placeholders) (keywordPrimary g d w)
      (keywordPrimary g' d w) := by
  have hconstant : ∀ value : Literal, CarriesFrom S 1 r (fun _ => False)
      (Expr.shift S.placeholders) (advance >>= fun _ => pure (.literal value) : Parse Expr)
      (advance >>= fun _ => pure (.literal value)) := fun _ => .advance (.pure rfl)
  unfold keywordPrimary
  split
  · exact hconstant _
  · exact hconstant _
  · exact hconstant _
  · exact (carries_caseExpr hg).still
  · exact (carries_castCall hg).still
  · exact (carries_existsTest hg).still
  · -- What is behind the word counts only behind certain words.
    have hplain : CarriesFrom S 1 r (fun _ => False) (Expr.shift S.placeholders)
        (do
          if w = .STRUCT && d.structStyle = .bigQuery then structWithWord g
          else if functionWords.contains w && (← symbolAt 1 .leftParen) then
            let name : Ident := { name := (← current).text }
            advance
            return .call (← functionCall g ⟨[name]⟩)
          else if w.isReserved then fail ["expression"]
          else named g d)
        (do
          if w = .STRUCT && d.structStyle = .bigQuery then structWithWord g'
          else if functionWords.contains w && (← symbolAt 1 .leftParen) then
            let name : Ident := { name := (← current).text }
            advance
            return .call (← functionCall g' ⟨[name]⟩)
          else if w.isReserved then fail ["expression"]
          else named g' d) := by
      refine .ite (fun _ => carries_structWithWord hg) fun _ => ?_
      have hname : ∀ {k}, CarriesFrom S k r (fun _ => False) (Expr.shift S.placeholders)
          (if w.isReserved then fail ["expression"] else named g d)
          (if w.isReserved then fail ["expression"] else named g' d) :=
        .ite (fun _ => .fail _) fun _ => (carries_named hg).still
      refine .symbolBehind .leftParen ⟨rfl, rfl, rfl⟩ (.ite (fun _ => ?_) fun _ => hname) ?_
      · refine .knownToken fun _ _ _ _ => .advance ?_
        exact .next (carries_functionCall (r := r.inside) hg _) fun _ => .pure rfl
      · rw [Bool.and_false, if_neg Bool.false_ne_true, if_neg Bool.false_ne_true]
        exact hname
    refine .symbolBehind .leftBracket ⟨rfl, rfl, rfl⟩ (.ite (fun _ => ?_) fun _ => ?_) ?_
    · exact .advance (.advance (carries_arrayElements hg true))
    · exact hplain.knowing (Nat.le_succ 1)
    · rw [Bool.and_false, if_neg Bool.false_ne_true, if_neg Bool.false_ne_true]
      exact hplain

/-- A symbol other than a question mark is under the cursor. -/
theorem carries_symbolPrimary (s : Symbol) (hs : s ≠ .question) :
    CarriesFrom S (CarriesFrom.sight (.symbol s)) r (fun _ => False) (Expr.shift S.placeholders)
      (symbolPrimary g d s) (symbolPrimary g' d s) := by
  have hstar : CarriesFrom S 1 r (fun _ => False) (Expr.shift S.placeholders)
      (advance >>= fun _ => wildcard g d none) (advance >>= fun _ => wildcard g' d none) :=
    .advance (carries_wildcard (r := r.inside) hg none)
  have hbracket : CarriesFrom S 1 r (fun _ => False) (Expr.shift S.placeholders)
      (advance >>= fun _ => arrayElements g false) (advance >>= fun _ => arrayElements g' false) :=
    .advance (carries_arrayElements hg false)
  cases s with
  | question => exact absurd rfl hs
  | colon => exact carries_namedPlaceholder _
  | atSign => exact carries_namedPlaceholder _
  | star => exact hstar
  | leftParen => exact carries_parenthesized hg
  | leftBracket => exact hbracket
  | leftBrace =>
    exact .ite (fun _ => (carries_structInBraces hg).still) fun _ => .fail _
  | _ => exact .fail _

/-- A question mark is counted as it is gone behind. -/
theorem carries_primary : Carries S r (Expr.shift S.placeholders) (primary g d) (primary g' d) := by
  have hconstant : ∀ value : Literal, CarriesFrom S 1 r (fun _ => False)
      (Expr.shift S.placeholders) (advance >>= fun _ => pure (.literal value) : Parse Expr)
      (advance >>= fun _ => pure (.literal value)) := fun _ => .advance (.pure rfl)
  refine .tokenOrQuestion (fun kind _ _ _ hk => ?_) (fun c c₁ hw hc _ hk hk₁ => ?_)
    fun t t' ht ht' => ?_
  · cases kind with
    | integer digits => exact hconstant _
    | float digits => exact hconstant _
    | string content => exact hconstant _
    | blob bytes => exact hconstant _
    | identifier name quote => exact (carries_named hg).still
    | keyword w => exact carries_keywordPrimary hg w
    | symbol s => exact carries_symbolPrimary hg s fun h => hk (by rw [h])
    | endOfInput => exact .fail _
  · obtain ⟨behind, ahead, ending, n⟩ := c
    obtain ⟨behind₁, ahead₁, ending₁, n₁⟩ := c₁
    obtain ⟨_, rfl, hts⟩ := hw.ahead
    obtain rfl : n₁ = n + S.placeholders := hw.placeholders
    cases hts with
    | nil =>
      have hend := hc.ending
      rw [show ending.kind = .symbol .question from hk] at hend
      cases hend
    | @cons t t₁ ts ts₁ _ hts =>
      obtain ⟨kind, span, text⟩ := t
      obtain ⟨kind₁, span₁, text₁⟩ := t₁
      obtain rfl : kind = .symbol .question := hk
      obtain rfl : kind₁ = .symbol .question := hk₁
      have hnumber : n + S.placeholders + 1 = n + 1 + S.placeholders := Nat.add_right_comm ..
      let d₁ : Cursor := ⟨⟨.symbol .question, span₁, text₁⟩ :: behind₁, ts₁ ++ S.after, ending₁,
        n + S.placeholders + 1⟩
      refine ⟨⟨d₁, ?_, ⟨ts₁, rfl, hts⟩, hw.ending, hnumber⟩,
        ⟨⟨fun u hu => hc.ahead u (List.mem_cons_of_mem _ hu), hc.ending⟩, Nat.le_succ _, ?_⟩,
        False.elim⟩
      · show EStateM.Result.ok (Expr.placeholder (.positional (n + S.placeholders + 1))) _ = _
        rw [hnumber]
        rfl
      · show n + 1 + questions ts = n + questions (_ :: ts)
        simp only [questions, List.countP_cons, decide_true, if_true]
        omega
  · rcases ht with ht | ht <;> rw [ht, ht'] <;> exact .fail _

end Primary

/-! ## Operators -/

theorem ascribe_shift (n : Nat) (e : Expr) (type : DataType) :
    ascribe (e.shift n) type = (ascribe e type).shift n := by
  cases e with
  | struct v =>
    obtain ⟨style, word, fields, arguments⟩ := v
    cases type with
    | struct enclosure fs => cases style <;> cases fields <;> cases enclosure <;> rfl
    | _ => cases style <;> cases fields <;> rfl
  | _ => rfl

section Operators

include hg

theorem carries_operand : Carries S r (Expr.shift S.placeholders) (operand g d) (operand g' d) := by
  refine .token (fun kind _ _ _ => ?_) fun t t' ht ht' => ?_
  · cases hop : UnaryOp.ofToken? kind with
    | some op =>
      have hknown : CarriesFrom.sight kind = 1 := by
        unfold UnaryOp.ofToken? at hop
        split at hop <;> simp_all [CarriesFrom.sight]
      rw [hknown]
      exact .advance (.next (hg.expr _) fun _ => .pure rfl)
    | none => exact (carries_primary hg).still
  · rcases ht with ht | ht <;> rw [ht, ht'] <;> exact (carries_primary hg).still

/-! ## Predicates -/

variable (tested : Expr) (negated : Bool)

theorem carries_membership : CarriesFrom S k r (fun _ => True) (Expr.shift S.placeholders)
    (membership g (tested.shift S.placeholders) negated) (membership g' tested negated) := by
  refine .expectKeyword .IN (.expectSymbol .leftParen ⟨rfl, rfl, rfl⟩ (.anyKeywordAt _ ?_ ?_))
  · refine .next hg.query fun q => ?_
    exact .expectSymbol .rightParen ⟨rfl, rfl, rfl⟩ (.pure (by simp [Expr.shift]))
  · refine .next (carries_exprList hg) fun items => ?_
    exact .expectSymbol .rightParen ⟨rfl, rfl, rfl⟩ (.pure (by simp [Expr.shift]))

theorem carries_betweenTest : CarriesFrom S k r (fun _ => True) (Expr.shift S.placeholders)
    (betweenTest g (tested.shift S.placeholders) negated) (betweenTest g' tested negated) := by
  refine .expectKeyword .BETWEEN (.next (hg.expr _) fun low => ?_)
  exact .expectKeyword .AND (.next (hg.expr _) fun high => .pure (by simp [Expr.shift]))

theorem carries_likeTest :
    CarriesFrom S (k + 1) r (fun _ => True) (Expr.shift S.placeholders)
      (likeTest g (tested.shift S.placeholders) negated) (likeTest g' tested negated) := by
  have hpattern : ∀ {k} caseless, CarriesFrom S (k + 1) r (fun _ => True)
      (Expr.shift S.placeholders)
      (advance >>= fun _ => g.expr (rightPower predicateLevel) >>= fun pattern =>
        pure (.like (tested.shift S.placeholders) negated caseless pattern))
      (advance >>= fun _ => g'.expr (rightPower predicateLevel) >>= fun pattern =>
        pure (.like tested negated caseless pattern)) :=
    fun caseless => .advance (.next (hg.expr _) fun pattern => .pure (by simp [Expr.shift]))
  exact .keywordAt .ILIKE (hpattern (k := 0) true) (hpattern false)

omit hg in
theorem carries_nullTest : CarriesFrom S k r (fun _ => True) (Expr.shift S.placeholders)
    (nullTest (tested.shift S.placeholders)) (nullTest tested) := by
  refine .expectKeyword .IS (.next (carries_takeKeyword _) fun negated => ?_)
  exact .expectKeyword .NULL (.pure (by simp [Expr.shift]))

/-- The first word of a predicate is under the cursor. -/
theorem carries_predicate :
    CarriesFrom S (k + 1) r (fun _ => True) (Expr.shift S.placeholders)
      (predicate g (tested.shift S.placeholders) negated) (predicate g' tested negated) := by
  refine .keywordAt .IN (carries_membership hg tested negated) ?_
  refine .keywordAt .BETWEEN (carries_betweenTest hg tested negated) ?_
  exact carries_likeTest hg tested negated

theorem steps_extend (power : Nat) (left : Expr) :
    Steps S r (Expr.shift S.placeholders) (extend g power (left.shift S.placeholders))
      (extend g' power left) := by
  refine .token (fun kind _ _ _ => ?_) fun t t' ht ht' => ?_
  · dsimp only
    by_cases hcolon : kind = .symbol .doubleColon
    · rw [if_pos hcolon, if_pos hcolon, hcolon]
      refine .ite (fun _ => .nothing) fun _ => .advance (.next carries_dataType fun type => .pure ?_)
      rw [id, ascribe_shift]
      rfl
    rw [if_neg hcolon, if_neg hcolon]
    cases hop : BinaryOp.ofToken? kind with
    | some op =>
      have hknown : CarriesFrom.sight kind = 1 := by
        unfold BinaryOp.ofToken? at hop
        split at hop <;> simp_all [CarriesFrom.sight]
      rw [hknown]
      refine .ite (fun _ => .nothing) fun _ => .advance ?_
      exact .next (hg.expr _) fun right => .pure rfl
    | none =>
      refine .ite (fun _ => .nothing) fun hword => ?_
      obtain ⟨w, rfl⟩ : ∃ w, kind = .keyword w := by
        cases kind with
        | keyword w => exact ⟨w, rfl⟩
        | _ => simp [TokenKind.keyword?] at hword
      refine .ite (fun _ => .after (carries_nullTest left) fun e => .pure rfl) fun _ => ?_
      refine .ite (fun _ => ?_) fun _ => .after (carries_predicate hg left false) fun e => .pure rfl
      refine .anyKeywordBehind _ (.advance ?_) .nothing
      exact .after (carries_predicate (r := r.inside) hg left true) fun e => .pure rfl
  · rcases ht with ht | ht <;> rw [ht, ht'] <;> exact .nothing

theorem carries_expression (power : Nat) :
    Carries S r (Expr.shift S.placeholders) (expression g d power) (expression g' d power) :=
  .next (carries_operand hg) fun e => carries_repeatFrom (steps_extend hg power) e

end Operators

end Parse
end SqlTree
