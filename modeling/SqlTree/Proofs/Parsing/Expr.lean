import Mathlib
import SqlTree.Proofs.Parsing.Formed

/-! # The form of expressions that are read

* `agrees_primary`: what stands without operators around it cannot be opened from outside.
* `matches_extend`: what goes on with an expression leaves it whole.
* `matches_expression`: an expression and everything behind it that binds tightly enough.
-/

namespace SqlTree
set_option autoImplicit false

open Parse

/-- Nothing outside can open an expression on either side. -/
def Expr.Closed (e : Expr) : Prop :=
  e.leftEdge = closedEdge ∧ e.rightEdge = closedEdge

namespace Parse

variable {d : Dialect} {g g' : Productions} (hg : g.Agree d g')
include hg

/-! ## Lists and items -/

theorem agrees_expr {power : Nat} (hp : power ≤ castPower) :
    Agrees (g.expr power) (g'.expr power)
      fun e => (Part.expr e).AllFormed d ∧ power ≤ e.leftEdge :=
  fun c c' hc => (hg.expr power hp c c' hc).mono fun _ _ h => ⟨h.1, h.2.1.left⟩

theorem agrees_anyExpr :
    Agrees (g.expr 0) (g'.expr 0) fun e => (Part.expr e).AllFormed d :=
  (agrees_expr hg (Nat.zero_le _)).mono fun _ h => h.1

theorem agrees_exprList : Agrees (exprList g) (exprList g')
    fun es => es ≠ [] ∧ ∀ e ∈ es, (Part.expr e).AllFormed d :=
  (agrees_anyExpr hg).commaList

theorem agrees_selectItem : Agrees (selectItem g) (selectItem g')
    fun i => (Part.expr i.expr).AllFormed d :=
  (agrees_anyExpr hg).bind fun _ he =>
    .ite (.pure he) (agrees_optionalAlias.next fun _ => .pure he)

theorem agrees_selectItems : Agrees (selectItems g) (selectItems g')
    fun is => is ≠ [] ∧ ∀ i ∈ is, (Part.expr i.expr).AllFormed d :=
  (agrees_selectItem hg).commaList

theorem agrees_argument : Agrees (argument g) (argument g')
    fun e => (Part.expr e).AllFormed d := by
  refine (agrees_queryAt 0).next fun _ => .ite (hg.query.bind fun q hq => .pure ?_) (agrees_anyExpr hg)
  exact Part.obeys_iff.2 ⟨trivial, by simpa [Part.children, Expr.children] using hq⟩

theorem agrees_functionCall (name : ObjectName) : Agrees (functionCall g name) (functionCall g' name)
    fun f => ∀ e ∈ f.arguments, (Part.expr e).AllFormed d := by
  refine (agrees_expectSymbol _).next fun _ => (agrees_takeKeyword _).next fun _ => ?_
  refine (agrees_symbolAt _ _).next fun b => ?_
  refine .join b (.pure (by simp)) ((agrees_argument hg).commaList.mono fun _ h => h.2) fun es hes => ?_
  exact (agrees_expectSymbol _).next fun _ => .pure hes

/-! ## Wildcards -/

omit hg in
theorem agrees_wildcardExcept (d : Dialect) :
    Agrees (wildcardExcept d) (wildcardExcept d) fun _ => True := by
  have hcolumns : ∀ word : ExceptWord, Agrees
      (do advance; return some ⟨word, ← identifiersInParens⟩ : Parse (Option WildcardExcept))
      (do advance; return some ⟨word, ← identifiersInParens⟩) fun _ => True := fun _ =>
    agrees_advance.next fun _ => agrees_identifiersInParens.bind fun _ _ => .pure trivial
  refine (agrees_symbolAt _ _).next fun _ => (agrees_keywordAt _ _).next fun _ => ?_
  refine (agrees_queryAt _).next fun _ => .ite (hcolumns _) ?_
  exact (agrees_keywordAt _ _).next fun _ => .ite (hcolumns _) (.pure trivial)

theorem agrees_wildcardReplace : Agrees (wildcardReplace g d) (wildcardReplace g' d)
    fun o => ∀ is ∈ o, ∀ i ∈ is, (Part.expr i.expr).AllFormed d := by
  refine (agrees_keywordAt _ _).next fun _ => (agrees_symbolAt _ _).next fun _ => .ite ?_ (.pure (by simp))
  refine agrees_advance.next fun _ => agrees_advance.next fun _ => ?_
  refine (agrees_selectItems hg).bind fun is his => (agrees_expectSymbol _).next fun _ => ?_
  exact .pure (by simpa using his.2)

theorem agrees_wildcard (table : Option ObjectName) :
    Agrees (wildcard g d table) (wildcard g' d table)
      fun e => (Part.expr e).AllFormed d ∧ e.Closed := by
  refine (agrees_wildcardExcept d).next fun _ => (agrees_wildcardReplace hg).bind fun o ho => .pure ?_
  refine ⟨Part.obeys_iff.2 ⟨trivial, ?_⟩, rfl, rfl⟩
  cases o with
  | none => simp [Part.children, Expr.children, SelectItem.parts]
  | some is => simpa [Part.children, Expr.children, SelectItem.parts] using ho is rfl

omit hg in
theorem formed_call {f : FunctionCall} (hf : ∀ e ∈ f.arguments, (Part.expr e).AllFormed d) :
    (Part.expr (.call f)).AllFormed d ∧ (Expr.call f).Closed :=
  ⟨Part.obeys_iff.2 ⟨trivial, by simpa [Part.children, Expr.children, Part.exprs] using hf⟩, rfl, rfl⟩

theorem agrees_named : Agrees (named g d) (named g' d)
    fun e => (Part.expr e).AllFormed d ∧ e.Closed := by
  refine agrees_dottedName.next fun ⟨first, more⟩ => ?_
  refine (agrees_symbolAt _ _).next fun _ => (agrees_symbolAt _ _).next fun _ => .ite ?_ ?_
  · exact agrees_advance.next fun _ => agrees_advance.next fun _ => agrees_wildcard hg _
  · refine (agrees_symbolAt _ _).next fun _ => .ite ?_ (.pure ?_)
    · exact (agrees_functionCall hg _).bind fun f hf => .pure (formed_call hf)
    · exact ⟨Part.obeys_iff.2 ⟨trivial, by simp [Part.children, Expr.children]⟩, rfl, rfl⟩

/-! ## Brackets, braces and parentheses -/

omit hg in
theorem formed_exprs {e : Expr} (es : List Expr) (hs : e.Formed d) (hc : e.children = Part.exprs es)
    (h : ∀ e ∈ es, (Part.expr e).AllFormed d) : (Part.expr e).AllFormed d :=
  Part.obeys_iff.2 ⟨hs, by simpa [Part.children, hc, Part.exprs] using h⟩

omit hg in
theorem formed_query {e : Expr} {q : Query} (hs : e.Formed d) (hc : e.children = [.query q])
    (h : (Part.query q).AllFormed d) : (Part.expr e).AllFormed d :=
  Part.obeys_iff.2 ⟨hs, by simpa [Part.children, hc] using h⟩

omit hg in
theorem formed_leaf {e : Expr} (hs : e.Formed d) (hc : e.children = []) :
    (Part.expr e).AllFormed d :=
  Part.obeys_iff.2 ⟨hs, by simp [Part.children, hc]⟩

theorem agrees_parenthesized : Agrees (parenthesized g) (parenthesized g')
    fun e => (Part.expr e).AllFormed d ∧ e.Closed := by
  refine (agrees_queryAt _).next fun _ => .ite ?_ ?_
  · refine agrees_advance.next fun _ => hg.query.bind fun q hq => (agrees_expectSymbol _).next fun _ => ?_
    exact .pure ⟨formed_query trivial rfl hq, rfl, rfl⟩
  · refine (agrees_expectSymbol _).next fun _ => (agrees_anyExpr hg).bind fun e he => ?_
    refine (agrees_anyExpr hg).afterComma.collect.bind fun es hes => ?_
    cases es with
    | nil =>
      refine (agrees_expectSymbol _).next fun _ => .pure ⟨?_, rfl, rfl⟩
      exact formed_exprs [e] trivial rfl (by simpa using he)
    | cons e' es =>
      refine (agrees_expectSymbol _).next fun _ => .pure ⟨?_, rfl, rfl⟩
      exact formed_exprs _ (by simp [Expr.Formed]) rfl (List.forall_mem_cons.2 ⟨he, hes⟩)

theorem agrees_arrayElements (withWord : Bool) :
    Agrees (arrayElements g withWord) (arrayElements g' withWord)
      fun e => (Part.expr e).AllFormed d ∧ e.Closed := by
  refine (agrees_symbolAt _ _).next fun b => ?_
  refine .join b (.pure (by simp)) ((agrees_exprList hg).mono fun _ h => h.2) fun es hes => ?_
  exact (agrees_expectSymbol _).next fun _ => .pure ⟨formed_exprs _ trivial rfl hes, rfl, rfl⟩

omit hg in
theorem agrees_valueFields : Agrees valueFields valueFields fun _ => True := by
  refine (agrees_takeSymbol _).next fun _ => .ite ?_ (.pure trivial)
  exact (agrees_structFields true).bind fun _ _ => agrees_closingAngle.next fun _ => .pure trivial

theorem agrees_valueArguments (typed : Bool) :
    Agrees (valueArguments g typed) (valueArguments g' typed) fun o =>
      (typed = false → o ≠ none) ∧ ∀ is ∈ o, ∀ i ∈ is, (Part.expr i.expr).AllFormed d := by
  refine (agrees_takeSymbol _).next fun _ => .ite ?_ ?_
  · refine (agrees_symbolAt _ _).next fun b => ?_
    refine .join b (.pure (by simp)) ((agrees_selectItems hg).mono fun _ h => h.2) fun is his => ?_
    exact (agrees_expectSymbol _).next fun _ => .pure ⟨by simp, by simpa using his⟩
  · cases typed with
    | true => exact .pure (by simp)
    | false => exact .fail _ _

omit hg in
theorem formed_struct {v : StructValue} (hv : v.Formed d)
    (h : ∀ is ∈ v.arguments, ∀ i ∈ is, (Part.expr i.expr).AllFormed d) :
    (Part.expr (.struct v)).AllFormed d := by
  refine Part.obeys_iff.2 ⟨hv, ?_⟩
  obtain ⟨style, word, fields, arguments⟩ := v
  cases arguments with
  | none => simp [Part.children, Expr.children, SelectItem.parts]
  | some is => simpa [Part.children, Expr.children, SelectItem.parts] using h is rfl

theorem agrees_structWithWord (hd : d.structStyle = .bigQuery) :
    Agrees (structWithWord g) (structWithWord g')
      fun e => (Part.expr e).AllFormed d ∧ e.Closed := by
  refine .token fun kind _ _ text => agrees_advance.next fun _ => agrees_valueFields.next fun fields => ?_
  refine (agrees_valueArguments hg _).bind fun arguments h => .pure ⟨formed_struct ?_ h.2, rfl, rfl⟩
  refine ⟨hd.symm, by simp, ?_⟩
  rintro rfl
  exact h.1 rfl

omit hg in
theorem agrees_fieldKey : Agrees fieldKey fieldKey fun _ => True := by
  refine .token fun kind _ _ _ => ?_
  cases kind with
  | string content => exact agrees_advance.next fun _ => .pure trivial
  | _ => exact agrees_identifier

theorem agrees_keyedField : Agrees (keyedField g) (keyedField g')
    fun i => i.alias? ≠ none ∧ (Part.expr i.expr).AllFormed d :=
  agrees_fieldKey.next fun _ => (agrees_expectSymbol _).next fun _ =>
    (agrees_anyExpr hg).bind fun _ he => .pure ⟨by simp, he⟩

theorem agrees_structInBraces (hd : d.structStyle = .duckDb) :
    Agrees (structInBraces g) (structInBraces g')
      fun e => (Part.expr e).AllFormed d ∧ e.Closed := by
  refine (agrees_expectSymbol _).next fun _ => (agrees_symbolAt _ _).next fun b => ?_
  refine .join b (.pure (by simp)) ((agrees_keyedField hg).commaList.mono fun _ h => h.2) fun is his => ?_
  refine (agrees_expectSymbol _).next fun _ => .pure ⟨formed_struct ?_ ?_, rfl, rfl⟩
  · exact ⟨hd.symm, by simp, is, rfl, fun i hi => (his i hi).1⟩
  · simpa using fun i hi => (his i hi).2

/-! ## Words -/

theorem agrees_castCall : Agrees (castCall g) (castCall g')
    fun e => (Part.expr e).AllFormed d ∧ e.Closed := by
  refine (agrees_expectKeyword _).next fun _ => (agrees_expectSymbol _).next fun _ => ?_
  refine (agrees_anyExpr hg).bind fun e he => (agrees_expectKeyword _).next fun _ => ?_
  refine agrees_dataType.bind fun t _ => (agrees_expectSymbol _).next fun _ => .pure ⟨?_, rfl, rfl⟩
  exact formed_exprs [e] trivial rfl (by simpa using he)

theorem agrees_whenArm : Agrees (whenArm g) (whenArm g') fun o => ∀ a ∈ o,
    (Part.expr a.condition).AllFormed d ∧ (Part.expr a.result).AllFormed d := by
  refine (agrees_takeKeyword _).next fun _ => .ite ?_ (.pure (by simp))
  refine (agrees_anyExpr hg).bind fun e he => (agrees_expectKeyword _).next fun _ => ?_
  exact (agrees_anyExpr hg).bind fun e' he' => .pure (by simpa using ⟨he, he'⟩)

theorem agrees_caseExpr : Agrees (caseExpr g) (caseExpr g')
    fun e => (Part.expr e).AllFormed d ∧ e.Closed := by
  have hoperand : Agrees (some <$> g.expr 0) (some <$> g'.expr 0)
      fun o => ∀ e ∈ o, (Part.expr e).AllFormed d := (agrees_anyExpr hg).map (by simp)
  refine (agrees_expectKeyword _).next fun _ => (agrees_keywordAt _ _).next fun b => ?_
  refine .join b (.pure (by simp)) hoperand fun operand ho => ?_
  refine (agrees_whenArm hg).collect.bind fun arms harms => ?_
  cases arms with
  | nil => exact .fail _ _
  | cons a arms =>
    refine ((agrees_anyExpr hg).afterKeyword _).bind fun otherwise hw => ?_
    refine (agrees_expectKeyword _).next fun _ => .pure ⟨Part.obeys_iff.2 ⟨by simp [Part.Formed, Expr.Formed], ?_⟩, rfl, rfl⟩
    simp only [Part.children, Expr.children, List.forall_mem_append, Part.exprs, List.forall_mem_map,
      List.forall_mem_flatMap, Option.mem_toList, List.forall_mem_cons]
    refine ⟨⟨ho, ?_⟩, hw⟩
    simpa [and_assoc] using harms

theorem agrees_existsTest : Agrees (existsTest g) (existsTest g')
    fun e => (Part.expr e).AllFormed d ∧ e.Closed :=
  (agrees_expectKeyword _).next fun _ => hg.query.inParens.bind fun _ hq =>
    .pure ⟨formed_query trivial rfl hq, rfl, rfl⟩

omit hg in
theorem agrees_namedPlaceholder (sigil : Char) :
    Agrees (namedPlaceholder sigil) (namedPlaceholder sigil)
      fun e => (Part.expr e).AllFormed d ∧ e.Closed :=
  agrees_advance.next fun _ => agrees_identifier.next fun _ =>
    .pure ⟨formed_leaf trivial rfl, rfl, rfl⟩

omit hg in
theorem agrees_constant (v : Literal) :
    Agrees (do advance; return .literal v) (do advance; return .literal v)
      fun e => (Part.expr e).AllFormed d ∧ e.Closed :=
  agrees_advance.next fun _ => .pure ⟨formed_leaf trivial rfl, rfl, rfl⟩

theorem agrees_keywordPrimary (k : Keyword) :
    Agrees (keywordPrimary g d k) (keywordPrimary g' d k)
      fun e => (Part.expr e).AllFormed d ∧ e.Closed := by
  unfold keywordPrimary
  split
  · exact agrees_constant _
  · exact agrees_constant _
  · exact agrees_constant _
  · exact agrees_caseExpr hg
  · exact agrees_castCall hg
  · exact agrees_existsTest hg
  · refine (agrees_symbolAt _ _).next fun _ => .ite ?_ ?_
    · exact agrees_advance.next fun _ => agrees_advance.next fun _ => agrees_arrayElements hg true
    · by_cases hs : k = .STRUCT && d.structStyle = .bigQuery
      · rw [if_pos hs, if_pos hs]
        exact agrees_structWithWord hg (by simp at hs; exact hs.2)
      · rw [if_neg hs, if_neg hs]
        refine (agrees_symbolAt _ _).next fun _ => .ite ?_ (.ite (.fail _ _) (agrees_named hg))
        refine .token fun _ _ _ text => agrees_advance.next fun _ => ?_
        exact (agrees_functionCall hg _).bind fun f hf => .pure (formed_call hf)

theorem agrees_symbolPrimary (s : Symbol) :
    Agrees (symbolPrimary g d s) (symbolPrimary g' d s)
      fun e => (Part.expr e).AllFormed d ∧ e.Closed := by
  cases s with
  | question =>
    exact agrees_advance.next fun _ => agrees_nextPlaceholder.next fun _ =>
      .pure ⟨formed_leaf trivial rfl, rfl, rfl⟩
  | colon => exact agrees_namedPlaceholder _
  | atSign => exact agrees_namedPlaceholder _
  | star => exact agrees_advance.next fun _ => agrees_wildcard hg _
  | leftParen => exact agrees_parenthesized hg
  | leftBracket => exact agrees_advance.next fun _ => agrees_arrayElements hg _
  | leftBrace =>
    by_cases hd : d.structStyle = .duckDb
    · simp only [symbolPrimary, hd, if_true]
      exact agrees_structInBraces hg hd
    · simp only [symbolPrimary, hd, if_false]
      exact .fail _ _
  | _ => exact .fail _ _

/-- What stands without operators around it cannot be opened from outside. -/
theorem agrees_primary : Agrees (primary g d) (primary g' d)
    fun e => (Part.expr e).AllFormed d ∧ e.Closed := by
  refine .token fun kind _ _ _ => ?_
  cases kind with
  | integer digits => exact agrees_constant _
  | float digits => exact agrees_constant _
  | string content => exact agrees_constant _
  | blob bytes => exact agrees_constant _
  | identifier name quote => exact agrees_named hg
  | keyword k => exact agrees_keywordPrimary hg k
  | symbol s => exact agrees_symbolPrimary hg s
  | endOfInput => exact .fail _ _

end Parse

end SqlTree
