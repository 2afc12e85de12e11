import Mathlib
import SqlTree.Proofs.Naming.Rules
import SqlTree.Proofs.Parsing.DataType
import SqlTree.Proofs.Tracking.Expr
import SqlTree.Proofs.Tree.Names

/-! # The names in expressions that are read

* `gives_identifier`, `gives_objectName`, `gives_optionalAlias`, …: names that are read are legal.
* `Productions.Name dq g`: so are all names in what the readers `g` of whole trees answer.
* `gives_primary`: expressions without operators around them. Only the word of a function in front
  of a parenthesis is not read as a name, and the key of a value in braces may be a string.
* `gives_expression`: an operand with everything behind it.
-/

namespace SqlTree
set_option autoImplicit false

open Parse

variable {dq : Bool}

/-- All names in what some readers of whole trees answer are legal. -/
structure Productions.Name (dq : Bool) (g : Productions) : Prop where
  expr : ∀ power, Gives dq (g.expr power) fun e => (Part.expr e).AllNamed dq
  query : Gives dq g.query fun q => (Part.query q).AllNamed dq
  fromItem : Gives dq g.fromItem fun i => (Part.item i).AllNamed dq

theorem Productions.name_exhausted : Productions.exhausted.Name dq :=
  ⟨fun _ => .stop _, .stop _, .stop _⟩

namespace Parse

/-! ## Names -/

theorem gives_identifier : Gives dq identifier fun i => i.Legal dq :=
  gives_of_spends fun _ => spends_identifier.mono fun _ _ _ h => h.legal

theorem gives_dottedName :
    Gives dq dottedName fun x => ∀ i ∈ x.1 :: x.2, i.Legal dq := by
  have hmore : Gives dq nameAfterDot fun o => ∀ i ∈ o, i.Legal dq :=
    .next (moves_symbolAt 0 _) fun _ => .next (moves_nameAt 1) fun _ =>
      .ite (.next moves_advance fun _ => gives_identifier.some) .none
  exact gives_identifier.bind fun _ hi => hmore.collect.bind fun _ his =>
    .pure (List.forall_mem_cons.2 ⟨hi, his⟩)

theorem gives_objectName : Gives dq objectName fun n => ∀ i ∈ n.parts, i.Legal dq :=
  gives_dottedName.bind fun _ h => .pure h

theorem gives_identifiersInParens :
    Gives dq identifiersInParens fun is => ∀ i ∈ is, i.Legal dq :=
  gives_identifier.commaList.inParens

theorem gives_optionalIdentifiers :
    Gives dq optionalIdentifiers fun is => ∀ i ∈ is, i.Legal dq :=
  .next (moves_symbolAt 0 _) fun _ => .ite gives_identifiersInParens (.pure (by simp))

theorem gives_oneOrMoreIdentifiers :
    Gives dq oneOrMoreIdentifiers fun is => ∀ i ∈ is, i.Legal dq :=
  .next (moves_symbolAt 0 _) fun _ => .ite gives_identifiersInParens
    (gives_identifier.bind fun _ hi => .pure (by simpa using hi))

theorem gives_optionalAlias :
    Gives dq optionalAlias fun o => ∀ i ∈ o.toList.flatMap Alias.names, i.Legal dq := by
  have hname : ∀ f : Ident → Alias, (∀ i, (f i).names = [i]) →
      Gives dq (identifier >>= fun i => pure (some (f i))) fun o =>
        ∀ i ∈ o.toList.flatMap Alias.names, i.Legal dq := fun f hf =>
    gives_identifier.bind fun i hi => .pure (by simpa [hf] using hi)
  exact .next (moves_takeKeyword _) fun _ => .ite (hname .explicit fun _ => rfl)
    (.next (moves_nameAt 0) fun _ => .ite (hname .implicit fun _ => rfl) (.pure (by simp)))

theorem gives_tableAlias :
    Gives dq tableAlias fun o => ∀ i ∈ o.toList.flatMap Alias.names, i.Legal dq := by
  refine gives_optionalAlias.bind fun o ho => ?_
  cases o with
  | none => exact .pure (by simp)
  | some a =>
    have ha : a.name.Legal dq := ho a.name (by simp [Alias.names])
    refine .next (moves_symbolAt 0 _) fun _ => .next (moves_nameAt 1) fun _ =>
      .ite (gives_identifiersInParens.bind fun is his => .pure ?_) (.pure ho)
    simpa [Alias.names] using ⟨ha, his⟩

/-! ## Types -/

theorem gives_dataType : Gives dq dataType fun t => ∀ i ∈ t.names, i.Legal dq :=
  gives_of_spends fun _ => spends_dataType.mono fun _ _ _ h => h.legal.names

theorem gives_structFields (anonymous : Bool) :
    Gives dq (structFields anonymous) fun fs => ∀ i ∈ StructField.names fs, i.Legal dq := by
  have hbehind : ∀ name : Option Ident, (∀ i ∈ name, i.Legal dq) →
      Gives dq (dataType >>= fun type => pure ({ name, type } : StructField)) fun f =>
        ∀ i ∈ f.name.toList ++ f.type.names, i.Legal dq := fun name hname =>
    gives_dataType.bind fun _ ht => .pure (List.forall_mem_append.2 ⟨by simpa using hname, ht⟩)
  have hnamed : Gives dq (some <$> identifier) fun name => ∀ i ∈ name, i.Legal dq :=
    gives_identifier.map (by simp)
  have hfield : Gives dq (structField dataType anonymous)
      fun f => ∀ i ∈ f.name.toList ++ f.type.names, i.Legal dq := by
    cases anonymous with
    | false => exact hnamed.bind hbehind
    | true =>
      have hlook : Moves (do return (← nameAt 0) && startsDataType (← peek 1)) :=
        moves_look fun _ => rfl
      exact .next hlook fun _ => .join hnamed .none hbehind
  exact hfield.commaList.mono fun fs h => by
    simpa only [StructField.names_eq_flatMap, List.forall_mem_flatMap] using h

/-! ## Lists and items -/

section Expressions

variable {g : Productions} {d : Dialect} (hg : g.Name dq)

include hg

theorem gives_exprList : Gives dq (exprList g) fun es => ∀ e ∈ es, (Part.expr e).AllNamed dq :=
  (hg.expr 0).commaList

theorem gives_selectItem : Gives dq (selectItem g) fun i =>
    LegalNames dq [.expr i.expr] (i.alias?.toList.flatMap Alias.names) :=
  (hg.expr 0).bind fun _ he => .ite (.pure ⟨by simpa using he, by simp⟩)
    (gives_optionalAlias.bind fun _ ha => .pure ⟨by simpa using he, ha⟩)

theorem gives_selectItems :
    Gives dq (selectItems g) fun is => LegalNames dq (SelectItem.parts is) (SelectItem.names is) :=
  (gives_selectItem hg).commaList.mono fun _ h => .map h

theorem gives_argument : Gives dq (argument g) fun e => (Part.expr e).AllNamed dq :=
  .next (moves_queryAt 0) fun _ => .ite
    (hg.query.bind fun _ hq =>
      .pure (.of_children (by simpa [Part.children, Expr.children]) rfl rfl))
    (hg.expr 0)

/-- A call keeps its name. -/
theorem gives_functionCall (name : ObjectName) : Gives dq (functionCall g name) fun c =>
    c.name = name ∧ ∀ e ∈ c.arguments, (Part.expr e).AllNamed dq := by
  refine .next (moves_expectSymbol _) fun _ => .next (moves_takeKeyword _) fun _ =>
    .next (moves_symbolAt 0 _) fun _ => .join (.pure (by simp)) (gives_argument hg).commaList ?_
  exact fun es hes => .next (moves_expectSymbol _) fun _ => .pure ⟨rfl, hes⟩

/-! ## Wildcards -/

omit hg in
theorem gives_wildcardExcept :
    Gives dq (wildcardExcept d) fun o => ∀ e ∈ o, ∀ i ∈ e.columns, i.Legal dq := by
  have hcolumns : ∀ word : ExceptWord, Gives dq (advance >>= fun _ => identifiersInParens >>=
      fun columns => pure (some ⟨word, columns⟩ : Option WildcardExcept)) fun o =>
        ∀ e ∈ o, ∀ i ∈ e.columns, i.Legal dq := fun _ =>
    .next moves_advance fun _ => gives_identifiersInParens.bind fun _ h =>
      .pure (by simpa using h)
  exact .next (moves_symbolAt 1 _) fun _ => .next (moves_keywordAt 0 _) fun _ =>
    .next (moves_queryAt 2) fun _ => .ite (hcolumns _)
      (.next (moves_keywordAt 0 _) fun _ => .ite (hcolumns _) .none)

theorem gives_wildcard (table : Option ObjectName) (ht : ∀ n ∈ table, ∀ i ∈ n.parts, i.Legal dq) :
    Gives dq (wildcard g d table) fun e => (Part.expr e).AllNamed dq := by
  have hreplace : Gives dq (wildcardReplace g d) fun o =>
      LegalNames dq (SelectItem.parts (o.getD [])) (SelectItem.names (o.getD [])) := by
    refine .next (moves_keywordAt 0 _) fun _ => .next (moves_symbolAt 1 _) fun _ =>
      .ite ?_ (.pure .nil)
    exact .next moves_advance fun _ => .next moves_advance fun _ =>
      (gives_selectItems hg).bind fun _ h => .next (moves_expectSymbol _) fun _ => .pure h
  refine gives_wildcardExcept.bind fun except he => hreplace.bind fun o ho => .pure ?_
  refine .node ?_ ho.parts rfl
  simp only [Part.names, Expr.names, List.forall_mem_append, List.forall_mem_flatMap,
    Option.mem_toList]
  exact ⟨⟨ht, he⟩, ho.names⟩

/-! ## Columns and calls -/

omit hg in
theorem names_columnOf {first : Ident} {more : List Ident} (h : ∀ i ∈ first :: more, i.Legal dq) :
    ∀ i ∈ (columnOf first more).names, i.Legal dq := by
  unfold columnOf
  cases hl : more.getLast? with
  | none => simpa [ColumnRef.names] using h first
  | some name =>
    rw [List.forall_mem_cons] at h
    have hmore : ∀ i ∈ more.dropLast ++ [name], i.Legal dq := by
      rw [List.dropLast_append_getLast? name hl]
      exact h.2
    exact List.forall_mem_cons.2 ⟨h.1, hmore⟩

/-- A call of a name that is legal, or a reserved word. -/
theorem gives_callExpr {name : ObjectName}
    (h : name.isFunctionWord = false → ∀ i ∈ name.parts, i.Legal dq) :
    Gives dq (functionCall g name >>= fun c => pure (Expr.call c))
      fun e => (Part.expr e).AllNamed dq := by
  refine (gives_functionCall hg name).bind fun c hc => .pure (.node ?_ ?_ rfl)
  · simp only [Part.names, Expr.names, FunctionCall.names, hc.1]
    split
    · simp
    · next hw => exact h (by simpa using hw)
  · simpa [Part.children, Expr.children, Part.exprs] using hc.2

theorem gives_named : Gives dq (named g d) fun e => (Part.expr e).AllNamed dq := by
  refine gives_dottedName.bind fun (first, more) hnames => .next (moves_symbolAt 0 _) fun _ =>
    .next (moves_symbolAt 1 _) fun _ => .ite ?_ (.next (moves_symbolAt 0 _) fun _ => .ite ?_ ?_)
  · exact .next moves_advance fun _ => .next moves_advance fun _ =>
      gives_wildcard hg _ (by simpa using hnames)
  · exact gives_callExpr hg fun _ => hnames
  · exact .pure (.node (names_columnOf hnames) (by simp [Part.children, Expr.children]) rfl)

/-! ## Brackets, braces and parentheses -/

theorem gives_parenthesized : Gives dq (parenthesized g) fun e => (Part.expr e).AllNamed dq := by
  refine .next (moves_queryAt 1) fun _ => .ite ?_ ?_
  · exact .next moves_advance fun _ => hg.query.bind fun _ hq =>
      .next (moves_expectSymbol _) fun _ => .pure (.of_children (by
        simpa [Part.children, Expr.children]) rfl rfl)
  · refine .next (moves_expectSymbol _) fun _ => (hg.expr 0).bind fun first hfirst =>
      (hg.expr 0).afterComma.collect.bind fun more hmore => ?_
    cases more with
    | nil =>
      exact .next (moves_expectSymbol _) fun _ => .pure (.of_children (by
        simpa [Part.children, Expr.children]) rfl rfl)
    | cons e more =>
      refine .next (moves_expectSymbol _) fun _ => .pure (.of_children ?_ rfl rfl)
      simp only [Part.children, Expr.children, Part.exprs, List.forall_mem_map]
      exact List.forall_mem_cons.2 ⟨hfirst, hmore⟩

theorem gives_arrayElements (withWord : Bool) :
    Gives dq (arrayElements g withWord) fun e => (Part.expr e).AllNamed dq :=
  .next (moves_symbolAt 0 _) fun _ => .join (.pure (by simp)) (gives_exprList hg) fun _ hes =>
    .next (moves_expectSymbol _) fun _ => .pure (.of_children (by
      simpa [Part.children, Expr.children, Part.exprs]) rfl rfl)

omit hg in
theorem gives_valueFields : Gives dq valueFields fun o =>
    ∀ i ∈ StructField.names (o.getD []), i.Legal dq :=
  .next (moves_takeSymbol _) fun _ => .ite
    ((gives_structFields _).bind fun _ h => .next moves_closingAngle fun _ => .pure h)
    (.pure (by simp [StructField.names]))

theorem gives_valueArguments (typed : Bool) : Gives dq (valueArguments g typed) fun o =>
    LegalNames dq (SelectItem.parts (o.getD [])) (SelectItem.names (o.getD [])) := by
  refine .next (moves_takeSymbol _) fun _ => .ite ?_ (.ite (.pure .nil) (.fail _))
  exact .next (moves_symbolAt 0 _) fun _ => .join (.pure .nil) (gives_selectItems hg) fun _ h =>
    .next (moves_expectSymbol _) fun _ => .pure h

theorem gives_structWithWord : Gives dq (structWithWord g) fun e => (Part.expr e).AllNamed dq := by
  refine .next moves_current fun _ => .next moves_advance fun _ =>
    gives_valueFields.bind fun fields hf => (gives_valueArguments hg _).bind fun arguments ha =>
      .pure (.node ?_ ha.parts rfl)
  exact List.forall_mem_append.2 ⟨hf, ha.names⟩

omit hg in
theorem gives_fieldKey : Gives dq fieldKey fun i => i.IsKey dq := by
  refine .next moves_current fun token => ?_
  split
  · exact .next moves_advance fun _ => .pure (.inr rfl)
  · exact gives_identifier.mono fun _ h => .inl h

theorem gives_keyedField : Gives dq (keyedField g) fun i =>
    (Part.expr i.expr).AllNamed dq ∧ ∀ a ∈ i.alias?, ∀ n ∈ a.names, n.IsKey dq :=
  gives_fieldKey.bind fun _ hkey => .next (moves_expectSymbol _) fun _ =>
    (hg.expr 0).bind fun _ he => .pure ⟨he, by simpa [Alias.names, Alias.implicit] using hkey⟩

theorem gives_structInBraces : Gives dq (structInBraces g) fun e => (Part.expr e).AllNamed dq := by
  refine .next (moves_expectSymbol _) fun _ => .next (moves_symbolAt 0 _) fun _ =>
    .join (.pure (by simp)) (gives_keyedField hg).commaList fun is his =>
      .next (moves_expectSymbol _) fun _ => .pure (Part.obeys_iff.2 ⟨⟨?_, ?_⟩, ?_⟩)
  · simp [Part.names, Expr.names, StructValue.names, StructField.names]
  · simp only [Part.keys, Expr.keys, StructValue.keys, Option.getD_some, SelectItem.names,
      List.forall_mem_flatMap, Option.mem_toList]
    exact fun i hi => (his i hi).2
  · simp only [Part.children, Expr.children, Option.getD_some, SelectItem.parts,
      List.forall_mem_map]
    exact fun i hi => (his i hi).1

/-! ## Words -/

theorem gives_castCall : Gives dq (castCall g) fun e => (Part.expr e).AllNamed dq :=
  .next (moves_expectKeyword _) fun _ => .next (moves_expectSymbol _) fun _ =>
    (hg.expr 0).bind fun _ he => .next (moves_expectKeyword _) fun _ =>
      gives_dataType.bind fun _ ht => .next (moves_expectSymbol _) fun _ =>
        .pure (.node ht (by simpa [Part.children, Expr.children]) rfl)

theorem gives_whenArm : Gives dq (whenArm g) fun o => ∀ a ∈ o,
    (Part.expr a.condition).AllNamed dq ∧ (Part.expr a.result).AllNamed dq :=
  .next (moves_takeKeyword _) fun _ => .ite
    ((hg.expr 0).bind fun _ he => .next (moves_expectKeyword _) fun _ =>
      (hg.expr 0).bind fun _ he' => .pure (by simpa using ⟨he, he'⟩))
    .none

theorem gives_caseExpr : Gives dq (caseExpr g) fun e => (Part.expr e).AllNamed dq := by
  have hoperand : Gives dq (some <$> g.expr 0) fun o => ∀ e ∈ o, (Part.expr e).AllNamed dq :=
    (hg.expr 0).map (by simp)
  refine .next (moves_expectKeyword _) fun _ => .next (moves_keywordAt 0 _) fun _ =>
    .join .none hoperand fun tested ht => (gives_whenArm hg).collect.bind fun arms harms =>
      .ite (.fail _) (((hg.expr 0).afterKeyword _).bind fun otherwise hw =>
        .next (moves_expectKeyword _) fun _ => .pure (.of_children ?_ rfl rfl))
  simp only [Part.children, Expr.children, List.forall_mem_append, Part.exprs, List.forall_mem_map,
    List.forall_mem_flatMap, Option.mem_toList, List.forall_mem_cons]
  refine ⟨⟨ht, ?_⟩, hw⟩
  simpa using harms

theorem gives_existsTest : Gives dq (existsTest g) fun e => (Part.expr e).AllNamed dq :=
  .next (moves_expectKeyword _) fun _ => hg.query.inParens.bind fun _ hq =>
    .pure (.of_children (by simpa [Part.children, Expr.children]) rfl rfl)

omit hg in
theorem gives_leaf {e : Expr} {p : Parse Unit} (hp : Moves p) (hc : e.children = [])
    (hn : e.names = []) (hk : e.keys = []) :
    Gives dq (p >>= fun _ => pure e) fun e => (Part.expr e).AllNamed dq :=
  .next hp fun _ => .pure (.of_children (by simp [Part.children, hc]) hn hk)

omit hg in
theorem gives_namedPlaceholder (sigil : Char) :
    Gives dq (namedPlaceholder sigil) fun e => (Part.expr e).AllNamed dq :=
  .next moves_advance fun _ => .next moves_identifier fun _ =>
    .pure (.of_children (by simp [Part.children, Expr.children]) rfl rfl)

omit hg in
/-- A reserved word in front of a parenthesis is the name of a function. -/
theorem isFunctionWord_of_genuine {t : Token} (ht : t.Genuine dq) {k : Keyword}
    (hk : t.kind = .keyword k) (hword : functionWords.contains k = true) :
    ObjectName.isFunctionWord ⟨[{ name := t.text }]⟩ = true := by
  rw [Token.Genuine, hk] at ht
  simp only [ObjectName.isFunctionWord, ofText?_of_keyword ht, Option.any_some, hword]

/-- The keyword is the one under the cursor. -/
theorem gives_keywordPrimary {c : Cursor} {k : Keyword} (hk : c.current.kind = .keyword k) :
    GivesAt dq c (keywordPrimary g d k) fun e => (Part.expr e).AllNamed dq := by
  unfold keywordPrimary
  split
  · exact gives_leaf moves_advance rfl rfl rfl c
  · exact gives_leaf moves_advance rfl rfl rfl c
  · exact gives_leaf moves_advance rfl rfl rfl c
  · exact gives_caseExpr hg c
  · exact gives_castCall hg c
  · exact gives_existsTest hg c
  · refine .look (g := fun c => c.peek 1 == .symbol .leftBracket) (fun _ => rfl) (.ite (fun _ => ?_)
      fun _ => .ite (fun _ => gives_structWithWord hg c) fun _ => ?_)
    · have hbrackets : Gives dq (do advance; advance; arrayElements g true)
          fun e => (Part.expr e).AllNamed dq :=
        .next moves_advance fun _ => .next moves_advance fun _ => gives_arrayElements hg true
      exact hbrackets c
    · refine .look (g := fun c => c.peek 1 == .symbol .leftParen) (fun _ => rfl) (.ite (fun h => ?_)
        fun _ => .ite (fun _ => Gives.fail _ c) fun _ => gives_named hg c)
      refine .look current_apply fun hc => ?_
      -- Only here a token is a name without being read as one.
      obtain ⟨-, -, ht, -⟩ := hc.cons (by simp [hk])
      have hword := isFunctionWord_of_genuine ht hk (by simp_all)
      have hcall : Gives dq
          (do advance; return Expr.call (← functionCall g ⟨[{ name := c.current.text }]⟩))
          fun e => (Part.expr e).AllNamed dq :=
        .next moves_advance fun _ => gives_callExpr hg (by simp [hword])
      exact hcall c hc

theorem gives_symbolPrimary (s : Symbol) :
    Gives dq (symbolPrimary g d s) fun e => (Part.expr e).AllNamed dq := by
  unfold symbolPrimary
  split
  · refine .next moves_advance fun _ => Gives.bind (P := fun _ => True) ?_ fun _ _ =>
      .pure (.of_children (by simp [Part.children, Expr.children]) rfl rfl)
    exact Moves.gives (tracks_nextPlaceholder.mono fun _ => List.nil_subperm)
  · exact gives_namedPlaceholder _
  · exact gives_namedPlaceholder _
  · exact .next moves_advance fun _ => gives_wildcard hg none (by simp)
  · exact gives_parenthesized hg
  · exact .next moves_advance fun _ => gives_arrayElements hg false
  · exact .ite (gives_structInBraces hg) (.fail _)
  · exact .fail _

theorem gives_primary : Gives dq (primary g d) fun e => (Part.expr e).AllNamed dq := by
  intro c
  refine .look current_apply ?_
  split
  · exact gives_leaf moves_advance rfl rfl rfl c
  · exact gives_leaf moves_advance rfl rfl rfl c
  · exact gives_leaf moves_advance rfl rfl rfl c
  · exact gives_leaf moves_advance rfl rfl rfl c
  · exact gives_named hg c
  · next hk => exact gives_keywordPrimary hg hk
  · exact gives_symbolPrimary hg _ c
  · exact Gives.fail _ c

/-! ## Operators -/

theorem gives_operand : Gives dq (operand g d) fun e => (Part.expr e).AllNamed dq := by
  refine .next moves_current fun token => ?_
  split
  · exact .next moves_advance fun _ => (hg.expr _).bind fun _ he =>
      .pure (.of_children (by simpa [Part.children, Expr.children]) rfl rfl)
  · exact gives_primary hg

omit hg in
/-- The names in a value with a type are those in the value and in the type. -/
theorem named_ascribe {e : Expr} {type : DataType} (he : (Part.expr e).AllNamed dq)
    (ht : ∀ i ∈ type.names, i.Legal dq) : (Part.expr (ascribe e type)).AllNamed dq := by
  unfold ascribe
  split
  · next word arguments fields =>
    obtain ⟨⟨-, hkeys⟩, hchildren⟩ := Part.obeys_iff.1 he
    refine Part.obeys_iff.2 ⟨⟨?_, hkeys⟩, hchildren⟩
    simpa [Part.names, Expr.names, StructValue.names, DataType.names] using ht
  · exact .node ht (by simpa [Part.children, Expr.children]) rfl

variable {tested : Expr} (ht : (Part.expr tested).AllNamed dq) (negated : Bool)

include ht

theorem gives_predicate :
    Gives dq (predicate g tested negated) fun e => (Part.expr e).AllNamed dq := by
  refine .next (moves_keywordAt 0 _) fun _ => .ite ?_
    (.next (moves_keywordAt 0 _) fun _ => .ite ?_ ?_)
  · refine .next (moves_expectKeyword _) fun _ => .next (moves_expectSymbol _) fun _ =>
      .next (moves_queryAt 0) fun _ => .ite ?_ ?_
    · refine hg.query.bind fun _ hq => .next (moves_expectSymbol _) fun _ => .pure ?_
      exact .of_children (by simpa [Part.children, Expr.children] using ⟨ht, hq⟩) rfl rfl
    · refine (gives_exprList hg).bind fun _ hes => .next (moves_expectSymbol _) fun _ => .pure ?_
      refine .of_children ?_ rfl rfl
      simpa [Part.children, Expr.children, Part.exprs] using ⟨ht, hes⟩
  · refine .next (moves_expectKeyword _) fun _ => (hg.expr _).bind fun _ hlow =>
      .next (moves_expectKeyword _) fun _ => (hg.expr _).bind fun _ hhigh => .pure ?_
    exact .of_children (by simpa [Part.children, Expr.children] using ⟨ht, hlow, hhigh⟩) rfl rfl
  · refine .next (moves_keywordAt 0 _) fun _ => .next moves_advance fun _ =>
      (hg.expr _).bind fun _ hpattern => .pure ?_
    exact .of_children (by simpa [Part.children, Expr.children] using ⟨ht, hpattern⟩) rfl rfl

omit hg in
theorem gives_nullTest : Gives dq (nullTest tested) fun e => (Part.expr e).AllNamed dq :=
  .next (moves_expectKeyword _) fun _ => .next (moves_takeKeyword _) fun _ =>
    .next (moves_expectKeyword _) fun _ =>
      .pure (.of_children (by simpa [Part.children, Expr.children]) rfl rfl)

theorem gives_extend (power : Nat) :
    Gives dq (extend g power tested) fun o => ∀ e ∈ o, (Part.expr e).AllNamed dq := by
  refine .next moves_current fun token => .ite (.ite .none ?_) ?_
  · exact .next moves_advance fun _ => gives_dataType.bind fun type htype =>
      .pure (by simpa using named_ascribe ht htype)
  · split
    · refine .ite .none (.next moves_advance fun _ => (hg.expr _).bind fun right hright => .pure ?_)
      rintro _ ⟨⟩
      exact .of_children (by simpa [Part.children, Expr.children] using ⟨ht, hright⟩) rfl rfl
    · refine .ite .none (.ite (gives_nullTest ht).some (.ite ?_ (gives_predicate hg ht _).some))
      exact .next (moves_anyKeywordAt 1 _) fun _ =>
        .ite (.next moves_advance fun _ => (gives_predicate hg ht _).some) .none

omit ht in
theorem gives_expression (power : Nat) :
    Gives dq (expression g d power) fun e => (Part.expr e).AllNamed dq :=
  (gives_operand hg).bind fun _ he => .repeatFrom he fun _ h => gives_extend hg h power

end Expressions

end Parse

end SqlTree
