import Mathlib
import SqlTree.Proofs.Reading.Rows
import SqlTree.Statement.Grammar.Any

/-! # Statements that declare tables are read back

* `optionRank`: the place of an option in what a column is written with, by the token that it begins
  with. The options of a column are read in any order and written in this one.
* `takes_columnDef`, `takes_tableConstraint`, …: one lemma for each reader.
* `finishes_createTable`: a `CREATE TABLE` statement, given what is behind its columns.
* `takes_alterTable`, `takes_knownShow`.
-/

namespace SqlTree
set_option autoImplicit false

open Parse

variable {d : Dialect} {dq : Bool} {g : Productions} {bound : Nat} {r : Layout} {n : Nat}

/-! ## The order of the options -/

/-- The place of an option of a column, by the token that it begins with. What ends a column comes
last. -/
def optionRank : TokenKind → Option Nat
  | .keyword .NOT => some 0
  | .keyword .DEFAULT => some 1
  | .keyword .PRIMARY => some 2
  | .keyword .UNIQUE => some 3
  | .keyword .AUTOINCREMENT => some 4
  | .keyword .REFERENCES => some 5
  | .symbol .comma | .symbol .rightParen | .endOfInput => some 6
  | _ => none

/-- What stands ahead is no option of a lower rank than `n`. -/
def EndsOption (dq : Bool) (n : Nat) (r : Layout) : Prop :=
  ∃ k ∈ optionRank (kindAhead dq r 0), n ≤ k

namespace EndsOption

/-- What is true of all tokens that options begin with. -/
theorem cases {P : TokenKind → Prop} (h : EndsOption dq n r)
    (hk : P (.keyword .NOT) ∧ P (.keyword .DEFAULT) ∧ P (.keyword .PRIMARY) ∧ P (.keyword .UNIQUE) ∧
      P (.keyword .AUTOINCREMENT) ∧ P (.keyword .REFERENCES) ∧ P (.symbol .comma) ∧
      P (.symbol .rightParen) ∧ P .endOfInput) : P (kindAhead dq r 0) := by
  obtain ⟨k, hr, -⟩ := h
  unfold optionRank at hr
  split at hr <;> first | (simp at hr; done) | simp_all

theorem ne (h : EndsOption dq n r) {kind : TokenKind} (hk : ∀ k ∈ optionRank kind, k < n) :
    kindAhead dq r 0 ≠ kind := by
  rintro rfl
  obtain ⟨k, hr, hn⟩ := h
  exact absurd (hk k hr) (by omega)

theorem breaks (h : EndsOption d.dq 1 r) (l : Layout) : Breaks d l r := by
  have hb := h.cases (P := fun kind => kind ≠ .keyword .NOT → breaksExpr kind = true) (by decide)
  exact .inl (hb (h.ne (by decide)))

theorem followsType (h : EndsOption dq n r) (t : DataType) : FollowsType dq t r := by
  have hf := h.cases (P := fun kind => kind ≠ .symbol .leftParen ∧ kind ≠ .symbol .leftBracket ∧
    isWord "PRECISION" kind = false) (by decide)
  exact ⟨hf.1, hf.2.1, fun _ => hf.2.2⟩

/-- An option that may be missing is in front of what stands behind it. -/
theorem option {m : Nat} {l : Layout} {k : Keyword} (h : EndsOption dq m r) (hm : n ≤ m)
    (hl : l = [] ∨ ∃ l', l.solid = .keyword k :: l')
    (hk : ∃ j ∈ optionRank (.keyword k), n ≤ j) : EndsOption dq n (l.solid ++ r) := by
  rcases hl with rfl | ⟨l', hl⟩
  · obtain ⟨j, hj, hn⟩ := h
    exact ⟨j, hj, hm.trans hn⟩
  · rw [hl]
    exact hk

end EndsOption

/-- A round of a repetition that is left out together with its tokens. -/
theorem Climbs.optionally {α : Type} {step : α → Parse (Option α)} {a b b' : α} {l o : Layout}
    (hs : Climbs dq step a l b (o.solid ++ r))
    (h : o = [] ∧ b' = b ∨ Takes dq (step b) (o.solid ++ r) (some b') r ∧ 0 < o.size) :
    Climbs dq step a l b' r := by
  rcases h with ⟨rfl, rfl⟩ | ⟨h, ho⟩
  · exact hs
  · refine .next hs h ?_
    rw [Layout.size_append, Layout.size_solid]
    omega

/-! ## Words -/

/-- A keyword that is not there, in front of another one. -/
theorem takes_otherKeyword {k w : Keyword} {l : Layout} (h : w ≠ k) :
    Takes dq (takeKeyword k) (.keyword w :: l) false (.keyword w :: l) :=
  takes_takeKeyword_no fun he => h (TokenKind.keyword.inj he)

theorem takes_ifNotExists (condition : Bool) (hr : kindAhead dq r 0 ≠ .keyword .IF) :
    Takes dq ifNotExists
      ((Layout.onlyIf condition (Layout.keywords [.IF, .NOT, .EXISTS] ++ [.gap])).solid ++ r)
      condition r := by
  cases condition with
  | true =>
    refine (takes_takeKeyword_yes _ _).bind ((takes_expectKeyword _ _).bind ?_)
    exact (takes_expectKeyword _ _).bind (.pure true r)
  | false => exact (takes_takeKeyword_no hr).bind (.pure false r)

theorem takes_ifExists (condition : Bool) (hr : kindAhead dq r 0 ≠ .keyword .IF) :
    Takes dq ifExists
      ((Layout.onlyIf condition (Layout.keywords [.IF, .EXISTS] ++ [.gap])).solid ++ r)
      condition r := by
  cases condition with
  | true => exact (takes_takeKeyword_yes _ _).bind ((takes_expectKeyword _ _).bind (.pure true r))
  | false => exact (takes_takeKeyword_no hr).bind (.pure false r)

/-- A keyword that may be left out. -/
theorem takes_optionalKeyword (k : Keyword) (condition : Bool)
    (hr : kindAhead dq r 0 ≠ .keyword k) :
    Takes dq (takeKeyword k) ((Layout.onlyIf condition [.keyword k, .gap]).solid ++ r)
      condition r := by
  cases condition with
  | true => exact takes_takeKeyword_yes _ _
  | false => exact takes_takeKeyword_no hr

theorem takes_foreignKeyRef {f : ForeignKeyRef} (h : f.Plain dq)
    (hr : kindAhead dq r 0 ≠ .symbol .leftParen) (hd : kindAhead dq r 0 ≠ .symbol .dot) :
    Takes dq foreignKeyRef
      (f.table.layout.solid ++ ((Ident.parensAfterGap f.columns).solid ++ r)) f r :=
  (h.1.takes (kindAhead_parensAfterGap (by simp) hd)).bind
    ((takes_parensAfterGap h.2 fun _ => hr).bind (.pure _ r))

theorem takes_plainNamesInParens {names : List Ident} (hne : names ≠ [])
    (h : ∀ i ∈ names, i.Plain dq) :
    Takes dq identifiersInParens ((Layout.parens (Ident.listLayout names)).solid ++ r) names r :=
  takes_identifiersInParens hne (Ident.Plain.legalAll h)

/-! ## The options of a column -/

/-- The options that a column is written with. -/
def ColumnDef.options (c : ColumnDef) : Layout :=
  Layout.onlyIf (!c.nullable) (.gap :: Layout.keywords [.NOT, .NULL]) ++
    (Layout.optional (fun e => Layout.behind [.DEFAULT] e.layout) c.default ++
    (Layout.onlyIf c.primaryKey (.gap :: Layout.keywords [.PRIMARY, .KEY]) ++
    (Layout.onlyIf c.unique [.gap, .keyword .UNIQUE] ++
    (Layout.onlyIf c.autoincrement [.gap, .keyword .AUTOINCREMENT] ++
    Layout.optional (fun f : ForeignKeyRef => .gap :: f.layout) c.references))))

theorem ColumnDef.layout_eq (c : ColumnDef) :
    c.layout = c.name.layout ++ .gap :: (c.type.layout ++ c.options) := by
  obtain ⟨name, type, nullable, default, primaryKey, unique, autoincrement, references⟩ := c
  cases default <;> cases references <;>
    simp [ColumnDef.layout, options, Expr.layoutAfter, Layout.behind, Layout.keywords]

/-- What stands behind each of the options is one of a higher rank. -/
theorem ColumnDef.endsOption_default (c : ColumnDef) (hr : EndsOption dq 6 r) :
    EndsOption dq 2 ((Layout.onlyIf c.primaryKey (.gap :: Layout.keywords [.PRIMARY, .KEY])).solid ++
      ((Layout.onlyIf c.unique [.gap, .keyword .UNIQUE]).solid ++
        ((Layout.onlyIf c.autoincrement [.gap, .keyword .AUTOINCREMENT]).solid ++
          ((Layout.optional (fun f : ForeignKeyRef => .gap :: f.layout) c.references).solid ++ r)))) := by
  have hflag : ∀ (condition : Bool) (k : Keyword) (l : Layout),
      Layout.onlyIf condition (.gap :: .keyword k :: l) = [] ∨
        ∃ l', (Layout.onlyIf condition (.gap :: .keyword k :: l)).solid = .keyword k :: l' := by
    intro condition k l
    cases condition <;> [exact .inl rfl; exact .inr ⟨_, rfl⟩]
  have h5 := hr.option (n := 5) (k := .REFERENCES)
    (l := Layout.optional (fun f : ForeignKeyRef => .gap :: f.layout) c.references) (by omega)
    (by cases c.references <;> [exact .inl rfl; exact .inr ⟨_, rfl⟩]) (by decide)
  have h4 := h5.option (n := 4) (by omega) (hflag c.autoincrement .AUTOINCREMENT []) (by decide)
  have h3 := h4.option (n := 3) (by omega) (hflag c.unique .UNIQUE []) (by decide)
  exact h3.option (n := 2) (by omega) (hflag c.primaryKey .PRIMARY [.gap, .keyword .KEY])
    (by decide)

theorem ColumnDef.endsOption (c : ColumnDef) (hr : EndsOption dq 6 r) :
    EndsOption dq 0 (c.options.solid ++ r) := by
  have h1 := (c.endsOption_default hr).option (n := 1) (by omega)
    (optional_cases .DEFAULT [] Expr.layout c.default) (by decide)
  have h0 := h1.option (n := 0) (k := .NOT)
    (l := Layout.onlyIf (!c.nullable) (.gap :: Layout.keywords [.NOT, .NULL])) (by omega)
    (by cases c.nullable <;> [exact .inr ⟨_, rfl⟩; exact .inl rfl]) (by decide)
  simpa only [options, Layout.solid_append, List.append_assoc] using h0

/-! ## Declarations in parts -/

namespace Parse.TablePart

/-- The written form of a part of the declaration of a table. -/
def layout : TablePart → Layout
  | .column c => c.layout
  | .constraint c => c.layout

/-- What is asked of a part for being read back. -/
def Reads (d : Dialect) : TablePart → Prop
  | .column c => c.Plain d.dq ∧ ∀ p ∈ c.parts, p.Obeys (Part.Clear d)
  | .constraint c => c.Plain d.dq ∧ ∀ p ∈ c.parts, p.Obeys (Part.Clear d)

end Parse.TablePart

namespace CreateTable

/-- The parts of a declaration, in the order in which they are written. -/
def declared (c : CreateTable) : List TablePart :=
  c.columns.map .column ++ c.constraints.map .constraint

/-- What a `CREATE TABLE` statement is written with in front of the query that it ends with. -/
def front (c : CreateTable) : Layout :=
  [.keyword .CREATE, .gap] ++ Layout.onlyIf c.temporary [.keyword .TEMPORARY, .gap] ++
    [.keyword .TABLE, .gap] ++
    Layout.onlyIf c.ifNotExists (Layout.keywords [.IF, .NOT, .EXISTS] ++ [.gap]) ++
    c.name.layout ++
    Layout.onlyIf (!c.declared.isEmpty)
      (.gap :: Layout.parens (Layout.commas (c.declared.map TablePart.layout))) ++
    Layout.onlyIf c.query.isSome [.gap, .keyword .AS, .gap]

theorem layout_eq (c : CreateTable) :
    c.layout = c.front ++ Layout.optional Query.layout c.query := by
  obtain ⟨temporary, ifNotExists, name, columns, constraints, query⟩ := c
  have hp : columns.map ColumnDef.layout ++ constraints.map TableConstraint.layout =
      (declared ⟨temporary, ifNotExists, name, columns, constraints, query⟩).map
        TablePart.layout := by
    simp [declared, Function.comp_def, TablePart.layout]
  have he : (columns.map ColumnDef.layout ++ constraints.map TableConstraint.layout).isEmpty =
      (declared ⟨temporary, ifNotExists, name, columns, constraints, query⟩).isEmpty := by
    rw [hp, List.isEmpty_map]
  simp only [CreateTable.layout, front, he]
  rw [hp]
  cases query <;> simp [Layout.onlyIf]

theorem filterMap_column (c : CreateTable) :
    c.declared.filterMap TablePart.column? = c.columns := by
  simp [declared, List.filterMap_append, List.filterMap_map, Function.comp_def,
    TablePart.column?]

theorem filterMap_constraint (c : CreateTable) :
    c.declared.filterMap TablePart.constraint? = c.constraints := by
  simp [declared, List.filterMap_append, List.filterMap_map, Function.comp_def,
    TablePart.constraint?]

/-- Something is said about the table. -/
theorem declared_or_query (c : CreateTable)
    (h : c.columns ≠ [] ∨ c.constraints ≠ [] ∨ c.query ≠ none) :
    (c.declared.isEmpty && c.query.isNone) = false := by
  obtain ⟨temporary, ifNotExists, name, columns, constraints, query⟩ := c
  cases columns <;> cases constraints <;> cases query <;> simp_all [declared]

end CreateTable

section Readers

variable (hg : g.Reads d bound)
include hg

/-! ## Columns -/

/-- The options of a column are read one after another, each into its field. -/
theorem climbs_columnOption {c : ColumnDef} (hl : c.Plain d.dq)
    (h : ∀ p ∈ c.parts, p.Obeys (Part.Clear d)) (hs : c.layout.size ≤ bound)
    (hr : EndsOption d.dq 6 r) :
    Climbs d.dq (columnOption g) { name := c.name, type := c.type } (c.options.solid ++ r) c r := by
  have hbreaks : EndsOption d.dq 1 _ := (c.endsOption_default hr).imp fun _ h => ⟨h.1, by omega⟩
  rw [ColumnDef.layout_eq] at hs
  obtain ⟨name, type, nullable, default, primaryKey, unique, autoincrement, references⟩ := c
  have hreferences : ∀ f ∈ references, f.Plain d.dq := hl.2.2
  have hdefault : ∀ e ∈ default, e.Clear d := fun e he =>
    h (.expr e) (List.mem_map_of_mem (by simpa using he))
  simp only [ColumnDef.options, Layout.size_append, Layout.size_gap, Layout.solid_append,
    List.append_assoc] at hs hbreaks ⊢
  -- The last option first, as it stands behind all the others.
  refine Climbs.optionally (b := { name, type, nullable, default, primaryKey, unique, autoincrement })
    (o := Layout.optional (fun f : ForeignKeyRef => .gap :: f.layout) references) ?_ ?references
  refine Climbs.optionally (b := { name, type, nullable, default, primaryKey, unique })
    (o := Layout.onlyIf autoincrement [.gap, .keyword .AUTOINCREMENT]) ?_ ?autoincrement
  refine Climbs.optionally (b := { name, type, nullable, default, primaryKey })
    (o := Layout.onlyIf unique [.gap, .keyword .UNIQUE]) ?_ ?unique
  refine Climbs.optionally (b := { name, type, nullable, default })
    (o := Layout.onlyIf primaryKey (.gap :: Layout.keywords [.PRIMARY, .KEY])) ?_ ?primaryKey
  refine Climbs.optionally (b := { name, type, nullable })
    (o := Layout.optional (fun e => Layout.behind [.DEFAULT] e.layout) default) ?_ ?default
  refine Climbs.optionally (b := { name, type })
    (o := Layout.onlyIf (!nullable) (.gap :: Layout.keywords [.NOT, .NULL])) .refl ?nullable
  case nullable =>
    cases nullable with
    | true => exact .inl ⟨rfl, rfl⟩
    | false =>
      refine .inr ⟨(takes_takeKeyword_yes _ _).bind ((takes_expectKeyword _ _).bind (.pure _ _)), ?_⟩
      decide
  case default =>
    cases default with
    | none => exact .inl ⟨rfl, rfl⟩
    | some e =>
      simp only [Layout.optional_some, Layout.behind, Layout.keywords, Layout.size_gap,
        Layout.size_append, Layout.size_keyword, Layout.size_nil] at hs
      have hread := takes_expr hg (hdefault e rfl) (by omega) (hbreaks.breaks _)
      refine .inr ⟨(takes_otherKeyword (by simp)).bind ((takes_otherKeyword (by simp)).bind ?_), ?_⟩
      · exact (takes_takeKeyword_yes _ _).bind (hread.bind (.pure _ _))
      · simp [Layout.behind, Layout.keywords]
  case primaryKey =>
    cases primaryKey with
    | false => exact .inl ⟨rfl, rfl⟩
    | true =>
      refine .inr ⟨(takes_otherKeyword (by simp)).bind ((takes_otherKeyword (by simp)).bind ((takes_otherKeyword (by simp)).bind ?_)), ?_⟩
      · exact (takes_takeKeyword_yes _ _).bind ((takes_expectKeyword _ _).bind (.pure _ _))
      · decide
  case unique =>
    cases unique with
    | false => exact .inl ⟨rfl, rfl⟩
    | true =>
      refine .inr ⟨(takes_otherKeyword (by simp)).bind ((takes_otherKeyword (by simp)).bind ((takes_otherKeyword (by simp)).bind ?_)), ?_⟩
      · exact (takes_otherKeyword (by simp)).bind ((takes_takeKeyword_yes _ _).bind (.pure _ _))
      · decide
  case autoincrement =>
    cases autoincrement with
    | false => exact .inl ⟨rfl, rfl⟩
    | true =>
      refine .inr ⟨(takes_otherKeyword (by simp)).bind ((takes_otherKeyword (by simp)).bind ((takes_otherKeyword (by simp)).bind ?_)), ?_⟩
      · refine (takes_otherKeyword (by simp)).bind ((takes_otherKeyword (by simp)).bind ?_)
        exact (takes_takeKeyword_yes _ _).bind (.pure _ _)
      · decide
  case references =>
    cases references with
    | none => exact .inl ⟨rfl, rfl⟩
    | some f =>
      have hread := takes_foreignKeyRef (hreferences f rfl) (hr.ne (by decide)) (hr.ne (by decide))
      refine .inr ⟨?_, by simp [ForeignKeyRef.layout]⟩
      simp only [Layout.optional_some, ForeignKeyRef.layout, Layout.solid_gap, Layout.solid_append,
        Layout.solid_keyword, List.cons_append, List.append_assoc]
      refine (takes_otherKeyword (by simp)).bind ((takes_otherKeyword (by simp)).bind ((takes_otherKeyword (by simp)).bind ?_))
      refine (takes_otherKeyword (by simp)).bind ((takes_otherKeyword (by simp)).bind ((takes_otherKeyword (by simp)).bind ?_))
      exact (takes_takeKeyword_yes _ _).bind (hread.bind (.pure _ _))

theorem takes_columnDef {c : ColumnDef} (hl : c.Plain d.dq)
    (h : ∀ p ∈ c.parts, p.Obeys (Part.Clear d)) (hs : c.layout.size ≤ bound)
    (hr : EndsOption d.dq 6 r) : Takes d.dq (columnDef g) (c.layout.solid ++ r) c r := by
  have hclimbs := climbs_columnOption hg hl h hs hr
  have hnone : Takes d.dq (columnOption g c) r none r := by
    have hno : ∀ k : Keyword, (∀ j ∈ optionRank (.keyword k), j < 6) →
        Takes d.dq (takeKeyword k) r false r := fun k hk => takes_takeKeyword_no (hr.ne hk)
    refine (hno .NOT (by decide)).bind ((hno .NULL (by decide)).bind ?_)
    refine (hno .DEFAULT (by decide)).bind ((hno .PRIMARY (by decide)).bind ?_)
    refine (hno .UNIQUE (by decide)).bind ((hno .AUTOINCREMENT (by decide)).bind ?_)
    exact (hno .REFERENCES (by decide)).bind (.pure none r)
  rw [c.layout_eq]
  simp only [Layout.solid_append, Layout.solid_gap, List.append_assoc]
  obtain ⟨hlegal, hfaithful⟩ := hl.2.1.legal_faithful
  have htype := takes_dataType hlegal hfaithful ((c.endsOption hr).followsType _)
  exact hl.1.takes.bind (htype.bind (hclimbs.takes hnone))

/-! ## Conditions on the rows of a table -/

theorem takes_constraintRule {c : ConstraintRule} (hl : c.Plain d.dq)
    (h : ∀ e, c = .check e → e.Clear d) (hs : c.layout.size ≤ bound)
    (hr : kindAhead d.dq r 0 ≠ .symbol .leftParen) (hd : kindAhead d.dq r 0 ≠ .symbol .dot) :
    Takes d.dq (constraintRule g) (c.layout.solid ++ r) c r := by
  cases c with
  | primaryKey columns =>
    have hnames := takes_plainNamesInParens (r := r) hl.1 hl.2
    exact (takes_takeKeyword_yes _ _).bind ((takes_expectKeyword _ _).bind
      (hnames.bind (.pure _ r)))
  | unique columns =>
    have hnames := takes_plainNamesInParens (r := r) hl.1 hl.2
    exact (takes_otherKeyword (by simp)).bind ((takes_takeKeyword_yes _ _).bind (hnames.bind (.pure _ r)))
  | foreignKey columns references =>
    obtain ⟨⟨hne, hcols⟩, href⟩ := hl
    simp only [ConstraintRule.layout, ForeignKeyRef.layout, Layout.solid_append, Layout.solid_gap,
      Layout.solid_keywords, Layout.solid_keyword, List.append_assoc, List.cons_append,
      List.nil_append]
    refine (takes_otherKeyword (by simp)).bind ((takes_otherKeyword (by simp)).bind ((takes_takeKeyword_yes _ _).bind ?_))
    refine (takes_expectKeyword _ _).bind ((takes_plainNamesInParens hne hcols).bind ?_)
    refine (takes_expectKeyword _ _).bind ?_
    exact (takes_foreignKeyRef href hr hd).bind (.pure _ r)
  | check condition =>
    simp only [ConstraintRule.layout, Layout.parens, Layout.size_keyword, Layout.size_gap,
      Layout.size_symbol, Layout.size_append, Layout.size_nil] at hs
    have hread := takes_expr (r := .symbol .rightParen :: r) hg (h condition rfl) (by omega) (.inl rfl)
    simp only [ConstraintRule.layout, Layout.parens, Layout.solid_keyword, Layout.solid_gap,
      Layout.solid_symbol, Layout.solid_append, Layout.solid_nil, List.cons_append,
      List.append_assoc, List.nil_append]
    refine (takes_otherKeyword (by simp)).bind ((takes_otherKeyword (by simp)).bind ((takes_otherKeyword (by simp)).bind ?_))
    exact (takes_takeKeyword_yes _ _).bind ((takes_inParens hread).bind (.pure _ r))

omit hg in
/-- The word that a condition on the rows of a table begins with. -/
theorem TableConstraint.head_layout (c : TableConstraint) :
    ∃ k l, c.layout.solid = .keyword k :: l ∧
      k ∈ [Keyword.CONSTRAINT, .PRIMARY, .UNIQUE, .FOREIGN, .CHECK] := by
  obtain ⟨name, rule⟩ := c
  cases name with
  | some name => exact ⟨.CONSTRAINT, _, rfl, by simp⟩
  | none => cases rule <;> exact ⟨_, _, rfl, by simp⟩

theorem takes_tableConstraint {c : TableConstraint} (hl : c.Plain d.dq)
    (h : ∀ p ∈ c.parts, p.Obeys (Part.Clear d)) (hs : c.layout.size ≤ bound)
    (hr : kindAhead d.dq r 0 ≠ .symbol .leftParen) (hd : kindAhead d.dq r 0 ≠ .symbol .dot) :
    Takes d.dq (tableConstraint g) (c.layout.solid ++ r) c r := by
  obtain ⟨name, rule⟩ := c
  have hname : ∀ i ∈ name, i.Plain d.dq := hl.1
  have hcheck : ∀ e, rule = .check e → e.Clear d := by
    rintro e rfl
    exact h (.expr e) (by simp [TableConstraint.parts])
  simp only [TableConstraint.layout, Layout.size_append] at hs
  have hread := takes_constraintRule hg hl.2 hcheck (by dsimp only; omega) hr hd
  cases name with
  | none =>
    have hk : kindAhead d.dq (rule.layout.solid ++ r) 0 ≠ .keyword .CONSTRAINT := by
      cases rule <;> exact fun he => by cases he
    exact (takes_afterKeyword_none hk).bind (hread.bind (.pure _ r))
  | some name =>
    simp only [TableConstraint.layout, Option.elim_some, Layout.solid_append, Layout.solid_keyword,
      Layout.solid_gap, List.append_assoc, List.cons_append, List.nil_append]
    exact (takes_afterKeyword_some (hname name rfl).takes).bind (hread.bind (.pure _ r))

omit hg in
theorem takes_tableConstraintAt_no {i : Ident} (h : i.Plain dq) :
    Takes dq tableConstraintAt (i.layout.solid ++ r) false (i.layout.solid ++ r) :=
  takes_anyKeywordAt_no (fun w _ he => by cases (h.head r).symm.trans he) (by simp)

omit hg in
theorem takes_tableConstraintAt_yes (c : TableConstraint) :
    Takes dq tableConstraintAt (c.layout.solid ++ r) true (c.layout.solid ++ r) := by
  obtain ⟨k, l, hl, hk⟩ := c.head_layout
  rw [hl]
  exact takes_anyKeywordAt_yes rfl hk (by simp)

/-! ## Parts of a declaration -/

theorem takes_tablePart {p : TablePart} (h : p.Reads d) (hs : p.layout.size ≤ bound)
    (hr : EndsOption d.dq 6 r) : Takes d.dq (tablePart g) (p.layout.solid ++ r) p r := by
  cases p with
  | column c =>
    have hat : Takes d.dq tableConstraintAt (c.layout.solid ++ r) false (c.layout.solid ++ r) := by
      rw [c.layout_eq, Layout.solid_append, List.append_assoc]
      exact takes_tableConstraintAt_no h.1.1
    exact hat.bind ((takes_columnDef hg h.1 h.2 hs hr).bind (.pure _ r))
  | constraint c =>
    refine (takes_tableConstraintAt_yes c).bind ?_
    exact (takes_tableConstraint hg h.1 h.2 hs (hr.ne (by decide)) (hr.ne (by decide))).bind
      (.pure _ r)

theorem takes_tableParts {parts : List TablePart} (h : ∀ p ∈ parts, p.Reads d)
    (hs : (Layout.onlyIf (!parts.isEmpty)
      (.gap :: Layout.parens (Layout.commas (parts.map TablePart.layout)))).size ≤ bound)
    (hr : kindAhead d.dq r 0 ≠ .symbol .leftParen) :
    Takes d.dq (tableParts g) ((Layout.onlyIf (!parts.isEmpty)
      (.gap :: Layout.parens (Layout.commas (parts.map TablePart.layout)))).solid ++ r) parts r := by
  cases parts with
  | nil => exact (takes_takeSymbol_no hr (by decide)).bind (.pure [] r)
  | cons p ps =>
    simp only [List.isEmpty_cons, Bool.not_false, Layout.onlyIf, if_true, Layout.parens,
      Layout.size_gap, Layout.size_symbol, Layout.size_append] at hs
    have hlist : Takes d.dq (commaList (tablePart g))
        ((Layout.commas ((p :: ps).map TablePart.layout)).solid ++ .symbol .rightParen :: r)
        (p :: ps) (.symbol .rightParen :: r) := by
      refine takes_commaList (by simp) (by simp) fun q hq r' hr' => takes_tablePart hg (h q hq) ?_ ?_
      · exact (size_of_mem_commas (List.mem_map_of_mem hq)).trans (by omega)
      · rcases hr' with ⟨-, rfl⟩ | ⟨l, rfl⟩
        · exact ⟨6, rfl, le_rfl⟩
        · exact ⟨6, rfl, le_rfl⟩
    have hl : (Layout.onlyIf (!(p :: ps).isEmpty) (.gap :: Layout.parens
        (Layout.commas ((p :: ps).map TablePart.layout)))).solid ++ r = .symbol .leftParen ::
          ((Layout.commas ((p :: ps).map TablePart.layout)).solid ++ .symbol .rightParen :: r) := by
      simp [Layout.onlyIf, Layout.parens]
    rw [hl]
    refine (takes_takeSymbol_yes _ _ (by decide)).bind (hlist.bind ?_)
    exact (takes_expectSymbol _ r (by decide)).bind (.pure _ r)

/-! ## Creating a table -/

/-- A `CREATE TABLE` statement, given the query that it ends with. -/
theorem finishes_createTable {c : CreateTable} (hl : c.Plain d.dq)
    (h : ∀ p ∈ c.declared, p.Reads d) (hs : c.front.size ≤ bound) {l : Layout} {n : Nat}
    (hnone : c.query = none → l = []) (hsome : ∀ q ∈ c.query, Finishes d.dq g.query l n q) :
    Finishes d.dq (createTable g) (c.front.solid ++ l) n c := by
  have hempty := c.declared_or_query hl.2.2.2
  have hcolumns := c.filterMap_column
  have hconstraints := c.filterMap_constraint
  obtain ⟨temporary, ifNotExists, name, columns, constraints, query⟩ := c
  obtain ⟨hname, -, -, -⟩ := hl
  simp only [CreateTable.front, Layout.size_append] at hs
  simp only [CreateTable.front, Layout.solid_append, Layout.solid_keyword, Layout.solid_gap,
    List.append_assoc, List.cons_append, List.nil_append]
  dsimp only at hname hnone hsome hempty hcolumns hconstraints
  generalize CreateTable.declared ⟨temporary, ifNotExists, name, columns, constraints, query⟩ =
    parts at *
  have htemporary (r : Layout) : Takes d.dq temporaryWord
      ((Layout.onlyIf temporary [.keyword .TEMPORARY, .gap]).solid ++ .keyword .TABLE :: r) temporary
      (.keyword .TABLE :: r) := by
    cases temporary with
    | true => exact (takes_takeKeyword_yes _ _).bind (.pure true _)
    | false =>
      exact (takes_takeKeyword_no fun he => by cases he).bind
        (takes_takeKeyword_no fun he => by cases he)
  have hquery : Finishes d.dq (do
      let query ← afterKeyword .AS g.query
      if parts.isEmpty && query.isNone then fail [Symbol.leftParen.text, Keyword.AS.text]
      else
        return (⟨temporary, ifNotExists, name, parts.filterMap TablePart.column?,
          parts.filterMap TablePart.constraint?, query⟩ : CreateTable))
      ((Layout.onlyIf query.isSome [.gap, .keyword .AS, .gap]).solid ++ l) n
      ⟨temporary, ifNotExists, name, columns, constraints, query⟩ := by
    rw [hcolumns, hconstraints]
    cases query with
    | none =>
      obtain rfl := hnone rfl
      refine (takes_afterKeyword_none fun he => by cases he).finish ?_
      rw [hempty]
      exact (Takes.pure _ _).finishes
    | some q =>
      have hread := (hsome q rfl).afterKeyword .AS
      refine hread.bind_pure fun c _ => ?_
      rw [hempty]
      rfl
  have hdot : kindAhead d.dq ((Layout.onlyIf (!parts.isEmpty)
      (.gap :: Layout.parens (Layout.commas (parts.map TablePart.layout)))).solid ++
        ((Layout.onlyIf query.isSome [.gap, .keyword .AS, .gap]).solid ++ l)) 0 ≠ .symbol .dot := by
    cases parts with
    | cons p ps => exact fun he => by cases he
    | nil =>
      cases query with
      | some q => exact fun he => by cases he
      | none => simp at hempty
  have hparen : kindAhead d.dq
      ((Layout.onlyIf query.isSome [.gap, .keyword .AS, .gap]).solid ++ l) 0 ≠
        .symbol .leftParen := by
    cases query with
    | some q => exact fun he => by cases he
    | none => simp [hnone rfl, Layout.onlyIf]
  have hparts := takes_tableParts hg h (by omega) hparen
  obtain ⟨first, quote, hfirst⟩ := hname.head _
  refine (takes_expectKeyword _ _).finish ((htemporary _).finish ?_)
  refine (takes_expectKeyword _ _).finish ((takes_ifNotExists ifNotExists ?_).finish ?_)
  · rw [hfirst]
    simp
  · exact (hname.takes hdot).finish (hparts.finish hquery)

/-! ## Changing a table -/

theorem takes_columnChange {c : ColumnChange} (hl : c.Plain d.dq)
    (h : ∀ e, c = .setDefault e → e.Clear d) (hs : c.layout.size ≤ bound)
    (hr : EndsOption d.dq 6 r) : Takes d.dq (columnChange g) (c.layout.solid ++ r) c r := by
  cases c with
  | setDefault e =>
    simp only [ColumnChange.layout, Layout.keywords, Layout.size_append, Layout.size_gap,
      Layout.size_keyword] at hs
    have hbreaks : EndsOption d.dq 1 r := hr.imp fun _ h => ⟨h.1, by omega⟩
    have hread := takes_expr hg (h e rfl) (by omega) (hbreaks.breaks _)
    exact (takes_takeKeyword_yes _ _).bind ((takes_takeKeyword_yes _ _).bind
      (hread.bind (.pure _ r)))
  | dropDefault =>
    refine (takes_otherKeyword (by simp)).bind ((takes_takeKeyword_yes _ _).bind ?_)
    exact (takes_takeKeyword_yes _ _).bind (.pure _ r)
  | setNotNull =>
    refine (takes_takeKeyword_yes _ _).bind ((takes_otherKeyword (by simp)).bind ?_)
    exact (takes_takeKeyword_yes _ _).bind ((takes_expectKeyword _ _).bind (.pure _ r))
  | dropNotNull =>
    refine (takes_otherKeyword (by simp)).bind ((takes_takeKeyword_yes _ _).bind ((takes_otherKeyword (by simp)).bind ?_))
    exact (takes_expectKeyword _ _).bind ((takes_expectKeyword _ _).bind (.pure _ r))
  | setType type =>
    obtain ⟨hlegal, hfaithful⟩ := DataType.ReadsBack.legal_faithful hl
    have hread := takes_dataType hlegal hfaithful (hr.followsType type)
    have hword : TokenKind.ofWord? d.dq "DATA" = some (.identifier "DATA" none) := by
      cases d.dq <;> decide
    simp only [ColumnChange.layout, Layout.solid_keyword, Layout.solid_gap, Layout.solid_word,
      List.cons_append, List.nil_append]
    have hno : ∀ (k : Keyword) (l : Layout),
        Takes d.dq (takeKeyword k) (.word "DATA" :: l) false (.word "DATA" :: l) := fun k l =>
      takes_takeKeyword_no fun he => by cases (Piece.kind_word hword).symm.trans he
    refine (takes_takeKeyword_yes _ _).bind ((hno _ _).bind ((hno _ _).bind ?_))
    refine takes_current (by simp) fun t ht _ => ?_
    rw [ht, Piece.kind_word hword]
    refine (takes_advance (by simp) rfl).bind ((takes_expectKeyword _ _).bind ?_)
    exact hread.bind (.pure _ r)

theorem takes_tableChange {c : TableChange} (hl : c.Plain d.dq)
    (h : ∀ p ∈ c.parts, p.Obeys (Part.Clear d)) (hs : c.layout.size ≤ bound)
    (hr : EndsOption d.dq 6 r) : Takes d.dq (tableChange g) (c.layout.solid ++ r) c r := by
  -- A word in front of a name, whether it is there or not, is no other word.
  have hname : ∀ {i : Ident} {l : Layout} {k : Keyword}, i.Plain d.dq →
      kindAhead d.dq (i.layout.solid ++ l) 0 ≠ .keyword k := fun hi he => by
    cases (hi.head _).symm.trans he
  have hword : ∀ {condition : Bool} {k w : Keyword} {l m : Layout}, k ≠ w →
      kindAhead d.dq m 0 ≠ .keyword w → kindAhead d.dq
        ((Layout.onlyIf condition (.keyword k :: l)).solid ++ m) 0 ≠ .keyword w := by
    intro condition k w l m hne hm
    cases condition with
    | true => exact fun he => hne (TokenKind.keyword.inj he)
    | false => exact hm
  cases c with
  | addColumn withColumn ifNotExists column =>
    simp only [TableChange.layout, Layout.size_append] at hs
    have hread := takes_columnDef hg hl h (by omega) hr
    have hi : ∀ {w : Keyword}, kindAhead d.dq (column.layout.solid ++ r) 0 ≠ .keyword w := by
      rw [column.layout_eq, Layout.solid_append, List.append_assoc]
      exact hname hl.1
    simp only [TableChange.layout, Layout.solid_append, Layout.solid_keyword, Layout.solid_gap,
      List.append_assoc, List.cons_append, List.nil_append]
    refine (takes_takeKeyword_yes _ _).bind ((takes_anyKeywordAt_no (fun w hw => ?_) (by simp)).bind ?_)
    · refine hword ?_ (hword ?_ hi)
      · rintro rfl
        simp at hw
      · rintro rfl
        simp at hw
    · refine (takes_optionalKeyword _ _ (hword (by simp) hi)).bind ?_
      exact (takes_ifNotExists _ hi).bind (hread.bind (.pure _ r))
  | dropColumn withColumn ifExists name =>
    simp only [TableChange.layout, Layout.solid_append, Layout.solid_keyword, Layout.solid_gap,
      List.append_assoc, List.cons_append, List.nil_append]
    refine (takes_otherKeyword (by simp)).bind ((takes_takeKeyword_yes _ _).bind ?_)
    refine (takes_takeKeyword_no (hword (by simp) (hword (by simp) (hname hl)))).bind ?_
    refine (takes_optionalKeyword _ _ (hword (by simp) (hname hl))).bind ?_
    exact (takes_ifExists _ (hname hl)).bind (hl.takes.bind (.pure _ r))
  | renameColumn oldName newName =>
    simp only [TableChange.layout, Layout.solid_append, Layout.solid_keywords,
      Layout.solid_keyword, Layout.solid_gap, List.append_assoc, List.cons_append, List.nil_append]
    refine (takes_otherKeyword (by simp)).bind ((takes_otherKeyword (by simp)).bind ((takes_takeKeyword_yes _ _).bind ?_))
    refine (takes_otherKeyword (by simp)).bind ((takes_takeKeyword_yes _ _).bind (hl.1.takes.bind ?_))
    exact (takes_expectKeyword _ _).bind (hl.2.takes.bind (.pure _ r))
  | renameTable newName =>
    have hread := ObjectName.Plain.takes (r := r) hl (hr.ne (by decide))
    refine (takes_otherKeyword (by simp)).bind ((takes_otherKeyword (by simp)).bind ((takes_takeKeyword_yes _ _).bind ?_))
    exact (takes_takeKeyword_yes _ _).bind (hread.bind (.pure _ r))
  | alterColumn name change =>
    simp only [TableChange.layout, Layout.size_append, Layout.size_gap] at hs
    have hread := takes_columnChange hg hl.2 (fun e he => h (.expr e) (by simp [he, TableChange.parts]))
      (by omega) hr
    simp only [TableChange.layout, Layout.solid_append, Layout.solid_keywords, Layout.solid_gap,
      List.append_assoc, List.cons_append]
    refine (takes_otherKeyword (by simp)).bind ((takes_otherKeyword (by simp)).bind ((takes_otherKeyword (by simp)).bind ?_))
    refine (takes_takeKeyword_yes _ _).bind ((takes_takeKeyword_yes _ _).bind ?_)
    exact hl.1.takes.bind (hread.bind (.pure _ r))
  | addConstraint constraint =>
    simp only [TableChange.layout, Layout.size_append] at hs
    have hread := takes_tableConstraint hg hl h (by omega) (hr.ne (by decide)) (hr.ne (by decide))
    refine (takes_takeKeyword_yes _ _).bind ((takes_tableConstraintAt_yes constraint).bind ?_)
    exact hread.bind (.pure _ r)
  | dropConstraint ifExists name =>
    simp only [TableChange.layout, Layout.solid_append, Layout.solid_keywords, Layout.solid_gap,
      List.append_assoc, List.cons_append]
    refine (takes_otherKeyword (by simp)).bind ((takes_takeKeyword_yes _ _).bind ?_)
    refine (takes_takeKeyword_yes _ _).bind ((takes_ifExists _ (hname hl)).bind ?_)
    exact hl.takes.bind (.pure _ r)

theorem takes_alterTable {a : AlterTable} (hl : a.Plain d.dq)
    (h : ∀ p ∈ (Statement.alterTable a).parts, p.Obeys (Part.Clear d)) (hs : a.layout.size ≤ bound) :
    Takes d.dq (alterTable g) a.layout.solid a [] := by
  obtain ⟨name, changes⟩ := a
  obtain ⟨hn, hne, hc⟩ := hl
  dsimp only at hn hne hc
  simp only [AlterTable.layout, Layout.size_append, Layout.size_gap] at hs
  have hchanges : Takes d.dq (commaList (tableChange g))
      ((Layout.commas (changes.map TableChange.layout)).solid ++ []) changes [] := by
    refine takes_commaList (by simp) hne fun c hm r' hr' => takes_tableChange hg (hc c hm) ?_ ?_ ?_
    · exact fun p hp => h p (List.mem_flatMap_of_mem hm hp)
    · exact (size_of_mem_commas (List.mem_map_of_mem hm)).trans (by omega)
    · rcases hr' with ⟨-, rfl⟩ | ⟨l, rfl⟩
      · exact ⟨6, rfl, le_rfl⟩
      · exact ⟨6, rfl, le_rfl⟩
  rw [List.append_nil] at hchanges
  obtain ⟨c, cs, rfl⟩ := List.exists_cons_of_ne_nil hne
  have hdot : kindAhead d.dq (Layout.commas ((c :: cs).map TableChange.layout)).solid 0 ≠
      .symbol .dot := by
    rw [List.map_cons, Layout.commas, solid_sepBy]
    cases c <;> exact fun he => by cases he
  simp only [AlterTable.layout, Layout.solid_append, Layout.solid_keywords, Layout.solid_gap,
    List.append_assoc, List.cons_append]
  refine (takes_expectKeyword _ _).bind ((takes_expectKeyword _ _).bind ?_)
  exact (hn.takes hdot).bind (hchanges.bind (.pure _ _))

end Readers

end SqlTree
