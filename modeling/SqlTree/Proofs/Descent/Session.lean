import Mathlib
import SqlTree.Proofs.Descent.Statement

/-! # Every call on a session comes to an end

* `Reader`: the functions of the grammar. `lasts_reader`: none of them leaves more ahead than it
  found.
* `Round`: what the repetitions of the grammar repeat. `rounds_round`: a round that another one
  follows has left less ahead.
* `Descends`: these two, with trees in trees, which begin where less is ahead, and with the settings
  that are gone through twice.
* `Session.descends_after`: so no call runs out of the allowance that it begins with.
-/

namespace SqlTree
set_option autoImplicit false

namespace Parse

variable {α : Type} {o : Options} {source : String} {l : List Token} {r : Outset} {p : Parse α}

/-! ## The functions of the grammar -/

/-- The functions of the grammar, with `g` for trees in trees and `type` for types in types. -/
inductive Reader (o : Options) (source : String) (g : Productions) (type : Parse DataType) :
    {α : Type} → Parse α → Prop where
  -- tokens and arrangements
  | advance : Reader o source g type advance
  | takeSymbol (s : Symbol) : Reader o source g type (takeSymbol s)
  | takeKeyword (w : Keyword) : Reader o source g type (takeKeyword w)
  | expectSymbol (s : Symbol) : Reader o source g type (expectSymbol s)
  | expectKeyword (w : Keyword) : Reader o source g type (expectKeyword w)
  | closingAngle : Reader o source g type closingAngle
  | nextPlaceholder : Reader o source g type nextPlaceholder
  | afterComma {α : Type} {item : Parse α} :
      Reader o source g type item → Reader o source g type (afterComma item)
  | commaList {α : Type} {item : Parse α} :
      Reader o source g type item → Reader o source g type (commaList item)
  | inParens {α : Type} {item : Parse α} :
      Reader o source g type item → Reader o source g type (inParens item)
  | afterKeyword {α : Type} (w : Keyword) {item : Parse α} :
      Reader o source g type item → Reader o source g type (afterKeyword w item)
  | ifKeyword {α : Type} (w : Keyword) {item : Parse α} :
      Reader o source g type item → Reader o source g type (ifKeyword w item)
  -- names
  | identifier : Reader o source g type identifier
  | nameAfterDot : Reader o source g type nameAfterDot
  | dottedName : Reader o source g type dottedName
  | objectName : Reader o source g type objectName
  | identifiersInParens : Reader o source g type identifiersInParens
  | optionalIdentifiers : Reader o source g type optionalIdentifiers
  | oneOrMoreIdentifiers : Reader o source g type oneOrMoreIdentifiers
  | optionalAlias : Reader o source g type optionalAlias
  | tableAlias : Reader o source g type tableAlias
  -- data types
  | boundedNumber (bound : Nat) (number : BoundedNumber) :
      Reader o source g type (boundedNumber bound number)
  | optionalLength : Reader o source g type optionalLength
  | optionalScale : Reader o source g type optionalScale
  | typeModifier : Reader o source g type typeModifier
  | typeModifiers : Reader o source g type typeModifiers
  | structField (anonymous : Bool) : Reader o source g type (structField type anonymous)
  | structType : Reader o source g type (structType type)
  | arrayType : Reader o source g type (arrayType type)
  | keywordType (w : Keyword) : Reader o source g type (keywordType type w)
  | baseType : Reader o source g type (baseType type)
  | arraySuffix (element : DataType) : Reader o source g type (arraySuffix element)
  | type : Reader o source g type type
  | dataType : Reader o source g type dataType
  -- expressions
  | expr (power : Nat) : Reader o source g type (g.expr power)
  | selectItem : Reader o source g type (selectItem g)
  | argument : Reader o source g type (argument g)
  | functionCall (name : ObjectName) : Reader o source g type (functionCall g name)
  | wildcardExcept : Reader o source g type (wildcardExcept o.dialect)
  | wildcardReplace : Reader o source g type (wildcardReplace g o.dialect)
  | wildcard (table : Option ObjectName) : Reader o source g type (wildcard g o.dialect table)
  | named : Reader o source g type (named g o.dialect)
  | parenthesized : Reader o source g type (parenthesized g)
  | arrayElements (withWord : Bool) : Reader o source g type (arrayElements g withWord)
  | valueFields : Reader o source g type valueFields
  | valueArguments (typed : Bool) : Reader o source g type (valueArguments g typed)
  | structWithWord : Reader o source g type (structWithWord g)
  | fieldKey : Reader o source g type fieldKey
  | keyedField : Reader o source g type (keyedField g)
  | structInBraces : Reader o source g type (structInBraces g)
  | castCall : Reader o source g type (castCall g)
  | whenArm : Reader o source g type (whenArm g)
  | caseExpr : Reader o source g type (caseExpr g)
  | existsTest : Reader o source g type (existsTest g)
  | namedPlaceholder (sigil : Char) : Reader o source g type (namedPlaceholder sigil)
  | keywordPrimary (w : Keyword) : Reader o source g type (keywordPrimary g o.dialect w)
  | symbolPrimary (s : Symbol) : Reader o source g type (symbolPrimary g o.dialect s)
  | primary : Reader o source g type (primary g o.dialect)
  | operand : Reader o source g type (operand g o.dialect)
  | membership (tested : Expr) (negated : Bool) :
      Reader o source g type (membership g tested negated)
  | betweenTest (tested : Expr) (negated : Bool) :
      Reader o source g type (betweenTest g tested negated)
  | likeTest (tested : Expr) (negated : Bool) : Reader o source g type (likeTest g tested negated)
  | nullTest (tested : Expr) : Reader o source g type (nullTest tested)
  | predicate (tested : Expr) (negated : Bool) : Reader o source g type (predicate g tested negated)
  | extend (power : Nat) (left : Expr) : Reader o source g type (extend g power left)
  -- what a query reads from
  | fromItem : Reader o source g type g.fromItem
  | valueRow : Reader o source g type (valueRow g)
  | valueRows : Reader o source g type (valueRows g)
  | columnName : Reader o source g type columnName
  | oneOrMoreColumns : Reader o source g type oneOrMoreColumns
  | closingItems : Reader o source g type (closingItems g)
  | pivot : Reader o source g type (pivot g)
  | includeNulls : Reader o source g type includeNulls
  | unpivot : Reader o source g type (unpivot g)
  | outerJoin (kind : JoinKind) : Reader o source g type (outerJoin kind)
  | joinKind : Reader o source g type joinKind
  | joinConstraint : Reader o source g type (joinConstraint g)
  | join : Reader o source g type (join g)
  | joins : Reader o source g type (joins g)
  | fromClause : Reader o source g type (fromClause g)
  | parenthesizedRelation : Reader o source g type (parenthesizedRelation g)
  | lateralRelation : Reader o source g type (lateralRelation g)
  | namedRelation : Reader o source g type (namedRelation g)
  | relation : Reader o source g type (relation g)
  -- queries
  | query : Reader o source g type g.query
  | distinctWord : Reader o source g type distinctWord
  | groupClause : Reader o source g type (groupClause g)
  | select : Reader o source g type (select g)
  | setOperand : Reader o source g type (setOperand g)
  | setQuantifier : Reader o source g type setQuantifier
  | setExtend (admits : SetOperator → Bool) {right : SetOperator → Parse SetExpr} :
      (∀ op, Reader o source g type (right op)) →
        ∀ left, Reader o source g type (setExtend admits right left)
  | setTerm : Reader o source g type (setTerm g)
  | setExpr : Reader o source g type (setExpr g)
  | cte : Reader o source g type (cte g)
  | withClause : Reader o source g type (withClause g)
  | orderDirection : Reader o source g type orderDirection
  | nullOrdering : Reader o source g type nullOrdering
  | orderItem : Reader o source g type (orderItem g)
  | orderClause : Reader o source g type (orderClause g)
  | limitCount : Reader o source g type (limitCount g)
  | limit : Reader o source g type (limit g o.dialect)
  | limits : Reader o source g type (limits g o.dialect)
  | offsetRows : Reader o source g type offsetRows
  | offsetCount : Reader o source g type (offsetCount g)
  -- statements that change rows
  | assignment : Reader o source g type (assignment g)
  | insertColumns : Reader o source g type insertColumns
  | insertSource : Reader o source g type (insertSource g)
  | conflictAction : Reader o source g type (conflictAction g)
  | onConflict : Reader o source g type (onConflict g)
  | insertStatement : Reader o source g type (insertStatement g)
  | updateStatement : Reader o source g type (updateStatement g)
  | deleteStatement : Reader o source g type (deleteStatement g)
  -- statements that declare tables
  | ifNotExists : Reader o source g type ifNotExists
  | ifExists : Reader o source g type ifExists
  | foreignKeyRef : Reader o source g type foreignKeyRef
  | columnOption (column : ColumnDef) : Reader o source g type (columnOption g column)
  | columnDef : Reader o source g type (columnDef g)
  | constraintRule : Reader o source g type (constraintRule g)
  | tableConstraint : Reader o source g type (tableConstraint g)
  | tablePart : Reader o source g type (tablePart g)
  | tableParts : Reader o source g type (tableParts g)
  | temporaryWord : Reader o source g type temporaryWord
  | createTable : Reader o source g type (createTable g)
  | setColumn : Reader o source g type (setColumn g)
  | dropFromColumn : Reader o source g type dropFromColumn
  | columnChange : Reader o source g type (columnChange g)
  | addToTable : Reader o source g type (addToTable g)
  | dropFromTable : Reader o source g type dropFromTable
  | renameInTable : Reader o source g type renameInTable
  | alterInTable : Reader o source g type (alterInTable g)
  | tableChange : Reader o source g type (tableChange g)
  | alterTable : Reader o source g type (alterTable g)
  -- any statement
  | attempt : Reader o source g type (attempt objectName)
  | indexesOf (word : IndexWord) : Reader o source g type (indexesOf word)
  | knownShow : Reader o source g type knownShow
  | statementBody : Reader o source g type (statementBody o source)
  | semicolons : Reader o source g type semicolons
  | singleStatement : Reader o source g type (singleStatement o source)
  | nextStatement : Reader o source g type (nextStatement o source)
  | statements : Reader o source g type (statements o source)

/-- What the repetitions of the grammar repeat. -/
inductive Round (o : Options) (source : String) (g : Productions) (type : Parse DataType) :
    {α : Type} → Parse (Option α) → Prop where
  | nameAfterDot : Round o source g type nameAfterDot
  | arraySuffix (element : DataType) : Round o source g type (arraySuffix element)
  | afterComma {α : Type} {item : Parse α} :
      Reader o source g type item → Round o source g type (afterComma item)
  | whenArm : Round o source g type (whenArm g)
  | extend (power : Nat) (left : Expr) : Round o source g type (extend g power left)
  | join : Round o source g type (join g)
  | setExtend (admits : SetOperator → Bool) {right : SetOperator → Parse SetExpr} :
      (∀ op, Reader o source g type (right op)) →
        ∀ left, Round o source g type (setExtend admits right left)
  | columnOption (column : ColumnDef) : Round o source g type (columnOption g column)
  | semicolon : Round o source g type semicolon
  | nextStatement : Round o source g type (nextStatement o source)

/-! ## What they leave ahead -/

/-- Without an allowance in view, leading on is all that there is to show. -/
theorem lasts_of_tracks {parts : α → List Part} (hr : ¬r.ample) (h : Tracks parts p) :
    Lasts r p p := by
  intro c _ _
  have htracks := h c.placeholders c (.nil (Nat.le_refl _))
  cases hp : p c with
  | ok a d =>
    rw [hp] at htracks
    exact .ok htracks.1 False.elim
  | error e d => exact .error fun ha => absurd ha hr

theorem moves_outerJoin (kind : JoinKind) : Moves (outerJoin kind) :=
  .next moves_advance fun _ => .next (moves_takeKeyword _) fun _ =>
    .next (moves_expectKeyword _) fun _ => .same rfl

section Predicates

variable {g : Productions} (hg : g.Track) (tested : Expr) (negated : Bool)
include hg

theorem moves_likeTest : Moves (likeTest g tested negated) :=
  .next (moves_keywordAt 0 _) fun _ => .next moves_advance fun _ =>
    .next ((hg.expr _).mono fun _ => List.nil_subperm) fun _ => .same rfl

theorem moves_predicate : Moves (predicate g tested negated) := by
  have hexpr : ∀ power, Moves (g.expr power) := fun power =>
    (hg.expr power).mono fun _ => List.nil_subperm
  refine .next (moves_keywordAt 0 _) fun _ => .ite ?_ (.next (moves_keywordAt 0 _) fun _ => .ite ?_ ?_)
  · refine .next (moves_expectKeyword _) fun _ => .next (moves_expectSymbol _) fun _ =>
      .next (moves_queryAt 0) fun _ => .ite ?_ ?_
    · exact .next (hg.query.mono fun _ => List.nil_subperm) fun _ =>
        .next (moves_expectSymbol _) fun _ => .same rfl
    · exact .next ((tracks_exprList hg).mono fun _ => List.nil_subperm) fun _ =>
        .next (moves_expectSymbol _) fun _ => .same rfl
  · exact .next (moves_expectKeyword _) fun _ => .next (hexpr _) fun _ =>
      .next (moves_expectKeyword _) fun _ => .next (hexpr _) fun _ => .same rfl
  · exact moves_likeTest hg tested negated

end Predicates

/-- Every function of the grammar leads on. -/
theorem lasts_reader (hr : ¬r.ample)
    (h : Reader o source (productions o.dialect l) (dataTypeWithin l) p) : Lasts r p p := by
  have hg : (productions o.dialect l).Last r (productions o.dialect l) :=
    last_productions l fun ha => absurd ha hr
  have ht : Consumes r (dataTypeWithin l) (dataTypeWithin l) :=
    consumes_dataTypeWithin l fun ha => absurd ha hr
  have hin := hg.inside
  have htrack : (productions o.dialect l).Track := track_productions l
  induction h with
  | advance => exact lasts_advance
  | takeSymbol s => exact lasts_of_tracks hr (moves_takeSymbol s)
  | takeKeyword w => exact lasts_takeKeyword w
  | expectSymbol s => exact lasts_of_tracks hr (moves_expectSymbol s)
  | expectKeyword w => exact lasts_of_tracks hr (moves_expectKeyword w)
  | closingAngle => exact lasts_closingAngle
  | nextPlaceholder => exact lasts_nextPlaceholder
  | afterComma _ ih => exact (rounds_afterComma ih.inside).still
  | commaList _ ih =>
    exact .next ih fun _ => .next (rounds_afterComma ih.inside).collect fun _ => .pure _
  | inParens _ ih => exact (lasts_inParens ih.inside).still
  | afterKeyword w _ ih => exact (rounds_afterKeyword w ih.inside).still
  | ifKeyword w _ ih =>
    refine .look (fun _ => rfl) fun there => ?_
    cases there with
    | true => exact .next ih fun _ => .pure _
    | false => exact .pure _
  | identifier => exact consumes_identifier.still
  | nameAfterDot => exact rounds_nameAfterDot.still
  | dottedName => exact consumes_dottedName.still
  | objectName => exact consumes_objectName.still
  | identifiersInParens => exact consumes_identifiersInParens.still
  | optionalIdentifiers => exact lasts_optionalIdentifiers
  | oneOrMoreIdentifiers => exact consumes_oneOrMoreIdentifiers.still
  | optionalAlias => exact lasts_optionalAlias
  | tableAlias => exact lasts_tableAlias
  | boundedNumber bound number => exact (consumes_boundedNumber bound number).still
  | optionalLength => exact lasts_optionalLength
  | optionalScale => exact lasts_optionalScale
  | typeModifier => exact consumes_typeModifier.still
  | typeModifiers => exact lasts_typeModifiers
  | structField anonymous => exact (consumes_structField ht anonymous).still
  | structType => exact (consumes_structType ht.inside).still
  | arrayType => exact (consumes_arrayType ht.inside).still
  | keywordType w => exact lasts_of_tracks hr (moves_keywordType (moves_dataTypeWithin l) w)
  | baseType => exact (consumes_baseType ht.inside).still
  | arraySuffix element => exact (rounds_arraySuffix element).still
  | type => exact ht.still
  | dataType => exact consumes_dataType.still
  | expr power => exact (hg.expr power).still
  | selectItem => exact (consumes_selectItem hg).still
  | argument => exact (consumes_argument hg).still
  | functionCall name => exact (consumes_functionCall hin name).still
  | wildcardExcept => exact lasts_wildcardExcept
  | wildcardReplace => exact lasts_wildcardReplace hin
  | wildcard table => exact lasts_wildcard hin table
  | named => exact (consumes_named hin).still
  | parenthesized => exact lasts_of_tracks hr (tracks_parenthesized htrack)
  | arrayElements withWord => exact lasts_arrayElements hg withWord
  | valueFields => exact lasts_valueFields
  | valueArguments typed => exact lasts_valueArguments hin typed
  | structWithWord => exact lasts_of_tracks hr (tracks_structWithWord htrack)
  | fieldKey => exact consumes_fieldKey.still
  | keyedField => exact (consumes_keyedField hin).still
  | structInBraces => exact (consumes_structInBraces hin).still
  | castCall => exact (consumes_castCall hin).still
  | whenArm => exact (rounds_whenArm hin).still
  | caseExpr => exact (consumes_caseExpr hin).still
  | existsTest => exact (consumes_existsTest hin).still
  | namedPlaceholder sigil => exact lasts_of_tracks hr (tracks_namedPlaceholder sigil)
  | keywordPrimary w => exact lasts_of_tracks hr (tracks_keywordPrimary htrack w)
  | symbolPrimary s => exact lasts_of_tracks hr (tracks_symbolPrimary htrack s)
  | primary => exact (consumes_primary hin).still
  | operand => exact (consumes_operand hin).still
  | membership tested negated => exact (consumes_membership hin tested negated).still
  | betweenTest tested negated => exact (consumes_betweenTest hin tested negated).still
  | likeTest tested negated => exact lasts_of_tracks hr (moves_likeTest htrack tested negated)
  | nullTest tested => exact (consumes_nullTest tested).still
  | predicate tested negated => exact lasts_of_tracks hr (moves_predicate htrack tested negated)
  | extend power left => exact (rounds_extend hin power left).still
  | fromItem => exact hg.fromItem.still
  | valueRow => exact (consumes_valueRow hin).still
  | valueRows => exact (consumes_valueRows hin).still
  | columnName => exact consumes_columnName.still
  | oneOrMoreColumns => exact consumes_oneOrMoreColumns.still
  | closingItems => exact (consumes_closingItems hin).still
  | pivot => exact (consumes_pivot hin).still
  | includeNulls => exact lasts_includeNulls
  | unpivot => exact (consumes_unpivot hin).still
  | outerJoin kind => exact lasts_of_tracks hr (moves_outerJoin kind)
  | joinKind => exact rounds_joinKind.still
  | joinConstraint => exact lasts_joinConstraint hg
  | join => exact (rounds_join hin).still
  | joins => exact lasts_joins hin
  | fromClause => exact lasts_fromClause hin
  | parenthesizedRelation => exact lasts_of_tracks hr (tracks_parenthesizedRelation htrack)
  | lateralRelation => exact lasts_of_tracks hr (tracks_lateralRelation htrack)
  | namedRelation => exact (consumes_namedRelation hin).still
  | relation => exact (consumes_relation hin).still
  | query => exact hg.query.still
  | distinctWord => exact lasts_distinctWord
  | groupClause => exact lasts_groupClause hin
  | select => exact (consumes_select hin).still
  | setOperand => exact (consumes_setOperand hin).still
  | setQuantifier => exact lasts_setQuantifier
  | setExtend admits _ left ih => exact (rounds_setExtend admits (fun op => (ih op).inside) left).still
  | setTerm => exact (consumes_setTerm hin).still
  | setExpr => exact (consumes_setExpr hin).still
  | cte => exact (consumes_cte hin).still
  | withClause => exact (consumes_withClause hin).still
  | orderDirection => exact lasts_orderDirection
  | nullOrdering => exact lasts_nullOrdering
  | orderItem => exact (consumes_orderItem hg).still
  | orderClause => exact lasts_orderClause hin
  | limitCount => exact lasts_limitCount hg
  | limit => exact (consumes_limit hin).still
  | limits => exact lasts_limits hin
  | offsetRows => exact lasts_offsetRows
  | offsetCount => exact (consumes_offsetCount hg).still
  | assignment => exact (consumes_assignment hin).still
  | insertColumns => exact lasts_insertColumns
  | insertSource => exact lasts_insertSource hg
  | conflictAction => exact (consumes_conflictAction hin).still
  | onConflict => exact (consumes_onConflict hin).still
  | insertStatement => exact (consumes_insertStatement hin).still
  | updateStatement => exact (consumes_updateStatement hin).still
  | deleteStatement => exact (consumes_deleteStatement hin).still
  | ifNotExists => exact lasts_ifNotExists
  | ifExists => exact lasts_ifExists
  | foreignKeyRef => exact consumes_foreignKeyRef.still
  | columnOption column => exact (rounds_columnOption hin column).still
  | columnDef => exact (consumes_columnDef hin).still
  | constraintRule => exact (consumes_constraintRule hin).still
  | tableConstraint => exact (consumes_tableConstraint hin).still
  | tablePart => exact (consumes_tablePart hin).still
  | tableParts => exact lasts_tableParts hin
  | temporaryWord => exact lasts_temporaryWord
  | createTable => exact (consumes_createTable hin).still
  | setColumn => exact (consumes_setColumn hin).still
  | dropFromColumn => exact consumes_dropFromColumn.still
  | columnChange => exact (consumes_columnChange hin).still
  | addToTable => exact (consumes_addToTable hin).still
  | dropFromTable => exact consumes_dropFromTable.still
  | renameInTable => exact consumes_renameInTable.still
  | alterInTable => exact (consumes_alterInTable hin).still
  | tableChange => exact (consumes_tableChange hin).still
  | alterTable => exact (consumes_alterTable hin).still
  | attempt => exact lasts_attempt moves_objectName
  | indexesOf word => exact lasts_indexesOf word
  | knownShow => exact consumes_knownShow.still
  | statementBody => exact consumes_statementBody.still
  | semicolons => exact lasts_semicolons
  | singleStatement => exact lasts_singleStatement
  | nextStatement => exact rounds_nextStatement.still
  | statements => exact lasts_statements

/-- A round of a repetition that has an answer has taken a token. -/
theorem rounds_round {step : Parse (Option α)} (hr : ¬r.ample)
    (h : Round o source (productions o.dialect l) (dataTypeWithin l) step) : Rounds r step step := by
  have hg : (productions o.dialect l).Last r.inside (productions o.dialect l) :=
    (last_productions l fun ha => absurd ha hr).inside
  cases h with
  | nameAfterDot => exact rounds_nameAfterDot
  | arraySuffix element => exact rounds_arraySuffix element
  | afterComma hitem => exact rounds_afterComma (lasts_reader hr hitem).inside
  | whenArm => exact rounds_whenArm hg
  | extend power left => exact rounds_extend hg power left
  | join => exact rounds_join hg
  | setExtend admits hright left =>
    exact rounds_setExtend admits (fun op => (lasts_reader hr (hright op)).inside) left
  | columnOption column => exact rounds_columnOption hg column
  | semicolon => exact rounds_semicolon
  | nextStatement => exact rounds_nextStatement

/-! ## Descent -/

/-- A result that is not a tree stopped for want of allowance. -/
def NotTooDeep (r : EStateM.Result Fault Cursor α) : Prop :=
  ∀ fault d, r = .error fault d → fault.cause ≠ .tooDeep

/-- Why reading from a cursor comes to an end. -/
structure Descends (o : Options) (source : String) (c : Cursor) : Prop where
  /-- No function of the grammar leaves more ahead than it found. -/
  reader : ∀ (l : List Token) {α : Type} {p : Parse α},
    Reader o source (productions o.dialect l) (dataTypeWithin l) p →
      ∀ a d, p c = .ok a d → c.Leads d ∧ d.weight ≤ c.weight
  /-- Where a round of a repetition is followed by another one, less is ahead than where it began. -/
  round : ∀ (l : List Token) {α : Type} {step : Parse (Option α)},
    Round o source (productions o.dialect l) (dataTypeWithin l) step →
      ∀ a d, step c = .ok (some a) d → d.weight < c.weight
  /-- Of two closing angles in one token the first is taken, too. -/
  angle : ∀ d, closingAngle c = .ok () d → d.weight < c.weight
  /-- A tree in a tree begins where less is ahead: to stop it anywhere else changes nothing. -/
  expr : ∀ t l power, (productions o.dialect (t :: l)).expr power c =
    (level o.dialect ((productions o.dialect l).below c.weight)).expr power c
  query : ∀ t l, (productions o.dialect (t :: l)).query c =
    (level o.dialect ((productions o.dialect l).below c.weight)).query c
  fromItem : ∀ t l, (productions o.dialect (t :: l)).fromItem c =
    (level o.dialect ((productions o.dialect l).below c.weight)).fromItem c
  type : ∀ t l, dataTypeWithin (t :: l) c = dataTypeOf (below c.weight (dataTypeWithin l)) c
  /-- With an allowance for each token ahead no tree is stopped. -/
  ample : ∀ l : List Token, c.ahead.length ≤ l.length →
    (∀ power, NotTooDeep ((productions o.dialect l).expr power c)) ∧
    NotTooDeep ((productions o.dialect l).query c) ∧
    NotTooDeep ((productions o.dialect l).fromItem c) ∧
    NotTooDeep (dataTypeWithin l c)
  /-- Before it is found out that the grammar does not know a statement, no token has been taken, -/
  unknown : c.current.kind ≠ .keyword .SHOW →
    (∃ p, ReadsStatement (productions o.dialect c.ahead) p ∧ statementBody o source c = p c) ∨
      statementBody o source c = kept o.keepUnsupported source c
  /-- but for a setting of an unknown form. That one is gone through from its start again. -/
  setting : c.current.kind = .keyword .SHOW →
    (∀ request d, knownShow c = .ok (some request) d →
      statementBody o source c = .ok (.show request) d) ∧
    (∀ fault d, knownShow c = .error fault d → statementBody o source c = .error fault d) ∧
    ∀ d, knownShow c = .ok none d → statementBody o source c = kept o.keepUnsupported source c
  /-- What is gone through up to a semicolon is left behind its first token. -/
  skipped : c.current.kind ≠ .symbol .semicolon → c.current.kind ≠ .endOfInput →
    c.position < c.skipStatement.2.position ∧ c.skipStatement.2.weight < c.weight

theorem descends {c : Cursor} (hc : c.ending.kind = .endOfInput) : Descends o source c where
  reader l α p hp a d hr := by
    have hlasts := lasts_reader (r := ⟨c, hc, False, false⟩) id hp
    have hleads := ((hlasts c ⟨.refl c, nofun⟩ (Nat.zero_le _)).leads a d hr).1
    exact ⟨hleads, hleads.weight_le⟩
  round l α step hstep a d hr := by
    have hrounds := rounds_round (r := ⟨c, hc, False, false⟩) id hstep
    obtain ⟨hleads, htakes⟩ := (hrounds c ⟨.refl c, nofun⟩ (Nat.zero_le _)).leads (some a) d hr
    exact hleads.weight_lt (htakes rfl)
  angle _ hr := weight_lt_of_closingAngle hc hr
  expr t l power := productions_expr_eq hc o.dialect t l power
  query t l := productions_query_eq hc o.dialect t l
  fromItem t l := productions_fromItem_eq hc o.dialect t l
  type t l := dataTypeWithin_eq hc t l
  ample l hl := by
    have hg := last_productions (r := ⟨c, hc, True, false⟩) (d := o.dialect) l fun _ => hl
    have ht := consumes_dataTypeWithin (r := ⟨c, hc, True, false⟩) l fun _ => hl
    have hstart : Outset.Reaches ⟨c, hc, True, false⟩ c := ⟨.refl c, nofun⟩
    refine ⟨fun power fault d he => ?_, fun fault d he => ?_, fun fault d he => ?_,
      fun fault d he => ?_⟩
    · exact (hg.expr power c hstart (Nat.zero_le _)).fault fault d he trivial
    · exact (hg.query c hstart (Nat.zero_le _)).fault fault d he trivial
    · exact (hg.fromItem c hstart (Nat.zero_le _)).fault fault d he trivial
    · exact (ht c hstart (Nat.zero_le _)).fault fault d he trivial
  unknown hk := by
    rcases statementBody_cases o source c with hb | ⟨-, -, hb⟩ | ⟨hshow, -⟩
    · exact .inl hb
    · exact .inr hb
    · exact absurd hshow hk
  setting hk := by
    have hbody : statementBody o source c = showStatement o source c.position c := by
      rw [statementBody_apply, hk]
      rfl
    rw [hbody, showStatement_position]
    refine ⟨fun request d hr => ?_, fun fault d hr => ?_, fun d hr => ?_⟩
    · rw [hr]
    · rw [hr]
    · rw [hr]
  skipped hs he := by
    have hlt := Cursor.length_skipStatement_lt hc hs he
    have hlength := c.leads_skipStatement.tokens.length_eq
    refine ⟨?_, c.leads_skipStatement.weight_lt hlt⟩
    simp only [List.length_append, List.length_reverse] at hlength
    unfold Cursor.position
    omega

end Parse

namespace Session

open Parse

variable {r : Outset}

theorem lasts_item (o : Options) (source : String) (call : Call) :
    Lasts r (call.item o source) (call.item o source) := by
  cases call with
  | statement => exact .next lasts_singleStatement fun _ => .pure _
  | statements => exact lasts_statements

/-- Every call on a session returns, whatever was called before it. It does not run out of its
allowance, which is the tokens ahead, since reading descends from any cursor. -/
theorem descends_after (source : String) (o : Options) (calls : List Call) :
    let s := (start source o).after calls
    (∀ (α : Type) (p : Parse α), SameResult (p s.cursor) (p.runAt s.place)) ∧
    s.cursor.ending.kind = .endOfInput ∧
    (∀ call fault location, (s.call call).1 = .error (.grammar fault location) →
      fault.cause ≠ .tooDeep) ∧
    ∀ c : Cursor, c.ending.kind = .endOfInput → Descends o source c := by
  intro s
  have hended : s.cursor.ending.kind = .endOfInput := s.sound.endsOnce.ending
  refine ⟨fun α p => p.sameResult_at s.sound, hended, fun call fault location hr => ?_,
    fun c hc => descends hc⟩
  have hlasts := lasts_item (r := ⟨s.cursor, hended, True, false⟩) s.options s.source call
    s.cursor ⟨.refl s.cursor, nofun⟩ (Nat.zero_le _)
  rcases s.call_cases call with ⟨e, -, hcall⟩ | ⟨ss, d, _, -, -, hcall⟩ |
    ⟨e, d, _, -, hitem, hcall⟩ <;> rw [hcall] at hr <;> cases hr
  exact hlasts.fault fault d hitem trivial

end Session
end SqlTree
