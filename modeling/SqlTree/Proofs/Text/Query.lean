import Mathlib
import SqlTree.Proofs.Text.Whole
import SqlTree.Proofs.Writing.Pieces

/-! # Queries are what their texts spell

* `Query.Clear.parseStatement_text`: a clear query whose question marks are counted up comes back
  from its text, in any dialect.
* `Part.Plain`: trees with columns and whole numbers for expressions, built as the grammar builds
  them.
* `parseStatement_of_plain`: a query of plain parts comes back from its text.
-/

namespace SqlTree
set_option autoImplicit false

open Layout Parse

/-- A clear query whose question marks are counted up comes back from its text. -/
theorem Query.Clear.parseStatement_text {o : Options} {q : Query} (h : q.Clear o.dialect)
    (hn : q.layout.Numbered 0) :
    ∃ text, q.text = .ok text ∧ parseStatement text o = .ok (.query q) :=
  parseStatement_of_isRead (s := .query q) (Part.apart h) hn h.isRead

/-! ## Plain trees -/

/-- A column, or a whole number without a sign. -/
def Expr.IsLeaf (dq : Bool) : Expr → Prop
  | .column c => c.Legal dq
  | .literal (.integer digits) => digits.toList ≠ [] ∧ ∀ c ∈ digits.toList, c.isDigit = true
  | _ => False

/-- A limit says one of three things, and an offset stands only beside a row count. -/
def Limit.Plain (l : Limit) : Prop :=
  ((l.null = true ∧ l.all = false ∧ l.rowCount = none) ∨
    (l.null = false ∧ l.all = true ∧ l.rowCount = none) ∨
    (l.null = false ∧ l.all = false ∧ l.rowCount ≠ none)) ∧
    (l.rowCount = none → l.offset = none) ∧ l.groups ≠ some []

/-- A limit for each group has groups. Another one has groups only beside it. -/
def Query.Plain (dq : Bool) (q : Query) : Prop :=
  (∀ w ∈ q.ctes, w.Legal dq) ∧ (∀ l ∈ q.limitBy, l.Plain ∧ l.groups ≠ none) ∧
    ∀ l ∈ q.limit, l.Plain ∧ (q.limitBy = none → l.groups = none)

/-- A set operator holds its left operand as tightly as itself, and its right one tighter. -/
def SetExpr.Plain : SetExpr → Prop
  | .combine op _ left right => op.level ≤ left.level ∧ op.level < right.level
  | .values rows => rows ≠ []
  | _ => True

/-- A part of a tree with leaves for expressions, built as the grammar builds it. -/
def Part.Plain (dq : Bool) : Part → Prop
  | .expr e => e.IsLeaf dq
  | .query q => q.Plain dq
  | .body b => b.Plain
  | .block s => s.Legal dq
  | .item i => i.Legal dq

variable {dq : Bool}

/-! ## The written form of plain trees -/

/-- Leaves are written with neither stars nor question marks. -/
theorem Expr.IsLeaf.marks {P : Piece → Prop} {e : Expr} (h : e.IsLeaf dq) : e.Marks P := by
  cases e with
  | literal v => trivial
  | column c => trivial
  | _ => exact h.elim

theorem Limit.Plain.marks {P : Piece → Prop} {l : Limit} (h : l.Plain) : l.Marks P := by
  intro hn ha hr
  simp [Limit.Plain, hn, ha, hr] at h

theorem Part.Plain.marks {P : Piece → Prop} {p : Part} (h : p.Plain dq) : p.Marks P := by
  cases p with
  | expr e => exact Expr.IsLeaf.marks h
  | query q => exact ⟨fun l hl => (h.2.1 l hl).1.marks, fun l hl => (h.2.2 l hl).1.marks⟩
  | _ => trivial

theorem usual_noStar : Usual fun x => x ≠ .symbol .star where
  keyword _ := by simp
  symbol _ hs := by simpa using hs
  closingAngle := by simp
  word _ := by simp
  gap := by simp

theorem getLast?_ne_star {p : Part} (h : p.Obeys (Part.Plain dq)) :
    p.layout.getLast? ≠ some (.symbol .star) := by
  intro hl
  have he := Part.every_layout usual_noStar (h.mono fun _ => Part.Plain.marks)
  exact he _ (List.mem_of_getLast? hl) rfl

/-- A leaf is written with a word that is no keyword for `NULL` and ends with one. -/
theorem Expr.IsLeaf.kindAhead_ne {e : Expr} (h : e.IsLeaf dq) :
    kindAhead dq e.layout.solid 0 ≠ .keyword .NULL := by
  cases e with
  | column c =>
    obtain ⟨first, more, hn, -, hl⟩ := ColumnRef.exists_names h.1
    have hf := (h.2 first (by simp [hn])).startsName (more.flatMap fun i => .symbol .dot :: i.layout.solid)
    rw [Expr.layout, hl, ObjectName.layout, List.map_cons, solid_sepBy, List.flatMap_map]
    exact startsName_reserved hf rfl
  | literal v =>
    cases v with
    | integer digits =>
      have hk : (Piece.word digits).kind dq = .integer digits :=
        Piece.kind_word (ofWord?_digits h.1 h.2)
      intro he
      have he' : (Piece.word digits).kind dq = .keyword .NULL := he
      rw [hk] at he'
      cases he'
    | _ => exact h.elim
  | _ => exact h.elim

theorem Expr.IsLeaf.getLast?_ne {e : Expr} (h : e.IsLeaf dq) (k : Keyword) :
    e.layout.getLast? ≠ some (.keyword k) := by
  cases e with
  | column c =>
    obtain ⟨table, name⟩ := c
    cases table <;> simp [Expr.layout, ColumnRef.layout, Ident.layout, List.getLast?_append]
  | literal v =>
    cases v with
    | integer digits => simp [Expr.layout, Literal.piece]
    | _ => exact h.elim
  | _ => exact h.elim

/-! ## Plain trees are clear -/

theorem Expr.IsLeaf.clear {e : Expr} (h : e.IsLeaf false) : (Part.expr e).Clear .generic := by
  cases e with
  | column c => exact ⟨h, trivial⟩
  | literal v =>
    cases v with
    | integer digits => exact ⟨ofWord?_digits h.1 h.2, trivial⟩
    | _ => exact h.elim
  | _ => exact h.elim

theorem SelectItem.faithful_of_parts {items : List SelectItem}
    (h : ∀ c ∈ SelectItem.parts items, c.Plain dq) : ∀ i ∈ items, i.Faithful :=
  fun i hi hl =>
    have he : i.expr.IsLeaf dq :=
      h (.expr i.expr) (List.mem_map_of_mem (f := fun i => Part.expr i.expr) hi)
    absurd hl (he.getLast?_ne _)

theorem Limit.Plain.legal {l : Limit} (h : l.Plain) (hc : ∀ c ∈ l.parts, c.Plain false) :
    l.Legal .generic := by
  obtain ⟨rowCount, offset, all, null, groups⟩ := l
  obtain ⟨hone, hoff, hg⟩ := h
  dsimp only at hone hoff hg
  have hgroups : ∀ gs ∈ groups, Dialect.generic.limitBy = true ∧ gs ≠ [] := by
    rintro gs rfl
    exact ⟨rfl, by simpa using hg⟩
  refine ⟨?_, hgroups⟩
  rcases hone with ⟨hn, ha, hr⟩ | ⟨hn, ha, hr⟩ | ⟨hn, ha, hr⟩
  · exact .inl ⟨hn, ha, hr, hoff hr⟩
  · exact .inr (.inl ⟨hn, ha, hr, hoff hr⟩)
  · obtain ⟨count, rfl⟩ := Option.ne_none_iff_exists'.1 hr
    refine .inr (.inr ⟨hn, ha, count, rfl, ?_⟩)
    have hp : (Part.expr (offset.getD count)).Plain false := by
      refine hc _ ?_
      cases offset <;> simp [Limit.parts, Part.exprs]
    exact Expr.IsLeaf.kindAhead_ne hp

/-- What is plain with all its parts is clear. -/
theorem Part.Plain.clear {p : Part} (h : p.Obeys (Part.Plain false)) :
    p.Obeys (Part.Clear .generic) := by
  refine fun q hq => ?_
  replace h := h.within hq
  have hc : ∀ c ∈ q.children, c.Plain false := fun c hm => (h.child hm).head
  have hp := h.head
  cases q with
  | expr e => exact Expr.IsLeaf.clear hp
  | query q =>
    obtain ⟨hw, hby, hlimit⟩ := hp
    simp only [Part.children, Query.children, List.forall_mem_append] at hc
    obtain ⟨⟨⟨-, hcby⟩, hclimit⟩, -⟩ := hc
    refine ⟨⟨hw, fun l hm => ?_, fun l hm => ?_⟩, trivial⟩
    · rw [Option.mem_def] at hm
      rw [hm] at hcby
      exact ⟨(hby l hm).1.legal hcby, (hby l hm).2⟩
    · rw [Option.mem_def] at hm
      rw [hm] at hclimit
      exact ⟨(hlimit l hm).1.legal hclimit, (hlimit l hm).2⟩
  | body b =>
    refine ⟨?_, trivial⟩
    cases b with
    | combine op quantifier left right =>
      have hl := h.child (q := .body left) (by simp [Part.children, SetExpr.children])
      exact ⟨hp.1, hp.2, fun hs => absurd hs (getLast?_ne_star hl)⟩
    | values rows => exact hp
    | _ => trivial
  | block s =>
    have hs : ∀ c ∈ SelectItem.parts s.items, c.Plain false := fun c hm =>
      hc c (by simp [Part.children, Select.children, hm])
    exact ⟨hp, SelectItem.faithful_of_parts hs⟩
  | item i =>
    simp only [Part.children, FromItem.children, List.forall_mem_append] at hc
    obtain ⟨⟨-, hpivot⟩, hunpivot⟩ := hc
    refine ⟨hp, fun p hm => ?_, fun u hm => ?_⟩
    · rw [hm] at hpivot
      exact SelectItem.faithful_of_parts hpivot
    · rw [hm] at hunpivot
      exact SelectItem.faithful_of_parts hunpivot

/-- A query of plain parts comes back from its text. -/
theorem parseStatement_of_plain {q : Query} (h : (Part.query q).Obeys (Part.Plain false))
    (keepUnsupported : Bool) :
    ∃ text, q.text = .ok text ∧
      parseStatement text ⟨.generic, keepUnsupported⟩ = .ok (.query q) :=
  Query.Clear.parseStatement_text (o := ⟨.generic, keepUnsupported⟩) (Part.Plain.clear h)
    (Part.every_layout usual_unnumbered (h.mono fun _ => Part.Plain.marks)).numbered

/-- `WITH c (x) AS (SELECT 1) SELECT t.a y FROM t AS u(x), c LEFT JOIN (SELECT 2) y ON a UNION ALL
(SELECT a) ORDER BY a DESC LIMIT 2, 3 BY a LIMIT ALL OFFSET 1 ROWS`. -/
def plainQuery : Query :=
  let name (text : String) : Ident := { name := text }
  let column (text : String) : Expr := .column { name := name text }
  let number (digits : String) : Expr := .literal (.integer digits)
  let block (items : List SelectItem) (source : Option FromItem) (joins : List Join) : SetExpr :=
    .select ⟨false, items, source, joins, none, [], none, none⟩
  let one (e : Expr) : Query := .ofBody (block [⟨e, none⟩] none [])
  let source : FromItem := ⟨.table ⟨[name "t"]⟩, some ⟨name "u", true, [name "x"]⟩, none, none⟩
  let joins : List Join :=
    [⟨.comma, .table ⟨[name "c"]⟩, .none⟩,
      ⟨.left, ⟨.query (one (number "2")), some ⟨name "y", false, []⟩, none, none⟩, .on (column "a")⟩]
  { ctes := some ⟨false, [⟨name "c", [name "x"], one (number "1")⟩]⟩
    body := .combine .union .all
      (block [⟨.column ⟨some ⟨[name "t"]⟩, name "a"⟩, some ⟨name "y", false, []⟩⟩] (some source) joins)
      (.parens (one (column "a")))
    orderBy := [⟨column "a", some .desc, none⟩]
    limitBy := some ⟨some (number "3"), some (number "2"), false, false, some [column "a"]⟩
    limit := some ⟨none, none, true, false, none⟩
    offset := some ⟨number "1", .rows⟩ }

theorem parseStatement_of_plainQuery :
    (Part.query plainQuery).Obeys (Part.Plain false) ∧
      ∃ text, plainQuery.text = .ok text ∧
        parseStatement text ⟨.generic, false⟩ = .ok (.query plainQuery) := by
  have ha : Ident.Legal false { name := "a" } := ⟨_, by decide, .inl rfl⟩
  have hc : Ident.Legal false { name := "c" } := ⟨_, by decide, .inl rfl⟩
  have ht : Ident.Legal false { name := "t" } := ⟨_, by decide, .inl rfl⟩
  have hu : Ident.Legal false { name := "u" } := ⟨_, by decide, .inl rfl⟩
  have hx : Ident.Legal false { name := "x" } := ⟨_, by decide, .inl rfl⟩
  have hy : Ident.Legal false { name := "y" } := ⟨_, by decide, .inl rfl⟩
  have hrec : TokenKind.ofWord? false (Ident.text { name := "c" }) ≠ some (.keyword .RECURSIVE) := by
    decide
  have h : (Part.query plainQuery).Obeys (Part.Plain false) := by
    rw [Part.obeys_iff_allObey]
    simp [plainQuery, Query.ofBody, FromItem.table, FromItem.ofRelation, Part.children,
      Query.children, SetExpr.children, Select.children, FromItem.children, Relation.parts, Join.parts,
      Expr.children, SelectItem.parts, Limit.parts, Part.exprs, Part.Plain, Query.Plain, Limit.Plain,
      With.Legal, SetExpr.Plain, SetExpr.level, SetOperator.level, Select.Legal, SelectItem.LegalList,
      SelectItem.Legal, Join.Legal, FromItem.Legal, Relation.Legal, Query.opens, SetExpr.opens,
      Alias.Legal, ObjectName.Legal, ColumnRef.Legal, ColumnRef.names, Expr.IsLeaf, Expr.isWildcard,
      SetOperator.bindsTighter, ha, hc, ht, hu, hx, hy, hrec]
  exact ⟨h, parseStatement_of_plain h false⟩

end SqlTree
