import Mathlib
import SqlTree.Proofs.Reading.Statement
import SqlTree.Proofs.Text.Embedded
import SqlTree.Proofs.Text.Query
import SqlTree.Proofs.Writing.Whole

/-! # Statements are what their texts spell

* `Query.ReadsBack`: a query that begins with a word and comes back from its own text.
* `Statement.IsPlain`: a statement with plain names, columns and whole numbers for expressions,
  tables for sources, and perhaps such a query at its end.
* `parseStatement_of_front`: a statement that ends with a query comes back from its text.
* `parseStatement_of_plainStatement`: so does every plain statement.
-/

namespace SqlTree
set_option autoImplicit false

open Layout Parse

/-! ## Plain statements -/

/-- A query that begins with `SELECT` or `WITH` and comes back from its own text. -/
def Query.ReadsBack (o : Options) (q : Query) : Prop :=
  q.opens = true ∧ ∃ text, q.text = .ok text ∧ parseStatement text o = .ok (.query q)

/-- A table, perhaps with another name. -/
def FromItem.IsTable (dq : Bool) (i : FromItem) : Prop :=
  (∃ name : ObjectName, i.relation = .table name ∧ name.Legal dq) ∧
    (∀ a ∈ i.alias?, a.Legal dq) ∧ i.pivot = none ∧ i.unpivot = none

/-- A column or a whole number, a table, or a query that comes back from its own text. -/
def Part.IsSimple (o : Options) : Part → Prop
  | .expr e => e.IsLeaf o.dialect.dq
  | .item i => i.IsTable o.dialect.dq
  | .query q => q.ReadsBack o
  | .body _ | .block _ => False

/-- A statement that changes rows, declares or changes a table, or shows a setting, with plain names
and simple parts. -/
def Statement.IsPlain (o : Options) (s : Statement) : Prop :=
  s.Plain o.dialect.dq ∧ ∀ p ∈ s.parts, p.IsSimple o

variable {dq : Bool}

theorem Expr.IsLeaf.obeys {e : Expr} (h : e.IsLeaf dq) : (Part.expr e).Obeys (Part.Plain dq) := by
  refine Part.obeys_iff.2 ⟨h, ?_⟩
  cases e with
  | column c => simp [Part.children, Expr.children]
  | literal v => simp [Part.children, Expr.children]
  | _ => exact h.elim

theorem FromItem.IsTable.obeys {i : FromItem} (h : i.IsTable dq) :
    (Part.item i).Obeys (Part.Plain dq) := by
  obtain ⟨relation, alias?, pivot, unpivot⟩ := i
  obtain ⟨⟨name, hr, hn⟩, ha, hp, hu⟩ := h
  obtain rfl : relation = .table name := hr
  obtain rfl : pivot = none := hp
  obtain rfl : unpivot = none := hu
  refine Part.obeys_iff.2 ⟨⟨hn, ha, by simp, by simp⟩, ?_⟩
  simp [Part.children, FromItem.children, Relation.parts]

/-- A simple part that is no query has plain parts only. -/
theorem Part.IsSimple.obeys {o : Options} {p : Part} (h : p.IsSimple o) (hq : ∀ q, p ≠ .query q) :
    p.Obeys (Part.Plain o.dialect.dq) := by
  cases p with
  | expr e => exact Expr.IsLeaf.obeys h
  | item i => exact FromItem.IsTable.obeys h
  | query q => exact absurd rfl (hq q)
  | body b => exact h.elim
  | block s => exact h.elim

/-! ## Statements that end with a query -/

theorem CreateTable.query_notMem_declared (t : CreateTable) (q : Query) :
    .query q ∉ t.columns.flatMap ColumnDef.parts ++ t.constraints.flatMap TableConstraint.parts := by
  simp only [List.mem_append, List.mem_flatMap, not_or, not_exists, not_and]
  refine ⟨fun c _ => by simp [ColumnDef.parts, Part.exprs], fun c _ => ?_⟩
  unfold TableConstraint.parts
  split <;> simp

/-- Among the parts of a statement a query stands only at the end. -/
theorem Statement.query_mem_parts {s : Statement} {q : Query} (h : .query q ∈ s.parts) :
    s = .query q ∨ (∃ i, s = .insert i ∧ i.source = .query q) ∨
      ∃ t, s = .createTable t ∧ t.query = some q := by
  have hset : ∀ as : List Assignment, Part.query q ∉ Assignment.parts as := fun as => by
    simp [Assignment.parts]
  cases s with
  | query q' =>
    obtain rfl : q = q' := by simpa [Statement.parts] using h
    exact .inl rfl
  | insert i =>
    refine .inr (.inl ⟨i, rfl, ?_⟩)
    obtain ⟨withInto, table, columns, source, conflict⟩ := i
    rcases List.mem_append.1 h with h | h
    · cases source with
      | values rows => simp [InsertSource.parts, Part.ofRows, Part.exprs] at h
      | query q' =>
        obtain rfl : q = q' := by simpa [InsertSource.parts] using h
        rfl
      | defaultValues => simp [InsertSource.parts] at h
    · rcases conflict with _ | ⟨columns, _ | as⟩
      · simp at h
      · simp [ConflictAction.parts] at h
      · exact absurd h (hset as)
  | update u =>
    simp only [Statement.parts, List.mem_append, List.mem_flatMap] at h
    rcases h with ((h | h) | ⟨j, -, h⟩) | h
    · exact absurd h (hset u.assignments)
    · simp at h
    · unfold Join.parts at h
      split at h <;> simp at h
    · simp [Part.exprs] at h
  | delete d => simp [Statement.parts, Part.exprs] at h
  | createTable t =>
    refine .inr (.inr ⟨t, rfl, ?_⟩)
    rcases List.mem_append.1 h with h | h
    · exact absurd h (t.query_notMem_declared q)
    · simpa using h
  | alterTable a =>
    obtain ⟨c, -, h⟩ := List.mem_flatMap.1 h
    cases c with
    | addColumn _ _ column => simp [TableChange.parts, ColumnDef.parts, Part.exprs] at h
    | alterColumn _ change =>
      cases change <;> simp [TableChange.parts] at h
    | addConstraint constraint =>
      obtain ⟨name, rule⟩ := constraint
      cases rule <;> simp [TableChange.parts, TableConstraint.parts] at h
    | _ => simp [TableChange.parts] at h
  | «show» r => simp [Statement.parts] at h
  | unsupported text => simp [Statement.parts] at h

theorem chars_append (l m : Layout) : Layout.chars (l ++ m) = l.chars ++ Layout.chars m := by
  apply String.toList_injective
  simp [chars_toList]

theorem text_append {l m : Layout} {text : String} (hl : l.Spaced dq none)
    (hm : m.text = .ok text) : Layout.text (l ++ m) = .ok (l.chars ++ text) := by
  have hd : m.defect? = none ∧ m.chars = text := text_eq_ok.1 hm
  have hn : Layout.defect? (l ++ m) = none := by
    rw [Layout.defect?, List.findSome?_append]
    have h1 := defect?_of_spaced l hl
    have h2 := hd.1
    rw [Layout.defect?] at h1 h2
    rw [h1, h2]
    rfl
  rw [Layout.text, hn, chars_append, hd.2]

/-- A statement that ends with a query comes back from its text, if it is read back in front of any
text that is read as the query. -/
theorem parseStatement_of_front {o : Options} {s : Statement} {q : Query} {l : Layout}
    (hq : q.ReadsBack o) (hlayout : s.layout = (l ++ [.gap]) ++ q.layout)
    (hs : Layout.Apart o.dialect.dq (l ++ [.gap])) (hn : l.numbers = [])
    (hread : ∀ (source : String) (tail : Layout),
      kindAhead o.dialect.dq tail 0 = .keyword .SELECT ∨
        kindAhead o.dialect.dq tail 0 = .keyword .WITH →
      (∀ ahead : List Token, tail.size ≤ ahead.length →
        Finishes o.dialect.dq (productions o.dialect ahead).query tail 0 q) →
      kindAhead o.dialect.dq (l.solid ++ tail) 0 ≠ .endOfInput ∧
        Finishes o.dialect.dq (statementBody o source) (l.solid ++ tail) 0 s) :
    ∃ text, s.text = .ok text ∧ parseStatement text o = .ok s := by
  obtain ⟨hopens, text, htext, hparse⟩ := hq
  obtain ⟨lexed, ht, hfinish⟩ := finishes_query hparse
  obtain ⟨whole, hw, hbefore⟩ := tokenize_front hs.spaced hn ht
  have htext' : s.text = .ok (Layout.chars (l ++ [.gap]) ++ text) := by
    rw [Statement.text, hlayout]
    exact text_append hs.spaced htext
  generalize Layout.chars (l ++ [.gap]) ++ text = source at hw htext'
  obtain ⟨hk, hbody⟩ := hread source (spelled lexed.tokens)
    (Query.kindAhead_spelled hopens htext ht) fun ahead ha => hfinish ahead (spelled_size _ ▸ ha)
  exact ⟨source, htext', parseStatement_of_finishes hw hbefore hk hbody⟩

/-- A statement comes back from its text if its layout is read to the end. -/
theorem parseStatement_of_layout {o : Options} {s : Statement} (ha : s.layout.Apart o.dialect.dq)
    (hn : s.layout.Numbered 0) (hk : kindAhead o.dialect.dq s.layout.solid 0 ≠ .endOfInput)
    (h : ∀ source, Finishes o.dialect.dq (statementBody o source) s.layout.solid
      s.layout.numbers.length s) :
    ∃ text, s.text = .ok text ∧ parseStatement text o = .ok s := by
  obtain ⟨lexed, ht, hreads, he⟩ := tokenize_of_apart ha hn
  refine ⟨s.layout.chars, text_of_apart ha, parseStatement_of_finishes ht ⟨⟨hreads, he⟩, ?_, ?_⟩ hk
    (h _)⟩
  · rw [numbers_solid]
    exact Nat.zero_add _
  · exact (Lexer.run_ending ht).2

/-! ## All plain statements -/

section Statements

variable {keep : Bool}

/-- What stands in front of an inserted query is written without question marks. -/
theorem Insert.numbers_front (i : Insert) : i.front.numbers = [] := by
  have h := usual_unnumbered.insert (i := { i with source := .defaultValues, onConflict := none })
    (by simp [Statement.parts, InsertSource.parts])
  rw [Insert.layout_eq, every_append] at h
  exact numbers_eq_nil.2 h.1

/-- An `INSERT` statement that ends with a query comes back from its text. -/
theorem parseStatement_of_insertQuery {i : Insert} {q : Query}
    (h : (Statement.insert i).IsPlain ⟨.generic, keep⟩) (hq : i.source = .query q) :
    ∃ text, (Statement.insert i).text = .ok text ∧
      parseStatement text ⟨.generic, keep⟩ = .ok (.insert i) := by
  obtain ⟨hl, hp⟩ := h
  have hplain : i.Plain false := hl
  have hback : q.ReadsBack ⟨.generic, keep⟩ :=
    hp (.query q) (by simp [Statement.parts, hq, InsertSource.parts])
  have hlayout : i.layout = i.front ++ q.layout := by
    rw [i.layout_eq, hq, hplain.2.2.2.2 q hq]
    simp [InsertSource.layout]
  obtain ⟨l, hfront⟩ : ∃ l, i.front = l ++ [.gap] := ⟨_, rfl⟩
  have hsolid : Layout.solid l = i.front.solid := by rw [hfront, solid_append]; simp
  have hapart := Insert.apart_front hplain.1 hplain.2.1 (apart_nil : Layout.Apart false [])
  have hnumbers := i.numbers_front
  rw [List.append_nil, hfront] at hapart
  rw [hfront, numbers_append] at hnumbers
  refine parseStatement_of_front hback (by rw [Statement.layout, hlayout, hfront]) hapart
    (List.append_eq_nil_iff.1 hnumbers).1 fun source tail hk hfinish => ?_
  rw [hsolid]
  refine ⟨(fun he => by cases he), finishes_insert rfl fun ahead ha => ?_⟩
  refine finishes_insertQuery hplain hq hk (hfinish ahead ?_)
  rw [size_append] at ha
  omega

/-- What stands in front of the query of a table is written without question marks. -/
theorem CreateTable.numbers_front {t : CreateTable}
    (h : ∀ p ∈ t.columns.flatMap ColumnDef.parts ++ t.constraints.flatMap TableConstraint.parts,
      p.Obeys (Part.Plain dq)) : t.front.numbers = [] := by
  have hbare := usual_unnumbered.createTable (c := { t with query := none }) fun p hp =>
    Part.every_layout usual_unnumbered ((h p (by simpa [Statement.parts] using hp)).mono
      fun _ => Part.Plain.marks)
  rw [CreateTable.layout_eq, every_append] at hbare
  have hfront : t.front = CreateTable.front { t with query := none } ++
      onlyIf t.query.isSome [.gap, .keyword .AS, .gap] := by
    simp [CreateTable.front, CreateTable.declared, onlyIf]
  rw [hfront, numbers_append, numbers_eq_nil.2 hbare.1]
  cases t.query.isSome <;> rfl

/-- A `CREATE TABLE` statement that ends with a query comes back from its text. -/
theorem parseStatement_of_createQuery {t : CreateTable} {q : Query}
    (h : (Statement.createTable t).IsPlain ⟨.generic, keep⟩) (hq : t.query = some q) :
    ∃ text, (Statement.createTable t).text = .ok text ∧
      parseStatement text ⟨.generic, keep⟩ = .ok (.createTable t) := by
  obtain ⟨hl, hp⟩ := h
  have hplain : t.Plain false := hl
  have hback : q.ReadsBack ⟨.generic, keep⟩ := hp (.query q) (by simp [Statement.parts, hq])
  have hobeys : ∀ p ∈ t.columns.flatMap ColumnDef.parts ++
      t.constraints.flatMap TableConstraint.parts, p.Obeys (Part.Plain false) := fun p hm =>
    (hp p (List.mem_append_left _ hm)).obeys fun q' he => t.query_notMem_declared q' (he ▸ hm)
  have hclear := fun p hm => Part.Plain.clear (hobeys p hm)
  obtain ⟨l, hfront⟩ : ∃ l, t.front = l ++ [.gap] := by
    simp only [CreateTable.front, hq, Option.isSome_some, onlyIf, if_true]
    exact ⟨_, (List.append_assoc _ [Piece.gap, Piece.keyword .AS] [Piece.gap]).symm⟩
  have hsolid : Layout.solid l = t.front.solid := by rw [hfront, solid_append]; simp
  have hapart := CreateTable.apart_front hplain
    (fun p hm => Part.apart (hclear p (List.mem_append_left _ hm)))
    (fun p hm => Part.apart (hclear p (List.mem_append_right _ hm))) apart_nil fun _ => rfl
  have hnumbers := CreateTable.numbers_front hobeys
  rw [List.append_nil, hfront] at hapart
  rw [hfront, numbers_append] at hnumbers
  refine parseStatement_of_front hback ?_ hapart
    (List.append_eq_nil_iff.1 hnumbers).1 fun source tail hk hfinish => ?_
  · rw [Statement.layout, t.layout_eq, hq, ← hfront]
    rfl
  rw [hsolid]
  refine ⟨(fun he => by cases he), finishes_create fun ahead ha => ?_⟩
  rw [size_append, size_solid] at ha
  refine finishes_createTable (d := .generic) (reads_productions _ ahead) hplain
    (CreateTable.reads_declared (d := .generic) hplain hclear) (by omega) (by simp [hq]) fun q' hq' => ?_
  obtain rfl : q = q' := by simpa [hq] using hq'
  exact hfinish ahead (by omega)

/-- A statement that does not end with a query comes back from its text. -/
theorem parseStatement_of_noQuery {s : Statement} (h : s.IsPlain ⟨.generic, keep⟩)
    (hq : ∀ q, .query q ∉ s.parts) :
    ∃ text, s.text = .ok text ∧ parseStatement text ⟨.generic, keep⟩ = .ok s := by
  obtain ⟨hl, hp⟩ := h
  have hobeys : s.Obeys (Part.Plain false) := fun p hm =>
    (hp p hm).obeys fun q he => hq q (he ▸ hm)
  have hclear : ∀ p ∈ s.parts, p.Obeys (Part.Clear .generic) := fun p hm =>
    Part.Plain.clear (hobeys p hm)
  have hnumbered : s.layout.Numbered 0 := Layout.Every.numbered
    (s.every_layout usual_unnumbered fun p hm => (hobeys p hm).mono fun _ => Part.Plain.marks)
  refine parseStatement_of_layout (s.apart hl fun p hm => Part.apart (hclear p hm)) hnumbered ?_
    fun source => Statement.finishes hl hq hclear
  cases s with
  | «show» r => cases r <;> exact fun he => by cases he
  | query q => exact hl.elim
  | unsupported text => exact hl.elim
  | _ => exact fun he => by cases he

/-- A plain statement comes back from its text. -/
theorem parseStatement_of_plainStatement {s : Statement} (keep : Bool)
    (h : s.IsPlain ⟨.generic, keep⟩) :
    ∃ text, s.text = .ok text ∧ parseStatement text ⟨.generic, keep⟩ = .ok s := by
  by_cases hq : ∀ q, .query q ∉ s.parts
  · exact parseStatement_of_noQuery h hq
  · obtain ⟨q, hm⟩ := not_forall_not.1 hq
    rcases Statement.query_mem_parts hm with rfl | ⟨i, rfl, hs⟩ | ⟨t, rfl, hs⟩
    · exact h.1.elim
    · exact parseStatement_of_insertQuery h hs
    · exact parseStatement_of_createQuery h hs

end Statements

/-- `CREATE TABLE IF NOT EXISTS t (a INT NOT NULL DEFAULT 1 UNIQUE REFERENCES u (b), CONSTRAINT c
CHECK (a)) AS SELECT a`. -/
def plainTable : CreateTable :=
  let name (text : String) : Ident := { name := text }
  { temporary := false
    ifNotExists := true
    name := ⟨[name "t"]⟩
    columns := [{ name := name "a", type := .plain .int, nullable := false
                  default := some (.literal (.integer "1")), unique := true
                  references := some ⟨⟨[name "u"]⟩, [name "b"]⟩ }]
    constraints := [⟨some (name "c"), .check (.column { name := name "a" })⟩]
    query := some (.ofBody (.select ⟨false, [⟨.column { name := name "a" }, none⟩], none, [], none, [],
      none, none⟩)) }

theorem parseStatement_of_plainTable :
    (Statement.createTable plainTable).IsPlain ⟨.generic, true⟩ ∧
      ∃ text, (Statement.createTable plainTable).text = .ok text ∧
        parseStatement text ⟨.generic, true⟩ = .ok (.createTable plainTable) := by
  have ha : Ident.Plain false { name := "a" } := by decide
  have hb : Ident.Plain false { name := "b" } := by decide
  have hc : Ident.Plain false { name := "c" } := by decide
  have ht : Ident.Plain false { name := "t" } := by decide
  have hu : Ident.Plain false { name := "u" } := by decide
  have htype : (DataType.plain .int).ReadsBack false :=
    DataType.readsBack (by simp [DataType.Legal, DataType.All, DataType.LegalHead])
      (by simp [DataType.Faithful, DataType.All, DataType.FaithfulHead])
  have hleaf : (Expr.column { name := { name := "a" } }).IsLeaf false := by
    simp [Expr.IsLeaf, ColumnRef.Legal, ColumnRef.names, ha.legal]
  have hquery : ∀ q ∈ plainTable.query, q.ReadsBack ⟨.generic, true⟩ := by
    intro q hq
    have hobeys : (Part.query q).Obeys (Part.Plain false) := by
      cases hq
      rw [Part.obeys_iff_allObey]
      simp [Query.ofBody, Part.children, Query.children, SetExpr.children, Select.children,
        Expr.children, SelectItem.parts, Part.exprs, Part.Plain, Query.Plain, SetExpr.Plain,
        Select.Legal, SelectItem.LegalList, SelectItem.Legal, Expr.isWildcard, hleaf]
    cases hq
    exact ⟨rfl, Query.Clear.parseStatement_text (o := ⟨.generic, true⟩) (Part.Plain.clear hobeys) rfl⟩
  have h : (Statement.createTable plainTable).IsPlain ⟨.generic, true⟩ := by
    constructor
    · simp [Statement.Plain, CreateTable.Plain, ObjectName.Plain, ColumnDef.Plain,
        ForeignKeyRef.Plain, TableConstraint.Plain, ConstraintRule.Plain, plainTable,
        Dialect.dq, Dialect.doubleQuotedStrings, ha, hb, hc, ht, hu, htype]
    · simp only [Statement.parts, List.forall_mem_append, List.forall_mem_map, Option.mem_toList]
      refine ⟨⟨?_, ?_⟩, hquery⟩
      · simp [plainTable, ColumnDef.parts, Part.exprs, Part.IsSimple, Expr.IsLeaf]
      · simp [plainTable, TableConstraint.parts, Part.IsSimple, Dialect.dq,
          Dialect.doubleQuotedStrings, hleaf]
  exact ⟨h, parseStatement_of_plainStatement true h⟩

end SqlTree
