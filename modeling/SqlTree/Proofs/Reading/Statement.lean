import Mathlib
import SqlTree.Proofs.Reading.Table

/-! # Statements are read back

* `takes_knownShow`: a `SHOW` statement.
* `takes_createTableAt`: what tells `CREATE TABLE` from other statements.
* `finishes_insert`, `finishes_createTable`, …: a statement of each kind, by its first word.
* `Statement.finishes`: a statement with plain names that does not end with a query is read back.
-/

namespace SqlTree
set_option autoImplicit false

open Parse

variable {d : Dialect} {dq : Bool} {l : Layout} {n : Nat}

/-! ## Showing settings -/

/-- The token for a word for indexes. -/
theorem IndexWord.kind_word (dq : Bool) (w : IndexWord) :
    ∃ kind, TokenKind.ofWord? dq w.text = some kind ∧ indexWord? kind = some w ∧
      ∀ s, kind ≠ .symbol s := by
  cases w with
  | index => exact ⟨.keyword .INDEX, ofWord?_keyword dq .INDEX, rfl, by simp⟩
  | indexes =>
    refine ⟨.identifier "INDEXES" none, ?_, by decide, by simp⟩
    cases dq <;> decide
  | keys =>
    refine ⟨.identifier "KEYS" none, ?_, by decide, by simp⟩
    cases dq <;> decide

theorem takes_statementEndAt {k : Nat} (h : kindAhead dq l k = .endOfInput)
    (hc : ∀ p ∈ l.take k, p ≠ .closingAngle) : Takes dq (statementEndAt k) l true l :=
  takes_peek (t := fun kind => kind == .symbol .semicolon || kind == .endOfInput)
    (by rw [h]; exact .pure true l) rfl hc

theorem takes_attempt {α : Type} {p : Parse α} {a : α} {l₁ : Layout} (h : Takes dq p l a l₁) :
    Takes dq (attempt p) l (some a) l₁ := by
  intro c hc
  obtain ⟨c', h', hc'⟩ := h c hc
  exact ⟨c', by rw [attempt_apply, h'], hc'⟩

theorem takes_knownShow {r : Show} (h : r.Plain dq) :
    Takes dq knownShow r.layout.solid (some r) [] := by
  cases r with
  | «variable» name =>
    have hn : TokenKind.ofWord? dq name.text = some (.identifier name.name name.quote) := h
    have hname : Takes dq identifier [.word name.text] name [] := Ident.Plain.takes (r := []) h
    refine (takes_expectKeyword _ _).bind (takes_current (by simp) fun t _ _ => ?_)
    refine (takes_anyKeywordAt_no (by simp) (by simp)).bind ?_
    have hback : Takes dq (do
        if (← nameAt 0) && (← statementEndAt 1) then return some (.variable (← identifier))
        else return none) [.word name.text] (some (Show.variable name)) [] := by
      refine (takes_nameAt_yes ?_ (by simp)).bind ((takes_statementEndAt rfl (by simp)).bind (hname.bind (.pure _ _)))
      rw [kindAhead_zero, Piece.kind_word hn]
      rfl
    cases indexWord? t.kind <;> exact hback
  | indexes word table =>
    obtain ⟨kind, hw, hi, -⟩ := word.kind_word dq
    have htable : Takes dq objectName table.layout.solid table [] := by
      simpa using ObjectName.Plain.takes (r := []) h (by simp)
    refine (takes_expectKeyword _ _).bind (takes_current (by simp) fun t ht _ => ?_)
    rw [ht, Piece.kind_word hw, hi]
    refine (takes_anyKeywordAt_yes (k := 1) (w := .FROM) rfl (by simp) (by simp)).bind ?_
    refine (takes_advance (by simp) rfl).bind ((takes_advance (by simp) rfl).bind ?_)
    exact (takes_attempt htable).bind ((takes_statementEndAt rfl (by simp)).bind (.pure _ _))

/-! ## The first words of a statement -/

theorem Cursor.At.current_keyword {c : Cursor} {k : Keyword} (h : c.At dq l)
    (hk : kindAhead dq l 0 = .keyword k) : c.current.kind = .keyword k := by
  rw [h.current_kind]
  exact (h.peek_eq (by simp) (by simp) (by simp)).2 hk

/-- `CREATE` in front of a table, temporary or not. -/
theorem takes_createTableAt (c : CreateTable) :
    Takes dq createTableAt (c.front.solid ++ l) true (c.front.solid ++ l) := by
  obtain ⟨temporary, ifNotExists, name, columns, constraints, query⟩ := c
  cases temporary with
  | true =>
    refine (takes_anyKeywordAt_yes (k := 1) (w := .TEMPORARY) rfl (by simp) ?_).bind ?_
    · simp [CreateTable.front]
    refine (takes_keywordAt_no ?_ ?_).bind ((takes_keywordAt_yes ?_ ?_).bind (.pure true _)) <;>
      simp [CreateTable.front, Layout.onlyIf]
  | false =>
    refine takes_test_any (fun c => ⟨_, rfl⟩) fun answer => ?_
    refine (takes_keywordAt_yes ?_ ?_).bind (takes_test_any (fun c => ⟨_, rfl⟩) fun _ => ?_)
    · simp [CreateTable.front, Layout.onlyIf]
    · simp [CreateTable.front, Layout.onlyIf]
    · exact .pure true _

section Body

variable {o : Options} {source : String}

/-- An `INSERT` statement is known by its first word. -/
theorem finishes_insert {i : Insert} (hk : kindAhead o.dialect.dq l 0 = .keyword .INSERT)
    (h : ∀ ahead : List Token, l.size ≤ ahead.length →
      Finishes o.dialect.dq (insertStatement (productions o.dialect ahead)) l n i) :
    Finishes o.dialect.dq (statementBody o source) l n (.insert i) := by
  refine .statement fun c hc => ?_
  rw [hc.toAt.current_keyword hk]
  exact (h c.ahead hc.toAt.size_le).bind_pure fun _ _ => rfl

/-- An `UPDATE` statement is read back. -/
theorem finishes_update {u : Update} (hl : u.Legal o.dialect.dq)
    (h : ∀ p ∈ (Statement.update u).parts, p.Obeys (Part.Clear o.dialect)) :
    Finishes o.dialect.dq (statementBody o source) u.layout.solid n (.update u) := by
  refine .statement fun c hc => ?_
  rw [hc.toAt.current_keyword (k := .UPDATE) rfl]
  have hsize : u.layout.size ≤ c.ahead.length + 1 := by
    have := hc.toAt.size_le
    rw [Layout.size_solid] at this
    omega
  have hread := takes_updateStatement (reads_productions _ c.ahead) hl h hsize
  exact hread.finishes.bind_pure fun _ _ => rfl

/-- A `CREATE TABLE` statement is known by its first words. -/
theorem finishes_create {t : CreateTable}
    (h : ∀ ahead : List Token, (t.front.solid ++ l).size ≤ ahead.length →
      Finishes o.dialect.dq (createTable (productions o.dialect ahead)) (t.front.solid ++ l) n t) :
    Finishes o.dialect.dq (statementBody o source) (t.front.solid ++ l) n (.createTable t) := by
  refine .statement fun c hc => ?_
  rw [hc.toAt.current_keyword (k := .CREATE) rfl]
  refine (takes_createTableAt t).finish ?_
  exact (h c.ahead hc.toAt.size_le).bind_pure fun _ _ => rfl

/-- What is in the parts of a declaration. -/
theorem CreateTable.reads_declared {t : CreateTable} (hl : t.Plain d.dq)
    (h : ∀ p ∈ t.columns.flatMap ColumnDef.parts ++ t.constraints.flatMap TableConstraint.parts,
      p.Obeys (Part.Clear d)) : ∀ p ∈ t.declared, p.Reads d := by
  simp only [List.forall_mem_append, List.forall_mem_flatMap] at h
  simp only [CreateTable.declared, List.forall_mem_append, List.forall_mem_map]
  exact ⟨fun c hc => ⟨hl.2.1 c hc, h.1 c hc⟩, fun c hc => ⟨hl.2.2.1 c hc, h.2 c hc⟩⟩

/-- A statement with plain names that does not end with a query is read back. -/
theorem Statement.finishes {s : Statement} (hl : s.Plain o.dialect.dq)
    (hq : ∀ q, .query q ∉ s.parts) (h : ∀ p ∈ s.parts, p.Obeys (Part.Clear o.dialect)) :
    Finishes o.dialect.dq (statementBody o source) s.layout.solid n s := by
  have hsize : ∀ {ahead : List Token}, s.layout.solid.size ≤ ahead.length →
      s.layout.size ≤ ahead.length + 1 := fun hs => by
    rw [Layout.size_solid] at hs
    omega
  cases s with
  | insert i =>
    refine finishes_insert rfl fun ahead ha =>
      finishes_insertRows (reads_productions _ ahead) hl (fun q he => hq q ?_) h (hsize ha) n
    simp [Statement.parts, he, InsertSource.parts]
  | update u => exact finishes_update hl.legal h
  | delete u =>
    refine .statement fun c hc => ?_
    rw [hc.toAt.current_keyword (k := .DELETE) rfl]
    have hread := takes_deleteStatement (reads_productions _ c.ahead) hl h (hsize hc.toAt.size_le)
    exact hread.finishes.bind_pure fun _ _ => rfl
  | createTable t =>
    have hnone : t.query = none := by
      cases he : t.query with
      | none => rfl
      | some q => exact absurd (by simp [Statement.parts, he]) (hq q)
    have hlayout : (Statement.createTable t).layout.solid = t.front.solid ++ [] := by
      rw [Statement.layout, t.layout_eq, hnone, Layout.optional_none, Layout.solid_append]
      rfl
    rw [hlayout]
    refine finishes_create fun ahead ha => ?_
    refine finishes_createTable (reads_productions _ ahead) hl ?_ ?_ (fun _ => rfl) ?_
    · exact CreateTable.reads_declared hl fun p hp =>
        h p (List.mem_append_left _ hp)
    · rw [List.append_nil, Layout.size_solid] at ha
      omega
    · simp [hnone]
  | alterTable a =>
    refine .statement fun c hc => ?_
    rw [hc.toAt.current_keyword (k := .ALTER) rfl]
    refine (takes_keywordAt_yes (k := 1) rfl (by simp [Statement.layout, AlterTable.layout,
      Layout.keywords])).finish ?_
    have hread := takes_alterTable (reads_productions _ c.ahead) hl h (hsize hc.toAt.size_le)
    exact hread.finishes.bind_pure fun _ _ => rfl
  | «show» r =>
    refine .statement fun c hc => ?_
    have hk : kindAhead o.dialect.dq (Statement.show r).layout.solid 0 = .keyword .SHOW := by
      cases r <;> rfl
    rw [hc.toAt.current_keyword hk]
    exact (takes_knownShow hl).finishes.bind_pure fun _ _ => rfl
  | _ => exact hl.elim

end Body

end SqlTree
