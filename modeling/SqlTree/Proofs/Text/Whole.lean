import Mathlib
import SqlTree.Proofs.Reading.Finish
import SqlTree.Proofs.Writing.Query

/-! # Whole texts

* `text_of_apart`: a layout whose pieces stay apart has a text.
* `Statement.IsRead o s`: in front of the end of the text a statement is read back.
* `parseStatement_of_isRead`: a statement that is read back is the single statement of its text.
* `Query.Clear.isRead`: a clear query is read back.
-/

namespace SqlTree
set_option autoImplicit false

open Layout Parse

variable {d : Dialect} {dq : Bool}

/-! ## Texts -/

theorem defect?_of_spaced {next : Option Char} :
    ∀ l : Layout, l.Spaced dq next → l.defect? = none
  | [], _ => rfl
  | p :: l, h => by
    have ih := defect?_of_spaced l h.tail
    cases p with
    | defect x => exact (h.head (by simp)).elim
    | _ => exact ih

theorem text_eq_ok {l : Layout} {text : String} :
    l.text = .ok text ↔ l.defect? = none ∧ l.chars = text := by
  unfold Layout.text
  split <;> simp [*]

theorem text_of_apart {l : Layout} (h : l.Apart dq) : l.text = .ok l.chars := by
  simp only [Layout.text, defect?_of_spaced l h.spaced]

/-! ## Statements -/

/-- In front of the end of the text a statement is read back, whatever the text is. -/
def Statement.IsRead (o : Options) (s : Statement) : Prop :=
  kindAhead o.dialect.dq s.layout.solid 0 ≠ .endOfInput ∧
    ∀ source, Takes o.dialect.dq (statementBody o source) s.layout.solid s []

/-- A statement that is read back is the single statement of its text. -/
theorem parseStatement_of_isRead {o : Options} {s : Statement} (ha : s.layout.Apart o.dialect.dq)
    (hn : s.layout.Numbered 0) (hr : s.IsRead o) :
    ∃ text, s.text = .ok text ∧ parseStatement text o = .ok s := by
  obtain ⟨lexed, ht, hreads, he⟩ := tokenize_of_apart ha hn
  refine ⟨s.layout.chars, text_of_apart ha, ?_⟩
  have hsingle : Takes o.dialect.dq (singleStatement o s.layout.chars) s.layout.solid s [] := by
    refine (takes_atEnd_no hr.1).bind ((hr.2 _).bind (takes_semicolons.bind ?_))
    exact takes_atEnd_yes.bind (.pure s [])
  obtain ⟨c, hc, -⟩ := hsingle (Cursor.ofLexed lexed) ⟨hreads, he⟩
  exact (parseStatement_iff ht s).2 ⟨c, hc⟩

/-- The words and the mark that a query begins with. -/
theorem Query.kindAhead_layout (q : Query) : kindAhead dq q.layout.solid 0 ∈
    [TokenKind.keyword .SELECT, .keyword .WITH, .keyword .VALUES, .symbol .leftParen] := by
  cases hq : q.opens with
  | true =>
    obtain ⟨k, l, hl, hk⟩ := Query.head_layout hq []
    rw [List.append_nil] at hl
    rw [hl]
    simp only [List.mem_cons, List.not_mem_nil, or_false] at hk
    rcases hk with rfl | rfl <;> simp
  | false =>
    simp only [Query.opens, Bool.or_eq_false_iff] at hq
    obtain ⟨p, l, hl, hp⟩ := SetExpr.head_layout_of_not_opens hq.2
    obtain ⟨ctes, body, orderBy, limitBy, limit, offset⟩ := q
    cases ctes with
    | some w => simp at hq
    | none =>
      dsimp only at hl
      simp only [Query.layout_eq, Layout.optional_none, List.nil_append, solid_append, hl]
      rcases hp with ⟨rfl, -⟩ | rfl <;> simp

/-- What is read for a statement that begins with a query. -/
theorem takes_statementBody_query {o : Options} {source : String} {l : Layout} {q : Query}
    (hk : kindAhead o.dialect.dq l 0 ∈
      [TokenKind.keyword .SELECT, .keyword .WITH, .keyword .VALUES, .symbol .leftParen])
    (h : ∀ c : Cursor, c.At o.dialect.dq l →
      ∃ c', (productions o.dialect c.ahead).query c = .ok q c' ∧
        c'.AtBehind o.dialect.dq [] l c) :
    Takes o.dialect.dq (statementBody o source) l (.query q) [] := by
  intro c hc
  have hkind : c.current.kind = kindAhead o.dialect.dq l 0 := by
    rw [hc.current_kind]
    rcases hc.peek_cases (k := 0) (by simp) with hp | ⟨-, hg⟩
    · exact hp
    · simp [hg] at hk
  obtain ⟨c', h', hc'⟩ := h c hc
  refine ⟨c', ?_, hc'⟩
  simp only [List.mem_cons, List.not_mem_nil, or_false, ← hkind] at hk
  rw [statementBody_apply]
  rcases hk with hk | hk | hk | hk <;> simp only [hk, statementFrom, bind_apply, h'] <;> rfl

/-- A clear query is read back in front of the end of the text. -/
theorem Query.Clear.isRead {o : Options} {q : Query} (h : q.Clear o.dialect) :
    (Statement.query q).IsRead o := by
  have hk := @Query.kindAhead_layout o.dialect.dq q
  refine ⟨fun he => ?_, fun source => takes_statementBody_query hk fun c hc => ?_⟩
  · change kindAhead o.dialect.dq q.layout.solid 0 = _ at he
    rw [he] at hk
    simp at hk
  · have hr := (reads_productions o.dialect c.ahead).query q h ?_ [] ⟨rfl, by simp⟩
    · rw [List.append_nil] at hr
      exact hr c hc
    · have := hc.size_le
      rw [Statement.layout, Layout.size_solid] at this
      omega

end SqlTree
