import Mathlib
import SqlTree.Proofs.Spending.Query
import SqlTree.Proofs.Text.Embedded
import SqlTree.Proofs.Text.Operator
import SqlTree.Proofs.Text.Retold
import SqlTree.Proofs.Tree.Numbers

/-! # What is read back from its text

* `Query.clear_of_parseStatement`: a query that is read back from its own text is clear, in the
  dialects that have no struct values in braces.
* `Expr.ComesBack`: an expression is read back from its text as the column of a query. Without
  question marks it is clear, and a clear one comes back.

Whatever is read takes as many loose characters from the tokens as are written for it, and one more
for each part whose written form does not say all. The tokens of its own text have no more than are
written. So nothing is lost but the parentheses of casts. With these in it the tree is clear and has
the same text, so it is the tree that is read.
-/

namespace SqlTree
set_option autoImplicit false

open Layout Parse

variable {o : Options} {q : Query} {text : String}

/-- Whatever is read from a text obeys the grammar, and what is written for it holds no more loose
characters than the text. -/
theorem Query.read_of_parseStatement (hd : o.dialect.structStyle = .bigQuery)
    (h : parseStatement text o = .ok (.query q)) :
    (Part.query q).Obeys (Part.Legal o.dialect) ∧
      (Part.query q).cost o.dialect ≤ looseCount text.toList := by
  obtain ⟨lexed, c, ht, hq, -⟩ := query_of_parseStatement h
  obtain ⟨hg, hend⟩ := tokenize_genuine ht
  obtain ⟨-, -, hread, -⟩ :=
    (read_productions hd lexed.tokens).query (Cursor.ofLexed lexed) ⟨hg, hend⟩ q c hq
  obtain ⟨hformed, -⟩ :=
    (agree_productions o.dialect lexed.tokens _ le_rfl).query _ _ (.refl _) q c hq
  have hcost := hread.cost
  have htext : (Cursor.ofLexed lexed).loose ≤ looseCount text.toList := tokenize_looseCount ht
  exact ⟨hread.fine.legal hformed, by omega⟩

/-- A query that is read back from its own text is clear. -/
theorem Query.clear_of_parseStatement (hd : o.dialect.structStyle = .bigQuery)
    (ht : q.text = .ok text) (h : parseStatement text o = .ok (.query q))
    (hn : q.layout.Numbered 0) : q.Clear o.dialect := by
  obtain ⟨hlegal, hcost⟩ := Query.read_of_parseStatement hd h
  have hchars : q.layout.chars = text := (text_eq_ok.1 ht).2
  have hkept : (Part.query q).Obeys (Part.Kept o.dialect) := by
    refine Part.kept_of_lapses ?_
    rw [← hchars, Part.cost] at hcost
    have hloose : looseCount q.layout.chars.toList = (Part.query q).layout.loose := rfl
    omega
  obtain ⟨q', hq⟩ := Part.retellable hd (hlegal.and hkept)
  obtain ⟨text', ht', hread⟩ := hq.clear.parseStatement_text (hq.layout.symm ▸ hn)
  -- The clear query has the same text, so it is the one that is read.
  have hsame : text' = text := by
    rw [Query.text, hq.layout] at ht'
    exact Except.ok.inj (ht'.symm.trans ht)
  rw [hsame, h] at hread
  obtain rfl : q = q' := by simpa using hread
  exact hq.clear

/-! ## Parts without question marks -/

/-- Neither a part nor any part in it is a question mark. -/
abbrev Part.Unnumbered (p : Part) : Prop :=
  p.Obeys fun q => q.number? = none

theorem Part.Unnumbered.every_layout {p : Part} (h : p.Unnumbered) :
    p.layout.Every fun x => x.number? = none := by
  refine Part.every_layout usual_unnumbered (h.mono fun q hq => ?_)
  cases q with
  | expr e =>
    cases e with
    | binary left op right => cases op <;> trivial
    | struct v => exact fun _ _ _ _ _ => rfl
    | wildcard table except replace => rfl
    | placeholder p =>
      cases p with
      | positional n => cases hq
      | _ => trivial
    | _ => trivial
  | query q => exact ⟨fun _ _ _ _ _ => rfl, fun _ _ _ _ _ => rfl⟩
  | _ => trivial

/-! ## Expressions -/

namespace Expr

/-- An expression is read back from its text as the column of a query. -/
def ComesBack (o : Options) (e : Expr) : Prop :=
  ∃ text, e.text = .ok text ∧ parseStatement ("SELECT " ++ text) o = .ok (.query e.asQuery)

variable {e : Expr}

theorem text_asQuery {text : String} (h : e.text = .ok text) :
    e.asQuery.text = .ok ("SELECT " ++ text) := by
  obtain ⟨hd, rfl⟩ := text_eq_ok.1 h
  exact text_eq_ok.2 ⟨by rw [layout_asQuery]; exact hd, chars_asQuery e⟩

theorem numbered_asQuery (h : (Part.expr e).Unnumbered) : e.asQuery.layout.Numbered 0 := by
  refine Layout.Every.numbered ?_
  rw [layout_asQuery]
  simp only [every_cons]
  exact ⟨rfl, rfl, h.every_layout⟩

theorem within_asQuery (e : Expr) : Part.Within (.expr e) (.query e.asQuery) :=
  .child (c := .body e.asQuery.body) (by simp [asQuery, Query.ofBody, Part.children, Query.children])
    (.child (List.mem_singleton.2 rfl)
      (.child (by simp [Part.children, Select.children, SelectItem.parts]) .refl))

/-- An expression that comes back from its text is clear. -/
theorem ComesBack.clear (hd : o.dialect.structStyle = .bigQuery) (h : e.ComesBack o)
    (hn : (Part.expr e).Unnumbered) : e.Clear o.dialect := by
  obtain ⟨text, ht, hread⟩ := h
  have hq := Query.clear_of_parseStatement hd (text_asQuery ht) hread (numbered_asQuery hn)
  exact hq.within (within_asQuery e)

/-- A clear expression comes back from its text. -/
theorem Clear.comesBack (h : e.Clear o.dialect) (hn : (Part.expr e).Unnumbered) :
    e.ComesBack o := by
  have ht : e.text = .ok e.layout.chars := text_of_apart (Part.apart h)
  obtain ⟨text, hq, hread⟩ := h.asQuery.parseStatement_text (numbered_asQuery hn)
  obtain rfl : text = "SELECT " ++ e.layout.chars := by
    simpa using hq.symm.trans (text_asQuery ht)
  exact ⟨_, ht, hread⟩

end Expr

end SqlTree
