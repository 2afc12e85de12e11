import Mathlib
import SqlTree.Proofs.Reading.Place
import SqlTree.Session

/-! # Reading to the end of a text

* `Cursor.Before dq l n c`: in front of the cursor stands the rest `l` of a text, and with it `n`
  question marks are counted in all.
* `Cursor.Done c`: only semicolons are left.
* `Finishes dq p l n a`: where the rest `l` of a text stands ahead, `p` answers `a` and leaves only
  semicolons. How the text ends need not be known in pieces, as it need be for `Takes`.
* `parseStatement_of_finishes`: a statement that is read to the end of a text is the single
  statement of the text.
-/

namespace SqlTree
set_option autoImplicit false

open Parse

variable {dq : Bool} {α β : Type} {a : α} {b : β} {n : Nat} {l l₁ : Layout}

/-! ## The end of a text -/

theorem takes_atEnd_yes : Takes dq atEnd [] true [] :=
  takes_current_plain (by simp) fun t ht => by
    rw [ht]
    exact .pure true []

theorem takes_atEnd_no (h : kindAhead dq l 0 ≠ .endOfInput) : Takes dq atEnd l false l :=
  takes_current_kind fun t ht => by
    have hne : t.kind ≠ .endOfInput := by
      rcases ht with ht | ⟨ht, -⟩
      · rwa [ht]
      · simp [ht]
    rw [beq_false_of_ne hne]
    exact .pure false l

theorem takes_semicolons : Takes dq semicolons [] () [] := by
  have hs : Takes dq semicolon [] none [] :=
    (takes_takeSymbol_no (by simp) (by decide)).bind (.pure none [])
  exact (takes_collect (.done hs)).bind (.pure () [])

/-- In front of the cursor stands the rest of a text. With it some question marks are counted in
all. -/
structure Cursor.Before (dq : Bool) (l : Layout) (n : Nat) (c : Cursor) : Prop
    extends c.At dq l where
  count : c.placeholders + l.numbers.length = n
  ending_text : c.ending.text = ""

/-- Only semicolons are left. -/
def Cursor.Done (c : Cursor) : Prop :=
  ∃ c₁ c₂, semicolons c = .ok () c₁ ∧ atEnd c₁ = .ok true c₂

theorem Cursor.AtBehind.before {c c' : Cursor} (h : c'.AtBehind dq l₁ l c) (hc : c.Before dq l n) :
    c'.Before dq l₁ n :=
  ⟨h.toAt, h.count.trans hc.count, h.sameEnd ▸ hc.ending_text⟩

theorem Cursor.At.done {c : Cursor} (h : c.At dq []) : c.Done := by
  obtain ⟨c₁, h₁, hc₁⟩ := takes_semicolons c h
  obtain ⟨c₂, h₂, -⟩ := takes_atEnd_yes c₁ hc₁.toAt
  exact ⟨c₁, c₂, h₁, h₂⟩

/-- In front of a keyword more than semicolons are left. -/
theorem Cursor.Done.peek_ne {c : Cursor} (h : c.Done) (k : Keyword) : c.peek 0 ≠ .keyword k := by
  obtain ⟨c₁, c₂, h₁, h₂⟩ := h
  intro hk
  have hno : semicolon c = .ok none c := by
    have ht : symbolAt 0 .semicolon c = .ok false c := by
      show EStateM.Result.ok (c.peek 0 == .symbol .semicolon) c = _
      rw [hk]
      rfl
    simp only [semicolon, takeSymbol, bind_apply, ht, Bool.false_eq_true, if_false]
    rfl
  have hcollect : collectWithin semicolon c.ahead c = .ok [] c := by
    cases c.ahead <;> simp only [collectWithin, bind_apply, hno] <;> rfl
  have hs : semicolons c = .ok () c := by
    simp only [semicolons, collect, bind_apply, ahead_apply, hcollect]
    rfl
  obtain rfl : c = c₁ := by
    rw [hs] at h₁
    cases h₁
    rfl
  have hend : (c.current.kind == .endOfInput) = true := by
    have he : atEnd c = .ok (c.current.kind == .endOfInput) c := rfl
    exact (EStateM.Result.ok.inj (he.symm.trans h₂)).1
  have hcur : c.current.kind = .keyword k := by
    unfold Cursor.peek at hk
    unfold Cursor.current
    cases ha : c.ahead with
    | nil => simp [ha] at hk
    | cons t ts => simpa [ha] using hk
  rw [hcur] at hend
  cases hend

/-! ## Reading to the end -/

/-- Reads what is written in `l` up to semicolons at the end of the text, and answers `a`. -/
def Finishes (dq : Bool) (p : Parse α) (l : Layout) (n : Nat) (a : α) : Prop :=
  ∀ c : Cursor, c.Before dq l n → ∃ c', p c = .ok a c' ∧ c'.Done

theorem Takes.finishes {p : Parse α} (h : Takes dq p l a []) : Finishes dq p l n a := by
  intro c hc
  obtain ⟨c', h', hc'⟩ := h c hc.toAt
  exact ⟨c', h', hc'.toAt.done⟩

theorem Takes.finish {p : Parse α} {f : α → Parse β} (h : Takes dq p l a l₁)
    (hf : Finishes dq (f a) l₁ n b) : Finishes dq (p >>= f) l n b := by
  intro c hc
  obtain ⟨c₁, h₁, hc₁⟩ := h c hc.toAt
  obtain ⟨c₂, h₂, hc₂⟩ := hf c₁ (hc₁.before hc)
  exact ⟨c₂, by simp only [bind_apply, h₁, h₂], hc₂⟩

namespace Finishes

theorem bind_pure {p : Parse α} {f : α → Parse β} (h : Finishes dq p l n a)
    (hf : ∀ c : Cursor, c.Done → f a c = .ok b c) : Finishes dq (p >>= f) l n b := by
  intro c hc
  obtain ⟨c₁, h₁, hc₁⟩ := h c hc
  exact ⟨c₁, by simp only [bind_apply, h₁, hf c₁ hc₁], hc₁⟩

/-- An item behind a keyword that is there. -/
theorem afterKeyword {p : Parse α} (h : Finishes dq p l n a) (k : Keyword) :
    Finishes dq (afterKeyword k p) (.keyword k :: l) n (some a) :=
  (takes_takeKeyword_yes k l).finish (h.bind_pure fun _ _ => rfl)

/-- A statement is read by its first token. -/
theorem statement {o : Options} {source : String} {s : Statement}
    (h : ∀ c : Cursor, c.Before dq l n → Finishes dq
      (statementFrom o source c.position (productions o.dialect c.ahead) c.current.kind) l n s) :
    Finishes dq (statementBody o source) l n s :=
  fun c hc => h c hc c hc

end Finishes

/-- An item behind a keyword that is not there at the end of a text. -/
theorem ifKeyword_of_done {item : Parse α} {k : Keyword} {c : Cursor} (h : c.Done) :
    ifKeyword k item c = .ok none c := by
  have ht : keywordAt 0 k c = .ok false c := by
    show EStateM.Result.ok (c.peek 0 == .keyword k) c = _
    rw [beq_false_of_ne (h.peek_ne k)]
  simp only [ifKeyword, bind_apply, ht, Bool.false_eq_true, if_false]
  rfl

/-- A statement that is read to the end of a text is the single statement of the text. -/
theorem parseStatement_of_finishes {o : Options} {s : Statement} {text : String} {lexed : Lexed}
    (ht : tokenize text o.dialect.doubleQuotedStrings = .ok lexed)
    (hc : (Cursor.ofLexed lexed).Before o.dialect.doubleQuotedStrings l n)
    (hk : kindAhead o.dialect.doubleQuotedStrings l 0 ≠ .endOfInput)
    (h : Finishes o.dialect.doubleQuotedStrings (statementBody o text) l n s) :
    parseStatement text o = .ok s := by
  obtain ⟨c₀, h₀, hc₀⟩ := takes_atEnd_no hk _ hc.toAt
  obtain ⟨c', h', c₁, c₂, h₁, h₂⟩ := h c₀ (hc₀.before hc)
  have hs : singleStatement o text (Cursor.ofLexed lexed) = .ok s c₂ := by
    simp only [singleStatement, bind_apply, h₀, Bool.false_eq_true, if_false, h', h₁, h₂, if_true]
    rfl
  exact (parseStatement_iff ht s).2 ⟨c₂, hs⟩

end SqlTree
