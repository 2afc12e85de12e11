import Mathlib
import SqlTree.Dialect
import SqlTree.Name.Grammar
import SqlTree.Proofs.Reading.Place

/-! # Readers that read more

The generic dialect goes on where a narrower one stops: at `EXCLUDE (` behind a wildcard, and at `BY`
behind a limit. There the narrower dialect has to fail later on, since nothing that may follow an
expression begins with these words, nor with the parenthesis that is left where `EXCLUDE` is read as
a name.

* `Cursor.Barred (some d) c`: nothing that may follow an expression in the dialect `d` begins at `c`.
  No place is barred for `none`.
* `Parse.Widens s e p p'`: where `p` has an answer, `p'` has the same one unless `p` stops at a place
  barred for `e`; and from a place barred for `s` the reader `p` comes only to one barred for `e`.

So `none` in front says nothing of a barred start, and `none` behind says that the answers are the
same. The rules follow the definitions in `Parse`.
-/

namespace SqlTree
set_option autoImplicit false

/-! ## Barred places -/

namespace Cursor

/-- Nothing that may follow an expression in a narrower dialect begins here. -/
def Barred : Option Dialect → Cursor → Prop
  | none, _ => False
  | some d, c =>
    c.peek 0 = .symbol .leftParen ∨
      c.peek 0 = .keyword .EXCLUDE ∧ c.peek 1 = .symbol .leftParen ∨
      d.limitBy = false ∧ c.peek 0 = .keyword .BY

variable {s : Option Dialect} {c : Cursor}

theorem Barred.kind (h : c.Barred s) : c.peek 0 = .symbol .leftParen ∨
    c.peek 0 = .keyword .EXCLUDE ∨ c.peek 0 = .keyword .BY := by
  cases s with
  | none => exact h.elim
  | some d => exact h.imp_right (.imp And.left And.right)

theorem Barred.not_symbol (h : c.Barred s) {m : Symbol} (hm : m ≠ .leftParen) :
    c.peek 0 ≠ .symbol m := by
  intro he
  rcases h.kind with h | h | h <;> rw [he] at h <;> cases h
  exact hm rfl

theorem Barred.not_keyword (h : c.Barred s) {k : Keyword} (hk : k ≠ .EXCLUDE ∧ k ≠ .BY) :
    c.peek 0 ≠ .keyword k := by
  intro he
  rcases h.kind with h | h | h <;> rw [he] at h <;> cases h
  · exact hk.1 rfl
  · exact hk.2 rfl

theorem current_kind_of_barred (h : c.Barred s) : c.current.kind = c.peek 0 := by
  obtain ⟨behind, ahead, ending, n⟩ := c
  cases ahead with
  | nil =>
    rcases h.kind with h | h | h <;> cases h
  | cons t ts => rfl

end Cursor

namespace Parse

variable {α β : Type} {s m e : Option Dialect} {p p' q q' : Parse α} {r r' : Parse β}
  {f f' : α → Parse β}

/-! ## Readers -/

/-- Where `p` has an answer, `p'` has the same one unless `p` stops at a barred place; and from a
barred place `p` comes only to a barred one. -/
def Widens (s e : Option Dialect) (p p' : Parse α) : Prop :=
  ∀ c a d, p c = .ok a d → (c.Barred s → d.Barred e) ∧ (p' c = .ok a d ∨ d.Barred e)

/-- The same reader in both dialects. -/
theorem Widens.refl (p : Parse α) : Widens none e p p :=
  fun _ _ _ h => ⟨False.elim, .inl h⟩

theorem Widens.pure (a : α) : Widens s s (Pure.pure a) (Pure.pure a) := by
  rintro c _ _ ⟨⟩
  exact ⟨id, .inl rfl⟩

theorem Widens.stop (cause : Cause) : Widens s e (stop cause : Parse α) p' := by
  rintro c _ _ ⟨⟩

theorem Widens.fail (descriptions : List String) : Widens s e (fail descriptions : Parse α) p' :=
  .stop _

/-- A reader that ends at no barred place. -/
theorem Widens.clean (h : Widens s none p p') : Widens none e p p' :=
  fun c a d hr => ⟨False.elim, (h c a d hr).2.imp_right False.elim⟩

/-- A reader that may begin at a barred place may begin at another one. -/
theorem Widens.fresh (h : Widens s e p p') : Widens none e p p' :=
  fun c a d hr => ⟨False.elim, (h c a d hr).2⟩

theorem Widens.bind (hp : Widens s m p p') (hf : ∀ a, Widens m e (f a) (f' a)) :
    Widens s e (p >>= f) (p' >>= f') := by
  intro c b d h
  rw [bind_apply] at h
  cases hr : p c with
  | error fault c₁ =>
    rw [hr] at h
    cases h
  | ok a c₁ =>
    rw [hr] at h
    obtain ⟨hbarred, hsame⟩ := hp c a c₁ hr
    obtain ⟨hon, hsame'⟩ := hf a c₁ b d h
    refine ⟨fun hc => hon (hbarred hc), ?_⟩
    rcases hsame with hsame | hc₁
    · rw [bind_apply, hsame]
      exact hsame'
    · exact .inr (hon hc₁)

/-- The same reader in both dialects, with what comes behind it. -/
theorem Widens.next {p : Parse α} (hf : ∀ a, Widens none e (f a) (f' a)) :
    Widens none e (p >>= f) (p >>= f') :=
  .bind (.refl p) hf

theorem Widens.map {g : α → β} (hp : Widens s e p p') : Widens s e (g <$> p) (g <$> p') := by
  rw [← bind_pure_comp, ← bind_pure_comp]
  exact .bind hp fun _ => .pure _

theorem Widens.ite {condition : Prop} [Decidable condition] (hp : Widens s e p p')
    (hq : Widens s e q q') : Widens s e (if condition then p else q) (if condition then p' else q') := by
  by_cases h : condition
  · rw [if_pos h, if_pos h]
    exact hp
  · rw [if_neg h, if_neg h]
    exact hq

/-- Two ways that go on alike. -/
theorem Widens.join {condition : Prop} [Decidable condition] (hp : Widens s m p p')
    (hq : Widens s m q q') (hf : ∀ a, Widens m e (f a) (f' a)) :
    Widens s e (if condition then p >>= f else q >>= f) (if condition then p' >>= f' else q' >>= f') :=
  .ite (.bind hp hf) (.bind hq hf)

/-- A reader that stays where it is at barred places. -/
theorem Widens.stays (hp : Widens none s p p')
    (hstays : ∀ c, c.Barred s → ∃ a, p c = .ok a c) : Widens s s p p' := by
  intro c a d h
  refine ⟨fun hc => ?_, (hp c a d h).2⟩
  obtain ⟨b, hb⟩ := hstays c hc
  rw [hb] at h
  cases h
  exact hc

/-! ## Single tokens -/

/-- A test that does not hold at barred places. -/
theorem Widens.test {test : Parse Bool} (htest : ∀ c, c.Barred s → test c = .ok false c)
    (hyes : Widens none e p p') (hno : Widens s e q q') :
    Widens s e (test >>= fun b => if b then p else q) (test >>= fun b => if b then p' else q') := by
  intro c a d h
  rw [bind_apply] at h
  rw [bind_apply]
  cases hr : test c with
  | error fault c₁ =>
    rw [hr] at h
    cases h
  | ok b c₁ =>
    rw [hr] at h
    cases b with
    | true =>
      refine ⟨fun hc => ?_, (hyes c₁ a d h).2⟩
      rw [htest c hc] at hr
      cases hr
    | false =>
      obtain ⟨hon, hsame⟩ := hno c₁ a d h
      refine ⟨fun hc => hon ?_, hsame⟩
      rw [htest c hc] at hr
      cases hr
      exact hc

section Tokens

variable {c : Cursor}

theorem symbolAt_of_ne {m : Symbol} (h : c.peek 0 ≠ .symbol m) : symbolAt 0 m c = .ok false c := by
  have happly : symbolAt 0 m c = .ok (c.peek 0 == .symbol m) c := rfl
  rw [happly, beq_eq_false_iff_ne.2 h]

theorem keywordAt_of_ne {k : Keyword} (h : c.peek 0 ≠ .keyword k) :
    keywordAt 0 k c = .ok false c := by
  have happly : keywordAt 0 k c = .ok (c.peek 0 == .keyword k) c := rfl
  rw [happly, beq_eq_false_iff_ne.2 h]

theorem takeSymbol_of_ne {m : Symbol} (h : c.peek 0 ≠ .symbol m) :
    takeSymbol m c = .ok false c := by
  rw [takeSymbol, bind_apply, symbolAt_of_ne h]
  rfl

theorem takeKeyword_of_ne {k : Keyword} (h : c.peek 0 ≠ .keyword k) :
    takeKeyword k c = .ok false c := by
  rw [takeKeyword, bind_apply, keywordAt_of_ne h]
  rfl

end Tokens

theorem Widens.keywordAt (k : Keyword) (hyes : Widens none e p p') (hno : Widens s e q q')
    (hk : k ≠ .EXCLUDE ∧ k ≠ .BY) :
    Widens s e (keywordAt 0 k >>= fun b => if b then p else q)
      (keywordAt 0 k >>= fun b => if b then p' else q') :=
  .test (fun _ hc => keywordAt_of_ne (hc.not_keyword hk)) hyes hno

theorem Widens.takeSymbol (y : Symbol) (hyes : Widens none e p p') (hno : Widens s e q q')
    (hy : y ≠ .leftParen) : Widens s e (takeSymbol y >>= fun b => if b then p else q)
      (takeSymbol y >>= fun b => if b then p' else q') :=
  .test (fun _ hc => takeSymbol_of_ne (hc.not_symbol hy)) hyes hno

theorem Widens.takeKeyword (k : Keyword) (hyes : Widens none e p p') (hno : Widens s e q q')
    (hk : k ≠ .EXCLUDE ∧ k ≠ .BY) :
    Widens s e (takeKeyword k >>= fun b => if b then p else q)
      (takeKeyword k >>= fun b => if b then p' else q') :=
  .test (fun _ hc => takeKeyword_of_ne (hc.not_keyword hk)) hyes hno

/-- No barred place is behind a symbol that has to be there. -/
theorem Widens.expectSymbol (y : Symbol) (hy : y ≠ .leftParen) :
    Widens s none (expectSymbol y) (expectSymbol y) :=
  .takeSymbol y (.refl _) (.fail _) hy

theorem Widens.expectKeyword (k : Keyword) (hk : k ≠ .EXCLUDE ∧ k ≠ .BY) :
    Widens s none (expectKeyword k) (expectKeyword k) :=
  .takeKeyword k (.refl _) (.fail _) hk

/-! ## Repetition -/

section Repetition

theorem Widens.repeatFrom {step step' : α → Parse (Option α)}
    (hstep : ∀ a, Widens s s (step a) (step' a)) (a : α) :
    Widens s s (repeatFrom step a) (repeatFrom step' a) := by
  have hwithin : ∀ (allowance : List Token) (a : α),
      Widens s s (repeatWithin step allowance a) (repeatWithin step' allowance a) := by
    intro allowance
    induction allowance with
    | nil =>
      refine fun a => .bind (hstep a) fun o => ?_
      cases o with
      | none => exact .pure a
      | some b => exact .stop _
    | cons t allowance ih =>
      refine fun a => .bind (hstep a) fun o => ?_
      cases o with
      | none => exact .pure a
      | some b => exact ih b
  exact fun c => hwithin c.ahead a c

theorem Widens.collect {step step' : Parse (Option α)} (hstep : Widens s s step step') :
    Widens s s (collect step) (collect step') := by
  have hwithin : ∀ allowance : List Token,
      Widens s s (collectWithin step allowance) (collectWithin step' allowance) := by
    intro allowance
    induction allowance with
    | nil =>
      refine .bind hstep fun o => ?_
      cases o with
      | none => exact .pure _
      | some a => exact .stop _
    | cons t allowance ih =>
      refine .bind hstep fun o => ?_
      cases o with
      | none => exact .pure _
      | some a => exact .bind ih fun _ => .pure _
  exact fun c => hwithin c.ahead c

end Repetition

/-! ## Arrangements -/

section Arrangements

variable (h : Widens none s p p')

include h

theorem Widens.afterComma : Widens s s (afterComma p) (afterComma p') :=
  .takeSymbol _ (.bind h fun _ => .pure _) (.pure _) (by decide)

theorem Widens.commaList : Widens none s (commaList p) (commaList p') :=
  .bind h fun _ => .bind h.afterComma.collect fun _ => .pure _

theorem Widens.inParens : Widens none e (inParens p) (inParens p') :=
  .bind (.refl _) fun _ => .bind h fun _ => .bind (.expectSymbol _ (by decide)) fun _ => .refl _

theorem Widens.afterKeyword (k : Keyword) (hk : k ≠ .EXCLUDE ∧ k ≠ .BY) :
    Widens s s (afterKeyword k p) (afterKeyword k p') :=
  .takeKeyword _ (.bind h fun _ => .pure _) (.pure _) hk

end Arrangements

/-! ## Aliases -/

/-- Where `EXCLUDE` is read as an alias, the parenthesis behind it is left. -/
theorem widens_optionalAlias : Widens s s optionalAlias optionalAlias := by
  intro c a d h
  refine ⟨fun hc => ?_, .inl h⟩
  have has : takeKeyword .AS c = .ok false c := takeKeyword_of_ne (hc.not_keyword (by decide))
  have hname : nameAt 0 c = .ok (startsName (c.peek 0)) c := rfl
  cases s with
  | none => exact hc.elim
  | some dialect =>
    rw [optionalAlias, bind_apply, has] at h
    simp only [Bool.false_eq_true, if_false] at h
    rw [bind_apply, hname] at h
    rcases hc with h0 | ⟨h0, h1⟩ | ⟨hl, h0⟩
    · rw [h0] at h
      cases h
      exact .inl h0
    · obtain ⟨behind, ahead, ending, n⟩ := c
      cases ahead with
      | nil => cases h0
      | cons t ts =>
        have hk : t.kind = .keyword .EXCLUDE := h0
        rw [h0] at h
        have hread : identifier ⟨behind, t :: ts, ending, n⟩ =
            .ok { name := t.text } ⟨t :: behind, ts, ending, n⟩ := by
          rw [identifier, bind_apply, current_apply]
          simp only [Cursor.current, List.headD_cons, hk]
          rfl
        rw [show startsName (.keyword .EXCLUDE) = true from rfl] at h
        simp only [if_true] at h
        rw [bind_apply, hread] at h
        cases h
        exact .inl h1
    · rw [h0, show startsName (.keyword .BY) = false from rfl] at h
      cases h
      exact .inr (.inr ⟨hl, h0⟩)

end Parse
end SqlTree
