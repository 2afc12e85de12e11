import Mathlib
import SqlTree.Proofs.Reading.Place

/-! # Readers at places that look alike

Readers see no more of a token than its kind and its text. Where two cursors have tokens of the same
kinds and texts ahead, they answer the same.

* `Cursor.Alike c c'`: the same stands ahead of both cursors.
* `Parse.Matches Q r r'`: if the first result is an answer, so is the second, and `Q` holds of it.
* `Parse.Agrees p p' Q`: where `p` has an answer, `p'` has the same one, and `Q` holds of it.

The rules follow the definitions in `Parse`. A repetition keeps an invariant from round to round.
-/

namespace SqlTree
set_option autoImplicit false

/-- Tokens that readers cannot tell apart. -/
def Token.Alike (t t' : Token) : Prop :=
  t.kind = t'.kind ∧ t.text = t'.text

/-- The same stands ahead of two cursors. -/
structure Cursor.Alike (c c' : Cursor) : Prop where
  ahead : List.Forall₂ Token.Alike c.ahead c'.ahead
  ending : c.ending.Alike c'.ending
  placeholders : c.placeholders = c'.placeholders

namespace Cursor

variable {c c' : Cursor}

theorem Alike.refl (c : Cursor) : c.Alike c :=
  ⟨List.forall₂_same.2 fun _ _ => ⟨rfl, rfl⟩, ⟨rfl, rfl⟩, rfl⟩

theorem Alike.length_eq (h : c.Alike c') : c.ahead.length = c'.ahead.length :=
  h.ahead.length_eq

theorem Alike.current (h : c.Alike c') : c.current.Alike c'.current := by
  have ha := h.ahead
  unfold Cursor.current
  generalize c.ahead = ts at ha
  generalize c'.ahead = ts' at ha
  cases ha with
  | nil => exact h.ending
  | cons ht _ => exact ht

theorem Alike.peek (h : c.Alike c') (n : Nat) : c.peek n = c'.peek n := by
  have ha := h.ahead
  unfold Cursor.peek
  generalize c.ahead = ts at ha
  generalize c'.ahead = ts' at ha
  induction ha generalizing n with
  | nil => rfl
  | cons ht _ ih =>
    cases n with
    | zero => exact ht.1
    | succ n => exact ih n

theorem Alike.advance (h : c.Alike c') : c.advance.Alike c'.advance := by
  obtain ⟨behind, ts, ending, n⟩ := c
  obtain ⟨behind', ts', ending', n'⟩ := c'
  obtain ⟨ha, he, hn⟩ := h
  cases ha with
  | nil => exact ⟨.nil, he, hn⟩
  | cons _ ha => exact ⟨ha, he, hn⟩

/-- The second half of a token of two characters looks the same wherever it comes from. -/
theorem Alike.closeAngle (h : c.Alike c') {d : Cursor} (hd : c.closeAngle = some d) :
    ∃ d', c'.closeAngle = some d' ∧ d.Alike d' := by
  obtain ⟨hk, -⟩ := h.current
  unfold Cursor.closeAngle at hd ⊢
  rw [← hk]
  split at hd
  · obtain rfl := Option.some.inj hd
    exact ⟨_, rfl, h.advance⟩
  · obtain ⟨behind, ts, ending, n⟩ := c
    obtain ⟨behind', ts', ending', n'⟩ := c'
    obtain ⟨ha, he, hn⟩ := h
    cases ha with
    | nil =>
      obtain rfl := Option.some.inj hd
      exact ⟨_, rfl, .nil, he, hn⟩
    | cons _ ha =>
      obtain rfl := Option.some.inj hd
      exact ⟨_, rfl, .cons ⟨rfl, rfl⟩ ha, he, hn⟩
  · cases hd

end Cursor

namespace Parse

variable {α β : Type} {Q : α → Cursor → Prop}

/-! ## Results -/

/-- If the first result is an answer, the second one is the same answer at a place that looks alike,
and the answer satisfies `Q` there. -/
def Matches (Q : α → Cursor → Prop) (r r' : EStateM.Result Fault Cursor α) : Prop :=
  ∀ a d, r = .ok a d → Q a d ∧ ∃ d', r' = .ok a d' ∧ d.Alike d'

theorem Matches.ok {a : α} {c c' : Cursor} (h : c.Alike c') (hq : Q a c) :
    Matches Q (.ok a c) (.ok a c') := by
  rintro _ _ ⟨⟩
  exact ⟨hq, c', rfl, h⟩

theorem Matches.error (e : Fault) (c : Cursor) (r : EStateM.Result Fault Cursor α) :
    Matches Q (.error e c) r := by
  rintro _ _ ⟨⟩

theorem Matches.mono {P : α → Cursor → Prop} {r r' : EStateM.Result Fault Cursor α}
    (h : Matches P r r') (hpq : ∀ a d, P a d → Q a d) : Matches Q r r' := by
  intro a d hr
  obtain ⟨hp, h'⟩ := h a d hr
  exact ⟨hpq a d hp, h'⟩

theorem Matches.bind {P : β → Cursor → Prop} {p p' : Parse β} {f f' : β → Parse α} {c c' : Cursor}
    (hp : Matches P (p c) (p' c'))
    (hf : ∀ b d d', P b d → d.Alike d' → Matches Q (f b d) (f' b d')) :
    Matches Q ((p >>= f) c) ((p' >>= f') c') := by
  rw [bind_apply, bind_apply]
  cases hr : p c with
  | error e d => exact .error e d _
  | ok b d =>
    obtain ⟨hb, d', hr', hd⟩ := hp b d hr
    rw [hr']
    exact hf b d d' hb hd

/-! ## Readers -/

/-- Where the first reader has an answer, the second one has the same one at every place that looks
alike, and `Q` holds of it. -/
def Agrees (p p' : Parse α) (Q : α → Prop) : Prop :=
  ∀ c c', c.Alike c' → Matches (fun a _ => Q a) (p c) (p' c')

section Rules

variable {p p' : Parse α} {q q' : Parse β} {f f' : α → Parse β} {P : α → Prop} {R : β → Prop}

theorem Agrees.pure {a : α} (h : P a) : Agrees (Pure.pure a) (Pure.pure a) P :=
  fun _ _ hc => .ok hc h

theorem Agrees.stop (cause : Cause) (p' : Parse α) : Agrees (stop cause) p' P :=
  fun c _ _ => .error ⟨cause, c.current⟩ c _

theorem Agrees.fail (descriptions : List String) (p' : Parse α) : Agrees (fail descriptions) p' P :=
  .stop _ p'

theorem Agrees.mono {P' : α → Prop} (h : Agrees p p' P) (hp : ∀ a, P a → P' a) : Agrees p p' P' :=
  fun c c' hc => (h c c' hc).mono fun a _ => hp a

theorem Agrees.bind (hp : Agrees p p' P) (hf : ∀ a, P a → Agrees (f a) (f' a) R) :
    Agrees (p >>= f) (p' >>= f') R :=
  fun c c' hc => (hp c c' hc).bind fun a d d' ha hd => hf a ha d d' hd

/-- A reader whose answer need not satisfy anything. -/
theorem Agrees.next (hp : Agrees p p' fun _ => True) (hf : ∀ a, Agrees (f a) (f' a) R) :
    Agrees (p >>= f) (p' >>= f') R :=
  hp.bind fun a _ => hf a

theorem Agrees.map {g : α → β} (hp : Agrees p p' P) (hg : ∀ a, P a → R (g a)) :
    Agrees (g <$> p) (g <$> p') R := by
  rw [← bind_pure_comp, ← bind_pure_comp]
  exact hp.bind fun a ha => .pure (hg a ha)

theorem Agrees.ite {condition : Prop} [Decidable condition] {p₁ p₁' : Parse α} (hp : Agrees p p' P)
    (hp₁ : Agrees p₁ p₁' P) :
    Agrees (if condition then p else p₁) (if condition then p' else p₁') P := by
  by_cases h : condition
  · rw [if_pos h, if_pos h]
    exact hp
  · rw [if_neg h, if_neg h]
    exact hp₁

/-- Two ways that go on alike. -/
theorem Agrees.join {p₁ p₁' : Parse α} (b : Bool) (hp : Agrees p p' P) (hp₁ : Agrees p₁ p₁' P)
    (hf : ∀ a, P a → Agrees (f a) (f' a) R) :
    Agrees (if b then p >>= f else p₁ >>= f) (if b then p' >>= f' else p₁' >>= f') R :=
  .ite (hp.bind hf) (hp₁.bind hf)

/-- The token under the cursor is known but for the place it comes from. -/
theorem Agrees.token {f f' : Token → Parse β}
    (h : ∀ kind span span' text, Agrees (f ⟨kind, span, text⟩) (f' ⟨kind, span', text⟩) R) :
    Agrees (current >>= f) (current >>= f') R := by
  intro c c' hc
  obtain ⟨hk, ht⟩ := hc.current
  have hf := h c.current.kind c.current.span c'.current.span c.current.text c c' hc
  have he : c'.current = ⟨c.current.kind, c'.current.span, c.current.text⟩ := by rw [hk, ht]
  rw [← he] at hf
  exact hf

end Rules

/-! ## Single tokens -/

theorem agrees_peek (n : Nat) : Agrees (peek n) (peek n) fun _ => True := by
  intro c c' hc
  show Matches _ (.ok (c.peek n) c) (.ok (c'.peek n) c')
  rw [hc.peek n]
  exact .ok hc trivial

theorem agrees_advance : Agrees advance advance fun _ => True :=
  fun _ _ hc => .ok hc.advance trivial

theorem agrees_symbolAt (n : Nat) (s : Symbol) : Agrees (symbolAt n s) (symbolAt n s) fun _ => True :=
  (agrees_peek n).next fun _ => .pure trivial

theorem agrees_keywordAt (n : Nat) (k : Keyword) :
    Agrees (keywordAt n k) (keywordAt n k) fun _ => True :=
  (agrees_peek n).next fun _ => .pure trivial

theorem agrees_anyKeywordAt (n : Nat) (ks : List Keyword) :
    Agrees (anyKeywordAt n ks) (anyKeywordAt n ks) fun _ => True :=
  (agrees_peek n).next fun _ => .pure trivial

theorem agrees_queryAt (n : Nat) : Agrees (queryAt n) (queryAt n) fun _ => True :=
  agrees_anyKeywordAt n _

theorem agrees_takeSymbol (s : Symbol) : Agrees (takeSymbol s) (takeSymbol s) fun _ => True :=
  (agrees_symbolAt 0 s).next fun _ =>
    .ite (agrees_advance.next fun _ => .pure trivial) (.pure trivial)

theorem agrees_takeKeyword (k : Keyword) : Agrees (takeKeyword k) (takeKeyword k) fun _ => True :=
  (agrees_keywordAt 0 k).next fun _ =>
    .ite (agrees_advance.next fun _ => .pure trivial) (.pure trivial)

theorem agrees_expectSymbol (s : Symbol) : Agrees (expectSymbol s) (expectSymbol s) fun _ => True :=
  (agrees_takeSymbol s).next fun _ => .ite (.pure trivial) (.fail _ _)

theorem agrees_expectKeyword (k : Keyword) :
    Agrees (expectKeyword k) (expectKeyword k) fun _ => True :=
  (agrees_takeKeyword k).next fun _ => .ite (.pure trivial) (.fail _ _)

theorem agrees_nextPlaceholder : Agrees nextPlaceholder nextPlaceholder fun _ => True := by
  intro c c' hc
  show Matches _ (.ok (c.placeholders + 1) _) (.ok (c'.placeholders + 1) _)
  rw [hc.placeholders]
  exact .ok ⟨hc.ahead, hc.ending, congrArg (· + 1) hc.placeholders⟩ trivial

theorem agrees_closingAngle : Agrees closingAngle closingAngle fun _ => True := by
  intro c c' hc
  rw [closingAngle_apply, closingAngle_apply]
  cases hd : c.closeAngle with
  | none => exact .error _ c _
  | some d =>
    obtain ⟨d', hd', halike⟩ := hc.closeAngle hd
    rw [hd']
    exact .ok halike trivial

/-! ## Repetition -/

section Repetition

variable {step step' : α → Parse (Option α)} {item item' : Parse β} {P : β → Prop}

/-- A repetition with an invariant. Two repetitions have as many rounds if the second one is allowed
at least as many as the first. -/
theorem matches_repeatWithin {I : α → Cursor → Prop}
    (hstep : ∀ a c c', I a c → c.Alike c' →
      Matches (fun o d => o.elim (Q a d) fun b => I b d) (step a c) (step' a c')) :
    ∀ l l' : List Token, l.length ≤ l'.length → ∀ a c c', I a c → c.Alike c' →
      Matches Q (repeatWithin step l a c) (repeatWithin step' l' a c') := by
  intro l
  induction l with
  | nil =>
    intro l' _ a c c' ha hc
    -- The first repetition goes into no second round, whatever the second one is allowed.
    have hlast : ∀ f f' : Option α → Parse α, f none = Pure.pure a → f' none = Pure.pure a →
        (∀ b, f (some b) = stop .tooDeep) → Matches Q ((step a >>= f) c) ((step' a >>= f') c') := by
      intro f f' hf hf' hstop
      refine (hstep a c c' ha hc).bind fun o d d' ho hd => ?_
      cases o with
      | none =>
        rw [hf, hf']
        exact .ok hd ho
      | some b =>
        rw [hstop]
        exact .error _ _ _
    cases l' with
    | nil => exact hlast _ _ rfl rfl fun _ => rfl
    | cons t' l' => exact hlast _ _ rfl rfl fun _ => rfl
  | cons t l ih =>
    intro l' hl a c c' ha hc
    cases l' with
    | nil => simp at hl
    | cons t' l' =>
      refine (hstep a c c' ha hc).bind fun o d d' ho hd => ?_
      cases o with
      | none => exact .ok hd ho
      | some b => exact ih l' (by simpa using hl) b d d' ho hd

theorem matches_repeatFrom {I : α → Cursor → Prop}
    (hstep : ∀ a c c', I a c → c.Alike c' →
      Matches (fun o d => o.elim (Q a d) fun b => I b d) (step a c) (step' a c'))
    {a : α} {c c' : Cursor} (ha : I a c) (hc : c.Alike c') :
    Matches Q (repeatFrom step a c) (repeatFrom step' a c') :=
  matches_repeatWithin hstep _ _ hc.length_eq.le a c c' ha hc

theorem Agrees.repeatFrom {P : α → Prop} {a : α} (ha : P a)
    (hstep : ∀ a, P a → Agrees (step a) (step' a) fun o => ∀ b ∈ o, P b) :
    Agrees (repeatFrom step a) (repeatFrom step' a) P := by
  intro c c' hc
  refine matches_repeatFrom (I := fun a _ => P a) (fun a d d' ha hd => ?_) ha hc
  refine (hstep a ha d d' hd).mono fun o _ ho => ?_
  cases o with
  | none => exact ha
  | some b => exact ho b rfl

theorem agrees_collectWithin {step step' : Parse (Option β)}
    (hstep : Agrees step step' fun o => ∀ b ∈ o, P b) :
    ∀ l l' : List Token, l.length = l'.length →
      Agrees (collectWithin step l) (collectWithin step' l') fun bs => ∀ b ∈ bs, P b := by
  intro l
  induction l with
  | nil =>
    intro l' hl
    obtain rfl : l' = [] := List.eq_nil_of_length_eq_zero hl.symm
    refine hstep.bind fun o _ => ?_
    cases o with
    | none => exact .pure (by simp)
    | some b => exact .stop _ _
  | cons t l ih =>
    intro l' hl
    cases l' with
    | nil => simp at hl
    | cons t' l' =>
      refine hstep.bind fun o ho => ?_
      cases o with
      | none => exact .pure (by simp)
      | some b =>
        refine (ih l' (by simpa using hl)).bind fun bs hbs => .pure ?_
        rw [List.forall_mem_cons]
        exact ⟨ho b rfl, hbs⟩

theorem Agrees.collect {step step' : Parse (Option β)}
    (hstep : Agrees step step' fun o => ∀ b ∈ o, P b) :
    Agrees (collect step) (collect step') fun bs => ∀ b ∈ bs, P b :=
  fun c c' hc => agrees_collectWithin hstep _ _ hc.length_eq c c' hc

end Repetition

/-! ## Arrangements -/

section Arrangements

variable {item item' : Parse α} {P : α → Prop}

theorem Agrees.afterComma (h : Agrees item item' P) :
    Agrees (afterComma item) (afterComma item') fun o => ∀ a ∈ o, P a :=
  (agrees_takeSymbol _).next fun _ =>
    .ite (h.bind fun a ha => .pure (by simpa using ha)) (.pure (by simp))

theorem Agrees.commaList (h : Agrees item item' P) :
    Agrees (commaList item) (commaList item') fun as => as ≠ [] ∧ ∀ a ∈ as, P a := by
  refine h.bind fun a ha => h.afterComma.collect.bind fun as has => .pure ⟨by simp, ?_⟩
  rw [List.forall_mem_cons]
  exact ⟨ha, has⟩

theorem Agrees.inParens (h : Agrees item item' P) : Agrees (inParens item) (inParens item') P :=
  (agrees_expectSymbol _).next fun _ => h.bind fun _ ha =>
    (agrees_expectSymbol _).next fun _ => .pure ha

theorem Agrees.afterKeyword (h : Agrees item item' P) (k : Keyword) :
    Agrees (afterKeyword k item) (afterKeyword k item') fun o => ∀ a ∈ o, P a :=
  (agrees_takeKeyword k).next fun _ =>
    .ite (h.bind fun a ha => .pure (by simpa using ha)) (.pure (by simp))

end Arrangements

end Parse

end SqlTree
