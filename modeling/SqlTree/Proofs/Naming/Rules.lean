import Mathlib
import SqlTree.Query.Grammar.From
import SqlTree.Proofs.Parsing.Spends
import SqlTree.Proofs.Tracking.Rules

/-! # What is read from genuine tokens

The names in an answer come from tokens, and what the tokens are says what the names are.

* `Cursor.Leads.genuine`: reading leaves tokens that are tokens by themselves.
* `Parse.GivesAt dq c p Q`: with genuine tokens ahead of `c`, an answer of `p` at `c` satisfies `Q`
  and leaves such tokens ahead.
* `Parse.Gives dq p Q`: the same wherever `p` begins.

The rules follow the definitions in `Parse`. Of a reader whose answer need not satisfy anything it
is enough that it leads on.
-/

namespace SqlTree
set_option autoImplicit false

variable {dq : Bool}

/-! ## Tokens -/

theorem Token.Genuine.becomes {t t' : Token} (h : t.Genuine dq) (ht : t.Becomes t') :
    t'.Genuine dq := by
  rcases ht with rfl | ⟨-, rfl⟩
  · exact h
  · exact Parse.secondHalf_genuine t

/-- Genuine tokens stay ahead wherever reading leads. -/
theorem Cursor.Leads.genuine {c d : Cursor} (h : c.Leads d) (hc : c.Genuine dq) : d.Genuine dq where
  ahead := forall_mem_of_becomes h.becomes fun t ht _ hu =>
    (hc.ahead t (List.mem_of_mem_drop ht)).becomes hu
  ending := h.ending ▸ hc.ending

namespace Parse

variable {α β : Type} {c : Cursor} {p : Parse α} {f : α → Parse β} {P : α → Prop} {R : β → Prop}

/-! ## Readers -/

/-- With genuine tokens ahead of a cursor, an answer there satisfies `Q`, and genuine tokens are
left ahead. -/
def GivesAt (dq : Bool) (c : Cursor) (p : Parse α) (Q : α → Prop) : Prop :=
  c.Genuine dq → ∀ a d, p c = .ok a d → d.Genuine dq ∧ Q a

/-- With genuine tokens ahead, an answer satisfies `Q`, and genuine tokens are left ahead. -/
def Gives (dq : Bool) (p : Parse α) (Q : α → Prop) : Prop :=
  ∀ c, GivesAt dq c p Q

theorem GivesAt.bind (hp : GivesAt dq c p P) (hf : ∀ a, P a → Gives dq (f a) R) :
    GivesAt dq c (p >>= f) R := by
  intro hc b d h
  rw [bind_apply] at h
  cases hpc : p c with
  | error e d' =>
    rw [hpc] at h
    cases h
  | ok a d' =>
    rw [hpc] at h
    obtain ⟨hd', ha⟩ := hp hc a d' hpc
    exact hf a ha d' hd' b d h

/-- A look at what is ahead, which tells what the cursor tells. -/
theorem GivesAt.look {g : Cursor → α} (hp : ∀ c, p c = .ok (g c) c)
    (hf : GivesAt dq c (f (g c)) R) : GivesAt dq c (p >>= f) R := by
  intro hc b d h
  rw [bind_apply, hp] at h
  exact hf hc b d h

theorem GivesAt.ite {condition : Prop} [Decidable condition] {q : Parse α}
    (hp : condition → GivesAt dq c p P) (hq : ¬condition → GivesAt dq c q P) :
    GivesAt dq c (if condition then p else q) P := by
  by_cases h : condition
  · rw [if_pos h]
    exact hp h
  · rw [if_neg h]
    exact hq h

theorem Gives.pure {a : α} (h : P a) : Gives dq (Pure.pure a) P := by
  rintro c hc _ _ ⟨⟩
  exact ⟨hc, h⟩

theorem Gives.stop (cause : Cause) : Gives dq (stop cause : Parse α) P := by
  rintro _ _ _ _ ⟨⟩

theorem Gives.fail (descriptions : List String) : Gives dq (fail descriptions : Parse α) P :=
  .stop _

theorem Gives.mono {P' : α → Prop} (h : Gives dq p P) (hp : ∀ a, P a → P' a) : Gives dq p P' := by
  intro c hc a d hr
  obtain ⟨hd, ha⟩ := h c hc a d hr
  exact ⟨hd, hp a ha⟩

theorem Gives.bind (hp : Gives dq p P) (hf : ∀ a, P a → Gives dq (f a) R) :
    Gives dq (p >>= f) R :=
  fun c => (hp c).bind hf

/-- A reader that leads on. -/
theorem Moves.gives (h : Moves p) : Gives dq p fun _ => True := by
  intro c hc a d hr
  have hl := h 0 c (.nil (Nat.zero_le _))
  rw [hr] at hl
  exact ⟨hl.1.genuine hc, trivial⟩

/-- A reader whose answer need not satisfy anything, with what comes behind it. -/
theorem Gives.next (hp : Moves p) (hf : ∀ a, Gives dq (f a) R) : Gives dq (p >>= f) R :=
  hp.gives.bind fun a _ => hf a

theorem Gives.map {g : α → β} (hp : Gives dq p P) (hg : ∀ a, P a → R (g a)) :
    Gives dq (g <$> p) R := by
  rw [← bind_pure_comp]
  exact hp.bind fun a ha => .pure (hg a ha)

theorem Gives.ite {condition : Prop} [Decidable condition] {q : Parse α} (hp : Gives dq p P)
    (hq : Gives dq q P) : Gives dq (if condition then p else q) P :=
  fun c => .ite (fun _ => hp c) fun _ => hq c

/-- Two ways that go on alike. -/
theorem Gives.join {condition : Prop} [Decidable condition] {q : Parse α} (hp : Gives dq p P)
    (hq : Gives dq q P) (hf : ∀ a, P a → Gives dq (f a) R) :
    Gives dq (if condition then p >>= f else q >>= f) R :=
  .ite (hp.bind hf) (hq.bind hf)

/-- What is known with the loose characters in the tokens is known without them. -/
theorem gives_of_spends (h : ∀ c, Spends dq c p fun a _ => P a) : Gives dq p P := by
  intro c hc a d hr
  obtain ⟨hd, -, ha⟩ := h c hc a d hr
  exact ⟨hd, ha⟩

/-! ## Repetition -/

theorem gives_repeatWithin {step : α → Parse (Option α)}
    (hstep : ∀ a, P a → Gives dq (step a) fun o => ∀ b ∈ o, P b) (allowance : List Token) :
    ∀ a, P a → Gives dq (repeatWithin step allowance a) P := by
  induction allowance with
  | nil =>
    refine fun a ha => (hstep a ha).bind fun o _ => ?_
    cases o with
    | none => exact .pure ha
    | some b => exact .stop _
  | cons t allowance ih =>
    refine fun a ha => (hstep a ha).bind fun o ho => ?_
    cases o with
    | none => exact .pure ha
    | some b => exact ih b (ho b rfl)

theorem Gives.repeatFrom {step : α → Parse (Option α)} {a : α} (ha : P a)
    (hstep : ∀ a, P a → Gives dq (step a) fun o => ∀ b ∈ o, P b) :
    Gives dq (repeatFrom step a) P :=
  fun c => gives_repeatWithin hstep c.ahead a ha c

theorem gives_collectWithin {step : Parse (Option α)}
    (hstep : Gives dq step fun o => ∀ a ∈ o, P a) (allowance : List Token) :
    Gives dq (collectWithin step allowance) fun as => ∀ a ∈ as, P a := by
  induction allowance with
  | nil =>
    refine hstep.bind fun o _ => ?_
    cases o with
    | none => exact .pure (by simp)
    | some a => exact .stop _
  | cons t allowance ih =>
    refine hstep.bind fun o ho => ?_
    cases o with
    | none => exact .pure (by simp)
    | some a => exact ih.bind fun as has => .pure (List.forall_mem_cons.2 ⟨ho a rfl, has⟩)

theorem Gives.collect {step : Parse (Option α)} (hstep : Gives dq step fun o => ∀ a ∈ o, P a) :
    Gives dq (collect step) fun as => ∀ a ∈ as, P a :=
  fun c => gives_collectWithin hstep c.ahead c

/-! ## Arrangements -/

/-- An answer that is there. -/
theorem Gives.some (h : Gives dq p P) :
    Gives dq (p >>= fun a => Pure.pure (some a)) fun o => ∀ a ∈ o, P a :=
  h.bind fun _ ha => .pure (by simpa using ha)

theorem Gives.none : Gives dq (Pure.pure none : Parse (Option α)) fun o => ∀ a ∈ o, P a :=
  .pure (by simp)

theorem Gives.afterComma (h : Gives dq p P) : Gives dq (afterComma p) fun o => ∀ a ∈ o, P a :=
  .next (moves_takeSymbol _) fun _ => .ite h.some .none

theorem Gives.commaList (h : Gives dq p P) : Gives dq (commaList p) fun as => ∀ a ∈ as, P a :=
  h.bind fun _ ha => h.afterComma.collect.bind fun _ has =>
    .pure (List.forall_mem_cons.2 ⟨ha, has⟩)

theorem Gives.inParens (h : Gives dq p P) : Gives dq (inParens p) P :=
  .next (moves_expectSymbol _) fun _ => h.bind fun _ ha =>
    .next (moves_expectSymbol _) fun _ => .pure ha

theorem Gives.afterKeyword (h : Gives dq p P) (k : Keyword) :
    Gives dq (afterKeyword k p) fun o => ∀ a ∈ o, P a :=
  .next (moves_takeKeyword k) fun _ => .ite h.some .none

theorem Gives.ifKeyword (h : Gives dq p P) (k : Keyword) :
    Gives dq (ifKeyword k p) fun o => ∀ a ∈ o, P a :=
  .next (moves_keywordAt 0 k) fun _ => .ite h.some .none

/-- A reader that may stop leaves genuine tokens ahead, as far as it leads on. -/
theorem Gives.attempt (h : Gives dq p P) (hm : Moves p) :
    Gives dq (attempt p) fun o => ∀ a ∈ o, P a := by
  intro c hc o d hr
  have hd := (hm.attempt.gives c hc o d hr).1
  refine ⟨hd, ?_⟩
  rintro a rfl
  rw [attempt_apply] at hr
  cases hp : p c with
  | error e d' => simp [hp] at hr
  | ok b d' =>
    rw [hp] at hr
    cases hr
    exact (h c hc _ _ hp).2

end Parse

end SqlTree
