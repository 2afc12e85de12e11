import Mathlib
import SqlTree.Proofs.Reading.Place
import SqlTree.Proofs.Tree.Numbers

/-! # Where readers lead

A reader leaves the tokens as they are, but for two closing angles of which it takes the first. It
never goes back behind where it began, and it numbers question marks upwards.

* `Token.Becomes t t'`: `t'` is `t`, or what is left of `t`.
* `Cursor.Leads c d`: reading from `c` may stop at `d`.
* `Fresh low high ns`: numbers above `low` up to `high`, each of them once.
* `TracksWith held parts p`: with the parts `held` read before, `p` leads on, and the numbers in the
  parts of its answer are fresh. `Tracks` begins with nothing held, and `Moves` says nothing of the
  answer.

The rules follow the definitions in `Parse`. What a reader leads to is the same behind an error.
-/

namespace SqlTree
set_option autoImplicit false

open Parse

/-! ## Places -/

/-- A token stays as it is, or it is two closing angles and the second one is left. -/
def Token.Becomes (t t' : Token) : Prop :=
  t' = t ∨ t.kind = .symbol .shiftRight ∧ t' = t.secondHalf

theorem Token.Becomes.trans {t t' t'' : Token} (h : t.Becomes t') (h' : t'.Becomes t'') :
    t.Becomes t'' := by
  rcases h with rfl | ⟨hk, rfl⟩
  · exact h'
  · rcases h' with rfl | ⟨hk', -⟩
    · exact .inr ⟨hk, rfl⟩
    · cases hk'

namespace Cursor

/-- Reading may go from one cursor to the other. -/
structure Leads (c d : Cursor) : Prop where
  tokens : List.Forall₂ Token.Becomes (c.behind.reverse ++ c.ahead) (d.behind.reverse ++ d.ahead)
  ending : d.ending = c.ending
  length_le : d.ahead.length ≤ c.ahead.length
  placeholders_le : c.placeholders ≤ d.placeholders

theorem Leads.refl (c : Cursor) : c.Leads c :=
  ⟨List.forall₂_same.2 fun _ _ => .inl rfl, rfl, Nat.le_refl _, Nat.le_refl _⟩

theorem forall₂_becomes_trans {ts us vs : List Token} (h : List.Forall₂ Token.Becomes ts us)
    (h' : List.Forall₂ Token.Becomes us vs) : List.Forall₂ Token.Becomes ts vs := by
  induction h generalizing vs with
  | nil => exact h'
  | cons ht _ ih =>
    cases h' with
    | cons ht' h' => exact .cons (ht.trans ht') (ih h')

theorem Leads.trans {c d e : Cursor} (h : c.Leads d) (h' : d.Leads e) : c.Leads e :=
  ⟨forall₂_becomes_trans h.tokens h'.tokens, h'.ending.trans h.ending,
    h'.length_le.trans h.length_le, h.placeholders_le.trans h'.placeholders_le⟩

theorem leads_advance (c : Cursor) : c.Leads c.advance := by
  obtain ⟨behind, ahead, ending, n⟩ := c
  cases ahead with
  | nil => exact .refl _
  | cons t ts =>
    refine ⟨?_, rfl, Nat.le_succ _, Nat.le_refl _⟩
    rw [advance, List.reverse_cons, List.append_assoc]
    exact List.forall₂_same.2 fun _ _ => .inl rfl

/-- Going up to the next semicolon. -/
theorem leads_skipStatement (c : Cursor) : c.Leads c.skipStatement.2 := by
  refine ⟨?_, rfl, (List.dropWhile_suffix _).length_le, Nat.le_refl _⟩
  rw [skipStatement, List.reverse_append, List.reverse_reverse, List.append_assoc,
    List.takeWhile_append_dropWhile]
  exact List.forall₂_same.2 fun _ _ => .inl rfl

/-- Taking the first of two closing angles. -/
theorem leads_secondHalf {c : Cursor} {t : Token} {ts : List Token} (ha : c.ahead = t :: ts)
    (hk : t.kind = .symbol .shiftRight) : c.Leads { c with ahead := t.secondHalf :: ts } := by
  refine ⟨?_, rfl, by rw [ha]; exact Nat.le_refl _, Nat.le_refl _⟩
  rw [ha]
  exact List.rel_append (List.forall₂_same.2 fun _ _ => .inl rfl)
    (.cons (.inr ⟨hk, rfl⟩) (List.forall₂_same.2 fun _ _ => .inl rfl))

/-- What is ahead where reading leads is left of the last tokens that were ahead. -/
theorem Leads.becomes {c d : Cursor} (h : c.Leads d) :
    List.Forall₂ Token.Becomes (c.ahead.drop (c.ahead.length - d.ahead.length)) d.ahead := by
  have hlength := h.tokens.length_eq
  have hle := h.length_le
  simp only [List.length_append, List.length_reverse] at hlength
  have hc : (c.behind.reverse ++ c.ahead).drop d.behind.length =
      c.ahead.drop (c.ahead.length - d.ahead.length) := by
    rw [List.drop_append, List.drop_eq_nil_of_le (by rw [List.length_reverse]; omega),
      List.nil_append, List.length_reverse]
    congr 1
    omega
  have hd : (d.behind.reverse ++ d.ahead).drop d.behind.length = d.ahead := by
    rw [← List.length_reverse, List.drop_left]
  have hdrop := List.forall₂_drop d.behind.length h.tokens
  rwa [hc, hd] at hdrop

/-- What holds of all that a token may become holds of all tokens that are left. -/
theorem forall_mem_of_becomes {q : Token → Prop} {ts us : List Token}
    (h : List.Forall₂ Token.Becomes ts us) (hq : ∀ t ∈ ts, ∀ u, t.Becomes u → q u) :
    ∀ u ∈ us, q u := by
  induction h with
  | nil => simp
  | cons ht _ ih =>
    rw [List.forall_mem_cons] at hq ⊢
    exact ⟨hq.1 _ ht, ih hq.2⟩

end Cursor

/-! ## Numbers -/

/-- Numbers above `low` up to `high`, each of them once. -/
structure Fresh (low high : Nat) (ns : List Nat) : Prop where
  le : low ≤ high
  nodup : ns.Nodup
  bounds : ∀ n ∈ ns, low < n ∧ n ≤ high

namespace Fresh

variable {low mid high : Nat} {ns ms : List Nat}

theorem nil (h : low ≤ high) : Fresh low high [] :=
  ⟨h, .nil, by simp⟩

theorem one (h : low ≤ high) : Fresh low (high + 1) [high + 1] :=
  ⟨by omega, List.nodup_singleton _, fun n hn => by
    obtain rfl := List.mem_singleton.1 hn
    omega⟩

theorem mono (h : Fresh low mid ns) (hm : mid ≤ high) : Fresh low high ns :=
  ⟨h.le.trans hm, h.nodup, fun n hn => ⟨(h.bounds n hn).1, (h.bounds n hn).2.trans hm⟩⟩

theorem append (h : Fresh low mid ns) (h' : Fresh mid high ms) : Fresh low high (ns ++ ms) := by
  refine ⟨h.le.trans h'.le, List.nodup_append.2 ⟨h.nodup, h'.nodup, ?_⟩, fun n hn => ?_⟩
  · rintro n hn m hm rfl
    have := (h.bounds n hn).2
    have := (h'.bounds n hm).1
    omega
  · rcases List.mem_append.1 hn with hn | hn
    · exact ⟨(h.bounds n hn).1, (h.bounds n hn).2.trans h'.le⟩
    · exact ⟨Nat.lt_of_le_of_lt h.le (h'.bounds n hn).1, (h'.bounds n hn).2⟩

theorem subperm (h : Fresh low high ns) (hm : ms.Subperm ns) : Fresh low high ms := by
  obtain ⟨l, hl, hs⟩ := hm
  exact ⟨h.le, hl.nodup_iff.1 (h.nodup.sublist hs),
    fun n hn => h.bounds n (hs.subset (hl.mem_iff.2 hn))⟩

end Fresh

namespace Parse

variable {α β : Type} {held : List Part} {parts : α → List Part} {parts' : β → List Part}
  {p : Parse α} {f : α → Parse β}

/-! ## Readers -/

/-- A result that reading may lead to: an answer has fresh numbers, and the token that a fault tells
is the one where reading stopped. -/
def Tracked (low : Nat) (parts : α → List Part) (c : Cursor) :
    EStateM.Result Fault Cursor α → Prop
  | .ok a d => c.Leads d ∧ Fresh low d.placeholders (numbersOf (parts a))
  | .error fault d => c.Leads d ∧ fault.found = d.current

/-- With some parts held, a reader leads on, and the parts of its answer have fresh numbers. -/
def TracksWith (held : List Part) (parts : α → List Part) (p : Parse α) : Prop :=
  ∀ low c, Fresh low c.placeholders (numbersOf held) → Tracked low parts c (p c)

/-- A reader leads on, and the parts of its answer have fresh numbers. -/
abbrev Tracks (parts : α → List Part) (p : Parse α) : Prop :=
  TracksWith [] parts p

/-- A reader leads on. -/
abbrev Moves (p : Parse α) : Prop :=
  Tracks (fun _ => []) p

theorem Tracked.behind {low : Nat} {c d : Cursor} {r : EStateM.Result Fault Cursor α}
    (h : Tracked low parts d r) (hd : c.Leads d) : Tracked low parts c r := by
  cases r with
  | ok a e => exact ⟨hd.trans h.1, h.2⟩
  | error fault e => exact ⟨hd.trans h.1, h.2⟩

theorem TracksWith.pure {a : α} (h : (numbersOf (parts a)).Subperm (numbersOf held)) :
    TracksWith held parts (Pure.pure a) :=
  fun _ c hheld => ⟨.refl c, hheld.subperm h⟩

/-- The answer is made of just the parts that are held. -/
theorem TracksWith.same {a : α} (h : parts a = held) : TracksWith held parts (Pure.pure a) :=
  .pure (by rw [h])

/-- The answer is a part with just the parts below it that are held. -/
theorem TracksWith.node {a : α} {q : Part} (hq : parts a = [q]) (hn : q.number? = none)
    (hc : q.children = held) : TracksWith held parts (Pure.pure a) :=
  .pure (by rw [hq, numbersOf_node hn, hc])

theorem TracksWith.stop (cause : Cause) : TracksWith held parts (stop cause : Parse α) :=
  fun _ c _ => ⟨.refl c, rfl⟩

theorem TracksWith.fail (descriptions : List String) :
    TracksWith held parts (fail descriptions : Parse α) :=
  .stop _

theorem TracksWith.mono {qs : α → List Part} (h : TracksWith held parts p)
    (hq : ∀ a, (numbersOf (qs a)).Subperm (numbersOf (parts a))) : TracksWith held qs p := by
  intro low c hheld
  have hp := h low c hheld
  cases hr : p c with
  | ok a d =>
    rw [hr] at hp
    exact ⟨hp.1, hp.2.subperm (hq a)⟩
  | error e d =>
    rw [hr] at hp
    exact hp

theorem TracksWith.congr {qs : α → List Part} (h : TracksWith held parts p)
    (hq : ∀ a, qs a = parts a) : TracksWith held qs p :=
  h.mono fun a => by rw [hq a]

theorem TracksWith.bind (hp : Tracks parts p)
    (hf : ∀ a, TracksWith (held ++ parts a) parts' (f a)) : TracksWith held parts' (p >>= f) := by
  intro low c hheld
  have hr := hp c.placeholders c (.nil (Nat.le_refl _))
  rw [bind_apply]
  cases hpc : p c with
  | error e d =>
    rw [hpc] at hr
    exact hr
  | ok a d =>
    rw [hpc] at hr
    have hboth : Fresh low d.placeholders (numbersOf (held ++ parts a)) := by
      rw [numbersOf_append]
      exact hheld.append hr.2
    exact (hf a low d hboth).behind hr.1

/-- A reader whose answer has no parts, with what comes behind it. -/
theorem TracksWith.next (hp : Moves p) (hf : ∀ a, TracksWith held parts' (f a)) :
    TracksWith held parts' (p >>= f) :=
  .bind hp fun a => by
    rw [List.append_nil]
    exact hf a

theorem TracksWith.map {g : α → β} (hp : Tracks parts p)
    (hg : ∀ a, TracksWith (held ++ parts a) parts' (Pure.pure (g a) : Parse β)) :
    TracksWith held parts' (g <$> p) := by
  rw [← bind_pure_comp]
  exact .bind hp hg

theorem TracksWith.ite {condition : Prop} [Decidable condition] {q : Parse α}
    (hp : TracksWith held parts p) (hq : TracksWith held parts q) :
    TracksWith held parts (if condition then p else q) := by
  split
  · exact hp
  · exact hq

/-- Two ways that go on alike. -/
theorem TracksWith.join {condition : Prop} [Decidable condition] {q : Parse α}
    (hp : Tracks parts p) (hq : Tracks parts q)
    (hf : ∀ a, TracksWith (held ++ parts a) parts' (f a)) :
    TracksWith held parts' (if condition then p >>= f else q >>= f) :=
  .ite (.bind hp hf) (.bind hq hf)

/-- A reader that looks where it stands and stays there. -/
theorem moves_look {g : Cursor → α} (hp : ∀ c, p c = .ok (g c) c) : Moves p := by
  intro low c hheld
  rw [hp]
  exact ⟨.refl c, hheld⟩

/-! ## Single tokens -/

theorem moves_current : Moves current := moves_look fun _ => rfl

theorem moves_peek (n : Nat) : Moves (peek n) := moves_look fun _ => rfl

theorem moves_symbolAt (n : Nat) (s : Symbol) : Moves (symbolAt n s) := moves_look fun _ => rfl

theorem moves_keywordAt (n : Nat) (k : Keyword) : Moves (keywordAt n k) := moves_look fun _ => rfl

theorem moves_anyKeywordAt (n : Nat) (ks : List Keyword) : Moves (anyKeywordAt n ks) :=
  moves_look fun _ => rfl

theorem moves_queryAt (n : Nat) : Moves (queryAt n) := moves_anyKeywordAt n _

theorem moves_statementEndAt (n : Nat) : Moves (statementEndAt n) := moves_look fun _ => rfl

theorem moves_advance : Moves advance := by
  intro low c hheld
  exact ⟨c.leads_advance, hheld.mono c.leads_advance.placeholders_le⟩

theorem moves_takeSymbol (s : Symbol) : Moves (takeSymbol s) :=
  .next (moves_symbolAt 0 s) fun _ => .ite (.next moves_advance fun _ => .same rfl) (.same rfl)

theorem moves_takeKeyword (k : Keyword) : Moves (takeKeyword k) :=
  .next (moves_keywordAt 0 k) fun _ => .ite (.next moves_advance fun _ => .same rfl) (.same rfl)

theorem moves_expectSymbol (s : Symbol) : Moves (expectSymbol s) :=
  .next (moves_takeSymbol s) fun _ => .ite (.same rfl) (.fail _)

theorem moves_expectKeyword (k : Keyword) : Moves (expectKeyword k) :=
  .next (moves_takeKeyword k) fun _ => .ite (.same rfl) (.fail _)

theorem moves_closingAngle : Moves closingAngle := by
  intro low c hheld
  rcases closingAngle_cases c with ⟨-, h⟩ | ⟨-, -, h⟩ | ⟨t, ts, ha, hk, h⟩ | h
  · rw [h]
    exact moves_advance low c hheld
  · rw [h]
    exact ⟨.refl _, hheld⟩
  · rw [h]
    exact ⟨Cursor.leads_secondHalf ha hk, hheld⟩
  · rw [h]
    exact TracksWith.fail _ low c hheld

theorem tracks_nextPlaceholder :
    Tracks (fun n => [.expr (.placeholder (.positional n))]) nextPlaceholder := by
  intro low c hheld
  refine ⟨⟨List.forall₂_same.2 fun _ _ => .inl rfl, rfl, Nat.le_refl _, Nat.le_succ _⟩, ?_⟩
  rw [numbersOf_singleton]
  exact .one hheld.le

/-! ## Repetition -/

/-- The parts of an answer that may be missing. -/
def optionalParts (parts : α → List Part) (o : Option α) : List Part :=
  o.elim [] parts

/-- An answer that is there, with the same parts. -/
theorem TracksWith.some (h : TracksWith held parts p) :
    TracksWith held (optionalParts parts) (p >>= fun a => Pure.pure (some a)) := by
  intro low c hheld
  have hr := h low c hheld
  rw [bind_apply]
  cases hp : p c with
  | ok a e =>
    rw [hp] at hr
    exact hr
  | error f e =>
    rw [hp] at hr
    exact hr

section Repetition

variable {step : α → Parse (Option α)}

theorem tracks_repeatWithin (hstep : ∀ a, TracksWith (parts a) (optionalParts parts) (step a))
    (allowance : List Token) (a : α) : TracksWith (parts a) parts (repeatWithin step allowance a) := by
  induction allowance generalizing a with
  | nil =>
    intro low c hheld
    have hr := hstep a low c hheld
    rw [repeatWithin, bind_apply]
    cases hs : step a c with
    | error e d =>
      rw [hs] at hr
      exact hr
    | ok o d =>
      rw [hs] at hr
      cases o with
      | none => exact ⟨hr.1, hheld.mono hr.1.placeholders_le⟩
      | some b => exact ⟨hr.1, rfl⟩
  | cons t allowance ih =>
    intro low c hheld
    have hr := hstep a low c hheld
    rw [repeatWithin, bind_apply]
    cases hs : step a c with
    | error e d =>
      rw [hs] at hr
      exact hr
    | ok o d =>
      rw [hs] at hr
      cases o with
      | none => exact ⟨hr.1, hheld.mono hr.1.placeholders_le⟩
      | some b => exact (ih b low d hr.2).behind hr.1

theorem tracks_repeatFrom (hstep : ∀ a, TracksWith (parts a) (optionalParts parts) (step a))
    (a : α) : TracksWith (parts a) parts (repeatFrom step a) :=
  fun low c hheld => tracks_repeatWithin hstep c.ahead a low c hheld

theorem tracks_collectWithin {step : Parse (Option α)} (hstep : Tracks (optionalParts parts) step)
    (allowance : List Token) :
    Tracks (fun as => as.flatMap parts) (collectWithin step allowance) := by
  induction allowance with
  | nil =>
    refine .bind hstep fun o => ?_
    cases o with
    | none => exact .same rfl
    | some a => exact .stop _
  | cons t allowance ih =>
    refine .bind hstep fun o => ?_
    cases o with
    | none => exact .same rfl
    | some a => exact .bind ih fun as => .same rfl

theorem Tracks.collect {step : Parse (Option α)} (hstep : Tracks (optionalParts parts) step) :
    Tracks (fun as => as.flatMap parts) (collect step) :=
  fun low c hheld => tracks_collectWithin hstep c.ahead low c hheld

end Repetition

/-! ## Arrangements -/

theorem Tracks.afterComma (h : Tracks parts p) : Tracks (optionalParts parts) (afterComma p) :=
  .next (moves_takeSymbol _) fun _ => .ite (.bind h fun _ => .same rfl) (.same rfl)

theorem Tracks.commaList (h : Tracks parts p) :
    Tracks (fun as => as.flatMap parts) (commaList p) :=
  .bind h fun _ => .bind h.afterComma.collect fun _ => .same rfl

theorem Tracks.inParens (h : Tracks parts p) : Tracks parts (inParens p) :=
  .next (moves_expectSymbol _) fun _ => .bind h fun _ =>
    .next (moves_expectSymbol _) fun _ => .same rfl

theorem Tracks.afterKeyword (k : Keyword) (h : Tracks parts p) :
    Tracks (optionalParts parts) (afterKeyword k p) :=
  .next (moves_takeKeyword k) fun _ => .ite (.bind h fun _ => .same rfl) (.same rfl)

/-- Without its answer a reader that leads on is one that may not have any. -/
theorem Moves.attempt (h : Moves p) : Moves (attempt p) := by
  intro low c hheld
  have hr := h low c hheld
  rw [attempt_apply]
  cases hp : p c with
  | ok a d =>
    rw [hp] at hr
    exact hr
  | error fault d =>
    rw [hp] at hr
    exact ⟨hr.1, hheld.mono hr.1.placeholders_le⟩

end Parse
end SqlTree
