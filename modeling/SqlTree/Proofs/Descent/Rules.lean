import Mathlib
import SqlTree.Proofs.Tracking.Name

/-! # Reading comes to an end

Every round of a repetition takes a token, and a tree in a tree begins behind a token of the outer
one. So what is ahead becomes less, and no reader runs out of the allowance that it begins with.

* `Cursor.weight`: how much is ahead. Two closing angles that are read as one token count twice,
  since the first of them can be taken and the second be left.
* `Leads.weight_le`, `Leads.weight_lt`: reading never adds to the weight, and a token that is taken
  takes from it.
* `Outset`: where a reader begins, with what is known of its allowance.
* `LastsFrom r k moves p p'`: on the way from the outset `r` the reader `p` does what `p'` does, does
  not run out, and leads on. `Lasts` and `Rounds` are the usual cases.
* `below w p`: the reader `p`, stopped where the weight ahead is not below `w`.

## What the indices say

That inner trees begin at a smaller weight is said by an equation: a reader does what it does where
the readers of inner trees are stopped unless they begin at a smaller weight. So `p'` differs from
`p` in the readers of inner trees alone. `k` tokens ahead are known, since a reader that goes behind
the token under the cursor takes one only where one is there. An answer that satisfies `moves` has
taken a token.
-/

namespace SqlTree
set_option autoImplicit false

open Parse

/-! ## Weight -/

/-- How much tokens are: one for each, and one more for two closing angles in one. -/
def weightOf (ts : List Token) : Nat :=
  ts.length + ts.countP fun t => t.kind = .symbol .shiftRight

theorem weightOf_cons_lt (t : Token) (ts : List Token) : weightOf ts < weightOf (t :: ts) := by
  unfold weightOf
  rw [List.length_cons, List.countP_cons]
  omega

theorem weightOf_drop_le (n : Nat) (ts : List Token) :
    weightOf (ts.drop n) + min n ts.length ≤ weightOf ts := by
  induction ts generalizing n with
  | nil => simp [weightOf]
  | cons t ts ih =>
    cases n with
    | zero => simp
    | succ n =>
      have hrest := ih n
      have hcons := weightOf_cons_lt t ts
      rw [List.drop_succ_cons, List.length_cons]
      omega

/-- What is left of tokens is no more than they are. -/
theorem weightOf_le_of_becomes {ts ts' : List Token} (h : List.Forall₂ Token.Becomes ts ts') :
    weightOf ts' ≤ weightOf ts := by
  unfold weightOf
  induction h with
  | nil => exact Nat.le_refl _
  | cons ht _ ih =>
    rw [List.length_cons, List.length_cons, List.countP_cons, List.countP_cons]
    rcases ht with rfl | ⟨-, rfl⟩
    · omega
    · simp only [Token.secondHalf, TokenKind.symbol.injEq, reduceCtorEq, decide_false, if_false]
      omega

namespace Cursor

/-- How much is ahead of a cursor. -/
def weight (c : Cursor) : Nat :=
  weightOf c.ahead

variable {c d : Cursor}

/-- Every token that was taken takes from the weight. -/
theorem Leads.weight_add_le (h : c.Leads d) :
    d.weight + (c.ahead.length - d.ahead.length) ≤ c.weight := by
  have hbecomes := weightOf_le_of_becomes h.becomes
  have hdrop := weightOf_drop_le (c.ahead.length - d.ahead.length) c.ahead
  rw [Nat.min_eq_left (Nat.sub_le _ _)] at hdrop
  unfold weight
  omega

theorem Leads.weight_le (h : c.Leads d) : d.weight ≤ c.weight :=
  (Nat.le_add_right _ _).trans h.weight_add_le

theorem Leads.weight_lt (h : c.Leads d) (hlt : d.ahead.length < c.ahead.length) :
    d.weight < c.weight := by
  have := h.weight_add_le
  omega

theorem length_advance (h : 0 < c.ahead.length) :
    c.advance.ahead.length + 1 = c.ahead.length := by
  obtain ⟨behind, ahead, ending, n⟩ := c
  cases ahead with
  | nil => exact absurd h (Nat.lt_irrefl 0)
  | cons t ts => rfl

/-- A kind other than that of the end is the kind of a token ahead. -/
theorem lt_length_of_peek {n : Nat} (h : c.peek n ≠ .endOfInput) : n < c.ahead.length := by
  by_contra hn
  exact h (by rw [peek, List.getElem?_eq_none (Nat.le_of_not_lt hn)])

end Cursor

/-! ## Outsets -/

/-- Where a reader begins: whether the allowance for inner trees is ample there, and whether a token
has been taken since. -/
structure Outset where
  start : Cursor
  ended : start.ending.kind = .endOfInput
  ample : Prop
  taken : Bool

namespace Outset

/-- Behind a token. -/
def inside (r : Outset) : Outset :=
  { r with taken := true }

/-- A cursor on the way from an outset. -/
structure Reaches (r : Outset) (c : Cursor) : Prop where
  leads : r.start.Leads c
  taken : r.taken = true → c.ahead.length < r.start.ahead.length

variable {r : Outset} {c d : Cursor}

theorem Reaches.ended (h : r.Reaches c) : c.ending.kind = .endOfInput := by
  rw [h.leads.ending]
  exact r.ended

theorem Reaches.goOn (h : r.Reaches c) (hd : c.Leads d) : r.Reaches d :=
  ⟨h.leads.trans hd, fun ht => Nat.lt_of_le_of_lt hd.length_le (h.taken ht)⟩

theorem Reaches.take (h : r.Reaches c) (hd : c.Leads d) (hlt : d.ahead.length < c.ahead.length) :
    r.inside.Reaches d :=
  ⟨h.leads.trans hd, fun _ => Nat.lt_of_lt_of_le hlt h.leads.length_le⟩

theorem Reaches.of_inside (h : r.inside.Reaches c) : r.Reaches c :=
  ⟨h.leads, fun _ => h.taken rfl⟩

theorem Reaches.length_lt (h : r.inside.Reaches c) : c.ahead.length < r.start.ahead.length :=
  h.taken rfl

/-- Behind a token less is ahead. -/
theorem Reaches.weight_lt (h : r.inside.Reaches c) : c.weight < r.start.weight :=
  h.leads.weight_lt h.length_lt

end Outset

namespace Parse

variable {α β : Type} {r : Outset} {k : Nat} {moves : α → Prop} {p p' : Parse α}

/-! ## Results -/

/-- The same result twice: an answer that reading leads on to, or a fault other than that the
allowance was not enough. -/
structure Lasted (ample : Prop) (moves : α → Prop) (c : Cursor)
    (result result' : EStateM.Result Fault Cursor α) : Prop where
  same : result = result'
  leads : ∀ a d, result = .ok a d → c.Leads d ∧ (moves a → d.ahead.length < c.ahead.length)
  fault : ∀ e d, result = .error e d → ample → e.cause ≠ .tooDeep

section Results

variable {ample : Prop} {stays : β → Prop} {c : Cursor}
  {result result' : EStateM.Result Fault Cursor α}

theorem Lasted.ok {a : α} {d : Cursor} (hd : c.Leads d)
    (hm : moves a → d.ahead.length < c.ahead.length) :
    Lasted ample moves c (.ok a d) (.ok a d) := by
  refine ⟨rfl, ?_, fun _ _ h => nomatch h⟩
  rintro _ _ ⟨⟩
  exact ⟨hd, hm⟩

theorem Lasted.error {e : Fault} {d : Cursor} (he : ample → e.cause ≠ .tooDeep) :
    Lasted ample moves c (.error e d) (.error e d) := by
  refine ⟨rfl, nofun, ?_⟩
  rintro _ _ ⟨⟩
  exact he

/-- What comes behind a part of the way. A token taken there is taken on the whole way. -/
theorem Lasted.behind {after : α → Prop} {d : Cursor} (h : Lasted ample after d result result')
    (hd : c.Leads d) (hs : ∀ a, moves a → d.ahead.length < c.ahead.length ∨ after a) :
    Lasted ample moves c result result' := by
  refine ⟨h.same, fun a e hr => ?_, h.fault⟩
  obtain ⟨hleads, htakes⟩ := h.leads a e hr
  refine ⟨hd.trans hleads, fun ha => ?_⟩
  rcases hs a ha with hlt | ha
  · exact Nat.lt_of_le_of_lt hleads.length_le hlt
  · exact Nat.lt_of_lt_of_le (htakes ha) hd.length_le

theorem Lasted.bind {f f' : α → Parse β} (hp : Lasted ample moves c (p c) (p' c))
    (hf : ∀ a d, c.Leads d → (moves a → d.ahead.length < c.ahead.length) →
      Lasted ample stays c (f a d) (f' a d)) :
    Lasted ample stays c ((p >>= f) c) ((p' >>= f') c) := by
  rw [bind_apply, bind_apply, ← hp.same]
  cases hr : p c with
  | error e d => exact .error (hp.fault e d hr)
  | ok a d => exact hf a d (hp.leads a d hr).1 (hp.leads a d hr).2

end Results

/-! ## Readers -/

/-- On the way from `r` the reader `p` does what `p'` does, does not run out, and leads on. -/
def LastsFrom (r : Outset) (k : Nat) (moves : α → Prop) (p p' : Parse α) : Prop :=
  ∀ c, r.Reaches c → k ≤ c.ahead.length → Lasted r.ample moves c (p c) (p' c)

abbrev Lasts (r : Outset) (p p' : Parse α) : Prop :=
  LastsFrom r 0 (fun _ => False) p p'

/-- A reader that always takes a token. -/
abbrev Consumes (r : Outset) (p p' : Parse α) : Prop :=
  LastsFrom r 0 (fun _ => True) p p'

/-- Answers that are there have taken a token. -/
abbrev Rounds (r : Outset) (p p' : Parse (Option α)) : Prop :=
  LastsFrom r 0 (fun o => o.isSome = true) p p'

namespace LastsFrom

theorem pure (a : α) : LastsFrom r k (fun _ => False) (Pure.pure a) (Pure.pure a) :=
  fun c _ _ => .ok (.refl c) False.elim

theorem nothing : LastsFrom r k (fun o : Option α => o.isSome = true) (Pure.pure none)
    (Pure.pure none) :=
  fun c _ _ => .ok (.refl c) fun h => by simp at h

theorem stop {cause : Cause} (h : cause ≠ .tooDeep) :
    LastsFrom r k moves (stop cause) (stop cause) :=
  fun _ _ _ => .error fun _ => h

theorem fail (descriptions : List String) :
    LastsFrom r k moves (fail descriptions) (fail descriptions) :=
  .stop nofun

/-- Inside a tree that there is no token for, nothing is read. -/
theorem noRoom (h : r.ample → r.start.ahead.length = 0) :
    LastsFrom r.inside k moves (Parse.stop .tooDeep) (Parse.stop .tooDeep) := by
  intro c hc _
  refine .error fun ha => ?_
  have hlt := hc.length_lt
  have hzero := h ha
  omega

/-- Where more tokens are known. -/
theorem knowing {j : Nat} (h : LastsFrom r j moves p p') (hj : j ≤ k) :
    LastsFrom r k moves p p' :=
  fun c hc hk => h c hc (hj.trans hk)

/-- What takes a token need not be said to take one. -/
theorem still (h : LastsFrom r k moves p p') : LastsFrom r k (fun _ => False) p p' :=
  fun c hc hk => (h c hc hk).behind (.refl c) fun _ hf => hf.elim

theorem inside (h : LastsFrom r k moves p p') : LastsFrom r.inside k moves p p' :=
  fun c hc hk => h c hc.of_inside hk

/-- A reader that lasts from wherever it may begin. -/
theorem restart (h : ∀ c (hc : r.Reaches c), LastsFrom ⟨c, hc.ended, r.ample, false⟩ k moves p p') :
    LastsFrom r k moves p p' :=
  fun c hc hk => h c hc c ⟨.refl c, nofun⟩ hk

variable {f f' : α → Parse β} {stays : β → Prop}

theorem bind (hp : LastsFrom r k moves p p')
    (hmoved : ∀ a, moves a → LastsFrom r.inside 0 (fun _ => False) (f a) (f' a))
    (hstayed : ∀ a, ¬moves a → LastsFrom r 0 stays (f a) (f' a)) :
    LastsFrom r k stays (p >>= f) (p' >>= f') := by
  intro c hc hk
  refine (hp c hc hk).bind fun a d hd htakes => ?_
  by_cases ha : moves a
  · exact (hmoved a ha d (hc.take hd (htakes ha)) (Nat.zero_le _)).behind hd
      fun _ _ => .inl (htakes ha)
  · exact (hstayed a ha d (hc.goOn hd) (Nat.zero_le _)).behind hd fun _ hb => .inr hb

/-- A reader with what comes behind it, which takes the tokens that are promised. -/
theorem next (hp : LastsFrom r 0 moves p p') (hf : ∀ a, LastsFrom r 0 stays (f a) (f' a)) :
    LastsFrom r k stays (p >>= f) (p' >>= f') :=
  bind (hp.still.knowing (Nat.zero_le k)) (fun _ h => h.elim) fun a _ => hf a

/-- A reader that always takes a token, with what comes behind it. -/
theorem after (hp : LastsFrom r k (fun _ => True) p p')
    (hf : ∀ a, LastsFrom r.inside 0 (fun _ => False) (f a) (f' a)) :
    LastsFrom r k stays (p >>= f) (p' >>= f') :=
  bind hp (fun a _ => hf a) fun _ h => absurd trivial h

theorem ite {condition : Prop} [Decidable condition] {q q' : Parse α}
    (hp : condition → LastsFrom r k moves p p') (hq : ¬condition → LastsFrom r k moves q q') :
    LastsFrom r k moves (if condition then p else q) (if condition then p' else q') := by
  by_cases h : condition
  · rw [if_pos h, if_pos h]
    exact hp h
  · rw [if_neg h, if_neg h]
    exact hq h

/-- Two ways that go on alike. -/
theorem join {condition : Prop} [Decidable condition] {q q' : Parse α}
    (hp : condition → LastsFrom r 0 moves p p') (hq : ¬condition → LastsFrom r 0 moves q q')
    (hf : ∀ a, LastsFrom r 0 stays (f a) (f' a)) :
    LastsFrom r k stays (if condition then p >>= f else q >>= f)
      (if condition then p' >>= f' else q' >>= f') :=
  .ite (fun h => .next (hp h) hf) fun h => .next (hq h) hf

/-! ## Looking ahead -/

/-- A look that decides nothing here. -/
theorem look {q : Parse α} {g : Cursor → α} (hq : ∀ c, q c = .ok (g c) c)
    (hf : ∀ a, LastsFrom r k stays (f a) (f' a)) :
    LastsFrom r k stays (q >>= f) (q >>= f') := by
  intro c hc hk
  rw [bind_apply, bind_apply, hq]
  exact hf _ c hc hk

section Tests

variable {f f' : Bool → Parse β}

/-- A test that holds of a token `n` places ahead, but not of the end of a text. -/
theorem test {q : Parse Bool} (φ : TokenKind → Bool) {n : Nat}
    (hq : ∀ c, q c = .ok (φ (c.peek n)) c) (hend : φ .endOfInput = false)
    (hyes : LastsFrom r (n + 1) stays (f true) (f' true))
    (hno : LastsFrom r k stays (f false) (f' false)) :
    LastsFrom r k stays (q >>= f) (q >>= f') := by
  intro c hc hk
  rw [bind_apply, bind_apply, hq]
  dsimp only
  cases hb : φ (c.peek n) with
  | false => exact hno c hc hk
  | true =>
    refine hyes c hc (Cursor.lt_length_of_peek fun he => ?_)
    rw [he, hend] at hb
    cases hb

theorem symbolAt (n : Nat) (s : Symbol) (hyes : LastsFrom r (n + 1) stays (f true) (f' true))
    (hno : LastsFrom r k stays (f false) (f' false)) :
    LastsFrom r k stays (Parse.symbolAt n s >>= f) (Parse.symbolAt n s >>= f') :=
  test (· == .symbol s) (fun _ => rfl) rfl hyes hno

theorem keywordAt (n : Nat) (w : Keyword) (hyes : LastsFrom r (n + 1) stays (f true) (f' true))
    (hno : LastsFrom r k stays (f false) (f' false)) :
    LastsFrom r k stays (Parse.keywordAt n w >>= f) (Parse.keywordAt n w >>= f') :=
  test (· == .keyword w) (fun _ => rfl) rfl hyes hno

theorem anyKeywordAt (n : Nat) (ws : List Keyword)
    (hyes : LastsFrom r (n + 1) stays (f true) (f' true))
    (hno : LastsFrom r k stays (f false) (f' false)) :
    LastsFrom r k stays (Parse.anyKeywordAt n ws >>= f) (Parse.anyKeywordAt n ws >>= f') :=
  test (fun kind => kind.keyword?.any ws.contains) (fun _ => rfl) rfl hyes hno

theorem nameAt (n : Nat) (hyes : LastsFrom r (n + 1) stays (f true) (f' true))
    (hno : LastsFrom r k stays (f false) (f' false)) :
    LastsFrom r k stays (Parse.nameAt n >>= f) (Parse.nameAt n >>= f') :=
  test startsName (fun _ => rfl) rfl hyes hno

end Tests

/-! ## Single tokens -/

/-- How many tokens a token of a kind makes known: one, unless it is the end. -/
def sight : TokenKind → Nat
  | .endOfInput => 0
  | _ => 1

theorem sight_of_ne {kind : TokenKind} (h : kind ≠ .endOfInput) : sight kind = 1 := by
  cases kind with
  | endOfInput => exact absurd rfl h
  | _ => rfl

/-- The token under the cursor. -/
theorem token {f f' : Token → Parse β}
    (h : ∀ kind span text, LastsFrom r (max k (sight kind)) stays (f ⟨kind, span, text⟩)
      (f' ⟨kind, span, text⟩)) :
    LastsFrom r k stays (current >>= f) (current >>= f') := by
  intro c hc hk
  refine h c.current.kind c.current.span c.current.text c hc (max_le hk ?_)
  have hended := hc.ended
  unfold Cursor.current
  cases c.ahead with
  | nil =>
    rw [List.headD_nil, hended]
    exact Nat.zero_le _
  | cons t ts =>
    refine le_trans ?_ (Nat.le_add_left 1 ts.length)
    unfold sight
    split <;> simp

/-- Going behind a known token takes the token that is promised. -/
theorem advance {f f' : Unit → Parse β}
    (hf : LastsFrom r.inside k (fun _ => False) (f ()) (f' ())) :
    LastsFrom r (k + 1) stays (advance >>= f) (advance >>= f') := by
  intro c hc hk
  have hlength := Cursor.length_advance (Nat.lt_of_lt_of_le (Nat.succ_pos k) hk)
  have hlt : c.advance.ahead.length < c.ahead.length := by omega
  exact (hf c.advance (hc.take c.leads_advance hlt) (by omega)).behind c.leads_advance
    fun _ _ => .inl hlt

section Takes

theorem takeSymbol (s : Symbol) {f f' : Bool → Parse β}
    (hyes : LastsFrom r.inside 0 (fun _ => False) (f true) (f' true))
    (hno : LastsFrom r k stays (f false) (f' false)) :
    LastsFrom r k stays (takeSymbol s >>= f) (takeSymbol s >>= f') := by
  unfold Parse.takeSymbol
  rw [bind_assoc, bind_assoc]
  refine symbolAt 0 s ?_ (by simpa using hno)
  simp only [if_true, bind_assoc, pure_bind]
  exact advance hyes

theorem takeKeyword (w : Keyword) {f f' : Bool → Parse β}
    (hyes : LastsFrom r.inside 0 (fun _ => False) (f true) (f' true))
    (hno : LastsFrom r k stays (f false) (f' false)) :
    LastsFrom r k stays (takeKeyword w >>= f) (takeKeyword w >>= f') := by
  unfold Parse.takeKeyword
  rw [bind_assoc, bind_assoc]
  refine keywordAt 0 w ?_ (by simpa using hno)
  simp only [if_true, bind_assoc, pure_bind]
  exact advance hyes

variable {f f' : Unit → Parse β}

theorem expectSymbol (s : Symbol)
    (hf : LastsFrom r.inside 0 (fun _ => False) (f ()) (f' ())) :
    LastsFrom r k stays (expectSymbol s >>= f) (expectSymbol s >>= f') := by
  unfold Parse.expectSymbol
  rw [bind_assoc, bind_assoc]
  exact takeSymbol s hf (.stop nofun)

theorem expectKeyword (w : Keyword)
    (hf : LastsFrom r.inside 0 (fun _ => False) (f ()) (f' ())) :
    LastsFrom r k stays (expectKeyword w >>= f) (expectKeyword w >>= f') := by
  unfold Parse.expectKeyword
  rw [bind_assoc, bind_assoc]
  exact takeKeyword w hf (.stop nofun)

end Takes

end LastsFrom

/-- Where no token need be there, going on takes none for certain. -/
theorem lasts_advance : Lasts r advance advance :=
  fun c _ _ => .ok c.leads_advance False.elim

theorem lasts_takeKeyword (w : Keyword) : Lasts r (takeKeyword w) (takeKeyword w) := by
  rw [← bind_pure (takeKeyword w)]
  exact .takeKeyword w (.pure _) (.pure _)

/-- A reader that leads on and does not fault for want of allowance. -/
theorem lasts_of_moves (h : Moves p) (hf : ∀ c e d, p c = .error e d → e.cause ≠ .tooDeep) :
    Lasts r p p := by
  intro c _ _
  have hmoves := h c.placeholders c (.nil (Nat.le_refl _))
  cases hr : p c with
  | ok a d =>
    rw [hr] at hmoves
    exact .ok hmoves.1 False.elim
  | error e d => exact .error fun _ => hf c e d hr

theorem lasts_closingAngle : Lasts r closingAngle closingAngle := by
  refine lasts_of_moves moves_closingAngle fun c e d hr => ?_
  rcases closingAngle_cases c with ⟨-, h⟩ | ⟨-, -, h⟩ | ⟨t, ts, -, -, h⟩ | h
  · cases h.symm.trans hr
  · cases h.symm.trans hr
  · cases h.symm.trans hr
  · cases h.symm.trans hr
    exact nofun

/-- Of two closing angles in one token the first takes as much from the weight as a token does. -/
theorem weight_lt_of_closingAngle {c d : Cursor} (hc : c.ending.kind = .endOfInput)
    (h : closingAngle c = .ok () d) : d.weight < c.weight := by
  rcases closingAngle_cases c with ⟨hk, h'⟩ | ⟨-, hk, -⟩ | ⟨t, ts, ha, hk, h'⟩ | h'
  · cases h'.symm.trans h
    have hahead : 0 < c.ahead.length := by
      refine List.length_pos_of_ne_nil fun ha => ?_
      rw [Cursor.current, ha, List.headD_nil, hc] at hk
      cases hk
    have hlength := Cursor.length_advance hahead
    exact c.leads_advance.weight_lt (by omega)
  · rw [hc] at hk
    cases hk
  · cases h'.symm.trans h
    simp [Cursor.weight, weightOf, ha, hk, Token.secondHalf]
  · cases h'.symm.trans h

theorem lasts_nextPlaceholder : Lasts r nextPlaceholder nextPlaceholder := by
  intro c _ _
  exact .ok (tracks_nextPlaceholder c.placeholders c (.nil (Nat.le_refl _))).1 False.elim

/-! ## Repetition -/

section Repetition

theorem lasted_collectWithin {step step' : Parse (Option α)} (hstep : Rounds r step step')
    (l : List Token) : ∀ c, r.Reaches c → c.ahead.length ≤ l.length →
      Lasted r.ample (fun _ => False) c (collectWithin step l c) (collectWithin step' l c) := by
  induction l with
  | nil =>
    intro c hc hl
    refine (hstep c hc (Nat.zero_le _)).bind fun o d hd htakes => ?_
    cases o with
    | none => exact .ok hd False.elim
    | some a => exact absurd (htakes rfl) (by rw [Nat.le_zero.1 hl]; exact Nat.not_lt_zero _)
  | cons t l ih =>
    intro c hc hl
    refine (hstep c hc (Nat.zero_le _)).bind fun o d hd htakes => ?_
    cases o with
    | none => exact .ok hd False.elim
    | some a =>
      have hlt := htakes rfl
      rw [List.length_cons] at hl
      have hrest : Lasted r.ample (fun _ => False) d
          ((collectWithin step l >>= fun as => pure (a :: as)) d)
          ((collectWithin step' l >>= fun as => pure (a :: as)) d) :=
        (ih d (hc.goOn hd) (by omega)).bind fun as e he _ => .ok he False.elim
      exact hrest.behind hd fun _ hf => hf.elim

/-- A repetition whose rounds take tokens ends before its allowance does. -/
theorem Rounds.collect {step step' : Parse (Option α)} (hstep : Rounds r step step') :
    Lasts r (collect step) (collect step') :=
  fun c hc _ => lasted_collectWithin hstep c.ahead c hc (Nat.le_refl _)

theorem lasted_repeatWithin {step step' : α → Parse (Option α)}
    (hstep : ∀ a, Rounds r (step a) (step' a)) (l : List Token) :
    ∀ a c, r.Reaches c → c.ahead.length ≤ l.length →
      Lasted r.ample (fun _ => False) c (repeatWithin step l a c) (repeatWithin step' l a c) := by
  induction l with
  | nil =>
    intro a c hc hl
    refine (hstep a c hc (Nat.zero_le _)).bind fun o d hd htakes => ?_
    cases o with
    | none => exact .ok hd False.elim
    | some b => exact absurd (htakes rfl) (by rw [Nat.le_zero.1 hl]; exact Nat.not_lt_zero _)
  | cons t l ih =>
    intro a c hc hl
    refine (hstep a c hc (Nat.zero_le _)).bind fun o d hd htakes => ?_
    cases o with
    | none => exact .ok hd False.elim
    | some b =>
      have hlt := htakes rfl
      rw [List.length_cons] at hl
      exact (ih b d (hc.goOn hd) (by omega)).behind hd fun _ hf => hf.elim

theorem lasts_repeatFrom {step step' : α → Parse (Option α)}
    (hstep : ∀ a, Rounds r (step a) (step' a)) (a : α) :
    Lasts r (repeatFrom step a) (repeatFrom step' a) :=
  fun c hc _ => lasted_repeatWithin hstep c.ahead a c hc (Nat.le_refl _)

end Repetition

/-! ## Arrangements -/

section Arrangements

variable {item item' : Parse α}

theorem rounds_afterComma (hitem : LastsFrom r.inside 0 moves item item') :
    Rounds r (afterComma item) (afterComma item') :=
  .takeSymbol .comma (.next hitem fun _ => .pure _) .nothing

/-- A list takes what its first item takes. -/
theorem lasts_commaList (hitem : Consumes r item item') :
    Consumes r (commaList item) (commaList item') :=
  .after hitem fun _ => .next (rounds_afterComma (r := r.inside) hitem.inside).collect fun _ => .pure _

theorem lasts_inParens (hitem : LastsFrom r.inside 0 moves item item') :
    LastsFrom r k (fun _ => True) (inParens item) (inParens item') :=
  .expectSymbol .leftParen (.next hitem fun _ => .expectSymbol .rightParen (.pure _))

theorem rounds_afterKeyword (w : Keyword) (hitem : LastsFrom r.inside 0 moves item item') :
    Rounds r (afterKeyword w item) (afterKeyword w item') :=
  .takeKeyword w (.next hitem fun _ => .pure _) .nothing

end Arrangements

/-! ## Readers of inner trees -/

/-- A reader that is stopped where the weight ahead is not below `w`. -/
def below (w : Nat) (p : Parse α) : Parse α := do
  if weightOf (← ahead) < w then p else stop .tooDeep

theorem below_of_lt {w : Nat} {c : Cursor} (h : c.weight < w) (p : Parse α) : below w p c = p c := by
  rw [below, bind_apply, ahead_apply]
  exact congrArg (fun p : Parse α => p c) (if_pos h)

/-- Behind a token of the outer tree an inner one is not stopped. -/
theorem LastsFrom.below (h : LastsFrom r.inside k moves p p) :
    LastsFrom r.inside k moves p (Parse.below r.start.weight p) := by
  intro c hc hk
  rw [below_of_lt hc.weight_lt]
  exact h c hc hk

end Parse
end SqlTree
