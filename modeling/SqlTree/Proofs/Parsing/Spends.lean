import Mathlib
import SqlTree.Name.Grammar
import SqlTree.Proofs.Parsing.Loose

/-! # The loose characters that readers go past

* `Cursor.Genuine dq c`: all tokens ahead of `c` are tokens by themselves.
* `Cursor.loose c`: the loose characters in these tokens.
* `Parse.Spends dq c p Q`: an answer of `p` at the cursor `c` satisfies `Q` together with the cursor
  behind it, and no loose characters come up ahead.
* `Parse.InTurn R as c c'`, `Parse.Listed R as c c'`: items read one behind the other, without and
  with commas between them.

The rules follow the definitions in `Parse`. What is asked of an answer may tell the loose characters
at the cursor in front of it from those at the cursor behind it, so there is no need to count them
apart.
-/

namespace SqlTree
set_option autoImplicit false

variable {dq : Bool}

/-! ## Tokens ahead -/

/-- All tokens ahead are tokens by themselves, and the text ends behind them. -/
structure Cursor.Genuine (dq : Bool) (c : Cursor) : Prop where
  ahead : ∀ t ∈ c.ahead, t.Genuine dq
  ending : c.ending.kind = .endOfInput

/-- The loose characters in the tokens ahead. -/
def Cursor.loose (c : Cursor) : Nat :=
  looseOf c.ahead

namespace Cursor

variable {c : Cursor}

/-- A token that does not end the text is ahead. -/
theorem Genuine.cons (h : c.Genuine dq) (hk : c.current.kind ≠ .endOfInput) :
    ∃ ts, c.ahead = c.current :: ts ∧ c.current.Genuine dq ∧ c.advance.ahead = ts ∧
      c.advance.Genuine dq := by
  obtain ⟨behind, ahead, ending, n⟩ := c
  cases ahead with
  | nil => exact absurd h.ending hk
  | cons t ts =>
    exact ⟨ts, rfl, h.ahead t List.mem_cons_self, rfl,
      fun u hu => h.ahead u (List.mem_cons_of_mem _ hu), h.ending⟩

theorem Genuine.advance (h : c.Genuine dq) :
    c.advance.Genuine dq ∧ c.advance.loose ≤ c.loose := by
  obtain ⟨behind, ahead, ending, n⟩ := c
  cases ahead with
  | nil => exact ⟨h, Nat.le_refl _⟩
  | cons t ts =>
    refine ⟨⟨fun u hu => h.ahead u (List.mem_cons_of_mem _ hu), h.ending⟩, ?_⟩
    simp only [Cursor.advance, Cursor.loose, looseOf_cons]
    exact Nat.le_add_left _ _

theorem current_kind (he : c.ending.kind = .endOfInput) : c.current.kind = c.peek 0 := by
  unfold current peek
  cases c.ahead with
  | nil => exact he
  | cons t ts => rfl

theorem Genuine.current_kind (h : c.Genuine dq) : c.current.kind = c.peek 0 :=
  Cursor.current_kind h.ending

/-- Going behind a token takes its loose characters. -/
theorem Genuine.spend (h : c.Genuine dq) (hk : c.current.kind ≠ .endOfInput) :
    looseCount c.current.text.toList + c.advance.loose = c.loose := by
  obtain ⟨ts, ha, -, hadv, -⟩ := h.cons hk
  rw [Cursor.loose, Cursor.loose, hadv, ha, looseOf_cons]

/-- Going behind a keyword takes its loose characters. -/
theorem Genuine.spendKeyword {k : Keyword} (h : c.Genuine dq) (hk : c.peek 0 = .keyword k) :
    k.loose + c.advance.loose ≤ c.loose := by
  have hkind : c.current.kind = .keyword k := h.current_kind.trans hk
  obtain ⟨-, -, ht, -⟩ := h.cons (by simp [hkind])
  rw [Token.Genuine, hkind] at ht
  rw [← looseCount_ofWord? ht]
  exact (h.spend (by simp [hkind])).le

/-- Whether a word that begins a query stands at a place ahead. -/
def opensQuery (c : Cursor) (n : Nat) : Bool :=
  (c.peek n).keyword?.any [Keyword.SELECT, .WITH].contains

@[simp]
theorem peek_advance (c : Cursor) (n : Nat) : c.advance.peek n = c.peek (n + 1) := by
  obtain ⟨behind, ahead, ending, k⟩ := c
  cases ahead <;> rfl

end Cursor

namespace Parse

variable {α β : Type} {c : Cursor} {p : Parse α} {f : α → Parse β} {Q S : α → Cursor → Prop}
  {R : β → Cursor → Prop}

/-- An answer at a cursor, with what is ahead behind it. -/
def Spends (dq : Bool) (c : Cursor) (p : Parse α) (Q : α → Cursor → Prop) : Prop :=
  c.Genuine dq → ∀ a c', p c = .ok a c' → c'.Genuine dq ∧ c'.loose ≤ c.loose ∧ Q a c'

/-- The tokens ahead may be taken to be genuine. -/
theorem Spends.intro (h : c.Genuine dq → Spends dq c p Q) : Spends dq c p Q :=
  fun hc => h hc hc

theorem Spends.mono (h : Spends dq c p Q) (hq : ∀ a c', c'.loose ≤ c.loose → Q a c' → S a c') :
    Spends dq c p S := by
  intro hc a c' hp
  obtain ⟨hc', hle, ha⟩ := h hc a c' hp
  exact ⟨hc', hle, hq a c' hle ha⟩

theorem Spends.pure {a : α} (h : Q a c) : Spends dq c (Pure.pure a) Q := by
  rintro hc _ _ ⟨⟩
  exact ⟨hc, Nat.le_refl _, h⟩

theorem Spends.stop (cause : Cause) : Spends dq c (Parse.stop cause : Parse α) Q := by
  rintro hc a c' ⟨⟩

theorem Spends.fail (ds : List String) : Spends dq c (Parse.fail ds : Parse α) Q := by
  rintro hc a c' ⟨⟩

theorem Spends.bind (hp : Spends dq c p Q)
    (hf : ∀ a d, d.loose ≤ c.loose → Q a d → Spends dq d (f a) R) : Spends dq c (p >>= f) R := by
  intro hc b c' h
  obtain ⟨a, d, hpa, hfb⟩ : ∃ a d, p c = .ok a d ∧ f a d = .ok b c' := by
    rw [bind_apply] at h
    split at h
    · next a d hpa => exact ⟨a, d, hpa, h⟩
    · contradiction
  obtain ⟨hd, hle, hq⟩ := hp hc a d hpa
  obtain ⟨hc', hle', hr⟩ := hf a d hle hq hd b c' hfb
  exact ⟨hc', hle'.trans hle, hr⟩

theorem Spends.map {g : α → β} (h : Spends dq c p fun a c' => R (g a) c') :
    Spends dq c (g <$> p) R := by
  rw [← bind_pure_comp]
  exact h.bind fun a d _ ha => .pure ha

/-- A look at what is ahead, which tells what the cursor tells. -/
theorem Spends.look {g : Cursor → α} (hp : ∀ c, p c = .ok (g c) c)
    (hf : Spends dq c (f (g c)) R) : Spends dq c (p >>= f) R := by
  refine Spends.bind (Q := fun a d => a = g c ∧ d = c) ?_ ?_
  · intro hc a d h
    rw [hp] at h
    obtain ⟨rfl, rfl⟩ := EStateM.Result.ok.inj h
    exact ⟨hc, Nat.le_refl _, rfl, rfl⟩
  · rintro _ _ - ⟨rfl, rfl⟩
    exact hf

theorem Spends.ite {condition : Prop} [Decidable condition] {q : Parse α}
    (hp : condition → Spends dq c p Q) (hq : ¬condition → Spends dq c q Q) :
    Spends dq c (if condition then p else q) Q := by
  by_cases h : condition
  · rw [if_pos h]
    exact hp h
  · rw [if_neg h]
    exact hq h

/-! ## Looks ahead -/

section Looks

variable {n : Nat} {s : Symbol} {k : Keyword} {f : Bool → Parse β}

theorem Spends.current {f : Token → Parse β} (hf : Spends dq c (f c.current) R) :
    Spends dq c (Parse.current >>= f) R :=
  .look (fun _ => rfl) hf

/-- A test of what is ahead. -/
theorem Spends.test {p : Parse Bool} {g : Cursor → Bool} (hp : ∀ c, p c = .ok (g c) c)
    (yes : g c = true → Spends dq c (f true) R) (no : g c = false → Spends dq c (f false) R) :
    Spends dq c (p >>= f) R := by
  refine .look hp ?_
  cases h : g c with
  | true => exact yes h
  | false => exact no h

theorem Spends.symbolAt (yes : c.peek n = .symbol s → Spends dq c (f true) R)
    (no : c.peek n ≠ .symbol s → Spends dq c (f false) R) :
    Spends dq c (Parse.symbolAt n s >>= f) R :=
  .test (g := fun c => c.peek n == .symbol s) (fun _ => rfl) (fun h => yes (eq_of_beq h))
    fun h => no (ne_of_beq_false h)

theorem Spends.keywordAt (yes : c.peek n = .keyword k → Spends dq c (f true) R)
    (no : c.peek n ≠ .keyword k → Spends dq c (f false) R) :
    Spends dq c (Parse.keywordAt n k >>= f) R :=
  .test (g := fun c => c.peek n == .keyword k) (fun _ => rfl) (fun h => yes (eq_of_beq h))
    fun h => no (ne_of_beq_false h)

theorem Spends.nameAt (yes : startsName (c.peek n) = true → Spends dq c (f true) R)
    (no : startsName (c.peek n) = false → Spends dq c (f false) R) :
    Spends dq c (Parse.nameAt n >>= f) R :=
  .test (fun _ => rfl) yes no

theorem Spends.queryAt (yes : c.opensQuery n = true → Spends dq c (f true) R)
    (no : c.opensQuery n = false → Spends dq c (f false) R) :
    Spends dq c (Parse.queryAt n >>= f) R :=
  .test (fun _ => rfl) yes no

end Looks

/-! ## Single tokens -/

section Tokens

variable {s : Symbol} {k : Keyword}

theorem Spends.advance {f : Unit → Parse β}
    (hf : c.advance.loose ≤ c.loose → Spends dq c.advance (f ()) R) :
    Spends dq c (Parse.advance >>= f) R := by
  refine Spends.bind (Q := fun _ d => d = c.advance) ?_ ?_
  · rintro hc _ _ ⟨⟩
    exact ⟨hc.advance.1, hc.advance.2, rfl⟩
  · rintro _ _ hle rfl
    exact hf hle

/-- A keyword is under the cursor. -/
theorem Spends.advanceKeyword {f : Unit → Parse β} (hk : c.peek 0 = .keyword k)
    (hf : k.loose + c.advance.loose ≤ c.loose → Spends dq c.advance (f ()) R) :
    Spends dq c (Parse.advance >>= f) R :=
  .intro fun hc => .advance fun _ => hf (hc.spendKeyword hk)

theorem Spends.takeSymbol {f : Bool → Parse β}
    (yes : c.peek 0 = .symbol s → c.advance.loose ≤ c.loose → Spends dq c.advance (f true) R)
    (no : c.peek 0 ≠ .symbol s → Spends dq c (f false) R) :
    Spends dq c (Parse.takeSymbol s >>= f) R := by
  unfold Parse.takeSymbol
  rw [bind_assoc]
  refine .symbolAt (fun h => ?_) fun h => ?_
  · rw [if_pos rfl, bind_assoc]
    exact .advance fun hle => yes h hle
  · rw [if_neg (by simp)]
    exact no h

theorem Spends.expectSymbol {f : Unit → Parse β}
    (hf : c.peek 0 = .symbol s → c.advance.loose ≤ c.loose → Spends dq c.advance (f ()) R) :
    Spends dq c (Parse.expectSymbol s >>= f) R := by
  unfold Parse.expectSymbol
  rw [bind_assoc]
  exact .takeSymbol (fun h hle => hf h hle) fun _ => by rintro hc a c' ⟨⟩

theorem Spends.takeKeyword {f : Bool → Parse β}
    (yes : c.peek 0 = .keyword k → k.loose + c.advance.loose ≤ c.loose →
      Spends dq c.advance (f true) R)
    (no : c.peek 0 ≠ .keyword k → Spends dq c (f false) R) :
    Spends dq c (Parse.takeKeyword k >>= f) R := by
  unfold Parse.takeKeyword
  rw [bind_assoc]
  refine .keywordAt (fun h => ?_) fun h => ?_
  · rw [if_pos rfl, bind_assoc]
    exact .advanceKeyword h fun hle => yes h hle
  · rw [if_neg (by simp)]
    exact no h

theorem Spends.expectKeyword {f : Unit → Parse β}
    (hf : c.peek 0 = .keyword k → k.loose + c.advance.loose ≤ c.loose →
      Spends dq c.advance (f ()) R) :
    Spends dq c (Parse.expectKeyword k >>= f) R := by
  unfold Parse.expectKeyword
  rw [bind_assoc]
  exact .takeKeyword (fun h hle => hf h hle) fun _ => by rintro hc a c' ⟨⟩

theorem Spends.afterKeyword (h : c.peek 0 = .keyword k → k.loose + c.advance.loose ≤ c.loose →
      Spends dq c.advance p Q) :
    Spends dq c (Parse.afterKeyword k p) fun o c' => o.elim (c' = c) fun a => Q a c' :=
  .takeKeyword (fun hk hle => (h hk hle).bind fun _ _ _ ha => .pure ha) fun _ => .pure rfl

theorem secondHalf_genuine (t : Token) : t.secondHalf.Genuine dq := by
  have h : TokenKind.ofWord? dq Symbol.greater.text = some (.symbol .greater) := by
    cases dq <;> decide
  exact h

theorem spends_closingAngle : Spends dq c closingAngle fun _ _ => True := by
  intro hc a d hr
  rcases closingAngle_cases c with ⟨-, h⟩ | ⟨-, -, h⟩ | ⟨t, ts, ha, -, h⟩ | h
  · rw [h] at hr
    cases hr
    exact ⟨hc.advance.1, hc.advance.2, trivial⟩
  · rw [h] at hr
    cases hr
    exact ⟨hc, Nat.le_refl _, trivial⟩
  · -- The second half is a token by itself, and has no loose characters.
    rw [h] at hr
    cases hr
    have hts : ∀ u ∈ ts, u.Genuine dq := fun u hu => hc.ahead u (by simp [ha, hu])
    have hq : looseCount Symbol.greater.text.toList = 0 := by decide
    refine ⟨⟨List.forall_mem_cons.2 ⟨secondHalf_genuine t, hts⟩, hc.ending⟩, ?_, trivial⟩
    simp only [Cursor.loose, ha, looseOf_cons, Token.secondHalf, hq]
    omega
  · rw [h] at hr
    cases hr

theorem Spends.closingAngle {f : Unit → Parse β}
    (hf : ∀ d, d.loose ≤ c.loose → Spends dq d (f ()) R) :
    Spends dq c (Parse.closingAngle >>= f) R :=
  spends_closingAngle.bind fun _ d hd _ => hf d hd

end Tokens

/-! ## Repetition -/

section Repetition

variable {I : α → Cursor → Prop} {step : α → Parse (Option α)}

theorem spends_repeatWithin
    (hstep : ∀ a d, d.loose ≤ c.loose → I a d →
      Spends dq d (step a) fun o c' => o.elim (Q a c') fun b => I b c') :
    ∀ (l : List Token) (a : α) (d : Cursor), d.loose ≤ c.loose → I a d →
      Spends dq d (repeatWithin step l a) Q := by
  intro l
  induction l with
  | nil =>
    intro a d hd ha
    refine (hstep a d hd ha).bind fun o d' _ ho => ?_
    cases o with
    | none => exact .pure ho
    | some b => exact .stop _
  | cons t l ih =>
    intro a d hd ha
    refine (hstep a d hd ha).bind fun o d' hd' ho => ?_
    cases o with
    | none => exact .pure ho
    | some b => exact ih b d' (hd'.trans hd) ho

/-- A repetition with an invariant. -/
theorem Spends.repeatFrom {a : α} (ha : I a c)
    (hstep : ∀ a d, d.loose ≤ c.loose → I a d →
      Spends dq d (step a) fun o c' => o.elim (Q a c') fun b => I b c') :
    Spends dq c (Parse.repeatFrom step a) Q :=
  spends_repeatWithin hstep c.ahead a c (Nat.le_refl _) ha

/-- Items read one behind the other, from a cursor to another one. -/
inductive InTurn (R : α → Cursor → Cursor → Prop) : List α → Cursor → Cursor → Prop
  | nil (c : Cursor) : InTurn R [] c c
  | cons {a : α} {as : List α} {c d c' : Cursor} (ha : R a c d) (has : InTurn R as d c') :
    InTurn R (a :: as) c c'

variable {R : α → Cursor → Cursor → Prop} {as : List α} {c' : Cursor}

namespace InTurn

theorem all (h : InTurn R as c c') : ∀ a ∈ as, ∃ d d', R a d d' := by
  induction h with
  | nil => simp
  | cons ha _ ih => exact List.forall_mem_cons.2 ⟨⟨_, _, ha⟩, ih⟩

theorem last (h : InTurn R as c c') : ∀ a ∈ as.getLast?, ∃ d, R a d c' := by
  induction h with
  | nil => simp
  | @cons a as c d c' ha has ih =>
    cases has with
    | nil => simpa using ⟨c, ha⟩
    | cons hb hbs => simpa using ih

/-- What each item takes adds up. -/
theorem sum (h : InTurn R as c c') {w : α → Nat}
    (hw : ∀ a d d', R a d d' → w a + d'.loose ≤ d.loose) :
    (as.map w).sum + c'.loose ≤ c.loose := by
  induction h with
  | nil => simp
  | cons ha _ ih =>
    have := hw _ _ _ ha
    simp only [List.map_cons, List.sum_cons]
    omega

end InTurn

theorem spends_collectWithin {step : Parse (Option α)}
    (hstep : ∀ d, d.loose ≤ c.loose →
      Spends dq d step fun o d' => o.elim (d' = d) fun a => R a d d') :
    ∀ (l : List Token) (d : Cursor), d.loose ≤ c.loose →
      Spends dq d (collectWithin step l) fun as c' => InTurn R as d c' := by
  intro l
  induction l with
  | nil =>
    intro d hd
    refine (hstep d hd).bind fun o d' hd' ho => ?_
    cases o with
    | none =>
      obtain rfl : d' = d := ho
      exact .pure (.nil d')
    | some a => exact .stop _
  | cons t l ih =>
    intro d hd
    refine (hstep d hd).bind fun o d' hd' ho => ?_
    cases o with
    | none =>
      obtain rfl : d' = d := ho
      exact .pure (.nil d')
    | some a => exact (ih d' (hd'.trans hd)).bind fun as c' _ has => .pure (.cons ho has)

theorem Spends.collect {step : Parse (Option α)}
    (hstep : ∀ d, d.loose ≤ c.loose →
      Spends dq d step fun o d' => o.elim (d' = d) fun a => R a d d') :
    Spends dq c (Parse.collect step) fun as c' => InTurn R as c c' :=
  spends_collectWithin hstep c.ahead c (Nat.le_refl _)

/-- One or more items read with commas between them. -/
structure Listed (R : α → Cursor → Cursor → Prop) (as : List α) (c c' : Cursor) : Prop where
  ne : as ≠ []
  all : ∀ a ∈ as, ∃ d d', R a d d'
  first : ∀ a ∈ as.head?, ∃ d, R a c d
  last : ∀ a ∈ as.getLast?, ∃ d, R a d c'
  sum : ∀ {w : α → Nat}, (∀ a d d', R a d d' → w a + d'.loose ≤ d.loose) →
    (as.map w).sum + c'.loose ≤ c.loose

/-- An item read behind what has no loose characters. -/
def Behind (R : α → Cursor → Cursor → Prop) (a : α) (c c' : Cursor) : Prop :=
  ∃ d, d.loose ≤ c.loose ∧ R a d c'

theorem Listed.cons {a : α} {d : Cursor} (ha : R a c d) (h : InTurn (Behind R) as d c') :
    Listed R (a :: as) c c' where
  ne := by simp
  all := List.forall_mem_cons.2 ⟨⟨c, d, ha⟩, fun b hb => by
    obtain ⟨_, d', d'', -, hb⟩ := h.all b hb
    exact ⟨d'', d', hb⟩⟩
  first := by simpa using ⟨d, ha⟩
  last := by
    cases h with
    | nil => simpa using ⟨c, ha⟩
    | @cons b bs _ e _ hb hbs =>
      intro x hx
      obtain ⟨_, e', -, hx⟩ := (InTurn.cons hb hbs).last x (by simpa using hx)
      exact ⟨e', hx⟩
  sum hw := by
    have hd := hw a c d ha
    have hs := h.sum (w := _) fun b d d' ⟨e, he, hb⟩ => (hw b e d' hb).trans he
    simp only [List.map_cons, List.sum_cons]
    omega

theorem Spends.afterComma {item : Parse α} (h : ∀ d, d.loose ≤ c.loose →
      Spends dq d item fun a c' => R a d c') :
    Spends dq c (Parse.afterComma item) fun o c' => o.elim (c' = c) fun a => Behind R a c c' :=
  .takeSymbol
    (fun _ hle => (h c.advance hle).bind fun _ _ _ ha => .pure ⟨c.advance, hle, ha⟩)
    fun _ => .pure rfl

theorem Spends.commaList {item : Parse α} (h : ∀ d, d.loose ≤ c.loose →
      Spends dq d item fun a c' => R a d c') :
    Spends dq c (Parse.commaList item) fun as c' => Listed R as c c' := by
  refine (h c (Nat.le_refl _)).bind fun a d hd ha => ?_
  refine Spends.bind (Spends.collect (R := Behind R) fun e he => .afterComma fun d' hd' =>
    h d' (hd'.trans (he.trans hd))) fun as c' _ has => .pure (.cons ha has)

end Repetition

end Parse

end SqlTree
