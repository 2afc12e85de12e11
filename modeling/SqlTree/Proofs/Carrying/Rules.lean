import Mathlib
import SqlTree.Proofs.Parsing.Agree

/-! # Readers inside a longer text

A reader that stands in front of a semicolon answers as it does in front of the end of the text,
but for the numbers of question marks, which go on from those met before.

* `Surroundings`, `Cursor.Within S`: what stands around a part of the tokens, and the places of the
  part in itself and among all tokens.
* `Cursor.Lone`: neither a semicolon nor the end of the text is among the tokens ahead.
* `CarriesFrom S k r moves h p p'`: what the reader `p'` does with the part alone, `p` does within
  `S`, with answers changed by `h`. `Carries` and `Steps` are the usual cases.

## What the indices say

A reader that goes behind the token under the cursor must know that one is there, or it would go
behind the semicolon: `k` tokens ahead are known, and none of them is a question mark. A question
mark is gone behind only where it is counted. With room `r` for tokens ahead the readers of inner
trees do not run out of allowance; they begin behind a token of the outer tree. An answer that
satisfies `moves` has taken a token, which bounds the rounds of a repetition.
-/

namespace SqlTree
set_option autoImplicit false

/-! ## Parts of the tokens -/

/-- What stands around the tokens of a statement: behind them a semicolon, or nothing. -/
structure Surroundings where
  after : List Token
  ending : Token
  placeholders : Nat
  separated : ∀ t ∈ after.head?, t.kind = .symbol .semicolon
  ended : ending.kind = .endOfInput

/-- The number of question marks among tokens. -/
def questions (ts : List Token) : Nat :=
  ts.countP fun t => t.kind = .symbol .question

namespace Cursor

/-- A place in a part of the tokens, and the same place among all tokens. -/
structure Within (S : Surroundings) (c c₁ : Cursor) : Prop where
  ahead : ∃ ts, c₁.ahead = ts ++ S.after ∧ List.Forall₂ Token.Alike c.ahead ts
  ending : c₁.ending = S.ending
  placeholders : c₁.placeholders = c.placeholders + S.placeholders

theorem Within.length_le {S : Surroundings} {c c₁ : Cursor} (h : Within S c c₁) :
    c.ahead.length ≤ c₁.ahead.length := by
  obtain ⟨ts, hts, hall⟩ := h.ahead
  rw [hts, List.length_append, hall.length_eq]
  exact Nat.le_add_right _ _

/-- The tokens ahead belong to one statement. -/
structure Lone (c : Cursor) : Prop where
  ahead : ∀ t ∈ c.ahead, t.kind ≠ .symbol .semicolon ∧ t.kind ≠ .endOfInput
  ending : c.ending.kind = .endOfInput

/-- The next `k` tokens are there, and none of them is a question mark. -/
def Sees (k : Nat) (c : Cursor) : Prop :=
  ∀ i < k, ∃ t, c.ahead[i]? = some t ∧ t.kind ≠ .symbol .question

/-- Reading has gone from one cursor to another and counted the question marks in between. -/
structure Onward (c d : Cursor) : Prop where
  lone : d.Lone
  length_le : d.ahead.length ≤ c.ahead.length
  count : d.placeholders + questions d.ahead = c.placeholders + questions c.ahead

theorem Onward.trans {c d e : Cursor} (h₁ : c.Onward d) (h₂ : d.Onward e) : c.Onward e :=
  ⟨h₂.lone, h₂.length_le.trans h₁.length_le, h₂.count.trans h₁.count⟩

theorem Lone.onward {c : Cursor} (h : c.Lone) : c.Onward c :=
  ⟨h, Nat.le_refl _, rfl⟩

theorem sees_zero (c : Cursor) : c.Sees 0 :=
  fun _ hi => absurd hi (Nat.not_lt_zero _)

theorem Sees.cons {k : Nat} {c : Cursor} (h : c.Sees (k + 1)) :
    ∃ t ts, c.ahead = t :: ts ∧ t.kind ≠ .symbol .question := by
  obtain ⟨t, ht, hk⟩ := h 0 (Nat.succ_pos k)
  cases ha : c.ahead with
  | nil => simp [ha] at ht
  | cons u us =>
    obtain rfl : u = t := by simpa [ha] using ht
    exact ⟨u, us, rfl, hk⟩

/-- Going behind a token that is no question mark. -/
theorem Sees.advance {S : Surroundings} {k : Nat} {c c₁ : Cursor} (h : c.Sees (k + 1))
    (hc : c.Lone) (hw : Within S c c₁) : Within S c.advance c₁.advance ∧ c.Onward c.advance ∧
      c.advance.Sees k ∧ c.advance.ahead.length + 1 = c.ahead.length := by
  obtain ⟨t, ts, ha, ht⟩ := h.cons
  obtain ⟨behind, ahead, ending, n⟩ := c
  obtain ⟨behind₁, ahead₁, ending₁, n₁⟩ := c₁
  obtain rfl : ahead = t :: ts := ha
  obtain ⟨_, rfl, _ | ⟨-, hts⟩⟩ := hw.ahead
  have hcount : questions (t :: ts) = questions ts := by simp [questions, ht]
  refine ⟨⟨⟨_, rfl, hts⟩, hw.ending, hw.placeholders⟩,
    ⟨⟨fun u hu => hc.ahead u (List.mem_cons_of_mem _ hu), hc.ending⟩, Nat.le_succ _, ?_⟩, ?_, rfl⟩
  · rw [hcount]
    rfl
  · intro i hi
    exact h (i + 1) (Nat.succ_lt_succ hi)

/-- Ahead of a part there is one of its tokens, alike among all tokens, or there is none, and then a
semicolon or the end of the text stands there. -/
theorem Lone.current {S : Surroundings} {c c₁ : Cursor} (h : c.Lone) (hw : Within S c c₁) :
    (∃ kind span span₁ text ts, c.ahead = ⟨kind, span, text⟩ :: ts ∧
      c.current = ⟨kind, span, text⟩ ∧ c₁.current = ⟨kind, span₁, text⟩) ∨
    (c.ahead = [] ∧ c.current.kind = .endOfInput ∧
      (c₁.current.kind = .symbol .semicolon ∨ c₁.current.kind = .endOfInput)) := by
  obtain ⟨behind, ahead, ending, n⟩ := c
  obtain ⟨behind₁, ahead₁, ending₁, n₁⟩ := c₁
  obtain ⟨ts, rfl, hts⟩ := hw.ahead
  cases hts with
  | @cons t t₁ us us₁ ht _ =>
    obtain ⟨kind, span, text⟩ := t
    obtain ⟨kind₁, span₁, text₁⟩ := t₁
    obtain ⟨rfl, rfl⟩ := ht
    exact .inl ⟨kind, span, span₁, text, us, rfl, rfl, rfl⟩
  | nil =>
    refine .inr ⟨rfl, h.ending, ?_⟩
    have hs := S.separated
    have he : ending₁ = S.ending := hw.ending
    show (S.after.headD ending₁).kind = _ ∨ (S.after.headD ending₁).kind = _
    cases ha : S.after with
    | nil => exact .inr (he ▸ S.ended)
    | cons t ts => exact .inl (hs t (by simp [ha]))

/-- What stands at a place of a part stands there among all tokens, or there is nothing, and then a
semicolon or the end of the text stands there. -/
theorem Within.peek {S : Surroundings} {c c₁ : Cursor} (hw : Within S c c₁) {n : Nat}
    (hn : n ≤ c.ahead.length) :
    (∃ t, c.ahead[n]? = some t ∧ c.peek n = t.kind ∧ c₁.peek n = t.kind) ∨
    (c.peek n = .endOfInput ∧ (c₁.peek n = .symbol .semicolon ∨ c₁.peek n = .endOfInput)) := by
  obtain ⟨ts, hts, hall⟩ := hw.ahead
  have hs := S.separated
  unfold Cursor.peek
  rw [hts]
  rcases Nat.lt_or_eq_of_le hn with hlt | rfl
  · have hlt' : n < ts.length := hall.length_eq ▸ hlt
    have hkind : c.ahead[n].kind = ts[n].kind := ((List.forall₂_iff_get.1 hall).2 n hlt hlt').1
    refine .inl ⟨c.ahead[n], by simp [hlt], by simp [hlt], ?_⟩
    simp [List.getElem?_append_left hlt', hlt', hkind]
  · refine .inr ⟨by simp, ?_⟩
    simp only [hall.length_eq, List.getElem?_append_right (Nat.le_refl _), Nat.sub_self]
    cases ha : S.after with
    | nil => exact .inr rfl
    | cons t ts => exact .inl (hs t (by simp [ha]))

end Cursor

/-- A test that holds neither of a semicolon, nor of a question mark, nor of the end of a text. -/
def Marks (test : TokenKind → Bool) : Prop :=
  test (.symbol .semicolon) = false ∧ test (.symbol .question) = false ∧ test .endOfInput = false

namespace Cursor

variable {S : Surroundings} {c c₁ : Cursor} {φ : TokenKind → Bool} {n : Nat}

/-- A test that holds neither of a semicolon nor of the end tells the same at both places. -/
theorem Within.test (hw : c.Within S c₁) (hφ : Marks φ)
    (hn : n ≤ c.ahead.length) : φ (c₁.peek n) = φ (c.peek n) := by
  rcases hw.peek hn with ⟨t, -, h, h₁⟩ | ⟨h, h₁ | h₁⟩
  · rw [h, h₁]
  · rw [h, h₁, hφ.1, hφ.2.2]
  · rw [h, h₁]

theorem Sees.mono {k : Nat} (h : c.Sees k) (hn : n ≤ k) : c.Sees n :=
  fun i hi => h i (Nat.lt_of_lt_of_le hi hn)

theorem Sees.length_le (h : c.Sees n) : n ≤ c.ahead.length := by
  cases n with
  | zero => exact Nat.zero_le _
  | succ n =>
    obtain ⟨t, ht, -⟩ := h n (Nat.lt_succ_self n)
    exact (List.getElem?_eq_some_iff.1 ht).1

/-- What is tested behind known tokens is known. -/
theorem Sees.succ (h : c.Sees n) (hφ : Marks φ) (ht : φ (c.peek n) = true) : c.Sees (n + 1) := by
  intro i hi
  rcases Nat.lt_or_eq_of_le (Nat.le_of_lt_succ hi) with hlt | rfl
  · exact h i hlt
  · unfold Cursor.peek at ht
    cases hi : c.ahead[i]? with
    | none =>
      rw [hi, hφ.2.2] at ht
      cases ht
    | some t =>
      refine ⟨t, rfl, fun hk => ?_⟩
      rw [hi] at ht
      dsimp only at ht
      rw [hk, hφ.2.1] at ht
      cases ht

end Cursor

/-! ## Room for tokens -/

/-- How many tokens may be ahead: so many at most, and fewer once a token of the tree is taken. -/
structure Room where
  most : Nat
  taken : Bool

namespace Room

def Holds (r : Room) (n : Nat) : Prop :=
  n < bif r.taken then r.most else r.most + 1

/-- The room behind a token. -/
def inside (r : Room) : Room :=
  ⟨r.most, true⟩

variable {r : Room} {n n' : Nat}

theorem Holds.mono (h : r.Holds n) (hn : n' ≤ n) : r.Holds n' :=
  Nat.lt_of_le_of_lt hn h

theorem Holds.of_inside (h : r.inside.Holds n) : r.Holds n := by
  obtain ⟨most, taken⟩ := r
  cases taken with
  | true => exact h
  | false => exact Nat.lt_succ_of_lt h

theorem Holds.inside (h : r.Holds n) (hn : n' < n) : r.inside.Holds n' := by
  obtain ⟨most, taken⟩ := r
  cases taken with
  | true => exact hn.trans h
  | false => exact Nat.lt_of_lt_of_le hn (Nat.le_of_lt_succ h)

end Room

namespace Parse

variable {α β : Type} {S : Surroundings} {k : Nat} {r : Room} {moves : α → Prop} {h : α → α}
  {p p' : Parse α}

/-! ## Results -/

/-- What the reading of a part alone answers, the reading within `S` answers too. -/
def Carried (S : Surroundings) (moves : α → Prop) (h : α → α) (c : Cursor)
    (result result' : EStateM.Result Fault Cursor α) : Prop :=
  match result' with
  | .ok a d =>
    (∃ d₁, result = .ok (h a) d₁ ∧ d.Within S d₁) ∧ c.Onward d ∧
      (moves a → d.ahead.length < c.ahead.length)
  | .error _ _ => ∃ e d, result = .error e d

/-- What comes behind a part of the way. A token taken there is taken on the whole way. -/
theorem Carried.behind {stays : α → Prop} {c d : Cursor}
    {result result' : EStateM.Result Fault Cursor α} (hr : Carried S stays h d result result')
    (hd : c.Onward d) (hs : ∀ a, moves a → d.ahead.length < c.ahead.length ∨ stays a) :
    Carried S moves h c result result' := by
  cases result' with
  | ok a e =>
    have hle := hd.length_le
    have hle' := hr.2.1.length_le
    refine ⟨hr.1, hd.trans hr.2.1, fun ha => ?_⟩
    rcases hs a ha with hlt | ha
    · omega
    · have := hr.2.2 ha
      omega
  | error e d => exact hr

theorem Carried.bind {stays : β → Prop} {g : β → β} {f f' : α → Parse β} {c c₁ : Cursor}
    (hr : Carried S moves h c (p c₁) (p' c))
    (hf : ∀ a d d₁, d.Within S d₁ → c.Onward d → (moves a → d.ahead.length < c.ahead.length) →
      Carried S stays g c (f (h a) d₁) (f' a d)) :
    Carried S stays g c ((p >>= f) c₁) ((p' >>= f') c) := by
  rw [bind_apply, bind_apply]
  cases hp' : p' c with
  | error e d =>
    rw [hp'] at hr
    obtain ⟨e', d', he⟩ := hr
    rw [he]
    exact ⟨e', d', rfl⟩
  | ok a d =>
    rw [hp'] at hr
    obtain ⟨⟨d₁, hp, hw⟩, hon, hmoves⟩ := hr
    rw [hp]
    exact hf a d d₁ hw hon hmoves

/-- What `p'` does with a part alone, `p` does within `S`. -/
def CarriesFrom (S : Surroundings) (k : Nat) (r : Room) (moves : α → Prop) (h : α → α)
    (p p' : Parse α) : Prop :=
  ∀ c c₁ : Cursor, c.Within S c₁ → c.Lone → c.Sees k → r.Holds c.ahead.length →
    Carried S moves h c (p c₁) (p' c)

abbrev Carries (S : Surroundings) (r : Room) (h : α → α) (p p' : Parse α) : Prop :=
  CarriesFrom S 0 r (fun _ => False) h p p'

/-- Answers that are there have taken a token. -/
abbrev Steps (S : Surroundings) (r : Room) (h : α → α) (p p' : Parse (Option α)) : Prop :=
  CarriesFrom S 0 r (fun o => o.isSome = true) (Option.map h) p p'

namespace CarriesFrom

theorem pure {a b : α} (hb : b = h a) :
    CarriesFrom S k r (fun _ => False) h (pure b) (pure a) := by
  intro c c₁ hw hc _ _
  exact ⟨⟨c₁, by rw [hb]; rfl, hw⟩, hc.onward, False.elim⟩

theorem nothing :
    CarriesFrom S k r (fun o => o.isSome = true) (Option.map h) (Pure.pure none)
      (Pure.pure none) := by
  intro c c₁ hw hc _ _
  exact ⟨⟨c₁, rfl, hw⟩, hc.onward, fun hm => by simp at hm⟩

theorem stop (cause cause' : Cause) : CarriesFrom S k r moves h (stop cause) (stop cause') :=
  fun _ c₁ _ _ _ _ => ⟨_, c₁, rfl⟩

theorem fail (descriptions : List String) :
    CarriesFrom S k r moves h (fail descriptions) (fail descriptions) :=
  .stop _ _

/-- Readers that do the same at every cursor. -/
theorem congr {q q' : Parse α} (hq : ∀ c, p c = q c) (hq' : ∀ c, p' c = q' c)
    (hsame : CarriesFrom S k r moves h q q') : CarriesFrom S k r moves h p p' := by
  intro c c₁
  rw [hq, hq']
  exact hsame c c₁

/-- What need not take a token need not be said to take one. -/
theorem still (hp : CarriesFrom S 0 r moves h p p') :
    CarriesFrom S k r (fun _ => False) h p p' := by
  intro c c₁ hw hc _ hr
  exact (hp c c₁ hw hc (Cursor.sees_zero c) hr).behind hc.onward fun _ hf => hf.elim

/-- Where more tokens are known. -/
theorem knowing {j : Nat} (hp : CarriesFrom S j r moves h p p') (hj : j ≤ k) :
    CarriesFrom S k r moves h p p' :=
  fun c c₁ hw hc hsees hr => hp c c₁ hw hc (hsees.mono hj) hr

theorem inside (hp : CarriesFrom S k r moves h p p') : CarriesFrom S k r.inside moves h p p' :=
  fun c c₁ hw hc hsees hr => hp c c₁ hw hc hsees hr.of_inside

/-- Inside a tree that no token is left for there is nothing to read. -/
theorem noRoom : CarriesFrom S k (Room.inside ⟨0, false⟩) moves h p p' :=
  fun _ _ _ _ _ hr => absurd hr (Nat.not_lt_zero _)

variable {g : β → β} {stays : β → Prop} {f f' : α → Parse β}

theorem bind (hp : CarriesFrom S k r moves h p p')
    (hmoved : ∀ a, moves a → CarriesFrom S 0 r.inside (fun _ => False) g (f (h a)) (f' a))
    (hstayed : ∀ a, ¬moves a → CarriesFrom S 0 r stays g (f (h a)) (f' a)) :
    CarriesFrom S k r stays g (p >>= f) (p' >>= f') := by
  intro c c₁ hw hc hsees hr
  refine (hp c c₁ hw hc hsees hr).bind fun a d d₁ hw hon hmoves => ?_
  by_cases ha : moves a
  · have hlt := hmoves ha
    exact (hmoved a ha d d₁ hw hon.lone (Cursor.sees_zero d) (hr.inside hlt)).behind hon
      fun _ _ => .inl hlt
  · exact (hstayed a ha d d₁ hw hon.lone (Cursor.sees_zero d) (hr.mono hon.length_le)).behind hon
      fun _ hb => .inr hb

/-- A reader with what comes behind it, which takes the tokens that are promised. -/
theorem next (hp : CarriesFrom S 0 r moves h p p')
    (hf : ∀ a, CarriesFrom S 0 r stays g (f (h a)) (f' a)) :
    CarriesFrom S k r stays g (p >>= f) (p' >>= f') := by
  intro c c₁ hw hc hsees hr
  refine (hp c c₁ hw hc (Cursor.sees_zero c) hr).bind fun a d d₁ hw hon _ => ?_
  exact (hf a d d₁ hw hon.lone (Cursor.sees_zero d) (hr.mono hon.length_le)).behind hon
    fun _ hb => .inr hb

/-- A reader that always takes a token, with what comes behind it. -/
theorem after (hp : CarriesFrom S k r (fun _ => True) h p p')
    (hf : ∀ a, CarriesFrom S 0 r.inside (fun _ => False) g (f (h a)) (f' a)) :
    CarriesFrom S k r stays g (p >>= f) (p' >>= f') :=
  .bind hp (fun a _ => hf a) fun _ ha => absurd trivial ha

theorem ite {condition : Prop} [Decidable condition] {q q' : Parse α}
    (hp : condition → CarriesFrom S k r moves h p p')
    (hq : ¬condition → CarriesFrom S k r moves h q q') :
    CarriesFrom S k r moves h (if condition then p else q) (if condition then p' else q') := by
  by_cases hc : condition
  · rw [if_pos hc, if_pos hc]
    exact hp hc
  · rw [if_neg hc, if_neg hc]
    exact hq hc

/-- A branch whose two ways go on alike. -/
theorem branch {q : Parse Bool} {p₁ p₁' p₂ p₂' : Parse α} {f f' : α → Parse β}
    (hp : CarriesFrom S 0 r moves h (q >>= fun b => if b then p₁ else p₂)
      (q >>= fun b => if b then p₁' else p₂'))
    (hf : ∀ a, CarriesFrom S 0 r stays g (f (h a)) (f' a)) :
    CarriesFrom S k r stays g (q >>= fun b => if b then p₁ >>= f else p₂ >>= f)
      (q >>= fun b => if b then p₁' >>= f' else p₂' >>= f') := by
  have hjoin : ∀ (r₁ r₂ : Parse α) (F : α → Parse β),
      (q >>= fun b => if b then r₁ >>= F else r₂ >>= F) =
        (q >>= fun b => if b then r₁ else r₂) >>= F := by
    intro r₁ r₂ F
    rw [bind_assoc]
    congr 1
    funext b
    cases b <;> rfl
  rw [hjoin, hjoin]
  exact .next hp hf

/-! ## Looking ahead -/

section Tests

variable {f f' : Bool → Parse β}

/-- A test of a token behind known ones. -/
theorem test {q : Parse Bool} (φ : TokenKind → Bool) {n : Nat}
    (hq : ∀ c, q c = .ok (φ (c.peek n)) c) (hφ : Marks φ) (hn : n ≤ k)
    (hyes : CarriesFrom S (n + 1) r stays g (f true) (f' true))
    (hno : CarriesFrom S k r stays g (f false) (f' false)) :
    CarriesFrom S k r stays g (q >>= f) (q >>= f') := by
  intro c c₁ hw hc hsees hr
  have hsees' := hsees.mono hn
  rw [bind_apply, bind_apply, hq, hq]
  dsimp only
  rw [hw.test hφ hsees'.length_le]
  cases hb : φ (c.peek n) with
  | false => exact hno c c₁ hw hc hsees hr
  | true => exact hyes c c₁ hw hc (hsees'.succ hφ hb) hr

/-- A look farther ahead, which decides nothing here. -/
theorem look {γ : Type} {q : Parse γ} {f f' : γ → Parse β} (hq : ∀ c, ∃ b, q c = .ok b c)
    (hf : ∀ b b', CarriesFrom S k r stays g (f b) (f' b')) :
    CarriesFrom S k r stays g (q >>= f) (q >>= f') := by
  intro c c₁ hw hc hsees hr
  obtain ⟨b', hb'⟩ := hq c
  obtain ⟨b, hb⟩ := hq c₁
  rw [bind_apply, bind_apply, hb, hb']
  exact hf b b' c c₁ hw hc hsees hr

theorem symbolAt (s : Symbol) (hs : Marks (· == .symbol s))
    (hyes : CarriesFrom S 1 r stays g (f true) (f' true))
    (hno : CarriesFrom S k r stays g (f false) (f' false)) :
    CarriesFrom S k r stays g (symbolAt 0 s >>= f) (symbolAt 0 s >>= f') :=
  test (· == .symbol s) (fun _ => rfl) hs (Nat.zero_le k) hyes hno

theorem keywordAt (w : Keyword) (hyes : CarriesFrom S 1 r stays g (f true) (f' true))
    (hno : CarriesFrom S k r stays g (f false) (f' false)) :
    CarriesFrom S k r stays g (keywordAt 0 w >>= f) (keywordAt 0 w >>= f') :=
  test (· == .keyword w) (fun _ => rfl) ⟨rfl, rfl, rfl⟩ (Nat.zero_le k) hyes hno

theorem anyKeywordAt (ws : List Keyword) (hyes : CarriesFrom S 1 r stays g (f true) (f' true))
    (hno : CarriesFrom S k r stays g (f false) (f' false)) :
    CarriesFrom S k r stays g (anyKeywordAt 0 ws >>= f) (anyKeywordAt 0 ws >>= f') :=
  test (fun kind => kind.keyword?.any ws.contains) (fun _ => rfl) ⟨rfl, rfl, rfl⟩ (Nat.zero_le k)
    hyes hno

/-- A symbol behind `k` known tokens. -/
theorem symbolBehind (s : Symbol) (hs : Marks (· == .symbol s))
    (hyes : CarriesFrom S (k + 1) r stays g (f true) (f' true))
    (hno : CarriesFrom S k r stays g (f false) (f' false)) :
    CarriesFrom S k r stays g (Parse.symbolAt k s >>= f) (Parse.symbolAt k s >>= f') :=
  test (· == .symbol s) (fun _ => rfl) hs (Nat.le_refl k) hyes hno

/-- A keyword behind `k` known tokens. -/
theorem keywordBehind (w : Keyword) (hyes : CarriesFrom S (k + 1) r stays g (f true) (f' true))
    (hno : CarriesFrom S k r stays g (f false) (f' false)) :
    CarriesFrom S k r stays g (Parse.keywordAt k w >>= f) (Parse.keywordAt k w >>= f') :=
  test (· == .keyword w) (fun _ => rfl) ⟨rfl, rfl, rfl⟩ (Nat.le_refl k) hyes hno

theorem anyKeywordBehind (ws : List Keyword)
    (hyes : CarriesFrom S (k + 1) r stays g (f true) (f' true))
    (hno : CarriesFrom S k r stays g (f false) (f' false)) :
    CarriesFrom S k r stays g (Parse.anyKeywordAt k ws >>= f) (Parse.anyKeywordAt k ws >>= f') :=
  test (fun kind => kind.keyword?.any ws.contains) (fun _ => rfl) ⟨rfl, rfl, rfl⟩ (Nat.le_refl k)
    hyes hno

end Tests

/-! ## Single tokens -/

/-- How many tokens a token of a kind makes known: one, unless it is a question mark or an end. -/
def sight : TokenKind → Nat
  | .symbol .question | .symbol .semicolon | .endOfInput => 0
  | _ => 1

theorem sees_sight {c : Cursor} {kind : TokenKind} {span : Span} {text : String} {ts : List Token}
    (h : c.ahead = ⟨kind, span, text⟩ :: ts) : c.Sees (sight kind) := by
  intro i hi
  have hle : sight kind ≤ 1 := by unfold sight; split <;> simp
  obtain rfl : i = 0 := by omega
  refine ⟨⟨kind, span, text⟩, by simp [h], fun hk => ?_⟩
  obtain rfl : kind = .symbol .question := hk
  exact absurd hi (Nat.not_lt_zero 0)

section Tokens

variable {f f' : Token → Parse β}

/-- The token under the cursor, where a question mark is dealt with by itself. -/
theorem tokenOrQuestion
    (hsame : ∀ kind span span₁ text, kind ≠ .symbol .question →
      CarriesFrom S (sight kind) r stays g (f ⟨kind, span₁, text⟩) (f' ⟨kind, span, text⟩))
    (hquestion : ∀ c c₁ : Cursor, c.Within S c₁ → c.Lone → r.Holds c.ahead.length →
      c.current.kind = .symbol .question → c₁.current.kind = .symbol .question →
        Carried S stays g c (f c₁.current c₁) (f' c.current c))
    (hend : ∀ t t' : Token, t.kind = .symbol .semicolon ∨ t.kind = .endOfInput →
      t'.kind = .endOfInput → CarriesFrom S 0 r stays g (f t) (f' t')) :
    CarriesFrom S k r stays g (current >>= f) (current >>= f') := by
  intro c c₁ hw hc hsees hr
  rw [bind_apply, bind_apply, current_apply, current_apply]
  dsimp only
  rcases hc.current hw with ⟨kind, span, span₁, text, ts, ha, h₁, h₂⟩ | ⟨-, h₁, h₂⟩
  · by_cases hk : kind = .symbol .question
    · exact hquestion c c₁ hw hc hr (by rw [h₁, hk]) (by rw [h₂, hk])
    · rw [h₁, h₂]
      exact hsame kind span span₁ text hk c c₁ hw hc (sees_sight ha) hr
  · exact hend _ _ h₂ h₁ c c₁ hw hc (Cursor.sees_zero c) hr

/-- The token under the cursor. At the end of a part another one stands among all tokens. -/
theorem token
    (hsame : ∀ kind span span₁ text,
      CarriesFrom S (sight kind) r stays g (f ⟨kind, span₁, text⟩) (f' ⟨kind, span, text⟩))
    (hend : ∀ t t' : Token, t.kind = .symbol .semicolon ∨ t.kind = .endOfInput →
      t'.kind = .endOfInput → CarriesFrom S 0 r stays g (f t) (f' t')) :
    CarriesFrom S k r stays g (current >>= f) (current >>= f') := by
  intro c c₁ hw hc hsees hr
  rw [bind_apply, bind_apply, current_apply, current_apply]
  dsimp only
  rcases hc.current hw with ⟨kind, span, span₁, text, ts, ha, h₁, h₂⟩ | ⟨-, h₁, h₂⟩
  · rw [h₁, h₂]
    exact hsame kind span span₁ text c c₁ hw hc (sees_sight ha) hr
  · exact hend _ _ h₂ h₁ c c₁ hw hc (Cursor.sees_zero c) hr

/-- A token that is known to be there. -/
theorem knownToken
    (hf : ∀ kind span span₁ text,
      CarriesFrom S (k + 1) r stays g (f ⟨kind, span₁, text⟩) (f' ⟨kind, span, text⟩)) :
    CarriesFrom S (k + 1) r stays g (current >>= f) (current >>= f') := by
  intro c c₁ hw hc hsees hr
  rw [bind_apply, bind_apply, current_apply, current_apply]
  rcases hc.current hw with ⟨kind, span, span₁, text, ts, -, h₁, h₂⟩ | ⟨ha, -, -⟩
  · rw [h₁, h₂]
    exact hf kind span span₁ text c c₁ hw hc hsees hr
  · obtain ⟨t, ts, ha', -⟩ := hsees.cons
    simp [ha] at ha'

end Tokens

section Takes

variable {f f' : Unit → Parse β}

/-- Going behind a known token takes the token that is promised. -/
theorem advance (hf : CarriesFrom S k r.inside (fun _ => False) g (f ()) (f' ())) :
    CarriesFrom S (k + 1) r stays g (advance >>= f) (advance >>= f') := by
  intro c c₁ hw hc hsees hr
  obtain ⟨hw', hon, hsees', hlength⟩ := hsees.advance hc hw
  have hlt : c.advance.ahead.length < c.ahead.length := by omega
  exact (hf c.advance c₁.advance hw' hon.lone hsees' (hr.inside hlt)).behind hon
    fun _ _ => .inl hlt

theorem takeSymbol (s : Symbol) {f f' : Bool → Parse β} (hs : Marks (· == .symbol s))
    (hyes : CarriesFrom S 0 r.inside (fun _ => False) g (f true) (f' true))
    (hno : CarriesFrom S k r stays g (f false) (f' false)) :
    CarriesFrom S k r stays g (takeSymbol s >>= f) (takeSymbol s >>= f') := by
  have htake : ∀ F : Bool → Parse β, Parse.takeSymbol s >>= F =
      Parse.symbolAt 0 s >>= fun b => if b then Parse.advance >>= fun _ => F true else F false := by
    intro F
    rw [Parse.takeSymbol, bind_assoc]
    congr 1
    funext b
    cases b <;> simp
  rw [htake, htake]
  exact symbolAt s hs (advance hyes) hno

theorem takeKeyword (w : Keyword) {f f' : Bool → Parse β}
    (hyes : CarriesFrom S 0 r.inside (fun _ => False) g (f true) (f' true))
    (hno : CarriesFrom S k r stays g (f false) (f' false)) :
    CarriesFrom S k r stays g (takeKeyword w >>= f) (takeKeyword w >>= f') := by
  have htake : ∀ F : Bool → Parse β, Parse.takeKeyword w >>= F =
      Parse.keywordAt 0 w >>= fun b => if b then Parse.advance >>= fun _ => F true else F false := by
    intro F
    rw [Parse.takeKeyword, bind_assoc]
    congr 1
    funext b
    cases b <;> simp
  rw [htake, htake]
  exact keywordAt w (advance hyes) hno

theorem expectSymbol (s : Symbol) (hs : Marks (· == .symbol s))
    (hf : CarriesFrom S 0 r.inside (fun _ => False) g (f ()) (f' ())) :
    CarriesFrom S k r stays g (expectSymbol s >>= f) (expectSymbol s >>= f') := by
  rw [Parse.expectSymbol, bind_assoc, bind_assoc]
  exact takeSymbol s hs hf (.stop _ _)

theorem expectKeyword (w : Keyword)
    (hf : CarriesFrom S 0 r.inside (fun _ => False) g (f ()) (f' ())) :
    CarriesFrom S k r stays g (expectKeyword w >>= f) (expectKeyword w >>= f') := by
  rw [Parse.expectKeyword, bind_assoc, bind_assoc]
  exact takeKeyword w hf (.stop _ _)

end Takes

end CarriesFrom

theorem carries_takeKeyword (w : Keyword) : Carries S r id (takeKeyword w) (takeKeyword w) := by
  rw [← bind_pure (takeKeyword w)]
  exact .takeKeyword w (.pure rfl) (.pure rfl)

/-- A closing angle of a part is one among all tokens. Neither it nor the second half of one is a
question mark. -/
theorem within_closeAngle {c c₁ d : Cursor} (hw : c.Within S c₁) (hc : c.Lone)
    (hd : c.closeAngle = some d) :
    ∃ d₁, c₁.closeAngle = some d₁ ∧ d.Within S d₁ ∧ c.Onward d := by
  rcases c.closeAngle_cases with ⟨hk, h⟩ | ⟨-, hk, -⟩ | ⟨t, ts, ha, hk, h⟩ | h
  · obtain rfl := Option.some.inj (h.symm.trans hd)
    rcases hc.current hw with ⟨kind, span, span₁, text, ts, ha, h₁, h₂⟩ | ⟨-, he, -⟩
    · obtain rfl : kind = .symbol .greater := by rwa [h₁] at hk
      obtain ⟨hw', hon, -⟩ := (CarriesFrom.sees_sight ha).advance hc hw
      exact ⟨_, Cursor.closeAngle_of_greater (by rw [h₂]), hw', hon⟩
    · exact nomatch hk.symm.trans he
  · exact nomatch hk.symm.trans hc.ending
  · obtain rfl := Option.some.inj (h.symm.trans hd)
    obtain ⟨behind, ahead, ending, n⟩ := c
    obtain ⟨behind₁, ahead₁, ending₁, n₁⟩ := c₁
    obtain rfl : ahead = t :: ts := ha
    obtain ⟨_, rfl, _ | @⟨_, t₁, _, ts₁, ht, hts⟩⟩ := hw.ahead
    refine ⟨_, Cursor.closeAngle_of_shiftRight rfl (ht.1 ▸ hk),
      ⟨⟨t₁.secondHalf :: ts₁, rfl, .cons ⟨rfl, rfl⟩ hts⟩, hw.ending, hw.placeholders⟩,
      ⟨?_, hc.ending⟩, Nat.le_refl _, ?_⟩
    · rw [List.forall_mem_cons]
      exact ⟨⟨nofun, nofun⟩, fun u hu => hc.ahead u (List.mem_cons_of_mem _ hu)⟩
    · simp [questions, Token.secondHalf, hk]
  · exact nomatch h.symm.trans hd

theorem carries_closingAngle : Carries S r id closingAngle closingAngle := by
  intro c c₁ hw hc _ _
  rw [closingAngle_apply, closingAngle_apply]
  cases hd : c.closeAngle with
  | some d =>
    obtain ⟨d₁, hd₁, hw', hon⟩ := within_closeAngle hw hc hd
    rw [hd₁]
    exact ⟨⟨d₁, rfl, hw'⟩, hon, False.elim⟩
  | none =>
    have hne := c.closeAngle_eq_none_iff.1 hd
    have hnone : c₁.closeAngle = none := by
      rw [Cursor.closeAngle_eq_none_iff]
      rcases hc.current hw with ⟨_, _, _, _, _, -, h, h₁⟩ | ⟨-, -, h₁ | h₁⟩
      · rw [h] at hne
        rwa [h₁]
      all_goals
        rw [h₁]
        exact ⟨nofun, nofun⟩
    rw [hnone]
    exact ⟨_, c₁, rfl⟩

/-! ## Repetition -/

section Repetition

theorem carried_collectWithin {step step' : Parse (Option α)} (hstep : Steps S r h step step') :
    ∀ (allowance' allowance : List Token) (c c₁ : Cursor), c.Within S c₁ → c.Lone →
      r.Holds c.ahead.length → c.ahead.length ≤ allowance'.length →
        allowance'.length ≤ allowance.length →
          Carried S (fun _ => False) (List.map h) c (collectWithin step allowance c₁)
            (collectWithin step' allowance' c)
  | [], allowance, c, c₁, hw, hc, hr, hl, _ => by
    have hlast : ∀ F F' : Option α → Parse (List α), F none = pure [] → F' none = pure [] →
        Carried S (fun _ => False) (List.map h) c ((step >>= F) c₁) ((step' >>= F') c) := by
      intro F F' hF hF'
      refine (hstep c c₁ hw hc (Cursor.sees_zero c) hr).bind fun o d d₁ hw hon hmoves => ?_
      cases o with
      | none =>
        rw [Option.map_none, hF, hF']
        exact ⟨⟨d₁, rfl, hw⟩, hon, False.elim⟩
      | some a => exact absurd (hmoves rfl) (by rw [Nat.le_zero.1 hl]; exact Nat.not_lt_zero _)
    cases allowance with
    | nil => exact hlast _ _ rfl rfl
    | cons t allowance => exact hlast _ _ rfl rfl
  | t' :: allowance', [], _, _, _, _, _, _, hl => by simp at hl
  | t' :: allowance', t :: allowance, c, c₁, hw, hc, hr, hl, hl' => by
    refine (hstep c c₁ hw hc (Cursor.sees_zero c) hr).bind fun o d d₁ hw hon hmoves => ?_
    cases o with
    | none => exact ⟨⟨d₁, rfl, hw⟩, hon, False.elim⟩
    | some a =>
      have hlt := hmoves rfl
      rw [List.length_cons] at hl
      have ih := carried_collectWithin hstep allowance' allowance d d₁ hw hon.lone
        (hr.mono hon.length_le) (by omega) (Nat.le_of_succ_le_succ hl')
      have hcons : Carried S (fun _ => False) (List.map h) d
          ((collectWithin step allowance >>= fun as => pure (h a :: as)) d₁)
          ((collectWithin step' allowance' >>= fun as => pure (a :: as)) d) :=
        ih.bind fun as e e₁ hw hon' _ => ⟨⟨e₁, rfl, hw⟩, hon', False.elim⟩
      exact hcons.behind hon fun _ hf => hf.elim

theorem Steps.collect {step step' : Parse (Option α)} (hstep : Steps S r h step step') :
    Carries S r (List.map h) (collect step) (collect step') := by
  intro c c₁ hw hc _ hr
  exact carried_collectWithin hstep c.ahead c₁.ahead c c₁ hw hc hr (Nat.le_refl _) hw.length_le

theorem carried_repeatWithin {step step' : α → Parse (Option α)}
    (hstep : ∀ a, Steps S r h (step (h a)) (step' a)) :
    ∀ (allowance' allowance : List Token) (a : α) (c c₁ : Cursor), c.Within S c₁ → c.Lone →
      r.Holds c.ahead.length → c.ahead.length ≤ allowance'.length →
        allowance'.length ≤ allowance.length →
          Carried S (fun _ => False) h c (repeatWithin step allowance (h a) c₁)
            (repeatWithin step' allowance' a c)
  | [], allowance, a, c, c₁, hw, hc, hr, hl, _ => by
    have hlast : ∀ F F' : Option α → Parse α, F none = pure (h a) → F' none = pure a →
        Carried S (fun _ => False) h c ((step (h a) >>= F) c₁) ((step' a >>= F') c) := by
      intro F F' hF hF'
      refine (hstep a c c₁ hw hc (Cursor.sees_zero c) hr).bind fun o d d₁ hw hon hmoves => ?_
      cases o with
      | none =>
        rw [Option.map_none, hF, hF']
        exact ⟨⟨d₁, rfl, hw⟩, hon, False.elim⟩
      | some b => exact absurd (hmoves rfl) (by rw [Nat.le_zero.1 hl]; exact Nat.not_lt_zero _)
    cases allowance with
    | nil => exact hlast _ _ rfl rfl
    | cons t allowance => exact hlast _ _ rfl rfl
  | t' :: allowance', [], _, _, _, _, _, _, _, hl => by simp at hl
  | t' :: allowance', t :: allowance, a, c, c₁, hw, hc, hr, hl, hl' => by
    refine (hstep a c c₁ hw hc (Cursor.sees_zero c) hr).bind fun o d d₁ hw hon hmoves => ?_
    cases o with
    | none => exact ⟨⟨d₁, rfl, hw⟩, hon, False.elim⟩
    | some b =>
      have hlt := hmoves rfl
      rw [List.length_cons] at hl
      exact (carried_repeatWithin hstep allowance' allowance b d d₁ hw hon.lone
        (hr.mono hon.length_le) (by omega) (Nat.le_of_succ_le_succ hl')).behind hon
          fun _ hf => hf.elim

theorem carries_repeatFrom {step step' : α → Parse (Option α)}
    (hstep : ∀ a, Steps S r h (step (h a)) (step' a)) (a : α) :
    Carries S r h (repeatFrom step (h a)) (repeatFrom step' a) := by
  intro c c₁ hw hc _ hr
  exact carried_repeatWithin hstep c.ahead c₁.ahead a c c₁ hw hc hr (Nat.le_refl _) hw.length_le

end Repetition

/-! ## Arrangements -/

section Arrangements

variable {item item' : Parse α}

theorem Carries.afterComma (hitem : Carries S r.inside h item item') :
    Steps S r h (afterComma item) (afterComma item') :=
  .takeSymbol .comma ⟨rfl, rfl, rfl⟩ (.next hitem fun _ => .pure rfl) .nothing

theorem Carries.commaList (hitem : Carries S r.inside h item item') :
    Carries S r.inside (List.map h) (commaList item) (commaList item') := by
  have hmore : Steps S r.inside h (Parse.afterComma item) (Parse.afterComma item') :=
    Carries.afterComma (r := r.inside) hitem
  exact .next hitem fun _ => .next hmore.collect fun _ => .pure rfl

theorem Carries.inParens (hitem : Carries S r.inside h item item') :
    CarriesFrom S 0 r moves h (inParens item) (inParens item') :=
  .expectSymbol .leftParen ⟨rfl, rfl, rfl⟩
    (.next hitem fun _ => .expectSymbol .rightParen ⟨rfl, rfl, rfl⟩ (.pure rfl))

theorem Carries.afterKeyword (w : Keyword) (hitem : Carries S r.inside h item item') :
    Steps S r h (afterKeyword w item) (afterKeyword w item') :=
  .takeKeyword w (.next hitem fun _ => .pure rfl) .nothing

end Arrangements

end Parse
end SqlTree
