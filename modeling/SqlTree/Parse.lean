import SqlTree.Cursor

/-! # Reading tokens

* `Fault`: what stops the grammar, with the token that it stops at.
* `Parse`: what reads tokens. It answers a value or a fault, and in either case leaves the place
  where it stopped.
* `takeSymbol`, `takeKeyword`, `expectSymbol`, `expectKeyword`, `closingAngle`: single tokens.
* `repeatFrom`, `collect`, `commaList`: repetition. A repetition ends because each round consumes a
  token, so the tokens ahead bound the number of rounds.

A text is read place by place, and what is read is reasoned about cursor by cursor. So a reader is
both, with the proof that the two come to the same.
-/

namespace SqlTree
set_option autoImplicit false

/-! ## Faults -/

/-- A number of a data type that has a greatest value. -/
inductive BoundedNumber where
  | length | precision | scale
  deriving DecidableEq, Repr

/-- The wording for a number that is too large. -/
def BoundedNumber.tooLarge : BoundedNumber → String
  | .length => "Length too large"
  | .precision => "Precision too large"
  | .scale => "Scale too large"

/-- Why the grammar stops at a token. -/
inductive Cause where
  /-- It is none of what the grammar goes on with. -/
  | expected (descriptions : List String)
  | tooLarge (number : BoundedNumber)
  /-- The grammar was entered more often than there are tokens. -/
  | tooDeep
  deriving DecidableEq, Repr

/-- What stops the grammar, and the token that was found there. -/
structure Fault where
  cause : Cause
  found : Token
  deriving DecidableEq, Repr

/-! ## Readers -/

/-- The same answer, or the same fault, at a cursor and at its place. -/
inductive SameResult {α : Type} :
    EStateM.Result Fault Cursor α → EStateM.Result Fault Place α → Prop where
  | ok (a : α) (c : Cursor) (h : c.EndsOnce) : SameResult (.ok a c) (.ok a c.place)
  | error (fault : Fault) (c : Cursor) (h : c.EndsOnce) :
    SameResult (.error fault c) (.error fault c.place)

/-- Reads tokens: a value or a fault, and where reading stopped. -/
@[ext] structure Parse (α : Type) where
  /-- What is read at a cursor. -/
  run : EStateM Fault Cursor α
  /-- What is read at a place. -/
  runAt : EStateM Fault Place α
  same : ∀ c, c.EndsOnce → SameResult (run c) (runAt c.place)

namespace Parse

variable {α β : Type}

instance : CoeFun (Parse α) fun _ => Cursor → EStateM.Result Fault Cursor α where
  coe := run

theorem same_bind {p : Parse α} {f : α → Parse β} {c : Cursor} (h : c.EndsOnce) :
    SameResult (EStateM.bind p.run (fun a => (f a).run) c)
      (EStateM.bind p.runAt (fun a => (f a).runAt) c.place) := by
  have hp := p.same c h
  unfold EStateM.bind
  generalize p.run c = r at hp
  generalize p.runAt c.place = r' at hp
  cases hp with
  | ok a d hd => exact (f a).same d hd
  | error fault d hd => exact .error fault d hd

instance : Monad Parse where
  pure a := ⟨EStateM.pure a, EStateM.pure a, fun c h => .ok a c h⟩
  bind p f := ⟨EStateM.bind p.run fun a => (f a).run, EStateM.bind p.runAt fun a => (f a).runAt,
    fun _ h => same_bind h⟩

instance : LawfulMonad Parse :=
  .mk' Parse
    (fun p => Parse.ext (bind_pure p.run) (bind_pure p.runAt))
    (fun _ _ => rfl)
    (fun p f g => Parse.ext (bind_assoc p.run (fun a => (f a).run) fun b => (g b).run)
      (bind_assoc p.runAt (fun a => (f a).runAt) fun b => (g b).runAt))

theorem bind_apply (p : Parse α) (f : α → Parse β) (c : Cursor) :
    (p >>= f) c = match p c with
      | .ok a d => f a d
      | .error fault d => .error fault d := by
  show EStateM.bind p.run (fun a => (f a).run) c = _
  unfold EStateM.bind
  cases p c <;> rfl

/-- Reads an answer off where it is, and goes somewhere. -/
def step (f : Cursor → α × Cursor) (g : Place → α × Place)
    (h : ∀ c, c.EndsOnce → (f c).2.EndsOnce ∧ g c.place = ((f c).1, (f c).2.place)) : Parse α where
  run c := .ok (f c).1 (f c).2
  runAt x := .ok (g x).1 (g x).2
  same c hc := by
    rw [(h c hc).2]
    exact .ok _ _ (h c hc).1

/-- Reads an answer off where it is, and stays there. -/
def look (f : Cursor → α) (g : Place → α) (h : ∀ c, c.EndsOnce → g c.place = f c) : Parse α :=
  step (fun c => (f c, c)) (fun x => (g x, x)) fun c hc => ⟨hc, by rw [h c hc]⟩

/-- Goes somewhere. -/
def move (f : Cursor → Cursor) (g : Place → Place)
    (h : ∀ c, c.EndsOnce → (f c).EndsOnce ∧ g c.place = (f c).place) : Parse Unit :=
  step (fun c => ((), f c)) (fun x => ((), g x)) fun c hc => ⟨(h c hc).1, by rw [(h c hc).2]⟩

/-- Stops at the token under the cursor. -/
def stop (cause : Cause) : Parse α where
  run c := .error ⟨cause, c.current⟩ c
  runAt x := .error ⟨cause, x.current⟩ x
  same c hc := by
    rw [c.place_current]
    exact .error _ c hc

/-- A reader that is not looked at before it reads. -/
def later (p : Unit → Parse α) : Parse α where
  run c := (p ()).run c
  runAt x := (p ()).runAt x
  same := (p ()).same

/-- The answer of `item`, or nothing where it stops; reading goes on from there. -/
def attempt (item : Parse α) : Parse (Option α) where
  run c :=
    match item.run c with
    | .ok a d => .ok (some a) d
    | .error _ d => .ok none d
  runAt x :=
    match item.runAt x with
    | .ok a y => .ok (some a) y
    | .error _ y => .ok none y
  same c hc := by
    have h := item.same c hc
    generalize item.run c = r at h
    generalize item.runAt c.place = r' at h
    cases h with
    | ok a d hd => exact .ok (some a) d hd
    | error fault d hd => exact .ok none d hd

theorem attempt_apply (item : Parse α) (c : Cursor) :
    attempt item c = match item c with
      | .ok a d => .ok (some a) d
      | .error _ d => .ok none d := rfl

/-! ## Where reading stops -/

/-- Where a result leaves off. -/
def leftAt {σ : Type} : EStateM.Result Fault σ α → σ
  | .ok _ x => x
  | .error _ x => x

theorem leftAt_same {r : EStateM.Result Fault Cursor α} {r' : EStateM.Result Fault Place α}
    (h : SameResult r r') : (leftAt r).EndsOnce ∧ leftAt r' = (leftAt r).place := by
  cases h with
  | ok a c hc => exact ⟨hc, rfl⟩
  | error fault c hc => exact ⟨hc, rfl⟩

/-- At a sound place a reader does what it does at the cursor there. -/
theorem sameResult_at (p : Parse α) {x : Place} (h : x.Sound) :
    SameResult (p.run x.cursor) (p.runAt x) := by
  have hsame := p.same x.cursor h.endsOnce
  rwa [h.place_cursor] at hsame

/-- A reader that starts at a sound place leaves off at one. -/
theorem sound_leftAt (p : Parse α) {x : Place} (h : x.Sound) : (leftAt (p.runAt x)).Sound := by
  obtain ⟨hends, hplace⟩ := leftAt_same (p.sameResult_at h)
  rw [hplace]
  exact Cursor.sound_place_iff.2 hends

/-! ## Single tokens -/

/-- Stops where none of what could go on stands. -/
def fail (descriptions : List String) : Parse α :=
  stop (.expected descriptions)

/-- The token under the cursor. -/
def current : Parse Token :=
  look Cursor.current Place.current fun c _ => c.place_current

/-- The kind of the token `n` places ahead. -/
def peek (n : Nat) : Parse TokenKind :=
  look (Cursor.peek · n) (Place.peek · n) fun _ h => Cursor.place_peek h n

/-- The tokens ahead. -/
def ahead : Parse (List Token) :=
  look Cursor.ahead Place.ahead fun c _ => c.place_ahead

/-- How many tokens are behind. -/
def position : Parse Nat :=
  look Cursor.position Place.position fun _ _ => rfl

theorem current_apply (c : Cursor) : current c = .ok c.current c := rfl

theorem ahead_apply (c : Cursor) : ahead c = .ok c.ahead c := rfl

theorem position_apply (c : Cursor) : position c = .ok c.position c := rfl

/-- Goes behind the token under the cursor. -/
def advance : Parse Unit :=
  move Cursor.advance Place.advance fun _ h => ⟨h.advance, Cursor.place_advance h⟩

theorem advance_apply (c : Cursor) : advance c = .ok () c.advance := rfl

/-- Goes back to where `n` tokens were behind. -/
def goBack (n : Nat) : Parse Unit :=
  move (Cursor.goBack · n) (Place.goBack · n) fun c h => ⟨h.goBack n, c.place_goBack n⟩

/-- Goes behind the tokens up to the next semicolon, and tells them. -/
def skipStatement : Parse (List Token) :=
  step Cursor.skipStatement Place.skipStatement fun _ h =>
    ⟨h.skipStatement, Cursor.place_skipStatement h⟩

/-- Whether a symbol stands `n` places ahead. -/
def symbolAt (n : Nat) (s : Symbol) : Parse Bool := do
  return (← peek n) == .symbol s

/-- Whether a keyword stands `n` places ahead. -/
def keywordAt (n : Nat) (k : Keyword) : Parse Bool := do
  return (← peek n) == .keyword k

/-- Whether one of the keywords stands `n` places ahead. -/
def anyKeywordAt (n : Nat) (ks : List Keyword) : Parse Bool := do
  return (← peek n).keyword?.any ks.contains

/-- Whether the word that begins a query stands `n` places ahead. -/
def queryAt (n : Nat) : Parse Bool :=
  anyKeywordAt n [.SELECT, .WITH]

/-- Whether a semicolon or the end of the text is `n` places ahead. -/
def statementEndAt (n : Nat) : Parse Bool := do
  let kind ← peek n
  return kind == .symbol .semicolon || kind == .endOfInput

/-- Goes behind a symbol if it is under the cursor, and tells whether it was. -/
def takeSymbol (s : Symbol) : Parse Bool := do
  if ← symbolAt 0 s then
    advance
    return true
  else return false

/-- Goes behind a keyword if it is under the cursor, and tells whether it was. -/
def takeKeyword (k : Keyword) : Parse Bool := do
  if ← keywordAt 0 k then
    advance
    return true
  else return false

/-- Goes behind a symbol that must be under the cursor. -/
def expectSymbol (s : Symbol) : Parse Unit := do
  if ← takeSymbol s then return () else fail [s.text]

/-- Goes behind a keyword that must be under the cursor. -/
def expectKeyword (k : Keyword) : Parse Unit := do
  if ← takeKeyword k then return () else fail [k.text]

/-- Goes behind a closing angle if one is under the cursor, and tells whether one was. -/
def takeAngle : Parse Bool :=
  step (fun c => (c.closeAngle.isSome, c.closeAngle.getD c))
    (fun x => (x.closeAngle.isSome, x.closeAngle.getD x)) fun c h => by
      rw [Cursor.place_closeAngle h]
      cases hd : c.closeAngle with
      | none => exact ⟨h, rfl⟩
      | some d => exact ⟨h.closeAngle hd, rfl⟩

theorem takeAngle_apply (c : Cursor) :
    takeAngle c = match c.closeAngle with
      | some d => .ok true d
      | none => .ok false c := by
  show EStateM.Result.ok c.closeAngle.isSome (c.closeAngle.getD c) = _
  cases c.closeAngle <;> rfl

/-- Goes behind a closing angle. Of two closing angles read as one token the first is taken, and
the second is left as a token of its own. -/
def closingAngle : Parse Unit := do
  if ← takeAngle then return () else fail [Symbol.greater.text]

theorem closingAngle_apply (c : Cursor) :
    closingAngle c = match c.closeAngle with
      | some d => .ok () d
      | none => fail [Symbol.greater.text] c := by
  rw [closingAngle, bind_apply, takeAngle_apply]
  cases c.closeAngle <;> rfl

/-- A closing angle is taken. Of two in one token the first is taken, and the second is left. -/
theorem closingAngle_cases (c : Cursor) :
    (c.current.kind = .symbol .greater ∧ closingAngle c = .ok () c.advance) ∨
    (c.ahead = [] ∧ c.ending.kind = .symbol .shiftRight ∧ closingAngle c = .ok () c) ∨
    (∃ t ts, c.ahead = t :: ts ∧ t.kind = .symbol .shiftRight ∧
      closingAngle c = .ok () { c with ahead := t.secondHalf :: ts }) ∨
    closingAngle c = fail [Symbol.greater.text] c := by
  rw [closingAngle_apply]
  rcases c.closeAngle_cases with ⟨hk, h⟩ | ⟨ha, hk, h⟩ | ⟨t, ts, ha, hk, h⟩ | h
  · exact .inl ⟨hk, by rw [h]⟩
  · exact .inr (.inl ⟨ha, hk, by rw [h]⟩)
  · exact .inr (.inr (.inl ⟨t, ts, ha, hk, by rw [h]⟩))
  · exact .inr (.inr (.inr (by rw [h])))

/-- The number of the question mark that was just read. -/
def nextPlaceholder : Parse Nat :=
  step (fun c => (c.count.placeholders, c.count)) (fun x => (x.count.placeholders, x.count))
    fun _ h => ⟨h.count, rfl⟩

/-! ## Repetition

The tokens ahead at the start are the allowance of a repetition: it cannot go through more rounds
than there are tokens, since every round but the last consumes one. -/

/-- Applies `step` to its own answers until it has none, one round for each token allowed. -/
def repeatWithin (step : α → Parse (Option α)) : List Token → α → Parse α
  | [], a => do
    match ← step a with
    | none => return a
    | some _ => stop .tooDeep
  | _ :: allowance, a => do
    match ← step a with
    | none => return a
    | some b => repeatWithin step allowance b

/-- Applies `step` to its own answers, from `a` on, until it has none. -/
def repeatFrom (step : α → Parse (Option α)) (a : α) : Parse α := do
  repeatWithin step (← ahead) a

/-- The answers of `step` until it has none, one for each token allowed. -/
def collectWithin (step : Parse (Option α)) : List Token → Parse (List α)
  | [] => do
    match ← step with
    | none => return []
    | some _ => stop .tooDeep
  | _ :: allowance => do
    match ← step with
    | none => return []
    | some a => return a :: (← collectWithin step allowance)

/-- The answers of `step` until it has none. -/
def collect (step : Parse (Option α)) : Parse (List α) := do
  collectWithin step (← ahead)

/-- An item behind a comma, if there is a comma. -/
def afterComma (item : Parse α) : Parse (Option α) := do
  if ← takeSymbol .comma then return some (← item) else return none

/-- One or more items with a comma between each two. -/
def commaList (item : Parse α) : Parse (List α) := do
  return (← item) :: (← collect (afterComma item))

/-- An item in parentheses. -/
def inParens (item : Parse α) : Parse α := do
  expectSymbol .leftParen
  let a ← item
  expectSymbol .rightParen
  return a

/-- An item behind a keyword, if the keyword is there. -/
def afterKeyword (k : Keyword) (item : Parse α) : Parse (Option α) := do
  if ← takeKeyword k then return some (← item) else return none

end Parse

end SqlTree
