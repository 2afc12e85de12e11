import SqlTree.Place

/-! # Cursors

* `Cursor`: a place among the tokens of a text, told by the tokens behind it and ahead of it.
* `Cursor.current`, `Cursor.peek`: what stands there and further ahead.
* `Cursor.advance`, `Cursor.closeAngle`, `Cursor.skipStatement`, `Cursor.goBack`, `Cursor.count`:
  where reading goes from there.
* `Cursor.place`, `Place.cursor`: the place that a cursor is, and the cursor at a place.

Where only the last token is the end of the text, a cursor does what its place does.
-/

namespace SqlTree
set_option autoImplicit false

/-- A place among the tokens of a text: those behind it, nearest first, those ahead of it, and what
stands behind the last one. -/
structure Cursor where
  behind : List Token := []
  ahead : List Token
  ending : Token
  /-- The number of question marks met so far. -/
  placeholders : Nat := 0
  deriving DecidableEq, Repr

namespace Cursor

/-- The cursor in front of all tokens of a text. -/
def ofLexed (l : Lexed) : Cursor :=
  { ahead := l.tokens, ending := l.ending }

/-- All tokens, with what stands behind the last one. -/
def tokens (c : Cursor) : List Token :=
  c.behind.reverse ++ c.ahead ++ [c.ending]

/-- How many tokens are behind a cursor. -/
def position (c : Cursor) : Nat :=
  c.behind.length

/-- The token under the cursor. -/
def current (c : Cursor) : Token :=
  c.ahead.headD c.ending

/-- The kind of the token `n` places ahead of the one under the cursor. -/
def peek (c : Cursor) (n : Nat) : TokenKind :=
  match c.ahead[n]? with
  | some token => token.kind
  | none => .endOfInput

/-- The cursor behind the token under it. Behind the last token it stays. -/
def advance (c : Cursor) : Cursor :=
  match c.ahead with
  | [] => c
  | token :: rest => { c with behind := token :: c.behind, ahead := rest }

/-- The cursor behind a closing angle. Of two closing angles read as one token the first is taken,
and the second is left as a token of its own. -/
def closeAngle (c : Cursor) : Option Cursor :=
  match c.current.kind with
  | .symbol .greater => some c.advance
  | .symbol .shiftRight =>
    match c.ahead with
    | [] => some c
    | token :: rest => some { c with ahead := token.secondHalf :: rest }
  | _ => none

/-- A closing angle is taken. Of two in one token the first is taken, and the second is left. -/
theorem closeAngle_cases (c : Cursor) :
    (c.current.kind = .symbol .greater ∧ c.closeAngle = some c.advance) ∨
    (c.ahead = [] ∧ c.ending.kind = .symbol .shiftRight ∧ c.closeAngle = some c) ∨
    (∃ t ts, c.ahead = t :: ts ∧ t.kind = .symbol .shiftRight ∧
      c.closeAngle = some { c with ahead := t.secondHalf :: ts }) ∨
    c.closeAngle = none := by
  unfold closeAngle
  split
  · next hk => exact .inl ⟨hk, rfl⟩
  · next hk =>
    obtain ⟨behind, ahead, ending, n⟩ := c
    cases ahead with
    | nil => exact .inr (.inl ⟨rfl, hk, rfl⟩)
    | cons t ts => exact .inr (.inr (.inl ⟨t, ts, rfl, hk, rfl⟩))
  · exact .inr (.inr (.inr rfl))

theorem closeAngle_eq_none_iff (c : Cursor) : c.closeAngle = none ↔
    c.current.kind ≠ .symbol .greater ∧ c.current.kind ≠ .symbol .shiftRight := by
  unfold closeAngle
  split
  · next hk => simp [hk]
  · next hk => cases c.ahead <;> simp [hk]
  · next hne hne' => exact ⟨fun _ => ⟨hne, hne'⟩, fun _ => rfl⟩

theorem closeAngle_of_greater {c : Cursor} (h : c.current.kind = .symbol .greater) :
    c.closeAngle = some c.advance := by
  rw [closeAngle, h]

theorem closeAngle_of_shiftRight {c : Cursor} {t : Token} {ts : List Token} (ha : c.ahead = t :: ts)
    (hk : t.kind = .symbol .shiftRight) :
    c.closeAngle = some { c with ahead := t.secondHalf :: ts } := by
  rw [closeAngle, current, ha, List.headD_cons, hk]

/-- The cursor behind the tokens up to the next semicolon, and those tokens. -/
def skipStatement (c : Cursor) : List Token × Cursor :=
  let isInside (t : Token) : Bool := t.kind != .symbol .semicolon
  let skipped := c.ahead.takeWhile isInside
  (skipped, { c with behind := skipped.reverse ++ c.behind, ahead := c.ahead.dropWhile isInside })

/-- The cursor with `n` tokens behind it, if it has passed that place. -/
def goBack (c : Cursor) (n : Nat) : Cursor :=
  let passed := c.behind.length - n
  { c with behind := c.behind.drop passed, ahead := (c.behind.take passed).reverse ++ c.ahead }

/-- The cursor with one more question mark met. -/
def count (c : Cursor) : Cursor :=
  { c with placeholders := c.placeholders + 1 }

/-! ## Cursors and places -/

/-- The place that a cursor is. -/
def place (c : Cursor) : Place :=
  ⟨c.tokens.toArray, c.position, c.placeholders⟩

/-- Only what stands behind the last token is the end of the text. -/
structure EndsOnce (c : Cursor) : Prop where
  ending : c.ending.kind = .endOfInput
  behind : ∀ t ∈ c.behind, t.kind ≠ .endOfInput
  ahead : ∀ t ∈ c.ahead, t.kind ≠ .endOfInput

end Cursor

/-- The cursor at a place. -/
def Place.cursor (x : Place) : Cursor where
  behind := (x.tokens.toList.take x.position).reverse
  ahead := x.ahead
  ending := x.tokens.back?.getD .outside
  placeholders := x.placeholders

namespace Cursor

variable {c : Cursor}

theorem tokens_eq (c : Cursor) : c.tokens = c.behind.reverse ++ (c.ahead ++ [c.ending]) :=
  List.append_assoc ..

theorem drop_position (c : Cursor) : c.tokens.drop c.position = c.ahead ++ [c.ending] := by
  rw [tokens_eq, position, ← List.length_reverse, List.drop_left]

theorem getElem?_position_add (c : Cursor) (n : Nat) :
    c.tokens[c.position + n]? = (c.ahead ++ [c.ending])[n]? := by
  rw [← List.getElem?_drop, drop_position]

theorem getElem?_position (c : Cursor) : c.tokens[c.position]? = some c.current := by
  have h := c.getElem?_position_add 0
  rw [Nat.add_zero] at h
  rw [h, current]
  cases c.ahead <;> rfl

theorem place_current (c : Cursor) : c.place.current = c.current := by
  rw [Place.current, place, List.getElem?_toArray, getElem?_position]
  rfl

theorem place_ahead (c : Cursor) : c.place.ahead = c.ahead := by
  rw [Place.ahead, place, drop_position, List.dropLast_concat]

theorem place_cursor (c : Cursor) : c.place.cursor = c := by
  have hbehind : (c.tokens.take c.position).reverse = c.behind := by
    rw [tokens_eq, position, ← List.length_reverse, List.take_left, List.reverse_reverse]
  have hending : c.tokens.toArray.back?.getD .outside = c.ending := by
    rw [List.back?_toArray, tokens, List.getLast?_concat]
    rfl
  rw [Place.cursor, place_ahead, place, hbehind, hending]

/-! ## What a cursor and its place do -/

theorem place_peek (h : c.EndsOnce) (n : Nat) : c.place.peek n = c.peek n := by
  rw [Place.peek, place, List.getElem?_toArray, getElem?_position_add, peek]
  rcases Nat.lt_trichotomy n c.ahead.length with hn | rfl | hn
  · rw [List.getElem?_append_left hn, List.getElem?_eq_getElem hn]
    rfl
  · rw [List.getElem?_concat_length, List.getElem?_eq_none (Nat.le_refl _)]
    exact h.ending
  · rw [List.getElem?_eq_none (by simpa using Nat.succ_le_of_lt hn),
      List.getElem?_eq_none (Nat.le_of_lt hn)]
    rfl

theorem EndsOnce.kind_eq (h : c.EndsOnce) : c.current.kind = .endOfInput ↔ c.ahead = [] := by
  rw [current]
  cases ha : c.ahead with
  | nil => exact ⟨fun _ => rfl, fun _ => h.ending⟩
  | cons t ts =>
    have ht := h.ahead t (by rw [ha]; exact List.mem_cons_self)
    exact ⟨fun he => absurd he ht, nofun⟩

theorem place_advance (h : c.EndsOnce) : c.place.advance = c.advance.place := by
  rw [Place.advance, place_current, advance]
  obtain ⟨behind, ahead, ending, n⟩ := c
  cases ahead with
  | nil => rw [if_pos (h.kind_eq.2 rfl)]
  | cons t ts =>
    rw [if_neg fun he => nomatch h.kind_eq.1 he]
    simp [place, tokens, position]

theorem EndsOnce.advance (h : c.EndsOnce) : c.advance.EndsOnce := by
  obtain ⟨behind, ahead, ending, n⟩ := c
  cases ahead with
  | nil => exact h
  | cons t ts =>
    have hahead := List.forall_mem_cons.1 h.ahead
    exact ⟨h.ending, List.forall_mem_cons.2 ⟨hahead.1, h.behind⟩, hahead.2⟩

theorem place_closeAngle (h : c.EndsOnce) : c.place.closeAngle = c.closeAngle.map place := by
  rw [Place.closeAngle, place_current, closeAngle]
  cases hk : c.current.kind with
  | symbol s =>
    cases s with
    | greater => exact congrArg some (place_advance h)
    | shiftRight =>
      have hne : c.ahead ≠ [] := fun he => by simp [h.kind_eq.2 he] at hk
      obtain ⟨behind, ahead, ending, n⟩ := c
      cases ahead with
      | nil => exact absurd rfl hne
      | cons t ts => simp [place, tokens, position, current]
    | _ => rfl
  | _ => rfl

theorem EndsOnce.closeAngle (h : c.EndsOnce) {d : Cursor} (hd : c.closeAngle = some d) :
    d.EndsOnce := by
  obtain ⟨behind, ahead, ending, n⟩ := c
  unfold Cursor.closeAngle at hd
  split at hd
  · exact Option.some.inj hd ▸ h.advance
  · cases ahead with
    | nil => exact Option.some.inj hd ▸ h
    | cons t ts =>
      rw [← Option.some.inj hd]
      exact ⟨h.ending, h.behind, List.forall_mem_cons.2 ⟨nofun, (List.forall_mem_cons.1 h.ahead).2⟩⟩
  · cases hd

theorem place_skipStatement (h : c.EndsOnce) :
    c.place.skipStatement = (c.skipStatement.1, c.skipStatement.2.place) := by
  obtain ⟨behind, ahead, ending, n⟩ := c
  induction ahead generalizing behind with
  | nil =>
    have hend : (⟨behind, [], ending, n⟩ : Cursor).place.atStatementEnd = true := by
      rw [Place.atStatementEnd, place_current, h.kind_eq.2 rfl]
      rfl
    rw [Place.skipStatement, dif_pos hend]
    rfl
  | cons t ts ih =>
    have ht := (List.forall_mem_cons.1 h.ahead).1
    have hadvance := place_advance h
    have hcurrent := place_current ⟨behind, t :: ts, ending, n⟩
    rw [Place.skipStatement]
    by_cases hs : t.kind = .symbol .semicolon
    · rw [dif_pos (by rw [Place.atStatementEnd, hcurrent]; simp [current, hs])]
      simp [Cursor.skipStatement, hs]
    · rw [dif_neg (by rw [Place.atStatementEnd, hcurrent]; simp [current, hs, ht])]
      rw [hadvance, hcurrent]
      dsimp only
      have hstep := ih (t :: behind) h.advance
      rw [advance]
      dsimp only
      rw [hstep]
      simp [Cursor.skipStatement, hs, current]

theorem EndsOnce.skipStatement (h : c.EndsOnce) : c.skipStatement.2.EndsOnce := by
  refine ⟨h.ending, fun t ht => ?_, fun t ht => h.ahead t ((List.dropWhile_suffix _).subset ht)⟩
  rcases List.mem_append.1 ht with ht | ht
  · exact h.ahead t ((List.takeWhile_prefix _).subset (List.mem_reverse.1 ht))
  · exact h.behind t ht

theorem place_goBack (c : Cursor) (n : Nat) : c.place.goBack n = (c.goBack n).place := by
  have htokens : (c.goBack n).tokens = c.tokens := by
    rw [tokens, tokens, goBack]
    dsimp only
    rw [← List.append_assoc, ← List.reverse_append, List.take_append_drop]
  have hposition : (c.goBack n).position = min n c.position := by
    simp only [goBack, position, List.length_drop]
    omega
  rw [place, place, htokens, hposition]
  rfl

theorem EndsOnce.goBack (h : c.EndsOnce) (n : Nat) : (c.goBack n).EndsOnce := by
  refine ⟨h.ending, fun t ht => h.behind t (List.mem_of_mem_drop ht), fun t ht => ?_⟩
  rcases List.mem_append.1 ht with ht | ht
  · exact h.behind t (List.mem_of_mem_take (List.mem_reverse.1 ht))
  · exact h.ahead t ht

theorem EndsOnce.count (h : c.EndsOnce) : c.count.EndsOnce :=
  ⟨h.ending, h.behind, h.ahead⟩

/-! ## Sound places -/

theorem sound_place_iff : c.place.Sound ↔ c.EndsOnce := by
  have hothers : ∀ t, t ∈ c.place.tokens.pop ↔ t ∈ c.behind ∨ t ∈ c.ahead := by
    simp [place, tokens]
  have hending : c.place.tokens.back? = some c.ending := by
    simp [place, tokens]
  constructor
  · intro h
    exact ⟨h.ending _ hending, fun t ht => h.others t ((hothers t).2 (.inl ht)),
      fun t ht => h.others t ((hothers t).2 (.inr ht))⟩
  · intro h
    refine ⟨?_, fun t ht => ?_, fun t ht => ?_⟩
    · simp only [place, tokens, position, List.size_toArray, List.length_append, List.length_reverse,
        List.length_singleton]
      omega
    · rw [hending] at ht
      exact Option.some.inj ht ▸ h.ending
    · exact ((hothers t).1 ht).elim (h.behind t) (h.ahead t)

theorem place_ofLexed (l : Lexed) : (ofLexed l).place = .ofLexed l := rfl

theorem cursor_ofLexed (l : Lexed) : (Place.ofLexed l).cursor = ofLexed l := by
  rw [← place_ofLexed, place_cursor]

end Cursor

namespace Place

variable {x : Place}

theorem sound_ofLexed {l : Lexed} (hothers : ∀ t ∈ l.tokens, t.kind ≠ .endOfInput)
    (hending : l.ending.kind = .endOfInput) : (ofLexed l).Sound :=
  Cursor.place_ofLexed l ▸ Cursor.sound_place_iff.2 ⟨hending, List.forall_mem_nil _, hothers⟩

/-- A sound place is the one of the cursor at it. -/
theorem Sound.place_cursor (h : x.Sound) : x.cursor.place = x := by
  obtain ⟨⟨tokens⟩, position, n⟩ := x
  have hlt : position < tokens.length := h.position_lt
  have hne : tokens.drop position ≠ [] := by simpa using hlt
  have hlast : tokens.getLast?.getD .outside = (tokens.drop position).getLast hne := by
    rw [List.getLast_drop, List.getLast?_eq_some_getLast (List.ne_nil_of_length_pos (by omega))]
    rfl
  have htokens : (cursor ⟨⟨tokens⟩, position, n⟩).tokens = tokens := by
    rw [Cursor.tokens_eq]
    simp only [cursor, ahead, List.reverse_reverse, List.back?_toArray, hlast,
      List.dropLast_concat_getLast, List.take_append_drop]
  have hposition : (cursor ⟨⟨tokens⟩, position, n⟩).position = position := by
    simp only [Cursor.position, cursor, List.length_reverse, List.length_take]
    omega
  rw [Cursor.place, htokens, hposition]
  rfl

theorem Sound.endsOnce (h : x.Sound) : x.cursor.EndsOnce :=
  Cursor.sound_place_iff.1 (by rw [h.place_cursor]; exact h)

end Place

end SqlTree
