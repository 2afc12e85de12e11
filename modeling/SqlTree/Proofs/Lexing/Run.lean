import Mathlib
import SqlTree.Token.Lexer

/-! # A lexer going through a text

* `Trivia.Fills gap rest`: in front of `rest` the characters `gap` are blanks and whole comments.
* `Lexer.after n l`: the lexer behind the first `n` answers.
* `Lexer.Within cs l`: a lexer that stands in the text `cs`, at the position of what is behind it.
* `steps_cover`: the answers of a lexer cover the text in order, with nothing but blanks and whole
  comments between them, faults included, and every position is that of its offset.
-/

namespace SqlTree
set_option autoImplicit false

open Text

/-! ## Blanks and whole comments -/

/-- In front of `rest` the characters are blanks and whole comments. A comment of one line goes on
to the end of the line or of the text, and the inside of any other one does not hold its end. -/
inductive Trivia.Fills : List Char → List Char → Prop where
  | nil (rest : List Char) : Fills [] rest
  | blank {c : Char} {gap rest : List Char} (hc : isBlank c = true) (h : Fills gap rest) :
      Fills (c :: gap) rest
  | line {inside gap rest : List Char} (hi : '\n' ∉ inside)
      (he : ∀ c ∈ (gap ++ rest).head?, c = '\n') (h : Fills gap rest) :
      Fills ('-' :: '-' :: inside ++ gap) rest
  | block {inside gap rest : List Char} (hi : ¬['*', '/'] <:+: inside ++ ['*'])
      (h : Fills gap rest) : Fills ('/' :: '*' :: inside ++ '*' :: '/' :: gap) rest

theorem Trivia.Fills.blanks {blanks gap rest : List Char} (hb : ∀ c ∈ blanks, isBlank c = true)
    (h : Fills gap rest) : Fills (blanks ++ gap) rest := by
  induction blanks with
  | nil => exact h
  | cons c blanks ih =>
    have hc := hb c (by simp)
    exact .blank hc (ih fun d hd => hb d (by simp [hd]))

theorem Trivia.closeComment_inside {cs inside rest : List Char}
    (h : closeComment cs = some (inside, rest)) : ¬['*', '/'] <:+: inside ++ ['*'] := by
  fun_induction closeComment cs generalizing inside rest with
  | case1 => simp at h
  | case2 cs =>
    obtain ⟨rfl, -⟩ : [] = inside ∧ cs = rest := by simpa using h
    intro hi
    exact absurd hi.length_le (by simp)
  | case3 c cs hne ih =>
    obtain ⟨⟨a, b⟩, hab, he⟩ := Option.map_eq_some_iff.1 h
    obtain ⟨rfl, rfl⟩ := Prod.mk.inj he
    rw [List.cons_append, List.infix_cons_iff]
    rintro (hp | hi)
    · -- An end mark here would have closed the comment.
      rw [List.cons_prefix_cons] at hp
      obtain ⟨rfl, hp⟩ := hp
      rw [closeComment_append hab] at hne
      cases a with
      | nil => simp [List.cons_prefix_cons] at hp
      | cons d a =>
        rw [List.cons_append, List.cons_prefix_cons] at hp
        obtain ⟨rfl, -⟩ := hp
        exact hne _ rfl rfl
    · exact ih hab hi

theorem Trivia.fills_skip (cs : List Char) : Fills (skip cs).1 (skip cs).2 := by
  have hb : ∀ cs : List Char, ∀ c ∈ cs.takeWhile isBlank, isBlank c = true :=
    fun cs c hc => List.mem_takeWhile_imp hc
  fun_induction skip cs with
  | case1 cs blanks more h line r ih =>
    have hl : '\n' ∉ line := fun hm => by simpa using List.mem_takeWhile_imp hm
    have hn : ∀ c ∈ (r.1 ++ r.2).head?, c = '\n' := by
      intro c hc
      rw [skip_append] at hc
      have hd := List.head?_dropWhile_not (· != '\n') more
      rw [Option.mem_def.1 hc] at hd
      simpa using hd
    rw [List.append_assoc]
    exact (Fills.line hl hn ih).blanks (hb cs)
  | case2 cs blanks more h inside after h' r ih =>
    rw [List.append_assoc]
    exact (Fills.block (closeComment_inside h') ih).blanks (hb cs)
  | case3 cs blanks more h h' =>
    have hf := (Fills.nil ('/' :: '*' :: more)).blanks (hb cs)
    rwa [List.append_nil] at hf
  | case4 cs blanks =>
    have hf := (Fills.nil (cs.dropWhile isBlank)).blanks (hb cs)
    rwa [List.append_nil] at hf

/-! ## Locations -/

theorem walk_of_le {offset position : Nat} (h : offset ≤ position) (l : Location)
    (cs : List Char) : Location.walk offset l position cs = l := by
  cases cs with
  | nil => rfl
  | cons c cs => rw [Location.walk, if_pos h]

theorem walk_append (p : Position) (before rest : List Char) :
    Location.walk (p.advance before).offset p.location p.offset (before ++ rest) =
      (p.advance before).location := by
  induction before generalizing p with
  | nil => exact walk_of_le (Nat.le_refl _) _ _
  | cons c before ih =>
    have ha : p.advance (c :: before) = (p.next c).advance before := rfl
    have hlt : p.offset < (p.advance (c :: before)).offset := by
      rw [Position.offset_advance, byteLength]
      have := c.utf8Size_pos
      omega
    rw [List.cons_append, Location.walk, if_neg (Nat.not_le.2 hlt), ha]
    exact ih (p.next c)

/-- The location kept while reading is the one found by walking the text. -/
theorem ofOffset_advance (before rest : List Char) :
    Location.ofOffset (before ++ rest) (Position.advance {} before).offset =
      (Position.advance {} before).location :=
  walk_append {} before rest

theorem byteLength_pos {cs : List Char} (h : cs ≠ []) : 0 < byteLength cs := by
  cases cs with
  | nil => contradiction
  | cons c cs =>
    have := c.utf8Size_pos
    rw [byteLength]
    omega

/-- A text is cut at an offset in one way. -/
theorem append_inj_of_byteLength {a b x y : List Char} (h : a ++ x = b ++ y)
    (hl : byteLength a = byteLength b) : a = b ∧ x = y := by
  have hnil : ∀ z : List Char, byteLength z = 0 → z = [] := by
    intro z hz
    by_contra hne
    exact absurd hz (byteLength_pos hne).ne'
  rcases List.append_eq_append_iff.1 h with ⟨z, rfl, rfl⟩ | ⟨z, rfl, rfl⟩
  · rw [byteLength_append] at hl
    obtain rfl := hnil z (by omega)
    exact ⟨(List.append_nil a).symm, rfl⟩
  · rw [byteLength_append] at hl
    obtain rfl := hnil z (by omega)
    exact ⟨List.append_nil b, rfl⟩

/-! ## Answers and lexers -/

/-- The bytes that an answer is about. -/
def answerSpan : Except LexError Token → Span
  | .ok token => token.span
  | .error e => e.span

/-- Both ends of a span fall between characters of a text. -/
def Span.Cuts (s : Span) (cs : List Char) : Prop :=
  ∃ before inside rest, cs = before ++ (inside ++ rest) ∧ s.start = byteLength before ∧
    s.stop = byteLength (before ++ inside)

/-- What a text holds from the end of one span to the start of another is blanks and whole
comments. -/
def GapBetween (cs : List Char) (s t : Span) : Prop :=
  ∃ before gap rest, cs = before ++ (gap ++ rest) ∧ s.stop = byteLength before ∧
    t.start = byteLength (before ++ gap) ∧ Trivia.Fills gap rest

namespace Lexer

/-- The lexer behind the first `n` answers. -/
def after : Nat → Lexer → Lexer
  | 0, l => l
  | n + 1, l => after n l.next.2

/-- A lexer in a text, at the position of what is behind it. -/
def Within (cs : List Char) (l : Lexer) : Prop :=
  ∃ before, cs = before ++ l.rest ∧ l.position = Position.advance {} before

variable {cs : List Char} {l : Lexer}

theorem within_ofText (text : String) (dq : Bool) : Within text.toList (ofText text dq) :=
  ⟨[], rfl, rfl⟩

/-- An answer, the gap in front of it and the characters it takes. -/
theorem next_spec (h : Within cs l) : ∃ before gap inside rest,
    cs = before ++ (gap ++ (inside ++ rest)) ∧ Trivia.Fills gap (inside ++ rest) ∧
      l.position = Position.advance {} before ∧ l.rest = gap ++ (inside ++ rest) ∧
      l.next.2 = ⟨l.doubleQuotedStrings, rest, Position.advance {} (before ++ gap ++ inside)⟩ ∧
      answerSpan l.next.1 =
        ⟨byteLength (before ++ gap), byteLength (before ++ gap ++ inside)⟩ ∧
      ∀ e, l.next.1 = .error e → e.location = (Position.advance {} (before ++ gap)).location := by
  obtain ⟨before, hcs, hp⟩ := h
  have hskip := Trivia.skip_append l.rest
  have hscan := scanToken_append l.doubleQuotedStrings (Trivia.skip l.rest).2
  have hoffset : ∀ a, (Position.advance {} a).offset = byteLength a := fun a => by
    rw [Position.offset_advance, Nat.zero_add]
  refine ⟨before, (Trivia.skip l.rest).1,
    (scanToken l.doubleQuotedStrings (Trivia.skip l.rest).2).taken,
    (scanToken l.doubleQuotedStrings (Trivia.skip l.rest).2).rest, ?_, ?_, hp, ?_, ?_, ?_, ?_⟩
  · rw [hscan, hskip, hcs]
  · rw [hscan]
    exact Trivia.fills_skip l.rest
  · rw [hscan, hskip]
  · simp only [next, hp, ← Position.advance_append]
  · simp only [next, hp, ← Position.advance_append, hoffset]
    split
    · rfl
    · rfl
  · intro e he
    simp only [next, hp, ← Position.advance_append] at he
    split at he
    · simp at he
    · rw [← Except.error.inj he]

/-- Where an answer begins, the text goes on with what the lexer has in front of it behind blanks and
comments. -/
theorem Within.skip_of_start (h : Within cs l) {before rest : List Char} (hcs : cs = before ++ rest)
    (hs : (answerSpan l.next.1).start = byteLength before) :
    (l.position.advance (Trivia.skip l.rest).1).offset = byteLength before ∧
      (Trivia.skip l.rest).2 = rest := by
  obtain ⟨seen, hseen, hp⟩ := h
  have hstart : (l.position.advance (Trivia.skip l.rest).1).offset =
      byteLength (seen ++ (Trivia.skip l.rest).1) := by
    rw [hp, ← Position.advance_append, Position.offset_advance, Nat.zero_add]
  have hspan : (answerSpan l.next.1).start =
      (l.position.advance (Trivia.skip l.rest).1).offset := by
    simp only [Lexer.next]
    split <;> rfl
  have hbefore : (l.position.advance (Trivia.skip l.rest).1).offset = byteLength before :=
    hspan.symm.trans hs
  refine ⟨hbefore, (append_inj_of_byteLength ?_ (hstart.symm.trans hbefore)).2⟩
  rw [List.append_assoc, Trivia.skip_append, ← hseen, hcs]

theorem Within.next (h : Within cs l) : Within cs l.next.2 := by
  obtain ⟨before, gap, inside, rest, hcs, -, -, -, hn, -, -⟩ := next_spec h
  refine ⟨before ++ gap ++ inside, ?_, ?_⟩
  · rw [hn, hcs]
    simp only [List.append_assoc]
  · rw [hn]

theorem Within.after (h : Within cs l) (n : Nat) : Within cs (l.after n) := by
  induction n generalizing l with
  | zero => exact h
  | succ n ih => exact ih h.next

theorem Within.offset_le (h : Within cs l) : l.position.offset ≤ byteLength cs := by
  obtain ⟨before, rfl, hp⟩ := h
  rw [hp, Position.offset_advance, byteLength_append, Nat.zero_add]
  exact Nat.le_add_right _ _

theorem Within.location (h : Within cs l) :
    l.position.location = Location.ofOffset cs l.position.offset := by
  obtain ⟨before, rfl, hp⟩ := h
  rw [hp, ofOffset_advance]

/-- Before the end of the text a call goes forward. -/
theorem Within.next_offset (h : Within cs l) (hl : l.position.offset < byteLength cs) :
    l.position.offset < l.next.2.position.offset := by
  obtain ⟨before, gap, inside, rest, hcs, -, hp, hr, hn, -, -⟩ := next_spec h
  have hne : gap ++ (inside ++ rest) ≠ [] := by
    intro he
    rw [hp, Position.offset_advance, hcs, he, List.append_nil, Nat.zero_add] at hl
    exact Nat.lt_irrefl _ hl
  -- Whatever is not skipped begins a token, which takes a character.
  have hpos : gap ++ inside ≠ [] := by
    intro he
    obtain ⟨rfl, rfl⟩ := List.append_eq_nil_iff.1 he
    have hlen : l.next.2.rest.length < l.rest.length := by
      have hs := Trivia.skip_append l.rest
      by_cases hz : (Trivia.skip l.rest).2 = []
      · rw [show l.next.2.rest = (scanToken l.doubleQuotedStrings (Trivia.skip l.rest).2).rest
          from rfl, hz, hr]
        exact List.length_pos_iff.2 hne
      · exact Nat.lt_of_lt_of_le (scanToken_length l.doubleQuotedStrings hz)
          (Trivia.skip_length l.rest)
    rw [hn, hr] at hlen
    simp at hlen
  have hb := byteLength_pos hpos
  rw [hn, hp, Position.offset_advance, Position.offset_advance, List.append_assoc,
    byteLength_append]
  omega

/-- At the end of the text every call answers the end and changes nothing. -/
theorem Within.next_end (h : Within cs l) (hl : byteLength cs ≤ l.position.offset) :
    l.next = (.ok ⟨.endOfInput, ⟨byteLength cs, byteLength cs⟩, ""⟩, l) := by
  obtain ⟨before, hcs, hp⟩ := h
  have ho : l.position.offset = byteLength before := by
    rw [hp, Position.offset_advance, Nat.zero_add]
  have hr : l.rest = [] := by
    by_contra hne
    have hb := byteLength_pos hne
    rw [hcs, byteLength_append, ho] at hl
    omega
  have hlen : byteLength cs = l.position.offset := by rw [ho, hcs, hr, List.append_nil]
  have hs : Trivia.skip [] = ([], []) := by
    rw [Trivia.skip]
    rfl
  obtain ⟨dq, rest, position⟩ := l
  obtain rfl : rest = [] := hr
  rw [hlen]
  simp only [Lexer.next, hs, scanToken, Position.advance_nil]

theorem steps_eq_map (l : Lexer) (n : Nat) :
    l.steps n = (List.range n).map fun k => (l.after k).next.1 := by
  induction n generalizing l with
  | zero => rfl
  | succ n ih =>
    rw [steps, ih, List.range_succ_eq_map, List.map_cons, List.map_map]
    rfl

end Lexer

/-! ## All answers -/

theorem Lexer.Within.cuts {cs : List Char} {l : Lexer} (h : l.Within cs) :
    (answerSpan l.next.1).Cuts cs := by
  obtain ⟨before, gap, inside, rest, hcs, -, -, -, -, hs, -⟩ := Lexer.next_spec h
  refine ⟨before ++ gap, inside, rest, ?_, ?_, ?_⟩
  · rw [hcs, List.append_assoc]
  · rw [hs]
  · rw [hs]

/-- Each answer begins behind a gap, where the one before it ended. -/
theorem Lexer.isChain_steps {cs : List Char} (n : Nat) {l : Lexer} (h : l.Within cs) (s : Span)
    (hs : s.stop = l.position.offset) :
    List.IsChain (GapBetween cs) (s :: (l.steps n).map answerSpan) := by
  induction n generalizing l s with
  | zero => exact .singleton s
  | succ n ih =>
    obtain ⟨before, gap, inside, rest, hcs, hf, hp, -, hn, ha, -⟩ := Lexer.next_spec h
    refine .cons_cons ⟨before, gap, inside ++ rest, hcs, ?_, ?_, hf⟩ (ih h.next _ ?_)
    · rw [hs, hp, Position.offset_advance, Nat.zero_add]
    · rw [ha]
    · rw [ha, hn, Position.offset_advance, Nat.zero_add]

/-- Spans that cut a text, each behind a gap of the one before it, are in order. -/
theorem pairwise_of_isChain {cs : List Char} {s : Span} {spans : List Span}
    (hc : ∀ t ∈ spans, t.Cuts cs) (h : List.IsChain (GapBetween cs) (s :: spans)) :
    (∀ t ∈ spans, s.stop ≤ t.start) ∧ spans.Pairwise fun t u => t.stop ≤ u.start := by
  induction spans generalizing s with
  | nil => exact ⟨by simp, .nil⟩
  | cons t spans ih =>
    obtain ⟨⟨before, gap, rest, -, hs, ht, -⟩, h⟩ := List.isChain_cons_cons.1 h
    obtain ⟨hall, hpair⟩ := ih (fun u hu => hc u (by simp [hu])) h
    have hst : s.stop ≤ t.start := by
      rw [hs, ht, byteLength_append]
      exact Nat.le_add_right _ _
    have htt : t.start ≤ t.stop := by
      obtain ⟨a, b, c, -, h1, h2⟩ := hc t (by simp)
      rw [h1, h2, byteLength_append]
      exact Nat.le_add_right _ _
    refine ⟨?_, .cons hall hpair⟩
    rintro u hu
    rcases List.mem_cons.1 hu with rfl | hu
    · exact hst
    · exact (hst.trans htt).trans (hall u hu)

/-- However often a lexer is asked, faults included: its answers lie between characters of the
text, in order, with only blanks and whole comments in front of each; every call goes forward until
the end of the text, which is then answered again and again; and every location is that of its
offset. -/
theorem steps_cover (text : String) (dq : Bool) (n : Nat) :
    let start := Lexer.ofText text dq
    let cs := text.toList
    let spans := (start.steps n).map answerSpan
    (∀ s ∈ spans, s.Cuts cs) ∧
      spans.Pairwise (fun s t => s.stop ≤ t.start) ∧
      List.IsChain (GapBetween cs) (⟨0, 0⟩ :: spans) ∧
      (∀ k, (start.after k).position.offset ≤ byteLength cs ∧
        ((start.after k).position.offset < byteLength cs →
          (start.after k).position.offset < (start.after (k + 1)).position.offset) ∧
        ((start.after k).position.offset = byteLength cs → ∀ j, k ≤ j →
          (start.after j).next.1 = .ok ⟨.endOfInput, ⟨byteLength cs, byteLength cs⟩, ""⟩) ∧
        (start.after k).position.location =
          Location.ofOffset cs (start.after k).position.offset) ∧
      ∀ e, .error e ∈ start.steps n → e.location = Location.ofOffset cs e.span.start := by
  intro start cs spans
  have hw : start.Within cs := Lexer.within_ofText text dq
  have hafter : ∀ k, start.after (k + 1) = (start.after k).next.2 := by
    have hgen : ∀ (k : Nat) (l : Lexer), l.after (k + 1) = (l.after k).next.2 := by
      intro k
      induction k with
      | zero => exact fun l => rfl
      | succ k ih => exact fun l => ih l.next.2
    exact fun k => hgen k start
  have hcuts : ∀ s ∈ spans, s.Cuts cs := by
    intro s hs
    simp only [spans, Lexer.steps_eq_map, List.map_map, List.mem_map, Function.comp_apply] at hs
    obtain ⟨k, -, rfl⟩ := hs
    exact (hw.after k).cuts
  have hchain : List.IsChain (GapBetween cs) (⟨0, 0⟩ :: spans) :=
    Lexer.isChain_steps n hw ⟨0, 0⟩ rfl
  refine ⟨hcuts, (pairwise_of_isChain hcuts hchain).2, hchain, ?_, ?_⟩
  · intro k
    refine ⟨(hw.after k).offset_le, ?_, ?_, (hw.after k).location⟩
    · rw [hafter]
      exact (hw.after k).next_offset
    · intro hk j hj
      have hstay : start.after j = start.after k := by
        induction hj with
        | refl => rfl
        | step _ ih =>
          rw [hafter, ih, (hw.after k).next_end hk.ge]
      rw [hstay, (hw.after k).next_end hk.ge]
  · intro e he
    rw [Lexer.steps_eq_map, List.mem_map] at he
    obtain ⟨k, -, he⟩ := he
    obtain ⟨before, gap, inside, rest, hcs, -, -, -, -, hs, hl⟩ := Lexer.next_spec (hw.after k)
    rw [he] at hs
    have hstart : e.span.start = (Position.advance {} (before ++ gap)).offset := by
      rw [Position.offset_advance, Nat.zero_add]
      exact congrArg Span.start hs
    rw [hl e he, hstart, hcs, ← List.append_assoc, ofOffset_advance]

end SqlTree
