import Mathlib
import SqlTree.Statement.Grammar.Any
import SqlTree.Proofs.Lexing.Run
import SqlTree.Proofs.Text.Embedded

/-! # A stretch of the tokens of a text

The text from the first of some tokens to the last one is a text by itself, with just these tokens.

* `Lexer.run_cons`, `Lexer.run_behind`: the lexer behind some tokens reads the other ones.
* `InOrder`, `endOf`: tokens that stand one behind the other from an offset on, and where they end.
* `Lexer.run_cut`: the tokens of a text that is cut behind some of its tokens.
* `tokenize_stretch`: the tokens of the text that some tokens cover.
-/

namespace SqlTree
set_option autoImplicit false

open Text Parse

variable {dq : Bool}

/-! ## Slices -/

theorem dropBytes_byteLength (before rest : List Char) :
    dropBytes (byteLength before) (before ++ rest) = some rest := by
  induction before with
  | nil => rw [byteLength, dropBytes, List.nil_append]
  | cons c before ih =>
    have hc := c.utf8Size_pos
    obtain ⟨n, hn⟩ : ∃ n, byteLength (c :: before) = n + 1 :=
      Nat.exists_eq_succ_of_ne_zero (by rw [byteLength]; omega)
    rw [byteLength] at hn
    rw [byteLength, hn, List.cons_append, dropBytes, if_pos (by omega),
      show n + 1 - c.utf8Size = byteLength before by omega, ih]

theorem takeBytes_byteLength (inside rest : List Char) :
    takeBytes (byteLength inside) (inside ++ rest) = some inside := by
  induction inside with
  | nil => rw [byteLength, takeBytes]
  | cons c inside ih =>
    have hc := c.utf8Size_pos
    obtain ⟨n, hn⟩ : ∃ n, byteLength (c :: inside) = n + 1 :=
      Nat.exists_eq_succ_of_ne_zero (by rw [byteLength]; omega)
    rw [byteLength] at hn
    rw [byteLength, hn, List.cons_append, takeBytes, if_pos (by omega),
      show n + 1 - c.utf8Size = byteLength inside by omega, ih]
    rfl

/-- The text between two places. -/
theorem slice_between {text : String} {before inside rest : List Char}
    (h : text.toList = before ++ (inside ++ rest)) :
    Span.slice ⟨byteLength before, byteLength before + byteLength inside⟩ text =
      String.ofList inside := by
  rw [Span.slice, Span.slice?, if_pos (Nat.le_add_right _ _), h, dropBytes_byteLength,
    Nat.add_sub_cancel_left, Option.bind_some, takeBytes_byteLength, Option.getD_some]

/-! ## Tokens in order -/

/-- Where tokens end that stand behind an offset. -/
def endOf : Nat → List Token → Nat
  | offset, [] => offset
  | _, t :: ts => endOf t.span.stop ts

/-- Tokens that stand one behind the other from an offset on. -/
def InOrder : Nat → List Token → Prop
  | _, [] => True
  | offset, t :: ts =>
    offset ≤ t.span.start ∧ t.span.start ≤ t.span.stop ∧ InOrder t.span.stop ts

theorem InOrder.bounds {offset : Nat} {ts : List Token} (h : InOrder offset ts) :
    ∀ t ∈ ts, offset ≤ t.span.start ∧ t.span.start ≤ t.span.stop := by
  induction ts generalizing offset with
  | nil => simp
  | cons t ts ih =>
    obtain ⟨h1, h2, h3⟩ := h
    intro u hu
    rcases List.mem_cons.1 hu with rfl | hu
    · exact ⟨h1, h2⟩
    · have := ih h3 u hu
      exact ⟨h1.trans (h2.trans this.1), this.2⟩

theorem endOf_eq (t : Token) (ts : List Token) (offset : Nat) :
    endOf offset (t :: ts) = ((t :: ts).getLastD t).span.stop := by
  induction ts generalizing t offset with
  | nil => rfl
  | cons u ts ih =>
    rw [endOf, ih u]
    simp only [List.getLastD_cons]

/-- Tokens in order cover what is between the start of the first one and the end of the last. -/
theorem coverOf_eq {t : Token} {ts : List Token}
    (h : t.span.start ≤ t.span.stop ∧ InOrder t.span.stop ts) :
    coverOf t (t :: ts) = ⟨t.span.start, endOf t.span.stop ts⟩ := by
  obtain ⟨hle, hts⟩ := h
  have hend : endOf t.span.stop ts = ((t :: ts).getLastD t).span.stop := endOf_eq t ts 0
  have hlast : ((t :: ts).getLastD t) = t ∨ ((t :: ts).getLastD t) ∈ ts := by
    rw [List.getLastD_cons]
    cases ts with
    | nil => exact .inl rfl
    | cons u ts =>
      rw [List.getLastD_cons]
      exact .inr (List.getLastD_mem_cons ..)
  rw [coverOf, Span.merge, hend]
  rcases hlast with he | hm
  · rw [he, Nat.min_self, Nat.max_self]
  · obtain ⟨h1, h2⟩ := hts.bounds _ hm
    rw [Nat.min_eq_left (hle.trans h1), Nat.max_eq_right (h1.trans h2)]

/-! ## Lexers behind some tokens -/

namespace Lexer

variable {l after : Lexer} {t e : Token} {ts pre post : List Token}

theorem run_cons (h : l.run = .ok ⟨t :: ts, e⟩) :
    ∃ after, l.next = (.ok t, after) ∧ t.kind ≠ .endOfInput ∧ after.run = .ok ⟨ts, e⟩ := by
  rcases hnext : l.next with ⟨outcome, after⟩
  cases outcome with
  | error e =>
    rw [Lexer.run_of_error hnext] at h
    cases h
  | ok u =>
    by_cases hk : u.kind = .endOfInput
    · rw [run_of_end hnext hk] at h
      simp at h
    · rw [run_of_token hnext hk] at h
      cases hr : after.run with
      | error e => simp [hr, Except.map] at h
      | ok r =>
        simp only [hr, Except.map, Except.ok.injEq, Lexed.mk.injEq, List.cons.injEq] at h
        obtain ⟨⟨rfl, rfl⟩, rfl⟩ := h
        exact ⟨after, rfl, hk, hr⟩

/-- Behind some tokens a lexer reads the other ones, and then the end. -/
theorem run_behind (h : l.run = .ok ⟨pre ++ ts, e⟩) : ∃ m : Lexer, m.run = .ok ⟨ts, e⟩ ∧
    m.doubleQuotedStrings = l.doubleQuotedStrings ∧ ∀ cs, l.Within cs → m.Within cs := by
  induction pre generalizing l with
  | nil => exact ⟨l, h, rfl, fun _ hw => hw⟩
  | cons t pre ih =>
    obtain ⟨after, hnext, -, hrun⟩ := run_cons h
    have ha : after = l.next.2 := by rw [hnext]
    obtain ⟨m, hm, hd, hw⟩ := ih hrun
    refine ⟨m, hm, hd.trans (by rw [ha]; rfl), fun cs hl => hw cs ?_⟩
    rw [ha]
    exact hl.next

/-- A token and the gap in front of it. The token is found again, with or without the gap, where the
text behind it is cut. -/
theorem next_cut (h : l.next = (.ok t, after)) : ∃ gap inside : List Char,
    l.rest = gap ++ (inside ++ after.rest) ∧
    after.doubleQuotedStrings = l.doubleQuotedStrings ∧
    t.span.start = l.position.offset + byteLength gap ∧
    t.span.stop = l.position.offset + byteLength (gap ++ inside) ∧
    after.position.offset = t.span.stop ∧
    ∀ (m : Lexer) (gap' x : List Char), m.doubleQuotedStrings = l.doubleQuotedStrings →
      x <+: after.rest → gap' = gap ∨ gap' = [] → m.rest = gap' ++ (inside ++ x) →
      ∃ t' m', m.next = (.ok t', m') ∧ t'.Alike t ∧
        m'.doubleQuotedStrings = l.doubleQuotedStrings ∧ m'.rest = x ∧
        t'.span = ⟨m.position.offset + byteLength gap',
          m.position.offset + byteLength (gap' ++ inside)⟩ ∧
        m'.position.offset = t'.span.stop := by
  have hskip := Trivia.skip_append l.rest
  have hscan := scanToken_append l.doubleQuotedStrings (Trivia.skip l.rest).2
  simp only [Lexer.next, Prod.mk.injEq] at h
  obtain ⟨ht, rfl⟩ := h
  generalize hs : scanToken l.doubleQuotedStrings (Trivia.skip l.rest).2 = scanned at ht hscan
  obtain ⟨outcome, inside, rest⟩ := scanned
  cases outcome with
  | error e => simp at ht
  | ok kind =>
    obtain rfl := Except.ok.inj ht
    have hopen : ¬['/', '*'] <+: (Trivia.skip l.rest).2 := by
      rintro ⟨more, he⟩
      rw [← he] at hs
      simp [scanToken] at hs
    refine ⟨(Trivia.skip l.rest).1, inside, by rw [hscan, hskip], rfl, ?_, ?_, rfl, ?_⟩
    · exact Position.offset_advance ..
    · simp only [Position.offset_advance, byteLength_append, Nat.add_assoc]
    · intro m gap' x hd hx hgap hm
      have hprefix : inside ++ x <+: (Trivia.skip l.rest).2 := by
        rw [← hscan]
        exact (List.prefix_append_right_inj _).2 hx
      obtain ⟨hbare, hcut⟩ := Trivia.skip_cut l.rest hprefix hopen
      have hskip' : Trivia.skip m.rest = (gap', inside ++ x) := by
        rcases hgap with rfl | rfl
        · rw [hm, hcut]
        · rw [hm, List.nil_append, (hbare.of_cut hprefix).skip]
      simp only [Lexer.next, hskip', hd, scanToken_cut hs hx]
      refine ⟨_, _, rfl, ⟨rfl, rfl⟩, rfl, rfl, ?_, rfl⟩
      simp only [Position.offset_advance, byteLength_append, Nat.add_assoc]

/-- What a text holds up to the last of its first tokens, and the tokens of that alone. -/
theorem run_cut (h : l.run = .ok ⟨ts ++ post, e⟩) : ∃ body rest : List Char,
    l.rest = body ++ rest ∧ InOrder l.position.offset ts ∧
    endOf l.position.offset ts = l.position.offset + byteLength body ∧
    ∀ m : Lexer, m.doubleQuotedStrings = l.doubleQuotedStrings → m.rest = body →
      ∃ lexed, m.run = .ok lexed ∧ List.Forall₂ Token.Alike lexed.tokens ts ∧
        InOrder m.position.offset lexed.tokens ∧
        endOf m.position.offset lexed.tokens = m.position.offset + byteLength body := by
  induction ts generalizing l with
  | nil =>
    refine ⟨[], l.rest, rfl, trivial, rfl, fun m _ hm => ?_⟩
    have hnil : (Trivia.skip m.rest).2 = [] := by
      rw [hm, skip_eq_behindTrivia]
      rfl
    obtain ⟨ending, hrun, -⟩ := Lexer.run_of_nil hnil
    exact ⟨_, hrun, .nil, trivial, rfl⟩
  | cons t ts ih =>
    obtain ⟨after, hnext, hk, hrun⟩ := run_cons h
    obtain ⟨gap, inside, hl, hd, hstart, hstop, hafter, hagain⟩ := next_cut hnext
    obtain ⟨body, rest, hrest, horder, hend, hbody⟩ := ih hrun
    rw [hafter] at horder hend
    refine ⟨gap ++ (inside ++ body), rest, ?_, ⟨?_, ?_, horder⟩, ?_, ?_⟩
    · rw [hl, hrest, List.append_assoc, List.append_assoc]
    · rw [hstart]
      exact Nat.le_add_right _ _
    · rw [hstart, hstop, byteLength_append]
      omega
    · rw [endOf, hend, hstop]
      simp only [byteLength_append]
      omega
    · intro m hm hr
      obtain ⟨t', m', hnext', ha, hd', hr', hspan, hoffset⟩ :=
        hagain m gap body hm (hrest ▸ List.prefix_append _ _) (.inl rfl) hr
      obtain ⟨lexed, hrun', hall, horder', hend'⟩ := hbody m' (hd'.trans hd.symm) hr'
      rw [hoffset, hspan] at horder' hend'
      refine ⟨⟨t' :: lexed.tokens, lexed.ending⟩, ?_, .cons ha hall, ?_, ?_⟩
      · rw [run_of_token hnext' (by rw [ha.1]; exact hk), hrun']
        rfl
      · rw [InOrder, hspan]
        refine ⟨Nat.le_add_right _ _, ?_, horder'⟩
        dsimp only
        rw [byteLength_append]
        omega
      · rw [endOf, hspan, hend']
        simp only [byteLength_append]
        omega

end Lexer

/-- The text that some tokens of a text cover has just these tokens, which cover it. -/
theorem tokenize_stretch {source : String} {pre ts post : List Token} {t e : Token}
    (h : tokenize source dq = .ok ⟨pre ++ (t :: ts ++ post), e⟩) :
    ∃ u us e', tokenize ((coverOf t (t :: ts)).slice source) dq = .ok ⟨u :: us, e'⟩ ∧
      e'.kind = .endOfInput ∧ List.Forall₂ Token.Alike (u :: us) (t :: ts) ∧
      (coverOf u (u :: us)).slice ((coverOf t (t :: ts)).slice source) =
        (coverOf t (t :: ts)).slice source := by
  obtain ⟨l, hl, hdq, hwithin⟩ := Lexer.run_behind h
  obtain ⟨before, hsource, hposition⟩ := hwithin _ (Lexer.within_ofText source dq)
  have hoffset : l.position.offset = byteLength before := by
    rw [hposition, Position.offset_advance, Nat.zero_add]
  obtain ⟨after, hnext, hk, hrun⟩ := Lexer.run_cons hl
  obtain ⟨gap, inside, hrest, hd, hstart, hstop, hafter, hagain⟩ := Lexer.next_cut hnext
  obtain ⟨body, rest, hbody, horder, hend, hcut⟩ := Lexer.run_cut hrun
  rw [hafter] at horder hend
  have hcover : (coverOf t (t :: ts)).slice source = String.ofList (inside ++ body) := by
    have hle : t.span.start ≤ t.span.stop := by
      rw [hstart, hstop, byteLength_append]
      omega
    rw [coverOf_eq ⟨hle, horder⟩, hend, hstart, hstop, hoffset]
    have hs : source.toList = before ++ gap ++ (inside ++ body ++ rest) := by
      rw [hsource, hrest, hbody]
      simp only [List.append_assoc]
    have hslice := slice_between hs
    simp only [byteLength_append, Nat.add_assoc] at hslice ⊢
    exact hslice
  -- The same lexer at the start of the covered text.
  obtain ⟨u, m, hnext', ha, hm, hr, hspan, hoffset'⟩ :=
    hagain (Lexer.ofText ((coverOf t (t :: ts)).slice source) dq) [] body hdq.symm
      (hbody ▸ List.prefix_append _ _) (.inr rfl) (by rw [hcover]; simp [Lexer.ofText])
  obtain ⟨⟨us, e'⟩, hrun', hall, horder', hend'⟩ := hcut m (hm.trans hd.symm) hr
  have htokens : tokenize ((coverOf t (t :: ts)).slice source) dq = .ok ⟨u :: us, e'⟩ := by
    rw [tokenize, Lexer.run_of_token hnext' (by rw [ha.1]; exact hk), hrun']
    rfl
  refine ⟨u, us, e', htokens, (Lexer.run_ending htokens).1, .cons ha hall, ?_⟩
  have hzero : (Lexer.ofText ((coverOf t (t :: ts)).slice source) dq).position.offset = 0 := rfl
  rw [hzero] at hspan
  rw [hoffset', hspan] at horder' hend'
  have hle : u.span.start ≤ u.span.stop := by
    rw [hspan]
    simp only [byteLength_append]
    omega
  rw [coverOf_eq ⟨hle, by rw [hspan]; exact horder'⟩, hspan]
  dsimp only
  rw [hend', hcover]
  have hslice := @slice_between (String.ofList (inside ++ body)) [] (inside ++ body) [] (by simp)
  simpa [byteLength, Nat.add_assoc] using hslice

end SqlTree
