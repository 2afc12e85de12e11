import Mathlib
import SqlTree.Proofs.Lexing.Word

/-! # Texts that are cut behind a token

A lexer looks a few characters ahead, but only for reasons to go on. So a token stays the same when
the text behind it is cut anywhere.

* `scanToken_cut`: the token at the head of a text that is cut behind it.
* `scanToken_alone`: nothing is left behind the token.
* `Trivia.Bare cs`: neither blanks nor a comment begin a text.
* `Trivia.skip_cut`: the blanks and comments in front of a token, in a text that is cut behind it.
-/

namespace SqlTree
set_option autoImplicit false

open Text

variable {dq : Bool} {x : List Char}

theorem head?_of_cut {rest : List Char} (h : x <+: rest) : ∀ c ∈ x.head?, rest.head? = some c := by
  obtain ⟨y, rfl⟩ := h
  cases x with
  | nil => simp
  | cons c x => simp

/-! ## Quoted text -/

/-- Quoted text without what follows it, which begins with another character than the quote. -/
theorem body_alone {q : Char} :
    ∀ (cs : List Char) {inside rest : List Char}, Quoted.body q cs = (inside, some rest) →
      Quoted.body q (inside ++ [q]) = (inside, some []) ∧
        Quoted.double q (Quoted.undouble q inside) = inside ∧ rest.head? ≠ some q
  | [], _, _, h => by simp [Quoted.body] at h
  | [c], inside, rest, h => by
    by_cases hc : c = q
    · obtain ⟨rfl, rfl⟩ : [] = inside ∧ [] = rest := by simpa [Quoted.body, hc] using h
      exact ⟨by simp [Quoted.body], rfl, by simp⟩
    · simp [Quoted.body, hc] at h
  | c :: d :: cs, inside, rest, h => by
    by_cases hc : c = q
    · subst hc
      by_cases hd : d = c
      · subst hd
        simp only [Quoted.body, if_true, Prod.mk.injEq] at h
        obtain ⟨hb, hu, hr⟩ := body_alone cs (Prod.ext rfl h.2)
        rw [← h.1]
        exact ⟨by simp [Quoted.body, hb], by simp [Quoted.undouble, Quoted.double, hu], hr⟩
      · obtain ⟨rfl, rfl⟩ : [] = inside ∧ d :: cs = rest := by simpa [Quoted.body, hd] using h
        exact ⟨by simp [Quoted.body], rfl, by simpa using hd⟩
    · simp only [Quoted.body, hc, if_false, Prod.mk.injEq] at h
      obtain ⟨hb, hu, hr⟩ := body_alone (d :: cs) (Prod.ext rfl h.2)
      rw [← h.1, List.cons_append, Quoted.body_cons_of_ne hc, Quoted.undouble_cons_of_ne hc, hb]
      exact ⟨rfl, by simp [Quoted.double, hc, hu], hr⟩

/-- A token in quotes takes its quotes and the written form of its content. -/
theorem scanQuoted_alone {opening : List Char} {q : Char} {unclosed : LexFault}
    {kind : List Char → Except LexFault TokenKind} {cs taken rest : List Char} {k : TokenKind}
    (h : scanQuoted opening q unclosed kind cs = ⟨.ok k, taken, rest⟩) :
    ∃ content, kind content = .ok k ∧ taken = opening ++ (Quoted.double q content ++ [q]) ∧
      scanQuoted opening q unclosed kind (Quoted.double q content ++ [q]) = ⟨.ok k, taken, []⟩ ∧
        rest.head? ≠ some q := by
  unfold scanQuoted at h
  split at h
  · next inside rest' hb =>
    simp only [Scanned.mk.injEq] at h
    obtain ⟨hk, ht, rfl⟩ := h
    obtain ⟨hb, hu, hr⟩ := body_alone cs hb
    refine ⟨Quoted.undouble q inside, hk, ?_, ?_, hr⟩
    · rw [hu, ← ht, List.append_assoc]
    · simp only [hu, ← ht, scanQuoted, hb, hk]
  · simp at h

/-- A token in quotes in a text that is cut behind it. -/
theorem scanQuoted_cut {opening : List Char} {q : Char} {unclosed : LexFault}
    {kind : List Char → Except LexFault TokenKind} {cs taken rest : List Char} {k : TokenKind}
    (h : scanQuoted opening q unclosed kind cs = ⟨.ok k, taken, rest⟩) (hx : x <+: rest) :
    ∃ inside, taken = opening ++ inside ∧
      scanQuoted opening q unclosed kind (inside ++ x) = ⟨.ok k, taken, x⟩ := by
  obtain ⟨content, -, ht, hs, hr⟩ := scanQuoted_alone h
  exact ⟨_, ht, scanQuoted_append_rest hs x fun hq => hr (head?_of_cut hx q hq)⟩

/-! ## Numbers and symbols -/

theorem takeWhile_cut (p : Char → Bool) (cs : List Char) (hx : x <+: cs.dropWhile p) :
    (cs.takeWhile p ++ x).takeWhile p = cs.takeWhile p ∧
      (cs.takeWhile p ++ x).dropWhile p = x := by
  have hall : ∀ c ∈ cs.takeWhile p, p c = true := fun c hc => List.mem_takeWhile_imp hc
  have hhead : ∀ c ∈ x.head?, p c = false := by
    intro c hc
    have hn := List.head?_dropWhile_not p cs
    rw [head?_of_cut hx c hc] at hn
    simpa using hn
  obtain ⟨h1, h2⟩ := takeWhile_append_rest (cs.takeWhile p) hhead
  rw [h1, h2]
  exact ⟨List.takeWhile_eq_self_iff.2 hall, by rw [List.dropWhile_eq_nil_iff.2 hall]; rfl⟩

theorem scanNumber_cut {c : Char} (hc : c.isDigit = true) (cs : List Char)
    (hx : x <+: (scanNumber (c :: cs)).rest) :
    scanNumber ((scanNumber (c :: cs)).taken ++ x) = { scanNumber (c :: cs) with rest := x } := by
  have hn := complete_scanNumber hc cs
  have hcomplete : NumberScan.Complete { scanNumber (c :: cs) with rest := x } :=
    { hn with
      digit := fun d hd => hn.digit d (head?_of_cut hx d hd)
      noFraction := fun hf he point hp hcut => hn.noFraction hf he point hp (hcut.trans hx)
      noExponent := fun he power hp hcut => hn.noExponent he power hp (hcut.trans hx) }
  exact scanNumber_of_complete hcomplete

theorem scanSymbol_cut {cs taken rest : List Char} {s : Symbol}
    (h : scanSymbol cs = some (s, taken, rest)) (hx : x <+: rest) :
    scanSymbol (taken ++ x) = some (s, taken, x) := by
  obtain ⟨y, rfl⟩ := hx
  unfold scanSymbol at h
  repeat' split at h
  all_goals first
    | contradiction
    | (simp only [Option.some.injEq, Prod.mk.injEq] at h
       obtain ⟨rfl, rfl, h⟩ := h
       subst h
       cases x <;> simp_all [scanSymbol])

/-! ## Any token -/

theorem scanPlain_cut {c : Char} {cs taken rest : List Char} {k : TokenKind}
    (h : scanPlain c cs = ⟨.ok k, taken, rest⟩) (hx : x <+: rest) :
    ∃ tail, taken = c :: tail ∧ scanPlain c (tail ++ x) = ⟨.ok k, taken, x⟩ := by
  unfold scanPlain at h
  split at h
  · next hd =>
    simp only [Scanned.mk.injEq, Except.ok.injEq] at h
    obtain ⟨hk, ht, rfl⟩ := h
    have ha := scanNumber_cut hd cs hx
    obtain ⟨tail, hc⟩ : ∃ tail, (scanNumber (c :: cs)).taken = c :: tail := by
      simp [scanNumber, NumberScan.taken, hd]
    refine ⟨tail, by rw [← ht, hc], ?_⟩
    rw [scanPlain, if_pos hd, ← List.cons_append, ← hc, ha, ← hk, ← ht]
    rfl
  · next hd =>
    split at h
    · next hw =>
      simp only [Scanned.mk.injEq, Except.ok.injEq] at h
      obtain ⟨hk, ht, rfl⟩ := h
      obtain ⟨h1, h2⟩ := takeWhile_cut isWordPart cs hx
      refine ⟨cs.takeWhile isWordPart, ht.symm, ?_⟩
      rw [ht] at hk
      simp only [scanPlain, hd, hw, if_true, Bool.false_eq_true, if_false, h1, h2, ht, hk]
    · next hw =>
      split at h
      · next s taken' rest' hs =>
        simp only [Scanned.mk.injEq, Except.ok.injEq] at h
        obtain ⟨hk, rfl, rfl⟩ := h
        have ha := scanSymbol_cut hs hx
        obtain ⟨tail, rfl⟩ : ∃ tail, taken' = c :: tail := by
          have happ := scanSymbol_append hs
          cases taken' with
          | nil => exact absurd rfl (scanSymbol_taken hs)
          | cons d ds => exact ⟨ds, by rw [(List.cons.inj happ).1]⟩
        refine ⟨tail, rfl, ?_⟩
        rw [scanPlain, if_neg hd, if_neg hw, ← List.cons_append, ha, ← hk]
      · simp at h

/-- Cutting a text behind its first token does not change the token. -/
theorem scanToken_cut {cs taken rest : List Char} {k : TokenKind}
    (h : scanToken dq cs = ⟨.ok k, taken, rest⟩) (hx : x <+: rest) :
    scanToken dq (taken ++ x) = ⟨.ok k, taken, x⟩ := by
  have happ := scanToken_append dq cs
  rw [h] at happ
  unfold scanToken at h
  split at h
  · simp only [Scanned.mk.injEq, Except.ok.injEq] at h
    obtain ⟨rfl, rfl, rfl⟩ := h
    obtain rfl := List.prefix_nil.1 hx
    rfl
  · obtain ⟨inside, rfl, hs⟩ := scanQuoted_cut h hx
    exact hs
  · split at h
    · next hd =>
      obtain ⟨inside, rfl, hs⟩ := scanQuoted_cut h hx
      rw [List.append_assoc, List.singleton_append, scanToken, if_pos hd, hs]
    · next hd =>
      obtain ⟨inside, rfl, hs⟩ := scanQuoted_cut h hx
      rw [List.append_assoc, List.singleton_append, scanToken, if_neg hd, hs]
  · obtain ⟨inside, rfl, hs⟩ := scanQuoted_cut h hx
    exact hs
  · obtain ⟨inside, rfl, hs⟩ := scanQuoted_cut h hx
    exact hs
  · obtain ⟨inside, rfl, hs⟩ := scanQuoted_cut h hx
    exact hs
  · simp at h
  · next c cs h1 h2 h3 h4 h5 h6 =>
    obtain ⟨tail, rfl, hs⟩ := scanPlain_cut h hx
    -- The characters that would open quotes, a blob or a comment are not there.
    have hhead : ∀ d, (tail ++ x).head? = some d → ∃ ds, cs = d :: ds := by
      intro d hd
      have hp : tail ++ x <+: cs := by
        rw [← (List.cons.inj happ).2]
        exact (List.prefix_append_right_inj tail).2 hx
      have hcs := head?_of_cut hp d hd
      cases cs with
      | nil => simp at hcs
      | cons e es => exact ⟨es, by rw [Option.some.inj hcs]⟩
    rw [List.cons_append, scanToken_eq_scanPlain, hs]
    · simp only [List.mem_cons, List.not_mem_nil, or_false, not_or]
      exact ⟨h1, h2, h3⟩
    · rintro hx hd
      obtain ⟨ds, rfl⟩ := hhead _ hd
      rcases hx with rfl | rfl
      · exact h4 ds rfl rfl
      · exact h5 ds rfl rfl
    · rintro rfl hd
      obtain ⟨ds, rfl⟩ := hhead _ hd
      exact h6 ds rfl rfl

/-- What a token takes is, by itself, a text with that token. -/
theorem scanToken_alone {cs taken rest : List Char} {k : TokenKind}
    (h : scanToken dq cs = ⟨.ok k, taken, rest⟩) : scanToken dq taken = ⟨.ok k, taken, []⟩ := by
  have hcut := scanToken_cut h (List.nil_prefix (l := rest))
  rwa [List.append_nil] at hcut

/-! ## Blanks and comments -/

theorem Trivia.closeComment_cut {cs inside rest : List Char}
    (h : closeComment cs = some (inside, rest)) (x : List Char) :
    closeComment (inside ++ '*' :: '/' :: x) = some (inside, x) := by
  fun_induction closeComment cs generalizing inside rest with
  | case1 => simp at h
  | case2 cs =>
    obtain ⟨rfl, -⟩ : [] = inside ∧ cs = rest := by simpa using h
    rfl
  | case3 c cs hne ih =>
    obtain ⟨⟨a, b⟩, hab, he⟩ := Option.map_eq_some_iff.1 h
    obtain ⟨rfl, rfl⟩ := Prod.mk.inj he
    have hne' : ∀ cs', c = '*' → a ++ '*' :: '/' :: x = '/' :: cs' → False := by
      rintro cs' rfl ha
      have hcs := closeComment_append hab
      cases a with
      | nil => simp at ha
      | cons d a =>
        obtain rfl : d = '/' := by simpa using (List.cons.inj ha).1
        exact hne _ rfl hcs
    rw [List.cons_append, closeComment, ih hab]
    · rfl
    · exact hne'

/-- A text that neither blanks nor a comment begin. -/
def Trivia.Bare (cs : List Char) : Prop :=
  (∀ c ∈ cs.head?, isBlank c = false) ∧ ¬['-', '-'] <+: cs ∧ ¬['/', '*'] <+: cs

namespace Trivia

theorem Bare.of_cut {cs : List Char} (h : Bare cs) (hx : x <+: cs) : Bare x :=
  ⟨fun c hc => h.1 c (head?_of_cut hx c hc), fun hd => h.2.1 (hd.trans hx),
    fun hs => h.2.2 (hs.trans hx)⟩

theorem skip_of_line {cs more : List Char} (h : cs.dropWhile isBlank = '-' :: '-' :: more) :
    skip cs = (cs.takeWhile isBlank ++ '-' :: '-' :: more.takeWhile (· != '\n') ++
      (skip (more.dropWhile (· != '\n'))).1, (skip (more.dropWhile (· != '\n'))).2) := by
  rw [skip]
  split
  · next he =>
    rw [h] at he
    simp only [List.cons.injEq, true_and] at he
    rw [he]
  · next he => simp [h] at he
  · next hl _ => exact absurd h (hl _)

theorem skip_of_block {cs more inside after : List Char}
    (h : cs.dropWhile isBlank = '/' :: '*' :: more) (hc : closeComment more = some (inside, after)) :
    skip cs = (cs.takeWhile isBlank ++ '/' :: '*' :: inside ++ '*' :: '/' :: (skip after).1,
      (skip after).2) := by
  rw [skip]
  split
  · next he => simp [h] at he
  · next he =>
    rw [h] at he
    simp only [List.cons.injEq, true_and] at he
    subst he
    split
    · next hc' =>
      rw [hc, Option.some.injEq, Prod.mk.injEq] at hc'
      rw [hc'.1, hc'.2]
    · next hc' => simp [hc] at hc'
  · next hb => exact absurd h (hb _)

theorem skip_of_bare {cs : List Char} (h : Bare (cs.dropWhile isBlank)) :
    skip cs = (cs.takeWhile isBlank, cs.dropWhile isBlank) := by
  rw [skip]
  split
  · next he => exact absurd (by simp [he, List.cons_prefix_cons]) h.2.1
  · next he => exact absurd (by simp [he, List.cons_prefix_cons]) h.2.2
  · rfl

/-- Blanks and comments stay what they are when the text behind them is cut. -/
theorem skip_cut (cs : List Char) (hx : x <+: (skip cs).2) (ho : ¬['/', '*'] <+: (skip cs).2) :
    Bare (skip cs).2 ∧ skip ((skip cs).1 ++ x) = ((skip cs).1, x) := by
  have hall : ∀ {p : Char → Bool} {cs rest r : List Char}, cs.dropWhile p = rest → r <+: rest →
      (cs.takeWhile p ++ r).takeWhile p = cs.takeWhile p ∧
        (cs.takeWhile p ++ r).dropWhile p = r :=
    fun h hr => takeWhile_cut _ _ (h ▸ hr)
  fun_induction skip cs with
  | case1 cs blanks more h line r ih =>
    obtain ⟨hbare, hskip⟩ := ih hx ho
    have hr : r.1 ++ x <+: more.dropWhile (· != '\n') := by
      rw [← skip_append (more.dropWhile (· != '\n'))]
      exact (List.prefix_append_right_inj _).2 hx
    obtain ⟨hline, hrest⟩ := hall rfl hr
    have hmore : line ++ (r.1 ++ x) <+: more := by
      conv_rhs => rw [← List.takeWhile_append_dropWhile (p := (· != '\n')) (l := more)]
      exact (List.prefix_append_right_inj _).2 hr
    obtain ⟨hblanks, hdrop⟩ := hall h (List.cons_prefix_cons.2 ⟨rfl,
      List.cons_prefix_cons.2 ⟨rfl, hmore⟩⟩)
    refine ⟨hbare, ?_⟩
    simp only [List.append_assoc, List.cons_append, blanks]
    rw [skip_of_line hdrop, hblanks, hline, hrest, hskip]
    simp only [List.append_assoc, List.cons_append]
    rfl
  | case2 cs blanks more h inside after h' r ih =>
    obtain ⟨hbare, hskip⟩ := ih hx ho
    have hr : r.1 ++ x <+: after := by
      rw [← skip_append after]
      exact (List.prefix_append_right_inj _).2 hx
    have hmore : inside ++ '*' :: '/' :: (r.1 ++ x) <+: more := by
      rw [closeComment_append h']
      exact (List.prefix_append_right_inj _).2 (List.cons_prefix_cons.2 ⟨rfl,
        List.cons_prefix_cons.2 ⟨rfl, hr⟩⟩)
    obtain ⟨hblanks, hdrop⟩ := hall h (List.cons_prefix_cons.2 ⟨rfl,
      List.cons_prefix_cons.2 ⟨rfl, hmore⟩⟩)
    refine ⟨hbare, ?_⟩
    simp only [List.append_assoc, List.cons_append, blanks]
    rw [skip_of_block hdrop (closeComment_cut h' (r.1 ++ x)), hblanks, hskip]
    simp only [List.append_assoc, List.cons_append]
    rfl
  | case3 cs blanks more h h' => exact absurd (by simp [List.cons_prefix_cons]) ho
  | case4 cs blanks hline hblock =>
    have hbare : Bare (cs.dropWhile isBlank) := by
      refine ⟨fun c hc => ?_, fun hd => ?_, fun hs => ho hs⟩
      · have hn := List.head?_dropWhile_not isBlank cs
        rw [Option.mem_def.1 hc] at hn
        simpa using hn
      · obtain ⟨more, he⟩ := hd
        exact hline more he.symm
    obtain ⟨hblanks, hdrop⟩ := hall rfl hx
    have hbare' : Bare ((cs.takeWhile isBlank ++ x).dropWhile isBlank) := by
      rw [hdrop]
      exact hbare.of_cut hx
    exact ⟨hbare, by rw [skip_of_bare hbare', hblanks, hdrop]⟩

/-- In front of a token there is nothing more to skip. -/
theorem Bare.skip {cs : List Char} (h : Bare cs) : Trivia.skip cs = ([], cs) := by
  have ht : cs.takeWhile isBlank = [] := by
    cases cs with
    | nil => rfl
    | cons c cs => simp [h.1 c (by simp)]
  have hd : cs.dropWhile isBlank = cs := by
    conv_rhs => rw [← List.takeWhile_append_dropWhile (p := isBlank) (l := cs), ht, List.nil_append]
  rw [skip_of_bare (hd.symm ▸ h), ht, hd]

end Trivia
end SqlTree
