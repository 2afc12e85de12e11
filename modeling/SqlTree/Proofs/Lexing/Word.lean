import Mathlib
import SqlTree.Proofs.Lexing.NumberForm
import SqlTree.Token.Lexer

/-! # A token in front of other text

Written text is split into tokens by longest match, so whether a token is found again depends on
what is written behind it.

* `Stands dq kind text rest`: in front of `rest` the characters `text` are a token of that kind,
  and exactly they are.
* `TokenKind.ofWord? dq word`: the token that a whole text is, if it is one.
* `TokenKind.EndsBefore kind next`: a character that does not go on with a token of that kind.
* `stands_of_ofWord?`: a word stands in front of every text that does not go on with it.
* `stands_symbol`: a symbol stands in front of every text but those that make a longer one of it.
* `ofWord?_keyword`, `ofWord?_string`, `ofWord?_blob`: certain words.
-/

namespace SqlTree
set_option autoImplicit false

open Text

/-- In front of `rest` the characters `text` are one token, and no trivia opens there. -/
def Stands (dq : Bool) (kind : TokenKind) (text rest : List Char) : Prop :=
  Trivia.skip (text ++ rest) = ([], text ++ rest) ∧
    scanToken dq (text ++ rest) = ⟨.ok kind, text, rest⟩

/-- The token that a whole text is, if it is one. -/
def TokenKind.ofWord? (dq : Bool) (word : String) : Option TokenKind :=
  match scanToken dq word.toList with
  | ⟨.ok kind, _ :: _, []⟩ => some kind
  | _ => none

theorem scanToken_of_ofWord? {dq : Bool} {word : String} {kind : TokenKind}
    (h : TokenKind.ofWord? dq word = some kind) :
    scanToken dq word.toList = ⟨.ok kind, word.toList, []⟩ ∧ word.toList ≠ [] := by
  unfold TokenKind.ofWord? at h
  split at h
  · next k c cs he =>
    have hc := scanToken_append dq word.toList
    rw [he] at hc ⊢
    simp only [Option.some.injEq, List.append_nil] at h hc
    rw [h, hc]
    exact ⟨rfl, by rw [← hc]; simp⟩
  · simp at h

theorem scanQuoted_ne_endOfInput {opening : List Char} {q : Char} {unclosed : LexFault}
    {kind : List Char → Except LexFault TokenKind} (hk : ∀ cs, kind cs ≠ .ok .endOfInput)
    (cs : List Char) : (scanQuoted opening q unclosed kind cs).outcome ≠ .ok .endOfInput := by
  unfold scanQuoted
  split
  · exact hk _
  · simp

theorem scanPlain_ne_endOfInput (c : Char) (cs : List Char) :
    (scanPlain c cs).outcome ≠ .ok .endOfInput := by
  unfold scanPlain
  split
  · unfold NumberScan.kind
    dsimp only
    split <;> simp
  · split
    · unfold wordKind
      dsimp only
      split <;> simp
    · split <;> simp

theorem scanToken_ne_endOfInput (dq : Bool) {cs : List Char} (h : cs ≠ []) :
    (scanToken dq cs).outcome ≠ .ok .endOfInput := by
  have hb : ∀ cs, blobKind cs ≠ .ok .endOfInput := fun cs => by unfold blobKind; split <;> simp
  unfold scanToken
  split
  · contradiction
  · exact scanQuoted_ne_endOfInput (by simp [stringKind]) _
  · split
    · exact scanQuoted_ne_endOfInput (by simp [stringKind]) _
    · exact scanQuoted_ne_endOfInput (by simp [quotedName]) _
  · exact scanQuoted_ne_endOfInput (by simp [quotedName]) _
  · exact scanQuoted_ne_endOfInput hb _
  · exact scanQuoted_ne_endOfInput hb _
  · simp
  · exact scanPlain_ne_endOfInput _ _

/-! ## Where trivia does not open -/

theorem skip_of_head {c : Char} {cs : List Char} (hb : isBlank c = false)
    (hd : c = '-' → cs.head? ≠ some '-') (hs : c = '/' → cs.head? ≠ some '*') :
    Trivia.skip (c :: cs) = ([], c :: cs) := by
  have h1 : (c :: cs).takeWhile isBlank = [] := by simp [hb]
  have h2 : (c :: cs).dropWhile isBlank = c :: cs := by simp [hb]
  unfold Trivia.skip
  simp only [h1]
  split
  · next more h =>
    rw [h2] at h
    simp only [List.cons.injEq] at h
    exact absurd (by simp [h.2]) (hd h.1)
  · next more h =>
    rw [h2] at h
    simp only [List.cons.injEq] at h
    exact absurd (by simp [h.2]) (hs h.1)
  · rw [h2]

/-! ## Quoted text -/

/-- A closed content ends at the same quote, whatever follows that is not one more quote. -/
theorem body_append_rest {q : Char} {rest : List Char} (hr : rest.head? ≠ some q) :
    ∀ (cs : List Char) {inside : List Char}, Quoted.body q cs = (inside, some []) →
      Quoted.body q (cs ++ rest) = (inside, some rest)
  | [], _, h => by simp [Quoted.body] at h
  | [c], inside, h => by
    by_cases hc : c = q
    · simp only [Quoted.body, hc, if_true, Prod.mk.injEq, and_true] at h
      rw [hc, ← h]
      exact Quoted.body_double q [] rest hr
    · simp [Quoted.body, hc] at h
  | c :: d :: cs, inside, h => by
    by_cases hc : c = q
    · by_cases hd : d = q
      · simp only [Quoted.body, hc, hd, if_true, Prod.mk.injEq] at h
        have hi := body_append_rest hr cs (Prod.ext rfl h.2)
        simp [Quoted.body, hc, hd, hi, ← h.1]
      · simp [Quoted.body, hc, hd] at h
    · simp only [Quoted.body, hc, if_false, Prod.mk.injEq] at h
      have hi := body_append_rest hr (d :: cs) (Prod.ext rfl h.2)
      rw [List.cons_append, Quoted.body_cons_of_ne hc, hi, ← h.1]

theorem scanQuoted_append_rest {opening : List Char} {q : Char} {unclosed : LexFault}
    {kind : List Char → Except LexFault TokenKind} {cs taken : List Char} {k : TokenKind}
    (h : scanQuoted opening q unclosed kind cs = ⟨.ok k, taken, []⟩) (rest : List Char)
    (hr : rest.head? ≠ some q) :
    scanQuoted opening q unclosed kind (cs ++ rest) = ⟨.ok k, taken, rest⟩ := by
  unfold scanQuoted at h ⊢
  split at h
  · next inside r he =>
    simp only [Scanned.mk.injEq] at h
    obtain ⟨hk, ht, rfl⟩ := h
    rw [body_append_rest hr cs he]
    simp [hk, ht]
  · simp at h

/-! ## Numbers -/

/-- A character that is no part of a word, or the end of the text. -/
def EndsWord (rest : List Char) : Prop :=
  ∀ c ∈ rest.head?, isWordPart c = false

theorem isWordPart_of_isDigit {c : Char} (h : c.isDigit = true) : isWordPart c = true := by
  have hn : c.toNat < 128 := by
    simp only [Char.isDigit, Bool.and_eq_true, decide_eq_true_eq, ge_iff_le] at h
    have := h.2
    simp only [UInt32.le_iff_toNat_le] at this
    exact Nat.lt_of_le_of_lt this (by decide)
  simp [isWordPart, isNumeral, hn, h]

theorem isWordPart_of_isExponentMark {c : Char} (h : isExponentMark c = true) :
    isWordPart c = true := by
  simp only [isExponentMark, Bool.or_eq_true, beq_iff_eq] at h
  rcases h with rfl | rfl <;> decide

/-- A number that is a text by itself is found again in front of what is neither part of a word nor
a point. -/
theorem scanNumber_append_rest {c : Char} {cs : List Char} (hc : c.isDigit = true)
    (h : (scanNumber (c :: cs)).rest = []) {rest : List Char} (hr : EndsWord rest)
    (hp : rest.head? ≠ some '.') :
    scanNumber (c :: cs ++ rest) = { scanNumber (c :: cs) with rest := rest } := by
  have hn := complete_scanNumber hc cs
  have hcomplete : NumberScan.Complete { scanNumber (c :: cs) with rest := rest } := by
    refine ⟨hn.whole, hn.fraction, hn.exponent, fun d hd => ?_, fun _ _ point hpoint hcut => ?_,
      fun _ power hpower hcut => ?_⟩
    · by_contra hdigit
      exact absurd (isWordPart_of_isDigit (by simpa using hdigit)) (by simp [hr d hd])
    · obtain ⟨tail, rfl⟩ := hcut
      exact hp (NumberForm.head?_fraction hpoint tail)
    · obtain ⟨tail, rfl⟩ := hcut
      obtain ⟨mark, hhead, hm⟩ := NumberForm.head?_exponent hpower tail
      exact absurd (isWordPart_of_isExponentMark hm) (by simp [hr mark hhead])
  have happ := scanNumber_append (c :: cs)
  rw [h, List.append_nil] at happ
  have hscan := scanNumber_of_complete hcomplete
  rwa [show NumberScan.taken { scanNumber (c :: cs) with rest := rest } = c :: cs from happ] at hscan

/-! ## Words -/

/-- Whether a token of a kind, no symbol, ends in front of a character. -/
def TokenKind.EndsBefore (kind : TokenKind) (next : Option Char) : Prop :=
  ∀ c ∈ next, isWordPart c = false ∧ c ∉ ['\'', '"', '\x60'] ∧
    ((∃ digits, kind = .integer digits ∨ kind = .float digits) → c ≠ '.')

theorem TokenKind.EndsBefore.endsWord {kind : TokenKind} {rest : List Char}
    (h : kind.EndsBefore rest.head?) : EndsWord rest :=
  fun c hc => (h c hc).1

theorem TokenKind.EndsBefore.ne_quote {kind : TokenKind} {rest : List Char}
    (h : kind.EndsBefore rest.head?) {q : Char} (hq : q ∈ ['\'', '"', '\x60']) :
    rest.head? ≠ some q :=
  fun he => (h q he).2.1 hq

/-- The code points of white space. -/
def blankPoints : List Nat :=
  [9, 10, 11, 12, 13, 32, 0x85, 0xA0, 0x1680, 0x2000, 0x2001, 0x2002, 0x2003, 0x2004, 0x2005,
    0x2006, 0x2007, 0x2008, 0x2009, 0x200A, 0x2028, 0x2029, 0x202F, 0x205F, 0x3000]

theorem toNat_mem_blankPoints {c : Char} (h : isBlank c = true) : c.toNat ∈ blankPoints := by
  simp only [isBlank, Bool.or_eq_true, Bool.and_eq_true, decide_eq_true_eq, beq_iff_eq] at h
  simp only [blankPoints, List.mem_cons, List.not_mem_nil, or_false]
  omega

/-- White space is no part of a word. -/
theorem isWordPart_of_isBlank {c : Char} (h : isBlank c = true) : isWordPart c = false := by
  have hp : ∀ n ∈ blankPoints, isWordPart (Char.ofNat n) = false := by decide +kernel
  have hc := hp c.toNat (toNat_mem_blankPoints h)
  rwa [Char.ofNat_toNat] at hc

/-- A digit or the start of a word. -/
def StartsPlain (c : Char) : Prop :=
  c.isDigit = true ∨ isWordStart c = true

theorem isWordPart_of_startsPlain {c : Char} (h : StartsPlain c) : isWordPart c = true :=
  h.elim isWordPart_of_isDigit isWordPart_of_isWordStart

theorem StartsPlain.ne {c d : Char} (h : StartsPlain c) (hd : isWordPart d = false) : c ≠ d := by
  rintro rfl
  simp [isWordPart_of_startsPlain h] at hd

theorem scanToken_eq_scanPlain (dq : Bool) {c : Char} {cs : List Char}
    (hq : c ∉ ['\'', '"', '\x60']) (hx : c = 'X' ∨ c = 'x' → cs.head? ≠ some '\'')
    (hs : c = '/' → cs.head? ≠ some '*') : scanToken dq (c :: cs) = scanPlain c cs := by
  simp only [List.mem_cons, List.not_mem_nil, or_false, not_or] at hq
  unfold scanToken
  split <;> simp_all

/-- What begins with a digit is a number. -/
theorem scanToken_of_isDigit (dq : Bool) {c : Char} (hc : c.isDigit = true) (cs : List Char) :
    scanToken dq (c :: cs) =
      ⟨.ok (scanNumber (c :: cs)).kind, (scanNumber (c :: cs)).taken, (scanNumber (c :: cs)).rest⟩ := by
  have hs : StartsPlain c := .inl hc
  rw [scanToken_eq_scanPlain]
  · simp only [scanPlain, hc, if_true]
  · simp only [List.mem_cons, List.not_mem_nil, or_false, not_or]
    exact ⟨hs.ne (by decide), hs.ne (by decide), hs.ne (by decide)⟩
  · rintro (rfl | rfl) <;> simp at hc
  · exact fun he => absurd he (hs.ne (by decide))

theorem startsPlain_of_scanPlain {c : Char} {cs : List Char} {k : TokenKind} {taken rest : List Char}
    (h : scanPlain c cs = ⟨.ok k, taken, rest⟩) (hk : ∀ s, k ≠ .symbol s) : StartsPlain c := by
  unfold scanPlain at h
  split at h
  · next hd => exact .inl hd
  · split at h
    · next hw => exact .inr hw
    · split at h
      · simp only [Scanned.mk.injEq, Except.ok.injEq] at h
        exact absurd h.1.symm (hk _)
      · simp at h

theorem scanPlain_append_rest {c : Char} {cs : List Char} {k : TokenKind}
    (h : scanPlain c cs = ⟨.ok k, c :: cs, []⟩) (hc : StartsPlain c) {rest : List Char}
    (hr : k.EndsBefore rest.head?) : scanPlain c (cs ++ rest) = ⟨.ok k, c :: cs, rest⟩ := by
  unfold scanPlain at h ⊢
  split at h
  · next hd =>
    simp only [Scanned.mk.injEq, Except.ok.injEq] at h
    obtain ⟨hk, ht, hn⟩ := h
    have hp : rest.head? ≠ some '.' := by
      intro he
      refine (hr '.' he).2.2 ?_ rfl
      unfold NumberScan.kind at hk
      split at hk
      · exact ⟨_, .inl hk.symm⟩
      · exact ⟨_, .inr hk.symm⟩
    have ha := scanNumber_append_rest hd hn hr.endsWord hp
    rw [List.cons_append] at ha
    simp only [hd, if_true, ha, Scanned.mk.injEq, Except.ok.injEq, and_true]
    exact ⟨hk, ht⟩
  · next hd =>
    have hw : isWordStart c = true := hc.resolve_left hd
    simp only [hw, if_true, Scanned.mk.injEq, Except.ok.injEq, List.cons.injEq, true_and] at h
    have ha := takeWhile_append_rest cs hr.endsWord
    simp only [hd, hw, if_true, Bool.false_eq_true, if_false, ha.1, ha.2, h.2.1, h.2.2]
    rw [← h.1, h.2.1]
    rfl

/-- A word that is a token stands in front of every text that does not go on with it. -/
theorem stands_of_ofWord? {dq : Bool} {word : String} {kind : TokenKind}
    (h : TokenKind.ofWord? dq word = some kind) (hk : ∀ s, kind ≠ .symbol s) {rest : List Char}
    (hr : kind.EndsBefore rest.head?) : Stands dq kind word.toList rest := by
  obtain ⟨hs, hne⟩ := scanToken_of_ofWord? h
  generalize word.toList = cs at hs hne
  have hq : ∀ {opening q unclosed f cs}, scanQuoted opening q unclosed f cs = ⟨.ok kind, opening ++ cs, []⟩ →
      q ∈ ['\'', '"', '\x60'] →
      scanQuoted opening q unclosed f (cs ++ rest) = ⟨.ok kind, opening ++ cs, rest⟩ :=
    fun h hq => scanQuoted_append_rest h rest (hr.ne_quote hq)
  unfold scanToken at hs
  split at hs
  · contradiction
  · exact ⟨skip_of_head (by decide) (by simp) (by simp), by simpa [scanToken] using hq hs (by simp)⟩
  · refine ⟨skip_of_head (by decide) (by simp) (by simp), ?_⟩
    split at hs
    · next hd => simpa [scanToken, hd] using hq hs (by simp)
    · next hd => simpa [scanToken, hd] using hq hs (by simp)
  · exact ⟨skip_of_head (by decide) (by simp) (by simp), by simpa [scanToken] using hq hs (by simp)⟩
  · exact ⟨skip_of_head (by decide) (by simp) (by simp), by simpa [scanToken] using hq hs (by simp)⟩
  · exact ⟨skip_of_head (by decide) (by simp) (by simp), by simpa [scanToken] using hq hs (by simp)⟩
  · simp at hs
  · next c cs h1 h2 h3 h4 h5 h6 =>
    have hc : StartsPlain c := startsPlain_of_scanPlain hs hk
    have hw := isWordPart_of_startsPlain hc
    have hb : isBlank c = false := by
      by_contra hb
      simp [isWordPart_of_isBlank (by simpa using hb)] at hw
    refine ⟨skip_of_head hb (fun he => absurd he (hc.ne (by decide)))
      (fun he => absurd he (hc.ne (by decide))), ?_⟩
    rw [List.cons_append, scanToken_eq_scanPlain, scanPlain_append_rest hs hc hr]
    · simp only [List.mem_cons, List.not_mem_nil, or_false, not_or]
      exact ⟨hc.ne (by decide), hc.ne (by decide), hc.ne (by decide)⟩
    · rintro (rfl | rfl)
      · cases cs with
        | nil => exact hr.ne_quote (by simp)
        | cons d cs => intro he; exact h4 cs rfl (by simpa using he)
      · cases cs with
        | nil => exact hr.ne_quote (by simp)
        | cons d cs => intro he; exact h5 cs rfl (by simpa using he)
    · exact fun he => absurd he (hc.ne (by decide))

/-! ## Certain words -/

theorem TokenKind.ofWord?_eq_some {dq : Bool} {word : String} {kind : TokenKind}
    (h : scanToken dq word.toList = ⟨.ok kind, word.toList, []⟩) (hne : word.toList ≠ []) :
    TokenKind.ofWord? dq word = some kind := by
  unfold TokenKind.ofWord?
  rw [h]
  cases hw : word.toList with
  | nil => contradiction
  | cons c cs => rfl

theorem ofWord?_keyword (dq : Bool) (k : Keyword) :
    TokenKind.ofWord? dq k.text = some (.keyword k) := by
  have h : ∀ b : Bool, ∀ k ∈ Keyword.all, TokenKind.ofWord? b k.text = some (.keyword k) := by
    decide +kernel
  exact h dq k (Keyword.mem_all k)

theorem scanQuoted_double (opening : List Char) (q : Char) (unclosed : LexFault)
    (kind : List Char → Except LexFault TokenKind) (content : List Char) :
    scanQuoted opening q unclosed kind (Quoted.double q content ++ [q]) =
      ⟨kind content, opening ++ Quoted.double q content ++ [q], []⟩ := by
  simp [scanQuoted, Quoted.body_double q content [] (by simp), Quoted.undouble_double]

theorem ofWord?_string (dq : Bool) (content : String) :
    TokenKind.ofWord? dq (Quoted.enclose '\'' '\'' content) = some (.string content) := by
  apply TokenKind.ofWord?_eq_some
  · simp [Quoted.enclose, scanToken, scanQuoted_double, stringKind]
  · simp [Quoted.enclose]

/-- The quotes that names may be written in. -/
def IsNameQuote (dq : Bool) (q : Char) : Prop :=
  q = '\x60' ∨ q = '"' ∧ dq = false

/-! ## Bytes in hexadecimal digits -/

theorem value?_digit {n : Nat} (h : n < 16) : Hexadecimal.value? (Hexadecimal.digit n) = some n := by
  have hn : ∀ m < 16, Hexadecimal.value? (Hexadecimal.digit m) = some m := by decide
  exact hn n h

theorem digit_plain {n : Nat} (h : n < 16) :
    isBlank (Hexadecimal.digit n) = false ∧ Hexadecimal.digit n ≠ '\'' := by
  have hn : ∀ m < 16, isBlank (Hexadecimal.digit m) = false ∧ Hexadecimal.digit m ≠ '\'' := by
    decide
  exact hn n h

theorem mem_ofBytes {bytes : List UInt8} {c : Char} (h : c ∈ Hexadecimal.ofBytes bytes) :
    isBlank c = false ∧ c ≠ '\'' := by
  simp only [Hexadecimal.ofBytes, List.mem_flatMap, List.mem_cons, List.not_mem_nil, or_false] at h
  obtain ⟨b, -, rfl | rfl⟩ := h
  · exact digit_plain (by have := b.toNat_lt; omega)
  · exact digit_plain (Nat.mod_lt _ (by decide))

theorem toBytes_ofBytes (bytes : List UInt8) :
    Hexadecimal.toBytes (Hexadecimal.ofBytes bytes) = .ok bytes := by
  have hf : (Hexadecimal.ofBytes bytes).filter (fun c => !isBlank c) = Hexadecimal.ofBytes bytes :=
    List.filter_eq_self.2 fun c hc => by simp [(mem_ofBytes hc).1]
  have hv : (Hexadecimal.ofBytes bytes).mapM Hexadecimal.value? =
      some (bytes.flatMap fun b => [b.toNat / 16, b.toNat % 16]) := by
    induction bytes with
    | nil => rfl
    | cons b bytes ih =>
      have h1 := value?_digit (n := b.toNat / 16) (by have := b.toNat_lt; omega)
      have h2 := value?_digit (n := b.toNat % 16) (Nat.mod_lt _ (by decide))
      have hb : Hexadecimal.ofBytes (b :: bytes) =
          Hexadecimal.digit (b.toNat / 16) :: Hexadecimal.digit (b.toNat % 16) ::
            Hexadecimal.ofBytes bytes := rfl
      rw [hb, List.mapM_cons, List.mapM_cons, h1, h2,
        ih (List.filter_eq_self.2 fun c hc => by simp [(mem_ofBytes hc).1])]
      rfl
  have hp : ∀ bytes : List UInt8, Hexadecimal.pairs
      (bytes.flatMap fun b => [b.toNat / 16, b.toNat % 16]) = .ok bytes := by
    intro bytes
    induction bytes with
    | nil => rfl
    | cons b bytes ih =>
      have hb : UInt8.ofNat (16 * (b.toNat / 16) + b.toNat % 16) = b := by
        rw [Nat.div_add_mod]
        exact UInt8.ofNat_toNat
      simp [Hexadecimal.pairs, ih, hb, Except.map]
  simp only [Hexadecimal.toBytes, hf, hv, hp]

theorem double_of_not_mem {q : Char} (cs : List Char) (h : q ∉ cs) : Quoted.double q cs = cs := by
  induction cs with
  | nil => rfl
  | cons c cs ih =>
    simp only [List.mem_cons, not_or] at h
    simp [Quoted.double, Ne.symm h.1, ih h.2]

/-- The written form of bytes. -/
def blobText (bytes : List UInt8) : String :=
  String.ofList ('X' :: '\'' :: Hexadecimal.ofBytes bytes ++ ['\''])

theorem ofWord?_blob (dq : Bool) (bytes : List UInt8) :
    TokenKind.ofWord? dq (blobText bytes) = some (.blob bytes) := by
  have hd := double_of_not_mem (q := '\'') (Hexadecimal.ofBytes bytes)
    fun h => (mem_ofBytes h).2 rfl
  apply TokenKind.ofWord?_eq_some
  · have h := scanQuoted_double ['X', '\''] '\'' .openBlob blobKind (Hexadecimal.ofBytes bytes)
    rw [hd] at h
    simp [blobText, scanToken, h, blobKind, toBytes_ofBytes]
  · simp [blobText]

/-! ## Symbols -/

/-- The characters that make a longer symbol, or a comment, of a symbol in front of them. -/
def Symbol.extenders : Symbol → List Char
  | .less => ['=', '>', '<', '&']
  | .greater => ['=', '>']
  | .bitOr => ['|']
  | .bitAnd => ['>']
  | .colon => [':']
  | .minus => ['-']
  | .slash => ['*']
  | _ => []

theorem Symbol.skip_text (s : Symbol) {rest : List Char} (h : ∀ c ∈ rest.head?, c ∉ s.extenders) :
    Trivia.skip (s.text.toList ++ rest) = ([], s.text.toList ++ rest) := by
  cases rest with
  | nil => cases s <;> simp only [Symbol.text] <;> exact skip_of_head (by decide) (by decide) (by decide)
  | cons d rest =>
    replace h := h d (by simp)
    cases s <;> simp [Symbol.extenders] at h <;> simp [Symbol.text] <;>
      exact skip_of_head (by decide) (by simp_all) (by simp_all)

theorem Symbol.scan_text (dq : Bool) (s : Symbol) {rest : List Char}
    (h : ∀ c ∈ rest.head?, c ∉ s.extenders) :
    scanToken dq (s.text.toList ++ rest) = ⟨.ok (.symbol s), s.text.toList, rest⟩ := by
  have hp : ∀ c ∈ ['+', '-', '*', '/', '%', '=', '!', '<', '>', '|', '&', '~', '(', ')', '[', ']',
      '\x7b', '\x7d', ',', ';', '.', ':', '?', '@'], c.isDigit = false ∧ isWordStart c = false := by
    simp [isWordStart, isLetter]
  simp only [List.forall_mem_cons] at hp
  cases rest with
  | nil => cases s <;> simp [Symbol.text] <;> simp [scanToken, scanPlain, scanSymbol, hp]
  | cons d rest =>
    replace h := h d (by simp)
    cases s <;> simp [Symbol.extenders] at h <;> simp [Symbol.text] <;>
      simp [scanToken, scanPlain, scanSymbol, hp, h]

theorem stands_symbol (dq : Bool) (s : Symbol) {rest : List Char}
    (h : ∀ c ∈ rest.head?, c ∉ s.extenders) :
    Stands dq (.symbol s) s.text.toList rest :=
  ⟨s.skip_text h, s.scan_text dq h⟩

end SqlTree
