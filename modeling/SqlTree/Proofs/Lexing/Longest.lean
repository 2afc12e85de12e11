import Mathlib
import SqlTree.Proofs.Lexing.Cut
import SqlTree.Proofs.Lexing.Enclosed
import SqlTree.Proofs.Lexing.Placed

/-! # The longest number

* `IsLongest L cs word`: the longest word of a language that a text begins with.
* `isLongest_scanNumber`: behind a digit the longest number is scanned.
* `ofWord?_number`, `tokenize_number`: a text that is a number is one token.
* `Lexer.next_isLongest`: the token that begins with a digit, wherever a lexer meets it.
-/

namespace SqlTree
set_option autoImplicit false

open Text NumberForm

/-! ## What is scanned -/

/-- The longest word of a language that a text begins with. -/
structure IsLongest (L : Language Char) (cs word : List Char) : Prop where
  mem : word ∈ L
  begins : word <+: cs
  longest : ∀ other ∈ L, other <+: cs → other.length ≤ word.length

/-- What is scanned is the longest number that the text begins with. -/
theorem isLongest_scanNumber {c : Char} (hc : c.isDigit = true) (cs : List Char) :
    IsLongest number (c :: cs) (scanNumber (c :: cs)).taken := by
  have hn := complete_scanNumber hc cs
  have hbegins : (scanNumber (c :: cs)).taken <+: c :: cs := ⟨_, scanNumber_append (c :: cs)⟩
  refine ⟨Language.append_mem_mul (Language.append_mem_mul hn.whole hn.fraction) hn.exponent,
    hbegins, fun other ho hother => ?_⟩
  rcases List.prefix_or_prefix_of_prefix hother hbegins with hle | ⟨x, rfl⟩
  · exact hle.length_le
  · -- Cut behind the longer number, the text has the same number at its head and nothing behind it.
    conv_rhs at hother => rw [← scanNumber_append (c :: cs)]
    have hrest := rest_scanNumber ho
    rw [scanNumber_cut hc cs ((List.prefix_append_right_inj _).1 hother)] at hrest
    obtain rfl : x = [] := hrest
    rw [List.append_nil]

example : (scanNumber "2.5E-3e+".toList).taken = "2.5E-3".toList := by decide

/-- What is scanned is of the same kind by itself. -/
theorem kind_taken {c : Char} (hc : c.isDigit = true) (cs : List Char) :
    (scanNumber (scanNumber (c :: cs)).taken).kind = (scanNumber (c :: cs)).kind := by
  have hcut := scanNumber_cut hc cs List.nil_prefix
  rw [List.append_nil] at hcut
  rw [hcut]
  rfl

theorem ofWord?_number (dq : Bool) {word : String} (h : word.toList ∈ number) :
    TokenKind.ofWord? dq word = some (scanNumber word.toList).kind := by
  have happ := scanNumber_append word.toList
  rw [rest_scanNumber h, List.append_nil] at happ
  obtain ⟨c, cs, hw, hc⟩ : ∃ c cs, word.toList = c :: cs ∧ c.isDigit = true := by
    obtain ⟨_, hwp, power, -, hword⟩ := Language.mem_mul.1 h
    obtain ⟨whole, ⟨hne, hd⟩, point, -, rfl⟩ := Language.mem_mul.1 hwp
    obtain ⟨c, whole, rfl⟩ := List.exists_cons_of_ne_nil hne
    exact ⟨c, _, hword.symm, hd c (by simp)⟩
  refine TokenKind.ofWord?_eq_some ?_ (by simp [hw])
  have hscan := scanToken_of_isDigit dq hc cs
  rwa [← hw, happ, rest_scanNumber h] at hscan

/-! ## Where a lexer meets a digit -/

theorem tokenize_number (dq : Bool) {word : String} (h : word.toList ∈ number) :
    tokenize word dq = .ok ⟨[⟨(scanNumber word.toList).kind, ⟨0, byteLength word.toList⟩, word⟩],
      ⟨.endOfInput, ⟨byteLength word.toList, byteLength word.toList⟩, ""⟩⟩ := by
  have hkind : (∀ s, (scanNumber word.toList).kind ≠ .symbol s) ∧
      (scanNumber word.toList).kind ≠ .endOfInput := by
    unfold NumberScan.kind
    split <;> simp
  have hstands : Stands dq (scanNumber word.toList).kind word.toList "".toList :=
    stands_of_ofWord? (ofWord?_number dq h) hkind.1 (by simp [TokenKind.EndsBefore])
  have hsteps := Lexer.steps_of_stands hstands 1
  have hend : (Lexer.ofText "" dq).steps 1 = [.ok ⟨.endOfInput, ⟨0, 0⟩, ""⟩] := by
    rw [Lexer.steps, (Lexer.within_ofText "" dq).next_end (Nat.zero_le _)]
    rfl
  rw [String.append_empty, hend] at hsteps
  refine Lexer.run_of_steps (by simpa using hkind.2) rfl (hsteps.trans ?_)
  simp [answerBehind, Token.behind, Span.behind, Position.offset_advance]

/-- Wherever in a text a token begins with a digit, faults in front of it included, its text is the
longest number that the text goes on with. It is an integer exactly if it is digits alone, it is a
floating-point number exactly if it has a fraction or an exponent, and by itself it is the same
token. -/
theorem Lexer.next_isLongest {text : String} {dq : Bool} {n : Nat} {before rest : List Char}
    {c : Char} (ht : text.toList = before ++ c :: rest) (hc : c.isDigit = true)
    (hs : (answerSpan ((ofText text dq).after n).next.1).start = byteLength before) :
    ∃ (kind : TokenKind) (word : String),
      ((ofText text dq).after n).next.1 =
        .ok ⟨kind, ⟨byteLength before, byteLength before + byteLength word.toList⟩, word⟩ ∧
      IsLongest number (c :: rest) word.toList ∧
      (kind = .integer word ↔ word.toList ∈ digits) ∧
      (kind = .float word ↔ word.toList ∈ floating) ∧
      ∀ dq, tokenize word dq = .ok ⟨[⟨kind, ⟨0, byteLength word.toList⟩, word⟩],
        ⟨.endOfInput, ⟨byteLength word.toList, byteLength word.toList⟩, ""⟩⟩ := by
  obtain ⟨hstart, hrest⟩ := ((within_ofText text dq).after n).skip_of_start ht hs
  generalize (ofText text dq).after n = l at hstart hrest
  have hlongest := isLongest_scanNumber hc rest
  have hkind := kind_taken hc rest
  have hnext : l.next.1 = .ok ⟨(scanNumber (c :: rest)).kind,
      ⟨byteLength before, byteLength before + byteLength (scanNumber (c :: rest)).taken⟩,
      String.ofList (scanNumber (c :: rest)).taken⟩ := by
    simp only [next, hrest, scanToken_of_isDigit _ hc, Position.offset_advance _
      (scanNumber (c :: rest)).taken, hstart]
  obtain ⟨word, hword⟩ : ∃ word : String, word.toList = (scanNumber (c :: rest)).taken :=
    ⟨_, String.toList_ofList⟩
  rw [← hword] at hlongest hkind hnext
  obtain ⟨hinteger, hfloat⟩ := kind_iff_of_number hlongest.mem
  rw [String.ofList_toList] at hnext hinteger hfloat
  rw [← hkind] at hnext
  exact ⟨_, word, hnext, hlongest, hinteger, hfloat, fun dq => tokenize_number dq hlongest.mem⟩

/-- Behind a number that ends in front of a point, a number with a fraction and an exponent, and a
letter E and a sign behind it that begin no second one. -/
theorem Lexer.next_isLongest_exponent :
    "1.x, 2.5E-3e+".toList = "1.x, ".toList ++ '2' :: ".5E-3e+".toList ∧
      '2'.isDigit = true ∧
      (answerSpan ((ofText "1.x, 2.5E-3e+" false).after 4).next.1).start =
        byteLength "1.x, ".toList ∧
      ∃ (kind : TokenKind) (word : String),
        ((ofText "1.x, 2.5E-3e+" false).after 4).next.1 =
          .ok ⟨kind, ⟨byteLength "1.x, ".toList,
            byteLength "1.x, ".toList + byteLength word.toList⟩, word⟩ ∧
        IsLongest number ('2' :: ".5E-3e+".toList) word.toList ∧
        (kind = .integer word ↔ word.toList ∈ digits) ∧
        (kind = .float word ↔ word.toList ∈ floating) ∧
        ∀ dq, tokenize word dq = .ok ⟨[⟨kind, ⟨0, byteLength word.toList⟩, word⟩],
          ⟨.endOfInput, ⟨byteLength word.toList, byteLength word.toList⟩, ""⟩⟩ :=
  have ht : "1.x, 2.5E-3e+".toList = "1.x, ".toList ++ '2' :: ".5E-3e+".toList := by decide
  have hc : '2'.isDigit = true := by decide
  have hs : (answerSpan ((ofText "1.x, 2.5E-3e+" false).after 4).next.1).start =
      byteLength "1.x, ".toList := by decide +kernel
  ⟨ht, hc, hs, next_isLongest ht hc hs⟩

end SqlTree
