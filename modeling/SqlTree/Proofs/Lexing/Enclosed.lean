import Mathlib
import SqlTree.Statement.Layout
import SqlTree.Proofs.Lexing.Moved
import SqlTree.Proofs.Lexing.Word

/-! # Quoted text does not leak

Whatever is written between quotes, and whatever stands behind the closing one, what is read is
first the content and then what stands behind.

* `Enclosed dq form kind q`: the written forms that end in a quote `q`, and the tokens they stand
  for. They are strings, names, the keys of fields in braces, and strings of bytes.
* `Lexer.steps_of_stands`: a token at the head of a text, and the tokens of what is behind it.
* `steps_of_enclosed`: one token for the whole form, and the tokens of what is behind it.
-/

namespace SqlTree
set_option autoImplicit false

open Text

/-- A written form between quotes, the token it stands for, and the closing quote. -/
inductive Enclosed (dq : Bool) : Layout → TokenKind → Char → Prop where
  | string (content : String) :
      Enclosed dq (Expr.layout (.literal (.string content))) (.string content) '\''
  | key (name : String) :
      Enclosed dq (Ident.layout { name, quote := some '\'' }) (.string name) '\''
  | name {q : Char} (hq : IsNameQuote dq q) (name : String) :
      Enclosed dq (Ident.layout { name, quote := some q }) (.identifier name (some q)) q
  | blob (bytes : List UInt8) :
      Enclosed dq (Expr.layout (.literal (.blob bytes))) (.blob bytes) '\''

/-- A content that is written between quotes ends at its closing quote. -/
theorem scanQuoted_double_append (opening : List Char) (q : Char) (unclosed : LexFault)
    {kind : List Char → Except LexFault TokenKind} (content : List Char) {k : TokenKind}
    (hk : kind content = .ok k) {rest : List Char} (hr : rest.head? ≠ some q) :
    scanQuoted opening q unclosed kind (Quoted.double q content ++ [q] ++ rest) =
      ⟨.ok k, opening ++ Quoted.double q content ++ [q], rest⟩ := by
  refine scanQuoted_append_rest ?_ rest hr
  rw [scanQuoted_double, hk]

/-- A quote or the mark of a blob opens no trivia. -/
theorem skip_of_opening {c : Char} (h : c ∈ ['\'', '"', '\x60', 'X']) (cs : List Char) :
    Trivia.skip (c :: cs) = ([], c :: cs) := by
  simp only [List.mem_cons, List.not_mem_nil, or_false] at h
  rcases h with rfl | rfl | rfl | rfl <;> exact skip_of_head (by decide) (by simp) (by simp)

/-- A written string stands in front of all that does not begin with its quote. -/
theorem stands_string (dq : Bool) (content : String) {rest : List Char}
    (hr : rest.head? ≠ some '\'') :
    Stands dq (.string content) (Quoted.enclose '\'' '\'' content).toList rest := by
  have h := scanQuoted_double_append ['\''] '\'' .openString content.toList
    (show stringKind content.toList = .ok (.string content) by simp [stringKind]) hr
  refine ⟨?_, ?_⟩
  · simpa [Quoted.enclose] using skip_of_opening (by simp) _
  · simpa [Quoted.enclose, scanToken] using h

/-- A quoted name stands in front of all that does not begin with its quote. -/
theorem stands_quotedName {dq : Bool} {q : Char} (hq : IsNameQuote dq q) (name : String)
    {rest : List Char} (hr : rest.head? ≠ some q) :
    Stands dq (.identifier name (some q)) (Quoted.enclose q q name).toList rest := by
  have h := scanQuoted_double_append [q] q .openIdentifier name.toList
    (show quotedName q name.toList = .ok (.identifier name (some q)) by simp [quotedName]) hr
  refine ⟨?_, ?_⟩
  · rcases hq with rfl | ⟨rfl, -⟩ <;>
      simpa [Quoted.enclose] using skip_of_opening (by simp) _
  · rcases hq with rfl | ⟨rfl, rfl⟩ <;> simpa [Quoted.enclose, scanToken] using h

/-- Written bytes stand in front of all that does not begin with their quote. -/
theorem stands_blob (dq : Bool) (bytes : List UInt8) {rest : List Char}
    (hr : rest.head? ≠ some '\'') : Stands dq (.blob bytes) (blobText bytes).toList rest := by
  have h := scanQuoted_double_append ['X', '\''] '\'' .openBlob (Hexadecimal.ofBytes bytes)
    (show blobKind (Hexadecimal.ofBytes bytes) = .ok (.blob bytes) by
      simp [blobKind, toBytes_ofBytes]) hr
  rw [double_of_not_mem _ fun hm => (mem_ofBytes hm).2 rfl] at h
  refine ⟨?_, ?_⟩
  · simpa [blobText] using skip_of_opening (by simp) _
  · simpa [blobText, scanToken] using h

theorem Enclosed.stands {dq : Bool} {form : Layout} {kind : TokenKind} {q : Char}
    (h : Enclosed dq form kind q) {rest : List Char} (hr : rest.head? ≠ some q) :
    ∃ written, form.text = .ok written ∧ Stands dq kind written.toList rest := by
  have ht : ∀ word, Layout.text [.word word] = .ok word := fun word => by
    simp [Layout.text, Layout.defect?, Layout.chars, Piece.text]
  have hn : ∀ name q, (Ident.layout { name, quote := some q }).text =
      .ok (Quoted.enclose q (Ident.closingQuote q) name) := fun name q => ht _
  cases h with
  | string content => exact ⟨_, ht _, stands_string dq content hr⟩
  | key name => exact ⟨_, hn name '\'', stands_string dq name hr⟩
  | name hq name =>
    have hc : Ident.closingQuote q = q := by
      rcases hq with rfl | ⟨rfl, -⟩ <;> decide
    refine ⟨_, hn name q, ?_⟩
    rw [hc]
    exact stands_quotedName hq name hr
  | blob bytes => exact ⟨_, ht _, stands_blob dq bytes hr⟩

/-- The token that a text begins with, and then the tokens of what is behind it. -/
theorem Lexer.steps_of_stands {dq : Bool} {kind : TokenKind} {written rest : String}
    (h : Stands dq kind written.toList rest.toList) (n : Nat) :
    (ofText (written ++ rest) dq).steps (n + 1) =
      .ok ⟨kind, ⟨0, byteLength written.toList⟩, written⟩ ::
        ((ofText rest dq).steps n).map (answerBehind (Position.advance {} written.toList)) := by
  have hnext : (ofText (written ++ rest) dq).next =
      (.ok ⟨kind, ⟨0, byteLength written.toList⟩, written⟩,
        (ofText rest dq).behind (Position.advance {} written.toList)) := by
    simp only [Lexer.next, ofText, String.toList_append, h.1, h.2, Position.advance_nil,
      Position.offset_advance, String.ofList_toList, Nat.zero_add]
    rfl
  rw [steps, hnext, steps_behind n ⟨Nat.le_refl 1, Nat.le_refl 1⟩]

/-- Between quotes nothing ends the text early: in front of every text that does not begin with the
same quote, a form is read as the one token it stands for, up to its closing quote, and what is
behind it is read as if it stood alone. -/
theorem steps_of_enclosed {dq : Bool} {form : Layout} {kind : TokenKind} {q : Char}
    (h : Enclosed dq form kind q) (rest : String) (hr : rest.toList.head? ≠ some q) (n : Nat) :
    ∃ written, form.text = .ok written ∧
      (Lexer.ofText (written ++ rest) dq).steps (n + 1) =
        .ok ⟨kind, ⟨0, byteLength written.toList⟩, written⟩ ::
          ((Lexer.ofText rest dq).steps n).map
            (answerBehind (Position.advance {} written.toList)) := by
  obtain ⟨written, ht, hs⟩ := h.stands hr
  exact ⟨written, ht, Lexer.steps_of_stands hs n⟩

/-- A name of quotes and comment marks in front of one more quotation. -/
theorem steps_of_enclosed_name :
    IsNameQuote false '\x60' ∧ "'; -- \x60".toList.head? ≠ some '\x60' ∧
      ∃ written,
        (Ident.layout { name := "\x60/*\x60", quote := some '\x60' }).text = .ok written ∧
        (Lexer.ofText (written ++ "'; -- \x60") false).steps 3 =
          .ok ⟨.identifier "\x60/*\x60" (some '\x60'), ⟨0, byteLength written.toList⟩, written⟩ ::
            ((Lexer.ofText "'; -- \x60" false).steps 2).map
              (answerBehind (Position.advance {} written.toList)) :=
  have hq : IsNameQuote false '\x60' := .inl rfl
  have hr : "'; -- \x60".toList.head? ≠ some '\x60' := by decide
  ⟨hq, hr, steps_of_enclosed (.name hq "\x60/*\x60") "'; -- \x60" hr 2⟩

end SqlTree
