import Mathlib
import SqlTree.Proofs.Lexing.Apart
import SqlTree.Proofs.Naming.Statement
import SqlTree.Proofs.Reading.Primary
import SqlTree.Proofs.Tracking.Session

/-! # Names that are read are read back

A name is a word, a quoted word or a keyword that is not reserved. The key of a value in braces may
be a string as well. The written form of each is a single token.

* `Ident.Unreserved`: a bare name is no reserved word, in any case of letters.
* `Ident.ReadsBack dq reader`: the written form of a name is one token, and the reader makes the
  same name of it.
* `Ident.Legal.readsBack`, `Ident.IsKey.readsBack`: so it is for what the grammar takes for names
  and keys.
* `names_of_parse`: so it is for all names and keys in all that is read.
-/

namespace SqlTree
set_option autoImplicit false

open Parse

/-! ## Names -/

/-- A name without quotes is no reserved word, whatever the case of its letters. -/
def Ident.Unreserved (i : Ident) : Prop :=
  i.quote = none → ∀ k : Keyword, k.isReserved = true → Text.sameIgnoringCase i.name k.text = false

/-- The written form of a name is exactly one token, and the reader makes the same name of it. -/
def Ident.ReadsBack (dq : Bool) (reader : Parse Ident) (i : Ident) : Prop :=
  ∃ token ending cursor, tokenize i.text dq = .ok ⟨[token], ending⟩ ∧
    reader (Cursor.ofLexed ⟨[token], ending⟩) = .ok i cursor ∧ cursor.ahead = []

/-- All names and keys in a statement are read back, and none of them is reserved. -/
structure Statement.NamesReadBack (dq : Bool) (s : Statement) : Prop where
  names : ∀ i, s.HasName i → i.Unreserved ∧ i.ReadsBack dq identifier
  keys : ∀ i, s.HasKey i →
    i.Unreserved ∧ i.ReadsBack dq (if i.quote = some '\'' then fieldKey else identifier)

/-- A word in any case of letters is in the table of keywords. -/
theorem Keyword.ofText?_of_sameIgnoringCase {word : String} {k : Keyword}
    (h : Text.sameIgnoringCase word k.text = true) : ofText? word = some k := by
  have hfold : Text.foldAscii word = Text.foldAscii k.text := beq_iff_eq.1 h
  rw [← ofText?_of_keyword (ofWord?_keyword false k), ofText?, ofText?, hfold]

theorem Ident.Legal.unreserved {dq : Bool} {i : Ident} (h : i.Legal dq) : i.Unreserved := by
  intro hq k hk
  rw [Bool.eq_false_iff]
  intro hsame
  have hkeyword := Keyword.ofText?_of_sameIgnoringCase hsame
  obtain ⟨kind, hw, hkind⟩ := h
  rw [Ident.text, hq] at hw
  rcases hkind with rfl | ⟨k', rfl, hk', -⟩
  · rw [hq] at hw
    rw [ofText?_of_name hw] at hkeyword
    cases hkeyword
  · rw [ofText?_of_keyword hw] at hkeyword
    cases hkeyword
    rw [hk] at hk'
    cases hk'

/-- What takes the only token of a written name reads the name back. -/
theorem Ident.readsBack_of_takes {dq : Bool} {i : Ident} {reader : Parse Ident} {kind : TokenKind}
    (hw : TokenKind.ofWord? dq i.text = some kind) (hk : ∀ s, kind ≠ .symbol s)
    (h : Takes dq reader (i.layout.solid ++ []) i []) : i.ReadsBack dq reader := by
  have hnone : ∀ {n : Nat} {ts : List Token}, Reads dq n [] ts → ts = [] := by
    rintro n ts ⟨⟩
    rfl
  have hapart : i.layout.Apart dq := Layout.apart_nil.word hw hk rfl
  obtain ⟨⟨tokens, ending⟩, htokenize, hreads, hending⟩ := tokenize_of_apart hapart rfl
  have hchars : i.layout.chars = i.text := by simp [Ident.layout, Layout.chars, Piece.text]
  obtain ⟨c, hc, hat⟩ := h (Cursor.ofLexed ⟨tokens, ending⟩) ⟨by rwa [List.append_nil], hending⟩
  obtain ⟨token, ts, htokens, -, hts⟩ : ∃ token ts, tokens = token :: ts ∧
      (Piece.word i.text).Spells dq 0 token ∧ Reads dq 0 [] ts :=
    Cursor.At.cons (c := Cursor.ofLexed ⟨tokens, ending⟩) ⟨hreads, hending⟩ (by simp)
  obtain rfl : tokens = [token] := by rw [htokens, hnone hts]
  exact ⟨token, ending, c, hchars ▸ htokenize, hc, hnone hat.reads⟩

/-- A name is read back as a name. -/
theorem Ident.Legal.readsBack {dq : Bool} {i : Ident} (h : i.Legal dq) :
    i.ReadsBack dq identifier := by
  obtain ⟨kind, hw, hkind⟩ := id h
  refine readsBack_of_takes hw ?_ (takes_identifier h)
  rcases hkind with rfl | ⟨k, rfl, -⟩ <;> simp

/-- A key in quotes for strings is read back as a key, any other one as a name. -/
theorem Ident.IsKey.readsBack {d : Dialect} {i : Ident} (h : i.IsKey d.dq) :
    i.ReadsBack d.dq (if i.quote = some '\'' then fieldKey else identifier) := by
  by_cases hq : i.quote = some '\''
  · rw [if_pos hq]
    exact readsBack_of_takes (ofWord?_key d.dq hq) (by simp) (takes_fieldKey h)
  · rw [if_neg hq]
    exact (h.resolve_right hq).readsBack

theorem Ident.IsKey.unreserved {dq : Bool} {i : Ident} (h : i.IsKey dq) : i.Unreserved := by
  rcases h with h | hq
  · exact h.unreserved
  · exact fun hnone => by simp [hq] at hnone

theorem Statement.Named.readsBack {d : Dialect} {s : Statement} (h : s.Named d.dq) :
    s.NamesReadBack d.dq where
  names _ hi := ⟨(h.hasName hi).unreserved, (h.hasName hi).readsBack⟩
  keys _ hi := ⟨(h.hasKey hi).unreserved, (h.hasKey hi).readsBack⟩

/-! ## Sessions -/

namespace Session

variable {s : Session}

/-- The tokens of a session are tokens by themselves. -/
def Genuine (s : Session) : Prop :=
  s.lexError? = none → s.cursor.Genuine s.options.dialect.dq

theorem genuine_start (source : String) (o : Options) : (start source o).Genuine := by
  intro h
  cases ht : tokenize source o.dialect.dq with
  | error e =>
    rw [start_of_error ht] at h
    cases h
  | ok lexed =>
    rw [cursor_start ht, start_options]
    exact ⟨(tokenize_genuine ht).1, (tokenize_genuine ht).2⟩

theorem gives_item (o : Options) (source : String) (call : Call) :
    Gives o.dialect.dq (call.item o source) fun ts => ∀ t ∈ ts, t.Named o.dialect.dq := by
  cases call with
  | statement => exact gives_singleStatement.bind fun _ h => .pure (by simpa using h)
  | statements => exact gives_statements

/-- One call. -/
theorem named_of_call (h : s.Genuine) (call : Call) :
    (∀ ts, (s.call call).1 = .ok ts → ∀ t ∈ ts, t.Named s.options.dialect.dq) ∧
      (s.call call).2.Genuine := by
  rcases s.call_cases call with ⟨e, -, hcall⟩ | ⟨ts, d, hends, hs, hr, hcall⟩ |
    ⟨fault, d, hends, hs, hr, hcall⟩
  · rw [hcall]
    exact ⟨nofun, h⟩
  · obtain ⟨hd, hts⟩ := gives_item s.options s.source call s.cursor (h hs) ts d hr
    rw [hcall]
    refine ⟨fun ts' he => Except.ok.inj he ▸ hts, fun _ => ?_⟩
    rw [cursor_moveTo]
    exact hd
  · have hleads := tracks_item s.options s.source call 0 s.cursor (.nil (Nat.zero_le _))
    rw [hr] at hleads
    rw [hcall]
    refine ⟨nofun, fun _ => ?_⟩
    rw [cursor_moveTo]
    exact hleads.1.genuine (h hs)

/-- Any calls, one behind the other. -/
theorem named_of_answers (h : s.Genuine) (calls : List Call) :
    ∀ ts, .ok ts ∈ s.answers calls → ∀ t ∈ ts, t.Named s.options.dialect.dq := by
  induction calls generalizing s with
  | nil => simp [answers]
  | cons call calls ih =>
    obtain ⟨hanswer, hbehind⟩ := named_of_call h call
    intro ts hts
    rcases List.mem_cons.1 hts with he | hm
    · exact hanswer ts he.symm
    · rw [← (s.goes_call call).options]
      exact ih hbehind ts hm

end Session

/-- All names in all that is read, however a text is read, are read back from their own written
form, which is a single token, and none of them is reserved. -/
theorem names_of_parse (source : String) (o : Options) :
    (∀ s, parseStatement source o = .ok s → s.NamesReadBack o.dialect.dq) ∧
    (∀ ss, parseStatements source o = .ok ss → ∀ s ∈ ss, s.NamesReadBack o.dialect.dq) ∧
    ∀ calls ss, .ok ss ∈ (Session.start source o).answers calls →
      ∀ s ∈ ss, s.NamesReadBack o.dialect.dq := by
  have hanswers := fun calls => Session.named_of_answers (Session.genuine_start source o) calls
  rw [Session.start_options] at hanswers
  refine ⟨fun s hs => ?_, fun ss hss s hm => ?_, fun calls ss hss s hm => ?_⟩
  · refine (hanswers [.statement] [s] ?_ s (by simp)).readsBack
    have hcall : ((Session.start source o).call .statement).1 = .ok [s] := by
      rw [Session.call]
      exact congrArg (Except.map fun t => [t]) hs
    simp [Session.answers, hcall]
  · exact (hanswers [.statements] ss (List.mem_singleton.2 hss.symm) s hm).readsBack
  · exact (hanswers calls ss hss s hm).readsBack

end SqlTree
