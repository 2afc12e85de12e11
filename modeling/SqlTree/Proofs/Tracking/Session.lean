import Mathlib
import SqlTree.Proofs.Lexing.Placed
import SqlTree.Proofs.Tracking.Statement

/-! # Calls on a session

* `Session.Call`: a call on a session. `Session.call` makes it, `Session.after` is the session behind
  some calls, and `Session.answers` are what they answer.
* `Session.Goes s answer s'`: what any call does to a session. `goes_call` is the step, and
  `goes_after` what any calls do.
* `Session.invariant_after`: the tokens, the place and the numbers of a session, whatever the calls
  were and whether they failed.
* `Session.found_of_error`: the token that a fault tells is the one where the session is left.
* `Session.place_of_error`: where a call fails.
-/

namespace SqlTree
set_option autoImplicit false

open Parse Text

/-! ## Tokens and places -/

/-- A token that is kept, or two closing angles of which the second one is left. -/
def Token.KeptOrHalved (t t' : Token) : Prop :=
  t' = t ∨ ∃ b, t = ⟨.symbol .shiftRight, ⟨b, b + 2⟩, ">>"⟩ ∧
    t' = ⟨.symbol .greater, ⟨b + 1, b + 2⟩, ">"⟩

theorem Token.Placed.keptOrHalved {cs : List Char} {t t' : Token} (h : t.Placed cs)
    (ht : t.Becomes t') : t.KeptOrHalved t' := by
  rcases ht with rfl | ⟨hk, rfl⟩
  · exact .inl rfl
  · obtain ⟨before, -, -, he⟩ := h.angles hk
    exact .inr ⟨_, he, by rw [he]; rfl⟩

/-- What is left of a token stands where the token does. -/
theorem Token.Placed.cuts_of_becomes {cs : List Char} {t t' : Token} (h : t.Placed cs)
    (ht : t.Becomes t') : t'.span.Cuts cs := by
  rcases ht with rfl | ⟨hk, rfl⟩
  · exact h.cuts
  · obtain ⟨before, rest, rfl, he⟩ := h.angles hk
    refine ⟨before ++ ['>'], ['>'], rest, by simp, ?_, ?_⟩
    · rw [he, byteLength_append]
      rfl
    · rw [he, byteLength_append, byteLength_append]
      rfl

namespace Cursor

theorem current_mem (c : Cursor) : c.current ∈ c.tokens :=
  List.mem_of_getElem? c.getElem?_position

theorem Leads.forall₂ {c d : Cursor} (h : c.Leads d) :
    List.Forall₂ Token.Becomes c.tokens d.tokens :=
  List.rel_append h.tokens (.cons (.inl h.ending) .nil)

theorem Leads.position_le {c d : Cursor} (h : c.Leads d) : c.position ≤ d.position := by
  have hlength := h.tokens.length_eq
  have hahead := h.length_le
  simp only [List.length_append, List.length_reverse, position] at hlength ⊢
  omega

/-- All tokens that a cursor goes through stand in a text. -/
def Placed (cs : List Char) (c : Cursor) : Prop :=
  ∀ t ∈ c.tokens, t.Placed cs

theorem placed_ofLexed {cs : List Char} {l : Lexed} (htokens : ∀ t ∈ l.tokens, t.Placed cs)
    (hending : l.ending.Placed cs) : (ofLexed l).Placed cs := by
  intro t ht
  rcases List.mem_append.1 ht with ht | ht
  · exact htokens t ht
  · rwa [List.mem_singleton.1 ht]

theorem Placed.keptOrHalved {cs : List Char} {c d : Cursor} (h : c.Placed cs) (hd : c.Leads d) :
    List.Forall₂ Token.KeptOrHalved c.tokens d.tokens :=
  ((List.forall₂_and_left _ _).2 ⟨h, hd.forall₂⟩).imp fun _ _ ht => ht.1.keptOrHalved ht.2

theorem Placed.cuts_current {cs : List Char} {c d : Cursor} (h : c.Placed cs) (hd : c.Leads d) :
    d.current.span.Cuts cs :=
  forall_mem_of_becomes hd.forall₂ (fun t ht _ => (h t ht).cuts_of_becomes) _ d.current_mem

/-- Only the last token is the end of the text. -/
theorem EndsOnce.tokens {c : Cursor} (h : c.EndsOnce) :
    ∃ ts e, c.tokens = ts ++ [e] ∧ e.kind = .endOfInput ∧ ∀ t ∈ ts, t.kind ≠ .endOfInput := by
  refine ⟨_, _, rfl, h.ending, fun t ht => ?_⟩
  rcases List.mem_append.1 ht with ht | ht
  · exact h.behind t (List.mem_reverse.1 ht)
  · exact h.ahead t ht

end Cursor

/-! ## Calls -/

namespace Session

/-- A call on a session. -/
inductive Call where
  | statement
  | statements
  deriving DecidableEq, Repr

/-- What a call answers. -/
abbrev Answer := Except ParseError (List Statement)

/-- What a call reads; a single statement makes a list, too. -/
def Call.item (o : Options) (source : String) : Call → Parse (List Statement)
  | .statement => do return [← singleStatement o source]
  | .statements => Parse.statements o source

/-- Makes a call on a session. -/
def call (s : Session) : Call → Answer × Session
  | .statement => (s.statement.1.map fun t => [t], s.statement.2)
  | .statements => s.statements

/-- The session behind some calls. -/
def after (s : Session) : List Call → Session
  | [] => s
  | call :: calls => (s.call call).2.after calls

/-- The answers of some calls. -/
def answers (s : Session) : List Call → List Answer
  | [] => []
  | call :: calls => (s.call call).1 :: (s.call call).2.answers calls

/-- The numbers of all question marks in an answer. -/
def Answer.numbers : Answer → List Nat
  | .ok ss => ss.flatMap Statement.numbers
  | .error _ => []

variable {s s' : Session} {c : Cursor}

theorem read_map {α β : Type} (s : Session) (p : Parse α) (f : α → β) :
    s.read (p >>= fun a => pure (f a)) = ((s.read p).1.map f, (s.read p).2) := by
  cases h : s.lexError? with
  | some e =>
    rw [read_of_lexError h, read_of_lexError h]
    rfl
  | none =>
    obtain ⟨hd, hp⟩ := read_eq h p
    obtain ⟨hd', hmap⟩ := read_eq h (p >>= fun a => pure (f a))
    have hresult : answerOf s.source ((p >>= fun a => pure (f a)) s.cursor) =
        (answerOf s.source (p s.cursor)).map f ∧
        leftAt ((p >>= fun a => pure (f a)) s.cursor) = leftAt (p s.cursor) := by
      rw [bind_apply]
      cases p s.cursor <;> exact ⟨rfl, rfl⟩
    rw [hp, hmap]
    exact Prod.ext hresult.1 (Session.ext rfl rfl rfl (congrArg Cursor.place hresult.2))

theorem call_eq_read (s : Session) (call : Call) :
    s.call call = s.read (call.item s.options s.source) := by
  cases call with
  | statements => rfl
  | statement => exact (s.read_map _ _).symm

/-- A text that cannot be split into tokens fails in the same way at every call. -/
theorem call_of_lexError {e : LexError} (h : s.lexError? = some e) (call : Call) :
    s.call call = (.error (.lexical e), s) := by
  rw [call_eq_read, read_of_lexError h]

theorem call_of_answer {d : Cursor} {ss : List Statement} (h : s.lexError? = none) {call : Call}
    (hr : call.item s.options s.source s.cursor = .ok ss d) :
    ∃ hd, s.call call = (.ok ss, s.moveTo d hd) := by
  have hread := read_eq h (call.item s.options s.source)
  rwa [hr, ← call_eq_read] at hread

theorem call_of_fault {d : Cursor} {fault : Fault} (h : s.lexError? = none) {call : Call}
    (hr : call.item s.options s.source s.cursor = .error fault d) :
    ∃ hd, s.call call = (.error (.grammar fault
      (Location.ofOffset s.source.toList fault.found.span.start)), s.moveTo d hd) := by
  have hread := read_eq h (call.item s.options s.source)
  rwa [hr, ← call_eq_read] at hread

/-- All that a call can do. -/
theorem call_cases (s : Session) (call : Call) :
    (∃ e, s.lexError? = some e ∧ s.call call = (.error (.lexical e), s)) ∨
    (∃ ss d hd, s.lexError? = none ∧ call.item s.options s.source s.cursor = .ok ss d ∧
      s.call call = (.ok ss, s.moveTo d hd)) ∨
    ∃ fault d hd, s.lexError? = none ∧ call.item s.options s.source s.cursor = .error fault d ∧
      s.call call = (.error (.grammar fault
        (Location.ofOffset s.source.toList fault.found.span.start)), s.moveTo d hd) := by
  cases h : s.lexError? with
  | some e => exact .inl ⟨e, rfl, call_of_lexError h call⟩
  | none =>
    cases hr : call.item s.options s.source s.cursor with
    | ok ss d =>
      obtain ⟨hd, hcall⟩ := call_of_answer h hr
      exact .inr (.inl ⟨ss, d, hd, rfl, rfl, hcall⟩)
    | error fault d =>
      obtain ⟨hd, hcall⟩ := call_of_fault h hr
      exact .inr (.inr ⟨fault, d, hd, rfl, rfl, hcall⟩)

theorem tracks_item (o : Options) (source : String) (call : Call) :
    Tracks (fun ss => ss.flatMap Statement.parts) (call.item o source) := by
  cases call with
  | statement => exact .bind tracks_singleStatement fun _ => .same (by simp)
  | statements => exact tracks_statements

/-! ## What calls do -/

/-- What calls whose answers hold some numbers do to a session. -/
structure Goes (s : Session) (numbers : List Nat) (s' : Session) : Prop where
  options : s'.options = s.options
  source : s'.source = s.source
  lexError : s'.lexError? = s.lexError?
  leads : s.cursor.Leads s'.cursor
  fresh : Fresh s.cursor.placeholders s'.cursor.placeholders numbers

theorem Goes.refl (s : Session) : s.Goes [] s :=
  ⟨rfl, rfl, rfl, .refl _, .nil (Nat.le_refl _)⟩

theorem Goes.trans {s'' : Session} {ns ms : List Nat} (h : s.Goes ns s') (h' : s'.Goes ms s'') :
    s.Goes (ns ++ ms) s'' :=
  ⟨h'.options.trans h.options, h'.source.trans h.source, h'.lexError.trans h.lexError,
    h.leads.trans h'.leads, h.fresh.append h'.fresh⟩

/-- One call. -/
theorem goes_call (s : Session) (call : Call) :
    s.Goes (s.call call).1.numbers (s.call call).2 := by
  have htracks := tracks_item s.options s.source call s.cursor.placeholders s.cursor
    (.nil (Nat.le_refl _))
  rcases s.call_cases call with ⟨e, -, hcall⟩ | ⟨ss, d, hd, -, hr, hcall⟩ |
    ⟨fault, d, hd, -, hr, hcall⟩
  · rw [hcall]
    exact .refl s
  · have hnumbers : Answer.numbers (.ok ss) = numbersOf (ss.flatMap Statement.parts) :=
      List.flatMap_assoc.symm
    rw [hr] at htracks
    rw [hcall]
    refine ⟨rfl, rfl, rfl, ?_, ?_⟩
    · rw [cursor_moveTo]
      exact htracks.1
    · rw [cursor_moveTo, hnumbers]
      exact htracks.2
  · rw [hr] at htracks
    rw [hcall]
    refine ⟨rfl, rfl, rfl, ?_, ?_⟩
    · rw [cursor_moveTo]
      exact htracks.1
    · rw [cursor_moveTo]
      exact .nil htracks.1.placeholders_le

/-- Any calls, one behind the other. -/
theorem goes_after (s : Session) (calls : List Call) :
    s.Goes ((s.answers calls).flatMap Answer.numbers) (s.after calls) := by
  induction calls generalizing s with
  | nil => exact .refl s
  | cons call calls ih => exact (s.goes_call call).trans (ih (s.call call).2)

/-- A text that cannot be split into tokens stays where it is. -/
theorem after_of_lexError {e : LexError} (h : s.lexError? = some e) (calls : List Call) :
    s.after calls = s := by
  induction calls with
  | nil => rfl
  | cons call calls ih => rw [after, call_of_lexError h, ih]

theorem call_after_of_lexError {e : LexError} (h : s.lexError? = some e) (calls : List Call)
    (call : Call) : (s.after calls).call call = (.error (.lexical e), s) := by
  rw [after_of_lexError h, call_of_lexError h]

/-! ## The end of the text -/

/-- The answer of a call where nothing is left. -/
def Call.answerAtEnd (source : String) (found : Token) : Call → Answer
  | .statement => .error (.grammar ⟨.expected ["statement"], found⟩
      (Location.ofOffset source.toList found.span.start))
  | .statements => .ok []

theorem semicolons_of_atEnd (h : c.current.kind = .endOfInput) : semicolons c = .ok () c := by
  have hnone : ∀ t ∈ c.ahead.head?, t.isSemicolon = false := by
    intro t ht
    rw [Cursor.current, List.headD_eq_head?_getD, Option.mem_def.1 ht] at h
    simpa [Token.isSemicolon] using fun hk => by simp [hk] at h
  rw [semicolons_apply, Cursor.behindSemicolons_of_ne hnone]

theorem statements_of_atEnd {o : Options} {source : String} (h : c.current.kind = .endOfInput) :
    Parse.statements o source c = .ok [] c := by
  have hend : (c.current.kind == .endOfInput) = true := by simpa using h
  have hnext : nextStatement o source c = .ok none c := by
    unfold nextStatement
    rw [bind_apply, semicolons_of_atEnd h]
    dsimp only
    rw [bind_apply, atEnd_apply, hend]
    rfl
  have hcollect : ∀ allowance, collectWithin (nextStatement o source) allowance c = .ok [] c := by
    intro allowance
    cases allowance <;> rw [collectWithin, bind_apply, hnext] <;> rfl
  exact hcollect c.ahead

/-- Where nothing is left a call finds that out and stays there. -/
theorem call_of_atEnd (h : s.lexError? = none) (hc : s.cursor.current.kind = .endOfInput)
    (call : Call) : s.call call = (call.answerAtEnd s.source s.cursor.current, s) := by
  cases call with
  | statement =>
    have hend : (s.cursor.current.kind == .endOfInput) = true := by simpa using hc
    have hitem : Call.statement.item s.options s.source s.cursor =
        .error ⟨.expected ["statement"], s.cursor.current⟩ s.cursor := by
      rw [Call.item, bind_apply, singleStatement_apply, if_pos hend]
    obtain ⟨hd, hcall⟩ := call_of_fault h hitem
    rw [hcall, moveTo_cursor]
    rfl
  | statements =>
    have hitem : Call.statements.item s.options s.source s.cursor = .ok [] s.cursor :=
      statements_of_atEnd hc
    obtain ⟨hd, hcall⟩ := call_of_answer h hitem
    rw [hcall, moveTo_cursor]
    rfl

theorem answers_of_atEnd (h : s.lexError? = none) (hc : s.cursor.current.kind = .endOfInput)
    (calls : List Call) :
    s.answers calls = calls.map (Call.answerAtEnd s.source s.cursor.current) := by
  induction calls with
  | nil => rfl
  | cons call calls ih => rw [answers, call_of_atEnd h hc, ih, List.map_cons]

/-- A repetition ends where a step has no answer. -/
theorem step_of_collectWithin {α : Type} {step : Parse (Option α)} {as : List α} {d : Cursor}
    (allowance : List Token) {c : Cursor} (h : collectWithin step allowance c = .ok as d) :
    ∃ c', step c' = .ok none d := by
  induction allowance generalizing c as with
  | nil =>
    rw [collectWithin, bind_apply] at h
    cases hs : step c with
    | error e d' => simp [hs] at h
    | ok a? d' =>
      cases a? with
      | none =>
        rw [hs] at h
        cases h
        exact ⟨c, hs⟩
      | some a =>
        rw [hs] at h
        cases h
  | cons t allowance ih =>
    rw [collectWithin, bind_apply] at h
    cases hs : step c with
    | error e d' => simp [hs] at h
    | ok a? d' =>
      cases a? with
      | none =>
        rw [hs] at h
        cases h
        exact ⟨c, hs⟩
      | some a =>
        rw [hs] at h
        obtain ⟨as', d'', hrest, hd⟩ := exists_of_bind h
        cases hd
        exact ih hrest

theorem atEnd_of_nextStatement {o : Options} {source : String} {d : Cursor}
    (h : nextStatement o source c = .ok none d) : d.current.kind = .endOfInput := by
  cases hk : c.behindSemicolons.current.kind == .endOfInput with
  | true =>
    unfold nextStatement at h
    rw [bind_apply, semicolons_apply] at h
    dsimp only at h
    rw [bind_apply, atEnd_apply, hk] at h
    cases h
    simpa using hk
  | false =>
    -- Before the end a statement is answered, if anything is.
    rw [nextStatement_apply hk] at h
    split at h
    · cases h
    · split at h
      · cases h
      · split at h
        · cases h
        · cases h

theorem atEnd_of_item {o : Options} {source : String} {call : Call} {ss : List Statement}
    {d : Cursor} (h : call.item o source c = .ok ss d) : d.current.kind = .endOfInput := by
  cases call with
  | statement =>
    obtain ⟨t, d', ht, hd⟩ := exists_of_bind h
    cases hd
    rw [singleStatement_apply] at ht
    split at ht
    · cases ht
    · split at ht
      · cases ht
      · split at ht
        · next hk =>
          cases ht
          simpa using hk
        · cases ht
  | statements =>
    obtain ⟨c', hc'⟩ := step_of_collectWithin c.ahead h
    exact atEnd_of_nextStatement hc'

/-- Behind a call with an answer nothing is left. -/
theorem atEnd_of_answer {call : Call} {ss : List Statement} (h : (s.call call).1 = .ok ss) :
    (s.call call).2.lexError? = none ∧ (s.call call).2.cursor.current.kind = .endOfInput := by
  rcases s.call_cases call with ⟨e, -, hcall⟩ | ⟨ss', d, hd, hnone, hr, hcall⟩ |
    ⟨fault, d, hd, -, -, hcall⟩
  · rw [hcall] at h
    cases h
  · rw [hcall]
    dsimp only
    rw [cursor_moveTo]
    exact ⟨hnone, atEnd_of_item hr⟩
  · rw [hcall] at h
    cases h

/-! ## All sessions -/

/-- The tokens of a session that begins stand in its text. -/
theorem placed_start (source : String) (o : Options) :
    (start source o).cursor.Placed source.toList := by
  cases ht : tokenize source o.dialect.doubleQuotedStrings with
  | error e =>
    have hcursor : (start source o).cursor = .ofLexed (endOf source) := by
      rw [start_of_error ht]
      exact Cursor.cursor_ofLexed _
    rw [hcursor]
    exact Cursor.placed_ofLexed (List.forall_mem_nil _)
      ⟨⟨source.toList, [], [], by simp, rfl, by simp [endOf]⟩, nofun⟩
  | ok lexed =>
    obtain ⟨htokens, hending⟩ := tokenize_placed ht
    rw [cursor_start ht]
    exact Cursor.placed_ofLexed htokens hending

section Places

variable (s : Session)

theorem tokens_place : s.place.tokens.toList = s.cursor.tokens := by
  rw [place_eq]
  rfl

theorem position_place : s.place.position = s.cursor.position := by
  rw [place_eq]
  rfl

theorem current_place : s.place.current = s.cursor.current := by
  rw [place_eq, Cursor.place_current]

end Places

/-- Whatever is called on a session, and whether or not it fails: the tokens are those of the text,
but for two closing angles of which one is left, and only the last one is the end; the session is at
one of them, so that it never finds what stands outside of them, and never goes back; the numbers of
question marks grow, so that no two of them are alike; and behind a call with an answer nothing is
left. -/
theorem invariant_after (source : String) (o : Options) (calls : List Call) :
    let first := start source o
    let s := first.after calls
    (∀ lexed, tokenize source o.dialect.doubleQuotedStrings = .ok lexed →
      first.place.tokens.toList = lexed.tokens ++ [lexed.ending]) ∧
    List.Forall₂ Token.KeptOrHalved first.place.tokens.toList s.place.tokens.toList ∧
    s.place.tokens.size = first.place.tokens.size ∧
    (∃ ts e, s.place.tokens.toList = ts ++ [e] ∧ e.kind = .endOfInput ∧
      ∀ t ∈ ts, t.kind ≠ .endOfInput) ∧
    s.place.tokens[s.place.position]? = some s.place.current ∧
    (∀ call, s.place.position ≤ (s.call call).2.place.position ∧
      s.place.placeholders ≤ (s.call call).2.place.placeholders) ∧
    ((first.answers calls).flatMap Answer.numbers).Nodup ∧
    ∀ call ss, (s.call call).1 = .ok ss →
      let found := (s.call call).2.place.current
      found.kind = .endOfInput ∧
        ∀ later, (s.call call).2.answers later = later.map (Call.answerAtEnd source found) := by
  intro first s
  have hplaced : first.cursor.Placed source.toList := placed_start source o
  have hgoes : first.Goes ((first.answers calls).flatMap Answer.numbers) s := goes_after first calls
  have hkept := hplaced.keptOrHalved hgoes.leads
  refine ⟨fun lexed ht => ?_, ?_, ?_, ?_, ?_, fun call => ?_, hgoes.fresh.nodup,
    fun call ss hanswer => ?_⟩
  · rw [tokens_place, cursor_start ht]
    rfl
  · rw [tokens_place, tokens_place]
    exact hkept
  · rw [← Array.length_toList, ← Array.length_toList, tokens_place, tokens_place]
    exact hkept.length_eq.symm
  · rw [tokens_place]
    exact s.sound.endsOnce.tokens
  · rw [← Array.getElem?_toList, tokens_place, position_place, current_place]
    exact s.cursor.getElem?_position
  · have hcall := s.goes_call call
    rw [position_place, position_place]
    exact ⟨hcall.leads.position_le, hcall.leads.placeholders_le⟩
  · obtain ⟨herror, hend⟩ := atEnd_of_answer hanswer
    have hsource : (s.call call).2.source = source :=
      (s.goes_call call).source.trans (hgoes.source.trans (start_source source o))
    rw [current_place]
    refine ⟨hend, fun later => ?_⟩
    rw [answers_of_atEnd herror hend, hsource]

/-- A call that fails where there are tokens tells the token that the session is left at. No reader
moves between the fault and the end of the call. -/
theorem found_of_error (h : s.lexError? = none) {call : Call} {e : ParseError}
    (he : (s.call call).1 = .error e) : ∃ fault, fault.found = (s.call call).2.cursor.current ∧
      e = .grammar fault (Location.ofOffset s.source.toList fault.found.span.start) := by
  have htracks := tracks_item s.options s.source call 0 s.cursor (.nil (Nat.zero_le _))
  rcases s.call_cases call with ⟨e, hsome, -⟩ | ⟨ss, d, hd, -, -, hcall⟩ |
    ⟨fault, d, hd, -, hr, hcall⟩
  · cases h.symm.trans hsome
  · rw [hcall] at he
    cases he
  · rw [hr] at htracks
    rw [hcall] at he ⊢
    refine ⟨fault, ?_, (Except.error.inj he).symm⟩
    rw [cursor_moveTo]
    exact htracks.2

/-- Where a call fails. A text that cannot be split into tokens fails in the same way at every call,
with the first fault of its lexer. Any other error is about the token that the session is left at.
In both cases the location is that of the bytes, which are in the text. -/
theorem place_of_error (source : String) (o : Options) (calls : List Call) (call : Call) :
    let s := (start source o).after calls
    (∀ fault, tokenize source o.dialect.doubleQuotedStrings = .error fault →
      (s.call call).1 = .error (.lexical fault) ∧ ∃ ts : List Token,
        (Lexer.ofText source o.dialect.doubleQuotedStrings).steps (ts.length + 1) =
          ts.map .ok ++ [.error fault] ∧ ∀ t ∈ ts, t.kind ≠ .endOfInput) ∧
    (∀ lexed e, tokenize source o.dialect.doubleQuotedStrings = .ok lexed →
      (s.call call).1 = .error e →
        let place := (s.call call).2.place
        ∃ found, place.tokens[place.position]? = some found ∧
          e.isLexical = false ∧ e.span = found.span ∧ e.found? = some found.kind) ∧
    ∀ e, (s.call call).1 = .error e →
      e.location = Location.ofOffset source.toList e.span.start ∧ e.span.Cuts source.toList := by
  intro s
  have hgoes := goes_after (start source o) calls
  cases ht : tokenize source o.dialect.doubleQuotedStrings with
  | error fault =>
    have herror : (start source o).lexError? = some fault := by rw [start_of_error ht]
    have hcall : s.call call = (.error (.lexical fault), start source o) :=
      call_after_of_lexError herror calls call
    obtain ⟨hsteps, hplace⟩ := tokenize_error ht
    rw [hcall]
    refine ⟨fun fault' h => ?_, fun lexed e h _ => (by cases h), fun e h => ?_⟩
    · cases h
      exact ⟨rfl, hsteps⟩
    · cases h
      exact hplace
  | ok lexed =>
    have herror : s.lexError? = none := hgoes.lexError.trans (by rw [start_of_ok ht])
    have hsource : s.source = source := hgoes.source.trans (start_source source o)
    refine ⟨fun fault h => (by cases h), fun lexed e _ he => ?_, fun e he => ?_⟩
    · obtain ⟨fault, hfound, rfl⟩ := found_of_error herror he
      intro place
      refine ⟨fault.found, ?_, rfl, rfl, rfl⟩
      rw [← Array.getElem?_toList, tokens_place, position_place, hfound]
      exact Cursor.getElem?_position _
    · obtain ⟨fault, hfound, rfl⟩ := found_of_error herror he
      refine ⟨by rw [hsource]; rfl, ?_⟩
      show fault.found.span.Cuts source.toList
      rw [hfound]
      exact (placed_start source o).cuts_current (hgoes.leads.trans (s.goes_call call).leads)

end Session

end SqlTree
