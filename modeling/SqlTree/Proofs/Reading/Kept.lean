import SqlTree.Statement.Grammar.Any

/-! # Statements kept as written

A statement of an unknown form may be found out behind its first word. It is kept, or refused, from
its start on all the same.

* `Cursor.Passes c d`: some tokens have been gone behind on the way from `c` to `d`, and that is all.
* `Parse.Passing p`: a reader goes behind tokens and does nothing else, also where it stops.
* `kept_apply`: what is kept.
* `unsupported_position`, `showStatement_position`: the statement is kept where it begins.
-/

namespace SqlTree
set_option autoImplicit false

/-! ## Tokens that are passed -/

namespace Cursor

variable {c d e : Cursor}

/-- From one cursor to the other some tokens have been gone behind. -/
def Passes (c d : Cursor) : Prop :=
  ∃ ts, c.ahead = ts ++ d.ahead ∧ d = { c with behind := ts.reverse ++ c.behind, ahead := d.ahead }

theorem Passes.refl (c : Cursor) : c.Passes c :=
  ⟨[], rfl, rfl⟩

theorem Passes.trans (h : c.Passes d) (h' : d.Passes e) : c.Passes e := by
  obtain ⟨behind, ahead, ending, n⟩ := d
  obtain ⟨ts, hts, hd⟩ := h
  obtain ⟨us, hus, he⟩ := h'
  cases hd
  refine ⟨ts ++ us, by rw [hts, List.append_assoc, ← hus], ?_⟩
  rw [he, List.reverse_append, List.append_assoc]

theorem passes_advance (c : Cursor) : c.Passes c.advance := by
  obtain ⟨behind, ahead, ending, n⟩ := c
  cases ahead with
  | nil => exact .refl _
  | cons t ts => exact ⟨[t], rfl, rfl⟩

/-- Tokens that have been gone behind are gone back in front of. -/
theorem Passes.goBack (h : c.Passes d) : d.goBack c.position = c := by
  obtain ⟨behind, ahead, ending, n⟩ := c
  obtain ⟨ts, hts, hd⟩ := h
  rw [hd]
  simp [Cursor.goBack, position, ← hts]

/-- The text from the token under a cursor up to the next semicolon. -/
def statementText (source : String) (c : Cursor) : String :=
  (Parse.coverOf c.current c.skipStatement.1).slice source

end Cursor

namespace Parse

variable {α β : Type} {p : Parse α} {f : α → Parse β} {o : Options} {source : String}

/-! ## Readers that go behind tokens -/

/-- A result that is come to by going behind tokens. -/
def Passed (c : Cursor) : EStateM.Result Fault Cursor α → Prop
  | .ok _ d => c.Passes d
  | .error _ d => c.Passes d

/-- A reader that goes behind tokens and does nothing else. -/
def Passing (p : Parse α) : Prop :=
  ∀ c, Passed c (p c)

theorem Passed.behind {c d : Cursor} {r : EStateM.Result Fault Cursor α} (h : Passed d r)
    (hd : c.Passes d) : Passed c r := by
  cases r with
  | ok a e => exact hd.trans h
  | error fault e => exact hd.trans h

namespace Passing

theorem pure (a : α) : Passing (Pure.pure a) :=
  fun c => .refl c

theorem fail (descriptions : List String) : Passing (fail descriptions : Parse α) :=
  fun c => .refl c

/-- A reader that looks where it stands and stays there. -/
theorem look {g : Cursor → α} (hp : ∀ c, p c = .ok (g c) c) : Passing p := by
  intro c
  rw [hp]
  exact .refl c

theorem bind (hp : Passing p) (hf : ∀ a, Passing (f a)) : Passing (p >>= f) := by
  intro c
  have hc := hp c
  rw [bind_apply]
  cases hr : p c with
  | ok a d =>
    rw [hr] at hc
    exact (hf a d).behind hc
  | error fault d =>
    rw [hr] at hc
    exact hc

theorem ite {condition : Prop} [Decidable condition] {q : Parse α} (hp : Passing p)
    (hq : Passing q) : Passing (if condition then p else q) := by
  split
  · exact hp
  · exact hq

theorem advance : Passing advance :=
  Cursor.passes_advance

theorem attempt (hp : Passing p) : Passing (attempt p) := by
  intro c
  have hc := hp c
  rw [attempt_apply]
  cases hr : p c <;> rw [hr] at hc <;> exact hc

theorem collectWithin {step : Parse (Option α)} (hstep : Passing step) (allowance : List Token) :
    Passing (collectWithin step allowance) := by
  induction allowance with
  | nil =>
    refine .bind hstep fun a? => ?_
    cases a? with
    | none => exact .pure _
    | some a => exact fun c => .refl c
  | cons t allowance ih =>
    refine .bind hstep fun a? => ?_
    cases a? with
    | none => exact .pure _
    | some a => exact .bind ih fun _ => .pure _

theorem collect {step : Parse (Option α)} (hstep : Passing step) : Passing (collect step) :=
  fun c => collectWithin hstep c.ahead c

end Passing

theorem passing_expectKeyword (k : Keyword) : Passing (expectKeyword k) :=
  .bind (.bind (.look fun _ => rfl) fun _ => .ite (.bind .advance fun _ => .pure _) (.pure _))
    fun _ => .ite (.pure _) (.fail _)

theorem passing_identifier : Passing identifier := by
  refine .bind (.look fun _ => rfl) fun token => ?_
  split
  · exact .bind .advance fun _ => .pure _
  · exact .ite (.fail _) (.bind .advance fun _ => .pure _)
  · exact .fail _

theorem passing_objectName : Passing objectName := by
  have hmore : Passing nameAfterDot :=
    .bind (.look fun _ => rfl) fun _ => .bind (.look fun _ => rfl) fun _ =>
      .ite (.bind .advance fun _ => .bind passing_identifier fun _ => .pure _) (.pure _)
  exact .bind (.bind passing_identifier fun _ => .bind hmore.collect fun _ => .pure _)
    fun _ => .pure _

theorem passing_knownShow : Passing knownShow := by
  have hindexes : ∀ word, Passing (indexesOf word) := fun word => by
    refine .bind .advance fun _ => .bind .advance fun _ => .bind passing_objectName.attempt
      fun table? => ?_
    cases table? with
    | none => exact .pure _
    | some table => exact .bind (.look fun _ => rfl) fun _ => .ite (.pure _) (.pure _)
  refine .bind (passing_expectKeyword _) fun _ => .bind (.look fun _ => rfl) fun token =>
    .bind (.look fun _ => rfl) fun _ => ?_
  split
  · exact hindexes _
  · exact .bind (.look fun _ => rfl) fun _ => .bind (.look fun _ => rfl) fun _ =>
      .ite (.bind passing_identifier fun _ => .pure _) (.pure _)

/-! ## Where statements are kept -/

theorem kept_apply (keep : Bool) (source : String) (c : Cursor) :
    kept keep source c =
      if keep then .ok (.unsupported (c.statementText source)) c.skipStatement.2
      else .error ⟨.expected statementWords, c.current⟩ c := by
  unfold kept
  split <;> rfl

/-- A statement is kept from its start, wherever it is found out that its form is unknown. -/
theorem unsupported_of_passes {c d : Cursor} (h : c.Passes d) :
    unsupported o source c.position d = kept o.keepUnsupported source c := by
  show kept o.keepUnsupported source (d.goBack c.position) = _
  rw [h.goBack]

theorem unsupported_position (o : Options) (source : String) (c : Cursor) :
    unsupported o source c.position c = kept o.keepUnsupported source c :=
  unsupported_of_passes (.refl c)

/-- A setting of an unknown form is kept from its start. -/
theorem showStatement_position (o : Options) (source : String) (c : Cursor) :
    showStatement o source c.position c = match knownShow c with
      | .ok (some request) d => .ok (.show request) d
      | .ok none _ => kept o.keepUnsupported source c
      | .error fault d => .error fault d := by
  have hpasses := passing_knownShow c
  rw [showStatement, bind_apply]
  cases hr : knownShow c with
  | error fault d => rfl
  | ok request? d =>
    rw [hr] at hpasses
    cases request? with
    | none => exact unsupported_of_passes hpasses
    | some request => rfl

end Parse

end SqlTree
