import Mathlib
import SqlTree.Proofs.Carrying.Statement
import SqlTree.Proofs.Reading.Kept

/-! # Any statement inside a longer text

* `found_knownShow`: settings. What is not found alone is not found in front of a semicolon.
* `Answered`: what is answered of a statement alone is answered within other tokens, and the
  question marks of a statement that is kept as written are not counted.
* `answered_statementBody`: so are all statements.

A setting of an unknown form is found out only where its name has been read, and then reading goes
back to the first word. So the place where nothing is found says nothing.
-/

namespace SqlTree
set_option autoImplicit false

/-- The number of question marks that a statement read from tokens has counted. -/
def Statement.counted (ts : List Token) : Statement → Nat
  | .unsupported _ => 0
  | _ => questions ts

namespace Cursor

variable {S : Surroundings} {c c₁ : Cursor}

theorem Within.statementEnd (hw : c.Within S c₁) {n : Nat} (hn : n ≤ c.ahead.length) :
    ∃ b, Parse.statementEndAt n c₁ = .ok b c₁ ∧ Parse.statementEndAt n c = .ok b c := by
  have hend : ∀ c : Cursor, Parse.statementEndAt n c =
      .ok (c.peek n == .symbol .semicolon || c.peek n == .endOfInput) c := fun _ => rfl
  rw [hend, hend]
  rcases hw.peek hn with ⟨t, -, h, h₁⟩ | ⟨h, h₁ | h₁⟩
  · rw [h, h₁]
    exact ⟨_, rfl, rfl⟩
  · rw [h, h₁]
    exact ⟨true, rfl, rfl⟩
  · rw [h, h₁]
    exact ⟨true, rfl, rfl⟩

/-- The tokens of a part are those up to the next semicolon. -/
theorem Lone.skipStatement (hc : c.Lone) :
    c.skipStatement = (c.ahead, { c with behind := c.ahead.reverse ++ c.behind, ahead := [] }) := by
  have hinside : ∀ t ∈ c.ahead, (t.kind != .symbol .semicolon) = true :=
    fun t ht => bne_iff_ne.2 (hc.ahead t ht).1
  simp only [Cursor.skipStatement, List.takeWhile_eq_self_iff.2 hinside,
    List.dropWhile_eq_nil_iff.2 hinside]

/-- Behind the tokens of a part the next semicolon is the one behind the part. -/
theorem Within.skipStatement (hw : c.Within S c₁) (hc : c.Lone) :
    c₁.skipStatement.2.ahead = S.after ∧ c₁.skipStatement.2.ending = S.ending ∧
      c₁.skipStatement.2.placeholders = c.placeholders + S.placeholders := by
  obtain ⟨ts, hts, hall⟩ := hw.ahead
  have hinside : ∀ t ∈ ts, (t.kind != .symbol .semicolon) = true := by
    intro t ht
    obtain ⟨i, hi, rfl⟩ := List.getElem_of_mem ht
    have hi' : i < c.ahead.length := hall.length_eq ▸ hi
    have hkind : c.ahead[i].kind = ts[i].kind := ((List.forall₂_iff_get.1 hall).2 i hi' hi).1
    exact bne_iff_ne.2 (hkind ▸ (hc.ahead _ (List.getElem_mem hi')).1)
  refine ⟨?_, hw.ending, hw.placeholders⟩
  show c₁.ahead.dropWhile _ = S.after
  rw [hts, List.dropWhile_append_of_pos hinside]
  have hs := S.separated
  cases ha : S.after with
  | nil => rfl
  | cons t us =>
    rw [List.dropWhile_cons_of_neg]
    simp [hs t (by simp [ha])]

end Cursor

namespace Parse

variable {α : Type} {S : Surroundings} {r : Room} {c c₁ : Cursor} {o : Options}
  {source text : String}

/-! ## Settings -/

/-- What is found alone is found within `S`. Where nothing is found the place does not matter. -/
def Found (S : Surroundings) (c : Cursor)
    (result result' : EStateM.Result Fault Cursor (Option α)) : Prop :=
  match result' with
  | .ok (some a) d => (∃ d₁, result = .ok (some a) d₁ ∧ d.Within S d₁) ∧ c.Onward d
  | .ok none _ => ∃ d₁, result = .ok none d₁
  | .error _ _ => ∃ e d, result = .error e d

theorem Found.behind {d : Cursor} {result result' : EStateM.Result Fault Cursor (Option α)}
    (h : Found S d result result') (hd : c.Onward d) : Found S c result result' := by
  match result', h with
  | .ok (some a) e, h => exact ⟨h.1, hd.trans h.2⟩
  | .ok none _, h => exact h
  | .error _ _, h => exact h

theorem Found.bind {β : Type} {moves : β → Prop} {h : β → β} {p p' : Parse β}
    {f f' : β → Parse (Option α)} (hp : Carried S moves h c (p c₁) (p' c))
    (hf : ∀ b d d₁, d.Within S d₁ → c.Onward d → Found S d (f (h b) d₁) (f' b d)) :
    Found S c ((p >>= f) c₁) ((p' >>= f') c) := by
  rw [bind_apply, bind_apply]
  cases hp' : p' c with
  | error e d =>
    rw [hp'] at hp
    obtain ⟨e₁, d₁, he⟩ := hp
    rw [he]
    exact ⟨e₁, d₁, rfl⟩
  | ok b d =>
    rw [hp'] at hp
    obtain ⟨⟨d₁, hd, hw⟩, hon, -⟩ := hp
    rw [hd]
    exact (hf b d d₁ hw hon).behind hon

/-- An answer that is found if a semicolon or the end of the text stands here. -/
theorem found_atEnd (hw : c.Within S c₁) (hc : c.Lone) (a : α) :
    Found S c ((statementEndAt 0 >>= fun b => if b then pure (some a) else pure none) c₁)
      ((statementEndAt 0 >>= fun b => if b then pure (some a) else pure none) c) := by
  obtain ⟨b, h₁, h⟩ := hw.statementEnd (Nat.zero_le c.ahead.length)
  rw [bind_apply, bind_apply, h₁, h]
  cases b with
  | true => exact ⟨⟨c₁, rfl, hw⟩, hc.onward⟩
  | false => exact ⟨c₁, rfl⟩

theorem found_indexesOf (word : IndexWord) (hw : c.Within S c₁) (hc : c.Lone) (hs : c.Sees 2) :
    Found S c (indexesOf word c₁) (indexesOf word c) := by
  obtain ⟨hw, hon, hs, -⟩ := hs.advance hc hw
  obtain ⟨hw, hon', -, -⟩ := hs.advance hon.lone hw
  refine Found.behind ?_ (hon.trans hon')
  have hname := carries_objectName (r := ⟨c.advance.advance.ahead.length, false⟩) _ _ hw hon'.lone
    (Cursor.sees_zero _) (Nat.lt_succ_self _)
  unfold indexesOf
  rw [bind_apply, bind_apply, advance_apply, advance_apply]
  dsimp only
  rw [bind_apply, bind_apply, advance_apply, advance_apply]
  dsimp only
  rw [bind_apply, bind_apply]
  generalize c.advance.advance = d at *
  generalize c₁.advance.advance = d₁ at *
  rw [attempt_apply, attempt_apply]
  cases hr : objectName d with
  | error e d' =>
    rw [hr] at hname
    obtain ⟨e₁, d₁', he⟩ := hname
    rw [he]
    exact ⟨d₁', rfl⟩
  | ok table d' =>
    rw [hr] at hname
    obtain ⟨⟨d₁', ht, hw'⟩, hon, -⟩ := hname
    rw [ht]
    exact (found_atEnd hw' hon.lone _).behind hon

/-- A setting by its name, with nothing behind it. -/
theorem found_variable (hw : c.Within S c₁) (hc : c.Lone) :
    let read : Parse (Option Show) := do
      if (← nameAt 0) && (← statementEndAt 1) then return some (.variable (← identifier))
      else return none
    Found S c (read c₁) (read c) := by
  intro read
  have happly : ∀ {c : Cursor} {b e : Bool}, startsName (c.peek 0) = b →
      statementEndAt 1 c = .ok e c → read c = (if b && e then identifier >>= fun name =>
        pure (some (.variable name)) else pure none : Parse (Option Show)) c := by
    intro c b e hb he
    have hname : nameAt 0 c = .ok b c := by
      rw [← hb]
      rfl
    simp only [read, bind_apply, hname, he]
  have hmarks : Marks startsName := ⟨rfl, rfl, rfl⟩
  have hname := hw.test hmarks (Nat.zero_le c.ahead.length)
  cases hb : startsName (c.peek 0) with
  | false =>
    have hnone : ∀ {c : Cursor}, startsName (c.peek 0) = false → read c = .ok none c := by
      intro c hb
      rw [happly hb rfl]
      rfl
    rw [hnone hb, hnone (hname.trans hb)]
    exact ⟨c₁, rfl⟩
  | true =>
    have hlength : 1 ≤ c.ahead.length := by
      cases ha : c.ahead with
      | nil => simp [Cursor.peek, ha, startsName] at hb
      | cons t ts => simp
    obtain ⟨e, h₁, h⟩ := hw.statementEnd hlength
    rw [happly hb h, happly (hname.trans hb) h₁]
    cases e with
    | false => exact ⟨c₁, rfl⟩
    | true =>
      have hr : Room.Holds ⟨c.ahead.length, false⟩ c.ahead.length := Nat.lt_succ_self _
      exact Found.bind (carries_identifier c c₁ hw hc (Cursor.sees_zero c) hr)
        fun name d d₁ hw hon => ⟨⟨d₁, rfl, hw⟩, hon.lone.onward⟩

theorem found_knownShow (hw : c.Within S c₁) (hc : c.Lone) :
    Found S c (knownShow c₁) (knownShow c) := by
  have hr : Room.Holds ⟨c.ahead.length, false⟩ c.ahead.length := Nat.lt_succ_self _
  have hshow : Carries S ⟨c.ahead.length, false⟩ id (expectKeyword .SHOW) (expectKeyword .SHOW) := by
    rw [← bind_pure (expectKeyword .SHOW)]
    exact .expectKeyword .SHOW (.pure rfl)
  refine Found.bind (hshow c c₁ hw hc (Cursor.sees_zero c) hr) fun _ d d₁ hw hon => ?_
  have hd := hon.lone
  -- Between the word for indexes and the table there stands one of two keywords.
  have hnext : ∀ (c : Cursor) (b : Bool), (c.peek 1).keyword?.any [Keyword.FROM, .IN].contains = b →
      anyKeywordAt 1 [.FROM, .IN] c = .ok b c := by
    rintro c b rfl
    rfl
  simp only [bind_apply, current_apply]
  rcases hd.current hw with ⟨kind, span, span₁, text, ts, ha, h, h₁⟩ | ⟨-, h, h₁⟩
  · have hlength : 1 ≤ d.ahead.length := by simp [ha]
    have hmarks : Marks fun kind => kind.keyword?.any [Keyword.FROM, .IN].contains :=
      ⟨rfl, rfl, rfl⟩
    have htest := hw.test hmarks hlength
    rw [hnext d _ rfl, hnext d₁ _ htest, h, h₁]
    dsimp only
    cases hword : indexWord? kind with
    | none => exact found_variable hw hd
    | some word =>
      cases hb : (d.peek 1).keyword?.any [Keyword.FROM, .IN].contains with
      | false => exact found_variable hw hd
      | true =>
        have hword' : ((indexWord? (d.peek 0)).isSome) = true := by
          rw [show d.peek 0 = kind by simp [Cursor.peek, ha], hword]
          rfl
        have hmarks' : Marks fun kind => (indexWord? kind).isSome := ⟨rfl, rfl, rfl⟩
        have hsees : d.Sees 1 := (Cursor.sees_zero d).succ hmarks' hword'
        have hsees' : d.Sees 2 := hsees.succ hmarks hb
        exact found_indexesOf word hw hd hsees'
  · have hnone : ∀ kind, kind = .symbol .semicolon ∨ kind = .endOfInput →
        indexWord? kind = none := by
      rintro _ (rfl | rfl) <;> rfl
    rw [hnone _ (.inr h), hnone _ h₁, hnext d _ rfl, hnext d₁ _ rfl]
    exact found_variable hw hd

/-! ## Answers -/

/-- What is answered of a statement alone is answered of it within `S`. -/
def Answered (S : Surroundings) (c : Cursor)
    (result result' : EStateM.Result Fault Cursor Statement) : Prop :=
  match result' with
  | .ok s d =>
    (∃ d₁, result = .ok (s.shift S.placeholders) d₁ ∧ d.Within S d₁) ∧ d.Lone ∧
      d.placeholders + questions d.ahead = c.placeholders + s.counted c.ahead
  | .error _ _ => ∃ e d, result = .error e d

/-- A statement that the grammar knows. -/
theorem Carried.answered {moves : α → Prop} {h : α → α} {p p' : Parse α} {f : α → Statement}
    (hp : Carried S moves h c (p c₁) (p' c))
    (hf : ∀ a, f (h a) = (f a).shift S.placeholders)
    (hcounted : ∀ a ts, (f a).counted ts = questions ts) :
    Answered S c ((p >>= fun a => pure (f a)) c₁) ((p' >>= fun a => pure (f a)) c) := by
  rw [bind_apply, bind_apply]
  cases hp' : p' c with
  | error e d =>
    rw [hp'] at hp
    obtain ⟨e₁, d₁, he⟩ := hp
    rw [he]
    exact ⟨e₁, d₁, rfl⟩
  | ok a d =>
    rw [hp'] at hp
    obtain ⟨⟨d₁, hd, hw⟩, hon, -⟩ := hp
    rw [hd]
    refine ⟨⟨d₁, by rw [← hf]; rfl, hw⟩, hon.lone, ?_⟩
    rw [hcounted]
    exact hon.count

theorem answered_kept {keep : Bool} (hw : c.Within S c₁) (hc : c.Lone)
    (htext : c₁.statementText source = c.statementText text) :
    Answered S c (kept keep source c₁) (kept keep text c) := by
  rw [kept_apply, kept_apply, htext]
  cases keep with
  | false => exact ⟨_, _, rfl⟩
  | true =>
    obtain ⟨hahead, hending, hplaceholders⟩ := hw.skipStatement hc
    rw [if_pos rfl, if_pos rfl, hc.skipStatement]
    refine ⟨⟨_, rfl, ⟨[], hahead, .nil⟩, hending, hplaceholders⟩, ⟨?_, hc.ending⟩, rfl⟩
    intro t ht
    cases ht

theorem answered_showStatement (hw : c.Within S c₁) (hc : c.Lone)
    (htext : c₁.statementText source = c.statementText text) :
    Answered S c (showStatement o source c₁.position c₁) (showStatement o text c.position c) := by
  have hfound := found_knownShow hw hc
  rw [showStatement_position, showStatement_position]
  cases hr : knownShow c with
  | error e d =>
    rw [hr] at hfound
    obtain ⟨e₁, d₁, he⟩ := hfound
    rw [he]
    exact ⟨e₁, d₁, rfl⟩
  | ok request? d =>
    rw [hr] at hfound
    cases request? with
    | none =>
      obtain ⟨d₁, hd⟩ := hfound
      rw [hd]
      exact answered_kept hw hc htext
    | some request =>
      obtain ⟨⟨d₁, hd, hw⟩, hon⟩ := hfound
      rw [hd]
      exact ⟨⟨d₁, rfl, hw⟩, hon.lone, hon.count⟩

/-! ## Any statement -/

/-- The word behind `CREATE`, or the one behind that, tells whether a table is created. -/
theorem carries_createTableAt :
    CarriesFrom S 1 r (fun _ => False) id createTableAt createTableAt := by
  have htable : ∀ {k}, CarriesFrom S k r (fun _ => False) id
      (keywordAt 2 .TABLE >>= fun _ => pure true) (keywordAt 2 .TABLE >>= fun _ => pure true) :=
    .look (fun _ => ⟨_, rfl⟩) fun _ _ => .pure rfl
  refine .anyKeywordBehind _ ?_ (.keywordBehind .TABLE htable ?_)
  · refine .test (· == .keyword .TABLE) (fun _ => rfl) ⟨rfl, rfl, rfl⟩ (Nat.le_succ 1) htable ?_
    exact .keywordBehind .TABLE (.pure rfl) (.pure rfl)
  · exact .look (fun _ => ⟨_, rfl⟩) fun _ _ => .pure rfl

/-- A test under the first word, with the two statements that it decides between. -/
theorem answered_branch {test : Parse Bool} {p p' q q' : Parse Statement}
    (htest : CarriesFrom S 1 ⟨c.ahead.length, false⟩ (fun _ => False) id test test)
    (hstays : ∀ c, ∃ b, test c = .ok b c) (hw : c.Within S c₁) (hc : c.Lone) (hs : c.Sees 1)
    (hp : Answered S c (p c₁) (p' c)) (hq : Answered S c (q c₁) (q' c)) :
    Answered S c ((test >>= fun b => if b then p else q) c₁)
      ((test >>= fun b => if b then p' else q') c) := by
  have hcarried := htest c c₁ hw hc hs (Nat.lt_succ_self _)
  obtain ⟨b, hb⟩ := hstays c
  obtain ⟨b₁, hb₁⟩ := hstays c₁
  rw [hb, hb₁] at hcarried
  obtain ⟨⟨_, ⟨⟩, -⟩, -⟩ := hcarried
  rw [bind_apply, bind_apply, hb, hb₁]
  cases b with
  | true => exact hp
  | false => exact hq

theorem answered_statementBody (hw : c.Within S c₁) (hc : c.Lone)
    (htext : c₁.statementText source = c.statementText text) :
    Answered S c (statementBody o source c₁) (statementBody o text c) := by
  have hg : (productions o.dialect c₁.ahead).Carry S ⟨c.ahead.length, false⟩
      (productions o.dialect c.ahead) := carry_productions _ _ hw.length_le
  have hg' : (productions o.dialect c₁.ahead).Carry S (Room.inside ⟨c.ahead.length, false⟩)
      (productions o.dialect c.ahead) :=
    ⟨fun power => (hg.expr power).inside, hg.query.inside, hg.fromItem.inside⟩
  have hroom : Room.Holds ⟨c.ahead.length, false⟩ c.ahead.length := Nat.lt_succ_self _
  have hsees := Cursor.sees_zero c
  have hkept : Answered S c (unsupported o source c₁.position c₁)
      (unsupported o text c.position c) := by
    rw [unsupported_position, unsupported_position]
    exact answered_kept hw hc htext
  rw [statementBody_apply, statementBody_apply]
  generalize productions o.dialect c₁.ahead = g at hg hg'
  generalize productions o.dialect c.ahead = g' at hg hg'
  have hquery := (hg.query c c₁ hw hc hsees hroom).answered (f := Statement.query) (fun _ => rfl)
    fun _ _ => rfl
  rcases hc.current hw with ⟨kind, span, span₁, word, ts, ha, h, h₁⟩ | ⟨-, h, h₁⟩
  · have hs : c.Sees (CarriesFrom.sight kind) := CarriesFrom.sees_sight ha
    rw [h, h₁]
    dsimp only
    unfold statementFrom
    split
    · exact hquery
    · exact hquery
    · exact hquery
    · exact hquery
    · exact (carries_insertStatement hg' c c₁ hw hc hsees hroom).answered (fun _ => rfl)
        fun _ _ => rfl
    · exact (carries_updateStatement hg' c c₁ hw hc hsees hroom).answered (fun _ => rfl)
        fun _ _ => rfl
    · exact (carries_deleteStatement hg' c c₁ hw hc hsees hroom).answered (fun _ => rfl)
        fun _ _ => rfl
    · refine answered_branch carries_createTableAt (fun _ => ⟨_, rfl⟩) hw hc hs ?_ hkept
      exact (carries_createTable hg' c c₁ hw hc hsees hroom).answered (fun _ => rfl)
        fun _ _ => rfl
    · have htable : CarriesFrom S 1 ⟨c.ahead.length, false⟩ (fun _ => False) id
          (keywordAt 1 .TABLE) (keywordAt 1 .TABLE) := by
        rw [← bind_pure (keywordAt 1 .TABLE)]
        exact .keywordBehind .TABLE (.pure rfl) (.pure rfl)
      refine answered_branch htable (fun _ => ⟨_, rfl⟩) hw hc hs ?_ hkept
      exact (carries_alterTable hg' c c₁ hw hc hsees hroom).answered (fun _ => rfl)
        fun _ _ => rfl
    · exact answered_showStatement hw hc htext
    · exact hkept
    · exact hkept
    · exact ⟨_, _, rfl⟩
  · rcases h₁ with h₁ | h₁ <;> rw [h, h₁] <;> exact ⟨_, _, rfl⟩

end Parse
end SqlTree
