import Mathlib
import SqlTree.Proofs.Parsing.Statement
import SqlTree.Proofs.Writing.Statement

/-! # Trees that are read can be written

The types of limits and of struct values leave room for trees without a written form. None of these
is ever read.

* `Part.Complete d`: the limits and the struct values of a part have what a dialect gives them.
* `Statement.text_of_complete`: a statement with complete parts is written without a defect.
* `parse_complete`: every statement of every text is complete, and is written.
-/

namespace SqlTree
set_option autoImplicit false

/-- A limit says exactly one of three things. An offset stands only beside a row count, and groups
stand only where the dialect has them. -/
def Limit.Complete (d : Dialect) (l : Limit) : Prop :=
  [l.null, l.all, l.rowCount.isSome].count true = 1 ∧ (l.offset ≠ none → l.rowCount ≠ none) ∧
    (l.groups ≠ none → d.limitBy = true)

/-- A struct value is in the style of the dialect. In braces all its values and types have names;
otherwise it has a word and something behind it. -/
def StructValue.Complete (d : Dialect) (v : StructValue) : Prop :=
  v.style = d.structStyle ∧
    match v.style with
    | .duckDb =>
      (∃ items, v.arguments = some items ∧ ∀ i ∈ items, i.alias? ≠ none) ∧
        ∀ fields ∈ v.fields, ∀ f ∈ fields, f.name ≠ none
    | .bigQuery => v.word ≠ none ∧ (v.fields ≠ none ∨ v.arguments ≠ none)

/-- The limits and the struct values of a part are complete, apart from those of the parts in it. A
limit for each group has groups. -/
def Part.Complete (d : Dialect) : Part → Prop
  | .expr (.struct v) => v.Complete d
  | .query q =>
    (∀ l ∈ q.limitBy, l.Complete d ∧ l.groups ≠ none) ∧ ∀ l ∈ q.limit, l.Complete d
  | _ => True

variable {d : Dialect}

/-! ## What the grammar gives -/

theorem Limit.Formed.complete {l : Limit} (h : l.Formed d) : l.Complete d := by
  obtain ⟨ho, hg⟩ := h
  have hgroups : l.groups ≠ none → d.limitBy = true := fun hn => by
    obtain ⟨groups, he⟩ := Option.ne_none_iff_exists'.1 hn
    exact (hg groups he).1
  obtain ⟨hn, ha, hr, hf⟩ | ⟨hn, ha, hr, hf⟩ | ⟨hn, ha, hr⟩ := ho
  · exact ⟨by simp [hn, ha, hr], fun h => absurd hf h, hgroups⟩
  · exact ⟨by simp [hn, ha, hr], fun h => absurd hf h, hgroups⟩
  · have hs := Option.isSome_iff_ne_none.2 hr
    exact ⟨by simp [hn, ha, hs], fun _ => hr, hgroups⟩

theorem StructValue.Formed.complete {v : StructValue} (h : v.Formed d) : v.Complete d := by
  obtain ⟨hs, h⟩ := h
  refine ⟨hs, ?_⟩
  cases hv : v.style with
  | duckDb =>
    rw [hv] at h
    exact ⟨h.2, h.1⟩
  | bigQuery =>
    rw [hv] at h
    exact ⟨h.1, or_iff_not_imp_left.2 fun hf => h.2 (not_not.1 hf)⟩

theorem Part.Formed.complete {p : Part} (h : p.Formed d) : p.Complete d := by
  cases p with
  | expr e =>
    cases e with
    | struct v => exact StructValue.Formed.complete h
    | _ => trivial
  | query q =>
    exact ⟨fun l hl => ⟨(h.2.1 l hl).1.complete, (h.2.1 l hl).2⟩,
      fun l hl => (h.2.2 l hl).1.complete⟩
  | _ => trivial

/-! ## What is written -/

theorem usual_noDefect : Usual fun x => ∀ d, x ≠ .defect d where
  keyword _ := by simp
  symbol _ _ := by simp
  closingAngle := by simp
  word _ := by simp
  gap := by simp

theorem Limit.Complete.marks {P : Piece → Prop} {l : Limit} (h : l.Complete d) : l.Marks P := by
  intro hn ha hr
  simp [Limit.Complete, hn, ha, hr] at h

/-- Complete parts are written without defects, so of their marks only stars and question marks are
left. -/
theorem Part.Complete.marks {p : Part} (h : p.Complete d) :
    p.Marks fun x => ∀ d, x ≠ .defect d := by
  cases p with
  | expr e =>
    cases e with
    | struct v =>
      intro hs i hi hn
      obtain ⟨-, h⟩ := h
      rw [hs] at h
      obtain ⟨⟨items, ha, hitems⟩, -⟩ := h
      rw [ha] at hi
      exact absurd hn (hitems i hi)
    | binary left op right => cases op <;> simp [Part.Marks, Expr.Marks]
    | placeholder place => cases place <;> simp [Part.Marks, Expr.Marks]
    | _ => simp [Part.Marks, Expr.Marks]
  | query q => exact ⟨fun l hl => (h.1 l hl).1.marks, fun l hl => (h.2 l hl).marks⟩
  | _ => trivial

theorem Layout.Every.text {l : Layout} (h : l.Every fun x => ∀ d, x ≠ .defect d) :
    l.text = .ok l.chars := by
  have hd : l.defect? = none := by
    rw [Layout.defect?, List.findSome?_eq_none_iff]
    intro x hx
    split
    · next d => exact absurd rfl (h _ hx d)
    · rfl
  rw [Layout.text, hd]

/-- A statement with complete parts is written without a defect. -/
theorem Statement.text_of_complete {s : Statement} (h : s.Obeys (Part.Complete d)) :
    s.text = .ok s.layout.chars :=
  (s.every_layout usual_noDefect fun p hp => (h p hp).mono fun _ => Part.Complete.marks).text

/-- Whatever is read, alone or among other statements, is complete at every depth, so that it can be
written. -/
theorem parse_complete (source : String) (o : Options) :
    (∀ s, parseStatement source o = .ok s →
      s.Obeys (Part.Complete o.dialect) ∧ ∃ text, s.text = .ok text) ∧
    ∀ ss, parseStatements source o = .ok ss → ∀ s ∈ ss,
      s.Obeys (Part.Complete o.dialect) ∧ ∃ text, s.text = .ok text := by
  have hcomplete : ∀ s : Statement, s.Obeys (Part.Formed o.dialect) →
      s.Obeys (Part.Complete o.dialect) ∧ ∃ text, s.text = .ok text := fun s hs =>
    have hc : s.Obeys (Part.Complete o.dialect) :=
      fun p hp => (hs p hp).mono fun _ => Part.Formed.complete
    ⟨hc, _, s.text_of_complete hc⟩
  obtain ⟨hone, hmany⟩ := (Session.start source o).allFormed
  rw [Session.start_options] at hone hmany
  exact ⟨fun s hs => hcomplete s (hone s hs), fun ss hss s hm => hcomplete s (hmany ss hss s hm)⟩

end SqlTree
