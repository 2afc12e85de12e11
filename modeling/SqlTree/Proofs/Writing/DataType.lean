import Mathlib
import SqlTree.Proofs.Reading.DataType
import SqlTree.Proofs.Writing.Name
import SqlTree.Proofs.Writing.Pieces

/-! # Data types keep their tokens apart

* `DataType.apart`: no piece of a written type runs into the next one but for closing angles.
* `dataType_of_text`: a type that is legal and faithful is what its own text spells.
-/

namespace SqlTree
set_option autoImplicit false

open Layout Parse

variable {dq : Bool}

/-! ## Numbers and modifiers -/

theorem apart_decimal (n : Nat) {m : Layout} (h : m.Apart dq) (hs : m.stops = true) :
    Apart dq (.word (Decimal.text n) :: m) :=
  h.word (ofWord?_decimal n) (by simp) hs

theorem DataType.apart_lengthLayout (length : Option UInt32) :
    (DataType.lengthLayout length).Apart dq := by
  cases length with
  | none => exact apart_nil
  | some n => exact (apart_decimal n.toNat apart_nil rfl).parens

theorem DataType.stops_lengthLayout (length : Option UInt32) :
    (DataType.lengthLayout length).stops = true := by
  cases length <;> rfl

theorem DataType.apart_scaleLayout (precision scale : Option UInt16) :
    (DataType.scaleLayout precision scale).Apart dq := by
  match precision, scale with
  | none, _ => exact apart_nil
  | some p, none => exact (apart_decimal p.toNat apart_nil rfl).parens
  | some p, some s => exact (apart_decimal p.toNat ((apart_decimal s.toNat apart_nil rfl).gap.mark rfl) rfl).parens

theorem DataType.stops_scaleLayout (precision scale : Option UInt16) :
    (DataType.scaleLayout precision scale).stops = true := by
  cases precision <;> cases scale <;> rfl

theorem IsModifier.apart {m : String} (h : IsModifier dq m) : (Layout.word m).Apart dq := by
  obtain ⟨kind, hw, hk⟩ := h
  refine apart_nil.word hw (fun s he => ?_) rfl
  rcases hk with ⟨digits, rfl⟩ | ⟨name, quote, rfl⟩ | ⟨k, rfl⟩ <;> simp at he

/-! ## Types -/

/-- A type begins with a word. -/
theorem DataType.isWord_head :
    ∀ t : DataType, t.Faithful dq → ∃ p l, t.layout = p :: l ∧ p.IsWord dq
  | .plain type, _ => ⟨_, _, rfl, trivial⟩
  | .sized type length, _ => ⟨_, _, rfl, trivial⟩
  | .scaled type precision scale, _ => ⟨_, _, rfl, trivial⟩
  | .struct .angles fields, _ => ⟨_, _, rfl, trivial⟩
  | .struct .parens fields, _ => ⟨_, _, rfl, trivial⟩
  | .array .angles element, _ => ⟨_, _, rfl, trivial⟩
  | .array .brackets element, h => by
    obtain ⟨p, l, hl, hp⟩ := DataType.isWord_head element h.2
    exact ⟨p, _, by rw [DataType.layout, hl]; rfl, hp⟩
  | .custom name modifiers, h => ⟨_, _, rfl, _, h, by simp⟩

theorem StructField.isWord_head {f : StructField} (hn : ∀ name ∈ f.name, name.Legal dq)
    (hf : f.type.Faithful dq) : ∃ p l, f.layout = p :: l ∧ p.IsWord dq := by
  obtain ⟨name, type⟩ := f
  cases name with
  | none => exact type.isWord_head hf
  | some name =>
    obtain ⟨kind, hw, hk⟩ := hn name rfl
    refine ⟨.word name.text, _, rfl, kind, hw, fun s he => ?_⟩
    rcases hk with rfl | ⟨k, rfl, -⟩ <;> simp at he

theorem StructField.apart {f : StructField} (hn : ∀ name ∈ f.name, name.Legal dq)
    (ht : f.type.layout.Apart dq) : f.layout.Apart dq := by
  obtain ⟨name, type⟩ := f
  cases name with
  | none => exact ht
  | some name => exact (hn name rfl).apart.append ht.gap rfl

/-- One or more fields behind the angle that opens them. -/
theorem StructField.apart_angles {fields : List StructField} (hne : fields ≠ [])
    (hn : ∀ f ∈ fields, ∀ name ∈ f.name, name.Legal dq) (hf : ∀ f ∈ fields, f.type.Faithful dq)
    {separator : Layout} (h : (sepBy separator (fields.map StructField.layout)).Apart dq) :
    Apart dq (.symbol .less :: (sepBy separator (fields.map StructField.layout) ++
      [.closingAngle])) := by
  refine Apart.symbol_word (h.append (apart_nil.closingAngle rfl) rfl) ?_
  cases fields with
  | nil => contradiction
  | cons f fields =>
    obtain ⟨p, l, hp, hw⟩ := StructField.isWord_head (hn f (by simp)) (hf f (by simp))
    obtain ⟨m, hm⟩ := sepBy_cons separator f.layout (fields.map StructField.layout)
    exact ⟨p, _, by rw [List.map_cons, hm, hp]; rfl, hw⟩

/-- Types keep their tokens apart from one another and from everything that ends a word. -/
theorem DataType.apart : ∀ t : DataType, t.Legal dq → t.Faithful dq → t.layout.Apart dq
  | .plain type, _, _ => apart_nil.keyword _ rfl
  | .sized type length, _, _ =>
    (DataType.apart_lengthLayout length).keyword _ (DataType.stops_lengthLayout length)
  | .scaled type precision scale, _, _ =>
    (DataType.apart_scaleLayout precision scale).keyword _ (DataType.stops_scaleLayout precision scale)
  | .struct form fields, hl, hf => by
    obtain ⟨⟨hne, hn, -⟩, hl⟩ := hl
    replace hl := StructField.allTypes_iff.1 hl
    have hf' := StructField.allTypes_iff.1 hf.2
    have ha : ∀ f ∈ fields, f.layout.Apart dq := fun f hm =>
      StructField.apart (hn f hm) (DataType.apart f.type (hl f hm) (hf' f hm))
    have hc : (commas (fields.map StructField.layout)).Apart dq := Apart.commas (by simpa using ha)
    cases form with
    | angles =>
      rw [DataType.layout, StructField.layouts_eq_map]
      exact (StructField.apart_angles hne hn hf' hc).keyword _ rfl
    | parens =>
      rw [DataType.layout, StructField.layouts_eq_map]
      exact hc.parens.keyword _ rfl
  | .array .angles element, hl, hf => by
    have ih := DataType.apart element hl.2 hf.2
    obtain ⟨p, l, hp, hw⟩ := element.isWord_head hf.2
    refine Apart.keyword (Apart.symbol_word (ih.append (apart_nil.closingAngle rfl) rfl) ?_) _ rfl
    exact ⟨p, _, by rw [hp]; rfl, hw⟩
  | .array .brackets element, hl, hf =>
    (DataType.apart element hl.2 hf.2).append ((apart_nil.mark rfl).mark rfl) rfl
  | .custom name modifiers, hl, hf => by
    have hm : (commas (modifiers.map Layout.word)).Apart dq := Apart.commas (by
      simpa using fun m hm => (hl m hm).apart)
    exact (hm.parens.onlyIf _).word hf (by simp) (stops_onlyIf rfl _)
termination_by t => sizeOf t
decreasing_by
  all_goals simp_wf
  · have := List.sizeOf_lt_of_mem hm
    obtain ⟨name, type⟩ := f
    simp only [StructField.mk.sizeOf_spec] at this ⊢
    omega

/-! ## The text of a type -/

/-- The text of a legal type that says all it holds is split into tokens, and they are read as this
type up to the last one. -/
theorem dataType_of_text {t : DataType} (hl : t.Legal dq) (hf : t.Faithful dq) :
    ∃ lexed c, tokenize t.text dq = .ok lexed ∧
      dataType (Cursor.ofLexed lexed) = .ok t c ∧ c.ahead = [] := by
  obtain ⟨lexed, ht, hr, he⟩ := tokenize_of_apart (t.apart hl hf)
    (usual_unnumbered.dataType t).numbered
  have hd : Takes dq dataType (t.layout.solid ++ []) t [] :=
    takes_dataType hl hf ⟨by simp, by simp, fun _ => rfl⟩
  obtain ⟨c, hc, ha⟩ := hd (Cursor.ofLexed lexed) ⟨by rwa [List.append_nil], he⟩
  refine ⟨lexed, c, ht, hc, ?_⟩
  have hn := ha.reads
  generalize c.ahead = ts at hn
  cases hn
  rfl

/-- A type that ends with closing angles in a row, brackets between them. -/
def nestedType : DataType :=
  .array .angles (.struct .angles
    [⟨some ⟨"a b", some '"'⟩, .array .brackets (.array .angles (.scaled .decimal (some 5) (some 2)))⟩,
      ⟨none, .struct .parens [⟨some ⟨"x", none⟩, .custom "geo" ["4326", "point"]⟩]⟩,
      ⟨none, .array .angles (.sized .varchar (some 4294967295))⟩])

theorem dataType_of_text_nestedType :
    nestedType.Legal false ∧ nestedType.Faithful false ∧
      ∃ lexed c, tokenize nestedType.text false = .ok lexed ∧
        dataType (Cursor.ofLexed lexed) = .ok nestedType c ∧ c.ahead = [] := by
  have hq : TokenKind.ofWord? false "\"a b\"" = some (.identifier "a b" (some '"')) := by
    decide
  have hx : TokenKind.ofWord? false "x" = some (.identifier "x" none) := by decide
  have hg : TokenKind.ofWord? false "geo" = some (.identifier "geo" none) := by decide
  have hn : TokenKind.ofWord? false "4326" = some (.integer "4326") := by decide
  have hp : TokenKind.ofWord? false "point" = some (.identifier "point" none) := by decide
  have hl : nestedType.Legal false := by
    have h1 : Ident.Legal false ⟨"a b", some '"'⟩ := ⟨_, hq, .inl rfl⟩
    have h2 : Ident.Legal false ⟨"x", none⟩ := ⟨_, hx, .inl rfl⟩
    have h3 : IsModifier false "4326" := ⟨_, hn, .inl ⟨_, rfl⟩⟩
    have h4 : IsModifier false "point" := ⟨_, hp, .inr (.inl ⟨_, _, rfl⟩)⟩
    simp [nestedType, DataType.Legal, DataType.All, DataType.LegalHead, StructField.AllTypes, h1, h2,
      h3, h4]
  have hf : nestedType.Faithful false := by
    simp only [nestedType, DataType.Faithful, DataType.All, DataType.FaithfulHead,
      StructField.AllTypes, hg, and_self]
  exact ⟨hl, hf, dataType_of_text hl hf⟩

end SqlTree
