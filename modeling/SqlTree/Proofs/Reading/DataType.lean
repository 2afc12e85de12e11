import Mathlib
import SqlTree.DataType.Grammar
import SqlTree.Proofs.Lexing.Longest
import SqlTree.Proofs.Reading.Name

/-! # Data types as they are written and read

* `DataType.All`: a property of every type in a type.
* `DataType.Legal`: what every type that is read satisfies.
* `DataType.Faithful`: the name of a custom type is a bare word. A quoted one is written without
  its quotes.
* `takes_dataType`: a type that is both is read back in front of everything that does not go on
  with it.
-/

namespace SqlTree
set_option autoImplicit false

open Parse

variable {dq : Bool} {r : Layout}

/-! ## Properties of types -/

mutual

/-- A property of a type and of all types in it. -/
def DataType.All (P : DataType → Prop) : DataType → Prop
  | .struct form fields => P (.struct form fields) ∧ StructField.AllTypes P fields
  | .array form element => P (.array form element) ∧ element.All P
  | .plain type => P (.plain type)
  | .sized type length => P (.sized type length)
  | .scaled type precision scale => P (.scaled type precision scale)
  | .custom name modifiers => P (.custom name modifiers)

/-- A property of all types in the types of some fields. -/
def StructField.AllTypes (P : DataType → Prop) : List StructField → Prop
  | [] => True
  | ⟨_, type⟩ :: fields => type.All P ∧ StructField.AllTypes P fields

end

/-- A token that modifies a type. -/
def IsModifier (dq : Bool) (word : String) : Prop :=
  ∃ kind, TokenKind.ofWord? dq word = some kind ∧
    ((∃ digits, kind = .integer digits) ∨ (∃ name quote, kind = .identifier name quote) ∨
      ∃ k, kind = .keyword k)

/-- What is read as one type, apart from the types in it. -/
def DataType.LegalHead (dq : Bool) : DataType → Prop
  | .scaled _ precision scale => precision = none → scale = none
  | .struct form fields =>
    fields ≠ [] ∧ (∀ f ∈ fields, ∀ name ∈ f.name, name.Legal dq) ∧
      (form = .parens → ∀ f ∈ fields, f.name ≠ none)
  | .custom _ modifiers => ∀ m ∈ modifiers, IsModifier dq m
  | _ => True

/-- What every type that is read satisfies. -/
def DataType.Legal (dq : Bool) (t : DataType) : Prop :=
  t.All (DataType.LegalHead dq)

/-- The name of a custom type is a bare word. -/
def DataType.FaithfulHead (dq : Bool) : DataType → Prop
  | .custom name _ => TokenKind.ofWord? dq name = some (.identifier name none)
  | _ => True

/-- The written form of a type says all that the type holds. -/
def DataType.Faithful (dq : Bool) (t : DataType) : Prop :=
  t.All (DataType.FaithfulHead dq)

theorem StructField.allTypes_iff {P : DataType → Prop} {fields : List StructField} :
    StructField.AllTypes P fields ↔ ∀ f ∈ fields, f.type.All P := by
  induction fields with
  | nil => simp [StructField.AllTypes]
  | cons f fields ih =>
    obtain ⟨name, type⟩ := f
    simp [StructField.AllTypes, ih]

/-! ## Numbers -/

theorem isDigit_write (n : Nat) : ∀ c ∈ Decimal.write n, c.isDigit = true := by
  have hd : ∀ m < 10, (Decimal.digit m).isDigit = true := by decide
  fun_induction Decimal.write n with
  | case1 n h => simpa using hd n h
  | case2 n h ih =>
    simp only [List.mem_append, List.mem_singleton]
    rintro c (hc | rfl)
    · exact ih c hc
    · exact hd _ (Nat.mod_lt _ (by decide))

theorem write_ne_nil (n : Nat) : Decimal.write n ≠ [] := by
  unfold Decimal.write
  split <;> simp

/-- Digits are an integer. -/
theorem ofWord?_digits {digits : String} (hne : digits.toList ≠ [])
    (hd : ∀ c ∈ digits.toList, c.isDigit = true) :
    TokenKind.ofWord? dq digits = some (.integer digits) := by
  have hdigits : digits.toList ∈ NumberForm.digits := ⟨hne, hd⟩
  rw [ofWord?_number dq (NumberForm.number_eq ▸ .inl hdigits), kind_of_digits hdigits,
    String.ofList_toList]

theorem ofWord?_decimal (n : Nat) :
    TokenKind.ofWord? dq (Decimal.text n) = some (.integer (Decimal.text n)) :=
  ofWord?_digits (by simpa [Decimal.text] using write_ne_nil n)
    (by simpa [Decimal.text] using isDigit_write n)

theorem takes_boundedNumber {bound n : Nat} (h : n < bound) (number : BoundedNumber) :
    Takes dq (boundedNumber bound number) (.word (Decimal.text n) :: r) n r := by
  have hr : Decimal.readBelow? bound (Decimal.text n).toList = some n := by
    have hd : (Decimal.write n).all Char.isDigit = true := by
      simpa using isDigit_write n
    simp [Decimal.readBelow?, Decimal.text, hd, Decimal.value_write, h, write_ne_nil]
  refine takes_current (by simp) fun t ht _ => ?_
  rw [Piece.kind_word (ofWord?_decimal n)] at ht
  simp only [ht, hr]
  exact (takes_advance (by simp) rfl).bind (.pure n r)

theorem takes_optionalLength (length : Option UInt32)
    (hr : kindAhead dq r 0 ≠ .symbol .leftParen) :
    Takes dq optionalLength ((DataType.lengthLayout length).solid ++ r) length r := by
  cases length with
  | none => exact (takes_takeSymbol_no hr (by decide)).bind (.pure none r)
  | some n =>
    have hn : n = UInt32.ofNat n.toNat := by simp
    refine (takes_takeSymbol_yes _ _ (by decide)).bind ((takes_boundedNumber n.toNat_lt _).bind ?_)
    refine (takes_expectSymbol _ _ (by decide)).bind ?_
    rw [← hn]
    exact .pure _ r

theorem takes_optionalScale {precision scale : Option UInt16} (h : precision = none → scale = none)
    (hr : kindAhead dq r 0 ≠ .symbol .leftParen) :
    Takes dq optionalScale ((DataType.scaleLayout precision scale).solid ++ r) (precision, scale)
      r := by
  match precision, scale with
  | none, none => exact (takes_takeSymbol_no hr (by decide)).bind (.pure _ r)
  | none, some s => simp at h
  | some p, none =>
    have hp : p = UInt16.ofNat p.toNat := by simp
    refine (takes_takeSymbol_yes _ _ (by decide)).bind ((takes_boundedNumber p.toNat_lt _).bind ?_)
    refine (takes_afterComma_none (by simp)).bind ((takes_expectSymbol _ _ (by decide)).bind ?_)
    rw [← hp]
    exact .pure _ r
  | some p, some s =>
    have hp : p = UInt16.ofNat p.toNat := by simp
    have hs : s = UInt16.ofNat s.toNat := by simp
    refine (takes_takeSymbol_yes _ _ (by decide)).bind ((takes_boundedNumber p.toNat_lt _).bind ?_)
    refine (takes_afterComma_some (takes_boundedNumber s.toNat_lt _)).bind ?_
    refine (takes_expectSymbol _ _ (by decide)).bind ?_
    rw [← hp, Option.map_some, ← hs]
    exact .pure _ r

theorem takes_typeModifier {m : String} (h : IsModifier dq m) :
    Takes dq typeModifier (.word m :: r) m r := by
  obtain ⟨kind, hw, hk⟩ := h
  refine takes_current (by simp) fun t ht hx => ?_
  rw [Piece.kind_word hw] at ht
  have ha : Takes dq advance (.word m :: r) () r := takes_advance (by simp) rfl
  have hm : Takes dq (pure t.text) r m r := by
    rw [hx m rfl]
    exact .pure m r
  rcases hk with ⟨digits, rfl⟩ | ⟨name, quote, rfl⟩ | ⟨k, rfl⟩ <;> simp only [ht] <;>
    exact ha.bind hm

theorem takes_typeModifiers {modifiers : List String} (h : ∀ m ∈ modifiers, IsModifier dq m)
    (hr : kindAhead dq r 0 ≠ .symbol .leftParen) :
    Takes dq typeModifiers
      ((Layout.onlyIf (!modifiers.isEmpty)
        (Layout.parens (Layout.commas (modifiers.map Layout.word)))).solid ++ r) modifiers r := by
  cases modifiers with
  | nil => exact (takes_takeSymbol_no hr (by decide)).bind (.pure [] r)
  | cons m ms =>
    have hl : Takes dq (commaList typeModifier)
        ((Layout.commas ((m :: ms).map Layout.word)).solid ++ .symbol .rightParen :: r) (m :: ms)
        (.symbol .rightParen :: r) :=
      takes_commaList (by simp) (by simp) fun m' hm r' _ => takes_typeModifier (h m' hm)
    simp only [Layout.onlyIf, Layout.parens, List.isEmpty_cons, Bool.not_false, if_true,
      Layout.solid_symbol, Layout.solid_append, Layout.solid_nil, List.cons_append,
      List.append_assoc, List.nil_append]
    exact (takes_takeSymbol_yes _ _ (by decide)).bind
      (hl.bind ((takes_expectSymbol _ _ (by decide)).bind (.pure (m :: ms) r)))

/-! ## Heads of types -/

/-- A type is written with a token that begins a type, and the token behind that one begins none. -/
theorem startsDataType_layout :
    ∀ (t : DataType), t.Faithful dq → ∀ r : Layout,
      ∃ p l, t.layout.solid ++ r = p :: l ∧ p ≠ .closingAngle ∧ startsDataType (p.kind dq) = true ∧
        (startsDataType (kindAhead dq r 0) = false → startsDataType (kindAhead dq l 0) = false)
  | .plain type, _, r => ⟨_, _, rfl, by simp, by cases type <;> rfl, id⟩
  | .sized type none, _, r => ⟨_, _, rfl, by simp, by cases type <;> rfl, id⟩
  | .sized type (some _), _, r => ⟨_, _, rfl, by simp, by cases type <;> rfl, fun _ => rfl⟩
  | .scaled type none _, _, r => ⟨_, _, rfl, by simp, by cases type <;> rfl, id⟩
  | .scaled type (some _) none, _, r => ⟨_, _, rfl, by simp, by cases type <;> rfl, fun _ => rfl⟩
  | .scaled type (some _) (some _), _, r =>
    ⟨_, _, rfl, by simp, by cases type <;> rfl, fun _ => rfl⟩
  | .struct .angles fields, _, r => ⟨_, _, rfl, by simp, rfl, fun _ => rfl⟩
  | .struct .parens fields, _, r => ⟨_, _, rfl, by simp, rfl, fun _ => rfl⟩
  | .array .angles element, _, r => ⟨_, _, rfl, by simp, rfl, fun _ => rfl⟩
  | .array .brackets element, h, r => by
    obtain ⟨p, l, hl, hp, hs, hn⟩ :=
      startsDataType_layout element h.2 (.symbol .leftBracket :: .symbol .rightBracket :: r)
    refine ⟨p, l, ?_, hp, hs, fun _ => hn rfl⟩
    rw [← hl]
    simp [DataType.layout]
  | .custom name [], h, r => by
    have hw : (Piece.word name).kind dq = .identifier name none := Piece.kind_word h
    exact ⟨.word name, _, rfl, by simp, by rw [hw]; rfl, id⟩
  | .custom name (m :: ms), h, r => by
    have hw : (Piece.word name).kind dq = .identifier name none := Piece.kind_word h
    exact ⟨.word name, _, rfl, by simp, by rw [hw]; rfl, fun _ => rfl⟩

/-! ## Types in types -/

/-- What can follow a type without going on with it. -/
def FollowsType (dq : Bool) (t : DataType) (r : Layout) : Prop :=
  kindAhead dq r 0 ≠ .symbol .leftParen ∧ kindAhead dq r 0 ≠ .symbol .leftBracket ∧
    (t = .plain .double → isWord "PRECISION" (kindAhead dq r 0) = false)

/-- A reader of all legal types that are shorter than a bound. -/
def ReadsTypes (dq : Bool) (type : Parse DataType) (bound : Nat) : Prop :=
  ∀ t : DataType, t.Legal dq → t.Faithful dq → t.layout.size < bound →
    ∀ r, FollowsType dq t r → Takes dq type (t.layout.solid ++ r) t r

section Fields

variable {type : Parse DataType} {bound : Nat}

theorem takes_structField (ht : ReadsTypes dq type bound) {f : StructField} (anonymous : Bool)
    (hn : ∀ name ∈ f.name, name.Legal dq) (ha : anonymous = false → f.name ≠ none)
    (hl : f.type.Legal dq) (hf : f.type.Faithful dq) (hb : f.type.layout.size < bound)
    (hr : FollowsType dq f.type r) (hs : startsDataType (kindAhead dq r 0) = false) :
    Takes dq (structField type anonymous) (f.layout.solid ++ r) f r := by
  obtain ⟨name, t⟩ := f
  have htt := ht t hl hf hb r hr
  obtain ⟨p, l, hpl, hp, hst, hnx⟩ := startsDataType_layout t hf r
  cases name with
  | some name =>
    have hi := hn name rfl
    have hlay : (StructField.layout ⟨some name, t⟩).solid ++ r =
        name.layout.solid ++ (t.layout.solid ++ r) := by simp [StructField.layout]
    rw [hlay]
    have hread : Takes dq (do return ({ name := ← some <$> identifier, type := ← type } : StructField))
        (name.layout.solid ++ (t.layout.solid ++ r)) ⟨some name, t⟩ r :=
      ((takes_identifier hi).map some).bind (htt.bind (.pure _ r))
    cases anonymous with
    | false => exact hread
    | true =>
      have h1 : startsDataType (kindAhead dq (name.layout.solid ++ (t.layout.solid ++ r)) 1) = true := by
        rw [hpl]
        exact hst
      refine Takes.bind (a := true) ?_ hread
      refine (takes_nameAt_yes (hi.startsName _) (by simp)).bind ?_
      refine takes_peek (t := startsDataType) ?_ rfl ?_
      · rw [h1]
        exact .pure true _
      · simp [Ident.layout]
  | none =>
    cases anonymous with
    | false => exact absurd rfl (ha rfl)
    | true =>
      have hlay : (StructField.layout ⟨none, t⟩).solid ++ r = t.layout.solid ++ r := rfl
      rw [hlay]
      have hread : Takes dq (do return ({ name := ← pure none, type := ← type } : StructField))
          (t.layout.solid ++ r) ⟨none, t⟩ r := (Takes.pure none _).bind (htt.bind (.pure _ r))
      refine Takes.bind (a := false) ?_ hread
      refine takes_test_any (fun c => ⟨_, rfl⟩) fun answer => ?_
      rw [hpl]
      refine takes_peek (t := startsDataType) (f := fun b => pure (answer && b)) ?_ rfl ?_
      · rw [kindAhead_succ, hnx hs, Bool.and_false]
        exact .pure false _
      · simpa using hp

theorem takes_structFields (ht : ReadsTypes dq type bound) {fields : List StructField}
    (anonymous : Bool) (hne : fields ≠ []) (hn : ∀ f ∈ fields, ∀ name ∈ f.name, name.Legal dq)
    (ha : anonymous = false → ∀ f ∈ fields, f.name ≠ none)
    (hl : ∀ f ∈ fields, f.type.Legal dq) (hf : ∀ f ∈ fields, f.type.Faithful dq)
    (hb : ∀ f ∈ fields, f.type.layout.size < bound)
    (hr : r = .closingAngle :: r.tail ∨ r = .symbol .rightParen :: r.tail) :
    Takes dq (structFieldsOf type anonymous)
      ((Layout.commas (fields.map StructField.layout)).solid ++ r) fields r := by
  -- What follows a field, be it a comma or the end of the fields, begins no type.
  have hk : ∀ r', (r' = r ∨ ∃ l, r' = .symbol .comma :: l) →
      ∃ s : Symbol, kindAhead dq r' 0 = .symbol s ∧ s ≠ .leftParen ∧ s ≠ .leftBracket := by
    rintro r' (rfl | ⟨l, rfl⟩)
    · rcases hr with h | h <;> rw [h] <;> exact ⟨_, rfl, by simp, by simp⟩
    · exact ⟨_, rfl, by simp, by simp⟩
  refine takes_commaList ?_ hne fun f hmem r' hr' => ?_
  · rcases hr with h | h <;> rw [h] <;> simp
  · obtain ⟨s, hs, h1, h2⟩ := hk r' (hr'.imp_left And.right)
    refine takes_structField ht anonymous (hn f hmem) (fun h => ha h f hmem) (hl f hmem) (hf f hmem)
      (hb f hmem) ⟨?_, ?_, fun _ => ?_⟩ ?_ <;> simp [hs, h1, h2, isWord, startsDataType]

theorem size_of_mem_commas {ls : List Layout} {l : Layout} (h : l ∈ ls) :
    l.size ≤ (Layout.commas ls).size := by
  cases ls with
  | nil => simp at h
  | cons m ms =>
    rw [← Layout.size_solid (Layout.commas _), Layout.commas, solid_sepBy]
    rcases List.mem_cons.1 h with rfl | h
    · simp
    · obtain ⟨a, b, rfl⟩ := List.append_of_mem h
      simp
      omega

theorem takes_structType (ht : ReadsTypes dq type bound) {form : StructForm}
    {fields : List StructField} (hl : (DataType.struct form fields).Legal dq)
    (hf : (DataType.struct form fields).Faithful dq)
    (hb : (DataType.struct form fields).layout.size ≤ bound) :
    Takes dq (structType type) ((DataType.struct form fields).layout.solid.tail ++ r)
      (.struct form fields) r := by
  obtain ⟨⟨hne, hn, ha⟩, hl⟩ := hl
  replace hl := StructField.allTypes_iff.1 hl
  have hf' := StructField.allTypes_iff.1 hf.2
  have hs : ∀ f ∈ fields, f.type.layout.size < bound := by
    intro f hmem
    have h1 := size_of_mem_commas (List.mem_map_of_mem (f := StructField.layout) hmem)
    have h2 : f.type.layout.size ≤ f.layout.size := by
      obtain ⟨name, type⟩ := f
      cases name <;> simp [StructField.layout]
    cases form <;>
      simp [DataType.layout, Layout.parens, StructField.layouts_eq_map] at hb <;> omega
  cases form with
  | angles =>
    have hread := takes_structFields (r := .closingAngle :: r) ht true hne hn (by simp) hl hf' hs
      (.inl rfl)
    have hlay : (DataType.struct .angles fields).layout.solid.tail ++ r =
        .symbol .less :: ((Layout.commas (fields.map StructField.layout)).solid ++
          .closingAngle :: r) := by
      simp [DataType.layout, StructField.layouts_eq_map]
    rw [hlay]
    exact (takes_takeSymbol_yes _ _ (by decide)).bind (hread.bind ((takes_closingAngle r).bind (.pure _ r)))
  | parens =>
    have hread := takes_structFields (r := .symbol .rightParen :: r) ht false hne hn
      (fun _ => ha rfl) hl hf' hs (.inr rfl)
    have hlay : (DataType.struct .parens fields).layout.solid.tail ++ r =
        .symbol .leftParen :: ((Layout.commas (fields.map StructField.layout)).solid ++
          .symbol .rightParen :: r) := by
      simp [DataType.layout, Layout.parens, StructField.layouts_eq_map]
    rw [hlay]
    refine (takes_takeSymbol_no (by simp) (by decide)).bind ((takes_expectSymbol _ _ (by decide)).bind ?_)
    exact hread.bind ((takes_expectSymbol _ r (by decide)).bind (.pure _ r))

theorem takes_arrayType (ht : ReadsTypes dq type bound) {element : DataType}
    (hl : element.Legal dq) (hf : element.Faithful dq) (hb : element.layout.size < bound) :
    Takes dq (arrayType type) (.symbol .less :: (element.layout.solid ++ .closingAngle :: r))
      (.array .angles element) r := by
  have hread := ht element hl hf hb (.closingAngle :: r) ⟨by simp, by simp, fun _ => rfl⟩
  exact (takes_expectSymbol _ _ (by decide)).bind (hread.bind ((takes_closingAngle r).bind (.pure _ r)))

/-! ## Whole types -/

/-- A type without the brackets behind it is read in front of brackets, too. -/
theorem takes_baseType (ht : ReadsTypes dq type bound) {t : DataType} (hl : t.Legal dq)
    (hf : t.Faithful dq) (hb : t.layout.size ≤ bound) (ha : ∀ e, t ≠ .array .brackets e)
    (hp : kindAhead dq r 0 ≠ .symbol .leftParen)
    (hd : t = .plain .double → isWord "PRECISION" (kindAhead dq r 0) = false) :
    Takes dq (baseType type) (t.layout.solid ++ r) t r := by
  have hk : ∀ {k : Keyword} {l : Layout}, Takes dq (keywordType type k) (.keyword k :: l) t r →
      Takes dq (baseType type) (.keyword k :: l) t r := by
    intro k l h
    refine takes_current (by simp) fun tok htok _ => ?_
    simp only [htok, Piece.kind_keyword]
    exact h
  have hadv : ∀ {k : Keyword} {l : Layout}, Takes dq advance (.keyword k :: l) () l :=
    takes_advance (by simp) rfl
  match t with
  | .plain type =>
    have hc : ∀ {f : Token → Parse DataType},
        (∀ tok : Token, (decide (type = .double) && isWord "PRECISION" tok.kind) = false →
          Takes dq (f tok) r (.plain type) r) → Takes dq (current >>= f) r (.plain type) r := by
      intro f h
      refine takes_current_kind fun tok htok => h tok ?_
      cases hx : decide (type = .double) with
      | false => rfl
      | true =>
        have hx := hd (by rw [of_decide_eq_true hx])
        rcases htok with htok | ⟨htok, -⟩
        · rw [htok, hx]
          rfl
        · rw [htok]
          rfl
    refine hk ?_
    cases type <;> refine hadv.bind (hc fun tok htok => ?_) <;>
      rw [if_neg (by rw [htok]; exact Bool.false_ne_true)] <;> exact .pure _ r
  | .sized type length =>
    refine hk ?_
    cases type <;> exact hadv.bind ((takes_optionalLength length hp).bind (.pure _ r))
  | .scaled type precision scale =>
    refine hk ?_
    cases type <;> exact hadv.bind ((takes_optionalScale hl hp).bind (.pure _ r))
  | .struct form fields =>
    have hs := takes_structType (r := r) ht hl hf hb
    cases form <;> exact hk (hadv.bind hs)
  | .array .angles element =>
    have hlay : (DataType.array .angles element).layout.solid ++ r =
        .keyword .ARRAY :: .symbol .less :: (element.layout.solid ++ .closingAngle :: r) := by
      simp [DataType.layout]
    rw [hlay]
    refine hk (hadv.bind (takes_arrayType ht hl.2 hf.2 ?_))
    simp [DataType.layout] at hb
    omega
  | .array .brackets element => exact absurd rfl (ha element)
  | .custom name modifiers =>
    refine takes_current (p := .word name) (by simp) fun tok htok _ => ?_
    rw [Piece.kind_word hf] at htok
    simp only [htok]
    exact (takes_advance (by simp) rfl).bind ((takes_typeModifiers hl hp).bind (.pure _ r))

theorem takes_arraySuffix_none {t : DataType} (hr : kindAhead dq r 0 ≠ .symbol .leftBracket) :
    Takes dq (arraySuffix t) r none r := by
  refine (takes_symbolAt_no hr (by decide) (by simp)).bind (takes_test_any (fun c => ⟨_, rfl⟩) fun answer => ?_)
  exact .pure none r

theorem takes_arraySuffix_some (t : DataType) :
    Takes dq (arraySuffix t) (.symbol .leftBracket :: .symbol .rightBracket :: r)
      (some (.array .brackets t)) r := by
  refine (takes_symbolAt_yes rfl (by decide) (by simp)).bind ((takes_symbolAt_yes rfl (by decide) (by simp)).bind ?_)
  exact (takes_advance (by simp) rfl).bind ((takes_advance (by simp) rfl).bind (.pure _ r))

/-- The brackets behind a type are read one pair after the other. -/
theorem climbs_arraySuffix (ht : ReadsTypes dq type bound) :
    ∀ t : DataType, t.Legal dq → t.Faithful dq → t.layout.size ≤ bound →
      ∀ r, kindAhead dq r 0 ≠ .symbol .leftParen →
        (t = .plain .double → isWord "PRECISION" (kindAhead dq r 0) = false) →
        ∃ base l, Takes dq (baseType type) (t.layout.solid ++ r) base l ∧
          Climbs dq arraySuffix base l t r
  | .array .brackets element, hl, hf, hb, r, hp, _ => by
    have hb' : element.layout.size ≤ bound := by
      simp [DataType.layout] at hb
      omega
    obtain ⟨base, l, h1, h2⟩ := climbs_arraySuffix ht element hl.2 hf.2 hb'
      (.symbol .leftBracket :: .symbol .rightBracket :: r) (by simp) (fun _ => rfl)
    refine ⟨base, l, ?_, h2.next (takes_arraySuffix_some element) (by simp)⟩
    simpa [DataType.layout] using h1
  | .array .angles element, hl, hf, hb, r, hp, hd =>
    ⟨_, r, takes_baseType ht hl hf hb (by simp) hp hd, .refl⟩
  | .plain type, hl, hf, hb, r, hp, hd =>
    ⟨_, r, takes_baseType ht hl hf hb (by simp) hp hd, .refl⟩
  | .sized type length, hl, hf, hb, r, hp, hd =>
    ⟨_, r, takes_baseType ht hl hf hb (by simp) hp hd, .refl⟩
  | .scaled type precision scale, hl, hf, hb, r, hp, hd =>
    ⟨_, r, takes_baseType ht hl hf hb (by simp) hp hd, .refl⟩
  | .struct form fields, hl, hf, hb, r, hp, hd =>
    ⟨_, r, takes_baseType ht hl hf hb (by simp) hp hd, .refl⟩
  | .custom name modifiers, hl, hf, hb, r, hp, hd =>
    ⟨_, r, takes_baseType ht hl hf hb (by simp) hp hd, .refl⟩

theorem readsTypes_dataTypeOf (ht : ReadsTypes dq type bound) :
    ReadsTypes dq (dataTypeOf type) (bound + 1) := by
  intro t hl hf hb r hr
  obtain ⟨base, l, h1, h2⟩ := climbs_arraySuffix ht t hl hf (by omega) r hr.1 hr.2.2
  exact h1.bind (h2.takes (takes_arraySuffix_none hr.2.1))

theorem readsTypes_within : ∀ allowance : List Token,
    ReadsTypes dq (dataTypeWithin allowance) (allowance.length + 1)
  | [] => readsTypes_dataTypeOf fun _ _ _ hb => absurd hb (Nat.not_lt_zero _)
  | _ :: allowance => readsTypes_dataTypeOf (readsTypes_within allowance)

/-- A legal type whose written form says all it holds is read back. -/
theorem takes_dataType {t : DataType} (hl : t.Legal dq) (hf : t.Faithful dq)
    (hr : FollowsType dq t r) : Takes dq dataType (t.layout.solid ++ r) t r := by
  refine .ahead fun c hc => readsTypes_within c.ahead t hl hf ?_ r hr c hc
  have h := hc.size_le
  rw [Layout.size_append, Layout.size_solid] at h
  omega

theorem readsTypes_dataType (bound : Nat) : ReadsTypes dq dataType bound :=
  fun _ hl hf _ _ hr => takes_dataType hl hf hr

end Fields

end SqlTree
