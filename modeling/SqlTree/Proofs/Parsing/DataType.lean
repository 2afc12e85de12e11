import Mathlib
import SqlTree.Proofs.Parsing.Spends
import SqlTree.Proofs.Writing.DataType

/-! # Types that are read back from their text

Whatever is read as a type is legal. Its written form holds no more loose characters than the tokens
it was read from, and as many only if all its custom types are bare words: the quotes of a custom
type are not kept. A type that is read back from its own text has lost none.

* `Ident.Read dq i c c'`: what holds of a name that is read between two cursors.
* `DataType.cost`: the loose characters in the written form of a type, and one more if the form does
  not say all.
* `DataType.Read dq t c c'`: what holds of a type that is read between two cursors.
* `spends_identifier`, `spends_dataType`: it holds of everything that is read.
* `DataType.ReadsBack`: a type is read back from its text. Then it is legal and faithful.
-/

namespace SqlTree
set_option autoImplicit false

open Parse

variable {dq : Bool} {c c' : Cursor}

/-! ## Names -/

/-- What holds of a name that is read: it is the token at the first cursor. -/
structure Ident.Read (dq : Bool) (i : Ident) (c c' : Cursor) : Prop where
  legal : i.Legal dq
  word : TokenKind.ofWord? dq i.text = some (c.peek 0)
  next : c' = c.advance
  cost : i.layout.loose + c'.loose ≤ c.loose

theorem Parse.spends_identifier : Spends dq c identifier fun i c' => i.Read dq c c' := by
  refine .intro fun hc => .current ?_
  have hpeek := hc.current_kind
  cases hk : c.current.kind with
  | identifier name quote =>
    obtain ⟨-, -, ht, -⟩ := hc.cons (by simp [hk])
    have hspend := hc.spend (by simp [hk])
    rw [Token.Genuine, hk] at ht
    obtain ⟨htext, -⟩ := text_of_ofWord? ht
    rw [← htext] at ht hspend
    refine .advance fun _ => .pure ⟨⟨_, ht, .inl rfl⟩, ?_, rfl, ?_⟩
    · rw [← hpeek, hk, ht]
    · rw [Ident.loose_layout, hspend]
  | keyword k =>
    obtain ⟨-, -, ht, -⟩ := hc.cons (by simp [hk])
    have hspend := hc.spend (by simp [hk])
    rw [Token.Genuine, hk] at ht
    refine .ite (fun _ => .fail _) fun hr => .advance fun _ => .pure ?_
    refine ⟨⟨_, ht, .inr ⟨k, rfl, by simpa using hr, rfl⟩⟩, ?_, rfl, ?_⟩
    · rw [← hpeek, hk]
      exact ht
    · rw [Ident.loose_layout]
      exact hspend.le
  | _ => exact .fail _

/-! ## Types that have lost their quotes -/

open Classical in
/-- One if the written form of a type does not say all that the type holds. -/
noncomputable def DataType.lapse (dq : Bool) (t : DataType) : Nat :=
  if t.Faithful dq then 0 else 1

/-- The loose characters in the written form of a type, and one more if that does not say all. -/
noncomputable def DataType.cost (dq : Bool) (t : DataType) : Nat :=
  t.layout.loose + t.lapse dq

/-- The loose characters in the written form of a field, and one more if that does not say all. -/
noncomputable def StructField.cost (dq : Bool) (f : StructField) : Nat :=
  f.layout.loose + f.type.lapse dq

theorem DataType.faithful_of_lapse {t : DataType} (h : t.lapse dq = 0) : t.Faithful dq := by
  by_contra hf
  rw [DataType.lapse, if_neg hf] at h
  cases h

theorem DataType.lapse_le {t : DataType} {n : Nat} (h : n = 0 → t.Faithful dq) : t.lapse dq ≤ n := by
  rw [DataType.lapse]
  split
  · exact Nat.zero_le n
  · next hf => exact Nat.one_le_iff_ne_zero.2 fun hn => hf (h hn)

theorem DataType.Faithful.lapse {t : DataType} (h : t.Faithful dq) : t.lapse dq = 0 :=
  if_pos h

theorem DataType.Faithful.cost {t : DataType} (h : t.Faithful dq) :
    t.cost dq = t.layout.loose := by
  rw [DataType.cost, h.lapse, Nat.add_zero]

theorem DataType.lapse_array (dq : Bool) (form : ArrayForm) (t : DataType) :
    (DataType.array form t).lapse dq ≤ t.lapse dq :=
  lapse_le fun h => ⟨trivial, faithful_of_lapse h⟩

theorem DataType.cost_array (dq : Bool) (form : ArrayForm) (t : DataType) :
    (DataType.array form t).cost dq ≤ t.cost dq := by
  have h := t.lapse_array dq form
  cases form <;> simp [cost, layout, h]

theorem DataType.faithful_struct {form : StructForm} {fields : List StructField} :
    (DataType.struct form fields).Faithful dq ↔ ∀ f ∈ fields, f.type.Faithful dq :=
  ⟨fun h => StructField.allTypes_iff.1 h.2, fun h => ⟨trivial, StructField.allTypes_iff.2 h⟩⟩

theorem DataType.lapse_struct (dq : Bool) (form : StructForm) (fields : List StructField) :
    (DataType.struct form fields).lapse dq ≤ (fields.map fun f => f.type.lapse dq).sum := by
  refine lapse_le fun h => faithful_struct.2 fun f hf => faithful_of_lapse ?_
  exact List.sum_eq_zero_iff.1 h _ (List.mem_map_of_mem hf)

theorem StructField.sum_cost (dq : Bool) (fields : List StructField) :
    (fields.map (StructField.cost dq)).sum =
      (fields.map fun f => f.layout.loose).sum + (fields.map fun f => f.type.lapse dq).sum :=
  List.sum_map_add

theorem DataType.cost_struct (dq : Bool) (form : StructForm) (fields : List StructField) :
    (DataType.struct form fields).cost dq ≤ (fields.map (StructField.cost dq)).sum := by
  have h := lapse_struct dq form fields
  have hs := StructField.sum_cost dq fields
  have hl : (DataType.struct form fields).layout.loose = (fields.map fun f => f.layout.loose).sum := by
    cases form <;>
      simp [layout, StructField.layouts_eq_map, List.map_map, Function.comp_def]
  rw [cost, hl]
  omega

/-! ## What reading keeps -/

/-- What holds of a type that is read between two cursors. Behind `DOUBLE PRECISION` the second word
is missing in the written form. -/
structure DataType.Read (dq : Bool) (t : DataType) (c c' : Cursor) : Prop where
  legal : t.Legal dq
  cost : t.cost dq + c'.loose ≤ c.loose
  double : t.layout.getLast? = some (.keyword .DOUBLE) →
    isWord "PRECISION" (c'.peek 0) = true → t.cost dq + c'.loose < c.loose

/-- What holds of a field that is read between two cursors. -/
structure StructField.Read (dq : Bool) (f : StructField) (c c' : Cursor) : Prop where
  name : ∀ name ∈ f.name, name.Legal dq
  legal : f.type.Legal dq
  cost : f.cost dq + c'.loose ≤ c.loose

/-- A type whose written form does not end with a word that a type goes on behind. -/
theorem DataType.Read.of_cost {t : DataType} (hl : t.Legal dq)
    (hd : t.layout.getLast? ≠ some (.keyword .DOUBLE)) (h : t.cost dq + c'.loose ≤ c.loose) :
    t.Read dq c c' :=
  ⟨hl, h, fun he => absurd he hd⟩

theorem DataType.getLast?_struct (form : StructForm) (fields : List StructField) (k : Keyword) :
    (DataType.struct form fields).layout.getLast? ≠ some (.keyword k) := by
  cases form <;> simp [layout, Layout.parens, List.getLast?_cons, List.getLast?_append]

theorem DataType.getLast?_array (form : ArrayForm) (t : DataType) (k : Keyword) :
    (DataType.array form t).layout.getLast? ≠ some (.keyword k) := by
  cases form <;> simp [layout, List.getLast?_cons, List.getLast?_append]

theorem DataType.Read.behind {t : DataType} {d : Cursor} (h : t.Read dq d c')
    (hd : d.loose ≤ c.loose) : t.Read dq c c' where
  legal := h.legal
  cost := h.cost.trans hd
  double he hw := (h.double he hw).trans_le hd

/-- The word `PRECISION` has a loose character. -/
theorem Token.Genuine.precision {t : Token} (h : t.Genuine dq)
    (hw : isWord "PRECISION" t.kind = true) : 1 ≤ looseCount t.text.toList := by
  rw [Token.Genuine] at h
  cases hk : t.kind with
  | identifier name quote =>
    rw [hk] at h hw
    cases quote with
    | some q => cases hw
    | none =>
      obtain ⟨rfl, -⟩ : Ident.text ⟨name, none⟩ = t.text ∧ _ := text_of_ofWord? h
      have hp : looseCount "PRECISION".toList = 1 := by decide
      have hs := looseCount_of_sameIgnoringCase hw
      exact (hs.trans hp).ge
  | _ =>
    rw [hk] at hw
    cases hw

namespace Parse

variable {p : Cursor}

theorem spends_boundedNumber (bound : Nat) (number : BoundedNumber) :
    Spends dq c (boundedNumber bound number) fun _ _ => True := by
  refine .current ?_
  split
  · split
    · exact .advance fun _ => .pure trivial
    · exact .stop _
  · exact .fail _

theorem spends_optionalLength : Spends dq c optionalLength fun _ _ => True :=
  .takeSymbol
    (fun _ _ => (spends_boundedNumber _ _).bind fun _ _ _ _ => .expectSymbol fun _ _ => .pure trivial)
    fun _ => .pure trivial

theorem spends_optionalScale :
    Spends dq c optionalScale fun s _ => s.1 = none → s.2 = none := by
  have hscale : ∀ d : Cursor, Spends dq d (afterComma (boundedNumber UInt16.size .scale))
      fun _ _ => True := fun d =>
    (Spends.afterComma (R := fun _ _ _ => True) fun _ _ => spends_boundedNumber _ _).mono
      fun _ _ _ _ => trivial
  exact .takeSymbol
    (fun _ _ => (spends_boundedNumber _ _).bind fun _ d _ _ => (hscale d).bind fun _ _ _ _ =>
      .expectSymbol fun _ _ => .pure (by simp))
    fun _ => .pure fun _ => rfl

theorem spends_typeModifier :
    Spends dq c typeModifier fun m c' =>
      IsModifier dq m ∧ looseCount m.toList + c'.loose ≤ c.loose := by
  refine .intro fun hc => .current ?_
  have htext : ∀ kind, c.current.kind = kind → kind ≠ .endOfInput →
      ((∃ digits, kind = .integer digits) ∨ (∃ name quote, kind = .identifier name quote) ∨
        ∃ k, kind = .keyword k) →
      Spends dq c (do advance; return c.current.text) fun m c' =>
        IsModifier dq m ∧ looseCount m.toList + c'.loose ≤ c.loose := by
    rintro kind hkind hne hk
    obtain ⟨-, -, ht, -⟩ := hc.cons (by rwa [hkind])
    rw [Token.Genuine, hkind] at ht
    exact .advance fun _ => .pure ⟨⟨kind, ht, hk⟩, (hc.spend (by rwa [hkind])).le⟩
  split
  · next hk => exact htext _ hk (by simp) (.inl ⟨_, rfl⟩)
  · next hk => exact htext _ hk (by simp) (.inr (.inl ⟨_, _, rfl⟩))
  · next hk => exact htext _ hk (by simp) (.inr (.inr ⟨_, rfl⟩))
  · exact .fail _

theorem spends_typeModifiers : Spends dq c typeModifiers fun ms c' =>
    (∀ m ∈ ms, IsModifier dq m) ∧ (ms.map fun m => looseCount m.toList).sum + c'.loose ≤ c.loose := by
  refine .takeSymbol (fun _ _ => ?_) fun _ => .pure ⟨by simp, by simp⟩
  refine (Spends.commaList fun _ _ => spends_typeModifier).bind fun ms d _ hms => ?_
  refine .expectSymbol fun _ _ => .pure ⟨fun m hm => ?_, ?_⟩
  · obtain ⟨_, _, h, -⟩ := hms.all m hm
    exact h
  · have := hms.sum (w := fun m => looseCount m.toList) fun _ _ _ h => h.2
    omega

/-! ## Types in types -/

section Types

variable {type : Parse DataType} (ht : ∀ c, Spends dq c type fun t c' => t.Read dq c c')
include ht

theorem spends_structField (anonymous : Bool) :
    Spends dq c (structField type anonymous) fun f c' =>
      f.Read dq c c' ∧ (anonymous = false → f.name ≠ none) := by
  have hnamed : Spends dq c
      (do let name ← some <$> identifier
          return ({ name, type := ← type } : StructField))
      fun f c' => f.Read dq c c' ∧ (anonymous = false → f.name ≠ none) := by
    have hname : Spends dq c (some <$> identifier) fun o c' => ∃ i, o = some i ∧ i.Read dq c c' :=
      .map (spends_identifier.mono fun i _ _ h => ⟨i, rfl, h⟩)
    refine hname.bind ?_
    rintro _ d hd ⟨i, rfl, hi⟩
    refine (ht d).bind fun t d' _ h => .pure ⟨⟨by simpa using hi.legal, h.legal, ?_⟩, by simp⟩
    have h₁ := hi.cost
    have h₂ := h.cost
    simp only [StructField.cost, StructField.layout, DataType.cost, Layout.loose_append,
      Layout.loose_gap_cons] at h₂ ⊢
    omega
  cases anonymous with
  | false => exact hnamed
  | true =>
    refine .test (g := fun c => startsName (c.peek 0) && startsDataType (c.peek 1)) (fun _ => rfl)
      (fun _ => hnamed) fun _ => ?_
    exact (ht c).bind fun t d _ h => .pure ⟨⟨by simp, h.legal, h.cost⟩, by simp⟩

theorem spends_structFieldsOf (anonymous : Bool) :
    Spends dq c (structFieldsOf type anonymous) fun fs c' => fs ≠ [] ∧
      (∀ f ∈ fs, (∀ name ∈ f.name, name.Legal dq) ∧ f.type.Legal dq) ∧
      (anonymous = false → ∀ f ∈ fs, f.name ≠ none) ∧
      (fs.map (StructField.cost dq)).sum + c'.loose ≤ c.loose := by
  refine (Spends.commaList fun d _ => spends_structField ht (c := d) anonymous).mono
    fun fs c' _ h => ⟨h.ne, fun f hf => ?_, fun ha f hf => ?_, h.sum fun _ _ _ h => h.1.cost⟩
  · obtain ⟨_, _, h, -⟩ := h.all f hf
    exact ⟨h.name, h.legal⟩
  · obtain ⟨_, _, -, h⟩ := h.all f hf
    exact h ha

theorem spends_structType : Spends dq c (structType type) fun t c' => t.Read dq c c' := by
  have hread : ∀ {form : StructForm} {fs : List StructField} {c' : Cursor}, fs ≠ [] →
      (∀ f ∈ fs, (∀ name ∈ f.name, name.Legal dq) ∧ f.type.Legal dq) →
      (form = .parens → ∀ f ∈ fs, f.name ≠ none) →
      (fs.map (StructField.cost dq)).sum + c'.loose ≤ c.loose →
      DataType.Read dq (.struct form fs) c c' := by
    intro form fs c' hne hl hp hs
    have hc := DataType.cost_struct dq form fs
    refine .of_cost ⟨⟨hne, fun f hf => (hl f hf).1, hp⟩, ?_⟩ (DataType.getLast?_struct _ _ _)
      (by omega)
    exact StructField.allTypes_iff.2 fun f hf => (hl f hf).2
  refine .takeSymbol (fun _ _ => ?_) fun _ => .expectSymbol fun _ _ => ?_
  · refine (spends_structFieldsOf ht true).bind fun fs d _ h => .closingAngle fun _ _ => .pure ?_
    exact hread h.1 h.2.1 (by simp) (by omega)
  · refine (spends_structFieldsOf ht false).bind fun fs d _ h => .expectSymbol fun _ _ => .pure ?_
    exact hread h.1 h.2.1 (fun _ => h.2.2.1 rfl) (by omega)

theorem spends_arrayType : Spends dq c (arrayType type) fun t c' => t.Read dq c c' := by
  refine .expectSymbol fun _ _ => (ht _).bind fun t d _ h => .closingAngle fun _ _ => .pure ?_
  have h₁ := h.cost
  have h₂ := t.cost_array dq .angles
  exact .of_cost ⟨trivial, h.legal⟩ (DataType.getLast?_array _ _ _) (by omega)

theorem spends_keywordType {k : Keyword} (hk : c.peek 0 = .keyword k) :
    Spends dq c (keywordType type k) fun t c' => t.Read dq c c' := by
  -- A type without types in it is told by its word and by what is left of it.
  have hplain : ∀ {t : DataType} {c' : Cursor}, t.Legal dq → t.Faithful dq →
      t.layout.getLast? ≠ some (.keyword .DOUBLE) → t.layout.loose + c'.loose ≤ c.loose →
      t.Read dq c c' := by
    intro t c' hl hf hd h
    exact .of_cost hl hd (hf.cost ▸ h)
  unfold keywordType
  refine .ite (fun _ => .advance fun hd => ?_) fun _ => .ite (fun _ => .advance fun hd => ?_)
    fun _ => ?_
  · exact (spends_structType ht).mono fun t c' _ h => h.behind hd
  · exact (spends_arrayType ht).mono fun t c' _ h => h.behind hd
  split
  · next t hfind =>
    have hword : t.keyword = k := by simpa using List.find?_some hfind
    have hcost : (DataType.plain t).cost dq = k.loose := by
      have hf : (DataType.plain t).Faithful dq := trivial
      rw [hf.cost, ← hword]
      simp [DataType.layout]
    refine .advanceKeyword hk fun hspend => .intro fun hc => .current (.ite (fun hp => ?_) fun hp => ?_)
    · -- The second word is not written, and it has a loose character.
      rw [Bool.and_eq_true] at hp
      obtain ⟨-, -, hg, -⟩ := hc.cons (fun he => by rw [he] at hp; cases hp.2)
      have hone := hg.precision hp.2
      have hnext := hc.spend (fun he => by rw [he] at hp; cases hp.2)
      exact .advance fun _ => .pure ⟨trivial, by omega, fun _ _ => by omega⟩
    · refine .pure ⟨trivial, by omega, fun hlast hw => absurd ?_ hp⟩
      have hd : t = .double := by
        cases t <;> simp [DataType.layout, PlainType.keyword] at hlast ⊢
      rw [hc.current_kind, hw, hd]
      rfl
  · split
    · next t hfind =>
      have hword : t.keyword = k := by simpa using List.find?_some hfind
      refine .advanceKeyword hk fun hspend => spends_optionalLength.bind fun length d _ _ => .pure ?_
      refine hplain trivial trivial ?_ ?_
      · cases t <;> cases length <;> simp [DataType.layout, DataType.lengthLayout, Layout.parens,
          SizedType.keyword, List.getLast?_cons]
      · have hl : (DataType.sized t length).layout.loose = k.loose := by
          cases length <;>
            simp [DataType.layout, DataType.lengthLayout, looseCount_decimal, hword]
        omega
    · split
      · next t hfind =>
        have hword : t.keyword = k := by simpa using List.find?_some hfind
        refine .advanceKeyword hk fun hspend => spends_optionalScale.bind ?_
        rintro ⟨precision, scale⟩ d _ hs
        refine .pure (hplain hs trivial ?_ ?_)
        · cases t <;> cases precision <;> cases scale <;> simp [DataType.layout,
            DataType.scaleLayout, Layout.parens, ScaledType.keyword, List.getLast?_cons]
        · have hl : (DataType.scaled t precision scale).layout.loose = k.loose := by
            cases precision <;> cases scale <;>
              simp [DataType.layout, DataType.scaleLayout, looseCount_decimal, hword]
          omega
      · exact .fail _

theorem spends_baseType : Spends dq c (baseType type) fun t c' => t.Read dq c c' := by
  refine .intro fun hc => .current ?_
  have hpeek := hc.current_kind
  split
  · next k hk => exact spends_keywordType ht (hpeek ▸ hk)
  · next name quote hk =>
    obtain ⟨-, -, hg, -⟩ := hc.cons (by simp [hk])
    have hspend := hc.spend (by simp [hk])
    rw [Token.Genuine, hk] at hg
    refine .advance fun _ => spends_typeModifiers.bind fun ms d _ h => .pure ?_
    have hl : (DataType.custom name ms).layout.loose =
        looseCount name.toList + (ms.map fun m => looseCount m.toList).sum := by
      cases ms <;> simp [DataType.layout, Layout.word, List.map_map, Function.comp_def]
    -- Without its quotes a name has fewer loose characters.
    have hname : looseCount name.toList + (DataType.custom name ms).lapse dq ≤
        looseCount c.current.text.toList := by
      cases quote with
      | none =>
        obtain ⟨htext, -⟩ : Ident.text ⟨name, none⟩ = c.current.text ∧ _ := text_of_ofWord? hg
        rw [← htext] at hg ⊢
        have hf : (DataType.custom name ms).Faithful dq := hg
        rw [hf.lapse]
        exact Nat.le_refl _
      | some q =>
        have hlt := looseCount_name hg
        have hone : (DataType.custom name ms).lapse dq ≤ 1 := DataType.lapse_le (by simp)
        omega
    refine .of_cost h.1 ?_ ?_
    · cases ms <;> simp [DataType.layout, Layout.onlyIf, Layout.parens, List.getLast?_cons]
    · rw [DataType.cost, hl]
      omega
  · exact .fail _

omit ht in
theorem spends_arraySuffix {t : DataType} {d : Cursor} (h : t.Read dq c d) :
    Spends dq d (arraySuffix t) fun o c' => o.elim (t.Read dq c c') fun t' => t'.Read dq c c' := by
  have hcost := t.cost_array dq .brackets
  have h₁ := h.cost
  refine .symbolAt (fun _ => .symbolAt (fun _ => ?_) fun _ => .pure h) fun _ => ?_
  · refine .advance fun _ => .advance fun _ => .pure ?_
    exact .of_cost ⟨trivial, h.legal⟩ (DataType.getLast?_array _ _ _) (by omega)
  · exact .symbolAt (fun _ => .pure h) fun _ => .pure h

theorem spends_dataTypeOf : Spends dq c (dataTypeOf type) fun t c' => t.Read dq c c' := by
  refine (spends_baseType ht).bind fun t d hd h => ?_
  exact .repeatFrom (I := fun t d => t.Read dq c d) h fun t d _ h => spends_arraySuffix h

omit ht in
theorem spends_dataTypeWithin : ∀ (l : List Token) (c : Cursor),
    Spends dq c (dataTypeWithin l) fun t c' => t.Read dq c c'
  | [], _ => spends_dataTypeOf fun _ => .stop _
  | _ :: l, _ => spends_dataTypeOf fun c => spends_dataTypeWithin l c

end Types

theorem spends_dataType : Spends dq c dataType fun t c' => t.Read dq c c' :=
  spends_dataTypeWithin _ c

/-- The fields of a struct type. -/
theorem spends_structFields (anonymous : Bool) :
    Spends dq c (structFields anonymous) fun fs c' => fs ≠ [] ∧
      (∀ f ∈ fs, (∀ name ∈ f.name, name.Legal dq) ∧ f.type.Legal dq) ∧
      (anonymous = false → ∀ f ∈ fs, f.name ≠ none) ∧
      (fs.map (StructField.cost dq)).sum + c'.loose ≤ c.loose :=
  spends_structFieldsOf (fun _ => spends_dataType) anonymous

end Parse

/-! ## Types and their texts -/

/-- A type is read back from its text. -/
def DataType.ReadsBack (dq : Bool) (t : DataType) : Prop :=
  ∃ lexed c, tokenize t.text dq = .ok lexed ∧ dataType (Cursor.ofLexed lexed) = .ok t c

theorem DataType.readsBack {t : DataType} (hl : t.Legal dq) (hf : t.Faithful dq) :
    t.ReadsBack dq := by
  obtain ⟨lexed, ht, hr, he⟩ := tokenize_of_apart (t.apart hl hf)
    (usual_unnumbered.dataType t).numbered
  have hd : Takes dq dataType (t.layout.solid ++ []) t [] :=
    takes_dataType hl hf ⟨by simp, by simp, fun _ => rfl⟩
  obtain ⟨c, hc, -⟩ := hd (Cursor.ofLexed lexed) ⟨by rwa [List.append_nil], he⟩
  exact ⟨lexed, c, ht, hc⟩

/-- A type that is read back from its text is legal, and its text says all it holds. -/
theorem DataType.ReadsBack.legal_faithful {t : DataType} (h : t.ReadsBack dq) :
    t.Legal dq ∧ t.Faithful dq := by
  obtain ⟨lexed, c, hlex, hread⟩ := h
  obtain ⟨hg, hend⟩ := tokenize_genuine hlex
  have hq := tokenize_looseCount hlex
  obtain ⟨-, -, hr⟩ := spends_dataType (c := Cursor.ofLexed lexed) ⟨hg, hend⟩ t c hread
  have hcost := hr.cost
  have h1 : (Cursor.ofLexed lexed).loose = looseOf lexed.tokens := rfl
  have h2 : t.layout.loose = looseCount t.text.toList := rfl
  refine ⟨hr.legal, DataType.faithful_of_lapse ?_⟩
  rw [DataType.cost] at hcost
  omega

end SqlTree
