import Mathlib
import SqlTree.DataType.Grammar
import SqlTree.Proofs.Carrying.Rules

/-! # Names and data types inside a longer text

* `carries_identifier`, `carries_objectName`, `carries_tableAlias`, …: the readers of names.
* `carries_dataType`: the reader of data types.

None of them holds a number, so they answer within other tokens as they do alone.
-/

namespace SqlTree.Parse
set_option autoImplicit false

variable {β : Type} {S : Surroundings} {k : Nat} {r : Room} {stays : β → Prop} {g : β → β}

/-! ## Names -/

section Tests

variable {f f' : Bool → Parse β}

theorem CarriesFrom.nameAt (hyes : CarriesFrom S 1 r stays g (f true) (f' true))
    (hno : CarriesFrom S k r stays g (f false) (f' false)) :
    CarriesFrom S k r stays g (nameAt 0 >>= f) (nameAt 0 >>= f') :=
  .test startsName (fun _ => rfl) ⟨rfl, rfl, rfl⟩ (Nat.zero_le k) hyes hno

/-- A name behind `k` known tokens. -/
theorem CarriesFrom.nameBehind (hyes : CarriesFrom S (k + 1) r stays g (f true) (f' true))
    (hno : CarriesFrom S k r stays g (f false) (f' false)) :
    CarriesFrom S k r stays g (Parse.nameAt k >>= f) (Parse.nameAt k >>= f') :=
  .test startsName (fun _ => rfl) ⟨rfl, rfl, rfl⟩ (Nat.le_refl k) hyes hno

end Tests

theorem carries_identifier : CarriesFrom S 0 r (fun _ => True) id identifier identifier := by
  refine .token (fun kind _ _ _ => ?_) fun t t' ht ht' => ?_
  · cases kind with
    | identifier name quote => exact .advance (.pure rfl)
    | keyword w => exact .ite (fun _ => .fail _) fun _ => .advance (.pure rfl)
    | _ => exact .fail _
  · rcases ht with ht | ht <;> rw [ht, ht'] <;> exact .fail _

theorem steps_nameAfterDot : Steps S r id nameAfterDot nameAfterDot := by
  refine .symbolAt .dot ⟨rfl, rfl, rfl⟩ ?_ (.look (fun _ => ⟨_, rfl⟩) fun _ _ => .nothing)
  exact .nameBehind (.advance (.next carries_identifier fun _ => .pure rfl)) .nothing

theorem carries_dottedName : CarriesFrom S 0 r (fun _ => True) id dottedName dottedName :=
  .after carries_identifier fun _ => .next steps_nameAfterDot.collect fun _ => .pure (by simp)

theorem carries_objectName : CarriesFrom S 0 r (fun _ => True) id objectName objectName :=
  .after carries_dottedName fun _ => .pure rfl

theorem carries_identifierList : Carries S r.inside id identifierList identifierList := by
  have hname : Carries S r.inside id identifier identifier := carries_identifier.still
  have hlist : Carries S r.inside (List.map id) identifierList identifierList := hname.commaList
  rwa [List.map_id_fun] at hlist

theorem carries_identifiersInParens : Carries S r id identifiersInParens identifiersInParens :=
  carries_identifierList.inParens

theorem carries_optionalIdentifiers : Carries S r id optionalIdentifiers optionalIdentifiers :=
  .symbolAt .leftParen ⟨rfl, rfl, rfl⟩ carries_identifiersInParens.still (.pure rfl)

theorem carries_oneOrMoreIdentifiers :
    Carries S r id oneOrMoreIdentifiers oneOrMoreIdentifiers :=
  .symbolAt .leftParen ⟨rfl, rfl, rfl⟩ carries_identifiersInParens.still
    (.next carries_identifier fun _ => .pure rfl)

theorem carries_optionalAlias : Carries S r id optionalAlias optionalAlias := by
  refine .takeKeyword .AS (.next carries_identifier fun _ => .pure rfl) ?_
  exact .nameAt (.next carries_identifier fun _ => .pure rfl) (.pure rfl)

theorem carries_tableAlias : Carries S r id tableAlias tableAlias := by
  refine .next carries_optionalAlias fun a? => ?_
  cases a? with
  | none => exact .pure rfl
  | some a =>
    have hplain : ∀ {k}, CarriesFrom S k r (fun _ => False) id
        (pure (some a) : Parse (Option Alias)) (pure (some a)) := .pure rfl
    refine .symbolAt .leftParen ⟨rfl, rfl, rfl⟩ ?_ (.look (fun _ => ⟨_, rfl⟩) fun _ _ => hplain)
    exact .nameBehind (.next carries_identifiersInParens fun _ => .pure rfl) hplain

/-! ## Parts of data types -/

theorem carries_boundedNumber (bound : Nat) (number : BoundedNumber) :
    Carries S r id (boundedNumber bound number) (boundedNumber bound number) := by
  refine .token (fun kind _ _ _ => ?_) fun t t' ht ht' => ?_
  · cases kind with
    | integer digits =>
      dsimp only
      cases Decimal.readBelow? bound digits.toList with
      | some n => exact .advance (.pure rfl)
      | none => exact .stop _ _
    | _ => exact .fail _
  · rcases ht with ht | ht <;> rw [ht, ht'] <;> exact .fail _

theorem carries_optionalLength : Carries S r id optionalLength optionalLength := by
  refine .takeSymbol .leftParen ⟨rfl, rfl, rfl⟩ ?_ (.pure rfl)
  exact .next (carries_boundedNumber _ _) fun _ =>
    .expectSymbol .rightParen ⟨rfl, rfl, rfl⟩ (.pure rfl)

theorem carries_optionalScale : Carries S r id optionalScale optionalScale := by
  refine .takeSymbol .leftParen ⟨rfl, rfl, rfl⟩ ?_ (.pure rfl)
  refine .next (carries_boundedNumber _ _) fun _ => ?_
  refine .next (carries_boundedNumber _ _).afterComma fun scale => ?_
  exact .expectSymbol .rightParen ⟨rfl, rfl, rfl⟩ (.pure (by simp))

theorem carries_typeModifier : Carries S r id typeModifier typeModifier := by
  refine .token (fun kind _ _ _ => ?_) fun t t' ht ht' => ?_
  · cases kind with
    | integer digits => exact .advance (.pure rfl)
    | identifier name quote => exact .advance (.pure rfl)
    | keyword w => exact .advance (.pure rfl)
    | _ => exact .fail _
  · rcases ht with ht | ht <;> rw [ht, ht'] <;> exact .fail _

theorem carries_typeModifiers : Carries S r id typeModifiers typeModifiers := by
  refine .takeSymbol .leftParen ⟨rfl, rfl, rfl⟩ ?_ (.pure rfl)
  exact .next carries_typeModifier.commaList fun _ =>
    .expectSymbol .rightParen ⟨rfl, rfl, rfl⟩ (.pure (by simp))

/-! ## Data types -/

section Types

variable {type type' : Parse DataType} (ht : Carries S r.inside id type type')
include ht

theorem carries_structField (anonymous : Bool) :
    Carries S r.inside id (structField type anonymous) (structField type' anonymous) := by
  have hnamed : ∀ {k}, CarriesFrom S k r.inside (fun _ => False) id
      (do
        let name ← identifier
        return ({ name := some name, type := ← type } : StructField))
      (do
        let name ← identifier
        return ({ name := some name, type := ← type' } : StructField)) :=
    .next carries_identifier fun _ => .next ht fun _ => .pure rfl
  have hplain : ∀ {k}, CarriesFrom S k r.inside (fun _ => False) id
      (do return ({ name := none, type := ← type } : StructField))
      (do return ({ name := none, type := ← type' } : StructField)) :=
    .next ht fun _ => .pure rfl
  cases anonymous with
  | false =>
    simp only [structField, map_eq_pure_bind, bind_assoc, pure_bind]
    exact hnamed
  | true =>
    -- What begins a type decides only behind what can be a name.
    have hpeek : ∀ F : Bool → Parse StructField,
        (peek 1 >>= fun kind => F (startsDataType kind)) = startsDataType <$> peek 1 >>= F :=
      fun F => by simp only [map_eq_pure_bind, bind_assoc, pure_bind]
    simp only [structField, map_eq_pure_bind, bind_assoc, pure_bind, if_true]
    refine .nameAt ?_ (.look (fun _ => ⟨_, rfl⟩) fun _ _ => hplain)
    rw [hpeek fun b => if true && b then _ else _, hpeek fun b => if true && b then _ else _]
    exact .test startsDataType (fun _ => rfl) ⟨rfl, rfl, rfl⟩ (Nat.le_refl 1) hnamed hplain

theorem carries_structFieldsOf (anonymous : Bool) :
    Carries S r.inside id (structFieldsOf type anonymous) (structFieldsOf type' anonymous) := by
  have hfields := (carries_structField ht anonymous).commaList
  rwa [List.map_id_fun] at hfields

theorem carries_structType : Carries S r id (structType type) (structType type') := by
  refine .takeSymbol .less ⟨rfl, rfl, rfl⟩ ?_ (.expectSymbol .leftParen ⟨rfl, rfl, rfl⟩ ?_)
  · exact .next (carries_structFieldsOf ht true) fun _ =>
      .next carries_closingAngle fun _ => .pure rfl
  · exact .next (carries_structFieldsOf ht false) fun _ =>
      .expectSymbol .rightParen ⟨rfl, rfl, rfl⟩ (.pure rfl)

theorem carries_arrayType : Carries S r id (arrayType type) (arrayType type') := by
  refine .expectSymbol .less ⟨rfl, rfl, rfl⟩ (.next ht fun _ => ?_)
  exact .next carries_closingAngle fun _ => .pure rfl

/-- The word that a type begins with is under the cursor. -/
theorem carries_keywordType (w : Keyword) :
    CarriesFrom S 1 r (fun _ => False) id (keywordType type w) (keywordType type' w) := by
  refine .ite (fun _ => .advance (carries_structType ht)) fun _ => ?_
  refine .ite (fun _ => .advance (carries_arrayType ht)) fun _ => ?_
  cases PlainType.all.find? (·.keyword == w) with
  | some t =>
    have hplain : ∀ {r : Room} {k}, CarriesFrom S k r (fun _ => False) id
        (pure (.plain t) : Parse DataType) (pure (.plain t)) := .pure rfl
    refine .advance (.token (fun kind _ _ _ => .ite (fun hw => ?_) fun _ => hplain)
      fun t t' ht ht' => ?_)
    · cases kind with
      | identifier name quote => exact .advance hplain
      | _ => simp [isWord] at hw
    · rcases ht with ht | ht <;> rw [ht, ht'] <;> simpa [isWord] using hplain
  | none =>
    cases SizedType.all.find? (·.keyword == w) with
    | some t => exact .advance (.next carries_optionalLength fun _ => .pure rfl)
    | none =>
      cases ScaledType.all.find? (·.keyword == w) with
      | some t => exact .advance (.next carries_optionalScale fun _ => .pure rfl)
      | none => exact .fail _

theorem carries_baseType : Carries S r id (baseType type) (baseType type') := by
  refine .token (fun kind _ _ _ => ?_) fun t t' ht ht' => ?_
  · cases kind with
    | keyword w => exact carries_keywordType ht w
    | identifier name quote => exact .advance (.next carries_typeModifiers fun _ => .pure rfl)
    | _ => exact .fail _
  · rcases ht with ht | ht <;> rw [ht, ht'] <;> exact .fail _

theorem carries_dataTypeOf : Carries S r id (dataTypeOf type) (dataTypeOf type') := by
  have hsuffix : ∀ element, Steps S r id (arraySuffix element) (arraySuffix element) := by
    intro element
    refine .symbolAt .leftBracket ⟨rfl, rfl, rfl⟩ ?_
      (.look (fun _ => ⟨_, rfl⟩) fun _ _ => .nothing)
    exact .symbolBehind .rightBracket ⟨rfl, rfl, rfl⟩ (.advance (.advance (.pure rfl))) .nothing
  exact .next (carries_baseType ht) fun t => carries_repeatFrom hsuffix t

end Types

/-- Types in types begin behind a token, so the tokens ahead of a part are allowance enough. -/
theorem carries_dataTypeWithin : ∀ allowance' allowance : List Token,
    allowance'.length ≤ allowance.length → Carries S ⟨allowance'.length, false⟩ id
      (dataTypeWithin allowance) (dataTypeWithin allowance')
  | [], [], _ => carries_dataTypeOf .noRoom
  | [], _ :: _, _ => carries_dataTypeOf .noRoom
  | _ :: _, [], hl => by simp at hl
  | _ :: allowance', _ :: allowance, hl =>
    carries_dataTypeOf (carries_dataTypeWithin allowance' allowance (Nat.le_of_succ_le_succ hl))

theorem carries_dataType : Carries S r id dataType dataType := by
  intro c c₁ hw hc hsees hr
  exact carries_dataTypeWithin c.ahead c₁.ahead hw.length_le c c₁ hw hc hsees (Nat.lt_succ_self _)

theorem carries_structFields (anonymous : Bool) :
    Carries S r.inside id (structFields anonymous) (structFields anonymous) :=
  carries_structFieldsOf carries_dataType anonymous

end SqlTree.Parse
