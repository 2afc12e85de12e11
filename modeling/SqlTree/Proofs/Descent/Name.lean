import Mathlib
import SqlTree.Proofs.Descent.Rules

/-! # The readers of names and data types come to an end

* `consumes_identifier`, `rounds_nameAfterDot`, …: the readers of names.
* `consumes_dataTypeOf`: a data type whose inner types are read by a given reader. `dataTypeWithin_eq`
  says that inner types begin at a smaller weight.
-/

namespace SqlTree.Parse
set_option autoImplicit false

variable {r : Outset} {k : Nat}

/-! ## Names -/

theorem consumes_identifier : Consumes r identifier identifier := by
  refine .token fun kind _ _ => ?_
  cases kind with
  | identifier name quote => exact .advance (.pure _)
  | keyword w => exact .ite (fun _ => .fail _) fun _ => .advance (.pure _)
  | _ => exact .fail _

theorem rounds_nameAfterDot : Rounds r nameAfterDot nameAfterDot := by
  refine .symbolAt 0 .dot (.nameAt 1 ?_ .nothing) (.look (fun _ => rfl) fun _ => .nothing)
  exact (LastsFrom.advance (.next consumes_identifier fun _ => .pure _)).knowing (Nat.le_succ 1)

theorem consumes_dottedName : Consumes r dottedName dottedName :=
  .after consumes_identifier fun _ => .next rounds_nameAfterDot.collect fun _ => .pure _

theorem consumes_objectName : Consumes r objectName objectName :=
  .after consumes_dottedName fun _ => .pure _

theorem consumes_identifiersInParens : Consumes r identifiersInParens identifiersInParens :=
  lasts_inParens (lasts_commaList consumes_identifier)

theorem lasts_optionalIdentifiers : Lasts r optionalIdentifiers optionalIdentifiers :=
  .symbolAt 0 .leftParen (consumes_identifiersInParens.still.knowing (Nat.zero_le _)) (.pure _)

theorem consumes_oneOrMoreIdentifiers :
    Consumes r oneOrMoreIdentifiers oneOrMoreIdentifiers :=
  .symbolAt 0 .leftParen (consumes_identifiersInParens.knowing (Nat.zero_le _))
    (.after consumes_identifier fun _ => .pure _)

theorem lasts_optionalAlias : Lasts r optionalAlias optionalAlias :=
  .takeKeyword .AS (.next consumes_identifier fun _ => .pure _) <|
    .nameAt 0 (.next consumes_identifier fun _ => .pure _) (.pure _)

theorem lasts_tableAlias : Lasts r tableAlias tableAlias := by
  refine .next lasts_optionalAlias fun a? => ?_
  cases a? with
  | none => exact .pure _
  | some a =>
    refine .symbolAt 0 .leftParen (.nameAt 1 ?_ (.pure _)) (.look (fun _ => rfl) fun _ => .pure _)
    exact .next consumes_identifiersInParens fun _ => .pure _

/-! ## Parts of data types -/

theorem consumes_boundedNumber (bound : Nat) (number : BoundedNumber) :
    Consumes r (boundedNumber bound number) (boundedNumber bound number) := by
  refine .token fun kind _ _ => ?_
  cases kind with
  | integer digits =>
    dsimp only
    cases Decimal.readBelow? bound digits.toList with
    | some n => exact .advance (.pure _)
    | none => exact .stop nofun
  | _ => exact .fail _

theorem lasts_optionalLength : Lasts r optionalLength optionalLength :=
  .takeSymbol .leftParen
    (.next (consumes_boundedNumber _ _) fun _ => .expectSymbol .rightParen (.pure _)) (.pure _)

theorem lasts_optionalScale : Lasts r optionalScale optionalScale := by
  refine .takeSymbol .leftParen (.next (consumes_boundedNumber _ _) fun _ => ?_) (.pure _)
  refine .next (rounds_afterComma (consumes_boundedNumber _ _)) fun _ => ?_
  exact .expectSymbol .rightParen (.pure _)

theorem consumes_typeModifier : Consumes r typeModifier typeModifier := by
  refine .token fun kind _ _ => ?_
  cases kind with
  | integer digits => exact .advance (.pure _)
  | identifier name quote => exact .advance (.pure _)
  | keyword w => exact .advance (.pure _)
  | _ => exact .fail _

theorem lasts_typeModifiers : Lasts r typeModifiers typeModifiers :=
  .takeSymbol .leftParen
    (.next (lasts_commaList consumes_typeModifier) fun _ => .expectSymbol .rightParen (.pure _))
    (.pure _)

/-! ## Data types -/

section Fields

variable {type type' : Parse DataType} (ht : Consumes r type type')
include ht

theorem consumes_structField (anonymous : Bool) :
    Consumes r (structField type anonymous) (structField type' anonymous) := by
  have hnamed : ∀ {k}, LastsFrom r k (fun _ => True)
      (do
        let name ← identifier
        return ({ name := some name, type := ← type } : StructField))
      (do
        let name ← identifier
        return ({ name := some name, type := ← type' } : StructField)) :=
    .after (consumes_identifier.knowing (Nat.zero_le _)) fun _ => .next ht.inside fun _ => .pure _
  have hplain : ∀ {k}, LastsFrom r k (fun _ => True)
      (do return ({ name := none, type := ← type } : StructField))
      (do return ({ name := none, type := ← type' } : StructField)) :=
    .after (ht.knowing (Nat.zero_le _)) fun _ => .pure _
  cases anonymous with
  | false =>
    simp only [structField, map_eq_pure_bind, bind_assoc, pure_bind]
    exact hnamed
  | true =>
    simp only [structField, map_eq_pure_bind, bind_assoc, pure_bind, if_true]
    refine .look (fun _ => rfl) fun _ => .look (fun _ => rfl) fun _ => ?_
    exact .ite (fun _ => hnamed) fun _ => hplain

theorem consumes_structFieldsOf (anonymous : Bool) :
    Consumes r (structFieldsOf type anonymous) (structFieldsOf type' anonymous) :=
  lasts_commaList (consumes_structField ht anonymous)

end Fields

section Types

variable {type type' : Parse DataType} (ht : Consumes r.inside type type')
include ht

theorem consumes_structType : Consumes r (structType type) (structType type') := by
  refine .takeSymbol .less ?_ (.expectSymbol .leftParen ?_)
  · exact .next (consumes_structFieldsOf ht true) fun _ => .next lasts_closingAngle fun _ => .pure _
  · exact .next (consumes_structFieldsOf ht false) fun _ => .expectSymbol .rightParen (.pure _)

theorem consumes_arrayType : Consumes r (arrayType type) (arrayType type') :=
  .expectSymbol .less (.next ht fun _ => .next lasts_closingAngle fun _ => .pure _)

/-- The word that a type begins with is under the cursor. -/
theorem lasts_keywordType (w : Keyword) :
    LastsFrom r 1 (fun _ => True) (keywordType type w) (keywordType type' w) := by
  refine .ite (fun _ => .advance (consumes_structType ht.inside).still) fun _ => ?_
  refine .ite (fun _ => .advance (consumes_arrayType ht.inside).still) fun _ => ?_
  cases PlainType.all.find? (·.keyword == w) with
  | some t =>
    refine .advance (.token fun kind _ _ => .ite (fun hw => ?_) fun _ => .pure _)
    cases kind with
    | identifier name quote => exact .advance (.pure _)
    | _ => simp [isWord] at hw
  | none =>
    cases SizedType.all.find? (·.keyword == w) with
    | some t => exact .advance (.next lasts_optionalLength fun _ => .pure _)
    | none =>
      cases ScaledType.all.find? (·.keyword == w) with
      | some t => exact .advance (.next lasts_optionalScale fun _ => .pure _)
      | none => exact .fail _

theorem consumes_baseType : Consumes r (baseType type) (baseType type') := by
  refine .token fun kind _ _ => ?_
  cases kind with
  | keyword w => exact lasts_keywordType ht w
  | identifier name quote => exact .advance (.next lasts_typeModifiers fun _ => .pure _)
  | _ => exact .fail _

omit ht in
theorem rounds_arraySuffix (element : DataType) :
    Rounds r (arraySuffix element) (arraySuffix element) := by
  refine .symbolAt 0 .leftBracket (.symbolAt 1 .rightBracket ?_ .nothing)
    (.look (fun _ => rfl) fun _ => .nothing)
  exact .advance (.advance (.pure _))

theorem consumes_dataTypeOf : Consumes r (dataTypeOf type) (dataTypeOf type') :=
  .after (consumes_baseType ht) fun t => lasts_repeatFrom rounds_arraySuffix t

end Types

/-- The tokens ahead are an ample allowance for types in types. -/
theorem consumes_dataTypeWithin (l : List Token) (h : r.ample → r.start.ahead.length ≤ l.length) :
    Consumes r (dataTypeWithin l) (dataTypeWithin l) := by
  induction l generalizing r with
  | nil => exact consumes_dataTypeOf (.noRoom fun ha => Nat.le_zero.1 (h ha))
  | cons t l ih =>
    -- An inner type begins at `c`, with what is left of the allowance.
    refine consumes_dataTypeOf (.restart fun c hc => ih fun ha => ?_)
    have hlt := hc.length_lt
    have hle := h ha
    rw [List.length_cons] at hle
    show c.ahead.length ≤ l.length
    omega

theorem consumes_dataType : Consumes r dataType dataType := by
  intro c hc
  exact consumes_dataTypeWithin (r := ⟨c, hc.ended, r.ample, false⟩) c.ahead
    (fun _ => Nat.le_refl _) c ⟨.refl c, nofun⟩

theorem consumes_structFields (anonymous : Bool) :
    Consumes r (structFields anonymous) (structFields anonymous) :=
  consumes_structFieldsOf consumes_dataType anonymous

/-- A type in a type begins at a smaller weight. -/
theorem dataTypeWithin_eq {c : Cursor} (hc : c.ending.kind = .endOfInput) (t : Token)
    (l : List Token) :
    dataTypeWithin (t :: l) c = dataTypeOf (below c.weight (dataTypeWithin l)) c := by
  let r : Outset := ⟨c, hc, False, false⟩
  have hinner : Consumes r.inside (dataTypeWithin l) (dataTypeWithin l) :=
    consumes_dataTypeWithin l False.elim
  exact (consumes_dataTypeOf hinner.below c ⟨.refl c, nofun⟩ (Nat.zero_le _)).same

end SqlTree.Parse
