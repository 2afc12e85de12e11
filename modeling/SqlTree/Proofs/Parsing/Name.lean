import Mathlib
import SqlTree.DataType.Grammar
import SqlTree.Proofs.Parsing.Agree

/-! # Names and data types at places that look alike

* `agrees_identifier`, `agrees_objectName`, `agrees_tableAlias`, …: the readers of names.
* `agrees_dataType`: the reader of data types.
-/

namespace SqlTree
set_option autoImplicit false

/-- If a type is a struct type in parentheses, all its fields have names. -/
def DataType.FieldsNamed (t : DataType) : Prop :=
  ∀ fields, t = .struct .parens fields → ∀ f ∈ fields, f.name ≠ none

namespace Parse

/-! ## Names -/

theorem agrees_nameAt (n : Nat) : Agrees (nameAt n) (nameAt n) fun _ => True :=
  (agrees_peek n).next fun _ => .pure trivial

theorem agrees_identifier : Agrees identifier identifier fun _ => True := by
  refine .token fun kind _ _ _ => ?_
  cases kind with
  | identifier name quote => exact agrees_advance.next fun _ => .pure trivial
  | keyword k => exact .ite (.fail _ _) (agrees_advance.next fun _ => .pure trivial)
  | _ => exact .fail _ _

theorem agrees_nameAfterDot : Agrees nameAfterDot nameAfterDot fun _ => True :=
  (agrees_symbolAt 0 .dot).next fun _ => (agrees_nameAt 1).next fun _ =>
    .ite (agrees_advance.next fun _ => agrees_identifier.next fun _ => .pure trivial)
      (.pure trivial)

theorem agrees_dottedName : Agrees dottedName dottedName fun _ => True := by
  have hmore : Agrees (collect nameAfterDot) (collect nameAfterDot) fun _ => True :=
    (Agrees.collect (P := fun _ => True) (agrees_nameAfterDot.mono (by simp))).mono (by simp)
  exact agrees_identifier.next fun _ => hmore.next fun _ => .pure trivial

theorem agrees_objectName : Agrees objectName objectName fun _ => True :=
  agrees_dottedName.next fun _ => .pure trivial

theorem agrees_identifierList : Agrees identifierList identifierList (· ≠ []) :=
  agrees_identifier.commaList.mono fun _ h => h.1

theorem agrees_identifiersInParens : Agrees identifiersInParens identifiersInParens (· ≠ []) :=
  agrees_identifierList.inParens

theorem agrees_optionalIdentifiers :
    Agrees optionalIdentifiers optionalIdentifiers fun _ => True :=
  (agrees_symbolAt 0 .leftParen).next fun _ =>
    .ite (agrees_identifiersInParens.mono fun _ _ => trivial) (.pure trivial)

theorem agrees_oneOrMoreIdentifiers :
    Agrees oneOrMoreIdentifiers oneOrMoreIdentifiers (· ≠ []) :=
  (agrees_symbolAt 0 .leftParen).next fun _ =>
    .ite agrees_identifiersInParens (agrees_identifier.next fun _ => .pure (by simp))

theorem agrees_optionalAlias : Agrees optionalAlias optionalAlias fun _ => True :=
  (agrees_takeKeyword .AS).next fun _ =>
    .ite (agrees_identifier.next fun _ => .pure trivial)
      ((agrees_nameAt 0).next fun _ =>
        .ite (agrees_identifier.next fun _ => .pure trivial) (.pure trivial))

theorem agrees_tableAlias : Agrees tableAlias tableAlias fun _ => True := by
  refine agrees_optionalAlias.next fun o => ?_
  cases o with
  | none => exact .pure trivial
  | some a =>
    refine (agrees_symbolAt 0 .leftParen).next fun _ => (agrees_nameAt 1).next fun _ => ?_
    exact .ite (agrees_identifiersInParens.bind fun _ _ => .pure trivial) (.pure trivial)

/-! ## Data types -/

theorem agrees_boundedNumber (bound : Nat) (number : BoundedNumber) :
    Agrees (boundedNumber bound number) (boundedNumber bound number) fun _ => True := by
  refine .token fun kind _ _ _ => ?_
  cases kind with
  | integer digits =>
    dsimp only
    cases Decimal.readBelow? bound digits.toList with
    | none => exact .stop _ _
    | some n => exact agrees_advance.next fun _ => .pure trivial
  | _ => exact .fail _ _

theorem agrees_optionalLength : Agrees optionalLength optionalLength fun _ => True :=
  (agrees_takeSymbol .leftParen).next fun _ =>
    .ite ((agrees_boundedNumber _ _).next fun _ =>
        (agrees_expectSymbol _).next fun _ => .pure trivial)
      (.pure trivial)

theorem agrees_optionalScale : Agrees optionalScale optionalScale fun _ => True := by
  have hscale := (agrees_boundedNumber UInt16.size .scale).afterComma
  refine (agrees_takeSymbol .leftParen).next fun _ => .ite ?_ (.pure trivial)
  exact (agrees_boundedNumber _ _).next fun _ => hscale.bind fun _ _ =>
    (agrees_expectSymbol _).next fun _ => .pure trivial

theorem agrees_typeModifier : Agrees typeModifier typeModifier fun _ => True := by
  refine .token fun kind _ _ _ => ?_
  cases kind <;> first | exact .fail _ _ | exact agrees_advance.next fun _ => .pure trivial

theorem agrees_typeModifiers : Agrees typeModifiers typeModifiers fun _ => True :=
  (agrees_takeSymbol .leftParen).next fun _ =>
    .ite (agrees_typeModifier.commaList.bind fun _ _ =>
        (agrees_expectSymbol _).next fun _ => .pure trivial)
      (.pure trivial)

section Types

variable {type type' : Parse DataType} (ht : Agrees type type' fun _ => True)
include ht

theorem agrees_structField (anonymous : Bool) :
    Agrees (structField type anonymous) (structField type' anonymous)
      fun f => anonymous = false → f.name ≠ none := by
  have hnamed : Agrees
      (do let name ← some <$> identifier
          return ({ name, type := ← type } : StructField))
      (do let name ← some <$> identifier
          return ({ name, type := ← type' } : StructField)) fun f => f.name ≠ none :=
    (agrees_identifier.map (R := fun name : Option Ident => name ≠ none) (by simp)).bind
      fun _ hname => ht.next fun _ => .pure hname
  cases anonymous with
  | false => exact hnamed.mono fun _ h _ => h
  | true =>
    have htest : Agrees
        (do return (← nameAt 0) && startsDataType (← peek 1))
        (do return (← nameAt 0) && startsDataType (← peek 1)) fun _ => True :=
      (agrees_nameAt 0).next fun _ => (agrees_peek 1).next fun _ => .pure trivial
    refine htest.next fun named => ?_
    cases named with
    | true => exact hnamed.mono fun _ h _ => h
    | false =>
      exact (Agrees.pure (P := fun _ => True) trivial).next fun _ =>
        ht.next fun _ => .pure (by simp)

theorem agrees_structFieldsOf (anonymous : Bool) :
    Agrees (structFieldsOf type anonymous) (structFieldsOf type' anonymous)
      fun fs => fs ≠ [] ∧ ∀ f ∈ fs, anonymous = false → f.name ≠ none :=
  (agrees_structField ht anonymous).commaList

theorem agrees_structType :
    Agrees (structType type) (structType type') DataType.FieldsNamed :=
  (agrees_takeSymbol .less).next fun _ =>
    .ite ((agrees_structFieldsOf ht true).bind fun _ _ =>
        agrees_closingAngle.next fun _ => .pure (by rintro _ ⟨⟩))
      ((agrees_expectSymbol .leftParen).next fun _ =>
        (agrees_structFieldsOf ht false).bind fun fs hfs =>
          (agrees_expectSymbol .rightParen).next fun _ => .pure (by
            rintro _ ⟨⟩ f hf
            exact hfs.2 f hf rfl))

theorem agrees_arrayType : Agrees (arrayType type) (arrayType type') DataType.FieldsNamed :=
  (agrees_expectSymbol .less).next fun _ => ht.next fun _ =>
    agrees_closingAngle.next fun _ => .pure (by rintro _ ⟨⟩)

theorem agrees_keywordType (k : Keyword) :
    Agrees (keywordType type k) (keywordType type' k) DataType.FieldsNamed := by
  refine .ite (agrees_advance.next fun _ => agrees_structType ht) ?_
  refine .ite (agrees_advance.next fun _ => agrees_arrayType ht) ?_
  cases PlainType.all.find? (·.keyword == k) with
  | some t =>
    have hplain : DataType.FieldsNamed (.plain t) := by rintro _ ⟨⟩
    refine agrees_advance.next fun _ => .token fun kind _ _ _ => ?_
    exact .ite (agrees_advance.next fun _ => .pure hplain) (.pure hplain)
  | none =>
    cases SizedType.all.find? (·.keyword == k) with
    | some t =>
      exact agrees_advance.next fun _ => agrees_optionalLength.next fun _ =>
        .pure (by rintro _ ⟨⟩)
    | none =>
      cases ScaledType.all.find? (·.keyword == k) with
      | some t =>
        exact agrees_advance.next fun _ => agrees_optionalScale.next fun _ =>
          .pure (by rintro _ ⟨⟩)
      | none => exact .fail _ _

theorem agrees_baseType : Agrees (baseType type) (baseType type') DataType.FieldsNamed := by
  refine .token fun kind _ _ _ => ?_
  cases kind with
  | keyword k => exact agrees_keywordType ht k
  | identifier name quote =>
    exact agrees_advance.next fun _ => agrees_typeModifiers.next fun _ => .pure (by rintro _ ⟨⟩)
  | _ => exact .fail _ _

omit ht in
theorem agrees_arraySuffix (t : DataType) :
    Agrees (arraySuffix t) (arraySuffix t) fun o => ∀ t' ∈ o, DataType.FieldsNamed t' :=
  (agrees_symbolAt 0 .leftBracket).next fun _ => (agrees_symbolAt 1 .rightBracket).next fun _ =>
    .ite (agrees_advance.next fun _ => agrees_advance.next fun _ => .pure (by
        rintro _ ⟨⟩ _ ⟨⟩)) (.pure (by simp))

theorem agrees_dataTypeOf : Agrees (dataTypeOf type) (dataTypeOf type') DataType.FieldsNamed :=
  (agrees_baseType ht).bind fun _ hbase => .repeatFrom hbase fun t _ => agrees_arraySuffix t

omit ht in
theorem agrees_dataTypeWithin : ∀ l l' : List Token, l.length = l'.length →
    Agrees (dataTypeWithin l) (dataTypeWithin l') DataType.FieldsNamed := by
  intro l
  induction l with
  | nil =>
    intro l' hl
    obtain rfl : l' = [] := List.eq_nil_of_length_eq_zero hl.symm
    exact agrees_dataTypeOf (.stop _ _)
  | cons t l ih =>
    intro l' hl
    cases l' with
    | nil => simp at hl
    | cons t' l' =>
      exact agrees_dataTypeOf ((ih l' (by simpa using hl)).mono fun _ _ => trivial)

end Types

theorem agrees_dataType : Agrees dataType dataType DataType.FieldsNamed :=
  fun c c' hc => agrees_dataTypeWithin _ _ hc.length_eq c c' hc

theorem agrees_structFields (anonymous : Bool) :
    Agrees (structFields anonymous) (structFields anonymous)
      fun fs => fs ≠ [] ∧ ∀ f ∈ fs, anonymous = false → f.name ≠ none :=
  agrees_structFieldsOf (agrees_dataType.mono fun _ _ => trivial) anonymous

end Parse

end SqlTree
