import Mathlib
import SqlTree.DataType.Grammar
import SqlTree.Proofs.Tracking.Rules

/-! # Where the readers of names and data types lead

Names and data types hold no question marks, so their readers just lead on.
-/

namespace SqlTree.Parse
set_option autoImplicit false

/-! ## Names -/

theorem moves_nameAt (n : Nat) : Moves (nameAt n) := moves_look fun _ => rfl

theorem moves_identifier : Moves identifier := by
  refine .next moves_current fun token => ?_
  split
  · exact .next moves_advance fun _ => .same rfl
  · exact .ite (.fail _) (.next moves_advance fun _ => .same rfl)
  · exact .fail _

/-- Lists of what has no parts have none. -/
theorem Moves.list {α : Type} {p : Parse (List α)} (h : Tracks (fun as => as.flatMap fun _ => []) p) :
    Moves p :=
  h.mono fun as => by simp

/-- What may be missing and has no parts has none. -/
theorem Moves.option {α : Type} {p : Parse (Option α)}
    (h : Tracks (optionalParts fun _ => []) p) : Moves p :=
  h.mono fun o => by cases o <;> simp [optionalParts]

/-- A reader of what may be missing and has no parts. -/
theorem Moves.steps {α : Type} {p : Parse (Option α)} (h : Moves p) :
    Tracks (optionalParts fun _ => []) p :=
  h.mono fun o => by cases o <;> simp [optionalParts]

theorem moves_dottedName : Moves dottedName := by
  have hmore : Moves nameAfterDot :=
    .next (moves_symbolAt 0 _) fun _ => .next (moves_nameAt 1) fun _ =>
      .ite (.next moves_advance fun _ => .next moves_identifier fun _ => .same rfl) (.same rfl)
  exact .next moves_identifier fun _ => .next (.list hmore.steps.collect) fun _ => .same rfl

theorem moves_objectName : Moves objectName :=
  .next moves_dottedName fun _ => .same rfl

theorem moves_identifiersInParens : Moves identifiersInParens :=
  Tracks.inParens (Moves.list moves_identifier.commaList)

theorem moves_optionalIdentifiers : Moves optionalIdentifiers :=
  .next (moves_symbolAt 0 _) fun _ => .ite moves_identifiersInParens (.same rfl)

theorem moves_oneOrMoreIdentifiers : Moves oneOrMoreIdentifiers :=
  .next (moves_symbolAt 0 _) fun _ =>
    .ite moves_identifiersInParens (.next moves_identifier fun _ => .same rfl)

theorem moves_optionalAlias : Moves optionalAlias :=
  .next (moves_takeKeyword _) fun _ => .ite (.next moves_identifier fun _ => .same rfl)
    (.next (moves_nameAt 0) fun _ => .ite (.next moves_identifier fun _ => .same rfl) (.same rfl))

theorem moves_tableAlias : Moves tableAlias := by
  refine .next moves_optionalAlias fun a? => ?_
  cases a? with
  | none => exact .same rfl
  | some a =>
    exact .next (moves_symbolAt 0 _) fun _ => .next (moves_nameAt 1) fun _ =>
      .ite (.next moves_identifiersInParens fun _ => .same rfl) (.same rfl)

/-! ## Data types -/

theorem moves_boundedNumber (bound : Nat) (number : BoundedNumber) :
    Moves (boundedNumber bound number) := by
  refine .next moves_current fun token => ?_
  split
  · split
    · exact .next moves_advance fun _ => .same rfl
    · exact .stop _
  · exact .fail _

theorem moves_optionalLength : Moves optionalLength :=
  .next (moves_takeSymbol _) fun _ => .ite
    (.next (moves_boundedNumber _ _) fun _ => .next (moves_expectSymbol _) fun _ => .same rfl)
    (.same rfl)

theorem moves_optionalScale : Moves optionalScale :=
  .next (moves_takeSymbol _) fun _ => .ite
    (.next (moves_boundedNumber _ _) fun _ =>
      .next (.option (moves_boundedNumber _ _).afterComma) fun _ =>
        .next (moves_expectSymbol _) fun _ => .same rfl)
    (.same rfl)

theorem moves_typeModifiers : Moves typeModifiers := by
  have hmodifier : Moves typeModifier := by
    refine .next moves_current fun token => ?_
    split
    · exact .next moves_advance fun _ => .same rfl
    · exact .next moves_advance fun _ => .same rfl
    · exact .next moves_advance fun _ => .same rfl
    · exact .fail _
  exact .next (moves_takeSymbol _) fun _ => .ite
    (.next (.list hmodifier.commaList) fun _ => .next (moves_expectSymbol _) fun _ => .same rfl)
    (.same rfl)

section Types

variable {type : Parse DataType} (h : Moves type)

include h

theorem moves_structFieldsOf (anonymous : Bool) : Moves (structFieldsOf type anonymous) := by
  have hfield : Moves (structField type anonymous) := by
    have hname : ∀ named : Bool, Moves
        (if named then (some <$> identifier >>= fun name => type >>= fun type =>
            (pure { name, type } : Parse StructField))
          else (pure none >>= fun name => type >>= fun type => pure { name, type })) :=
      fun _ => .join (.map moves_identifier fun _ => .same rfl) (.same rfl) fun _ =>
        .next h fun _ => .same rfl
    exact .ite (.next (moves_nameAt 0) fun _ => .next (moves_peek 1) fun _ =>
      .next (.same rfl) hname) (.next (.same rfl) hname)
  exact .list hfield.commaList

theorem moves_structType : Moves (structType type) :=
  .next (moves_takeSymbol _) fun _ => .ite
    (.next (moves_structFieldsOf h _) fun _ => .next moves_closingAngle fun _ => .same rfl)
    (.next (moves_expectSymbol _) fun _ => .next (moves_structFieldsOf h _) fun _ =>
      .next (moves_expectSymbol _) fun _ => .same rfl)

theorem moves_arrayType : Moves (arrayType type) :=
  .next (moves_expectSymbol _) fun _ => .next h fun _ => .next moves_closingAngle fun _ => .same rfl

theorem moves_keywordType (k : Keyword) : Moves (keywordType type k) := by
  refine .ite (.next moves_advance fun _ => moves_structType h)
    (.ite (.next moves_advance fun _ => moves_arrayType h) ?_)
  split
  · exact .next moves_advance fun _ => .next moves_current fun _ =>
      .ite (.next moves_advance fun _ => .same rfl) (.same rfl)
  · split
    · exact .next moves_advance fun _ => .next moves_optionalLength fun _ => .same rfl
    · split
      · exact .next moves_advance fun _ => .next moves_optionalScale fun _ => .same rfl
      · exact .fail _

theorem moves_dataTypeOf : Moves (dataTypeOf type) := by
  have hbase : Moves (baseType type) := by
    refine .next moves_current fun token => ?_
    split
    · exact moves_keywordType h _
    · exact .next moves_advance fun _ => .next moves_typeModifiers fun _ => .same rfl
    · exact .fail _
  have hsuffix : ∀ element, Moves (arraySuffix element) := fun _ =>
    .next (moves_symbolAt 0 _) fun _ => .next (moves_symbolAt 1 _) fun _ =>
      .ite (.next moves_advance fun _ => .next moves_advance fun _ => .same rfl) (.same rfl)
  exact .next hbase fun e => tracks_repeatFrom (fun element => (hsuffix element).steps) e

end Types

theorem moves_dataTypeWithin (allowance : List Token) : Moves (dataTypeWithin allowance) := by
  induction allowance with
  | nil => exact moves_dataTypeOf (.stop _)
  | cons t allowance ih => exact moves_dataTypeOf ih

theorem moves_dataType : Moves dataType :=
  fun low c hheld => moves_dataTypeWithin c.ahead low c hheld

theorem moves_structFields (anonymous : Bool) : Moves (structFields anonymous) :=
  moves_structFieldsOf moves_dataType anonymous

end SqlTree.Parse
