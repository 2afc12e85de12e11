import Mathlib
import SqlTree.Number.FloatText
import SqlTree.Proofs.Lexing.Longest
import SqlTree.Proofs.Reading.DataType

/-! # Numbers written with a point or an exponent

* `readInt?_writeInt`: whole numbers of any size are read back. `readInt64?_eq_some_iff`: those of 64
  bits are the ones in their range.
* `Numeral`: digits in front of a point and behind it, and an exponent.
* `Numeral.readMagnitude?_chars`: it is read as the magnitude nearest to the number it says.
* `Numeral.ofWord?_chars`: with a fraction or an exponent it is one token, a floating-point number.
-/

namespace SqlTree
set_option autoImplicit false

open Text

/-! ## Digits -/

section Digits

variable {digits rest : List Char}

theorem splitSign_digits (hd : ∀ c ∈ digits, c.isDigit = true) :
    Decimal.splitSign digits = (false, digits) := by
  cases digits with
  | nil => rfl
  | cons c digits =>
    have hc : c.isDigit = true := hd c (by simp)
    unfold Decimal.splitSign
    split
    · next h => simp_all
    · next h => simp_all
    · rfl

theorem value_append (digits more : List Char) :
    Decimal.value (digits ++ more) = more.foldl (fun n c => 10 * n + (c.toNat - 48))
      (Decimal.value digits) :=
  List.foldl_append

theorem value_replicate (digits : List Char) (k : Nat) :
    Decimal.value (digits ++ List.replicate k '0') = Decimal.value digits * 10 ^ k := by
  induction k with
  | zero => simp
  | succ k ih =>
    have hzero : '0'.toNat - 48 = 0 := by decide
    rw [List.replicate_succ', ← List.append_assoc, Decimal.value_concat, ih, hzero, pow_succ]
    ring

theorem value_zeros (k : Nat) (digits : List Char) :
    Decimal.value (List.replicate k '0' ++ digits) = Decimal.value digits := by
  have hzeros : Decimal.value (List.replicate k '0') = 0 := by
    have hvalue : Decimal.value [] = 0 := rfl
    simpa [hvalue] using value_replicate [] k
  rw [value_append, hzeros]
  rfl

theorem splitSign_writeInt (e : Int) :
    Decimal.splitSign (Decimal.writeInt e) = (decide (e < 0), Decimal.write e.natAbs) := by
  unfold Decimal.writeInt
  by_cases he : e < 0
  · rw [if_pos he, decide_eq_true he]
    rfl
  · rw [if_neg he, decide_eq_false he]
    exact splitSign_digits (isDigit_write _)

end Digits

/-! ## Whole numbers of any size -/

/-- The whole number that a text stands for, however large: an optional sign and digits. -/
def Decimal.readInt? (chars : List Char) : Option Int :=
  match Decimal.splitSign chars with
  | (negative, digits) =>
    if digits.isEmpty || !digits.all Char.isDigit then none
    else some (if negative then -(Decimal.value digits : Int) else Decimal.value digits)

theorem readInt?_writeInt (n : Int) : Decimal.readInt? (Decimal.writeInt n) = some n := by
  have hne : (Decimal.write n.natAbs).isEmpty = false := by
    simpa using write_ne_nil n.natAbs
  have hall : (Decimal.write n.natAbs).all Char.isDigit = true :=
    List.all_eq_true.2 (isDigit_write n.natAbs)
  have hvalue : (if decide (n < 0) = true then -(n.natAbs : Int) else n.natAbs) = n := by
    split
    · next hn => have := of_decide_eq_true hn; omega
    · next hn => have := of_decide_eq_false (Bool.eq_false_of_not_eq_true hn); omega
  unfold Decimal.readInt?
  rw [splitSign_writeInt]
  simp only [hne, hall, Decimal.value_write, hvalue]
  rfl

theorem readInt?_write (n : Nat) : Decimal.readInt? (Decimal.write n) = some (n : Int) :=
  readInt?_writeInt n

theorem readInt64?_eq_some_iff {chars : List Char} {n : Int} :
    Decimal.readInt64? chars = some n ↔
      Decimal.readInt? chars = some n ∧ -2 ^ 63 ≤ n ∧ n < 2 ^ 63 := by
  unfold Decimal.readInt64? Decimal.readInt? Decimal.readBelow?
  obtain ⟨negative, digits⟩ := Decimal.splitSign chars
  simp only [Nat.pow_eq]
  by_cases hd : (digits.isEmpty || !digits.all Char.isDigit) = true
  · cases negative <;> simp [hd]
  · have hsize : (2 : Int) ^ 63 = (2 ^ 63 : Nat) := rfl
    cases negative with
    | true =>
      simp only [hd, if_false, if_true, Bool.false_eq_true, Option.some.injEq]
      by_cases hv : Decimal.value digits < 2 ^ 63 + 1
      · simp only [hv, if_true, Option.bind_eq_bind, Option.bind_some, Option.pure_def, Option.map_some,
          Option.some.injEq]
        omega
      · simp only [hv, if_false, Option.bind_eq_bind, Option.bind_none, Option.map_none, reduceCtorEq,
          false_iff]
        omega
    | false =>
      simp only [hd, if_false, Bool.false_eq_true, Option.some.injEq]
      by_cases hv : Decimal.value digits < 2 ^ 63
      · simp only [hv, if_true, Option.bind_eq_bind, Option.bind_some, Option.pure_def, Option.map_some,
          Option.some.injEq]
        omega
      · simp only [hv, if_false, Option.bind_eq_bind, Option.bind_none, Option.map_none, reduceCtorEq,
          false_iff]
        omega

theorem readExponent?_writeInt (e : Int) :
    Binary64.readExponent? ('e' :: Decimal.writeInt e) = some e :=
  readInt?_writeInt e

theorem writeInt_mem_exponent (e : Int) : 'e' :: Decimal.writeInt e ∈ NumberForm.exponent := by
  have hdigits : Decimal.write e.natAbs ∈ NumberForm.digits :=
    ⟨write_ne_nil e.natAbs, isDigit_write e.natAbs⟩
  unfold Decimal.writeInt
  split
  · exact NumberForm.mem_exponent.2 ⟨'e', ['-'], _, hdigits, rfl, .inr ⟨'-', rfl, rfl⟩, rfl⟩
  · exact NumberForm.mem_exponent.2 ⟨'e', [], _, hdigits, rfl, .inl rfl, rfl⟩

/-! ## Numerals -/

/-- An unsigned number: digits in front of the point, digits behind it, and an exponent. Without
digits behind it there is no point. -/
structure Numeral where
  whole : List Char
  fraction : List Char
  exponent : Option Int

namespace Numeral

/-- The point with the digits behind it. -/
def fractionChars (n : Numeral) : List Char :=
  if n.fraction = [] then [] else '.' :: n.fraction

/-- The exponent behind its mark. -/
def exponentChars (n : Numeral) : List Char :=
  n.exponent.elim [] fun e => 'e' :: Decimal.writeInt e

/-- The characters of the number. -/
def chars (n : Numeral) : List Char :=
  n.whole ++ (n.fractionChars ++ n.exponentChars)

/-- The magnitude nearest to the number. -/
def nearest (n : Numeral) : Nat :=
  Binary64.nearestDecimal (Decimal.value (n.whole ++ n.fraction))
    (n.exponent.getD 0 - n.fraction.length)

/-- Digits in front of the point and nothing but digits behind it. -/
structure Legal (n : Numeral) : Prop where
  ne_nil : n.whole ≠ []
  whole : ∀ c ∈ n.whole, c.isDigit = true
  fraction : ∀ c ∈ n.fraction, c.isDigit = true

variable {n : Numeral}

theorem head?_exponentChars (n : Numeral) :
    ∀ c ∈ n.exponentChars.head?, c.isDigit = false ∧ c ≠ '.' := by
  intro c hc
  unfold exponentChars at hc
  cases he : n.exponent with
  | none => simp [he] at hc
  | some e =>
    obtain rfl : 'e' = c := by simpa [he] using hc
    decide

theorem head?_behindWhole (n : Numeral) :
    ∀ c ∈ (n.fractionChars ++ n.exponentChars).head?, c.isDigit = false := by
  intro c hc
  by_cases hf : n.fraction = []
  · rw [fractionChars, if_pos hf, List.nil_append] at hc
    exact (n.head?_exponentChars c hc).1
  · obtain rfl : '.' = c := by simpa [fractionChars, hf] using hc
    decide

theorem takeWhile_fraction (h : n.Legal) :
    (n.fraction ++ n.exponentChars).takeWhile Char.isDigit = n.fraction ∧
      (n.fraction ++ n.exponentChars).dropWhile Char.isDigit = n.exponentChars :=
  takeWhile_digits h.fraction fun c hc => (n.head?_exponentChars c hc).1

theorem readExponent?_exponentChars (n : Numeral) :
    Binary64.readExponent? n.exponentChars = some (n.exponent.getD 0) := by
  unfold exponentChars
  cases n.exponent with
  | none => rfl
  | some e => exact readExponent?_writeInt e

theorem readMagnitude?_chars (h : n.Legal) : Binary64.readMagnitude? n.chars = some n.nearest := by
  obtain ⟨hwhole, hrest⟩ := takeWhile_digits h.whole n.head?_behindWhole
  have hempty : n.whole.isEmpty = false := by simpa using h.ne_nil
  unfold Binary64.readMagnitude? chars nearest
  dsimp only
  rw [hwhole, hrest, hempty]
  by_cases hf : n.fraction = []
  · rw [fractionChars, if_pos hf, List.nil_append]
    split
    · next more he => exact absurd rfl (n.head?_exponentChars '.' (by rw [he]; rfl)).2
    · simp [readExponent?_exponentChars, hf]
  · obtain ⟨htake, hdrop⟩ := takeWhile_fraction h
    rw [fractionChars, if_neg hf, List.cons_append]
    simp [htake, hdrop, readExponent?_exponentChars]

/-- With a fraction or an exponent the characters have the form of a floating-point number. -/
theorem chars_mem_floating (h : n.Legal) (hm : n.fraction ≠ [] ∨ n.exponent ≠ none) :
    n.chars ∈ NumberForm.floating := by
  have hpoint : n.fraction ≠ [] → n.fractionChars ∈ NumberForm.fraction := fun hf => by
    rw [fractionChars, if_neg hf]
    exact NumberForm.mem_fraction.2 ⟨_, ⟨hf, h.fraction⟩, rfl⟩
  refine Language.append_mem_mul ⟨h.ne_nil, h.whole⟩ ?_
  unfold exponentChars
  cases he : n.exponent with
  | none =>
    rw [Option.elim_none, List.append_nil]
    exact .inl (.inl (hpoint (hm.resolve_right (· he))))
  | some e =>
    have hpower := writeInt_mem_exponent e
    by_cases hf : n.fraction = []
    · rw [fractionChars, if_pos hf]
      exact .inl (.inr hpower)
    · exact .inr (Language.append_mem_mul (hpoint hf) hpower)

theorem ofWord?_chars (dq : Bool) (h : n.Legal) (hm : n.fraction ≠ [] ∨ n.exponent ≠ none) :
    TokenKind.ofWord? dq (String.ofList n.chars) = some (.float (String.ofList n.chars)) := by
  have hfloating := chars_mem_floating h hm
  have hnumber : (String.ofList n.chars).toList ∈ NumberForm.number := by
    rw [String.toList_ofList, NumberForm.number_eq]
    exact .inr hfloating
  rw [ofWord?_number dq hnumber, String.toList_ofList, kind_of_floating hfloating]

end Numeral

end SqlTree
