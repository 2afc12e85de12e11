import Mathlib
import SqlTree.Proofs.Number.Nearest
import SqlTree.Proofs.Number.Numeral

/-! # Floating-point numbers come back from their texts

* `nearest_shortest`: the fewest digits of a finite number are nearest to it.
* `exists_numeral`: it is written as a numeral with a point or an exponent.
* `read?_write`: every finite number is read back from its text.
-/

namespace SqlTree.Binary64
set_option autoImplicit false

variable {s : Nat} {q : Int}

/-! ## The fewest digits -/

namespace DecimalForm

/-- The magnitude nearest to a decimal. -/
def nearest (d : DecimalForm) : Nat :=
  nearestDecimal d.digits d.exponent

theorem nearest_trimWithin (n : Nat) (d : DecimalForm) : (d.trimWithin n).nearest = d.nearest := by
  induction n generalizing d with
  | zero => rfl
  | succ n ih =>
    unfold trimWithin
    split
    · next h =>
      have hshift := nearestDecimal_shift (d.digits / 10) 1 (d.exponent + 1)
      rw [pow_one, Nat.div_mul_cancel (Nat.dvd_of_mod_eq_zero h.2), Nat.cast_one,
        add_sub_cancel_right] at hshift
      rw [ih]
      exact hshift.symm
    · rfl

/-- Whatever is found among fewer digits is nearest to the same magnitude. -/
theorem nearest_shortestFrom (d : DecimalForm) (tries count : Nat) :
    (d.shortestFrom d.nearest tries count).nearest = d.nearest := by
  induction tries generalizing count with
  | zero => rfl
  | succ tries ih =>
    unfold shortestFrom
    obtain ⟨lower, upper, upperNearer⟩ := d.neighbours count
    -- A neighbour is taken only where the search has found it to be nearest.
    dsimp only
    split
    · next hl hu =>
      cases upperNearer with
      | true => exact beq_iff_eq.1 hu
      | false => exact beq_iff_eq.1 hl
    · next hl hu => exact beq_iff_eq.1 hl
    · next hl hu => exact beq_iff_eq.1 hu
    · exact ih (count + 1)

end DecimalForm

theorem nearest_shortest (h : InRange s q) : (shortest s q).nearest = pattern s q := by
  unfold shortest DecimalForm.trim
  dsimp only
  rw [DecimalForm.nearest_trimWithin]
  exact (DecimalForm.nearest_shortestFrom _ _ _).trans (nearestDecimal_exact h)

/-! ## Writing -/

section Writing

variable {digits : List Char}

/-- Digits with a point in or around them are a numeral. -/
theorem exists_numeral_positional (hne : digits ≠ []) (hd : ∀ c ∈ digits, c.isDigit = true)
    (exponent : Int) :
    ∃ n : Numeral, n.Legal ∧ n.fraction ≠ [] ∧ n.chars = writePositional digits exponent ∧
      n.nearest = nearestDecimal (Decimal.value digits) exponent := by
  have hzeros : ∀ k, ∀ c ∈ List.replicate k '0', c.isDigit = true := fun k c hc => by
    rw [List.eq_of_mem_replicate hc]
    rfl
  unfold writePositional
  by_cases he : 0 ≤ exponent
  -- The point stands behind all digits and the zeros of the exponent, with one zero behind it.
  · refine ⟨⟨digits ++ List.replicate exponent.toNat '0', ['0'], none⟩, ⟨by simp [hne], ?_, ?_⟩, by simp,
      by simp [Numeral.chars, Numeral.fractionChars, Numeral.exponentChars, he], ?_⟩
    · exact List.forall_mem_append.2 ⟨hd, hzeros _⟩
    · simp
    · have hvalue : Decimal.value (digits ++ List.replicate exponent.toNat '0' ++ ['0']) =
          Decimal.value digits * 10 ^ (exponent.toNat + 1) := by
        rw [List.append_assoc, ← List.replicate_succ', value_replicate]
      have hexponent : (0 : Int) - ((['0'] : List Char).length : Nat) =
          exponent - ((exponent.toNat + 1 : Nat) : Int) := by
        simp only [List.length_singleton]
        omega
      rw [Numeral.nearest, Option.getD_none, hvalue, hexponent, nearestDecimal_shift]
  · rw [if_neg he]
    dsimp only
    by_cases hp : (-exponent).toNat < digits.length
    -- The point stands among the digits.
    · rw [if_pos hp]
      set before := digits.length - (-exponent).toNat with hbefore
      have hfraction : digits.drop before ≠ [] := by
        rw [Ne, List.drop_eq_nil_iff]
        omega
      refine ⟨⟨digits.take before, digits.drop before, none⟩, ⟨?_, ?_, ?_⟩, hfraction,
        by simp [Numeral.chars, Numeral.fractionChars, Numeral.exponentChars, hfraction], ?_⟩
      · rw [Ne, List.take_eq_nil_iff, not_or]
        exact ⟨by omega, hne⟩
      · exact fun c hc => hd c (List.mem_of_mem_take hc)
      · exact fun c hc => hd c (List.mem_of_mem_drop hc)
      · have hexponent : (0 : Int) - (digits.drop before).length = exponent := by
          rw [List.length_drop]
          omega
        rw [Numeral.nearest, Option.getD_none, List.take_append_drop, hexponent]
    -- The point stands in front of all digits, behind one zero and with zeros between.
    · rw [if_neg hp]
      have hfraction : List.replicate ((-exponent).toNat - digits.length) '0' ++ digits ≠ [] := by
        simp [hne]
      refine ⟨⟨['0'], List.replicate ((-exponent).toNat - digits.length) '0' ++ digits, none⟩,
        ⟨by simp, by simp, List.forall_mem_append.2 ⟨hzeros _, hd⟩⟩, hfraction,
        by simp [Numeral.chars, Numeral.fractionChars, Numeral.exponentChars, hne], ?_⟩
      have hvalue := value_zeros ((-exponent).toNat - digits.length + 1) digits
      rw [List.replicate_succ, List.cons_append] at hvalue
      have hexponent : (0 : Int) -
          (List.replicate ((-exponent).toNat - digits.length) '0' ++ digits).length = exponent := by
        rw [List.length_append, List.length_replicate]
        omega
      rw [Numeral.nearest, Option.getD_none, List.singleton_append, hvalue, hexponent]

/-- One digit, a point if more follow, and an exponent are a numeral. -/
theorem exists_numeral_scientific (hne : digits ≠ []) (hd : ∀ c ∈ digits, c.isDigit = true)
    (exponent : Int) :
    ∃ n : Numeral, n.Legal ∧ n.exponent ≠ none ∧ n.chars = writeScientific digits exponent ∧
      n.nearest = nearestDecimal (Decimal.value digits) exponent := by
  obtain ⟨c, more, rfl⟩ := List.exists_cons_of_ne_nil hne
  refine ⟨⟨[c], more, some (exponent + (c :: more).length - 1)⟩, ⟨by simp, ?_, ?_⟩, by simp, ?_, ?_⟩
  · exact List.forall_mem_singleton.2 (hd c (by simp))
  · exact fun d hm => hd d (by simp [hm])
  · cases more <;> rfl
  · have hexponent : exponent + (c :: more).length - 1 - more.length = exponent := by
      rw [List.length_cons]
      omega
    rw [Numeral.nearest, Option.getD_some, hexponent]
    rfl

end Writing

theorem exists_numeral (h : InRange s q) :
    ∃ n : Numeral, n.Legal ∧ (n.fraction ≠ [] ∨ n.exponent ≠ none) ∧ n.chars = writeFinite s q ∧
      n.nearest = pattern s q := by
  by_cases hs : s = 0
  · subst hs
    obtain rfl : q = -1074 := h.normal.resolve_left (by norm_num)
    refine ⟨⟨['0'], ['0'], none⟩, ⟨by simp, by simp, by simp⟩, .inl (by simp), rfl, ?_⟩
    rfl
  · have hdigits := isDigit_write (shortest s q).digits
    have hne := write_ne_nil (shortest s q).digits
    have hnearest : nearestDecimal (Decimal.value (Decimal.write (shortest s q).digits))
        (shortest s q).exponent = pattern s q := by
      rw [Decimal.value_write]
      exact nearest_shortest h
    unfold writeFinite
    rw [if_neg hs]
    dsimp only
    split
    · obtain ⟨n, hl, hf, hc, hn⟩ := exists_numeral_positional hne hdigits (shortest s q).exponent
      exact ⟨n, hl, .inl hf, hc, hn.trans hnearest⟩
    · obtain ⟨n, hl, he, hc, hn⟩ := exists_numeral_scientific hne hdigits (shortest s q).exponent
      exact ⟨n, hl, .inr he, hc, hn.trans hnearest⟩

/-! ## Reading -/

theorem toUpper_of_isDigit {c : Char} (h : c.isDigit = true) : c.toUpper = c := by
  have hc : c.toNat ≤ 57 := by
    simp only [Char.isDigit, Bool.and_eq_true, decide_eq_true_eq, UInt32.le_iff_toNat_le] at h
    exact h.2
  unfold Char.toUpper
  split
  · next hl =>
    have hlow : 97 ≤ c.toNat := by simpa [UInt32.le_iff_toNat_le] using hl.1
    omega
  · rfl

theorem read?_writeFinite (h : InRange s q) (negative : Bool) :
    read? ((if negative then ['-'] else []) ++ writeFinite s q) =
      some (ofMagnitude negative (pattern s q)) := by
  obtain ⟨n, hlegal, -, hchars, hnearest⟩ := exists_numeral h
  obtain ⟨c, cs, hw⟩ := List.exists_cons_of_ne_nil hlegal.ne_nil
  have hc : c.isDigit = true := hlegal.whole c (by simp [hw])
  have hhead : writeFinite s q = c :: (cs ++ (n.fractionChars ++ n.exponentChars)) := by
    rw [← hchars, Numeral.chars, hw, List.cons_append]
  have hread : readMagnitude? (writeFinite s q) = some (pattern s q) := by
    rw [← hchars, Numeral.readMagnitude?_chars hlegal, hnearest]
  have hsign : Decimal.splitSign ((if negative then ['-'] else []) ++ writeFinite s q) =
      (negative, writeFinite s q) := by
    cases negative with
    | true => rfl
    | false =>
      rw [hhead]
      unfold Decimal.splitSign
      split <;> simp_all
  -- What begins with a digit is none of the words for numbers that are not finite.
  have hword : ∀ d more, d.isDigit = false →
      (writeFinite s q).map Char.toUpper ≠ d :: more := fun d more hd he => by
    rw [hhead, List.map_cons, toUpper_of_isDigit hc] at he
    obtain rfl : c = d := (List.cons.inj he).1
    rw [hc] at hd
    cases hd
  unfold read?
  rw [hsign]
  dsimp only
  rw [if_neg (by simp [hword]), if_neg (by simp [hword]), hread, Option.map_some]

/-- Every finite number is read back from its text. -/
theorem read?_write {x : Binary64} (h : x.isFinite = true) : read? x.write = some x := by
  obtain ⟨negative, s, q, hparts⟩ := isFinite_iff.1 h
  obtain ⟨hrange, hx⟩ := eq_of_parts_finite hparts
  unfold write
  rw [hparts]
  exact (read?_writeFinite hrange negative).trans (congrArg some hx.symm)

end SqlTree.Binary64
