import Mathlib
import SqlTree.Number.FloatText

/-! # The nearest floating-point number

* `floorLog2_eq_log`, `roundEven_mul`: both parts of rounding are told by the quotient alone, so
  `magnitude_congr`: equal quotients have the same nearest magnitude.
* `magnitude_exact`: the magnitude nearest to a number that stands for a magnitude is this one.
* `nearestDecimal_shift`: zeros at the end of the digits can be moved into the exponent.
* `nearestDecimal_exact`: all digits of a floating-point number are nearest to it.
* `eq_of_parts_finite`: what a finite pattern is put together from.
-/

namespace SqlTree.Binary64
set_option autoImplicit false

/-! ## Logarithms -/

theorem log_eq {r : ℚ} (hr : 0 < r) {e : Int} (hlow : (2 : ℚ) ^ e ≤ r) (hhigh : r < 2 ^ (e + 1)) :
    Int.log 2 r = e := by
  have h1 := (Int.zpow_le_iff_le_log (b := 2) one_lt_two hr).1 (by exact_mod_cast hlow)
  have h2 := (Int.lt_zpow_iff_log_lt (b := 2) one_lt_two hr).1 (by exact_mod_cast hhigh)
  omega

theorem zpow_eq_div {b : ℚ} (hb : b ≠ 0) (e : Int) : b ^ e = b ^ e.toNat / b ^ (-e).toNat := by
  have he : e = (e.toNat : Int) - ((-e).toNat : Int) := by omega
  conv_lhs => rw [he]
  rw [zpow_sub₀ hb, zpow_natCast, zpow_natCast]

/-! ## Quotients -/

section Quotients

variable {num den : Nat}

theorem floorLog2_eq_log (hn : num ≠ 0) (hd : den ≠ 0) :
    floorLog2 num den = Int.log 2 (num / den : ℚ) := by
  have hnum : (0 : ℚ) < num := by exact_mod_cast Nat.pos_of_ne_zero hn
  have hden : (0 : ℚ) < den := by exact_mod_cast Nat.pos_of_ne_zero hd
  have hquot : (0 : ℚ) < num / den := div_pos hnum hden
  have hnlow : (2 : ℚ) ^ (num.log2 : Int) ≤ num := by exact_mod_cast Nat.log2_self_le hn
  have hnhigh : (num : ℚ) < 2 ^ ((num.log2 : Int) + 1) := by
    exact_mod_cast Nat.lt_log2_self (n := num)
  have hdlow : (2 : ℚ) ^ (den.log2 : Int) ≤ den := by exact_mod_cast Nat.log2_self_le hd
  have hdhigh : (den : ℚ) < 2 ^ ((den.log2 : Int) + 1) := by
    exact_mod_cast Nat.lt_log2_self (n := den)
  -- The lengths in bits leave two candidates, `e` and the one below it.
  set e : Int := (num.log2 : Int) - (den.log2 : Int) with he
  have hlow : (2 : ℚ) ^ (e - 1) ≤ num / den := by
    rw [le_div_iff₀ hden]
    calc (2 : ℚ) ^ (e - 1) * den ≤ 2 ^ (e - 1) * 2 ^ ((den.log2 : Int) + 1) := by gcongr
      _ = 2 ^ (num.log2 : Int) := by rw [← zpow_add₀ two_ne_zero]; congr 1; omega
      _ ≤ num := hnlow
  have hhigh : (num / den : ℚ) < 2 ^ (e + 1) := by
    rw [div_lt_iff₀ hden]
    calc (num : ℚ) < 2 ^ ((num.log2 : Int) + 1) := hnhigh
      _ = 2 ^ (e + 1) * 2 ^ (den.log2 : Int) := by rw [← zpow_add₀ two_ne_zero]; congr 1; omega
      _ ≤ 2 ^ (e + 1) * den := by gcongr
  have htest : den * Nat.pow 2 e.toNat ≤ num * Nat.pow 2 (-e).toNat ↔ (2 : ℚ) ^ e ≤ num / den := by
    rw [zpow_eq_div two_ne_zero, div_le_div_iff₀ (by positivity) hden, Nat.pow_eq, Nat.pow_eq,
      mul_comm den]
    exact_mod_cast Iff.rfl
  unfold floorLog2
  dsimp only
  rw [← he]
  split
  · next h => exact (log_eq hquot (htest.1 h) hhigh).symm
  · next h =>
    have hbelow : (num / den : ℚ) < 2 ^ (e - 1 + 1) := by
      rw [sub_add_cancel]
      exact not_le.1 fun hle => h (htest.2 hle)
    exact (log_eq hquot hlow hbelow).symm

theorem roundEven_mul {k : Nat} (hk : 0 < k) (num den : Nat) :
    roundEven (k * num) (k * den) = roundEven num den := by
  unfold roundEven
  have hgt : 2 * (k * (num % den)) > k * den ↔ 2 * (num % den) > den := by
    rw [gt_iff_lt, mul_left_comm, Nat.mul_lt_mul_left hk]
  have heq : 2 * (k * (num % den)) = k * den ↔ 2 * (num % den) = den := by
    rw [mul_left_comm, Nat.mul_right_inj hk.ne']
  simp only [Nat.mul_div_mul_left _ _ hk, Nat.mul_mod_mul_left, hgt, heq]

theorem roundEven_exact {den : Nat} (hd : 0 < den) (n : Nat) : roundEven (n * den) den = n := by
  have h : ¬(2 * 0 > den ∨ 2 * 0 = den ∧ n % 2 = 1) := by omega
  simp only [roundEven, Nat.mul_div_cancel _ hd, Nat.mul_mod_left, if_neg h]

theorem magnitude_mul {k : Nat} (hk : 0 < k) (hd : 0 < den) :
    magnitude (k * num) (k * den) = magnitude num den := by
  rcases Nat.eq_zero_or_pos num with rfl | hn
  · simp only [magnitude, mul_zero, if_true]
  have hlog : floorLog2 (k * num) (k * den) = floorLog2 num den := by
    rw [floorLog2_eq_log (by positivity) (by positivity), floorLog2_eq_log hn.ne' hd.ne']
    push_cast
    rw [mul_div_mul_left _ _ (by positivity)]
  unfold magnitude
  rw [if_neg (by positivity), if_neg hn.ne', hlog]
  simp only [mul_assoc, roundEven_mul hk]

theorem magnitude_congr {num' den' : Nat} (hd : 0 < den) (hd' : 0 < den')
    (h : num * den' = num' * den) : magnitude num den = magnitude num' den' := by
  calc magnitude num den = magnitude (den' * num) (den' * den) := (magnitude_mul hd' hd).symm
    _ = magnitude (den * num') (den * den') := by rw [mul_comm den', h, mul_comm num', mul_comm den']
    _ = magnitude num' den' := magnitude_mul hd hd'

end Quotients

/-! ## Numbers that are magnitudes -/

/-- The significands and exponents of finite magnitudes. -/
structure InRange (significand : Nat) (exponent : Int) : Prop where
  significand_lt : significand < 2 ^ 53
  exponent_ge : -1074 ≤ exponent
  exponent_le : exponent ≤ 971
  normal : 2 ^ 52 ≤ significand ∨ exponent = -1074

/-- The magnitude with this significand and exponent. -/
def pattern (significand : Nat) (exponent : Int) : Nat :=
  (exponent + 1074).toNat * 2 ^ 52 + significand

variable {s : Nat} {q : Int}

theorem InRange.pattern_lt (h : InRange s q) : pattern s q < infinity := by
  obtain ⟨hs, hlow, hhigh, -⟩ := h
  have hinfinity : infinity = 2047 * 2 ^ 52 := rfl
  rw [hinfinity, pattern]
  omega

theorem magnitude_exact (h : InRange s q) :
    magnitude (s * 2 ^ q.toNat) (2 ^ (-q).toNat) = pattern s q := by
  obtain ⟨hs, hlow, hhigh, hnormal⟩ := id h
  rcases Nat.eq_zero_or_pos s with rfl | hpos
  · obtain rfl : q = -1074 := hnormal.resolve_left (by norm_num)
    simp only [magnitude, zero_mul, if_true, pattern]
    rfl
  have hs0 : (0 : ℚ) < s := by exact_mod_cast hpos
  have hquot : ((s * 2 ^ q.toNat : Nat) / (2 ^ (-q).toNat : Nat) : ℚ) = s * 2 ^ q := by
    push_cast
    rw [zpow_eq_div two_ne_zero, mul_div_assoc]
  -- The unit of the number is its exponent, for a normal number and for one below all of them.
  have hunit : max (floorLog2 (s * 2 ^ q.toNat) (2 ^ (-q).toNat) - 52) (-1074) = q := by
    rw [floorLog2_eq_log (by positivity) (by positivity), hquot]
    have hbelow : Int.log 2 (s * 2 ^ q : ℚ) < 53 + q := by
      rw [← Int.lt_zpow_iff_log_lt one_lt_two (by positivity)]
      push_cast
      rw [zpow_add₀ two_ne_zero]
      have : (s : ℚ) < 2 ^ (53 : Int) := by exact_mod_cast hs
      gcongr
    have habove : 2 ^ 52 ≤ s → 52 + q ≤ Int.log 2 (s * 2 ^ q : ℚ) := fun hn => by
      rw [← Int.zpow_le_iff_le_log one_lt_two (by positivity)]
      push_cast
      rw [zpow_add₀ two_ne_zero]
      have : (2 : ℚ) ^ (52 : Int) ≤ s := by exact_mod_cast hn
      gcongr
    rcases hnormal with hn | rfl
    · have := habove hn
      omega
    · omega
  have hexact : roundEven (s * 2 ^ q.toNat * Nat.pow 2 (-q).toNat)
      (2 ^ (-q).toNat * Nat.pow 2 q.toNat) = s := by
    rw [Nat.pow_eq, Nat.pow_eq, mul_assoc, mul_comm (2 ^ (-q).toNat)]
    exact roundEven_exact (by positivity) s
  unfold magnitude
  rw [if_neg (by positivity)]
  dsimp only
  rw [hunit, hexact]
  exact min_eq_right h.pattern_lt.le

/-! ## Decimals -/

theorem lt_pow_digitCount (n : Nat) : n < 10 ^ digitCount n := by
  fun_induction digitCount n with
  | case1 => simp
  | case2 n hn ih =>
    rw [pow_succ]
    omega

theorem pow_digitCount_le {n : Nat} (h : n ≠ 0) : 10 ^ digitCount n ≤ 10 * n := by
  fun_induction digitCount n with
  | case1 => exact absurd rfl h
  | case2 n hn ih =>
    rw [pow_succ]
    by_cases hq : n / 10 = 0
    · rw [hq, digitCount, if_pos rfl]
      omega
    · have := ih hq
      omega

theorem digitCount_mul_pow {n : Nat} (h : n ≠ 0) (k : Nat) :
    digitCount (n * 10 ^ k) = digitCount n + k := by
  induction k with
  | zero => simp
  | succ k ih =>
    have hne : n * 10 ^ (k + 1) ≠ 0 := by positivity
    rw [digitCount, if_neg hne, pow_succ, ← mul_assoc, Nat.mul_div_cancel _ (by norm_num), ih,
      add_assoc]

theorem nearestDecimal_shift (digits k : Nat) (exponent : Int) :
    nearestDecimal (digits * 10 ^ k) (exponent - k) = nearestDecimal digits exponent := by
  rcases Nat.eq_zero_or_pos digits with rfl | hd
  · simp [nearestDecimal]
  have htop : ((digitCount (digits * 10 ^ k) : Nat) : Int) + (exponent - k) =
      digitCount digits + exponent := by
    rw [digitCount_mul_pow hd.ne']
    push_cast
    ring
  have hmagnitude : magnitude (digits * 10 ^ k * Nat.pow 10 (exponent - k).toNat)
      (Nat.pow 10 (-(exponent - k)).toNat) =
        magnitude (digits * Nat.pow 10 exponent.toNat) (Nat.pow 10 (-exponent).toNat) := by
    simp only [Nat.pow_eq]
    refine magnitude_congr (by positivity) (by positivity) ?_
    simp only [mul_assoc, ← pow_add]
    congr 2
    omega
  unfold nearestDecimal
  have hne : digits * 10 ^ k ≠ 0 := by positivity
  simp only [htop, hmagnitude, hne, hd.ne', false_or]

theorem two_pow_lt_ten_pow {n : Nat} (h : n ≤ 1074) : 2 ^ n < 10 ^ 331 := by
  -- The exponent is hidden behind a name, so that the power is computed once and by the kernel.
  obtain ⟨last, hl⟩ : ∃ last, last = 1074 := ⟨_, rfl⟩
  have hlast : 2 ^ last < 10 ^ 331 := by
    rw [hl]
    decide +kernel
  exact (Nat.pow_le_pow_right (by norm_num) (hl ▸ h)).trans_lt hlast

theorem five_pow_mul (p : Nat) : 5 ^ p * 2 ^ p = 10 ^ p :=
  (mul_pow 5 2 p).symm

/-- The digits of a finite number reach neither bound beyond which a decimal is not looked at. -/
theorem digitCount_exact (h : InRange s q) (hs : 0 < s) :
    (-q).toNat < digitCount (s * 2 ^ q.toNat * 5 ^ (-q).toNat) + 331 ∧
      digitCount (s * 2 ^ q.toNat * 5 ^ (-q).toNat) < (-q).toNat + 331 := by
  obtain ⟨hlt, hlow, hhigh, -⟩ := h
  obtain ⟨hp, hr⟩ : (-q).toNat ≤ 1074 ∧ q.toNat ≤ 971 := by omega
  generalize (-q).toNat = p at hp ⊢
  generalize q.toNat = r at hr ⊢
  set digits := s * 2 ^ r * 5 ^ p with hdigits
  -- The digits are those of the number with `p` of them behind the point.
  have hten : digits * 2 ^ p = s * 2 ^ r * 10 ^ p := by
    rw [hdigits, mul_assoc, five_pow_mul]
  constructor
  · refine (Nat.pow_lt_pow_iff_right (a := 10) (by norm_num)).1 ?_
    calc 10 ^ p ≤ s * 2 ^ r * 10 ^ p := Nat.le_mul_of_pos_left _ (by positivity)
      _ = digits * 2 ^ p := hten.symm
      _ < 10 ^ digitCount digits * 2 ^ p :=
        Nat.mul_lt_mul_of_pos_right (lt_pow_digitCount digits) (by positivity)
      _ ≤ 10 ^ digitCount digits * 10 ^ 331 := Nat.mul_le_mul_left _ (two_pow_lt_ten_pow hp).le
      _ = 10 ^ (digitCount digits + 331) := (pow_add _ _ _).symm
  · have hvalue : 10 * (s * 2 ^ r) < 10 ^ 331 := by
      calc 10 * (s * 2 ^ r) < 2 ^ 4 * (2 ^ 53 * 2 ^ r) := by gcongr; norm_num
        _ = 2 ^ (57 + r) := by rw [← pow_add, ← pow_add, ← add_assoc]
        _ < 10 ^ 331 := two_pow_lt_ten_pow (by omega)
    refine (Nat.pow_lt_pow_iff_right (a := 10) (by norm_num)).1 ?_
    calc 10 ^ digitCount digits ≤ 10 * digits := pow_digitCount_le (by positivity)
      _ ≤ 10 * (digits * 2 ^ p) := Nat.mul_le_mul_left _ (Nat.le_mul_of_pos_right _ (by positivity))
      _ = 10 * (s * 2 ^ r) * 10 ^ p := by rw [hten, mul_assoc 10]
      _ < 10 ^ 331 * 10 ^ p := Nat.mul_lt_mul_of_pos_right hvalue (by positivity)
      _ = 10 ^ (p + 331) := by rw [← pow_add, add_comm]

theorem nearestDecimal_exact (h : InRange s q) :
    nearestDecimal (s * 2 ^ q.toNat * 5 ^ (-q).toNat) (-((-q).toNat : Int)) = pattern s q := by
  rw [← magnitude_exact h]
  rcases Nat.eq_zero_or_pos s with rfl | hs
  · simp [nearestDecimal, magnitude]
  obtain ⟨hlow, hhigh⟩ := digitCount_exact h hs
  have hne : s * 2 ^ q.toNat * 5 ^ (-q).toNat ≠ 0 := by positivity
  have hexponent : (-((-q).toNat : Int)).toNat = 0 := by omega
  generalize hdigits : s * 2 ^ q.toNat * 5 ^ (-q).toNat = digits at hlow hhigh hne ⊢
  unfold nearestDecimal
  dsimp only
  rw [if_neg (by omega), if_neg (by omega), neg_neg, Int.toNat_natCast, hexponent]
  simp only [Nat.pow_eq, pow_zero, mul_one]
  refine magnitude_congr (by positivity) (by positivity) ?_
  rw [← hdigits, mul_assoc, five_pow_mul]

/-! ## Patterns -/

/-- Whether a pattern stands for a number. -/
def isFinite (x : Binary64) : Bool :=
  match x.parts with
  | .finite .. => true
  | _ => false

/-- The number with the other sign. -/
def opposite (x : Binary64) : Binary64 :=
  ⟨x.bits + UInt64.ofNat (Nat.pow 2 63)⟩

theorem isFinite_iff {x : Binary64} :
    x.isFinite = true ↔ ∃ negative s q, x.parts = .finite negative s q := by
  unfold isFinite
  cases x.parts <;> simp

theorem opposite_ofMagnitude (negative : Bool) (m : Nat) :
    (ofMagnitude negative m).opposite = ofMagnitude (!negative) m := by
  unfold opposite ofMagnitude
  rw [← UInt64.ofNat_add, mk.injEq, ← UInt64.toNat_inj]
  simp only [UInt64.toNat_ofNat', Nat.pow_eq]
  cases negative <;> simp <;> omega

theorem ofMagnitude_eq {x : Binary64} {negative : Bool} {m : Nat}
    (h : x.bits.toNat = (if negative then 2 ^ 63 else 0) + m) : x = ofMagnitude negative m := by
  obtain ⟨bits⟩ := x
  rw [ofMagnitude, Nat.pow_eq, ← h, UInt64.ofNat_toNat]

theorem eq_of_parts_finite {x : Binary64} {negative : Bool} (h : x.parts = .finite negative s q) :
    InRange s q ∧ x = ofMagnitude negative (pattern s q) := by
  have hn := x.bits.toNat_lt
  unfold parts at h
  simp only [Nat.pow_eq] at h
  generalize hx : x.bits.toNat = n at h hn
  have hsign : (if (n / 2 ^ 63 == 1) = true then 2 ^ 63 else 0) = n / 2 ^ 63 * 2 ^ 63 := by
    split
    · next h1 => rw [beq_iff_eq.1 h1, one_mul]
    · next h1 =>
      rw [beq_iff_eq] at h1
      omega
  split at h
  · split at h <;> cases h
  · split at h
    · next hfield hzero =>
      rw [Parts.finite.injEq] at h
      obtain ⟨rfl, rfl, rfl⟩ := h
      refine ⟨⟨by omega, le_rfl, by norm_num, .inr rfl⟩, ofMagnitude_eq ?_⟩
      rw [hx, hsign, pattern]
      omega
    · next hfield hzero =>
      rw [Parts.finite.injEq] at h
      obtain ⟨rfl, rfl, rfl⟩ := h
      refine ⟨⟨by omega, by omega, by omega, .inl (by omega)⟩, ofMagnitude_eq ?_⟩
      rw [hx, hsign, pattern]
      omega

end SqlTree.Binary64
