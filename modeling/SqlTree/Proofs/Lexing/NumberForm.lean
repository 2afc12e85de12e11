import Mathlib
import SqlTree.Token.Scan

/-! # The form of a number

How far a number goes is said here by the form that numbers have, as languages of characters, and
not by how they are scanned.

* `NumberForm.digits`, `fraction`, `exponent`: the parts of a number. `NumberForm.number`: digits,
  and then a fraction or none and an exponent or none. `NumberForm.floating`: one of the two at
  least.
* `NumberScan.Complete`: the parts of a number in front of a text that goes on with none of them.
* `scanNumber_of_complete`, `complete_scanNumber`: what is scanned behind a digit is these parts.
* `kind_of_digits`, `kind_of_floating`: the kinds of numbers.
-/

namespace SqlTree
set_option autoImplicit false

/-! ## Parts of a number -/

namespace NumberForm

/-- One digit or more. -/
def digits : Language Char :=
  {cs | cs ≠ [] ∧ ∀ c ∈ cs, c.isDigit = true}

/-- A point and digits. -/
def fraction : Language Char :=
  {['.']} * digits

/-- A letter E of either case, a sign or none, and digits. -/
def exponent : Language Char :=
  ({['e']} + {['E']}) * (1 + {['+']} + {['-']}) * digits

/-- Digits, and then a fraction or none and an exponent or none. -/
def number : Language Char :=
  digits * (1 + fraction) * (1 + exponent)

/-- Digits with a fraction, an exponent or both. -/
def floating : Language Char :=
  digits * (fraction + exponent + fraction * exponent)

/-- A number is digits alone, or it has a fraction or an exponent. -/
theorem number_eq : number = digits + floating := by
  simp only [number, floating, mul_add, add_mul, mul_one, mul_assoc]
  abel

end NumberForm

/-- What an exponent has between its mark and its digits. -/
def IsSigns (sign : List Char) : Prop :=
  sign = [] ∨ ∃ s, isSign s = true ∧ sign = [s]

namespace NumberForm

variable {cs : List Char}

theorem mem_digits : cs ∈ digits ↔
    ∃ d ds, d.isDigit = true ∧ (∀ c ∈ ds, c.isDigit = true) ∧ cs = d :: ds := by
  constructor
  · rintro ⟨hne, hd⟩
    obtain ⟨d, ds, rfl⟩ := List.exists_cons_of_ne_nil hne
    exact ⟨d, ds, (List.forall_mem_cons.1 hd).1, (List.forall_mem_cons.1 hd).2, rfl⟩
  · rintro ⟨d, ds, hd, hds, rfl⟩
    exact ⟨List.cons_ne_nil d ds, List.forall_mem_cons.2 ⟨hd, hds⟩⟩

theorem mem_fraction : cs ∈ fraction ↔ ∃ ds ∈ digits, cs = '.' :: ds := by
  simp only [fraction, Language.mem_mul]
  constructor
  · rintro ⟨_, rfl, ds, hd, rfl⟩
    exact ⟨ds, hd, rfl⟩
  · rintro ⟨ds, hd, rfl⟩
    exact ⟨['.'], rfl, ds, hd, rfl⟩

theorem mem_exponent : cs ∈ exponent ↔ ∃ mark sign, ∃ ds ∈ digits,
    isExponentMark mark = true ∧ IsSigns sign ∧ cs = mark :: (sign ++ ds) := by
  have hmark : ∀ m : List Char, m ∈ ({['e']} + {['E']} : Language Char) ↔
      ∃ mark, isExponentMark mark = true ∧ m = [mark] := by
    intro m
    simp only [Language.mem_add, isExponentMark, Bool.or_eq_true, beq_iff_eq]
    constructor
    · rintro (rfl | rfl)
      · exact ⟨'e', .inl rfl, rfl⟩
      · exact ⟨'E', .inr rfl, rfl⟩
    · rintro ⟨_, rfl | rfl, rfl⟩
      · exact .inl rfl
      · exact .inr rfl
  have hsign : ∀ s : List Char, s ∈ (1 + {['+']} + {['-']} : Language Char) ↔ IsSigns s := by
    intro s
    simp only [Language.mem_add, Language.mem_one, IsSigns, isSign, Bool.or_eq_true, beq_iff_eq]
    constructor
    · rintro ((rfl | rfl) | rfl)
      · exact .inl rfl
      · exact .inr ⟨'+', .inl rfl, rfl⟩
      · exact .inr ⟨'-', .inr rfl, rfl⟩
    · rintro (rfl | ⟨_, rfl | rfl, rfl⟩)
      · exact .inl (.inl rfl)
      · exact .inl (.inr rfl)
      · exact .inr rfl
  simp only [exponent, Language.mem_mul, hmark, hsign]
  constructor
  · rintro ⟨_, ⟨_, ⟨mark, hm, rfl⟩, sign, hs, rfl⟩, ds, hd, rfl⟩
    exact ⟨mark, sign, ds, hd, hm, hs, by simp⟩
  · rintro ⟨mark, sign, ds, hd, hm, hs, rfl⟩
    exact ⟨[mark] ++ sign, ⟨_, ⟨mark, hm, rfl⟩, sign, hs, rfl⟩, ds, hd, by simp⟩

theorem nil_notMem_fraction : [] ∉ fraction := fun h => by
  obtain ⟨ds, -, h⟩ := mem_fraction.1 h
  cases h

theorem nil_notMem_exponent : [] ∉ exponent := fun h => by
  obtain ⟨mark, sign, ds, -, -, -, h⟩ := mem_exponent.1 h
  cases h

theorem head?_fraction (h : cs ∈ fraction) (rest : List Char) : (cs ++ rest).head? = some '.' := by
  obtain ⟨ds, -, rfl⟩ := mem_fraction.1 h
  rfl

theorem head?_exponent (h : cs ∈ exponent) (rest : List Char) :
    ∃ mark, (cs ++ rest).head? = some mark ∧ isExponentMark mark = true := by
  obtain ⟨mark, sign, ds, -, hm, -, rfl⟩ := mem_exponent.1 h
  exact ⟨mark, rfl, hm⟩

end NumberForm

/-! ## Runs of characters -/

theorem takeWhile_append_rest {p : Char → Bool} (cs : List Char) {rest : List Char}
    (hr : ∀ c ∈ rest.head?, p c = false) :
    (cs ++ rest).takeWhile p = cs.takeWhile p ∧
      (cs ++ rest).dropWhile p = cs.dropWhile p ++ rest := by
  induction cs with
  | nil =>
    cases rest with
    | nil => simp
    | cons c rest => simp [hr c (by simp)]
  | cons c cs ih => by_cases h : p c = true <;> simp [h, ih]

theorem takeWhile_digits {digits rest : List Char} (hd : ∀ c ∈ digits, c.isDigit = true)
    (hr : ∀ c ∈ rest.head?, c.isDigit = false) :
    (digits ++ rest).takeWhile Char.isDigit = digits ∧
      (digits ++ rest).dropWhile Char.isDigit = rest := by
  obtain ⟨ht, hdrop⟩ := takeWhile_append_rest digits hr
  rw [ht, hdrop, List.takeWhile_eq_self_iff.2 hd, List.dropWhile_eq_nil_iff.2 hd]
  exact ⟨rfl, rfl⟩

theorem isDigit_head?_dropWhile (cs : List Char) :
    ∀ c ∈ (cs.dropWhile Char.isDigit).head?, c.isDigit = false := by
  intro c hc
  have hn := List.head?_dropWhile_not Char.isDigit cs
  rw [Option.mem_def.1 hc] at hn
  simpa using hn

/-! ## What is scanned -/

open NumberForm

theorem takeWhile_mem_digits {d : Char} (hd : d.isDigit = true) (ds : List Char) :
    d :: ds.takeWhile Char.isDigit ∈ digits :=
  mem_digits.2 ⟨d, _, hd, fun _ hc => List.mem_takeWhile_imp hc, rfl⟩

theorem scanFraction_point {d : Char} (hd : d.isDigit = true) (ds : List Char) :
    scanFraction ('.' :: d :: ds) =
      ('.' :: d :: ds.takeWhile Char.isDigit, ds.dropWhile Char.isDigit) := by
  simp [scanFraction, hd]

theorem scanFraction_of_mem {point rest : List Char} (hp : point ∈ fraction)
    (hr : ∀ c ∈ rest.head?, c.isDigit = false) : scanFraction (point ++ rest) = (point, rest) := by
  obtain ⟨_, hdigits, rfl⟩ := mem_fraction.1 hp
  obtain ⟨d, ds, hd, hds, rfl⟩ := mem_digits.1 hdigits
  obtain ⟨htake, hdrop⟩ := takeWhile_digits hds hr
  rw [List.cons_append, List.cons_append, scanFraction_point hd, htake, hdrop]

theorem scanFraction_of_none {cs : List Char} (h : ∀ point ∈ fraction, ¬point <+: cs) :
    scanFraction cs = ([], cs) := by
  unfold scanFraction
  split
  · next d ds =>
    split
    · next hd =>
      have hp : ['.', d] ∈ fraction :=
        mem_fraction.2 ⟨[d], mem_digits.2 ⟨d, [], hd, by simp, rfl⟩, rfl⟩
      exact absurd ⟨ds, rfl⟩ (h _ hp)
    · rfl
  · rfl

/-- A fraction is there and goes to the last of its digits, or none is there. -/
theorem scanFraction_cases (cs : List Char) :
    (scanFraction cs).1 ∈ fraction ∧ (∀ c ∈ (scanFraction cs).2.head?, c.isDigit = false) ∨
      scanFraction cs = ([], cs) ∧ ∀ point ∈ fraction, ¬point <+: cs := by
  by_cases h : ∃ point ∈ fraction, point <+: cs
  · obtain ⟨_, hp, rest, rfl⟩ := h
    obtain ⟨_, hdigits, rfl⟩ := mem_fraction.1 hp
    obtain ⟨d, ds, hd, -, rfl⟩ := mem_digits.1 hdigits
    rw [List.cons_append, List.cons_append, scanFraction_point hd]
    exact .inl ⟨mem_fraction.2 ⟨_, takeWhile_mem_digits hd _, rfl⟩, isDigit_head?_dropWhile _⟩
  · have hnone : ∀ point ∈ fraction, ¬point <+: cs := fun point hp hcs => h ⟨point, hp, hcs⟩
    exact .inr ⟨scanFraction_of_none hnone, hnone⟩

theorem scanExponent_mark {mark d : Char} {sign : List Char} (hm : isExponentMark mark = true)
    (hs : IsSigns sign) (hd : d.isDigit = true) (ds : List Char) :
    scanExponent (mark :: (sign ++ d :: ds)) =
      (mark :: (sign ++ d :: ds.takeWhile Char.isDigit), ds.dropWhile Char.isDigit) := by
  have hd' : isSign d = false := by
    by_contra hs
    simp only [isSign, Bool.not_eq_false, Bool.or_eq_true, beq_iff_eq] at hs
    rcases hs with rfl | rfl <;> simp at hd
  rcases hs with rfl | ⟨s, hs, rfl⟩
  · simp [scanExponent, hm, hd, hd']
  · simp [scanExponent, hm, hd, hs]

theorem scanExponent_of_mem {power rest : List Char} (hp : power ∈ exponent)
    (hr : ∀ c ∈ rest.head?, c.isDigit = false) : scanExponent (power ++ rest) = (power, rest) := by
  obtain ⟨mark, sign, _, hdigits, hm, hs, rfl⟩ := mem_exponent.1 hp
  obtain ⟨d, ds, hd, hds, rfl⟩ := mem_digits.1 hdigits
  obtain ⟨htake, hdrop⟩ := takeWhile_digits hds hr
  rw [List.cons_append, List.append_assoc, List.cons_append, scanExponent_mark hm hs hd, htake,
    hdrop]

theorem scanExponent_of_none {cs : List Char} (h : ∀ power ∈ exponent, ¬power <+: cs) :
    scanExponent cs = ([], cs) := by
  cases cs with
  | nil => rfl
  | cons mark cs =>
    unfold scanExponent
    dsimp only
    split
    · next hm =>
      rw [Bool.and_eq_true] at hm
      obtain ⟨hmark, hdigit⟩ := hm
      have hsign : IsSigns ((cs.take 1).filter isSign) := by
        cases cs with
        | nil => exact .inl rfl
        | cons c cs =>
          cases hc : isSign c with
          | true => exact .inr ⟨c, hc, by simp [hc]⟩
          | false => exact .inl (by simp [hc])
      have happ := take_filter_append_drop isSign cs
      generalize (cs.take 1).filter isSign = sign at hdigit hsign happ
      cases hds : cs.drop sign.length with
      | nil => simp [hds] at hdigit
      | cons d ds =>
        rw [hds] at hdigit happ
        have hd : d.isDigit = true := by simpa using hdigit
        have hp : mark :: (sign ++ [d]) ∈ exponent := mem_exponent.2
          ⟨mark, sign, [d], mem_digits.2 ⟨d, [], hd, by simp, rfl⟩, hmark, hsign, rfl⟩
        exact absurd ⟨ds, by simp [← happ]⟩ (h _ hp)
    · rfl

/-- An exponent is there and goes to the last of its digits, or none is there. -/
theorem scanExponent_cases (cs : List Char) :
    (scanExponent cs).1 ∈ exponent ∧ (∀ c ∈ (scanExponent cs).2.head?, c.isDigit = false) ∨
      scanExponent cs = ([], cs) ∧ ∀ power ∈ exponent, ¬power <+: cs := by
  by_cases h : ∃ power ∈ exponent, power <+: cs
  · obtain ⟨_, hp, rest, rfl⟩ := h
    obtain ⟨mark, sign, _, hdigits, hm, hs, rfl⟩ := mem_exponent.1 hp
    obtain ⟨d, ds, hd, -, rfl⟩ := mem_digits.1 hdigits
    rw [List.cons_append, List.append_assoc, List.cons_append, scanExponent_mark hm hs hd]
    exact .inl ⟨mem_exponent.2 ⟨mark, sign, _, takeWhile_mem_digits hd _, hm, hs, rfl⟩,
      isDigit_head?_dropWhile _⟩
  · have hnone : ∀ power ∈ exponent, ¬power <+: cs := fun power hp hcs => h ⟨power, hp, hcs⟩
    exact .inr ⟨scanExponent_of_none hnone, hnone⟩

/-- The parts of a number in front of a text that goes on with none of them. A fraction may only
come directly behind the digits, and nothing may come behind an exponent. -/
structure NumberScan.Complete (n : NumberScan) : Prop where
  whole : n.whole ∈ digits
  fraction : n.fraction ∈ 1 + NumberForm.fraction
  exponent : n.exponent ∈ 1 + NumberForm.exponent
  digit : ∀ c ∈ n.rest.head?, c.isDigit = false
  noFraction : n.fraction = [] → n.exponent = [] → ∀ point ∈ NumberForm.fraction, ¬point <+: n.rest
  noExponent : n.exponent = [] → ∀ power ∈ NumberForm.exponent, ¬power <+: n.rest

/-- The parts of a number are what is scanned. -/
theorem scanNumber_of_complete {n : NumberScan} (h : n.Complete) :
    scanNumber (n.taken ++ n.rest) = n := by
  obtain ⟨whole, point, power, rest⟩ := n
  obtain ⟨hwhole, hpoint, hpower, hdigit, hnoFraction, hnoExponent⟩ := h
  dsimp only at *
  have hexponent : scanExponent (power ++ rest) = (power, rest) := by
    rcases hpower with rfl | hpower
    · exact scanExponent_of_none (hnoExponent rfl)
    · exact scanExponent_of_mem hpower hdigit
  -- Behind the fraction stand the mark of an exponent or, without one, the rest itself.
  have hbehind : ∀ c ∈ (power ++ rest).head?, c.isDigit = false := by
    rcases hpower with rfl | hpower
    · exact hdigit
    · obtain ⟨mark, hhead, hm⟩ := head?_exponent hpower rest
      rw [hhead]
      rintro _ ⟨rfl⟩
      simp only [isExponentMark, Bool.or_eq_true, beq_iff_eq] at hm
      rcases hm with rfl | rfl <;> decide
  have hfraction : scanFraction (point ++ (power ++ rest)) = (point, power ++ rest) := by
    rcases hpoint with rfl | hpoint
    · refine scanFraction_of_none fun point hp => ?_
      rcases hpower with rfl | hpower
      · exact hnoFraction rfl rfl point hp
      · rintro ⟨tail, hcs⟩
        obtain ⟨mark, hhead, hm⟩ := head?_exponent hpower rest
        rw [← List.nil_append (power ++ rest), ← hcs, head?_fraction hp] at hhead
        obtain rfl := Option.some.inj hhead
        simp [isExponentMark] at hm
    · exact scanFraction_of_mem hpoint hbehind
  have hhead : ∀ c ∈ (point ++ (power ++ rest)).head?, c.isDigit = false := by
    rcases hpoint with rfl | hpoint
    · exact hbehind
    · rw [head?_fraction hpoint]
      rintro _ ⟨rfl⟩
      decide
  obtain ⟨htake, hdrop⟩ := takeWhile_digits hwhole.2 hhead
  simp only [scanNumber, NumberScan.taken, List.append_assoc, htake, hdrop, hfraction, hexponent]

/-- What is scanned behind a digit is the parts of a number. -/
theorem complete_scanNumber {c : Char} (hc : c.isDigit = true) (cs : List Char) :
    (scanNumber (c :: cs)).Complete := by
  have hwhole : (scanNumber (c :: cs)).whole ∈ digits := by
    rw [scanNumber, List.takeWhile_cons, if_pos hc]
    exact takeWhile_mem_digits hc cs
  have hbehind := isDigit_head?_dropWhile (c :: cs)
  unfold scanNumber at hwhole ⊢
  generalize (c :: cs).dropWhile Char.isDigit = behind at hbehind hwhole ⊢
  dsimp only at hwhole ⊢
  obtain ⟨hpoint, hdigit, hnoFraction⟩ : (scanFraction behind).1 ∈ 1 + fraction ∧
      (∀ c ∈ (scanFraction behind).2.head?, c.isDigit = false) ∧
      ((scanFraction behind).1 = [] → ∀ point ∈ fraction, ¬point <+: (scanFraction behind).2) := by
    rcases scanFraction_cases behind with ⟨hp, hd⟩ | ⟨hp, hnone⟩
    · exact ⟨.inr hp, hd, fun hn => absurd (hn ▸ hp) nil_notMem_fraction⟩
    · rw [hp]
      exact ⟨.inl rfl, hbehind, fun _ => hnone⟩
  rcases scanExponent_cases (scanFraction behind).2 with ⟨he, hd⟩ | ⟨he, hnone⟩
  · have hne : (scanExponent (scanFraction behind).2).1 ≠ [] := fun hn =>
      nil_notMem_exponent (hn ▸ he)
    exact ⟨hwhole, hpoint, .inr he, hd, fun _ hn => absurd hn hne, fun hn => absurd hn hne⟩
  · rw [he]
    exact ⟨hwhole, hpoint, .inl rfl, hdigit, fun hn _ => hnoFraction hn, fun _ => hnone⟩

/-! ## Numbers by themselves -/

theorem scanNumber_of_parts {whole point power : List Char} (hw : whole ∈ digits)
    (hp : point ∈ 1 + fraction) (he : power ∈ 1 + exponent) :
    scanNumber (whole ++ (point ++ power)) = ⟨whole, point, power, []⟩ := by
  have hcomplete : NumberScan.Complete ⟨whole, point, power, []⟩ := by
    refine ⟨hw, hp, he, by simp, fun _ _ point hp hn => ?_, fun _ power he hn => ?_⟩
    · exact nil_notMem_fraction (List.prefix_nil.1 hn ▸ hp)
    · exact nil_notMem_exponent (List.prefix_nil.1 hn ▸ he)
  have hscan := scanNumber_of_complete hcomplete
  rwa [NumberScan.taken, List.append_nil, List.append_assoc] at hscan

theorem rest_scanNumber {cs : List Char} (h : cs ∈ number) : (scanNumber cs).rest = [] := by
  obtain ⟨_, hwp, power, he, rfl⟩ := Language.mem_mul.1 h
  obtain ⟨whole, hw, point, hp, rfl⟩ := Language.mem_mul.1 hwp
  rw [List.append_assoc, scanNumber_of_parts hw hp he]

theorem kind_of_digits {cs : List Char} (h : cs ∈ digits) :
    (scanNumber cs).kind = .integer (String.ofList cs) := by
  have hscan := scanNumber_of_parts h (.inl rfl) (.inl rfl)
  rw [List.append_nil, List.append_nil] at hscan
  simp [hscan, NumberScan.kind, NumberScan.taken]

theorem kind_of_floating {cs : List Char} (h : cs ∈ floating) :
    (scanNumber cs).kind = .float (String.ofList cs) := by
  obtain ⟨whole, hw, marked, hm, rfl⟩ := Language.mem_mul.1 h
  obtain ⟨point, power, hp, he, hne, rfl⟩ : ∃ point power, point ∈ 1 + fraction ∧
      power ∈ 1 + exponent ∧ (point ≠ [] ∨ power ≠ []) ∧ marked = point ++ power := by
    have hpoint : ∀ {point}, point ∈ fraction → point ≠ [] := fun hp hn =>
      nil_notMem_fraction (hn ▸ hp)
    rcases hm with (hp | he) | hb
    · exact ⟨marked, [], .inr hp, .inl rfl, .inl (hpoint hp), (List.append_nil _).symm⟩
    · exact ⟨[], marked, .inl rfl, .inr he, .inr fun hn => nil_notMem_exponent (hn ▸ he), rfl⟩
    · obtain ⟨point, hp, power, he, rfl⟩ := Language.mem_mul.1 hb
      exact ⟨point, power, .inr hp, .inr he, .inl (hpoint hp), rfl⟩
  have hmarked : (point.isEmpty && power.isEmpty) = false := by
    rcases hne with hne | hne <;> simp [hne]
  rw [scanNumber_of_parts hw hp he]
  simp only [NumberScan.kind, NumberScan.taken, hmarked, Bool.false_eq_true, if_false,
    List.append_assoc]

/-- A number is an integer exactly if it is digits alone, and a floating-point number exactly if it
has a fraction or an exponent. -/
theorem kind_iff_of_number {cs : List Char} (h : cs ∈ number) :
    ((scanNumber cs).kind = .integer (String.ofList cs) ↔ cs ∈ digits) ∧
      ((scanNumber cs).kind = .float (String.ofList cs) ↔ cs ∈ floating) := by
  rw [number_eq] at h
  rcases h with hd | hf
  · have hinteger := kind_of_digits hd
    refine ⟨⟨fun _ => hd, fun _ => hinteger⟩, fun hfloat => ?_, kind_of_floating⟩
    simp [hinteger] at hfloat
  · have hfloat := kind_of_floating hf
    refine ⟨⟨fun hinteger => ?_, kind_of_digits⟩, fun _ => hf, fun _ => hfloat⟩
    simp [hfloat] at hinteger

end SqlTree
