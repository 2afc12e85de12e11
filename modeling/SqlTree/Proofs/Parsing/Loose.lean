import Mathlib
import SqlTree.Proofs.Lexing.Lexeme
import SqlTree.Proofs.Tree.Written

/-! # Loose characters in written pieces

* `Layout.loose`: the loose characters in a written form.
* `Keyword.loose`: those of a keyword.
* `Layout.loose_commas`, `Layout.loose_parens` and the like: what each arrangement adds.
-/

namespace SqlTree
set_option autoImplicit false

/-- The loose characters in the text of a layout. -/
def Layout.loose (l : Layout) : Nat :=
  looseCount l.chars.toList

/-- The loose characters of a keyword. -/
@[simp]
def Keyword.loose : Keyword → Nat
  | .GROUP | .PIVOT | .UNPIVOT | .EXCEPT | .UPDATE | .DROP | .PRIMARY | .TEMPORARY | .TEMP
  | .TIMESTAMP | .REPLACE | .TYPE => 1
  | _ => 0

theorem Keyword.looseCount_text (k : Keyword) : looseCount k.text.toList = k.loose := by
  have h : ∀ k ∈ Keyword.all, looseCount k.text.toList = k.loose := by decide +kernel
  exact h k (Keyword.mem_all k)

/-- A token for a keyword has as many loose characters as the keyword. -/
theorem looseCount_ofWord? {dq : Bool} {word : String} {k : Keyword}
    (h : TokenKind.ofWord? dq word = some (.keyword k)) : looseCount word.toList = k.loose :=
  (looseCount_keyword h).trans k.looseCount_text

namespace Layout

@[simp]
theorem loose_nil : loose [] = 0 := rfl

theorem loose_cons (p : Piece) (l : Layout) :
    loose (p :: l) = looseCount p.text.toList + loose l := by
  simp [loose, chars_toList]

@[simp]
theorem loose_append (l₁ l₂ : Layout) : loose (l₁ ++ l₂) = loose l₁ + loose l₂ := by
  simp [loose, chars_toList]

/-! ## Single pieces -/

@[simp]
theorem loose_keyword_cons (k : Keyword) (l : Layout) :
    loose (.keyword k :: l) = k.loose + loose l := by
  rw [loose_cons, Piece.text, k.looseCount_text]

@[simp]
theorem loose_symbol_cons (s : Symbol) (l : Layout) : loose (.symbol s :: l) = loose l := by
  have h : looseCount s.text.toList = 0 := by cases s <;> decide
  rw [loose_cons, Piece.text, h, Nat.zero_add]

@[simp]
theorem loose_closingAngle_cons (l : Layout) : loose (.closingAngle :: l) = loose l :=
  loose_cons _ l |>.trans (Nat.zero_add _)

@[simp]
theorem loose_gap_cons (l : Layout) : loose (.gap :: l) = loose l :=
  loose_cons _ l |>.trans (Nat.zero_add _)

@[simp]
theorem loose_question_cons (n : Nat) (l : Layout) : loose (.question n :: l) = loose l := by
  have h : looseCount Symbol.question.text.toList = 0 := by decide
  rw [loose_cons, Piece.text, h, Nat.zero_add]

@[simp]
theorem loose_word_cons (w : String) (l : Layout) :
    loose (.word w :: l) = looseCount w.toList + loose l :=
  loose_cons _ l

/-! ## Arrangements -/

theorem loose_sepBy {separator : Layout} (hs : separator.loose = 0) (ls : List Layout) :
    loose (sepBy separator ls) = (ls.map loose).sum := by
  induction ls with
  | nil => rfl
  | cons l ls ih =>
    cases ls with
    | nil => simp [sepBy]
    | cons m ls =>
      rw [sepBy, loose_append, loose_append, ih, hs]
      · simp
      · simp

@[simp]
theorem loose_commas (ls : List Layout) : loose (commas ls) = (ls.map loose).sum :=
  loose_sepBy (by simp) ls

@[simp]
theorem loose_tightCommas (ls : List Layout) : loose (tightCommas ls) = (ls.map loose).sum :=
  loose_sepBy (by simp) ls

@[simp]
theorem loose_parens (l : Layout) : loose (parens l) = loose l := by
  simp [parens]

@[simp]
theorem loose_parensIf (wrap : Bool) (l : Layout) : loose (parensIf wrap l) = loose l := by
  cases wrap <;> simp [parensIf]

@[simp]
theorem loose_onlyIf (condition : Bool) (l : Layout) :
    loose (onlyIf condition l) = if condition then loose l else 0 := by
  cases condition <;> rfl

@[simp]
theorem loose_optional {α : Type} (lay : α → Layout) (a? : Option α) :
    loose (optional lay a?) = a?.elim 0 fun a => loose (lay a) := by
  cases a? <;> rfl

@[simp]
theorem loose_keywords (ks : List Keyword) : loose (keywords ks) = (ks.map Keyword.loose).sum := by
  fun_induction keywords ks with
  | case1 => rfl
  | case2 k => simp
  | case3 k ks _ ih => simp [ih]

@[simp]
theorem loose_behind (words : List Keyword) (l : Layout) :
    loose (behind words l) = (words.map Keyword.loose).sum + loose l := by
  simp [behind]

end Layout

@[simp]
theorem Ident.loose_layout (i : Ident) : i.layout.loose = looseCount i.text.toList := by
  simp [Ident.layout]

theorem ObjectName.loose_layout (n : ObjectName) :
    n.layout.loose = (n.parts.map fun i => i.layout.loose).sum := by
  rw [ObjectName.layout, Layout.loose_sepBy (by simp), List.map_map]
  rfl

/-! ## Constants -/

theorem looseCount_decimal (n : Nat) : looseCount (Decimal.text n).toList = 0 := by
  have hdigit : ∀ m < 10, isLoose (Decimal.digit m) = false := by decide
  have h : ∀ n, looseCount (Decimal.write n) = 0 := by
    intro n
    fun_induction Decimal.write n with
    | case1 n h => simp [looseCount, hdigit n h]
    | case2 n h ih =>
      have hlast : looseCount [Decimal.digit (n % 10)] = 0 := by
        simp [looseCount, hdigit _ (Nat.mod_lt n (by decide))]
      rw [looseCount_append, ih, hlast]
  rw [Decimal.text, String.toList_ofList, h]

/-- The quotes of a string are not loose, so doubling them adds nothing. -/
theorem looseCount_enclose (content : String) :
    looseCount (Text.Quoted.enclose '\'' '\'' content).toList = looseCount content.toList := by
  have hdouble : ∀ cs : List Char, looseCount (Text.Quoted.double '\'' cs) = looseCount cs := by
    intro cs
    induction cs with
    | nil => rfl
    | cons c cs ih =>
      unfold looseCount at ih ⊢
      by_cases hc : c = '\''
      · subst hc
        have hq : isLoose '\'' = false := rfl
        simp [Text.Quoted.double, hq, ih]
      · simp [Text.Quoted.double, hc, List.countP_cons, ih]
  have hquote : looseCount ['\''] = 0 := rfl
  rw [Text.Quoted.enclose, String.toList_ofList, looseCount_append, ← List.singleton_append,
    looseCount_append, hdouble, hquote, Nat.zero_add, Nat.add_zero]

/-- No digit of a byte is loose. -/
theorem looseCount_ofBytes (bytes : List UInt8) :
    looseCount (Text.Hexadecimal.ofBytes bytes) = 0 := by
  have hdigit : ∀ n < 16, isLoose (Text.Hexadecimal.digit n) = false := by decide
  induction bytes with
  | nil => rfl
  | cons b bytes ih =>
    have hhigh := hdigit (b.toNat / 16) (by have := b.toNat_lt; omega)
    have hlow := hdigit (b.toNat % 16) (Nat.mod_lt _ (by decide))
    have hb : looseCount [Text.Hexadecimal.digit (b.toNat / 16),
        Text.Hexadecimal.digit (b.toNat % 16)] = 0 := by
      simp [looseCount, hhigh, hlow]
    rw [Text.Hexadecimal.ofBytes, List.flatMap_cons, looseCount_append, hb, Nat.zero_add]
    exact ih

end SqlTree
