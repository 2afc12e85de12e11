import Mathlib
import SqlTree.Build.Expr
import SqlTree.Proofs.Number.Shortest
import SqlTree.Proofs.Text.ReadBack
import SqlTree.Query.LiteralValue

/-! # Constants and their texts

* `Expr.Says`: an expression is a constant of the kind and value of a scalar, or a minus in front of
  the constant for the opposite number. `Literal.int64?_of_says`, `Literal.double?_of_says`: the
  number of such a constant.
* `Expr.IsReadAs`: what the text of an expression is read as, if not as the expression itself.
* `Expr.isReadAs_int`, `Expr.isReadAs_finite`, `Expr.isReadAs_notFinite`: the constants that are not
  always read as themselves. A sign is no part of a constant, and infinities are no constants.
* `says_iff_isFinite`: the constant for a scalar is read as an expression that says it, unless it is a
  floating-point number that is not finite.
* `infinity_isReadAs_column`: such a number.
-/

namespace SqlTree
set_option autoImplicit false

open Layout Parse

/-! ## Values -/

/-- Every scalar but the floating-point numbers that are not finite. -/
def Scalar.isFinite : Option Scalar → Bool
  | some (.double x) => x.isFinite
  | _ => true

/-- A constant of the kind and value of a scalar, or the one for no value. -/
def Literal.Says : Literal → Option Scalar → Prop
  | .null, none => True
  | .boolean value, some (.truth b) => value = b
  | .integer digits, some (.signed n) => Decimal.readInt? digits.toList = some n.toInt
  | .integer digits, some (.unsigned n) => Decimal.readInt? digits.toList = some (n.toNat : Int)
  | .float digits, some (.double x) => Binary64.read? digits.toList = some x
  | .string content, some (.text s) => content = s
  | .blob content, some (.bytes b) => content = b
  | _, _ => False

theorem Literal.int64?_of_says {l : Literal} {n : Int64} (h : l.Says (some (.signed n))) :
    l.int64? = some n.toInt := by
  cases l with
  | integer digits => exact readInt64?_eq_some_iff.2 ⟨h, n.le_toInt, n.toInt_lt⟩
  | _ => exact h.elim

theorem Literal.double?_of_says {l : Literal} {x : Binary64} (h : l.Says (some (.double x))) :
    l.double? = some x := by
  cases l with
  | float digits => exact h
  | _ => exact h.elim

/-- A constant of the kind of a number and of the opposite value. -/
def Literal.SaysOpposite : Literal → Option Scalar → Prop
  | .integer digits, some (.signed n) => Decimal.readInt? digits.toList = some (-n.toInt)
  | .float digits, some (.double x) => Binary64.read? digits.toList = some x.opposite
  | _, _ => False

/-- A constant for a scalar, or a minus in front of the constant for the opposite number. -/
def Expr.Says : Expr → Option Scalar → Prop
  | .literal l, value => l.Says value
  | .unary .neg (.literal l), value => l.SaysOpposite value
  | _, _ => False

/-! ## Signs -/

/-- The expression, behind a minus or not. -/
def Expr.signed (negative : Bool) (e : Expr) : Expr :=
  if negative then .unary .neg e else e

/-- The text of an expression is read as another expression. -/
def Expr.IsReadAs (o : Options) (e e' : Expr) : Prop :=
  ∃ text, e.text = .ok text ∧ parseStatement ("SELECT " ++ text) o = .ok (.query e'.asQuery)

/-- A single word that holds no sign: a number or a column. -/
structure Expr.IsUnsigned (d : Dialect) (e : Expr) (word : String) : Prop where
  layout : e.layout = [.word word]
  start : ∀ c ∈ word.toList.head?, c ≠ '-' ∧ c ≠ '+'
  clear : e.Clear d
  unnumbered : (Part.expr e).Unnumbered
  precedence : e.precedence? = none
  edge : e.leftEdge = closedEdge

variable {o : Options}

theorem Expr.isReadAs_of_clear {e e' : Expr} (h : e'.Clear o.dialect)
    (hn : (Part.expr e').Unnumbered) (ht : e.text = e'.text) : e.IsReadAs o e' := by
  obtain ⟨text, htext, hread⟩ := h.comesBack hn
  exact ⟨text, ht.trans htext, hread⟩

theorem Expr.IsUnsigned.obeys_neg {d : Dialect} {leaf : Expr} {word : String}
    (h : leaf.IsUnsigned d word) :
    (Expr.unary .neg leaf).Clear d ∧ (Part.expr (.unary .neg leaf)).Unnumbered := by
  have hedge : operandPower .neg ≤ leaf.leftEdge := by
    rw [h.edge]
    decide
  exact ⟨Part.obeys_iff.2 ⟨⟨hedge, trivial⟩, List.forall_mem_singleton.2 h.clear⟩,
    Part.obeys_iff.2 ⟨rfl, List.forall_mem_singleton.2 h.unnumbered⟩⟩

theorem Expr.IsUnsigned.layout_neg {d : Dialect} {leaf : Expr} {word : String}
    (h : leaf.IsUnsigned d word) : (Expr.unary .neg leaf).layout = [.symbol .minus, .word word] := by
  have hparens : parensUnary .neg leaf = false := by
    unfold parensUnary
    dsimp only
    rw [h.precedence]
    rfl
  -- A gap stands only where another sign would follow.
  have hgap : gapAfterUnary .neg [.word word] = [] := by
    have hfirst : (Layout.firstChar? [.word word]).any (fun c => c == '-' || c == '+') = false := by
      rw [firstChar?_eq_head?, Option.any_eq_false]
      intro c hc
      have hword : c ∈ word.toList.head? := by simpa [chars_toList, Piece.text] using hc
      simpa using h.start c hword
    unfold gapAfterUnary
    dsimp only
    rw [hfirst]
    rfl
  unfold Expr.layout
  dsimp only
  rw [hparens, h.layout, Layout.parensIf, if_neg Bool.false_ne_true, hgap]
  rfl

/-- A constant whose text is a sign and a word is read as the word behind the sign. -/
theorem Expr.isReadAs_signed {l : Literal} {leaf : Expr} {word : String} {negative : Bool}
    (h : leaf.IsUnsigned o.dialect word)
    (hl : l.piece = .word ((if negative then "-" else "") ++ word)) :
    (Expr.literal l).IsReadAs o (leaf.signed negative) := by
  have hlayout : (Expr.literal l).layout = [.word ((if negative then "-" else "") ++ word)] := by
    rw [Expr.layout, hl]
  cases negative with
  | false =>
    have hword : "" ++ word = word := String.empty_append
    refine isReadAs_of_clear h.clear h.unnumbered ?_
    rw [Expr.text, Expr.text, hlayout, if_neg Bool.false_ne_true, hword]
    exact congrArg Layout.text h.layout.symm
  | true =>
    -- The sign is one piece with the word here and a piece of its own there. The texts are the same.
    obtain ⟨hclear, hn⟩ := h.obeys_neg
    have htext : Layout.text [.word ("-" ++ word)] = Layout.text [.symbol .minus, .word word] := rfl
    refine isReadAs_of_clear hclear hn ?_
    rw [Expr.text, Expr.text, hlayout, if_pos rfl, htext]
    exact congrArg Layout.text h.layout_neg.symm

/-! ## Numbers -/

variable {d : Dialect}

theorem Expr.isUnsigned_number {l : Literal} {word : String} (hl : l.piece = .word word)
    (hlegal : (Expr.literal l).Legal d) (hstart : ∀ c ∈ word.toList.head?, c.isDigit = true) :
    (Expr.literal l).IsUnsigned d word where
  layout := by rw [Expr.layout, hl]
  start c hc := by
    have hd := hstart c hc
    constructor <;> rintro rfl <;> simp at hd
  clear := Part.obeys_iff.2 ⟨⟨hlegal, trivial⟩, nofun⟩
  unnumbered := Part.obeys_iff.2 ⟨rfl, nofun⟩
  precedence := rfl
  edge := rfl

theorem Expr.isUnsigned_integer (n : Nat) :
    (Expr.literal (.integer (Decimal.text n))).IsUnsigned d (Decimal.text n) := by
  refine isUnsigned_number rfl (ofWord?_decimal n) fun c hc => ?_
  rw [Decimal.text, String.toList_ofList] at hc
  exact isDigit_write n c (List.mem_of_mem_head? hc)

theorem Expr.isUnsigned_float {s : Nat} {q : Int} (h : Binary64.InRange s q) :
    (Expr.literal (.float (String.ofList (Binary64.writeFinite s q)))).IsUnsigned d
      (String.ofList (Binary64.writeFinite s q)) := by
  obtain ⟨n, hlegal, hmarked, hchars, -⟩ := Binary64.exists_numeral h
  obtain ⟨c, cs, hw⟩ := List.exists_cons_of_ne_nil hlegal.ne_nil
  rw [← hchars]
  refine isUnsigned_number rfl (n.ofWord?_chars d.dq hlegal hmarked) fun c' hc => ?_
  rw [String.toList_ofList, Numeral.chars, hw] at hc
  obtain rfl : c = c' := by simpa using hc
  exact hlegal.whole c (by simp [hw])

theorem Expr.isUnsigned_column {name : String} (hn : (Ident.plain name).Legal d.dq)
    (hstart : ∀ c ∈ name.toList.head?, c ≠ '-' ∧ c ≠ '+') :
    (Expr.column ⟨none, .plain name⟩).IsUnsigned d name where
  layout := rfl
  start := hstart
  clear := Part.obeys_iff.2 ⟨⟨⟨nofun, List.forall_mem_singleton.2 hn⟩, trivial⟩, nofun⟩
  unnumbered := Part.obeys_iff.2 ⟨rfl, nofun⟩
  precedence := rfl
  edge := rfl

/-! ## Constants -/

namespace Expr

theorem isReadAs_int (n : Int) :
    (Expr.integer n).IsReadAs o
      ((Expr.literal (.integer (Decimal.text n.natAbs))).signed (decide (n < 0))) := by
  refine isReadAs_signed (isUnsigned_integer n.natAbs) ?_
  rw [Literal.piece, Decimal.writeInt, Decimal.text]
  by_cases hn : n < 0
  · rw [if_pos hn, decide_eq_true hn, if_pos rfl, String.ofList_cons]
    rfl
  · rw [if_neg hn, decide_eq_false hn, if_neg Bool.false_ne_true, String.empty_append]

theorem isReadAs_finite {x : Binary64} {negative : Bool} {s : Nat} {q : Int}
    (h : x.parts = .finite negative s q) :
    (Expr.literal (.float x.text)).IsReadAs o
      ((Expr.literal (.float (String.ofList (Binary64.writeFinite s q)))).signed negative) := by
  obtain ⟨hrange, -⟩ := Binary64.eq_of_parts_finite h
  refine isReadAs_signed (isUnsigned_float hrange) ?_
  rw [Literal.piece, Binary64.text, Binary64.write, h]
  cases negative <;> simp

theorem isUnsigned_notFinite (d : Dialect) {name : String} (hm : name ∈ ["inf", "NaN"]) :
    (Expr.column ⟨none, .plain name⟩).IsUnsigned d name := by
  have hlegal : ∀ dq : Bool, ∀ name ∈ ["inf", "NaN"],
      TokenKind.ofWord? dq name = some (.identifier name none) := by decide
  refine isUnsigned_column ⟨_, hlegal _ name hm, .inl rfl⟩ ?_
  fin_cases hm <;> simp

/-- Infinities and what is not a number are written as words, and these are read as columns. -/
theorem isReadAs_notFinite (o : Options) {x : Binary64} (h : x.isFinite = false) :
    ∃ name ∈ ["inf", "NaN"], ∃ negative : Bool, x.text = (if negative then "-" else "") ++ name ∧
      (Expr.literal (.float x.text)).IsReadAs o ((Expr.column ⟨none, .plain name⟩).signed negative) := by
  suffices hword : ∃ name ∈ ["inf", "NaN"], ∃ negative : Bool,
      x.text = (if negative then "-" else "") ++ name by
    obtain ⟨name, hm, negative, htext⟩ := hword
    exact ⟨name, hm, negative, htext, isReadAs_signed (isUnsigned_notFinite o.dialect hm)
      (congrArg Piece.word htext)⟩
  unfold Binary64.text Binary64.write
  cases hx : x.parts with
  | finite negative s q =>
    rw [Binary64.isFinite_iff.2 ⟨negative, s, q, hx⟩] at h
    cases h
  | notANumber => exact ⟨"NaN", by simp, false, rfl⟩
  | infinite negative => exact ⟨"inf", by simp, negative, by cases negative <;> rfl⟩

theorem isReadAs_self {l : Literal} (h : (Expr.literal l).Legal o.dialect) :
    (Expr.literal l).IsReadAs o (.literal l) :=
  isReadAs_of_clear (Part.obeys_iff.2 ⟨⟨h, trivial⟩, nofun⟩) (Part.obeys_iff.2 ⟨rfl, nofun⟩) rfl

/-! ## Scalars -/

theorem not_says_column (c : ColumnRef) (negative : Bool) (value : Option Scalar) :
    ¬((Expr.column c).signed negative).Says value := by
  cases negative <;> exact id

theorem says_int (n : Int64) :
    ((Expr.literal (.integer (Decimal.text n.toInt.natAbs))).signed (decide (n.toInt < 0))).Says
      (some (.signed n)) := by
  have hread : Decimal.readInt? (Decimal.text n.toInt.natAbs).toList = some (n.toInt.natAbs : Int) := by
    rw [Decimal.text, String.toList_ofList]
    exact readInt?_write _
  by_cases hn : n.toInt < 0
  · rw [decide_eq_true hn]
    refine hread.trans (congrArg some ?_)
    omega
  · rw [decide_eq_false hn]
    refine hread.trans (congrArg some ?_)
    omega

theorem says_finite {x : Binary64} {negative : Bool} {s : Nat} {q : Int}
    (h : x.parts = .finite negative s q) :
    ((Expr.literal (.float (String.ofList (Binary64.writeFinite s q)))).signed negative).Says
      (some (.double x)) := by
  obtain ⟨hrange, hx⟩ := Binary64.eq_of_parts_finite h
  have hread : Binary64.read? (String.ofList (Binary64.writeFinite s q)).toList =
      some (Binary64.ofMagnitude false (Binary64.pattern s q)) := by
    rw [String.toList_ofList]
    exact Binary64.read?_writeFinite hrange false
  cases negative with
  | false => exact hread.trans (congrArg some hx.symm)
  | true =>
    have hopposite : x.opposite = Binary64.ofMagnitude false (Binary64.pattern s q) := by
      rw [hx, Binary64.opposite_ofMagnitude]
      rfl
    exact hread.trans (congrArg some hopposite.symm)

/-- The constant for a scalar is read as an expression that says the scalar, unless this is a
floating-point number that is not finite. -/
theorem exists_isReadAs (o : Options) (value : Option Scalar) :
    ∃ e, (Expr.ofScalar value).IsReadAs o e ∧ (e.Says value ↔ Scalar.isFinite value = true) := by
  cases value with
  | none => exact ⟨.null, isReadAs_self trivial, iff_of_true trivial rfl⟩
  | some value =>
    cases value with
    | truth b => exact ⟨_, isReadAs_self trivial, iff_of_true rfl rfl⟩
    | signed n => exact ⟨_, isReadAs_int n.toInt, iff_of_true (says_int n) rfl⟩
    | unsigned n =>
      have hread : Decimal.readInt? (Decimal.text n.toNat).toList = some (n.toNat : Int) := by
        rw [Decimal.text, String.toList_ofList]
        exact readInt?_write _
      exact ⟨_, isReadAs_self (ofWord?_decimal n.toNat), iff_of_true hread rfl⟩
    | double x =>
      cases hx : x.isFinite with
      | true =>
        obtain ⟨negative, s, q, hparts⟩ := Binary64.isFinite_iff.1 hx
        exact ⟨_, isReadAs_finite hparts, iff_of_true (says_finite hparts) hx⟩
      | false =>
        obtain ⟨name, -, negative, -, hread⟩ := isReadAs_notFinite o hx
        refine ⟨_, hread, iff_of_false (not_says_column _ negative _) ?_⟩
        rw [Scalar.isFinite, hx]
        exact Bool.false_ne_true
    | text content => exact ⟨_, isReadAs_self trivial, iff_of_true rfl rfl⟩
    | bytes content => exact ⟨_, isReadAs_self trivial, iff_of_true rfl rfl⟩

end Expr

/-- The constant for a scalar has a text, and this is read as an expression. It says the scalar, unless
this is a floating-point number that is not finite. -/
theorem says_iff_isFinite (o : Options) (value : Option Scalar) :
    ∃ (text : String) (e : Expr), (Expr.ofScalar value).text = .ok text ∧
      parseStatement ("SELECT " ++ text) o = .ok (.query e.asQuery) ∧
      (e.Says value ↔ Scalar.isFinite value = true) := by
  obtain ⟨e, ⟨text, htext, hread⟩, hsays⟩ := Expr.exists_isReadAs o value
  exact ⟨text, e, htext, hread, hsays⟩

/-- Infinity is written as a word that is read as a column. -/
theorem infinity_isReadAs_column :
    let infinity : Binary64 := ⟨0x7FF0000000000000⟩
    infinity.parts = .infinite false ∧
      (Expr.ofScalar (some (.double infinity))).text = .ok "inf" ∧
      parseStatement "SELECT inf" {} = .ok (.query (Expr.column ⟨none, .plain "inf"⟩).asQuery) := by
  intro infinity
  have hx : infinity.parts = .infinite false := by decide
  have htext : infinity.text = "inf" := by
    rw [Binary64.text, Binary64.write, hx]
    rfl
  have hcolumn : (Expr.literal (.float "inf")).IsReadAs {}
      ((Expr.column ⟨none, .plain "inf"⟩).signed false) :=
    Expr.isReadAs_signed (Expr.isUnsigned_notFinite .generic (by simp)) rfl
  obtain ⟨text, ht, hread⟩ := hcolumn
  obtain rfl : "inf" = text := Except.ok.inj ht
  refine ⟨hx, ?_, hread⟩
  rw [Expr.ofScalar, Scalar.literal, htext]
  exact ht

end SqlTree
