import Mathlib
import SqlTree.Proofs.Reading.Primary
import SqlTree.Proofs.Tree.Induction
import SqlTree.Proofs.Writing.DataType

/-! # Expressions keep their tokens apart

* `Expr.apart_step`: a clear expression keeps its tokens apart if the parts in it do.
* `Expr.firstChar?_isSome`: a clear expression is written with some character.
-/

namespace SqlTree
set_option autoImplicit false

open Layout Parse

variable {d : Dialect} {dq : Bool}

/-! ## Symbols in front of an operand -/

theorem firstChar?_append (l m : Layout) :
    firstChar? (l ++ m) = (firstChar? l).or (firstChar? m) := by
  simp [firstChar?_eq_head?, chars_toList]

/-- A symbol in front of what begins with no character that goes on with it. -/
theorem Layout.Apart.symbol {s : Symbol} {m : Layout} (h : m.Apart dq)
    (hm : ∀ l : Layout, l.Fits dq → ∀ c ∈ firstChar? (m ++ l), c ∉ s.extenders) :
    Apart dq (.symbol s :: m) :=
  fun l hl => spaced_cons (hm l hl) (h l hl)

/-- A symbol in front of a gap. -/
theorem Layout.Apart.symbol_gap {s : Symbol} {m : Layout} (h : m.Apart dq) :
    Apart dq (.symbol s :: .gap :: m) := by
  refine h.gap.symbol fun l _ c hc hx => ?_
  obtain rfl : c = ' ' := by simpa [firstChar?, Piece.text] using hc.symm
  cases s <;> simp [Symbol.extenders] at hx

theorem Layout.Apart.piece_gap {p : Piece} {m : Layout} (h : m.Apart dq)
    (hp : (∃ s, p = .symbol s) ∨ ∃ k, p = .keyword k) : Apart dq (p :: .gap :: m) := by
  rcases hp with ⟨s, rfl⟩ | ⟨k, rfl⟩
  · exact h.symbol_gap
  · exact h.gap.keyword k rfl

/-! ## Lists of parts -/

theorem Expr.apart_commas {es : List Expr} (h : ∀ e ∈ es, e.layout.Apart dq) :
    (commas (Expr.layouts es)).Apart dq := by
  rw [Expr.layouts_eq_map]
  exact Apart.commas (by simpa using h)

theorem Expr.apart_exprs {es : List Expr}
    (h : ∀ c ∈ Part.exprs es, c.layout.Apart dq) : ∀ e ∈ es, e.layout.Apart dq :=
  fun e he => h (.expr e) (List.mem_map_of_mem he)

theorem SelectItem.apart {i : SelectItem} (he : i.expr.layout.Apart dq)
    (ha : ∀ a ∈ i.alias?, a.Legal dq) : i.layout.Apart dq := by
  obtain ⟨expr, alias?⟩ := i
  exact he.then (Alias.trails_layoutAfter ha)

theorem SelectItem.apart_of_parts {items : List SelectItem}
    (h : ∀ c ∈ SelectItem.parts items, c.layout.Apart dq) :
    ∀ i ∈ items, i.expr.layout.Apart dq :=
  fun i hi => h (.expr i.expr) (List.mem_map_of_mem (f := fun i => Part.expr i.expr) hi)

theorem SelectItem.apart_layouts {items : List SelectItem}
    (h : ∀ c ∈ SelectItem.parts items, c.layout.Apart dq) (hl : ∀ i ∈ items, i.Legal dq) :
    ∀ l ∈ items.map SelectItem.layout, l.Apart dq := by
  simpa using fun i hi =>
    SelectItem.apart (SelectItem.apart_of_parts h i hi) fun a ha => ((hl i hi).2 a ha).1

theorem SelectItem.apart_commas {items : List SelectItem}
    (h : ∀ c ∈ SelectItem.parts items, c.layout.Apart dq) (hl : ∀ i ∈ items, i.Legal dq) :
    (commas (SelectItem.layouts items)).Apart dq := by
  rw [SelectItem.layouts_eq_map]
  exact Apart.commas (SelectItem.apart_layouts h hl)

/-! ## Optional parts -/

theorem trails_negation {m : Layout} (negated : Bool) (h : m.Trails dq) :
    (negation negated ++ m).Trails dq := by
  cases negated with
  | true => exact (h.keyword _).trails
  | false => exact h

theorem Layout.apart_optional {α : Type} {lay : α → Layout} {a? : Option α}
    (h : ∀ a ∈ a?, (lay a).Apart dq) : (Layout.optional lay a?).Apart dq := by
  cases a? with
  | none => exact apart_nil
  | some a => exact h a rfl

theorem Layout.Trails.optional {α : Type} {lay : α → Layout} {a? : Option α}
    (h : ∀ a ∈ a?, (lay a).Trails dq) : (Layout.optional lay a?).Trails dq := by
  cases a? with
  | none => exact .nil
  | some a => exact h a rfl

theorem Layout.Apart.behind {m : Layout} (h : m.Apart dq) (ks : List Keyword) :
    (Layout.behind ks m).Trails dq :=
  (Apart.keywords h.gap rfl ks).trails

/-! ## Expressions with parts -/

theorem BinaryOp.piece_cases (op : BinaryOp) :
    (∃ s, op.piece = .symbol s) ∨ ∃ k, op.piece = .keyword k := by
  cases op <;> simp [BinaryOp.piece]

theorem Expr.apart_unary (op : UnaryOp) {operand : Expr} (h : operand.layout.Apart dq) :
    (Expr.unary op operand).layout.Apart dq := by
  simp only [Expr.layout]
  generalize hm : parensIf (parensUnary op operand) operand.layout = m
  replace h : m.Apart dq := hm ▸ h.parensIf _
  cases op with
  | not => exact h.gap.keyword _ rfl
  | plus => exact (h.behindIf _ Apart.gap).mark rfl
  | bitNot => exact (h.behindIf _ Apart.gap).mark rfl
  | neg =>
    -- A gap stands only where the sign would run into another one.
    simp only [UnaryOp.piece, gapAfterUnary]
    cases hs : (firstChar? m).any fun c => c == '-' || c == '+' with
    | true => exact h.symbol_gap
    | false =>
      refine h.symbol fun l hl c hc hx => ?_
      obtain rfl : c = '-' := by simpa [Symbol.extenders] using hx
      rw [firstChar?_append] at hc
      cases hf : firstChar? m with
      | none =>
        rw [hf, Option.none_or] at hc
        exact absurd (mem_stopChars hl.stops '-' hc) (by simp [stopChars])
      | some c =>
        rw [hf] at hs hc
        obtain rfl : c = '-' := by simpa using hc
        simp at hs

theorem Expr.apart_call {c : FunctionCall}
    (hn : c.name.Legal dq ∨ c.name.IsFunctionWord dq) (ha : ∀ e ∈ c.arguments, e.layout.Apart dq) :
    c.layout.Apart dq := by
  have hargs : (parens (onlyIf c.distinct [.keyword .DISTINCT, .gap] ++
      commas (Expr.layouts c.arguments))).Apart dq :=
    ((Expr.apart_commas ha).wordIf _ _).parens
  rw [FunctionCall.layout_eq]
  refine Apart.append ?_ hargs rfl
  rcases hn with hn | ⟨w, k, hn, hw, -⟩
  · exact hn.apart
  · rw [hn]
    exact apart_nil.word hw (by simp) rfl

theorem WhenArm.trails_layouts {arms : List WhenArm}
    (h : ∀ a ∈ arms, a.condition.layout.Apart dq ∧ a.result.layout.Apart dq) :
    (WhenArm.layouts arms).Trails dq := by
  induction arms with
  | nil => exact .nil
  | cons a arms ih =>
    obtain ⟨condition, result⟩ := a
    obtain ⟨h1, h2⟩ := h ⟨condition, result⟩ (by simp)
    have ih := ih fun a ha => h a (by simp [ha])
    simp only [WhenArm.layouts, WhenArm.layout, List.cons_append, List.nil_append,
      List.append_assoc]
    exact ((h1.then ((h2.then ih).gap.keyword _ rfl).trails).gap.keyword _ rfl).trails

theorem Expr.apart_caseWhen {operand otherwise : Option Expr} {arms : List WhenArm}
    (ho : ∀ e ∈ operand, e.layout.Apart dq)
    (ha : ∀ a ∈ arms, a.condition.layout.Apart dq ∧ a.result.layout.Apart dq)
    (hw : ∀ e ∈ otherwise, e.layout.Apart dq) :
    (Expr.caseWhen operand arms otherwise).layout.Apart dq := by
  have hoperand : (Layout.optional (fun e : Expr => [.gap] ++ e.layout) operand).Trails dq :=
    Trails.optional fun e he => (ho e he).trails
  have helse : (Layout.optional (fun e : Expr => [.gap, .keyword .ELSE, .gap] ++ e.layout)
      otherwise).Trails dq := Trails.optional fun e he => ((hw e he).gap.keyword _ rfl).trails
  have hend : Trails dq [.gap, .keyword .END] := (apart_nil.keyword _ rfl).trails
  have hall := (hoperand.append ((WhenArm.trails_layouts ha).append (helse.append hend))).keyword .CASE
  simpa only [Expr.layout, Expr.layoutAfter_eq, List.append_assoc, List.cons_append,
    List.nil_append] using hall

theorem WildcardExcept.trails {e : WildcardExcept} (h : ∀ i ∈ e.columns, i.Legal dq) :
    e.layout.Trails dq :=
  ((Ident.apart_listLayout h).parens.gap.keyword _ rfl).trails

theorem Expr.apart_wildcard {table : Option ObjectName} {except : Option WildcardExcept}
    {replace : Option (List SelectItem)} (ht : ∀ t ∈ table, t.Legal dq)
    (he : ∀ e ∈ except, ∀ i ∈ e.columns, i.Legal dq)
    (hr : ∀ items ∈ replace, ∀ l ∈ items.map SelectItem.layout, l.Apart dq) :
    (Expr.wildcard table except replace).layout.Apart dq := by
  have h1 : (Layout.optional (fun items => Layout.behind [.REPLACE]
      (parens (commas (items.map SelectItem.layout)))) replace).Trails dq :=
    Trails.optional fun items hi => (Apart.commas (hr items hi)).parens.behind [.REPLACE]
  have h2 : (Layout.optional WildcardExcept.layout except).Trails dq :=
    Trails.optional fun e hm => WildcardExcept.trails (he e hm)
  have h3 : Apart dq (.symbol .star :: _) := (h2.append h1).apart.mark rfl
  rw [Expr.layout_wildcard]
  simp only [List.append_assoc, List.cons_append, List.nil_append]
  cases table with
  | none => exact h3
  | some t => simpa using (ht t rfl).apart_dot h3

/-! ## Placeholders -/

/-- A sigil in front of the name of a placeholder. -/
theorem Placeholder.apart_named {sigil : Char} {name : String} (hs : sigil = ':' ∨ sigil = '@')
    (hn : Ident.Legal dq { name }) : (Placeholder.named sigil name).layout.Apart dq := by
  obtain ⟨s, hw, hs⟩ := ofWord?_sigil dq hs
  obtain ⟨kind, hk, hi⟩ := hn
  have hname : (Piece.word name).IsWord dq := by
    refine ⟨kind, hk, fun s he => ?_⟩
    rcases hi with rfl | ⟨k, rfl, -⟩ <;> simp at he
  have htext : String.ofList [sigil] = s.text := by
    rcases hs with ⟨rfl, rfl⟩ | ⟨rfl, rfl⟩ <;> rfl
  have ha : (Layout.word name).Apart dq := Ident.Legal.apart (i := { name }) ⟨kind, hk, hi⟩
  exact fun l hl => spaced_cons ⟨_, hw, htext, hname.not_mem_extenders s l⟩ (ha l hl)

/-! ## Struct values -/

theorem StructField.apart_of_legal {form : StructForm} {fields : List StructField}
    (hl : (DataType.struct form fields).Legal dq) (hf : (DataType.struct .parens fields).Faithful dq) :
    ∀ l ∈ fields.map StructField.layout, l.Apart dq := by
  obtain ⟨⟨-, hn, -⟩, hl⟩ := hl
  simpa using fun f hm => StructField.apart (hn f hm)
    (DataType.apart f.type (StructField.allTypes_iff.1 hl f hm) (StructField.allTypes_iff.1 hf.2 f hm))

theorem StructField.apart_anglesLayout {fields : List StructField}
    (hl : (DataType.struct .angles fields).Legal dq)
    (hf : (DataType.struct .parens fields).Faithful dq) :
    (StructField.anglesLayout fields).Apart dq :=
  StructField.apart_angles hl.1.1 hl.1.2.1 (StructField.allTypes_iff.1 hf.2)
    (Apart.tightCommas (StructField.apart_of_legal hl hf))

theorem StructField.apart_castLayout {fields : List StructField}
    (hl : (DataType.struct .parens fields).Legal dq)
    (hf : (DataType.struct .parens fields).Faithful dq) :
    (StructField.castLayout fields).Apart dq :=
  Apart.mark (((((Apart.tightCommas (StructField.apart_of_legal hl hf)).append
    (apart_nil.mark (by rfl)) (by rfl)).gap).mark (by rfl)).keyword _ rfl) rfl

theorem Ident.IsKey.apart {key : Ident} (h : key.IsKey dq) {m : Layout} (hm : m.Apart dq)
    (hs : m.stops = true) : (key.layout ++ m).Apart dq := by
  rcases h with h | h
  · exact h.apart.append hm hs
  · exact hm.word (ofWord?_key dq h) (by simp) hs

/-- A value behind its key and the colon, which it must not make longer. -/
theorem SelectItem.apart_keyedLayout {i : SelectItem} {key : Ident}
    (ha : i.alias? = some (.implicit key)) (hk : key.IsKey dq) (he : i.expr.layout.Apart dq)
    (hc : i.expr.layout.firstChar? ≠ none) (hn : i.expr.layout.firstChar? ≠ some ':') :
    i.keyedLayout.Apart dq := by
  rw [SelectItem.keyedLayout, ha]
  refine hk.apart (he.symbol fun l _ c hm hx => ?_) rfl
  obtain rfl : c = ':' := by simpa [Symbol.extenders] using hx
  rw [firstChar?_append] at hm
  cases hf : i.expr.layout.firstChar? with
  | none => exact hc hf
  | some c =>
    obtain rfl : c = ':' := by simpa [hf] using hm
    exact hn hf

theorem SelectItem.apart_bracesLayout {items : List SelectItem}
    (hk : ∀ i ∈ items, ∃ key : Ident, i.alias? = some (.implicit key) ∧ key.IsKey dq)
    (h : ∀ i ∈ items, i.expr.layout.Apart dq ∧ i.expr.layout.firstChar? ≠ none ∧
      i.expr.layout.firstChar? ≠ some ':') :
    (SelectItem.bracesLayout items).Apart dq := by
  have hl : ∀ i ∈ items, i.keyedLayout.Apart dq := by
    intro i hi
    obtain ⟨key, ha, hk⟩ := hk i hi
    obtain ⟨h1, h2, h3⟩ := h i hi
    exact SelectItem.apart_keyedLayout ha hk h1 h2 h3
  have hsome : ∀ i ∈ items, i.alias? ≠ none := by
    intro i hi
    obtain ⟨key, ha, -⟩ := hk i hi
    simp [ha]
  rw [SelectItem.bracesLayout, SelectItem.fieldLayouts_eq_map hsome]
  exact (((Apart.tightCommas (by simpa using hl)).append
    (apart_nil.mark (by rfl)).gap (by rfl)).gap).mark rfl

/-- A word in the text of a clear expression makes it begin with a character. -/
theorem Expr.firstChar?_ne_none {e : Expr} (h : e.Clear d) : e.layout.firstChar? ≠ none := by
  obtain ⟨p, l, hl, hp, hs⟩ := e.head_layout h []
  rw [List.append_nil] at hl
  have hne : p.text.toList ≠ [] := by
    cases p with
    | word w =>
      intro he
      have hk : (Piece.word w).kind d.dq = .endOfInput := by
        simp only [Piece.text] at he
        simp [Piece.kind, TokenKind.ofWord?, he, scanToken]
      rw [hk] at hs
      exact absurd hs (by decide)
    | keyword k => exact (scanToken_of_ofWord? (ofWord?_keyword d.dq k)).2
    | symbol s => cases s <;> simp [Piece.text, Symbol.text]
    | question n => simp [Piece.text, Symbol.text]
    | closingAngle => contradiction
    | gap => exact absurd hs Bool.false_ne_true
    | defect f => exact absurd hs Bool.false_ne_true
  rw [firstChar?_eq_head?, chars_toList]
  intro hnone
  have hmem : p ∈ e.layout := by
    have hm : p ∈ e.layout.solid := by rw [hl]; simp
    exact (List.mem_filter.1 hm).1
  have hflat := List.flatMap_eq_nil_iff.1 (List.head?_eq_none_iff.1 hnone) p hmem
  exact hne hflat

theorem Expr.apart_struct {v : StructValue} (h : (Expr.struct v).Clear d)
    (hp : ∀ c ∈ (Expr.struct v).children, c.layout.Apart d.dq) : v.layout.Apart d.dq := by
  obtain ⟨style, word, fields, arguments⟩ := v
  obtain ⟨⟨-, hv⟩, hf, ha⟩ : StructValue.Legal d _ ∧ StructValue.Faithful d.dq _ := h.head
  have hparts : ∀ items ∈ arguments, ∀ c ∈ SelectItem.parts items, c.layout.Apart d.dq := by
    rintro items rfl
    exact hp
  cases style with
  | bigQuery =>
    obtain ⟨⟨w, rfl, hw⟩, hl, -, hi⟩ := hv
    rw [StructValue.layout_bigQuery]
    have h1 : (Layout.optional StructField.anglesLayout fields).Trails d.dq :=
      Trails.optional fun fs hm => ⟨StructField.apart_anglesLayout (hl fs hm) (hf fs hm), rfl⟩
    have h2 : (Layout.optional (fun items => parens (tightCommas (items.map SelectItem.layout)))
        arguments).Trails d.dq := Trails.optional fun items hm =>
      ⟨(Apart.tightCommas (SelectItem.apart_layouts (hparts items hm) (hi items hm))).parens, rfl⟩
    have h3 := h1.append h2
    rw [List.append_assoc]
    exact h3.apart.word hw (by simp) h3.stops
  | duckDb =>
    obtain ⟨-, hl, items, rfl, hi⟩ := hv
    rw [StructValue.layout_duckDb]
    have h1 : (Layout.optional StructField.castLayout fields).Trails d.dq :=
      Trails.optional fun fs hm => ⟨StructField.apart_castLayout (hl fs hm) (hf fs hm), rfl⟩
    refine (SelectItem.apart_bracesLayout hi fun i hm => ⟨?_, ?_, ha items rfl i hm⟩).then h1
    · exact SelectItem.apart_of_parts hp i hm
    · exact Expr.firstChar?_ne_none (h.child (List.mem_map_of_mem (f := fun i => Part.expr i.expr) hm))

/-! ## Any expression -/

theorem Literal.apart {v : Literal} (h : (Expr.literal v).Legal d) : Apart d.dq [v.piece] := by
  match v, h with
  | .integer digits, h => exact apart_nil.word h (by simp) rfl
  | .float digits, h => exact apart_nil.word h (by simp) rfl
  | .string content, _ => exact apart_nil.word (ofWord?_string d.dq content) (by simp) rfl
  | .blob bytes, _ => exact apart_nil.word (ofWord?_blob d.dq bytes) (by simp) rfl
  | .boolean true, _ => exact apart_nil.keyword _ rfl
  | .boolean false, _ => exact apart_nil.keyword _ rfl
  | .null, _ => exact apart_nil.keyword _ rfl

/-- A clear expression keeps its tokens apart if the parts in it do. -/
theorem Expr.apart_step {e : Expr} (h : e.Clear d) (hp : ∀ c ∈ e.children, c.layout.Apart d.dq) :
    e.layout.Apart d.dq := by
  have hlegal := h.head.1
  cases e with
  | literal v => exact Literal.apart hlegal
  | column c => exact ColumnRef.Legal.apart hlegal
  | binary left op right =>
    have hl := hp (.expr left) (by simp [Expr.children])
    have hr := hp (.expr right) (by simp [Expr.children])
    rw [Expr.layout, List.append_assoc]
    exact (hl.parensIf _).append ((hr.parensIf _).piece_gap op.piece_cases).gap rfl
  | unary op operand => exact Expr.apart_unary op (hp (.expr operand) (by simp [Expr.children]))
  | call c => exact Expr.apart_call hlegal (Expr.apart_exprs hp)
  | array withWord elements =>
    have he : (tightCommas (Expr.layouts elements)).Apart d.dq := by
      rw [Expr.layouts_eq_map]
      exact Apart.tightCommas (by simpa using Expr.apart_exprs hp)
    have hb : Apart d.dq (.symbol .leftBracket :: (tightCommas (Expr.layouts elements) ++
      [.symbol .rightBracket])) := (he.append (apart_nil.mark rfl) rfl).mark rfl
    simp only [Expr.layout, List.append_assoc]
    exact hb.behindIf withWord fun h => h.keyword _ rfl
  | struct v => exact Expr.apart_struct h hp
  | subquery q => exact (hp (.query q) (by simp [Expr.children])).parens
  | existsQuery q => exact (hp (.query q) (by simp [Expr.children])).parens.gap.keyword _ rfl
  | inList tested negated items =>
    obtain ⟨ht, hi⟩ := List.forall_mem_cons.1 hp
    have hlist := (Expr.apart_commas (Expr.apart_exprs hi)).parens
    simp only [Expr.layout, List.append_assoc]
    exact ht.then (trails_negation negated (hlist.gap.keyword _ rfl).trails)
  | inQuery tested negated q =>
    have ht := hp (.expr tested) (by simp [Expr.children])
    have hq := (hp (.query q) (by simp [Expr.children])).parens
    simp only [Expr.layout, List.append_assoc]
    exact ht.then (trails_negation negated (hq.gap.keyword _ rfl).trails)
  | between tested negated low high =>
    have ht := hp (.expr tested) (by simp [Expr.children])
    have hl := hp (.expr low) (by simp [Expr.children])
    have hh := hp (.expr high) (by simp [Expr.children])
    simp only [Expr.layout, List.append_assoc]
    exact ht.then (trails_negation negated
      ((hl.then (hh.gap.keyword _ rfl).trails).gap.keyword _ rfl).trails)
  | isNull tested negated =>
    have ht := hp (.expr tested) (by simp [Expr.children])
    simp only [Expr.layout, List.append_assoc]
    exact ht.then ((trails_negation negated (apart_nil.keyword _ rfl).trails).keyword _).trails
  | like tested negated caseless pattern =>
    have ht := hp (.expr tested) (by simp [Expr.children])
    have hpat := hp (.expr pattern) (by simp [Expr.children])
    simp only [Expr.layout, List.append_assoc]
    exact ht.then (trails_negation negated (hpat.gap.keyword _ rfl).trails)
  | caseWhen operand arms otherwise =>
    simp only [Expr.children, List.forall_mem_append] at hp
    obtain ⟨⟨ho, ha⟩, hw⟩ := hp
    refine Expr.apart_caseWhen (fun e he => ho (.expr e) ?_) (fun a hm => ?_) fun e he => hw (.expr e) ?_
    · exact List.mem_map_of_mem (by simpa using he)
    · exact ⟨ha (.expr a.condition) (List.mem_flatMap.2 ⟨a, hm, by simp⟩),
        ha (.expr a.result) (List.mem_flatMap.2 ⟨a, hm, by simp⟩)⟩
    · exact List.mem_map_of_mem (by simpa using he)
  | cast style operand type =>
    have ho := hp (.expr operand) (by simp [Expr.children])
    cases style with
    | function =>
      have ht := type.apart hlegal h.head.2
      simp only [Expr.layout]
      rw [List.append_assoc]
      exact (ho.append ((ht.gap.keyword _ rfl).gap) rfl).parens.keyword _ rfl
    | doubleColon =>
      exact (ho.parensIf _).append ((type.apart hlegal.1 h.head.2.1).mark rfl) rfl
  | nested inner => exact (hp (.expr inner) (by simp [Expr.children])).parens
  | tuple items => exact (Expr.apart_commas (Expr.apart_exprs hp)).parens
  | placeholder place =>
    cases place with
    | positional n => exact fun l hl => Fits.question hl.spaced n
    | named sigil name => exact Placeholder.apart_named hlegal h.head.2
  | wildcard table except replace =>
    obtain ⟨ht, he, hr⟩ := hlegal
    refine Expr.apart_wildcard ht (fun e hm => (he e hm).2.2) ?_
    rintro items rfl
    exact SelectItem.apart_layouts hp (hr items rfl).2.2

end SqlTree
