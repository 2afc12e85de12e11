import Mathlib
import SqlTree.Name.Grammar
import SqlTree.Proofs.Reading.Place
import SqlTree.Query.Grammar.Expr
import SqlTree.Query.Layout

/-! # Names as they are written and read

* `Ident.Legal`: the written name is one token, which is read as this name. `ObjectName.Legal`,
  `ColumnRef.Legal` and `Alias.Legal` ask for it wherever a name stands.
* `takes_identifier`, `takes_dottedName`, `takes_identifierList`, `takes_optionalAlias`,
  `takes_tableAlias`: a legal name is read back.
-/

namespace SqlTree
set_option autoImplicit false

open Parse

variable {dq : Bool} {r : Layout}

/-! ## Legal names -/

/-- The written name is one token that is read as this name. -/
def Ident.Legal (dq : Bool) (i : Ident) : Prop :=
  ∃ kind, TokenKind.ofWord? dq i.text = some kind ∧
    (kind = .identifier i.name i.quote ∨
      ∃ k : Keyword, kind = .keyword k ∧ k.isReserved = false ∧ i.quote = none)

/-- One or more legal names. -/
def ObjectName.Legal (dq : Bool) (n : ObjectName) : Prop :=
  n.parts ≠ [] ∧ ∀ i ∈ n.parts, i.Legal dq

/-- The names that a column is written with. -/
def ColumnRef.names (c : ColumnRef) : List Ident :=
  c.table.elim [] ObjectName.parts ++ [c.name]

/-- Legal names, and one at least for a table. -/
def ColumnRef.Legal (dq : Bool) (c : ColumnRef) : Prop :=
  c.table ≠ some ⟨[]⟩ ∧ ∀ i ∈ c.names, i.Legal dq

/-- Legal names for the item and its columns. -/
def Alias.Legal (dq : Bool) (a : Alias) : Prop :=
  a.name.Legal dq ∧ ∀ i ∈ a.columns, i.Legal dq

/-! ## One name -/

theorem Ident.Legal.startsName {i : Ident} (h : i.Legal dq) (l : Layout) :
    startsName (kindAhead dq (i.layout.solid ++ l) 0) = true := by
  obtain ⟨kind, hw, hk⟩ := h
  have ht : kindAhead dq (i.layout.solid ++ l) 0 = kind := Piece.kind_word hw
  rw [ht]
  rcases hk with rfl | ⟨k, rfl, hk, -⟩
  · rfl
  · simp [Parse.startsName, hk]

theorem startsName_symbol {kind : TokenKind} (h : startsName kind = true) (s : Symbol) :
    kind ≠ .symbol s := by
  rintro rfl
  simp [startsName] at h

theorem startsName_reserved {kind : TokenKind} (h : startsName kind = true) {k : Keyword}
    (hk : k.isReserved = true) : kind ≠ .keyword k := by
  rintro rfl
  simp [startsName, hk] at h

theorem takes_nameAt_yes {l : Layout} {k : Nat} (h : startsName (kindAhead dq l k) = true)
    (hc : ∀ p ∈ l.take k, p ≠ .closingAngle) : Takes dq (nameAt k) l true l :=
  takes_peek (t := startsName) (h ▸ .pure _ _) rfl hc

theorem takes_nameAt_no {l : Layout} {k : Nat} (h : startsName (kindAhead dq l k) = false)
    (hc : ∀ p ∈ l.take k, p ≠ .closingAngle) : Takes dq (nameAt k) l false l :=
  takes_peek (t := startsName) (h ▸ .pure _ _) rfl hc

theorem takes_identifier {i : Ident} (h : i.Legal dq) :
    Takes dq identifier (i.layout.solid ++ r) i r := by
  obtain ⟨kind, hw, hk⟩ := h
  refine takes_current (p := .word i.text) (by simp) fun t ht hx => ?_
  rw [Piece.kind_word hw] at ht
  have ha : Takes dq advance (.word i.text :: r) () r := takes_advance (by simp) rfl
  rcases hk with rfl | ⟨k, rfl, hr, hq⟩
  · simp only [ht]
    exact ha.bind (.pure _ _)
  · have hi : i = { name := t.text } := by
      rw [hx _ rfl]
      cases i
      simp only at hq
      simp [Ident.text, hq]
    have hp : Takes dq (pure { name := t.text }) r i r := by
      rw [← hi]
      exact .pure i r
    simp only [ht, hr]
    exact ha.bind hp

/-! ## Names with points between them -/

theorem gathers_nameAfterDot
    (hr : kindAhead dq r 0 = .symbol .dot → startsName (kindAhead dq r 1) = false) :
    ∀ names : List Ident, (∀ i ∈ names, i.Legal dq) →
      Gathers dq nameAfterDot
        ((names.flatMap fun i => .symbol .dot :: i.layout.solid) ++ r) names r
  | [], _ => by
    refine .done ?_
    by_cases hd : kindAhead dq r 0 = .symbol .dot
    · have hc : ∀ p ∈ r.take 1, p ≠ .closingAngle := by
        cases r with
        | nil => simp
        | cons p l =>
          rintro q hq rfl
          obtain rfl : Piece.closingAngle = p := by simpa using hq
          simp at hd
      exact (takes_symbolAt_yes hd (by decide) (by simp)).bind ((takes_nameAt_no (hr hd) hc).bind (.pure none r))
    · refine (takes_symbolAt_no hd (by decide) (by simp)).bind (takes_test_any (fun c => ⟨_, rfl⟩) fun answer => ?_)
      exact .pure none r
  | i :: names, h => by
    have hi := h i (by simp)
    have ih := gathers_nameAfterDot hr names fun j hj => h j (by simp [hj])
    simp only [List.flatMap_cons, List.cons_append, List.append_assoc]
    refine .more ?_ (by simp) ih
    refine (takes_symbolAt_yes rfl (by decide) (by simp)).bind ((takes_nameAt_yes ?_ (by simp)).bind ?_)
    · rw [kindAhead_succ]
      exact hi.startsName _
    exact (takes_advance (by simp) rfl).bind ((takes_identifier hi).bind (.pure _ _))

theorem takes_dottedName {first : Ident} {more : List Ident}
    (hl : ∀ i ∈ first :: more, i.Legal dq)
    (hr : kindAhead dq r 0 = .symbol .dot → startsName (kindAhead dq r 1) = false) :
    Takes dq dottedName ((ObjectName.layout ⟨first :: more⟩).solid ++ r) (first, more) r := by
  simp only [List.forall_mem_cons] at hl
  have hg := takes_collect (gathers_nameAfterDot hr more hl.2)
  rw [ObjectName.layout, List.map_cons, solid_sepBy, List.flatMap_map, List.append_assoc]
  exact (takes_identifier hl.1).bind (hg.bind (.pure _ _))

theorem takes_objectName {n : ObjectName} (h : n.Legal dq)
    (hr : kindAhead dq r 0 = .symbol .dot → startsName (kindAhead dq r 1) = false) :
    Takes dq objectName (n.layout.solid ++ r) n r := by
  obtain ⟨parts⟩ := n
  cases parts with
  | nil => exact absurd rfl h.1
  | cons first more => exact (takes_dottedName h.2 hr).bind (.pure _ r)

/-- The column that its own names spell. -/
theorem ColumnRef.exists_names {c : ColumnRef} (h : c.table ≠ some ⟨[]⟩) :
    ∃ first more, c.names = first :: more ∧ columnOf first more = c ∧
      c.layout = ObjectName.layout ⟨first :: more⟩ := by
  obtain ⟨table, name⟩ := c
  match table with
  | none => exact ⟨name, [], rfl, rfl, by simp [ColumnRef.layout, ObjectName.layout, Layout.sepBy]⟩
  | some ⟨[]⟩ => exact absurd rfl h
  | some ⟨p :: ps⟩ =>
    refine ⟨p, ps ++ [name], rfl, by simp [columnOf], ?_⟩
    have hs : ∀ (q : Ident) (qs : List Ident), Layout.sepBy [.symbol .dot]
        ((q :: (qs ++ [name])).map Ident.layout) =
          Layout.sepBy [.symbol .dot] ((q :: qs).map Ident.layout) ++ .symbol .dot :: name.layout := by
      intro q qs
      induction qs generalizing q with
      | nil => simp [Layout.sepBy]
      | cons r qs ih =>
        have ih := ih r
        simp only [List.map_cons, List.map_append, List.map_nil] at ih
        simp [Layout.sepBy, ih]
    exact (hs p ps).symm

/-! ## Names with commas between them -/

theorem startsName_identifierList {names : List Ident} (hne : names ≠ [])
    (h : ∀ i ∈ names, i.Legal dq) (l : Layout) :
    startsName (kindAhead dq ((Ident.listLayout names).solid ++ l) 0) = true := by
  cases names with
  | nil => contradiction
  | cons i names =>
    rw [Ident.listLayout, List.map_cons, Layout.commas, solid_sepBy, List.append_assoc]
    exact (h i (by simp)).startsName _

theorem takes_identifierList {names : List Ident} (hne : names ≠ []) (h : ∀ i ∈ names, i.Legal dq)
    (hr : kindAhead dq r 0 ≠ .symbol .comma) :
    Takes dq identifierList ((Ident.listLayout names).solid ++ r) names r :=
  takes_commaList hr hne fun i hi _ _ => takes_identifier (h i hi)

theorem takes_identifiersInParens {names : List Ident} (hne : names ≠ [])
    (h : ∀ i ∈ names, i.Legal dq) :
    Takes dq identifiersInParens ((Layout.parens (Ident.listLayout names)).solid ++ r) names
      r := by
  have hl := takes_identifierList (r := .symbol .rightParen :: r) hne h (by simp)
  unfold identifiersInParens
  simpa [Layout.parens] using takes_inParens hl

theorem takes_optionalIdentifiers {names : List Ident} (h : ∀ i ∈ names, i.Legal dq)
    (hr : names = [] → kindAhead dq r 0 ≠ .symbol .leftParen) :
    Takes dq optionalIdentifiers
      ((Layout.onlyIf (!names.isEmpty) (Layout.parens (Ident.listLayout names))).solid ++ r) names
      r := by
  cases names with
  | nil => exact (takes_symbolAt_no (hr rfl) (by decide) (by simp)).bind (.pure [] r)
  | cons i names => exact (takes_symbolAt_yes rfl (by decide) (by simp)).bind (takes_identifiersInParens (by simp) h)

theorem takes_oneOrMoreIdentifiers {names : List Ident} (hne : names ≠ [])
    (h : ∀ i ∈ names, i.Legal dq) :
    Takes dq oneOrMoreIdentifiers
      ((Layout.parensIf (names.length != 1) (Ident.listLayout names)).solid ++ r) names r := by
  match names with
  | [] => contradiction
  | [i] =>
    have hi := h i (by simp)
    refine (takes_symbolAt_no (startsName_symbol (hi.startsName r) _) (by decide) (by simp)).bind ?_
    exact (takes_identifier hi).bind (.pure _ _)
  | i :: j :: names =>
    exact (takes_symbolAt_yes rfl (by decide) (by simp)).bind (takes_identifiersInParens (by simp) h)

/-! ## Another name -/

theorem takes_optionalAlias {alias? : Option Alias} (h : ∀ a ∈ alias?, a.Legal dq ∧ a.columns = [])
    (hr : alias? = none →
      kindAhead dq r 0 ≠ .keyword .AS ∧ startsName (kindAhead dq r 0) = false) :
    Takes dq optionalAlias ((Alias.layoutAfter alias?).solid ++ r) alias? r := by
  match alias? with
  | none =>
    obtain ⟨h1, h2⟩ := hr rfl
    exact (takes_takeKeyword_no h1).bind ((takes_nameAt_no h2 (by simp)).bind (.pure none r))
  | some ⟨name, withAs, columns⟩ =>
    obtain ⟨⟨hn, -⟩, rfl⟩ := h _ rfl
    cases withAs with
    | true => exact (takes_takeKeyword_yes _ _).bind ((takes_identifier hn).bind (.pure _ _))
    | false =>
      have hs := hn.startsName r
      refine (takes_takeKeyword_no (startsName_reserved hs rfl)).bind ((takes_nameAt_yes hs (by simp)).bind ?_)
      exact (takes_identifier hn).bind (.pure _ _)

theorem takes_tableAlias {alias? : Option Alias} (h : ∀ a ∈ alias?, a.Legal dq)
    (hr : alias? = none →
      kindAhead dq r 0 ≠ .keyword .AS ∧ startsName (kindAhead dq r 0) = false)
    (hp : kindAhead dq r 0 ≠ .symbol .leftParen) :
    Takes dq tableAlias ((Alias.layoutAfter alias?).solid ++ r) alias? r := by
  match alias? with
  | none => exact (takes_optionalAlias (by simp) hr).bind (.pure none r)
  | some ⟨name, withAs, []⟩ =>
    refine (takes_optionalAlias (fun a ha => ⟨h a ha, by cases ha; rfl⟩) (by simp)).bind ?_
    refine (takes_symbolAt_no hp (by decide) (by simp)).bind (takes_test_any (fun c => ⟨_, rfl⟩) fun answer => ?_)
    exact .pure _ r
  | some ⟨name, withAs, i :: columns⟩ =>
    obtain ⟨hn, hc⟩ := h _ rfl
    have hl : (Alias.layoutAfter (some ⟨name, withAs, i :: columns⟩)).solid ++ r =
        (Alias.layoutAfter (some ⟨name, withAs, []⟩)).solid ++
          ((Layout.parens (Ident.listLayout (i :: columns))).solid ++ r) := by
      simp [Alias.layoutAfter, Alias.layout, Layout.onlyIf]
    rw [hl]
    refine (takes_optionalAlias (fun a ha => ⟨?_, ?_⟩) (by simp)).bind ?_
    · cases ha
      exact ⟨hn, by simp⟩
    · cases ha
      rfl
    have hs := startsName_identifierList (by simp) hc (.symbol .rightParen :: r)
    have ht := takes_identifiersInParens (r := r) (by simp) hc
    simp only [Layout.parens, Layout.solid_symbol, Layout.solid_append, Layout.solid_nil,
      List.cons_append, List.append_assoc, List.nil_append] at ht ⊢
    refine (takes_symbolAt_yes rfl (by decide) (by simp)).bind ((takes_nameAt_yes ?_ (by simp)).bind ?_)
    · rw [kindAhead_succ, hs]
    exact ht.bind (.pure _ r)

end SqlTree
