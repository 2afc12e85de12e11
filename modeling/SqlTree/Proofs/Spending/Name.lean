import Mathlib
import SqlTree.Proofs.Spending.Cost

/-! # Names that are read and what they take

* `Layout.Begins dq l P`: if what is written in `l` begins with the word `NULL`, `P` holds.
* `ObjectName.Read`, `Ident.ListRead`, `Alias.Read`: what holds of names that are read between two
  cursors.
-/

namespace SqlTree
set_option autoImplicit false

open Parse

variable {dq : Bool} {c c' : Cursor}

/-! ## How pieces begin -/

/-- Whatever stands behind a layout, it begins with the word `NULL` only if `P` holds. -/
def Layout.Begins (dq : Bool) (l : Layout) (P : Prop) : Prop :=
  ∀ r : Layout, kindAhead dq (l.solid ++ r) 0 = .keyword .NULL → P

namespace Layout

variable {l : Layout} {P : Prop}

theorem Begins.append (h : l.Begins dq P) (m : Layout) : (l ++ m).Begins dq P := by
  intro r hr
  rw [solid_append, List.append_assoc] at hr
  exact h _ hr

theorem begins_symbol (s : Symbol) (l : Layout) : Begins dq (.symbol s :: l) P := by
  intro r hr
  cases hr

theorem begins_keyword {k : Keyword} (hk : k ≠ .NULL) (l : Layout) :
    Begins dq (.keyword k :: l) P := by
  intro r hr
  exact absurd (TokenKind.keyword.inj hr) hk

theorem begins_word {w : String} {kind : TokenKind} (hw : TokenKind.ofWord? dq w = some kind)
    (hp : kind = .keyword .NULL → P) (l : Layout) : Begins dq (.word w :: l) P := by
  intro r hr
  refine hp ?_
  rw [← Piece.kind_word hw]
  exact hr

theorem Begins.parensIf (h : l.Begins dq P) (wrap : Bool) : (parensIf wrap l).Begins dq P := by
  cases wrap with
  | true => exact begins_symbol _ _
  | false => exact h

end Layout

/-! ## Names -/

/-- What holds of names with points between them that are read. -/
structure ObjectName.Read (dq : Bool) (n : ObjectName) (c c' : Cursor) : Prop where
  legal : n.Legal dq
  begins : n.layout.Begins dq (c.peek 0 = .keyword .NULL)
  cost : n.layout.loose + c'.loose ≤ c.loose

/-- What holds of names that are read one behind the other. -/
structure Ident.ListRead (dq : Bool) (names : List Ident) (c c' : Cursor) : Prop where
  legal : ∀ i ∈ names, i.Legal dq
  cost : (Ident.listLayout names).loose + c'.loose ≤ c.loose

/-- What holds of an alias that may be there. A bare one is the token at the first cursor. -/
structure Alias.Read (dq : Bool) (alias? : Option Alias) (c c' : Cursor) : Prop where
  legal : ∀ a ∈ alias?, a.Legal dq
  cost : (Alias.layoutAfter alias?).loose + c'.loose ≤ c.loose
  none : alias? = none → c' = c
  bare : ∀ a ∈ alias?, a.withAs = false →
    isWord "PRECISION" (.identifier a.name.name a.name.quote) = true →
      isWord "PRECISION" (c.peek 0) = true

theorem Ident.loose_listLayout (names : List Ident) :
    (Ident.listLayout names).loose = (names.map fun i => i.layout.loose).sum := by
  simp [Ident.listLayout, Function.comp_def]

/-- A name that is the word `PRECISION` was this word where it was read. -/
theorem Ident.Read.isWord {i : Ident} (h : i.Read dq c c')
    (hw : Parse.isWord "PRECISION" (.identifier i.name i.quote) = true) :
    Parse.isWord "PRECISION" (c.peek 0) = true := by
  obtain ⟨kind, hk, hkind⟩ := h.legal
  obtain rfl : kind = c.peek 0 := Option.some.inj (hk.symm.trans h.word)
  rcases hkind with he | ⟨k, he, -, hq⟩
  · rwa [he]
  · -- The word is none of the keywords.
    rw [hq] at hw
    rw [he, Ident.text, hq] at hk
    have hfold : Text.foldAscii i.name = "PRECISION" := eq_of_beq hw
    have hnone : Keyword.ofText? i.name = none := by
      rw [Keyword.ofText?, hfold]
      decide
    rw [ofText?_of_keyword hk] at hnone
    cases hnone

namespace Parse

theorem spends_dottedName : Spends dq c dottedName fun x c' =>
    ObjectName.Read dq ⟨x.1 :: x.2⟩ c c' := by
  have hmore : ∀ d : Cursor, Spends dq d nameAfterDot fun o d' =>
      o.elim (d' = d) fun i => i.Legal dq ∧ i.layout.loose + d'.loose ≤ d.loose := fun d =>
    .symbolAt
      (fun _ => .nameAt
        (fun _ => .advance fun hd => spends_identifier.bind fun i d' _ hi =>
          .pure ⟨hi.legal, hi.cost.trans hd⟩)
        fun _ => .pure rfl)
      fun _ => .nameAt (fun _ => .pure rfl) fun _ => .pure rfl
  refine spends_identifier.bind fun first d _ hfirst =>
    (Spends.collect fun d' _ => hmore d').bind fun more c' _ h => .pure ⟨⟨by simp, ?_⟩, ?_, ?_⟩
  · refine List.forall_mem_cons.2 ⟨hfirst.legal, fun i hi => ?_⟩
    obtain ⟨_, _, hi, -⟩ := h.all i hi
    exact hi
  · intro r hr
    rw [ObjectName.layout, List.map_cons, solid_sepBy] at hr
    rw [← hr]
    exact (Piece.kind_word hfirst.word).symm
  · have hs := h.sum (w := fun i => i.layout.loose) fun _ _ _ h => h.2
    have hf := hfirst.cost
    simp only [ObjectName.loose_layout, List.map_cons, List.sum_cons]
    omega

theorem spends_objectName : Spends dq c objectName fun n c' => n.Read dq c c' :=
  spends_dottedName.bind fun _ _ _ h => .pure h

theorem spends_identifiersInParens : Spends dq c identifiersInParens fun names c' =>
    names ≠ [] ∧ Ident.ListRead dq names c c' := by
  refine .expectSymbol fun _ hd => (Spends.commaList fun _ _ => spends_identifier).bind
    fun names d _ h => .expectSymbol fun _ _ => .pure ⟨h.ne, fun i hi => ?_, ?_⟩
  · obtain ⟨_, _, hi⟩ := h.all i hi
    exact hi.legal
  · have hs := h.sum (w := fun i => i.layout.loose) fun _ _ _ h => h.cost
    rw [Ident.loose_listLayout]
    omega

theorem spends_optionalIdentifiers : Spends dq c optionalIdentifiers fun names c' =>
    Ident.ListRead dq names c c' :=
  .symbolAt (fun _ => spends_identifiersInParens.mono fun _ _ _ h => h.2)
    fun _ => .pure ⟨by simp, by simp [Ident.listLayout, Layout.commas, Layout.sepBy]⟩

theorem spends_oneOrMoreIdentifiers : Spends dq c oneOrMoreIdentifiers fun names c' =>
    names ≠ [] ∧ Ident.ListRead dq names c c' :=
  .symbolAt (fun _ => spends_identifiersInParens) fun _ =>
    spends_identifier.bind fun i _ _ hi => .pure ⟨by simp, by simpa using hi.legal, by
      simpa [Ident.listLayout, Layout.commas, Layout.sepBy] using hi.cost⟩

/-! ## Another name -/

theorem spends_optionalAlias : Spends dq c optionalAlias fun alias? c' =>
    Alias.Read dq alias? c c' ∧ ∀ a ∈ alias?, a.columns = [] := by
  refine .takeKeyword (fun _ hd => ?_) fun _ => .nameAt (fun _ => ?_) fun _ => ?_
  · refine spends_identifier.bind fun i d _ hi => .pure ⟨⟨?_, ?_, by simp, ?_⟩, ?_⟩
    · simpa [Alias.explicit, Alias.Legal] using hi.legal
    · have hc := hi.cost
      simp [Alias.layoutAfter, Alias.layout, Alias.explicit] at hc hd ⊢
      omega
    · simp [Alias.explicit]
    · simp [Alias.explicit]
  · refine spends_identifier.bind fun i d _ hi => .pure ⟨⟨?_, ?_, by simp, ?_⟩, ?_⟩
    · simpa [Alias.implicit, Alias.Legal] using hi.legal
    · simpa [Alias.layoutAfter, Alias.layout, Alias.implicit] using hi.cost
    · simpa [Alias.implicit] using hi.isWord
    · simp [Alias.implicit]
  · exact .pure ⟨⟨by simp, by simp [Alias.layoutAfter], fun _ => rfl, by simp⟩, by simp⟩

theorem spends_tableAlias : Spends dq c tableAlias fun alias? c' => Alias.Read dq alias? c c' := by
  refine spends_optionalAlias.bind fun alias? d _ h => ?_
  cases alias? with
  | none => exact .pure h.1
  | some a =>
    refine .symbolAt (fun _ => .nameAt (fun _ => ?_) fun _ => .pure h.1)
      fun _ => .nameAt (fun _ => .pure h.1) fun _ => .pure h.1
    refine spends_identifiersInParens.bind fun names d' _ hnames => .pure ⟨?_, ?_, by simp, ?_⟩
    · have ha := h.1.legal a rfl
      simpa [Alias.Legal] using ⟨ha.1, hnames.2.legal⟩
    · have ha := h.1.cost
      have hn := hnames.2.cost
      have hc := h.2 a rfl
      have hne := hnames.1
      simp [Alias.layoutAfter, Alias.layout, hc, hne] at ha hn ⊢
      omega
    · simpa using h.1.bare a rfl

end Parse

end SqlTree
