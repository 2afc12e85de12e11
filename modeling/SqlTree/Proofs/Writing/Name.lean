import Mathlib
import SqlTree.Proofs.Lexing.Apart
import SqlTree.Proofs.Reading.Name

/-! # Names keep their tokens apart

* `Ident.Legal.apart`, `ObjectName.Legal.apart`, `ColumnRef.Legal.apart`, `Alias.Legal.apart`.
* `ObjectName.Legal.spaced_dot`: a name stays apart from the point behind it, too.
-/

namespace SqlTree
set_option autoImplicit false

variable {dq : Bool}

open Layout

/-- A name is read as a word, so it ends wherever words end and in front of points. -/
theorem Ident.Legal.spaced {i : Ident} (h : i.Legal dq) {l : Layout} (hl : l.Spaced dq none)
    (hs : l.stops = true ∨ l.head? = some (.symbol .dot)) : (i.layout ++ l).Spaced dq none := by
  obtain ⟨kind, hw, hk⟩ := h
  rcases hs with hs | hd
  · refine Fits.word ⟨hs, hl⟩ hw fun s he => ?_
    rcases hk with rfl | ⟨k, rfl, -⟩ <;> simp at he
  · obtain ⟨l, rfl⟩ : ∃ l', l = .symbol .dot :: l' := by
      cases l with
      | nil => simp at hd
      | cons p l => exact ⟨l, by simpa using hd⟩
    have he : TokenKind.EndsBefore kind (some '.') := by
      rintro c ⟨rfl⟩
      refine ⟨by simp [Text.isWordPart, Text.isLetter, Text.isNumeral], by simp, ?_⟩
      rintro ⟨digits, rfl | rfl⟩ <;> simp at hk
    refine spaced_cons ⟨kind, hw, ?_⟩ hl
    have hf : firstChar? (.symbol .dot :: l) = some '.' := by
      simp [firstChar?, Piece.text, Symbol.text]
    rcases hk with rfl | ⟨k, rfl, -⟩
    · exact hf ▸ he
    · exact hf ▸ he

theorem Ident.Legal.apart {i : Ident} (h : i.Legal dq) : i.layout.Apart dq :=
  fun _ hl => h.spaced hl.spaced (.inl hl.stops)

theorem Ident.apart_listLayout {names : List Ident} (h : ∀ i ∈ names, i.Legal dq) :
    (Ident.listLayout names).Apart dq :=
  Apart.commas (by simpa using fun i hi => (h i hi).apart)

theorem spaced_names {l : Layout} (hl : l.Spaced dq none)
    (hs : l.stops = true ∨ l.head? = some (.symbol .dot)) :
    ∀ names : List Ident, names ≠ [] → (∀ i ∈ names, i.Legal dq) →
      (sepBy [.symbol .dot] (names.map Ident.layout) ++ l).Spaced dq none
  | [], hne, _ => absurd rfl hne
  | [i], _, h => (h i (by simp)).spaced hl hs
  | i :: j :: names, _, h => by
    have ih := spaced_names hl hs (j :: names) (by simp) fun k hk => h k (by simp [hk])
    rw [List.map_cons, List.map_cons, sepBy, List.append_assoc, List.append_assoc]
    exact (h i (by simp)).spaced ((spaced_symbol rfl).2 ih) (.inr rfl)
    simp

theorem ObjectName.Legal.spaced {n : ObjectName} (h : n.Legal dq) {l : Layout}
    (hl : l.Spaced dq none) (hs : l.stops = true ∨ l.head? = some (.symbol .dot)) :
    (n.layout ++ l).Spaced dq none :=
  spaced_names hl hs n.parts h.1 h.2

theorem ObjectName.Legal.apart {n : ObjectName} (h : n.Legal dq) : n.layout.Apart dq :=
  fun _ hl => h.spaced hl.spaced (.inl hl.stops)

/-- A name in front of a point and more behind it. -/
theorem ObjectName.Legal.apart_dot {n : ObjectName} (h : n.Legal dq) {m : Layout}
    (hm : m.Apart dq) : (n.layout ++ .symbol .dot :: m).Apart dq := by
  intro l hl
  rw [List.append_assoc]
  exact h.spaced ((spaced_symbol rfl).2 (hm l hl)) (.inr rfl)

theorem ColumnRef.Legal.apart {c : ColumnRef} (h : c.Legal dq) : c.layout.Apart dq := by
  obtain ⟨first, more, hn, -, hl⟩ := ColumnRef.exists_names h.1
  rw [hl]
  exact ObjectName.Legal.apart ⟨by simp, hn ▸ h.2⟩

theorem Alias.Legal.apart {a : Alias} (h : a.Legal dq) : a.layout.Apart dq := by
  have hn : (a.name.layout ++ onlyIf (!a.columns.isEmpty)
      (parens (Ident.listLayout a.columns))).Apart dq :=
    h.1.apart.append ((Ident.apart_listLayout h.2).parens.onlyIf _) (stops_onlyIf rfl _)
  rw [Alias.layout, List.append_assoc]
  exact Apart.behindIf _ hn fun hn => hn.gap.keyword _ rfl

theorem Alias.trails_layoutAfter {alias? : Option Alias} (h : ∀ a ∈ alias?, a.Legal dq) :
    (Alias.layoutAfter alias?).Trails dq := by
  cases alias? with
  | none => exact .nil
  | some a => exact (h a rfl).apart.trails

end SqlTree
