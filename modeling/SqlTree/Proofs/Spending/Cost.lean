import Mathlib
import SqlTree.Proofs.Parsing.DataType
import SqlTree.Proofs.Parsing.Formed
import SqlTree.Proofs.Tree.Induction

/-! # What the parts of a tree take

* `Part.Kept d`: the written form of a part says all that the part holds, but that a cast may need
  parentheses.
* `Part.lapses d`: in how many of the parts within a part this is not so.
* `Part.cost d`: the loose characters in the written form of a part, and its lapses. A part that is
  read takes as many loose characters from the tokens.
* `Part.Read d p c c'`: what holds of a part that is read between two cursors.
-/

namespace SqlTree
set_option autoImplicit false

open Parse

variable {d : Dialect} {c c' : Cursor}

/-! ## Lapses -/

/-- The written form of an expression says all that the expression holds, apart from the parts in it
and from parentheses around the operand of a cast. -/
def Expr.Kept (dq : Bool) : Expr → Prop
  | .cast _ _ type => type.Faithful dq
  | e => e.Faithful dq

open Classical in
/-- One if a bare alias of an item is read with the type in front of it. -/
noncomputable def SelectItem.lapse (i : SelectItem) : Nat :=
  if i.Faithful then 0 else 1

theorem SelectItem.lapse_le {i : SelectItem} {n : Nat} (h : n = 0 → i.Faithful) : i.lapse ≤ n := by
  rw [SelectItem.lapse]
  split
  · exact Nat.zero_le n
  · next hf => exact Nat.one_le_iff_ne_zero.2 fun hn => hf (h hn)

theorem SelectItem.faithful_of_lapse {items : List SelectItem}
    (h : (items.map SelectItem.lapse).sum = 0) : ∀ i ∈ items, i.Faithful := by
  intro i hi
  by_contra hf
  have hone : i.lapse = 1 := if_neg hf
  have hzero := List.sum_eq_zero_iff.1 h _ (List.mem_map_of_mem hi)
  omega

namespace Part

/-- The written form of a part says all that the part holds, apart from the parts in it and from
parentheses around the operand of a cast. -/
def Kept (d : Dialect) : Part → Prop
  | .expr e => e.Kept d.dq
  | p => p.Faithful d

open Classical in
/-- One if the written form of a part does not say all that the part holds. -/
noncomputable def lapse (d : Dialect) (p : Part) : Nat :=
  if p.Kept d then 0 else 1

/-- The number of the parts within a part whose written form does not say all that they hold. -/
noncomputable def lapses (d : Dialect) (p : Part) : Nat :=
  p.lapse d + (p.children.attach.map fun c => c.1.lapses d).sum
termination_by p.weight
decreasing_by exact weight_children c.2

theorem lapses_eq (p : Part) : p.lapses d = p.lapse d + (p.children.map (lapses d)).sum := by
  rw [lapses, List.attach_map_val]

theorem lapse_le {p : Part} {n : Nat} (h : n = 0 → p.Kept d) : p.lapse d ≤ n := by
  rw [lapse]
  split
  · exact Nat.zero_le n
  · next hk => exact Nat.one_le_iff_ne_zero.2 fun hn => hk (h hn)

theorem kept_of_lapse {p : Part} (h : p.lapse d = 0) : p.Kept d := by
  by_contra hk
  rw [lapse, if_neg hk] at h
  cases h

/-- Without lapses all parts within a part are kept. -/
theorem kept_of_lapses {p : Part} : p.lapses d = 0 → p.Obeys (Kept d) := by
  refine Part.induct (P := fun p => p.lapses d = 0 → p.Obeys (Kept d)) (fun p ih h => ?_) p
  rw [lapses_eq, Nat.add_eq_zero_iff, List.sum_eq_zero_iff, List.forall_mem_map] at h
  exact obeys_iff.2 ⟨kept_of_lapse h.1, fun c hc => ih c hc (h.2 c hc)⟩

/-! ## Costs -/

/-- The loose characters in the written form of a part, and its lapses. -/
noncomputable def cost (d : Dialect) (p : Part) : Nat :=
  p.layout.loose + p.lapses d

/-- What some parts cost together. -/
noncomputable def costs (d : Dialect) (ps : List Part) : Nat :=
  (ps.map (cost d)).sum

/-- The loose characters in the written forms of some parts. -/
def looses (ps : List Part) : Nat :=
  (ps.map fun p => p.layout.loose).sum

@[simp]
theorem costs_nil : costs d [] = 0 := rfl

@[simp]
theorem costs_cons (p : Part) (ps : List Part) : costs d (p :: ps) = p.cost d + costs d ps := by
  simp [costs]

@[simp]
theorem costs_append (ps qs : List Part) : costs d (ps ++ qs) = costs d ps + costs d qs := by
  simp [costs]

@[simp]
theorem looses_nil : looses [] = 0 := rfl

@[simp]
theorem looses_cons (p : Part) (ps : List Part) :
    looses (p :: ps) = p.layout.loose + looses ps := by
  simp [looses]

@[simp]
theorem looses_append (ps qs : List Part) : looses (ps ++ qs) = looses ps + looses qs := by
  simp [looses]

@[simp]
theorem looses_exprs (es : List Expr) :
    looses (exprs es) = (es.map fun e => e.layout.loose).sum := by
  simp [looses, exprs, Function.comp_def, layout]

/-- The lapses in some parts. -/
noncomputable def lapsesIn (d : Dialect) (ps : List Part) : Nat :=
  (ps.map (lapses d)).sum

@[simp]
theorem lapsesIn_nil : lapsesIn d [] = 0 := rfl

@[simp]
theorem lapsesIn_cons (p : Part) (ps : List Part) :
    lapsesIn d (p :: ps) = p.lapses d + lapsesIn d ps := by
  simp [lapsesIn]

@[simp]
theorem lapsesIn_append (ps qs : List Part) :
    lapsesIn d (ps ++ qs) = lapsesIn d ps + lapsesIn d qs := by
  simp [lapsesIn]

theorem costs_eq (ps : List Part) : costs d ps = looses ps + lapsesIn d ps :=
  List.sum_map_add

/-- A part costs what its own pieces and the parts in it cost, and its own lapse. -/
theorem cost_le {p : Part} {m n : Nat} (hl : p.layout.loose ≤ m + looses p.children)
    (hk : n = 0 → p.Kept d) : p.cost d ≤ m + n + costs d p.children := by
  have hlapse := lapse_le hk
  rw [cost, lapses_eq, costs_eq, lapsesIn]
  omega

end Part

/-- What an item costs with its alias, and one more if the alias is read with a type. -/
noncomputable def SelectItem.cost (d : Dialect) (i : SelectItem) : Nat :=
  (Part.expr i.expr).cost d + (Alias.layoutAfter i.alias?).loose + i.lapse

theorem SelectItem.loose_layout (i : SelectItem) :
    i.layout.loose = i.expr.layout.loose + (Alias.layoutAfter i.alias?).loose := by
  obtain ⟨expr, alias?⟩ := i
  rw [SelectItem.layout, Layout.loose_append]

/-- The loose characters of the aliases of some items. -/
def SelectItem.aliasLoose (items : List SelectItem) : Nat :=
  (items.map fun i => (Alias.layoutAfter i.alias?).loose).sum

theorem SelectItem.loose_layouts (items : List SelectItem) :
    (items.map fun i => i.layout.loose).sum =
      aliasLoose items + Part.looses (SelectItem.parts items) := by
  simp only [loose_layout, List.sum_map_add, aliasLoose, Part.looses, parts, List.map_map,
    Function.comp_def, Part.layout]
  exact Nat.add_comm _ _

theorem SelectItem.costs_eq (items : List SelectItem) :
    (items.map (cost d)).sum = aliasLoose items + (items.map lapse).sum +
      Part.costs d (SelectItem.parts items) := by
  have h : (items.map (cost d)).sum = Part.costs d (SelectItem.parts items) + aliasLoose items +
      (items.map lapse).sum := by
    rw [show cost d = fun i => (Part.expr i.expr).cost d + (Alias.layoutAfter i.alias?).loose +
      i.lapse from rfl, List.sum_map_add, List.sum_map_add]
    simp [Part.costs, parts, aliasLoose, Function.comp_def]
  omega

theorem SelectItem.sum_cost (items : List SelectItem) :
    (items.map (cost d)).sum = (items.map fun i => i.layout.loose).sum + (items.map lapse).sum +
      Part.lapsesIn d (SelectItem.parts items) := by
  rw [costs_eq, loose_layouts, Part.costs_eq]
  omega

/-! ## Parts that are read -/

namespace Part

/-- A part and all parts in it are what the grammar makes of them, as far as they have its form. -/
abbrev Fine (d : Dialect) (p : Part) : Prop :=
  p.Obeys fun q => q.AllFormed d → q.Legal d

theorem Fine.legal {p : Part} (h : p.Fine d) (hf : p.AllFormed d) : p.Obeys (Legal d) :=
  fun q hq => h q hq (hf.within hq)

/-- What holds of a part that is read between two cursors. -/
structure Read (d : Dialect) (p : Part) (c c' : Cursor) : Prop where
  fine : p.Fine d
  cost : p.cost d + c'.loose ≤ c.loose

theorem Read.behind {p : Part} {e : Cursor} (h : p.Read d e c') (he : e.loose ≤ c.loose) :
    p.Read d c c' :=
  ⟨h.fine, h.cost.trans he⟩

/-- A part that is put together of others. -/
theorem Read.node {p : Part} {m n : Nat} (own : p.AllFormed d → p.Legal d)
    (children : ∀ q ∈ p.children, q.Fine d) (hl : p.layout.loose ≤ m + looses p.children)
    (hk : n = 0 → p.Kept d) (h : m + n + costs d p.children + c'.loose ≤ c.loose) :
    p.Read d c c' :=
  ⟨obeys_iff.2 ⟨own, children⟩, by have := cost_le hl hk; omega⟩

/-- A part that is read with all that is in it. -/
theorem Read.whole {p : Part} {n : Nat} (own : p.AllFormed d → p.Legal d)
    (children : ∀ q ∈ p.children, q.Fine d) (hk : n = 0 → p.Kept d)
    (h : p.layout.loose + n + lapsesIn d p.children + c'.loose ≤ c.loose) : p.Read d c c' := by
  refine ⟨obeys_iff.2 ⟨own, children⟩, ?_⟩
  have hlapse := lapse_le hk
  rw [Part.cost, lapses_eq]
  rw [lapsesIn] at h
  omega

end Part

end SqlTree
