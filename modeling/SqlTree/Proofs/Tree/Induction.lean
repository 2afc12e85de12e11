import Mathlib
import SqlTree.Proofs.Tree.Part
import SqlTree.Query.Layout

/-! # Induction on the parts of a tree

* `Part.weight`: the size of a part. A part is larger than the parts right below it.
* `Part.induct`: what the parts below a part hand on to it holds of every part.
* `Part.layout`: the written form of a part.
-/

namespace SqlTree
set_option autoImplicit false

/-- The written form of a part. -/
def Part.layout : Part → Layout
  | .expr e => e.layout
  | .query q => q.layout
  | .body b => b.layout
  | .block s => s.layout
  | .item i => i.layout

/-! ## Sizes -/

/-- The size of a part. -/
noncomputable def Part.weight : Part → Nat
  | .expr e => sizeOf e
  | .query q => sizeOf q
  | .body b => sizeOf b
  | .block s => sizeOf s
  | .item i => sizeOf i

variable {c : Part}

theorem Part.weight_exprs {es : List Expr} (h : c ∈ Part.exprs es) : c.weight < sizeOf es := by
  obtain ⟨e, he, rfl⟩ := List.mem_map.1 h
  exact List.sizeOf_lt_of_mem he

theorem Part.weight_option {e? : Option Expr} (h : c ∈ Part.exprs e?.toList) :
    c.weight < sizeOf e? := by
  cases e? with
  | none => simp [Part.exprs] at h
  | some e =>
    obtain rfl : c = .expr e := by simpa [Part.exprs] using h
    simp [Part.weight]

theorem Part.weight_ofRows {rows : List (List Expr)} (h : c ∈ Part.ofRows rows) :
    c.weight < sizeOf rows := by
  obtain ⟨e, he, rfl⟩ := List.mem_map.1 h
  obtain ⟨row, hrow, he⟩ := List.mem_flatten.1 he
  exact (List.sizeOf_lt_of_mem he).trans (List.sizeOf_lt_of_mem hrow)

theorem SelectItem.weight_parts {items : List SelectItem} (h : c ∈ SelectItem.parts items) :
    c.weight < sizeOf items := by
  obtain ⟨⟨e, a⟩, he, rfl⟩ := List.mem_map.1 h
  have := List.sizeOf_lt_of_mem he
  simp only [SelectItem.mk.sizeOf_spec, Part.weight] at this ⊢
  omega

theorem Limit.weight_parts {l : Limit} (h : c ∈ l.parts) : c.weight < sizeOf l := by
  obtain ⟨rowCount, offset, all, null, groups⟩ := l
  simp only [Limit.parts, Part.exprs, List.map_append, List.mem_append] at h
  simp only [Limit.mk.sizeOf_spec]
  rcases h with (h | h) | h
  · have := Part.weight_option h
    omega
  · have := Part.weight_option h
    omega
  · cases groups with
    | none => simp at h
    | some es =>
      have := @Part.weight_exprs _ es h
      simp only [Option.some.sizeOf_spec]
      omega

theorem Join.weight_parts {j : Join} (h : c ∈ j.parts) : c.weight < sizeOf j := by
  obtain ⟨kind, item, constraint⟩ := j
  simp only [Join.mk.sizeOf_spec]
  rcases List.mem_cons.1 h with rfl | h
  · simp only [Part.weight]
    omega
  · cases constraint with
    | on e =>
      obtain rfl : c = .expr e := by simpa using h
      simp only [Part.weight, JoinConstraint.on.sizeOf_spec]
      omega
    | _ => simp at h

theorem Join.weight_flatMap {joins : List Join} (h : c ∈ joins.flatMap Join.parts) :
    c.weight < sizeOf joins := by
  obtain ⟨j, hj, hc⟩ := List.mem_flatMap.1 h
  exact (Join.weight_parts hc).trans (List.sizeOf_lt_of_mem hj)

theorem Expr.weight_children {e : Expr} (h : c ∈ e.children) : c.weight < sizeOf e := by
  cases e with
  | call f =>
    obtain ⟨name, distinct, arguments⟩ := f
    have := Part.weight_exprs h
    simp at this ⊢
    omega
  | array withWord elements =>
    have := Part.weight_exprs h
    simp
    omega
  | struct v =>
    obtain ⟨style, word, fields, arguments⟩ := v
    cases arguments with
    | none => simp [Expr.children, SelectItem.parts] at h
    | some items =>
      have := SelectItem.weight_parts h
      simp at this ⊢
      omega
  | inList tested negated items =>
    rcases List.mem_cons.1 h with rfl | h
    · simp [Part.weight]
      omega
    · have := Part.weight_exprs h
      simp
      omega
  | caseWhen operand arms otherwise =>
    simp only [Expr.children, List.mem_append, List.mem_flatMap] at h
    simp only [Expr.caseWhen.sizeOf_spec]
    rcases h with (h | ⟨⟨condition, result⟩, ha, h⟩) | h
    · have := Part.weight_option h
      omega
    · have := List.sizeOf_lt_of_mem ha
      simp at h this
      rcases h with rfl | rfl <;> simp only [Part.weight] <;> omega
    · have := Part.weight_option h
      omega
  | tuple items =>
    have := Part.weight_exprs h
    simp
    omega
  | wildcard table except replace =>
    cases replace with
    | none => simp [Expr.children, SelectItem.parts] at h
    | some items =>
      have := SelectItem.weight_parts h
      simp at this ⊢
      omega
  | binary left op right =>
    simp [Expr.children] at h
    rcases h with rfl | rfl <;> (simp only [Part.weight, Expr.binary.sizeOf_spec]; omega)
  | between tested negated low high =>
    simp [Expr.children] at h
    rcases h with rfl | rfl | rfl <;> (simp only [Part.weight, Expr.between.sizeOf_spec]; omega)
  | inQuery tested negated q =>
    simp [Expr.children] at h
    rcases h with rfl | rfl <;> (simp only [Part.weight, Expr.inQuery.sizeOf_spec]; omega)
  | like tested negated caseless pattern =>
    simp [Expr.children] at h
    rcases h with rfl | rfl <;> (simp only [Part.weight, Expr.like.sizeOf_spec]; omega)
  | literal _ => simp [Expr.children] at h
  | column _ => simp [Expr.children] at h
  | placeholder _ => simp [Expr.children] at h
  | unary op operand =>
    obtain rfl : c = .expr operand := by simpa [Expr.children] using h
    simp [Part.weight]
  | subquery q =>
    obtain rfl : c = .query q := by simpa [Expr.children] using h
    simp [Part.weight]
  | existsQuery q =>
    obtain rfl : c = .query q := by simpa [Expr.children] using h
    simp [Part.weight]
  | isNull tested negated =>
    obtain rfl : c = .expr tested := by simpa [Expr.children] using h
    simp [Part.weight]
  | cast style operand type =>
    obtain rfl : c = .expr operand := by simpa [Expr.children] using h
    simp [Part.weight]
    omega
  | nested inner =>
    obtain rfl : c = .expr inner := by simpa [Expr.children] using h
    simp [Part.weight]

theorem Query.weight_children {q : Query} (h : c ∈ q.children) : c.weight < sizeOf q := by
  obtain ⟨ctes, body, orderBy, limitBy, limit, offset⟩ := q
  simp only [Query.mk.sizeOf_spec]
  simp only [Query.children, List.mem_append] at h
  rcases h with ((((h | h) | h) | h) | h) | h
  · cases ctes with
    | none => simp at h
    | some w =>
      obtain ⟨recursive, ctes⟩ := w
      obtain ⟨⟨name, columns, q⟩, hc, rfl⟩ := List.mem_map.1 h
      have := List.sizeOf_lt_of_mem hc
      simp [Part.weight] at this ⊢
      omega
  · obtain rfl : c = .body body := by simpa using h
    simp only [Part.weight]
    omega
  · obtain ⟨⟨e, direction, nulls⟩, ho, rfl⟩ := List.mem_map.1 h
    have := List.sizeOf_lt_of_mem ho
    simp [Part.weight] at this ⊢
    omega
  · cases limitBy with
    | none => simp at h
    | some l =>
      have := Limit.weight_parts h
      simp
      omega
  · cases limit with
    | none => simp at h
    | some l =>
      have := Limit.weight_parts h
      simp
      omega
  · cases offset with
    | none => simp at h
    | some o =>
      obtain ⟨count, word⟩ := o
      obtain rfl : c = .expr count := by simpa using h
      simp [Part.weight]
      omega

theorem SetExpr.weight_children {b : SetExpr} (h : c ∈ b.children) : c.weight < sizeOf b := by
  cases b with
  | select s =>
    obtain rfl : c = .block s := by simpa [SetExpr.children] using h
    simp [Part.weight]
  | parens q =>
    obtain rfl : c = .query q := by simpa [SetExpr.children] using h
    simp [Part.weight]
  | combine op quantifier left right =>
    simp [SetExpr.children] at h
    rcases h with rfl | rfl <;> (simp only [Part.weight, SetExpr.combine.sizeOf_spec]; omega)
  | values rows =>
    have := Part.weight_ofRows h
    simp
    omega

theorem Select.weight_children {s : Select} (h : c ∈ s.children) : c.weight < sizeOf s := by
  obtain ⟨distinct, items, source, joins, condition, groupBy, having, qualify⟩ := s
  simp only [Select.mk.sizeOf_spec]
  simp only [Select.children, Part.exprs, List.map_append, List.mem_append] at h
  rcases h with ((h | h) | h) | ((h | h) | h) | h
  · have := SelectItem.weight_parts h
    omega
  · cases source with
    | none => simp at h
    | some i =>
      obtain rfl : c = .item i := by simpa using h
      simp [Part.weight]
      omega
  · have := Join.weight_flatMap h
    omega
  · have := Part.weight_option h
    omega
  · have := Part.weight_exprs h
    omega
  · have := Part.weight_option h
    omega
  · have := Part.weight_option h
    omega

theorem Relation.weight_parts {r : Relation} (h : c ∈ r.parts) : c.weight < sizeOf r := by
  cases r with
  | table name => simp [Relation.parts] at h
  | query q =>
    obtain rfl : c = .query q := by simpa [Relation.parts] using h
    simp [Part.weight]
  | lateral q =>
    obtain rfl : c = .query q := by simpa [Relation.parts] using h
    simp [Part.weight]
  | function lead f =>
    obtain ⟨name, distinct, arguments⟩ := f
    have := Part.weight_exprs h
    simp at this ⊢
    omega
  | joined item joins =>
    rcases List.mem_cons.1 h with rfl | h
    · simp [Part.weight]
      omega
    · have := Join.weight_flatMap h
      simp
      omega
  | values rows =>
    have := Part.weight_ofRows h
    simp
    omega

theorem FromItem.weight_children {i : FromItem} (h : c ∈ i.children) : c.weight < sizeOf i := by
  obtain ⟨relation, alias?, pivot, unpivot⟩ := i
  simp only [FromItem.mk.sizeOf_spec]
  simp only [FromItem.children, List.mem_append] at h
  rcases h with (h | h) | h
  · have := Relation.weight_parts h
    omega
  · cases pivot with
    | none => simp at h
    | some p =>
      obtain ⟨aggregates, columns, items, alias?⟩ := p
      simp only [Option.elim, SelectItem.parts, List.map_append, List.mem_append] at h
      rcases h with h | h
      · have := SelectItem.weight_parts h
        simp
        omega
      · have := SelectItem.weight_parts h
        simp
        omega
  · cases unpivot with
    | none => simp at h
    | some u =>
      obtain ⟨includeNulls, valueColumns, nameColumns, items, alias?⟩ := u
      have := SelectItem.weight_parts h
      simp at this ⊢
      omega

/-! ## Induction -/

namespace Part

theorem weight_children {p : Part} (h : c ∈ p.children) : c.weight < p.weight := by
  cases p with
  | expr e => exact Expr.weight_children h
  | query q => exact Query.weight_children h
  | body b => exact SetExpr.weight_children h
  | block s => exact Select.weight_children h
  | item i => exact FromItem.weight_children h

/-- What the parts right below a part hand on to it holds of every part. -/
theorem induct {P : Part → Prop} (step : ∀ p, (∀ c ∈ p.children, P c) → P p) (p : Part) : P p :=
  step p fun c _ => induct step c
termination_by p.weight
decreasing_by exact weight_children ‹_›

/-- What the parts right below a part hand on to it, as far as a law is obeyed. -/
theorem Obeys.induct {law P : Part → Prop}
    (step : ∀ p, p.Obeys law → (∀ c ∈ p.children, P c) → P p) {p : Part} (h : p.Obeys law) : P p :=
  Part.induct (P := fun p => p.Obeys law → P p)
    (fun p ih h => step p h fun c hc => ih c hc (h.child hc)) p h

/-- Every part of some trees satisfies a law. -/
def AllObey (law : Part → Prop) (ps : List Part) : Prop :=
  ∀ p ∈ ps, p.Obeys law

@[simp]
theorem allObey_nil {law : Part → Prop} : AllObey law [] := by simp [AllObey]

/-- A tree that is written out is checked part by part. -/
@[simp]
theorem allObey_cons {law : Part → Prop} {p : Part} {ps : List Part} :
    AllObey law (p :: ps) ↔ (law p ∧ AllObey law p.children) ∧ AllObey law ps := by
  simp only [AllObey, List.forall_mem_cons]
  rw [obeys_iff]

theorem obeys_iff_allObey {law : Part → Prop} {p : Part} : p.Obeys law ↔ AllObey law [p] := by
  simp [AllObey]

end Part

end SqlTree
