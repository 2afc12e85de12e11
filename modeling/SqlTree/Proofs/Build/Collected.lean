import Mathlib
import SqlTree.Build.Delete
import SqlTree.Build.Insert
import SqlTree.Build.Select
import SqlTree.Build.Update

/-! # What drafts have collected

A draft is built by calls, one after another, and takes only some kinds of calls in each state.
What one call adds to a part of a draft, all calls add in their order.

* `run_keeps`, `run_part`: from one call to all of them.
* `SelectDraft.items_run`, `InsertDraft.rows_run`, `UpdateDraft.run_eq`, …: the parts of a draft
  told by the calls alone.
-/

namespace SqlTree
set_option autoImplicit false

/-! ## From one call to all calls -/

section Runs

variable {σ κ φ α : Type} {f : σ → κ → Option σ} {calls : List κ} {s s' : σ}

/-- What holds of a draft and the calls so far, and is kept by one call more, holds after all. -/
theorem run_keeps {I : List κ → σ → Prop}
    (hf : ∀ l s c s', I l s → f s c = some s' → I (l ++ [c]) s') {l : List κ} (hs : I l s)
    (h : calls.foldlM f s = some s') : I (l ++ calls) s' := by
  induction calls generalizing s l with
  | nil =>
    obtain rfl : s = s' := by simpa using h
    rwa [List.append_nil]
  | cons c calls ih =>
    rw [List.foldlM_cons, Option.bind_eq_bind, Option.bind_eq_some_iff] at h
    obtain ⟨t, hc, ht⟩ := h
    rw [List.append_cons]
    exact ih (hf l s c t hs hc) ht

/-- What a call does to a part of a draft, all calls do to it one after another. -/
theorem run_part {p : σ → φ} {g : φ → κ → φ} (hf : ∀ s c s', f s c = some s' → p s' = g (p s) c)
    (h : calls.foldlM f s = some s') : p s' = calls.foldl g (p s) := by
  induction calls generalizing s with
  | nil =>
    obtain rfl : s = s' := by simpa using h
    rfl
  | cons c calls ih =>
    rw [List.foldlM_cons, Option.bind_eq_bind, Option.bind_eq_some_iff] at h
    obtain ⟨t, hc, ht⟩ := h
    rw [List.foldl_cons, ih ht, hf s c t hc]

/-- A part that calls add to holds all that they add, in their order. -/
theorem run_added {p : σ → List α} {g : κ → List α}
    (hf : ∀ s c s', f s c = some s' → p s' = p s ++ g c) (h : calls.foldlM f s = some s') :
    p s' = p s ++ calls.flatMap g := by
  rw [run_part (g := fun l c => l ++ g c) hf h]
  generalize p s = l
  clear h
  induction calls generalizing l with
  | nil => simp
  | cons c calls ih => rw [List.foldl_cons, ih, List.flatMap_cons, List.append_assoc]

/-- A part that calls replace holds what the last of them gives. -/
theorem run_last {p : σ → Option α} {g : κ → Option α}
    (hf : ∀ s c s', f s c = some s' → p s' = (g c).or (p s)) (h : calls.foldlM f s = some s') :
    p s' = (calls.filterMap g).getLast?.or (p s) := by
  rw [run_part (g := fun o c => (g c).or o) hf h]
  generalize p s = o
  clear h
  induction calls generalizing o with
  | nil => simp
  | cons c calls ih =>
    rw [List.foldl_cons, ih, List.filterMap_cons]
    cases g c with
    | none => rfl
    | some a =>
      dsimp only [Option.some_or]
      rw [List.getLast?_cons]
      cases (calls.filterMap g).getLast? <;> rfl

/-- A part that some calls change is what the values in these calls make of it, in their order. -/
theorem run_gathered {p : σ → φ} {g : κ → Option α} {k : φ → α → φ}
    (hf : ∀ s c s', f s c = some s' → p s' = (g c).elim (p s) (k (p s)))
    (h : calls.foldlM f s = some s') : p s' = (calls.filterMap g).foldl k (p s) := by
  rw [run_part (g := fun b c => (g c).elim b (k b)) hf h, List.foldl_filterMap]
  congr 1
  funext b c
  cases g c <;> rfl

end Runs

/-! ## Queries -/

namespace SelectDraft

/-- The columns that a call adds. -/
def Call.items : Call → List SelectItem
  | .item expr => [.bare expr]
  | .itemAs expr name => [.named expr name]
  | .columns names => names.map fun n => .bare (.columnNamed n)
  | .allColumns => [.bare .star]
  | _ => []

variable {d d' : SelectDraft} {calls : List Call}

theorem step?_eq_some {c : Call} (h : d.step? c = some d') :
    d.offers c.kind = true ∧ d' = d.apply c := by
  unfold step? at h
  split at h
  · next ho => exact ⟨ho, (Option.some.inj h).symm⟩
  · cases h

theorem items_step {c : Call} (h : d.step? c = some d') :
    d'.items.getD [] = d.items.getD [] ++ c.items := by
  obtain ⟨ho, rfl⟩ := step?_eq_some h
  have hfirst : d.items.isNone = true → d.items.getD [] = [] := by
    cases d.items <;> simp
  -- Columns in a list or by a star are the first ones there are.
  cases c with
  | «columns» names => simp [hfirst ho, apply, Call.items]
  | allColumns => simp [hfirst ho, apply, Call.items]
  | _ => simp [apply, addItem, addJoin, Call.items]

/-- The columns of a draft are those of all calls. -/
theorem items_run (h : run? {} calls = some d) : d.items.getD [] = calls.flatMap Call.items := by
  have hitems := run_added (f := step?) (p := fun d => d.items.getD []) (fun _ _ _ => items_step) h
  simpa using hitems

end SelectDraft

/-! ## `INSERT` statements -/

namespace InsertDraft

/-- The rows that a call adds. -/
def Call.rows : Call → List (List Expr)
  | .values row => [row]
  | .valuesMany rows => rows
  | .andValues row => [row]
  | _ => []

/-- What a call says about rows that are there already. -/
def Call.onConflict? : Call → Option OnConflict
  | .onConflictDoNothing names =>
    some { columns := Ident.plainList names, action := .doNothing }
  | .onConflictDoUpdate names assignments =>
    some
      { columns := Ident.plainList names,
        action := .doUpdate (assignments.map fun (column, value) =>
          { column := .plain column, value }) }
  | _ => none

variable {d d' : InsertDraft} {calls : List Call}

theorem step?_eq_some {c : Call} (h : d.step? c = some d') :
    d.offers c.kind = true ∧ d' = d.apply c := by
  unfold step? at h
  split at h
  · next ho => exact ⟨ho, (Option.some.inj h).symm⟩
  · cases h

/-- The rows so far are all that calls have added, as long as values are inserted or nothing is. -/
def RowsAre (d : InsertDraft) (rows : List (List Expr)) : Prop :=
  match d.source with
  | none => rows = []
  | some (.values rows') => rows' = rows
  | _ => True

theorem rowsAre_step {c : Call} {rows : List (List Expr)} (h : d.step? c = some d')
    (hr : d.RowsAre rows) : d'.RowsAre (rows ++ c.rows) := by
  obtain ⟨ho, rfl⟩ := step?_eq_some h
  obtain ⟨table, columns, source, onConflict⟩ := d
  cases c with
  | values row =>
    obtain rfl : source = none := by simpa [offers, Call.kind] using (Bool.and_eq_true_iff.1 ho).2
    obtain rfl : rows = [] := hr
    rfl
  | valuesMany rows =>
    obtain rfl : source = none := by simpa [offers, Call.kind] using (Bool.and_eq_true_iff.1 ho).2
    obtain rfl : _ = [] := hr
    rfl
  | query q => trivial
  | defaultValues => trivial
  | andValues row =>
    cases source with
    | none => simp [offers, Call.kind] at ho
    | some source =>
      cases source with
      | values rows' =>
        obtain rfl : rows' = rows := hr
        rfl
      | _ => trivial
  | _ => simpa [Call.rows, RowsAre, apply] using hr

/-- The rows of a draft are those of all calls, if values are inserted. -/
theorem rows_run {rows : List (List Expr)} (h : run? {} calls = some d)
    (hs : d.source = some (.values rows)) : rows = calls.flatMap Call.rows := by
  have hr := run_keeps (f := step?) (I := fun l d => d.RowsAre (l.flatMap Call.rows)) (l := [])
    (s := {}) (fun l d c d' hr hc => by
      rw [List.flatMap_append, List.flatMap_singleton]
      exact rowsAre_step hc hr) rfl h
  rwa [List.nil_append, RowsAre, hs] at hr

/-- What happens to rows that are there already is what the last call about them says. -/
theorem onConflict_run (h : run? {} calls = some d) :
    d.onConflict = (calls.filterMap Call.onConflict?).getLast? := by
  have hlast := run_last (f := step?) (p := InsertDraft.onConflict) (g := Call.onConflict?)
    (fun d c d' hstep => by
      obtain ⟨-, rfl⟩ := step?_eq_some hstep
      cases c <;> rfl) h
  simpa using hlast

end InsertDraft

/-! ## `UPDATE` statements -/

namespace UpdateDraft

/-- The table that a call names. -/
def Call.table? : Call → Option ObjectName
  | .table name => some (ObjectName.ofText name)
  | _ => none

/-- The other name that a call gives to the table. -/
def Call.alias? : Call → Option Alias
  | .named name => some (.implicit (.plain name))
  | _ => none

/-- The values that a call sets. -/
def Call.assignments : Call → List Assignment
  | .set column value => [{ column := .plain column, value }]
  | _ => []

/-- The source of rows that a call gives. -/
def Call.source? : Call → Option FromItem
  | .source item => some item
  | _ => none

/-- What a call joins to the source. -/
def Call.joins : Call → List Join
  | .join j => [j]
  | _ => []

/-- The condition that a call gives. -/
def Call.condition? : Call → Option Expr
  | .condition expr => some expr
  | _ => none

variable {d d' : UpdateDraft} {calls : List Call}

theorem step?_eq_some {c : Call} (h : d.step? c = some d') :
    d.offers c.kind = true ∧ d' = d.apply c := by
  unfold step? at h
  split at h
  · next ho => exact ⟨ho, (Option.some.inj h).symm⟩
  · cases h

/-- A draft is what its calls say: the last table, name and source, all assignments and joins in
their order, and all conditions together. -/
theorem run_eq (h : run? {} calls = some d) :
    d = { table := (calls.filterMap Call.table?).getLast?
          alias? := (calls.filterMap Call.alias?).getLast?
          assignments := calls.flatMap Call.assignments
          source := (calls.filterMap Call.source?).getLast?
          joins := calls.flatMap Call.joins
          condition := (calls.filterMap Call.condition?).foldl Expr.conjoin none } := by
  have hstep : ∀ (d : UpdateDraft) (c : Call) (d' : UpdateDraft), d.step? c = some d' →
      d' = d.apply c := fun _ _ _ h => (step?_eq_some h).2
  have htable := run_last (f := step?) (p := table) (g := Call.table?)
    (fun d c d' h => by rw [hstep d c d' h]; cases c <;> rfl) h
  have halias := run_last (f := step?) (p := UpdateDraft.alias?) (g := Call.alias?)
    (fun d c d' h => by rw [hstep d c d' h]; cases c <;> rfl) h
  have hsets := run_added (f := step?) (p := assignments) (g := Call.assignments)
    (fun d c d' h => by rw [hstep d c d' h]; cases c <;> simp [apply, Call.assignments]) h
  have hsource := run_last (f := step?) (p := source) (g := Call.source?)
    (fun d c d' h => by rw [hstep d c d' h]; cases c <;> rfl) h
  have hjoins := run_added (f := step?) (p := joins) (g := Call.joins)
    (fun d c d' h => by rw [hstep d c d' h]; cases c <;> simp [apply, Call.joins]) h
  have hcondition := run_gathered (f := step?) (p := condition) (g := Call.condition?)
    (k := Expr.conjoin) (fun d c d' h => by rw [hstep d c d' h]; cases c <;> rfl) h
  obtain ⟨table, alias?, assignments, source, joins, condition⟩ := d
  simp only [Option.or_none, List.nil_append] at htable halias hsets hsource hjoins hcondition
  rw [htable, halias, hsets, hsource, hjoins, hcondition]

end UpdateDraft

end SqlTree
