import Mathlib
import SqlTree.Proofs.Build.Collected

/-! # Statements with nothing left out

The states of a draft stand for the clauses that are there already: a query cannot be finished
before there are columns, nor an `INSERT` statement before there is something to insert. A list of
columns, of rows or of assignments that a call gives may be empty though, and the state is reached
all the same.

* `Statement.Filled`: every clause that a statement needs has something in it.
* `SelectDraft.filled_iff`, `InsertDraft.filled_iff`: which calls lead to such a statement;
  `SelectDraft.filled` and `InsertDraft.filled` where no list is empty.
* `UpdateDraft.filled`, `DeleteDraft.filled`: here all calls do.
-/

namespace SqlTree
set_option autoImplicit false

/-- Values that are inserted have a row. -/
def InsertSource.Filled : InsertSource → Prop
  | .values rows => rows ≠ []
  | _ => True

/-- Rows that are there already are changed by an assignment, if they are changed. -/
def OnConflict.Filled (c : OnConflict) : Prop :=
  c.action ≠ .doUpdate []

/-- A query has columns, an `INSERT` statement rows and what is set on a conflict, an `UPDATE`
statement assignments, and a `DELETE` statement a condition. -/
def Statement.Filled : Statement → Prop
  | .query q => ∀ s, q.body = .select s → s.items ≠ []
  | .insert i => i.source.Filled ∧ ∀ c ∈ i.onConflict, c.Filled
  | .update u => u.assignments ≠ []
  | .delete s => s.condition ≠ none
  | _ => True

/-! ## Queries -/

namespace SelectDraft

variable {d : SelectDraft} {calls : List Call} {s : Statement}

/-- A query has a column exactly if a call has given one. -/
theorem filled_iff (h : run? {} calls = some d) (hs : d.statement? = some s) :
    s.Filled ↔ ∃ c ∈ calls, c.items ≠ [] := by
  have hitems := items_run h
  unfold statement? query? at hs
  cases hd : d.items with
  | none => simp [hd] at hs
  | some items =>
    rw [hd, Option.getD_some] at hitems
    rw [hd] at hs
    obtain rfl := Option.some.inj hs
    have hblock : (∀ b : Select, SetExpr.select (d.block items) = .select b → b.items ≠ []) ↔
        items ≠ [] := by
      simp [block]
    rw [Statement.Filled, hblock, hitems, Ne, List.flatMap_eq_nil_iff]
    push Not
    rfl

/-- Whether a call gives columns, perhaps none in number. -/
def Call.givesItems (c : Call) : Bool :=
  c.kind ∈ [.item, .itemAs, .columns, .allColumns]

theorem Call.items_ne_nil {c : Call} (h : c.givesItems = true) (hc : c ≠ .columns []) :
    c.items ≠ [] := by
  cases c <;> simp [givesItems, kind, items] at h hc ⊢
  exact hc

theorem isSome_items_step {d' : SelectDraft} {c : Call} (h : d.step? c = some d') :
    d'.items.isSome = (d.items.isSome || c.givesItems) := by
  obtain ⟨-, rfl⟩ := step?_eq_some h
  cases c <;> simp [apply, addItem, addJoin, Call.givesItems, Call.kind]

/-- A draft has columns only if a call has given some. -/
theorem exists_givesItems (h : run? {} calls = some d) (hd : d.items.isSome = true) :
    ∃ c ∈ calls, c.givesItems = true := by
  refine run_keeps (f := step?) (s := {}) (l := [])
    (I := fun l d => d.items.isSome = true → ∃ c ∈ l, c.givesItems = true)
    (fun l d c d' hl hstep hd' => ?_) (by simp) h hd
  rw [isSome_items_step hstep, Bool.or_eq_true] at hd'
  rcases hd' with hd | hc
  · obtain ⟨c', hm, hg⟩ := hl hd
    exact ⟨c', List.mem_append_left _ hm, hg⟩
  · exact ⟨c, by simp, hc⟩

/-- Where no call gives an empty list of columns, a query has a column. -/
theorem filled (h : run? {} calls = some d) (hs : d.statement? = some s)
    (hc : .columns [] ∉ calls) : s.Filled := by
  have hsome : d.items.isSome = true := by
    unfold statement? query? at hs
    cases hd : d.items <;> simp [hd] at hs ⊢
  obtain ⟨c, hm, hg⟩ := exists_givesItems h hsome
  exact (filled_iff h hs).2 ⟨c, hm, c.items_ne_nil hg fun he => hc (he ▸ hm)⟩

/-- The columns of `SELECT  FROM t` were given as an empty list. -/
theorem not_filled_of_noColumns : ∃ d s, run? {} [.columns [], .table "t"] = some d ∧
    d.statement? = some s ∧ ¬s.Filled :=
  ⟨_, _, rfl, rfl, fun h => h _ rfl rfl⟩

end SelectDraft

/-! ## `INSERT` statements -/

namespace InsertDraft

variable {d : InsertDraft} {calls : List Call} {s : Statement}

/-- An `INSERT` statement names its table. It has a row exactly if a call has given one or no values
are inserted, and something is set on a conflict unless the last call about that sets nothing. -/
theorem filled_iff (h : run? {} calls = some d) (hb : d.build? = some (.ok s)) :
    s.Filled ↔ ((∃ c ∈ calls, c.rows ≠ []) ∨ ∀ rows, d.source ≠ some (.values rows)) ∧
      ∀ c ∈ (calls.filterMap Call.onConflict?).getLast?, c.Filled := by
  have hrows : ∀ rows, d.source = some (.values rows) → rows = calls.flatMap Call.rows :=
    fun _ => rows_run h
  have hconflict := onConflict_run h
  unfold build? at hb
  split at hb
  · next table source ht hsource =>
    split at hb
    · simp at hb
    · simp only [Option.some.injEq, Except.ok.injEq] at hb
      subst hb
      rw [Statement.Filled, hconflict]
      refine and_congr_left fun _ => ?_
      rw [hsource]
      cases source with
      | values rows =>
        rw [InsertSource.Filled, hrows rows hsource, Ne, List.flatMap_eq_nil_iff]
        push Not
        simp
      | _ => simp [InsertSource.Filled]
  · cases hb

theorem rows_ne_nil_step {d' : InsertDraft} {c : Call} (h : d.step? c = some d')
    (hd : ∀ rows, d.source = some (.values rows) → rows ≠ []) (hc : c ≠ .valuesMany []) :
    ∀ rows, d'.source = some (.values rows) → rows ≠ [] := by
  obtain ⟨-, rfl⟩ := step?_eq_some h
  obtain ⟨table, columns, source, onConflict⟩ := d
  cases c with
  | intoTable name => exact hd
  | «columns» names => exact hd
  | onConflictDoNothing names => exact hd
  | onConflictDoUpdate names assignments => exact hd
  | andValues row => rcases source with _ | (rows | q | _) <;> simp [apply, addRow]
  | valuesMany rows =>
    rintro _ ⟨⟩ rfl
    exact hc rfl
  | _ => simp [apply]

/-- Where no call gives an empty list of rows or of assignments, nothing is left out of an `INSERT`
statement. -/
theorem filled (h : run? {} calls = some d) (hb : d.build? = some (.ok s))
    (hv : .valuesMany [] ∉ calls) (hu : ∀ names, .onConflictDoUpdate names [] ∉ calls) :
    s.Filled := by
  have hrows : ∀ rows, d.source = some (.values rows) → rows ≠ [] := by
    refine run_keeps (f := step?) (I := fun l d => .valuesMany [] ∉ l →
      ∀ rows, d.source = some (.values rows) → rows ≠ []) (l := []) (s := {})
      (fun l d c d' hd hstep hl => ?_) (by simp) h (by simpa using hv)
    rw [List.mem_append, List.mem_singleton, not_or] at hl
    exact rows_ne_nil_step hstep (hd hl.1) fun he => hl.2 he.symm
  refine (filled_iff h hb).2 ⟨?_, fun c hc => ?_⟩
  · by_cases hs : ∃ rows, d.source = some (.values rows)
    · obtain ⟨rows, hs⟩ := hs
      have hne := hrows rows hs
      rw [rows_run h hs, Ne, List.flatMap_eq_nil_iff] at hne
      push Not at hne
      exact .inl hne
    · exact .inr (not_exists.1 hs)
  · obtain ⟨call, hm, hcall⟩ := List.mem_filterMap.1 (List.mem_of_getLast? hc)
    cases call with
    | onConflictDoNothing names =>
      obtain rfl := Option.some.inj hcall
      simp [OnConflict.Filled]
    | onConflictDoUpdate names assignments =>
      obtain rfl := Option.some.inj hcall
      have hne : assignments ≠ [] := fun he => hu names (he ▸ hm)
      simpa [OnConflict.Filled] using hne
    | _ => cases hcall

/-- `INSERT INTO t VALUES ` was built from an empty list of rows, and
`INSERT INTO t DEFAULT VALUES ON CONFLICT DO UPDATE SET ` from an empty list of assignments. -/
theorem not_filled_of_noRows :
    (∃ d s, run? {} [.intoTable "t", .valuesMany []] = some d ∧ d.build? = some (.ok s) ∧
      ¬s.Filled) ∧
    ∃ d s, run? {} [.intoTable "t", .defaultValues, .onConflictDoUpdate [] []] = some d ∧
      d.build? = some (.ok s) ∧ ¬s.Filled :=
  ⟨⟨_, _, rfl, rfl, fun h => h.1 rfl⟩, ⟨_, _, rfl, rfl, fun h => h.2 _ rfl rfl⟩⟩

end InsertDraft

/-! ## `UPDATE` and `DELETE` statements -/

/-- An `UPDATE` statement has an assignment, whatever the calls are. -/
theorem UpdateDraft.filled {d : UpdateDraft} {s : Statement} (hb : d.build? = some s) :
    s.Filled := by
  unfold UpdateDraft.build? at hb
  split at hb
  · cases hb
  · split at hb
    · next h =>
      obtain rfl := Option.some.inj hb
      simpa [UpdateDraft.hasSet, Statement.Filled] using h
    · cases hb

/-- A `DELETE` statement that must pick its rows has a condition, whatever the calls are. -/
theorem DeleteDraft.filled {d : DeleteDraft} {s : Statement}
    (hb : d.build? .pickedRows = some s) : s.Filled := by
  unfold DeleteDraft.build? at hb
  split at hb
  · cases hb
  · split at hb
    · next h =>
      obtain rfl := Option.some.inj hb
      simpa [Statement.Filled, Option.isSome_iff_ne_none] using h
    · cases hb

end SqlTree
