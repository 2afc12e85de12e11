import Mathlib
import SqlTree.Proofs.Build.Collected

/-! # How wide the rows of an `INSERT` statement are

Lists of columns replace one another, and rows are added one after another. They are compared once
at the end, so it does not matter which came first.

* `InsertDraft.run_eq`: a draft is what its calls say.
* `InsertDraft.FirstMisfit`: the first row that is not as wide as expected.
* `InsertDraft.build_run`: a statement is built if all rows are as wide as expected, and the error names
  the first one that is not.
-/

namespace SqlTree.InsertDraft
set_option autoImplicit false

/-! ## What the calls say -/

/-- The table that a call names. -/
def Call.table? : Call → Option ObjectName
  | .intoTable name => some (ObjectName.ofText name)
  | _ => none

/-- The columns that a call names. -/
def Call.columns? : Call → Option (List Ident)
  | .columns names => some (Ident.plainList names)
  | _ => none

/-- What a call gives to be inserted, without its rows. -/
def Call.source? : Call → Option InsertSource
  | .values _ | .valuesMany _ => some (.values [])
  | .query q => some (.query q)
  | .defaultValues => some .defaultValues
  | _ => none

/-- The source with other rows, if it is one of rows. -/
def withRows (rows : List (List Expr)) : InsertSource → InsertSource
  | .values _ => .values rows
  | source => source

/-- The table that is named last. -/
def tableOf (calls : List Call) : Option ObjectName :=
  (calls.filterMap Call.table?).getLast?

/-- The columns that are named last, none if there is no such call. -/
def columnsOf (calls : List Call) : List Ident :=
  (calls.filterMap Call.columns?).getLast?.getD []

/-- What is inserted, with the rows of all calls in their order. -/
def sourceOf (calls : List Call) : Option InsertSource :=
  (calls.filterMap Call.source?).getLast?.map (withRows (calls.flatMap Call.rows))

/-- What the last call says about rows that are there already. -/
def onConflictOf (calls : List Call) : Option OnConflict :=
  (calls.filterMap Call.onConflict?).getLast?

variable {calls : List Call} {d d' : InsertDraft}

theorem withRows_addRow (rows : List (List Expr)) (row : List Expr) (source : InsertSource) :
    withRows rows (addRow source row) = withRows rows source := by
  cases source <;> rfl

/-- Apart from its rows, the source is the one that was given. -/
theorem source_run (h : run? {} calls = some d) :
    d.source.map (withRows []) = (calls.filterMap Call.source?).getLast? := by
  have hlast := run_last (f := step?) (p := fun d => d.source.map (withRows []))
    (g := Call.source?) (fun d c d' hstep => by
      obtain ⟨-, rfl⟩ := step?_eq_some hstep
      cases c with
      | andValues row =>
        simp [apply, Call.source?, Function.comp_def, withRows_addRow]
      | _ => rfl) h
  simpa using hlast

theorem run_eq (h : run? {} calls = some d) :
    d = { table := tableOf calls, columns := columnsOf calls, source := sourceOf calls,
          onConflict := onConflictOf calls } := by
  have htable := run_last (f := step?) (p := table) (g := Call.table?)
    (fun d c d' hstep => by
      obtain ⟨-, rfl⟩ := step?_eq_some hstep
      cases c <;> rfl) h
  have hcolumns := run_last (f := step?) (p := fun d => some d.columns) (g := Call.columns?)
    (fun d c d' hstep => by
      obtain ⟨-, rfl⟩ := step?_eq_some hstep
      cases c <;> rfl) h
  have hsource : d.source = sourceOf calls := by
    have hs := source_run h
    have hrows : ∀ rows, d.source = some (.values rows) → rows = calls.flatMap Call.rows :=
      fun _ => rows_run h
    rw [sourceOf, ← hs]
    cases hd : d.source with
    | none => rfl
    | some source =>
      cases source with
      | values rows => rw [hrows rows hd]; rfl
      | _ => rfl
  have hconflict := onConflict_run h
  obtain ⟨table, columns, source, onConflict⟩ := d
  rw [Option.or_none] at htable
  rw [Option.or_some, Option.some.injEq] at hcolumns
  simp only at htable hcolumns hsource hconflict
  rw [htable, hcolumns, hsource, hconflict]
  rfl

/-! ## The first row that does not fit -/

/-- How wide rows must be: as the columns that were named last, or as the first row if there are none. -/
def widthOf (calls : List Call) (rows : List (List Expr)) : Nat :=
  if columnsOf calls = [] then (rows.headD []).length else (columnsOf calls).length

/-- The first row of another width: its position, counted from one, and its own width. -/
def FirstMisfit (width : Nat) (rows : List (List Expr)) (position found : Nat) : Prop :=
  ∃ before row after, rows = before ++ row :: after ∧ (∀ r ∈ before, r.length = width) ∧
    row.length ≠ width ∧ position = before.length + 1 ∧ found = row.length

theorem expectedWidth_columnsOf (calls : List Call) (rows : List (List Expr)) :
    expectedWidth (columnsOf calls) rows = widthOf calls rows := by
  unfold expectedWidth widthOf
  cases columnsOf calls with
  | nil => cases rows <;> rfl
  | cons c cs => rfl

theorem findIdx?_eq_some_iff_append {α : Type} {p : α → Bool} {l : List α} {i : Nat} :
    l.findIdx? p = some i ↔ ∃ before a after, l = before ++ a :: after ∧
      (∀ b ∈ before, p b = false) ∧ p a = true ∧ i = before.length := by
  constructor
  · intro h
    obtain ⟨hi, ha, hbefore⟩ := List.findIdx?_eq_some_iff_getElem.1 h
    refine ⟨l.take i, l[i], l.drop (i + 1), ?_, ?_, ha, ?_⟩
    · rw [List.cons_getElem_drop_succ, List.take_append_drop]
    · intro b hb
      obtain ⟨j, hj, rfl⟩ := List.mem_take_iff_getElem.1 hb
      simpa using hbefore j (by omega)
    · rw [List.length_take, Nat.min_eq_left hi.le]
  · rintro ⟨before, a, after, rfl, hbefore, ha, rfl⟩
    have hnone : before.findIdx? p = none := List.findIdx?_eq_none_iff.2 hbefore
    rw [List.findIdx?_append, hnone, List.findIdx?_cons, if_pos ha]
    simp

theorem firstMisfit_iff {width position found : Nat} {rows : List (List Expr)} :
    FirstMisfit width rows position found ↔ ∃ i, rows.findIdx? (fun row => row.length != width) = some i ∧
      position = i + 1 ∧ found = (rows.getD i []).length := by
  constructor
  · rintro ⟨before, row, after, rfl, hbefore, hrow, hposition, hfound⟩
    refine ⟨before.length, ?_, hposition, by simpa using hfound⟩
    exact findIdx?_eq_some_iff_append.2 ⟨before, row, after, rfl, by simpa using hbefore,
      by simpa using hrow, rfl⟩
  · rintro ⟨i, hi, hposition, hfound⟩
    obtain ⟨before, row, after, rfl, hbefore, hrow, rfl⟩ := findIdx?_eq_some_iff_append.1 hi
    exact ⟨before, row, after, rfl, by simpa using hbefore, by simpa using hrow, hposition,
      by simpa using hfound⟩

theorem widthError?_eq_some_iff {columns : List Ident} {rows : List (List Expr)} {e : BuildError} :
    widthError? columns rows = some e ↔ ∃ position found,
      FirstMisfit (expectedWidth columns rows) rows position found ∧
        e = .rowWidth position (expectedWidth columns rows) found := by
  simp only [firstMisfit_iff]
  unfold widthError?
  dsimp only
  split
  · next hi => simp [hi]
  · next i hi =>
    rw [hi, Option.some.injEq]
    constructor
    · rintro rfl
      exact ⟨_, _, ⟨i, rfl, rfl, rfl⟩, rfl⟩
    · rintro ⟨_, _, ⟨j, hj, rfl, rfl⟩, rfl⟩
      obtain rfl := Option.some.inj hj
      rfl

theorem widthError?_eq_none_iff {columns : List Ident} {rows : List (List Expr)} :
    widthError? columns rows = none ↔ ∀ row ∈ rows, row.length = expectedWidth columns rows := by
  unfold widthError?
  dsimp only
  split
  · next hi =>
    rw [List.findIdx?_eq_none_iff] at hi
    simpa using hi
  · next i hi =>
    obtain ⟨before, row, after, hrows, -, hrow, -⟩ := findIdx?_eq_some_iff_append.1 hi
    have hm : row ∈ rows := by simp [hrows]
    simp only [reduceCtorEq, false_iff, not_forall]
    exact ⟨row, hm, by simpa using hrow⟩

/-! ## Finished statements -/

variable {r : Except BuildError Statement}

/-- What is built from calls. It is an error exactly if rows are inserted and one of them is not as wide
as expected, and then the error names the first one. Otherwise it is the statement with the table, the
last columns, all rows or what else was given, and the last clause about rows that are there already. -/
theorem build_run (h : run? {} calls = some d) (hb : d.build? = some r) :
    ∃ table source, tableOf calls = some table ∧ sourceOf calls = some source ∧
      (∀ e, r = .error e ↔ ∃ rows position found, source = .values rows ∧
        FirstMisfit (widthOf calls rows) rows position found ∧
          e = .rowWidth position (widthOf calls rows) found) ∧
      ∀ s, r = .ok s ↔
        (∀ rows, source = .values rows → ∀ row ∈ rows, row.length = widthOf calls rows) ∧
          s = .insert { withInto := true, table, columns := columnsOf calls, source,
                        onConflict := onConflictOf calls } := by
  rw [run_eq h] at hb
  unfold build? at hb
  dsimp only at hb
  split at hb
  · next table source htable hsource =>
    refine ⟨table, source, htable, hsource, ?_⟩
    -- A source that is not one of rows has no error, and every row of it fits.
    have herror : ∀ e, sourceError? (columnsOf calls) source = some e ↔ ∃ rows position found,
        source = .values rows ∧ FirstMisfit (widthOf calls rows) rows position found ∧
          e = .rowWidth position (widthOf calls rows) found := by
      intro e
      cases source with
      | values rows =>
        simp only [sourceError?, widthError?_eq_some_iff, expectedWidth_columnsOf, InsertSource.values.injEq]
        exact ⟨fun ⟨p, f, h⟩ => ⟨rows, p, f, rfl, h⟩, fun ⟨_, p, f, he, h⟩ => ⟨p, f, by rw [he]; exact h⟩⟩
      | _ => simp [sourceError?]
    have hfits : sourceError? (columnsOf calls) source = none ↔
        ∀ rows, source = .values rows → ∀ row ∈ rows, row.length = widthOf calls rows := by
      cases source with
      | values rows => simp [sourceError?, widthError?_eq_none_iff, expectedWidth_columnsOf]
      | _ => simp [sourceError?]
    split at hb
    · next e he =>
      obtain rfl := Option.some.inj hb
      refine ⟨fun e' => ?_, fun s => ?_⟩
      · rw [← herror, he, Except.error.injEq, Option.some.injEq]
      · rw [← hfits, he]
        simp
    · next he =>
      obtain rfl := Option.some.inj hb
      refine ⟨fun e' => ?_, fun s => ?_⟩
      · rw [← herror, he]
        simp
      · rw [← hfits, he, Except.ok.injEq]
        simp [eq_comm]
  · cases hb

/-- A list of columns that is emptied between two rows: the first row gives the width, and the third
one is not as wide. -/
theorem build_run_emptied :
    let one : Expr := .integer 1
    let calls : List Call :=
      [.intoTable "t", .columns ["a"], .values [one, one], .columns [], .andValues [one, one],
        .andValues [one], .andValues [], .onConflictDoNothing ["a"]]
    ∃ d r, run? {} calls = some d ∧ d.build? = some r ∧ r = .error (.rowWidth 3 2 1) := by
  intro one calls
  let rows : List (List Expr) := [[one, one], [one, one], [one], []]
  have hwidth : widthOf calls rows = 2 := rfl
  have hmisfit : FirstMisfit (widthOf calls rows) rows 3 1 :=
    ⟨[[one, one], [one, one]], [one], [[]], rfl, by simp [hwidth], by simp [hwidth], rfl, rfl⟩
  refine ⟨_, _, rfl, rfl, ?_⟩
  have hrun : run? {} calls = some _ := rfl
  obtain ⟨table, source, -, hsource, herror, -⟩ := build_run hrun rfl
  obtain rfl := Option.some.inj hsource
  exact (herror _).2 ⟨rows, 3, 1, rfl, hmisfit, by rw [hwidth]⟩

end SqlTree.InsertDraft
