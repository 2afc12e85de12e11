import Mathlib
import SqlTree.Proofs.TableNames.Found

/-! # What is found in several statements

A finder that goes through several statements keeps one state. It depends on nothing but the names
met in the statements, in their order.

* `TableFinder.foldl_visit`: the names met, each once, and all names given to queries.
* `TableFinder.tables_foldl_visit`: the tables found are the names met, each once, apart from those
  that were given to queries. Going through a statement again finds nothing more.
-/

namespace SqlTree
set_option autoImplicit false

namespace TableFinder

variable {f : TableFinder} {name : ObjectName}

/-! ## Names, each once -/

/-- Names that were met before add nothing. -/
theorem eraseDups_append_of_subset {names more : List ObjectName} (h : more ⊆ names) :
    (names ++ more).eraseDups = names.eraseDups := by
  have hnone : more.removeAll names = [] := by
    refine List.filter_eq_nil_iff.2 fun name hname => ?_
    simpa using h hname
  rw [List.eraseDups_append, hnone, List.eraseDups_nil, List.append_nil]

theorem eraseDups_append_again {names again : List ObjectName} (h : again ⊆ names)
    (more : List ObjectName) : (names ++ again ++ more).eraseDups = (names ++ more).eraseDups := by
  have hmore : more.removeAll (names ++ again) = more.removeAll names := by
    refine List.filter_congr fun name _ => ?_
    have hmem : name ∈ names ++ again ↔ name ∈ names := by
      rw [List.mem_append]
      exact or_iff_left_of_imp fun ha => h ha
    rw [Bool.eq_iff_iff]
    simp only [Bool.not_eq_true', List.elem_eq_mem, decide_eq_false_iff_not, hmem]
  rw [List.eraseDups_append, eraseDups_append_of_subset h, hmore, ← List.eraseDups_append]

/-- Whether a name is one of some names does not depend on their order. -/
theorem isOneOf_congr {ctes ctes' : List Ident} (h : ∀ c, c ∈ ctes ↔ c ∈ ctes') :
    name.isOneOf ctes = name.isOneOf ctes' := by
  unfold ObjectName.isOneOf
  split
  · rw [Bool.eq_iff_iff, List.any_eq_true, List.any_eq_true]
    simp only [h]
  · rfl

/-! ## Taking in mentions -/

/-- If the names found so far are those met so far, each once, it stays so with one more mention. -/
theorem names_note {met : List ObjectName} (h : f.names = met.eraseDups) (m : Mention) :
    (f.note m).names = (met ++ m.table?.toList).eraseDups := by
  cases m with
  | cte c =>
    rw [show (f.note (.cte c)).names = f.names from rfl, h, Mention.table?, Option.toList_none,
      List.append_nil]
  | table name =>
    rw [note, add, Mention.table?, Option.toList_some]
    split
    case isTrue hmem =>
      rw [h, List.mem_eraseDups] at hmem
      rw [h, eraseDups_append_of_subset (by simpa using hmem)]
    case isFalse hmem =>
      rw [h, List.mem_eraseDups] at hmem
      have hnew : [name].removeAll met = [name] := by simp [List.removeAll, hmem]
      rw [List.eraseDups_append, hnew, h]
      rfl

theorem names_foldl_note {met : List ObjectName} (h : f.names = met.eraseDups) (ms : List Mention) :
    (ms.foldl note f).names = (met ++ ms.filterMap Mention.table?).eraseDups := by
  induction ms generalizing f met with
  | nil => rw [List.foldl_nil, List.filterMap_nil, List.append_nil, h]
  | cons m ms ih =>
    rw [List.foldl_cons, ih (names_note h m), List.append_assoc]
    cases m <;> rfl

theorem ctes_foldl_note (ms : List Mention) :
    (ms.foldl note f).ctes = f.ctes ++ ms.filterMap Mention.cte? := by
  induction ms generalizing f with
  | nil => rw [List.foldl_nil, List.filterMap_nil, List.append_nil]
  | cons m ms ih =>
    rw [List.foldl_cons, ih]
    cases m with
    | cte c => rw [note, addCte, List.append_assoc]; rfl
    | table name =>
      rw [note, add]
      split <;> rfl

/-! ## Several statements -/

/-- What a finder keeps of several statements: the names met, each once, and all names given to
queries. -/
theorem foldl_visit (ss : List Statement) : ss.foldl visit {} =
    ⟨(ss.flatMap Statement.namesMet).eraseDups, ss.flatMap Statement.ctesMet⟩ := by
  have hempty : ({} : TableFinder).names = List.eraseDups [] := rfl
  have hnames := names_foldl_note hempty (ss.flatMap Statement.mentions)
  have hctes := ctes_foldl_note (f := {}) (ss.flatMap Statement.mentions)
  rw [← foldl_visit_eq visit_eq, List.nil_append, List.filterMap_flatMap] at hnames hctes
  exact congrArg₂ TableFinder.mk hnames hctes

theorem namesMet_subset {s : Statement} {ss : List Statement} (h : s ∈ ss) :
    s.namesMet ⊆ ss.flatMap Statement.namesMet :=
  fun _ hname => List.mem_flatMap.2 ⟨s, h, hname⟩

/-- Going through a statement once more finds nothing more. -/
theorem tables_again {s : Statement} {ss : List Statement} (h : s ∈ ss) (more : List Statement) :
    ((ss ++ s :: more).foldl visit {}).tables = ((ss ++ more).foldl visit {}).tables := by
  have hnames : ((ss ++ s :: more).flatMap Statement.namesMet).eraseDups =
      ((ss ++ more).flatMap Statement.namesMet).eraseDups := by
    simp only [List.flatMap_append, List.flatMap_cons, ← List.append_assoc]
    exact eraseDups_append_again (namesMet_subset h) _
  have hmem (t : Statement) : t ∈ ss ++ s :: more ↔ t ∈ ss ++ more := by
    rw [List.mem_append, List.mem_append, List.mem_cons, ← or_assoc]
    exact or_congr_left (or_iff_left_of_imp fun ht => ht ▸ h)
  have hctes (c : Ident) : c ∈ (ss ++ s :: more).flatMap Statement.ctesMet ↔
      c ∈ (ss ++ more).flatMap Statement.ctesMet := by
    simp only [List.mem_flatMap, hmem]
  simp only [foldl_visit, tables, namesCte, hnames, isOneOf_congr hctes]

/-- The tables found in several statements are the names met in them, each once, apart from the
single names that some query in them was given. -/
theorem tables_foldl_visit (ss : List Statement) :
    (ss.foldl visit {}).tables = ((ss.flatMap Statement.namesMet).eraseDups.filter fun name =>
        !name.isOneOf (ss.flatMap Statement.ctesMet)) ∧
      (ss.foldl visit {}).tables.Nodup ∧
      (∀ name ∈ (ss.foldl visit {}).tables, ∃ s ∈ ss, s.Uses name) ∧
      ∀ s ∈ ss, ∀ more : List Statement,
        ((ss ++ s :: more).foldl visit {}).tables = ((ss ++ more).foldl visit {}).tables := by
  refine ⟨?_, nodup_tables_visited ss, fun name hname => ?_, fun s hs more => tables_again hs more⟩
  · rw [foldl_visit]
    rfl
  · exact ((mem_tables_visited ss).1 hname).1

end TableFinder
end SqlTree
