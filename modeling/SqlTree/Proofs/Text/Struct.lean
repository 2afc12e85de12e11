import Mathlib
import SqlTree.Build.Struct
import SqlTree.Proofs.Carrying.Segments
import SqlTree.Proofs.Text.ReadBack
import SqlTree.Proofs.Tree.Statement

/-! # Built struct values are what their texts spell

* `BigQueryStructCall.build_eq`, `DuckDbStructCall.build_eq`: what is built, told by the fields and
  the values that the calls add.
* `BigQueryStructCall.parseStatement_build`: a struct value in parentheses comes back from its text,
  and only the number of values can keep it from being built.
* `DuckDbStructCall.comesBack_build`: a struct value in braces comes back from its text, unless the
  text of a value begins with a colon.
-/

namespace SqlTree
set_option autoImplicit false

open Parse

variable {d : Dialect} {e : Expr}

/-! ## What drafts hold -/

namespace StructDraft

/-- What one call adds, all calls add in their order. -/
theorem foldl_eq {κ : Type} {apply : StructDraft → κ → StructDraft}
    (field? : κ → Option StructField) (argument? : κ → Option SelectItem)
    (h : ∀ s c, apply s c =
      ⟨s.fields ++ (field? c).toList, s.arguments ++ (argument? c).toList⟩)
    (calls : List κ) (s : StructDraft) :
    calls.foldl apply s =
      ⟨s.fields ++ calls.filterMap field?, s.arguments ++ calls.filterMap argument?⟩ := by
  induction calls generalizing s with
  | nil => simp
  | cons c calls ih =>
    rw [List.foldl_cons, ih, h]
    cases hf : field? c <;> cases ha : argument? c <;> simp [hf, ha]

/-- A field that a struct value is read with. -/
def IsField (dq : Bool) (f : StructField) : Prop :=
  (∀ n ∈ f.name, n.Legal dq) ∧ f.type.Legal dq ∧ f.type.Faithful dq

variable {s : StructDraft}

theorem fields?_eq {fields : List StructField} (h : fields ∈ s.fields?) :
    fields = s.fields ∧ fields ≠ [] := by
  unfold fields? at h
  split at h
  · cases h
  · next hn =>
    obtain rfl : s.fields = fields := Option.some.inj h
    exact ⟨rfl, by simpa using hn⟩

/-- The typed fields make a type. -/
theorem legal_fields {dq : Bool} {form : StructForm} {fields : List StructField}
    (h : fields ∈ s.fields?) (hf : ∀ f ∈ s.fields, IsField dq f)
    (hn : form = .parens → ∀ f ∈ s.fields, f.name ≠ none) :
    (DataType.struct form fields).Legal dq := by
  obtain ⟨rfl, hne⟩ := fields?_eq h
  exact ⟨⟨hne, fun f hm => (hf f hm).1, hn⟩,
    StructField.allTypes_iff.2 fun f hm => (hf f hm).2.1⟩

theorem faithful_fields {dq : Bool} {form : StructForm} {fields : List StructField}
    (h : fields ∈ s.fields?) (hf : ∀ f ∈ s.fields, IsField dq f) :
    (DataType.struct form fields).Faithful dq := by
  obtain ⟨rfl, -⟩ := fields?_eq h
  exact ⟨trivial, StructField.allTypes_iff.2 fun f hm => (hf f hm).2.2⟩

/-- Building in parentheses fails if there are fields and not as many values. -/
theorem bigQuery_eq_error_iff :
    (∃ error, s.bigQuery = .error error) ↔
      s.fields ≠ [] ∧ s.arguments.length ≠ s.fields.length := by
  have hc : (!s.fields.isEmpty && s.fields.length != s.arguments.length) = true ↔
      s.fields ≠ [] ∧ s.arguments.length ≠ s.fields.length := by
    rw [Bool.and_eq_true, bne_iff_ne, ne_comm]
    simp
  rw [← hc]
  unfold bigQuery
  split <;> simp [*]

theorem bigQuery_eq_ok (h : s.bigQuery = .ok e) :
    e = .struct ⟨.bigQuery, some "STRUCT", s.fields?, some s.arguments⟩ := by
  unfold bigQuery at h
  split at h
  · cases h
  · exact (Except.ok.inj h).symm

/-- What is built in braces has names for all its fields. -/
theorem duckDb_eq_ok (h : s.duckDb = .ok e) :
    e = .struct ⟨.duckDb, none, s.fields?, some s.arguments⟩ ∧ ∀ f ∈ s.fields, f.name ≠ none := by
  unfold duckDb at h
  split at h
  · cases h
  split at h
  · cases h
  · next hn =>
    exact ⟨(Except.ok.inj h).symm,
      by simpa [List.findIdx?_eq_none_iff, Option.ne_none_iff_isSome] using hn⟩

/-- A struct value has the question marks of its values. -/
theorem unnumbered {v : StructValue}
    (h : ∀ i ∈ v.arguments.getD [], (Part.expr i.expr).Unnumbered) :
    (Part.expr (.struct v)).Unnumbered :=
  Part.obeys_iff.2 ⟨rfl, by simpa [Part.children, Expr.children, SelectItem.parts] using h⟩

/-- A value in parentheses is clear if its fields and values are. -/
theorem clear_bigQuery (hd : d.structStyle = .bigQuery) (hf : ∀ f ∈ s.fields, IsField d.dq f)
    (ha : ∀ i ∈ s.arguments, i.Legal d.dq ∧ i.Faithful ∧ i.expr.Clear d) :
    Expr.Clear d (.struct ⟨.bigQuery, some "STRUCT", s.fields?, some s.arguments⟩) := by
  have hword : TokenKind.ofWord? d.dq "STRUCT" = some (.keyword .STRUCT) := by
    cases d.dq <;> decide
  refine Part.obeys_iff.2 ⟨⟨⟨hd.symm, ⟨_, rfl, hword⟩, ?_, ?_, ?_⟩, ?_, ?_⟩, ?_⟩
  · exact fun fields hm => legal_fields hm hf (by simp)
  · simp
  · rintro items hm i hi
    obtain rfl := Option.some.inj hm
    exact (ha i hi).1
  · exact fun fields hm => faithful_fields hm hf
  · rintro items hm i hi
    obtain rfl := Option.some.inj hm
    exact (ha i hi).2.1
  · simpa [Part.children, Expr.children, SelectItem.parts] using fun i hi => (ha i hi).2.2

/-- A value in braces is clear if its fields and values are, and the text of no value runs into the
colon behind its key. -/
theorem clear_duckDb (hd : d.structStyle = .duckDb) (hf : ∀ f ∈ s.fields, IsField d.dq f)
    (hn : ∀ f ∈ s.fields, f.name ≠ none)
    (ha : ∀ i ∈ s.arguments, (∃ key, i.alias? = some (.implicit key) ∧ key.IsKey d.dq) ∧
      i.expr.layout.firstChar? ≠ some ':' ∧ i.expr.Clear d) :
    Expr.Clear d (.struct ⟨.duckDb, none, s.fields?, some s.arguments⟩) := by
  refine Part.obeys_iff.2 ⟨⟨⟨hd.symm, rfl, ?_, _, rfl, ?_⟩, ?_, ?_⟩, ?_⟩
  · exact fun fields hm => legal_fields hm hf fun _ => hn
  · exact fun i hi => (ha i hi).1
  · exact fun fields hm => faithful_fields hm hf
  · rintro items hm i hi
    obtain rfl := Option.some.inj hm
    exact (ha i hi).2.1
  · simpa [Part.children, Expr.children, SelectItem.parts] using fun i hi => (ha i hi).2.2

end StructDraft

/-! ## Values in parentheses -/

namespace BigQueryStructCall

/-- The typed field that a call adds. -/
def field? : BigQueryStructCall → Option StructField
  | .field name type => some (.typed name type)
  | .anonymousField type => some (.anonymous type)
  | _ => none

/-- The value that a call adds. -/
def argument? : BigQueryStructCall → Option SelectItem
  | .argument value => some (.bare value)
  | .namedArgument value name => some (.named value name)
  | _ => none

variable {calls : List BigQueryStructCall}

theorem build_eq (calls : List BigQueryStructCall) :
    build calls =
      StructDraft.bigQuery ⟨calls.filterMap field?, calls.filterMap argument?⟩ := by
  rw [build, StructDraft.foldl_eq field? argument? ?_]
  · rfl
  · intro s c
    cases c <;> simp [apply, StructDraft.addField, StructDraft.addArgument, field?, argument?]

/-- The name of a value stands behind `AS`. -/
theorem alias_argument {i : SelectItem} (h : i ∈ calls.filterMap argument?) :
    ∀ a ∈ i.alias?, a.withAs = true ∧ a.columns = [] := by
  obtain ⟨c, -, hc⟩ := List.mem_filterMap.1 h
  cases c with
  | argument value =>
    obtain rfl := Option.some.inj hc
    simp [SelectItem.bare]
  | namedArgument value name =>
    obtain rfl := Option.some.inj hc
    simp [SelectItem.named, Alias.explicit]
  | _ => cases hc

/-- A struct value in parentheses comes back from its text, if each of its types and values does. It
is built unless there are fields and not as many values. -/
theorem parseStatement_build (calls : List BigQueryStructCall) (keepUnsupported : Bool) :
    ((∃ error, build calls = .error error) ↔ calls.filterMap field? ≠ [] ∧
      (calls.filterMap argument?).length ≠ (calls.filterMap field?).length) ∧
    ((∀ f ∈ calls.filterMap field?, (∀ n ∈ f.name, n.Plain Dialect.bigQuery.dq) ∧
        f.type.ReadsBack Dialect.bigQuery.dq) →
      (∀ i ∈ calls.filterMap argument?, (∀ a ∈ i.alias?, a.name.Plain Dialect.bigQuery.dq) ∧
        i.expr.isWildcard = false ∧ (Part.expr i.expr).Unnumbered ∧
        i.expr.ComesBack ⟨.bigQuery, keepUnsupported⟩) →
      ∀ e, build calls = .ok e → ∃ text, e.text = .ok text ∧
        parseStatement ("SELECT " ++ text) ⟨.bigQuery, keepUnsupported⟩ =
          .ok (.query e.asQuery)) := by
  rw [build_eq]
  refine ⟨StructDraft.bigQuery_eq_error_iff, fun hf ha e he => ?_⟩
  obtain rfl := StructDraft.bigQuery_eq_ok he
  refine Expr.Clear.comesBack (StructDraft.clear_bigQuery rfl (fun f hm => ?_) fun i hm => ?_)
    (StructDraft.unnumbered fun i hm => (ha i hm).2.2.1)
  · obtain ⟨hname, htype⟩ := hf f hm
    exact ⟨fun n hn => (hname n hn).legal, htype.legal_faithful⟩
  · obtain ⟨hname, hwild, hfree, hback⟩ := ha i hm
    have halias := alias_argument hm
    refine ⟨⟨by simp [hwild], fun a hi => ?_⟩, fun _ a hi hw => ?_, hback.clear rfl hfree⟩
    · exact ⟨⟨(hname a hi).legal, by simp [(halias a hi).2]⟩, (halias a hi).2⟩
    · rw [(halias a hi).1] at hw
      cases hw

/-- `STRUCT<a ARRAY<INT64>,STRUCT<x ARRAY<INT64>>>(b,1 AS c)`. -/
theorem parseStatement_build_nested :
    let list : DataType := .array .angles (.custom "INT64" [])
    let calls := [field "a" list, argument (.column { name := .plain "b" }),
      anonymousField (.struct .angles [.typed "x" list]), namedArgument (.literal (.integer "1")) "c"]
    ∃ e, build calls = .ok e ∧ (∃ error, build (calls.take 3) = .error error) ∧
      ∃ text, e.text = .ok text ∧
        parseStatement ("SELECT " ++ text) ⟨.bigQuery, false⟩ = .ok (.query e.asQuery) := by
  intro list calls
  have hword : ∀ name ∈ ["INT64", "a", "b", "c", "x"],
      Ident.Plain Dialect.bigQuery.dq (.plain name) := by
    decide
  have hlist : list.Legal Dialect.bigQuery.dq ∧ list.Faithful Dialect.bigQuery.dq :=
    ⟨⟨trivial, by simp [DataType.All, DataType.LegalHead]⟩, trivial, hword "INT64" (by simp)⟩
  have hstruct : (DataType.struct .angles [.typed "x" list]).ReadsBack Dialect.bigQuery.dq := by
    have hx := (hword "x" (by simp)).legal
    refine DataType.readsBack ⟨?_, hlist.1, trivial⟩ ⟨trivial, hlist.2, trivial⟩
    simp [DataType.LegalHead, StructField.typed, hx]
  have hb : (Expr.column { name := .plain "b" }).Clear .bigQuery := by
    have hname := (hword "b" (by simp)).legal
    simp [Part.obeys_iff_allObey, Part.children, Expr.children, Part.Clear, Part.Legal,
      Part.Faithful, Expr.Legal, Expr.Faithful, ColumnRef.Legal, ColumnRef.names, hname]
  have hone : (Expr.literal (.integer "1")).Clear .bigQuery := by
    have hdigits : TokenKind.ofWord? Dialect.bigQuery.dq "1" = some (.integer "1") := by
      decide
    simp [Part.obeys_iff_allObey, Part.children, Expr.children, Part.Clear, Part.Legal,
      Part.Faithful, Expr.Legal, Expr.Faithful, hdigits]
  have hleaf : ∀ e : Expr, e.children = [] → (Part.expr e).number? = none →
      (Part.expr e).Unnumbered := fun e hc hn =>
    Part.obeys_iff.2 ⟨hn, by simp [Part.children, hc]⟩
  refine ⟨_, rfl, (parseStatement_build _ false).1.2 (by decide), ?_⟩
  refine (parseStatement_build calls false).2 (fun f hm => ?_) (fun i hm => ?_) _ rfl
  · obtain rfl | rfl : f = .typed "a" list ∨ .anonymous (.struct .angles [.typed "x" list]) = f := by
      simpa [calls, field?] using hm
    · exact ⟨by simpa [StructField.typed] using hword "a" (by simp),
        DataType.readsBack hlist.1 hlist.2⟩
    · exact ⟨by simp [StructField.anonymous], hstruct⟩
  · obtain rfl | rfl : .bare (.column { name := .plain "b" }) = i ∨
        .named (.literal (.integer "1")) "c" = i := by
      simpa [calls, argument?] using hm
    · have hfree := hleaf (.column { name := .plain "b" }) rfl rfl
      exact ⟨by simp [SelectItem.bare], rfl, hfree, hb.comesBack hfree⟩
    · have hfree := hleaf (.literal (.integer "1")) rfl rfl
      exact ⟨by simpa [SelectItem.named, Alias.explicit] using hword "c" (by simp), rfl, hfree,
        hone.comesBack hfree⟩

end BigQueryStructCall

/-! ## Values in braces -/

namespace DuckDbStructCall

/-- The typed field that a call adds. -/
def field? : DuckDbStructCall → Option StructField
  | .typed name type => some (.typed name type)
  | .typedField f => some f
  | _ => none

/-- The value that a call adds, with its key for an alias. -/
def argument? : DuckDbStructCall → Option SelectItem
  | .field name value => some ⟨value, some (.implicit (.plain name))⟩
  | .quotedField name value => some ⟨value, some (.implicit ⟨name, some '\''⟩)⟩
  | .item i => some i
  | _ => none

theorem build_eq (calls : List DuckDbStructCall) :
    build calls = StructDraft.duckDb ⟨calls.filterMap field?, calls.filterMap argument?⟩ := by
  rw [build, StructDraft.foldl_eq field? argument? ?_]
  · rfl
  · intro s c
    cases c <;> simp [apply, StructDraft.addField, StructDraft.addArgument, field?, argument?]

/-- A struct value in braces comes back from its text, if its types do, its values are clear, and
none of them is written with a colon in front. -/
theorem comesBack_build (calls : List DuckDbStructCall) (keepUnsupported : Bool)
    (hf : ∀ f ∈ calls.filterMap field?, (∀ n ∈ f.name, n.Plain Dialect.duckDb.dq) ∧
      f.type.ReadsBack Dialect.duckDb.dq)
    (ha : ∀ i ∈ calls.filterMap argument?,
      (∃ key : Ident, i.alias? = some (.implicit key) ∧
        (key.Plain Dialect.duckDb.dq ∨ key.quote = some '\'')) ∧
        i.expr.layout.firstChar? ≠ some ':' ∧ (Part.expr i.expr).Unnumbered ∧
        i.expr.Clear .duckDb)
    (h : build calls = .ok e) : e.ComesBack ⟨.duckDb, keepUnsupported⟩ := by
  rw [build_eq] at h
  obtain ⟨rfl, hn⟩ := StructDraft.duckDb_eq_ok h
  refine Expr.Clear.comesBack (StructDraft.clear_duckDb rfl (fun f hm => ?_) hn fun i hm => ?_)
    (StructDraft.unnumbered fun i hm => (ha i hm).2.2.1)
  · obtain ⟨hname, htype⟩ := hf f hm
    exact ⟨fun n hn => (hname n hn).legal, htype.legal_faithful⟩
  · obtain ⟨⟨key, hkey, hlegal⟩, hcolon, -, hclear⟩ := ha i hm
    exact ⟨⟨key, hkey, hlegal.imp_left Ident.Plain.legal⟩, hcolon, hclear⟩

/-- The colon behind the key and the one in front of a name are read as one mark. -/
theorem colon_taken : ∃ e, build [field "a" (.namedPlaceholder "p")] = .ok e ∧
    (Expr.namedPlaceholder "p").ComesBack ⟨.duckDb, false⟩ ∧ e.text = .ok "\x7b a::p \x7d" ∧
    ∀ s, parseStatement "SELECT \x7b a::p \x7d" ⟨.duckDb, false⟩ ≠ .ok s := by
  have hvalue : tokenize "SELECT :p" false = .ok ⟨[⟨.keyword .SELECT, ⟨0, 6⟩, "SELECT"⟩,
      ⟨.symbol .colon, ⟨7, 8⟩, ":"⟩, ⟨.identifier "p" none, ⟨8, 9⟩, "p"⟩],
      ⟨.endOfInput, ⟨9, 9⟩, ""⟩⟩ :=
    Lexer.run_of_steps (by simp) rfl (by with_unfolding_all rfl)
  have hstruct : tokenize "SELECT \x7b a::p \x7d" false = .ok ⟨[⟨.keyword .SELECT, ⟨0, 6⟩, "SELECT"⟩,
      ⟨.symbol .leftBrace, ⟨7, 8⟩, "\x7b"⟩, ⟨.identifier "a" none, ⟨9, 10⟩, "a"⟩,
      ⟨.symbol .doubleColon, ⟨10, 12⟩, "::"⟩, ⟨.identifier "p" none, ⟨12, 13⟩, "p"⟩,
      ⟨.symbol .rightBrace, ⟨14, 15⟩, "\x7d"⟩], ⟨.endOfInput, ⟨15, 15⟩, ""⟩⟩ :=
    Lexer.run_of_steps (by simp) rfl (by with_unfolding_all rfl)
  refine ⟨_, rfl, ⟨_, rfl, (parseStatement_iff (o := ⟨.duckDb, false⟩) hvalue _).2 ⟨_, rfl⟩⟩,
    by decide, fun s h => ?_⟩
  obtain ⟨d, hd⟩ := (parseStatement_iff (o := ⟨.duckDb, false⟩) hstruct s).1 h
  cases hd

end DuckDbStructCall

end SqlTree
