/-! # Quoted text

Between two quotes every character stands for itself, and the quote itself is written twice.

* `double`: the written form of a content. `undouble`: the content of a written form.
* `enclose`: a content between its quotes.
* `body`: splits what follows an opening quote at the closing one.

`undouble_double` says that a written content is read back, and `body_double` that the written
content ends exactly at its closing quote, whatever follows that is not one more quote.
-/

namespace SqlTree.Text.Quoted
set_option autoImplicit false

/-- The content with every quote written twice. -/
def double (q : Char) : List Char → List Char
  | [] => []
  | c :: cs => if c = q then q :: q :: double q cs else c :: double q cs

/-- Two quotes in a row count as one. -/
def undouble (q : Char) : List Char → List Char
  | [] => []
  | [c] => [c]
  | c :: d :: cs =>
    if c = q ∧ d = q then q :: undouble q cs else c :: undouble q (d :: cs)

/-- Splits the text behind an opening quote into the written content and what follows the closing
quote; there is no second part when the text ends before it. -/
def body (q : Char) : List Char → List Char × Option (List Char)
  | [] => ([], none)
  | [c] => if c = q then ([], some []) else ([c], none)
  | c :: d :: cs =>
    if c = q then
      if d = q then
        let r := body q cs
        (c :: d :: r.1, r.2)
      else ([], some (d :: cs))
    else
      let r := body q (d :: cs)
      (c :: r.1, r.2)

/-- A content between two quotes. -/
def enclose (opening closing : Char) (content : String) : String :=
  String.ofList (opening :: double closing content.toList ++ [closing])

/-! ## Reading back -/

theorem undouble_cons_of_ne {q c : Char} (h : c ≠ q) (cs : List Char) :
    undouble q (c :: cs) = c :: undouble q cs := by
  cases cs with
  | nil => simp [undouble]
  | cons d cs => simp [undouble, h]

theorem undouble_double (q : Char) (cs : List Char) : undouble q (double q cs) = cs := by
  induction cs with
  | nil => rfl
  | cons c cs ih =>
    by_cases h : c = q
    · simp [double, undouble, h, ih]
    · simp [double, h, undouble_cons_of_ne, ih]

theorem body_cons_of_ne {q c : Char} (h : c ≠ q) (cs : List Char) :
    body q (c :: cs) = (c :: (body q cs).1, (body q cs).2) := by
  cases cs with
  | nil => simp [body, h]
  | cons d cs => simp [body, h]

/-- A written content followed by a lone quote ends there. -/
theorem body_double (q : Char) (cs rest : List Char) (h : rest.head? ≠ some q) :
    body q (double q cs ++ q :: rest) = (double q cs, some rest) := by
  induction cs with
  | nil =>
    cases rest with
    | nil => simp [double, body]
    | cons d rest => simp_all [double, body]
  | cons c cs ih =>
    by_cases hc : c = q
    · simp [double, hc, body, ih]
    · simp [double, hc, body_cons_of_ne, ih]

end SqlTree.Text.Quoted
