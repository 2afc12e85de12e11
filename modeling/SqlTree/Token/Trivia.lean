import SqlTree.Text.CharClass

/-! # Blanks and comments

What may stand between two tokens: white space, comments from two dashes to the end of the line,
and comments between slash-star and star-slash, which do not nest.

* `Trivia.closeComment`: splits the inside of a block comment off.
* `Trivia.skip`: splits off all blanks and closed comments. Where it stops, a token begins, the
  text ends, or a block comment opens that never closes.

`skip_append` says that nothing is lost, and `skip_length` that the rest is no longer.
-/

namespace SqlTree.Trivia
set_option autoImplicit false

/-- Splits the text behind the opening of a block comment into its inside and what follows its
end; nothing when the comment does not end. -/
def closeComment : List Char → Option (List Char × List Char)
  | [] => none
  | '*' :: '/' :: cs => some ([], cs)
  | c :: cs => (closeComment cs).map fun r => (c :: r.1, r.2)

theorem closeComment_append {cs inside rest : List Char}
    (h : closeComment cs = some (inside, rest)) : cs = inside ++ '*' :: '/' :: rest := by
  fun_induction closeComment cs generalizing inside rest with
  | case1 => simp at h
  | case2 cs => simp_all
  | case3 c cs _ ih =>
    obtain ⟨⟨a, b⟩, hab, he⟩ := Option.map_eq_some_iff.1 h
    obtain ⟨rfl, rfl⟩ := Prod.mk.inj he
    simp [ih hab]

theorem closeComment_length {cs : List Char} {r : List Char × List Char}
    (h : closeComment cs = some r) : r.2.length < cs.length := by
  obtain ⟨inside, rest⟩ := r
  simp [closeComment_append h]
  omega

theorem dropWhile_length (p : Char → Bool) (cs : List Char) :
    (cs.dropWhile p).length ≤ cs.length :=
  (List.dropWhile_suffix p).length_le

/-- Splits off the blanks and closed comments that a text begins with. -/
def skip (cs : List Char) : List Char × List Char :=
  let blanks := cs.takeWhile Text.isBlank
  match _h : cs.dropWhile Text.isBlank with
  | '-' :: '-' :: more =>
    let line := more.takeWhile (· != '\n')
    let r := skip (more.dropWhile (· != '\n'))
    (blanks ++ '-' :: '-' :: line ++ r.1, r.2)
  | '/' :: '*' :: more =>
    match _h' : closeComment more with
    | some (inside, after) =>
      let r := skip after
      (blanks ++ '/' :: '*' :: inside ++ '*' :: '/' :: r.1, r.2)
    | none => (blanks, '/' :: '*' :: more)
  | rest => (blanks, rest)
termination_by cs.length
decreasing_by
  · have h1 := dropWhile_length Text.isBlank cs
    have h2 := dropWhile_length (· != '\n') more
    rw [_h] at h1
    simp only [List.length_cons] at h1
    omega
  · have h1 := dropWhile_length Text.isBlank cs
    have h2 : after.length < more.length := closeComment_length _h'
    rw [_h] at h1
    simp only [List.length_cons] at h1
    omega

theorem skip_append (cs : List Char) : (skip cs).1 ++ (skip cs).2 = cs := by
  fun_induction skip cs with
  | case1 cs blanks more h line r ih =>
    have h1 := List.takeWhile_append_dropWhile (p := Text.isBlank) (l := cs)
    have h2 := List.takeWhile_append_dropWhile (p := (· != '\n')) (l := more)
    rw [h] at h1
    simp only [List.append_assoc, List.cons_append, blanks, line, r] at ih ⊢
    rw [ih, h2, h1]
  | case2 cs blanks more h inside after h' r ih =>
    have h1 := List.takeWhile_append_dropWhile (p := Text.isBlank) (l := cs)
    rw [h, closeComment_append h'] at h1
    simp only [List.append_assoc, List.cons_append, blanks, r] at ih ⊢
    rw [ih, h1]
  | case3 cs blanks more h h' =>
    have h1 := List.takeWhile_append_dropWhile (p := Text.isBlank) (l := cs)
    rw [h] at h1
    exact h1
  | case4 cs blanks =>
    exact List.takeWhile_append_dropWhile

theorem skip_length (cs : List Char) : (skip cs).2.length ≤ cs.length := by
  have h := congrArg List.length (skip_append cs)
  simp only [List.length_append] at h
  omega

end SqlTree.Trivia
