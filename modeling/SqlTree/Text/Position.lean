/-! # Positions in a source text

* `byteLength`: bytes of a text in UTF-8. Offsets count them.
* `Span`: a range of byte offsets, its cover `Span.merge` and the text it cuts out, `Span.slice`.
* `Location`: line and column, both from one. A column counts characters, and only a line feed
  starts a line. `Location.ofOffset` finds the location of a byte offset by walking the text.
* `Position`: an offset with its location, moved over a stretch of text by `Position.advance`.
-/

namespace SqlTree
set_option autoImplicit false

namespace Text

/-- The bytes that the characters take in UTF-8. -/
def byteLength : List Char → Nat
  | [] => 0
  | c :: cs => c.utf8Size + byteLength cs

@[simp] theorem byteLength_append (a b : List Char) :
    byteLength (a ++ b) = byteLength a + byteLength b := by
  induction a with
  | nil => simp [byteLength]
  | cons c cs ih => simp [byteLength, ih, Nat.add_assoc]

/-- What is left after `n` bytes, when a character begins or the text ends there. -/
def dropBytes : Nat → List Char → Option (List Char)
  | 0, cs => some cs
  | _ + 1, [] => none
  | n + 1, c :: cs => if c.utf8Size ≤ n + 1 then dropBytes (n + 1 - c.utf8Size) cs else none
termination_by _ cs => cs.length

/-- The first `n` bytes, when a character ends there. -/
def takeBytes : Nat → List Char → Option (List Char)
  | 0, _ => some []
  | _ + 1, [] => none
  | n + 1, c :: cs =>
    if c.utf8Size ≤ n + 1 then (takeBytes (n + 1 - c.utf8Size) cs).map (c :: ·) else none
termination_by _ cs => cs.length

end Text

/-! ## Spans -/

/-- The bytes from `start` up to but not including `stop`. -/
structure Span where
  start : Nat
  stop : Nat
  deriving DecidableEq, Repr

namespace Span

/-- The number of bytes, which a span that ends before it starts does not have. -/
def length? (s : Span) : Option Nat :=
  if s.start ≤ s.stop then some (s.stop - s.start) else none

/-- Whether the span begins where it ends. -/
def isEmpty (s : Span) : Bool :=
  s.start == s.stop

/-- The least span that covers both. -/
def merge (s t : Span) : Span :=
  ⟨min s.start t.start, max s.stop t.stop⟩

/-- The characters of `text` in the span, where both ends fall between characters of it. -/
def slice? (s : Span) (text : List Char) : Option (List Char) :=
  if s.start ≤ s.stop then
    (Text.dropBytes s.start text).bind (Text.takeBytes (s.stop - s.start))
  else none

/-- The text in the span; nothing where the span does not cut `text` between characters. -/
def slice (s : Span) (text : String) : String :=
  String.ofList ((s.slice? text.toList).getD [])

end Span

/-! ## Lines and columns -/

/-- A line and a column, both counted from one. -/
structure Location where
  line : Nat := 1
  column : Nat := 1
  deriving DecidableEq, Repr

namespace Location

/-- The location behind a character that stands at `l`. -/
def next (l : Location) (c : Char) : Location :=
  if c = '\n' then ⟨l.line + 1, 1⟩ else ⟨l.line, l.column + 1⟩

/-- The location reached from `l`, at byte offset `at`, once `offset` is not ahead any more. -/
def walk (offset : Nat) (l : Location) (position : Nat) : List Char → Location
  | [] => l
  | c :: cs =>
    if offset ≤ position then l else walk offset (l.next c) (position + c.utf8Size) cs

/-- The location of a byte offset. Inside a character it is the one behind that character. -/
def ofOffset (text : List Char) (offset : Nat) : Location :=
  walk offset {} 0 text

end Location

/-! ## Offset and location together -/

/-- A byte offset together with its location. -/
structure Position where
  offset : Nat := 0
  location : Location := {}
  deriving DecidableEq, Repr

namespace Position

/-- The position behind a character that stands at `p`. -/
def next (p : Position) (c : Char) : Position :=
  ⟨p.offset + c.utf8Size, p.location.next c⟩

/-- The position behind a stretch of text that begins at `p`. -/
def advance (p : Position) (cs : List Char) : Position :=
  cs.foldl next p

@[simp] theorem advance_nil (p : Position) : p.advance [] = p := rfl

@[simp] theorem advance_append (p : Position) (a b : List Char) :
    p.advance (a ++ b) = (p.advance a).advance b := by
  simp [advance]

theorem offset_advance (p : Position) (cs : List Char) :
    (p.advance cs).offset = p.offset + Text.byteLength cs := by
  induction cs generalizing p with
  | nil => simp [Text.byteLength]
  | cons c cs ih =>
    have h : p.advance (c :: cs) = (p.next c).advance cs := rfl
    rw [h, ih]
    simp [next, Text.byteLength, Nat.add_assoc]

end Position

end SqlTree
