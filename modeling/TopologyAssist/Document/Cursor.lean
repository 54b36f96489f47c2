import TopologyAssist.Document.Position
import TopologyAssist.Text.Layout

/-!
A cursor: a position found in a text.

The text splits into what stands above the cursor's line, the line up to the cursor and the rest
of the line. A position that the text does not have moves to the nearest one it has: a line past
the last goes to the end of the text, a column past the line to the end of the line. A line ends
before its line break, and one carriage return before that is no part of the line either.
-/

namespace TopologyAssist

/-- The text up to its first line break and the text after it. -/
def splitLine? : List Char → Option (List Char × List Char)
  | [] => none
  | c :: cs => if c = '\n' then some ([], cs) else (splitLine? cs).map fun p => (c :: p.1, p.2)

/-- Walks down `n` lines, or as many as there are: the text passed, the lines passed and the
rest. -/
def walkLines : Nat → List Char → List Char × Nat × List Char
  | 0, cs => ([], 0, cs)
  | n + 1, cs =>
    match splitLine? cs with
    | none => ([], 0, cs)
    | some (line, rest) =>
      let (above, k, below) := walkLines n rest
      (line ++ '\n' :: above, k + 1, below)

/-- A line without the one carriage return that may end it. -/
def dropReturn : List Char → List Char
  | [] => []
  | [c] => if c = '\r' then [] else [c]
  | c :: cs => c :: dropReturn cs

/-- A place in a text: the text above its line, the number of the line, and the line on both
sides of the cursor. -/
structure Cursor where
  above : List Char
  line : Nat
  before : List Char
  after : List Char
  deriving DecidableEq, Repr

namespace Cursor

/-- The cursor at a position of a text, moved into the text where it is outside. -/
def locate (text : List Char) (p : Position) : Cursor :=
  let (above, line, rest) := walkLines p.line text
  let whole := dropReturn (rest.takeWhile fun c => c != '\n')
  if line < p.line then ⟨above, line, whole, []⟩
  else ⟨above, line, whole.take p.column, whole.drop p.column⟩

/-- The column the cursor stands at. -/
def column (c : Cursor) : Nat := c.before.length

/-- The position the cursor stands at. -/
def position (c : Cursor) : Position := ⟨c.line, c.column⟩

/-- The text from its start up to the cursor. -/
def preceding (c : Cursor) : List Char := c.above ++ c.before

/-- The cursor's line without its line break. -/
def wholeLine (c : Cursor) : List Char := c.before ++ c.after

/-- The cursor stands inside a comment. -/
def inComment (c : Cursor) : Bool := opensComment c.before

/-- The span of some characters left of the cursor and some right of it. -/
def span (c : Cursor) (left right : Nat) : LineSpan :=
  ⟨c.line, c.column - left, c.column + right⟩

end Cursor

end TopologyAssist
