/-!
Places in a text: a line and a column, and a stretch of one line.

Both count from zero and count characters. What a person reads and writes counts from one.
-/

namespace TopologyAssist

/-- A line and a column, both from zero. -/
structure Position where
  line : Nat
  column : Nat
  deriving DecidableEq, Repr

namespace Position

/-- The position a person writes, counting from one; a zero counts as one. -/
def ofOneBased (line column : Nat) : Position := ⟨line - 1, column - 1⟩

/-- The position as a person reads it, `line:column` from one. -/
def display (p : Position) : String := toString (p.line + 1) ++ ":" ++ toString (p.column + 1)

end Position

/-- The characters of one line from `start` up to `stop`. -/
structure LineSpan where
  line : Nat
  start : Nat
  stop : Nat
  deriving DecidableEq, Repr

end TopologyAssist
