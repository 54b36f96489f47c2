import TopologyAssist.Output.Tree

/-!
Trees as JSON, over several lines and indented by two spaces.

Quotes, backslashes and control characters are escaped; every other character stands for itself.
A marked text is an object with its mark as the only key.
-/

namespace TopologyAssist

namespace Json

/-- A hexadecimal number of two digits. -/
def hexPair (n : Nat) : List Char :=
  let ds := Nat.toDigits 16 n
  List.replicate (2 - ds.length) '0' ++ ds

/-- One character of a text. -/
def escapeChar (c : Char) : List Char :=
  if c == '"' || c == '\\' then ['\\', c]
  else if c == '\n' then ['\\', 'n']
  else if c == '\r' then ['\\', 'r']
  else if c == '\t' then ['\\', 't']
  else if c == '\x08' then ['\\', 'b']
  else if c == '\x0c' then ['\\', 'f']
  else if c.toNat < 0x20 then ['\\', 'u', '0', '0'] ++ hexPair c.toNat
  else [c]

/-- A text in quotes. -/
def quote (s : String) : String :=
  "\"" ++ String.ofList (s.toList.flatMap escapeChar) ++ "\""

/-- The spaces before a line. -/
def indent (depth : Nat) : String := String.ofList (List.replicate (2 * depth) ' ')

/-- Lines between two brackets, with commas between them, at this depth; nothing stands between
the brackets if there are no lines. -/
def enclose (depth : Nat) (left right : String) (parts : List String) : String :=
  if parts.isEmpty then left ++ right
  else
    left ++ "\n" ++ ",\n".intercalate (parts.map fun part => indent (depth + 1) ++ part) ++ "\n" ++
      indent depth ++ right

mutual

/-- A tree at this depth. -/
def print (depth : Nat) : Tree → String
  | .null => "null"
  | .bool b => if b then "true" else "false"
  | .nat n => toString n
  | .text s => quote s
  | .tagged tag s => enclose depth "\x7b" "\x7d" [quote tag ++ ": " ++ quote s]
  | .list items => enclose depth "[" "]" (printItems (depth + 1) items)
  | .record entries => enclose depth "\x7b" "\x7d" (printEntries (depth + 1) entries)

/-- The items of a list. -/
def printItems (depth : Nat) : List Tree → List String
  | [] => []
  | t :: ts => print depth t :: printItems depth ts

/-- The entries of a record. -/
def printEntries (depth : Nat) : List (String × Tree) → List String
  | [] => []
  | e :: es => printEntry depth e :: printEntries depth es

/-- One entry of a record. -/
def printEntry (depth : Nat) : String × Tree → String
  | (name, t) => quote name ++ ": " ++ print depth t

end

end Json

/-- A tree as JSON. -/
def Tree.json (t : Tree) : String := Json.print 0 t

end TopologyAssist
