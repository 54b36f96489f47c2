import TopologyAssist.Output.Tree

/-!
Trees as YAML in block style.

A text is written plain where it reads back as the same text, and in single quotes where it would
read as nothing, a truth value or a number, or where a character in it has a meaning of its own. A
list stands at the depth of its key, a record two spaces deeper.
-/

namespace TopologyAssist

namespace Yaml

/-- One digit at least, and only digits. -/
def isDigits (cs : List Char) : Bool := !cs.isEmpty && cs.all Char.isDigit

/-- A text without the sign it begins with. -/
def dropSign : List Char → List Char
  | '-' :: rest => rest
  | '+' :: rest => rest
  | cs => cs

/-- The text reads as a number: digits, a point among or around them, and an exponent. -/
def readsAsNumber (cs : List Char) : Bool :=
  let (mantissa, power) := (dropSign cs).span fun c => c != 'e' && c != 'E'
  let (before, behind) := mantissa.span fun c => c != '.'
  let behind := behind.drop 1
  before.all Char.isDigit && behind.all Char.isDigit && !(before.isEmpty && behind.isEmpty) &&
    (power.isEmpty || isDigits (dropSign (power.drop 1)))

/-- The text reads as nothing or as a truth value. -/
def readsAsWord (s : String) : Bool :=
  ["", "~", "null", "Null", "NULL", "true", "True", "TRUE", "false", "False", "FALSE"].contains s

/-- The first character opens something else than a plain text. -/
def opensOther : List Char → Bool
  | [] => false
  | c :: rest =>
    "#,[]&*!|>'\"%@`\x7b\x7d".toList.contains c ||
      (['-', '?', ':'].contains c && (rest.isEmpty || rest.head? == some ' '))

/-- A colon before a space or the end, or a number sign behind a space. -/
def hasMark : List Char → Bool
  | [] => false
  | c :: rest =>
    (c == ':' && (rest.isEmpty || rest.head? == some ' ')) ||
      (c == ' ' && rest.head? == some '#') || hasMark rest

/-- The text has a space at one of its ends. -/
def hasOuterSpace (cs : List Char) : Bool := cs.head? == some ' ' || cs.getLast? == some ' '

/-- The text may stand without quotes. -/
def isPlainText (s : String) : Bool :=
  let cs := s.toList
  !readsAsWord s && !readsAsNumber cs && !opensOther cs && !hasMark cs && !hasOuterSpace cs

/-- A text, in single quotes where it needs them. -/
def scalar (s : String) : String :=
  if isPlainText s then s
  else
    "'" ++ String.ofList (s.toList.flatMap fun c => if c == '\'' then ['\'', '\''] else [c]) ++ "'"

/-- Lines behind a mark on the first of them, the others moved in by as much. -/
def hang (mark margin : String) : List String → List String
  | [] => []
  | line :: rest => (mark ++ line) :: rest.map fun l => margin ++ l

/-- The lines of a tree that stands on its own, and whether it fits behind its key. -/
structure Block where
  lines : List String
  inline : Bool
  /-- The tree is a list, which stands at the depth of its key. -/
  isList : Bool

/-- One line that fits behind its key. -/
def Block.line (s : String) : Block := ⟨[s], true, false⟩

/-- The lines of an entry. -/
def entryLines (name : String) (b : Block) : List String :=
  if b.inline then hang (name ++ ": ") "" b.lines
  else (name ++ ":") :: (if b.isList then b.lines else b.lines.map fun l => "  " ++ l)

mutual

/-- A tree as lines. -/
def block : Tree → Block
  | .null => .line "null"
  | .bool b => .line (if b then "true" else "false")
  | .nat n => .line (toString n)
  | .text s => .line (scalar s)
  | .tagged tag s => .line ("!" ++ tag ++ " " ++ scalar s)
  | .list items => if items.isEmpty then .line "[]" else ⟨itemLines items, false, true⟩
  | .record entries =>
    if entries.isEmpty then .line "\x7b\x7d" else ⟨recordLines entries, false, false⟩

/-- The lines of a list. -/
def itemLines : List Tree → List String
  | [] => []
  | t :: ts => hang "- " "  " (block t).lines ++ itemLines ts

/-- The lines of a record. -/
def recordLines : List (String × Tree) → List String
  | [] => []
  | e :: es => pairLines e ++ recordLines es

/-- The lines of one entry of a record. -/
def pairLines : String × Tree → List String
  | (name, t) => entryLines name (block t)

end

end Yaml

/-- A tree as YAML. -/
def Tree.yaml (t : Tree) : String :=
  String.join ((Yaml.block t).lines.map fun line => line ++ "\n")

end TopologyAssist
