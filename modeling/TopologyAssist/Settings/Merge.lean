import TopologyAssist.Settings.Value
import TopologyAssist.Text.LowerCase

/-!
How configuration values merge.

Keys do not distinguish case. A later value wins: a plain value replaces what was there, a table is
merged into it key by key. A table with keys turns a plain value into a table; one without keys
leaves it as it is.
-/

namespace TopologyAssist

namespace ConfigValue

/-- Sets a key, in its place if the table has it, else at the end. -/
def assign (key : String) (v : ConfigValue) :
    List (String × ConfigValue) → List (String × ConfigValue)
  | [] => [(key, v)]
  | e :: es => if e.1 = key then (key, v) :: es else e :: assign key v es

mutual

/-- Puts a value under a key of a table: a table is merged into what is there, any other value
replaces it. -/
def put (root : ConfigValue) (key : String) : ConfigValue → ConfigValue
  | table incoming =>
    table (assign (lowerCase key)
      (mergeEntries ((root.get? (lowerCase key)).getD (table [])) incoming) root.entries)
  | nil => table (assign (lowerCase key) nil root.entries)
  | bool b => table (assign (lowerCase key) (bool b) root.entries)
  | int n => table (assign (lowerCase key) (int n) root.entries)
  | decimal x => table (assign (lowerCase key) (decimal x) root.entries)
  | text s => table (assign (lowerCase key) (text s) root.entries)
  | list vs => table (assign (lowerCase key) (list vs) root.entries)

/-- Puts entries into a table one by one. -/
def mergeEntries (target : ConfigValue) : List (String × ConfigValue) → ConfigValue
  | [] => target
  | e :: es => mergeEntries (putEntry target e) es

/-- Puts one entry into a table. -/
def putEntry (target : ConfigValue) : String × ConfigValue → ConfigValue
  | (key, v) => put target key v

end

/-- Changes one item of a list; an index below zero counts from the end. Where the list does not
reach, at either end, it grows by items without a value. -/
def changeItem (index : Int) (change : ConfigValue → ConfigValue) (vs : List ConfigValue) :
    List ConfigValue :=
  if 0 ≤ index then
    (vs ++ List.replicate (index.toNat + 1 - vs.length) nil).modify index.toNat change
  else
    (List.replicate (index.natAbs - vs.length) nil ++ vs).modify (vs.length - index.natAbs) change

/-- Puts a value at the end of a path; what stands in the way becomes a table or a list. An item of
a list is replaced and not merged. -/
def putAt (root : ConfigValue) : List Step → ConfigValue → ConfigValue
  | [], _ => root
  | [.key name], v => put root name v
  | [.item index], v => list (changeItem index (fun _ => v) root.items)
  | .key name :: rest, v =>
    table (assign (lowerCase name) (putAt ((root.get? (lowerCase name)).getD nil) rest v)
      root.entries)
  | .item index :: rest, v => list (changeItem index (fun w => putAt w rest v) root.items)

/-- Puts values at the ends of paths, one after the other. -/
def putAll (root : ConfigValue) (writes : List (List Step × ConfigValue)) : ConfigValue :=
  writes.foldl (fun root write => root.putAt write.1 write.2) root

end ConfigValue

/-! ### Paths -/

/-- A character of a key in a path. -/
def isPathChar (c : Char) : Bool := c.isAlphanum || c == '_' || c == '-' || c == ' '

/-- The key that a path begins with, in lower case, and the rest. -/
def keyStep? (cs : List Char) : Option (Step × List Char) :=
  let name := cs.takeWhile isPathChar
  if name.isEmpty then none
  else some (.key (lowerCase (String.ofList name)), cs.drop name.length)

/-- The least index that a path can hold. -/
def leastIndex : Int := -9223372036854775808

/-- The greatest index that a path can hold. -/
def greatestIndex : Int := 9223372036854775807

/-- The index that a text begins with, with blanks around it, up to the bracket that closes it, and
the rest. -/
def itemStep? (cs : List Char) : Option (Step × List Char) :=
  let blank (c : Char) : Bool := c == ' ' || c == '\t'
  let (minus, cs) :=
    match cs.dropWhile blank with
    | '-' :: cs => (true, cs)
    | cs => (false, cs)
  let digits := cs.takeWhile Char.isDigit
  let size : Int := digits.foldl (fun n c => n * 10 + (c.toNat - '0'.toNat)) 0
  let index := if minus then -size else size
  match (cs.drop digits.length).dropWhile blank with
  | ']' :: rest =>
    if digits.isEmpty ∨ index < leastIndex ∨ greatestIndex < index then none
    else some (.item index, rest)
  | _ => none

/-- The step that a text begins with, and the rest: a key behind a dot, or an index in brackets. -/
def laterStep? : List Char → Option (Step × List Char)
  | '.' :: rest => keyStep? rest
  | '[' :: rest => itemStep? rest
  | _ => none

/-- The steps that follow the first one of a path. -/
def laterSteps? : Nat → List Char → Option (List Step)
  | 0, _ => none
  | fuel + 1, cs =>
    if cs.isEmpty then some []
    else
      (laterStep? cs).bind fun (step, rest) =>
        (laterSteps? fuel rest).map fun steps => step :: steps

/-- The steps of a path. The first one is a key. -/
def parsePath? (path : String) : Option (List Step) :=
  (keyStep? path.toList).bind fun (step, rest) =>
    (laterSteps? (rest.length + 1) rest).map fun steps => step :: steps

end TopologyAssist
