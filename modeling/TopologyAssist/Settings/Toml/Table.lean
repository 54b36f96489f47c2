import TopologyAssist.Settings.Value

/-!
The tables of a configuration file while it is read.

A table remembers how it came to be, since that decides what may still be added to it: a key is set
once, a table has one header at most, and keys with dots do not reach into a table that has one.
-/

namespace TopologyAssist

namespace Toml

/-! ### Tables -/

/-- How a table came to be. -/
inductive Origin where
  /-- By its header. -/
  | header
  /-- As a table on the way to another's header. -/
  | implied
  /-- By a key with dots. -/
  | dotted
  deriving DecidableEq, Repr

/-- A table while its file is read. -/
inductive Node where
  | leaf (v : ConfigValue)
  | table (origin : Origin) (entries : List (String × Node))
  /-- A table for each header in double brackets, the last one first. -/
  | rows (tables : List (List (String × Node)))

/-- The entries of a table while its file is read. -/
abbrev Entries := List (String × Node)

mutual

/-- The value of a node. -/
def Node.value : Node → ConfigValue
  | .leaf v => v
  | .table _ es => .table (entryValues es)
  | .rows ts => .list (rowValues ts)

/-- The values of a table's entries. -/
def entryValues : List (String × Node) → List (String × ConfigValue)
  | [] => []
  | e :: es => entryValue e :: entryValues es

/-- The value of one entry. -/
def entryValue : String × Node → String × ConfigValue
  | (key, n) => (key, n.value)

/-- The values of tables, the last one first, put in order. -/
def rowValues : List (List (String × Node)) → List ConfigValue
  | [] => []
  | t :: ts => rowValues ts ++ [.table (entryValues t)]

end

/-- Sets a key, in its place if the table has it, else at the end. -/
def assign (key : String) (n : Node) : Entries → Entries
  | [] => [(key, n)]
  | e :: es => if e.1 = key then (key, n) :: es else e :: assign key n es

/-- Changes the entries of the table under a key. A missing table is made, with this origin; a
dotted key does not reach into a table that has a header. -/
def within (origin : Origin) (key : String) (change : Origin → Entries → Option Entries)
    (es : Entries) : Option Entries :=
  match es.lookup key with
  | none => (change origin []).map fun inner => assign key (.table origin inner) es
  | some (.table o inner) =>
    if origin = .dotted ∧ o = .header then none
    else (change o inner).map fun inner => assign key (.table o inner) es
  | some (.rows (t :: ts)) =>
    (change .header t).map fun t => assign key (.rows (t :: ts)) es
  | some _ => none

/-- Sets the value of a path of keys inside a table. A path of several keys ends in a table that
dotted keys made. -/
def define (v : Node) : List String → Origin → Entries → Option Entries
  | [], _, _ => none
  | [key], _, es => if (es.lookup key).isSome then none else some (assign key v es)
  | key :: rest, _, es =>
    within .dotted key (fun origin inner =>
      if rest.length = 1 ∧ origin ≠ .dotted then none else define v rest origin inner) es

/-- Sets the value of a path inside the table of a header. -/
def defineIn (v : Node) (path : List String) : List String → Entries → Option Entries
  | [], es => define v path .header es
  | key :: rest, es => within .implied key (fun _ inner => defineIn v path rest inner) es

/-- Gives a table its header. -/
def openTable : List String → Entries → Option Entries
  | [], _ => none
  | [key], es =>
    match es.lookup key with
    | none => some (assign key (.table .header []) es)
    | some (.table .implied inner) => some (assign key (.table .header inner) es)
    | some _ => none
  | key :: rest, es => within .implied key (fun _ inner => openTable rest inner) es

/-- Adds a table to the tables of a header in double brackets. -/
def openRow : List String → Entries → Option Entries
  | [], _ => none
  | [key], es =>
    match es.lookup key with
    | none => some (assign key (.rows [[]]) es)
    | some (.rows ts) => some (assign key (.rows ([] :: ts)) es)
    | some _ => none
  | key :: rest, es => within .implied key (fun _ inner => openRow rest inner) es

end Toml

end TopologyAssist
