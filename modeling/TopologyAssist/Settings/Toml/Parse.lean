import TopologyAssist.Settings.Toml.Scalar
import TopologyAssist.Settings.Toml.Table

/-!
Configuration files: the TOML text of a table.

A file is a row of lines, each a key and its value or the header of a table. Keys may be paths with
dots. The parser answers with the table or, for any other text, with nothing.
-/

namespace TopologyAssist

namespace Toml

/-! ### Values -/

mutual

/-- The value that a text begins with, and the rest. Lists and tables lie in each other up to the
depth that is left. -/
def value? : Nat → Nat → List Char → Option (ConfigValue × List Char)
  | 0, _, _ => none
  | fuel + 1, depth, cs =>
    match cs with
    | '[' :: rest => if depth = 0 then none else items? fuel (depth - 1) [] rest
    | '\x7b' :: rest =>
      if depth = 0 then none
      else
        match skipSpace rest with
        | '\x7d' :: rest => some (.table [], rest)
        | rest => pairs? fuel (depth - 1) [] rest
    | '"' :: _ | '\'' :: _ => (string? cs).map fun p => (.text (String.ofList p.1), p.2)
    | _ =>
      match moment? cs with
      | some (text, rest) => some (.text (String.ofList text), rest)
      | none =>
        let text := cs.takeWhile isWordChar
        (word? text).map fun v => (v, cs.drop text.length)

/-- The items of a list up to its bracket; `found` holds those already read, the last one
first. -/
def items? : Nat → Nat → List ConfigValue → List Char → Option (ConfigValue × List Char)
  | 0, _, _, _ => none
  | fuel + 1, depth, found, cs =>
    (skipLines? (cs.length + 1) cs).bind fun cs =>
      match cs with
      | ']' :: rest => some (.list found.reverse, rest)
      | _ =>
        (value? fuel depth cs).bind fun (v, rest) =>
          (skipLines? (rest.length + 1) rest).bind fun rest =>
            match rest with
            | ',' :: rest => items? fuel depth (v :: found) rest
            | ']' :: rest => some (.list (v :: found).reverse, rest)
            | _ => none

/-- The entries of a table in braces, one at least; `found` holds those already read. -/
def pairs? : Nat → Nat → Entries → List Char → Option (ConfigValue × List Char)
  | 0, _, _, _ => none
  | fuel + 1, depth, found, cs =>
    (keys? cs).bind fun (path, rest) =>
      match rest with
      | '=' :: rest =>
        (value? fuel depth (skipSpace rest)).bind fun (v, rest) =>
          (define (.leaf v) path .header found).bind fun found =>
            match skipSpace rest with
            | ',' :: rest => pairs? fuel depth found rest
            | '\x7d' :: rest => some (.table (entryValues found), rest)
            | _ => none
      | _ => none

end

/-! ### Files -/

/-- A file while it is read: its tables, and the path of the header that the lines are under. -/
structure File where
  root : Entries
  current : List String

/-- One line of a file, not an empty one: the file with it, and the text behind it. -/
def line? (f : File) (cs : List Char) : Option (File × List Char) :=
  match cs with
  | '[' :: '[' :: rest =>
    (keys? rest).bind fun (path, rest) =>
      match rest with
      | ']' :: ']' :: rest => (openRow path f.root).map fun root => (⟨root, path⟩, rest)
      | _ => none
  | '[' :: rest =>
    (keys? rest).bind fun (path, rest) =>
      match rest with
      | ']' :: rest => (openTable path f.root).map fun root => (⟨root, path⟩, rest)
      | _ => none
  | _ =>
    (keys? cs).bind fun (path, rest) =>
      match rest with
      | '=' :: rest =>
        (value? (rest.length + 1) depthLimit (skipSpace rest)).bind fun (v, rest) =>
          (defineIn (.leaf v) path f.current f.root).map fun root => (⟨root, f.current⟩, rest)
      | _ => none

/-- The lines of a file. -/
def lines? : Nat → File → List Char → Option File
  | 0, _, _ => none
  | fuel + 1, f, cs =>
    (skipLines? (cs.length + 1) cs).bind fun cs =>
      if cs.isEmpty then some f
      else
        (line? f cs).bind fun (f, rest) => (lineEnd? rest).bind fun rest => lines? fuel f rest

/-- A text without the byte order mark it begins with. -/
def dropMark : List Char → List Char
  | c :: cs => if c.toNat = 0xFEFF then cs else c :: cs
  | [] => []

/-- The table that a file holds. -/
def parse? (text : List Char) : Option (List (String × ConfigValue)) :=
  let text := dropMark text
  (lines? (text.length + 1) ⟨[], []⟩ text).map fun f => entryValues f.root

end Toml

end TopologyAssist
