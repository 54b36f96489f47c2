/-!
The texts of a configuration file: its layout, its quoted texts and its keys.

A quoted text keeps to one line unless three quotes open it. Double quotes let a backslash stand for
characters that are hard to write; single quotes take every character as it is.
-/

namespace TopologyAssist

namespace Toml

/-! ### Characters and layout -/

/-- A space or a tab. -/
def isSpace (c : Char) : Bool := c == ' ' || c == '\t'

/-- A character that no text and no comment may hold. -/
def isControl (c : Char) : Bool := (c.toNat < 0x20 && c != '\t') || c.toNat == 0x7F

/-- A character of a key without quotes. -/
def isBareChar (c : Char) : Bool := c.isAlphanum || c == '_' || c == '-'

/-- A text without the spaces and tabs it begins with. -/
def skipSpace (cs : List Char) : List Char := cs.dropWhile isSpace

/-- A text behind the line break it begins with. -/
def newline? : List Char → Option (List Char)
  | '\n' :: rest => some rest
  | '\r' :: '\n' :: rest => some rest
  | _ => none

/-- A text behind the comment it begins with, if it begins with one. -/
def skipComment? : List Char → Option (List Char)
  | '#' :: rest =>
    let rest := rest.dropWhile fun c => !isControl c
    if rest.isEmpty || (newline? rest).isSome then some rest else none
  | cs => some cs

/-- A text behind the end of its line: spaces, a comment and the line break or the end. -/
def lineEnd? (cs : List Char) : Option (List Char) :=
  (skipComment? (skipSpace cs)).bind fun rest => if rest.isEmpty then some [] else newline? rest

/-- A text behind spaces, comments and line breaks. -/
def skipLines? : Nat → List Char → Option (List Char)
  | 0, cs => some cs
  | fuel + 1, cs =>
    (skipComment? (skipSpace cs)).bind fun rest =>
      match newline? rest with
      | some next => skipLines? fuel next
      | none => some rest

/-! ### Texts -/

/-- The value of a hexadecimal digit. -/
def hexDigit? (c : Char) : Option Nat :=
  if c.isDigit then some (c.toNat - '0'.toNat)
  else if 'a' ≤ c ∧ c ≤ 'f' then some (c.toNat - 'a'.toNat + 10)
  else if 'A' ≤ c ∧ c ≤ 'F' then some (c.toNat - 'A'.toNat + 10)
  else none

/-- The character with this code in hexadecimal digits. -/
def scalar? (digits : List Char) : Option Char :=
  (digits.mapM hexDigit?).bind fun ds =>
    let code := ds.foldl (fun n d => n * 16 + d) 0
    if code < 0xD800 ∨ (0xDFFF < code ∧ code < 0x110000) then some (Char.ofNat code) else none

/-- The character that a letter behind a backslash stands for. -/
def escape? (c : Char) : Option Char :=
  if c == 'b' then some '\x08'
  else if c == 't' then some '\t'
  else if c == 'n' then some '\n'
  else if c == 'f' then some '\x0c'
  else if c == 'r' then some '\r'
  else if c == '"' then some '"'
  else if c == '\\' then some '\\'
  else none

/-- The escape that a text behind a backslash begins with, and the rest. -/
def escaped? : List Char → Option (Char × List Char)
  | 'u' :: a :: b :: c :: d :: rest => (scalar? [a, b, c, d]).map fun ch => (ch, rest)
  | 'U' :: a :: b :: c :: d :: e :: f :: g :: h :: rest =>
    (scalar? [a, b, c, d, e, f, g, h]).map fun ch => (ch, rest)
  | c :: rest => (escape? c).map fun ch => (ch, rest)
  | [] => none

/-- A text in double quotes, behind the first one. -/
def basic? : Nat → List Char → Option (List Char × List Char)
  | 0, _ => none
  | _ + 1, [] => none
  | fuel + 1, c :: cs =>
    if c == '"' then some ([], cs)
    else if c == '\\' then
      (escaped? cs).bind fun (ch, rest) => (basic? fuel rest).map fun p => (ch :: p.1, p.2)
    else if isControl c then none
    else (basic? fuel cs).map fun p => (c :: p.1, p.2)

/-- A text in single quotes, behind the first one. -/
def literal? : List Char → Option (List Char × List Char)
  | [] => none
  | c :: cs =>
    if c == '\'' then some ([], cs)
    else if isControl c then none
    else (literal? cs).map fun p => (c :: p.1, p.2)

/-- The end of a text in three quotes: three quotes in a row, or up to five of which all but three
belong to the text. -/
def closing? (quote : Char) (cs : List Char) : Option (List Char × List Char) :=
  let run := (cs.takeWhile fun c => c == quote).take 5
  if 3 ≤ run.length then some (run.drop 3, cs.drop run.length) else none

/-- A text without the spaces, tabs and line breaks it begins with. -/
def skipBlankLines : List Char → List Char
  | ' ' :: cs => skipBlankLines cs
  | '\t' :: cs => skipBlankLines cs
  | '\n' :: cs => skipBlankLines cs
  | '\r' :: '\n' :: cs => skipBlankLines cs
  | cs => cs

/-- A text in three double quotes, behind them. Every line break is the same one, and a backslash at
the end of a line drops the blanks up to the next text. -/
def longBasic? : Nat → List Char → Option (List Char × List Char)
  | 0, _ => none
  | _ + 1, [] => none
  | fuel + 1, c :: cs =>
    match closing? '"' (c :: cs) with
    | some found => some found
    | none =>
      if c == '\\' then
        match newline? (skipSpace cs) with
        | some rest => longBasic? fuel (skipBlankLines rest)
        | none =>
          (escaped? cs).bind fun (ch, rest) =>
            (longBasic? fuel rest).map fun p => (ch :: p.1, p.2)
      else
        match newline? (c :: cs) with
        | some rest => (longBasic? fuel rest).map fun p => ('\n' :: p.1, p.2)
        | none =>
          if isControl c then none else (longBasic? fuel cs).map fun p => (c :: p.1, p.2)

/-- A text in three single quotes, behind them. Every line break is the same one. -/
def longLiteral? : Nat → List Char → Option (List Char × List Char)
  | 0, _ => none
  | _ + 1, [] => none
  | fuel + 1, c :: cs =>
    match closing? '\'' (c :: cs) with
    | some found => some found
    | none =>
      match newline? (c :: cs) with
      | some rest => (longLiteral? fuel rest).map fun p => ('\n' :: p.1, p.2)
      | none =>
        if isControl c then none else (longLiteral? fuel cs).map fun p => (c :: p.1, p.2)

/-- A text without the line break it begins with. -/
def dropNewline (cs : List Char) : List Char := (newline? cs).getD cs

/-- The text that a value begins with, if it begins with quotes. -/
def string? (cs : List Char) : Option (List Char × List Char) :=
  match cs with
  | '"' :: '"' :: '"' :: rest => longBasic? (rest.length + 1) (dropNewline rest)
  | '"' :: rest => basic? (rest.length + 1) rest
  | '\'' :: '\'' :: '\'' :: rest => longLiteral? (rest.length + 1) (dropNewline rest)
  | '\'' :: rest => literal? rest
  | _ => none

/-! ### Keys -/

/-- The key that a text begins with, and the rest. -/
def key? (cs : List Char) : Option (String × List Char) :=
  match cs with
  | '"' :: rest => (basic? (rest.length + 1) rest).map fun p => (String.ofList p.1, p.2)
  | '\'' :: rest => (literal? rest).map fun p => (String.ofList p.1, p.2)
  | _ =>
    let bare := cs.takeWhile isBareChar
    if bare.isEmpty then none else some (String.ofList bare, cs.drop bare.length)

/-- How deep tables and lists may lie in each other, and keys in a row. -/
def depthLimit : Nat := 79

/-- The keys with dots between them that a text begins with, up to this many, and the rest without
spaces. -/
def keysUpTo? : Nat → List Char → Option (List String × List Char)
  | 0, _ => none
  | more + 1, cs =>
    (key? (skipSpace cs)).bind fun (key, rest) =>
      match skipSpace rest with
      | '.' :: rest => (keysUpTo? more rest).map fun p => (key :: p.1, p.2)
      | rest => some ([key], rest)

/-- The keys with dots between them that a text begins with, and the rest without spaces. -/
def keys? (cs : List Char) : Option (List String × List Char) := keysUpTo? depthLimit cs

end Toml

end TopologyAssist
