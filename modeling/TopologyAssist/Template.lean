import TopologyAssist.Grammar.Lookup

/-!
Templates: elements as snippets with tab stops.

A field is written `name=` and a placeholder, a dollar sign and the number of its tab stop and its
text in braces. Fields are joined by commas in the order of the table. Numbers go up by one from
field to field, also from one block to the next, so the blocks of an element make one snippet. They
go on from one template to another if the templates are asked for together.
-/

namespace TopologyAssist

namespace Template

/-- The character has a meaning of its own inside a placeholder. -/
def isSpecial (c : Char) : Bool := c == '$' || c == '}' || c == '\\'

/-- The characters of a placeholder's text, with a backslash before each special one. -/
def escapeChars (cs : List Char) : List Char :=
  cs.flatMap fun c => if isSpecial c then ['\\', c] else [c]

/-- A placeholder's text as a snippet writes it. -/
def escape (text : String) : String := String.ofList (escapeChars text.toList)

/-- What a field's placeholder shows: its only value, else its default if defaults are asked for,
else its label. -/
def placeholder (f : FieldSpec) (useDefaults : Bool) : String :=
  match f.validValues with
  | [only] => only
  | _ => if useDefaults then f.formattedDefault.getD f.detail else f.detail

/-- A tab stop and the text it shows. -/
def tabStop (index : Nat) (text : String) : String :=
  "$\x7b" ++ toString index ++ ":" ++ escape text ++ "\x7d"

/-- One field with its tab stop. -/
def field (useDefaults : Bool) (index : Nat) (f : FieldSpec) : String :=
  f.name ++ "=" ++ tabStop index (placeholder f useDefaults)

/-- The fields one by one, with tab stops from `next` on. -/
def fieldParts (useDefaults : Bool) : Nat → List FieldSpec → List String
  | _, [] => []
  | next, f :: fs => field useDefaults next f :: fieldParts useDefaults (next + 1) fs

/-- The fields of one block with tab stops from `next` on, and the number of the next one. -/
def fields (useDefaults : Bool) (next : Nat) (fs : List FieldSpec) : String × Nat :=
  (",".intercalate (fieldParts useDefaults next fs), next + fs.length)

/-- The function blocks of an element, each with the first kind of its family. A family without
kinds is left out. -/
def blocks (g : Grammar) (useDefaults : Bool) : Nat → List FamilyCode → List String × Nat
  | next, [] => ([], next)
  | next, slot :: slots =>
    match g.defaultKind? (.ofFamily slot) with
    | none => blocks g useDefaults next slots
    | some k =>
      let (inner, next) := fields useDefaults next k.fields
      let (rest, next) := blocks g useDefaults next slots
      ((slot.text ++ "=(" ++ inner ++ ")") :: rest, next)

/-- A whole element with tab stops from `next` on, its own fields first and then its function
blocks, and the number of the next tab stop. -/
def element (g : Grammar) (useDefaults : Bool) (next : Nat) (k : ElementKind) : String × Nat :=
  let (own, next) := fields useDefaults next k.fields
  let (inner, next) := blocks g useDefaults next k.slots
  (",".intercalate ((own :: inner).filter fun part => !part.isEmpty), next)

/-- What is asked of templates that share their numbers. -/
inductive Request where
  | fields (fs : List FieldSpec)
  | element (k : ElementKind)
  deriving DecidableEq, Repr

/-- The text for one request with tab stops from `next` on, and the number of the next one. -/
def Request.write (g : Grammar) (useDefaults : Bool) (next : Nat) : Request → String × Nat
  | fields fs => Template.fields useDefaults next fs
  | element k => Template.element g useDefaults next k

/-- The texts for several requests, one after the other, and the number of the next tab stop. -/
def writeAll (g : Grammar) (useDefaults : Bool) : Nat → List Request → List String × Nat
  | next, [] => ([], next)
  | next, request :: requests =>
    let (text, next) := request.write g useDefaults next
    let (texts, next) := writeAll g useDefaults next requests
    (text :: texts, next)

end Template

end TopologyAssist
