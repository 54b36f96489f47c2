import TopologyAssist.Grammar.Lookup
import TopologyAssist.Text.Reader

/-!
The shapes that the open end of a description may have.

A description is unfinished while it is typed, so it is read from its end: a shape says how the
text from some section opening to the cursor looks. For every section the shapes are tried in this
order, and the first that fits decides:

* in the value of a function block, `SEC=[...(...,FAM=(...,key=val`;
* in the fields of a function block, `SEC=[...(...,FAM=(...`;
* where a function block opens, `SEC=[...(...,FAM=`;
* in the value of an element, `SEC=[...(...,key=val`;
* in the fields of an element, `SEC=[...(...`;
* between elements, `SEC=[(...),(...),`.

The first three exist only where a kind of the section has slots for function blocks. A text that
fits no section may still stand between sections, behind a closed one or at its beginning.
-/

namespace TopologyAssist

/-! ### Characters -/

/-- One of the four brackets. -/
def isBracket (c : Char) : Bool := c == '(' || c == ')' || c == '[' || c == ']'

/-- A character of the plain text inside a block. -/
def isPlain (c : Char) : Bool := !isBracket c

/-- A character of a key: an ASCII letter, an ASCII digit or `_`. -/
def isKeyChar (c : Char) : Bool := c.isAlphanum || c == '_'

/-- A character that no value holds. -/
def endsValue (c : Char) : Bool := isBracket c || c == ',' || c == '='

/-- A character of a value. -/
def isValueChar (c : Char) : Bool := !endsValue c

/-! ### Blocks -/

/-- What a block without function blocks holds. -/
def flatBody : Reader Unit := Reader.run isPlain

/-- A closed block without blocks in it. -/
def flatBlock : Reader Unit := do
  Reader.word ['(']
  flatBody
  Reader.word [')']

/-- What a block holds; `slotted` says that closed blocks may stand in it. -/
def body (slotted : Bool) : Reader Unit :=
  if slotted then Reader.many (Reader.either (Reader.one isPlain) flatBlock) else flatBody

/-- A closed element. -/
def element (slotted : Bool) : Reader Unit := do
  Reader.word ['(']
  body slotted
  Reader.word [')']

/-- Closed elements, a comma after any of them. -/
def elements (slotted : Bool) : Reader Unit :=
  Reader.many do
    element slotted
    Reader.maybe (Reader.word [','])

/-- The opening of a section list and its closed elements. -/
def openList (code : SectionCode) (slotted : Bool) : Reader Unit := do
  Reader.word (code.text.toList ++ ['=', '['])
  elements slotted

/-- The fields before the one at hand, with the comma that ends them. -/
def earlierFields (slotted : Bool) : Reader Unit :=
  Reader.maybe do
    body slotted
    Reader.word [',']

/-- One of the function families, by its code. -/
def familyCode (slots : List FamilyCode) : Reader FamilyCode :=
  Reader.oneOf (slots.map fun f => do
    Reader.word f.text.toList
    pure f)

/-! ### Places -/

/-- What the open end of a section list was recognised as. The block is the function block that
holds the cursor, if one does; the scope is the text of the innermost block up to the cursor. -/
inductive Place where
  | newElement
  | newBlock (family : FamilyCode)
  | field (block : Option FamilyCode) (scope : List Char)
  | value (block : Option FamilyCode) (scope key fragment : List Char)
  deriving DecidableEq, Repr

/-- The end of a text inside a value: the earlier fields, a key, `=` and the value so far. -/
def valueEnd (slotted : Bool) (block : Option FamilyCode) : Reader Place := do
  let scope ← Reader.here
  earlierFields slotted
  let start ← Reader.here
  Reader.run1 isKeyChar
  let stop ← Reader.here
  Reader.word ['=']
  let fragment ← Reader.here
  Reader.run isValueChar
  Reader.finish
  pure (.value block scope (textBefore start stop) fragment)

/-- The end of a text inside the fields of a block. -/
def fieldEnd (slotted : Bool) (block : Option FamilyCode) : Reader Place := do
  let scope ← Reader.here
  body slotted
  Reader.finish
  pure (.field block scope)

/-- An open element up to the code of a function block and its `=`. -/
def blockStart (code : SectionCode) (slots : List FamilyCode) : Reader FamilyCode := do
  openList code true
  Reader.word ['(']
  earlierFields true
  let family ← familyCode slots
  Reader.word ['=']
  pure family

/-- The shapes inside the function blocks of a section's elements. -/
def blockShapes (code : SectionCode) (slots : List FamilyCode) : List (Reader Place) :=
  [ do
      let family ← blockStart code slots
      Reader.word ['(']
      valueEnd false (some family),
    do
      let family ← blockStart code slots
      Reader.word ['(']
      fieldEnd false (some family),
    do
      let family ← blockStart code slots
      Reader.finish
      pure (.newBlock family) ]

/-- The shapes of a section's list and elements. -/
def listShapes (code : SectionCode) (slotted : Bool) : List (Reader Place) :=
  [ do
      openList code slotted
      Reader.word ['(']
      valueEnd slotted none,
    do
      openList code slotted
      Reader.word ['(']
      fieldEnd slotted none,
    do
      openList code slotted
      Reader.finish
      pure .newElement ]

namespace SectionSpec

/-- The section has kinds with function blocks. -/
def slotted (s : SectionSpec) : Bool := !s.slots.isEmpty

/-- The shapes of a section, in the order in which they are tried. -/
def shapes (s : SectionSpec) : List (Reader Place) :=
  (if s.slotted then blockShapes s.code s.slots else []) ++ listShapes s.code s.slotted

end SectionSpec

namespace Grammar

/-- The shapes of every section with its code, in the order in which they are tried. -/
def battery (g : Grammar) : List (SectionCode × Reader Place) :=
  g.sections.flatMap fun s => s.shapes.map fun r => (s.code, r)

/-- The place inside a section that the end of a text is at. -/
def place? (g : Grammar) (text : List Char) : Option (SectionCode × Place) :=
  g.battery.findSome? fun p => (p.2.search? text).map fun place => (p.1, place)

end Grammar

/-! ### Between sections -/

/-- What may be typed between sections, up to the end: a key or the beginning of one. -/
def keyEnd : Reader (List Char) := do
  let fragment ← Reader.here
  Reader.run isKeyChar
  Reader.finish
  pure fragment

/-- One of the section codes; where there are no sections, no code at all. -/
def sectionCode (codes : List SectionCode) : Reader Unit :=
  if codes.isEmpty then Reader.done ()
  else Reader.oneOf (codes.map fun c => Reader.word c.text.toList)

/-- A closed section, a comma if there is one, and what was typed since. -/
def closedSection (codes : List SectionCode) : Reader (List Char) := do
  sectionCode codes
  Reader.word ['=', '[']
  elements true
  Reader.word [']']
  Reader.maybe (Reader.word [','])
  keyEnd

namespace Grammar

/-- What was typed at the end of a text that stands between sections. -/
def betweenSections? (g : Grammar) (text : List Char) : Option (List Char) :=
  (keyEnd.first? text).or ((closedSection (g.sections.map SectionSpec.code)).search? text)

end Grammar

/-! ### The last section -/

/-- The text before the last `[`, backwards, and the text from it on; `seen` is the text already
passed, backwards. -/
def splitLastOpening? : List Char → List Char → Option (List Char × List Char)
  | _, [] => none
  | seen, c :: cs =>
    (splitLastOpening? (c :: seen) cs).or (if c = '[' then some (seen, c :: cs) else none)

/-- The last characters of a text that have `n` bytes in UTF-8 at least, or all of them. The text
is given backwards. -/
def lastBytes : Nat → List Char → List Char
  | _, [] => []
  | n, c :: cs => if n = 0 then [] else lastBytes (n - c.utf8Size) cs ++ [c]

namespace Grammar

/-- How far before its `[` a section can begin: the longest code and `=`. -/
def reach (g : Grammar) : Nat :=
  (g.sections.map fun s => s.code.text.utf8ByteSize).foldl max 0 + 1

/-- The text from the code of its last section on. Only section lists use square brackets, so
nothing before the last `[` and its code can decide where the text ends. -/
def sectionTail (g : Grammar) (text : List Char) : List Char :=
  match splitLastOpening? [] text with
  | none => text
  | some (before, rest) => lastBytes g.reach before ++ rest

end Grammar

/-! ### Earlier declarations -/

/-- The fields before a key, the key and its value, which is read. -/
def declaredValue (slotted : Bool) (key : List Char) : Reader (List Char) := do
  earlierFields slotted
  Reader.word (key ++ ['='])
  let start ← Reader.here
  Reader.run1 isValueChar
  let stop ← Reader.here
  pure (textBefore start stop)

/-- A value of a key that an element declares, from what comes before the element on. -/
def elementDeclaration (slotted : Bool) (key : List Char) : Reader (List Char) := do
  Reader.one fun c => c == '[' || c == ',' || c == ')'
  Reader.word ['(']
  declaredValue slotted key

/-- A value of a key that a function block declares, from the code of the block on. -/
def blockDeclaration (code : FamilyCode) (key : List Char) : Reader (List Char) := do
  Reader.word (code.text.toList ++ ['=', '('])
  declaredValue false key

namespace Grammar

/-- The elements of a section hold function blocks; of two tables of the section the last
decides. -/
def isSlotted (g : Grammar) (code : SectionCode) : Bool :=
  (g.sections.reverse.find? fun s => s.code == code).any SectionSpec.slotted

/-- How a kind of a container was declared earlier in a section, if the container has a selecting
field. -/
def declaration? (g : Grammar) (c : Container) : Option (Reader (List Char)) :=
  (g.selector? c).map fun key =>
    match c with
    | .ofSection code => elementDeclaration (g.isSlotted code) key.toList
    | .ofFamily code => blockDeclaration code key.toList

/-- The value most recently declared for a container in an earlier part of a section. -/
def lastDeclared? (g : Grammar) (c : Container) (history : List Char) : Option (List Char) :=
  (g.declaration? c).bind fun r => (r.collect history).getLast?

end Grammar

end TopologyAssist
