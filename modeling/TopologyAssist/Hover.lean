import TopologyAssist.Context.Classify
import TopologyAssist.Document.Cursor
import TopologyAssist.Options

/-!
Hover: what the key or value under the cursor means.

The token under the cursor is read from its line alone. A value is explained by its key and a key
by itself. The code of a section or function family is explained by its table; every other key by
the one field that it means in the context before the token.
-/

namespace TopologyAssist

/-- The explanation of a key. -/
structure HoverCard where
  key : String
  /-- The label of the field, or the name of the section or function family. -/
  title : String
  unit : String
  description : String
  range : LineSpan
  deriving DecidableEq, Repr

namespace HoverCard

/-- The explanation as an editor shows it. -/
def contents (h : HoverCard) : String :=
  "**" ++ h.key ++ "** (" ++ h.title ++ ")\n\nUnit: " ++ h.unit ++ "\n\n" ++ h.description

end HoverCard

/-- The token under a cursor. -/
structure Token where
  key : List Char
  /-- The token without layout up to the cursor. -/
  typed : List Char
  range : LineSpan
  deriving DecidableEq, Repr

/-- The end of a line inside a value: the text from the key on, the key and the value so far. -/
def assignmentEnd : Reader (List Char × List Char × List Char) := do
  let start ← Reader.here
  Reader.run1 isKeyChar
  let stop ← Reader.here
  Reader.word ['=']
  let value ← Reader.here
  Reader.run isValueChar
  Reader.finish
  pure (start, textBefore start stop, value)

/-- What was typed of a key at the end of a line: a run of key characters at its beginning or
behind an opening bracket or a comma. -/
def keyHead? (line : List Char) : Option (List Char) :=
  (keyEnd.first? line).or <| Reader.search? (do
    Reader.one fun c => c == '[' || c == '(' || c == ','
    keyEnd) line

namespace Token

/-- The value under a cursor, with its key. -/
def value? (c : Cursor) : Option Token :=
  (assignmentEnd.search? (normalize c.before)).bind fun (whole, key, value) =>
    let trailing := c.after.takeWhile fun ch => !isBlank ch && isValueChar ch
    if value.isEmpty && trailing.isEmpty then none
    else some ⟨key, whole, c.span value.length trailing.length⟩

/-- The key under a cursor. -/
def key? (c : Cursor) : Option Token :=
  (keyHead? (normalize c.before)).bind fun head =>
    let tail := c.after.takeWhile isKeyChar
    if head.isEmpty && tail.isEmpty then none
    else some ⟨head ++ tail, head, c.span head.length tail.length⟩

/-- The token under a cursor: a value, else a key. -/
def at? (c : Cursor) : Option Token := (value? c).or (key? c)

end Token

/-- A text without an ending; a text that ends otherwise stays as it is. -/
def dropEnding (ending cs : List Char) : List Char :=
  if ending.isSuffixOf cs then cs.take (cs.length - ending.length) else cs

namespace Grammar

/-- The name and description of the section or function family of a code. -/
def described? (g : Grammar) (code : String) : Option (String × String) :=
  (((SectionCode.ofText? code).bind g.section?).map fun s => (s.name, s.description)).or
    (((FamilyCode.ofText? code).bind g.family?).map fun f => (f.name, f.description))

end Grammar

namespace Hover

/-- The context of a token: the text before it, with the token and the rest of its line as
lookahead. -/
def context? (g : Grammar) (c : Cursor) (t : Token) : Option Context :=
  g.classify (dropEnding t.typed (normalize c.preceding)) (t.typed ++ normalize c.after)

/-- The explanation of a token. -/
def explain? (g : Grammar) (o : Options) (c : Cursor) (t : Token) : Option HoverCard :=
  let key := String.ofList t.key
  match g.described? key with
  | some (name, description) => some ⟨key, name, o.dimensionlessLabel, description, t.range⟩
  | none =>
    (context? g c t).bind fun ctx => (g.resolveField? ctx key).map fun (_, f) =>
      ⟨key, f.detail, f.unit.getD o.dimensionlessLabel, f.description, t.range⟩

/-- The explanation of what is under a cursor; inside a comment there is none. -/
def card? (g : Grammar) (o : Options) (c : Cursor) : Option HoverCard :=
  if c.inComment then none else (Token.at? c).bind (explain? g o c)

end Hover

end TopologyAssist
