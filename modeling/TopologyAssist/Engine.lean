import TopologyAssist.Completion
import TopologyAssist.Hover

/-!
The engine: completion and hover over whole texts.

An engine holds a grammar and the user's options and nothing about a document; each request brings
the text and the position.
-/

namespace TopologyAssist

/-- A grammar and the user's options. -/
structure Engine where
  grammar : Grammar
  options : Options := {}

namespace Engine

/-- What may be written at a position of a text. -/
def complete (e : Engine) (text : List Char) (p : Position) (t : Trigger) : List CompletionItem :=
  let c := Cursor.locate text p
  let before := normalize c.preceding
  if c.inComment || !t.isCurrent before then []
  else
    match e.grammar.classify before (normalize c.after) with
    | some ctx => Completion.items e.grammar e.options ctx
    | none => []

/-- The explanation of what stands at a position of a text. -/
def hover (e : Engine) (text : List Char) (p : Position) : Option HoverCard :=
  Hover.card? e.grammar e.options (Cursor.locate text p)

end Engine

end TopologyAssist
