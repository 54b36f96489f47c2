import TopologyAssist.Grammar.Basic

/-!
A grammar as an outline: its containers, their kinds and the fields of each.
-/

namespace TopologyAssist

namespace Outline

/-- The line of a field: its name, its label and its default. -/
def fieldLine (f : FieldSpec) : String :=
  let default := (f.formattedDefault.map fun value => " = " ++ value).getD ""
  "    " ++ f.name ++ "  " ++ f.detail ++ default ++ "\n"

/-- The lines of a kind: its name with what tells it apart, its fields and its function blocks. -/
def kindLines (k : ElementKind) : String :=
  let selector := (k.discriminator.map fun d => " [" ++ d.key ++ "=" ++ d.value ++ "]").getD ""
  "  " ++ k.name ++ selector ++ "\n" ++ String.join (k.fields.map fieldLine) ++
    String.join (k.slots.map fun slot => "    " ++ slot.text ++ "  (function)\n")

/-- The lines of a container, behind an empty one. -/
def containerLines (code name : String) (kinds : List ElementKind) : String :=
  "\n" ++ code ++ "  " ++ name ++ "\n" ++ String.join (kinds.map kindLines)

end Outline

/-- A grammar as an outline. -/
def Grammar.outline (g : Grammar) (version : String) : String :=
  "NTD grammar " ++ version ++ "\n" ++
    String.join (g.sections.map fun s => Outline.containerLines s.code.text s.name s.kinds) ++
    String.join (g.families.map fun f => Outline.containerLines f.code.text f.name f.kinds)

end TopologyAssist
