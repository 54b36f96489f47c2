import TopologyAssist.Completion
import TopologyAssist.Grammar.Standard
import TopologyAssist.Hover

/-!
Answers as trees, ready to be printed in one of the output formats.
-/

namespace TopologyAssist

/-- A tree of values by name and by place. -/
inductive Tree where
  | null
  | bool (b : Bool)
  | nat (n : Nat)
  | text (s : String)
  /-- A text marked with the sort of thing it names. -/
  | tagged (tag : String) (s : String)
  | list (items : List Tree)
  | record (entries : List (String × Tree))

namespace Tree

/-- A text or nothing. -/
def optional : Option String → Tree
  | some s => text s
  | none => null

/-- A list of texts. -/
def texts (ss : List String) : Tree := list (ss.map text)

end Tree

/-- A span of a line. -/
def LineSpan.tree (s : LineSpan) : Tree :=
  .record [("line", .nat s.line), ("start", .nat s.start), ("end", .nat s.stop)]

/-- One thing that a completion offers. -/
def CompletionItem.tree (i : CompletionItem) : Tree :=
  .record [
    ("label", .text i.label),
    ("detail", .optional i.detail),
    ("kind", .text i.kind.text),
    ("insert_text", .optional i.insertText),
    ("documentation", .optional i.documentation),
    ("snippet", .bool i.snippet)]

/-- The explanation of a key. -/
def HoverCard.tree (h : HoverCard) : Tree :=
  .record [
    ("key", .text h.key),
    ("title", .text h.title),
    ("unit", .text h.unit),
    ("description", .text h.description),
    ("range", h.range.tree)]

/-- A container, marked as a section or a function family. -/
def Container.tree : Container → Tree
  | .ofSection code => .tagged "Section" code.text
  | .ofFamily code => .tagged "Function" code.text

/-- A field. -/
def FieldSpec.tree (f : FieldSpec) : Tree :=
  .record [
    ("name", .text f.name),
    ("detail", .text f.detail),
    ("description", .text f.description),
    ("default_value", .optional f.defaultValue),
    ("unit", .optional f.unit),
    ("valid_values", .texts f.validValues)]

/-- What tells a kind from the others. -/
def Discriminator.tree (d : Discriminator) : Tree :=
  .record [("key", .text d.key), ("value", .text d.value)]

/-- A kind of a container. -/
def ElementKind.tree (k : ElementKind) : Tree :=
  .record [
    ("id", .record [("container", k.id.container.tree), ("variant", .text k.id.variant)]),
    ("name", .text k.name),
    ("description", .text k.description),
    ("discriminator", (k.discriminator.map Discriminator.tree).getD .null),
    ("fields", .list (k.fields.map FieldSpec.tree)),
    ("function_slots", .texts (k.slots.map FamilyCode.text))]

/-- The table of a container. -/
def containerTree (code name description : String) (kinds : List ElementKind) : Tree :=
  .record [
    ("code", .text code),
    ("name", .text name),
    ("description", .text description),
    ("kinds", .list (kinds.map ElementKind.tree))]

/-- A grammar with its version. -/
def Grammar.tree (g : Grammar) (version : String) : Tree :=
  .record [
    ("version", .text version),
    ("sections", .list (g.sections.map fun s =>
      containerTree s.code.text s.name s.description s.kinds)),
    ("functions", .list (g.families.map fun f =>
      containerTree f.code.text f.name f.description f.kinds))]

end TopologyAssist
