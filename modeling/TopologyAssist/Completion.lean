import TopologyAssist.Context.Classify
import TopologyAssist.Options
import TopologyAssist.Template

/-!
Completion: what may be written next in a context.

Between sections every section is offered. Where an element may begin, whole elements are offered
as templates. Inside an element whose kind is settled its fields and function blocks are offered;
while several kinds are possible, only the assignments that settle the kind are. In a value the
values of the field are offered.
-/

namespace TopologyAssist

/-- How a completion was asked for. -/
inductive Trigger where
  /-- By the user. -/
  | invoked
  /-- By typing a character. -/
  | character (c : Char)
  deriving DecidableEq, Repr

namespace Trigger

/-- The characters whose typing asks for completions. -/
def characters : List Char := ['=', ',', '(']

/-- The request is not stale: a character that asked for it is still the last one. -/
def isCurrent (t : Trigger) (before : List Char) : Bool :=
  match t with
  | invoked => true
  | character c => endsWith c before

end Trigger

/-- What sort of thing a completion offers. -/
inductive ItemKind where
  | container | snippet | field | value | enumMember | property
  deriving DecidableEq, Repr

namespace ItemKind

/-- The sort as it is written in an answer. -/
def text : ItemKind → String
  | container => "module"
  | snippet => "snippet"
  | field => "field"
  | value => "value"
  | enumMember => "enum-member"
  | property => "property"

end ItemKind

/-- One thing that a completion offers. -/
structure CompletionItem where
  label : String
  detail : Option String
  kind : ItemKind
  /-- What is inserted, where it is not the label. -/
  insertText : Option String
  documentation : Option String
  /-- The inserted text is a snippet with tab stops. -/
  snippet : Bool
  deriving DecidableEq, Repr

namespace CompletionItem

/-- What is inserted when the item is taken. -/
def text (item : CompletionItem) : String := item.insertText.getD item.label

/-- The item with a text before what it inserts. -/
def precededBy (item : CompletionItem) (before : String) : CompletionItem :=
  { item with insertText := some (before ++ item.text) }

end CompletionItem

namespace Context

/-- The comma that what is inserted has to begin with, or nothing. -/
def separator (ctx : Context) : String := if ctx.needsSeparator then "," else ""

end Context

namespace Completion

variable (g : Grammar) (o : Options) (ctx : Context)

/-- The possible kinds of the element. -/
def candidateKinds : List ElementKind := ctx.candidates.filterMap g.kind?

/-- A value with its unit, where units are asked for. -/
def render (f : FieldSpec) (value : String) : String :=
  if o.appendUnits then f.formatValue value else value

/-- The sections. -/
def sectionItems : List CompletionItem :=
  g.sections.map fun s =>
    { label := s.code.text
      detail := some s.name
      kind := .container
      insertText := some (ctx.separator ++ s.code.text ++ "=[$0]")
      documentation := some s.description
      snippet := true }

/-- One template of an element. -/
def elementItem (c : Container) (separator : String) (k : ElementKind) (useDefaults : Bool) :
    CompletionItem :=
  { label := if useDefaults then k.name ++ " (defaults)" else k.name
    detail := some (c.text ++ " element")
    kind := .snippet
    insertText := some (separator ++ "(" ++ (Template.element g useDefaults 1 k).1 ++ ")")
    documentation := some k.description
    snippet := true }

/-- Whole elements, in each style for each possible kind. A function block is the value of its
slot and takes no separator. -/
def elementItems (c : Container) : List CompletionItem :=
  let separator :=
    match c with
    | .ofSection _ => ctx.separator
    | .ofFamily _ => ""
  (candidateKinds g ctx).flatMap fun k => o.templates.variants.map (elementItem g c separator k)

/-- A field with each of its listed values, or with its default, or alone. -/
def fieldItems (f : FieldSpec) : List CompletionItem :=
  let item (label : String) (kind : ItemKind) : CompletionItem :=
    ⟨label, some f.detail, kind, none, some f.description, false⟩
  if f.validValues.isEmpty then
    match f.defaultValue with
    | some value => [item (f.name ++ "=" ++ render o f value) .value]
    | none => [item (f.name ++ "=") .field]
  else f.validValues.map fun value => item (f.name ++ "=" ++ render o f value) .enumMember

/-- The function block of a slot, if its family has a kind. -/
def slotItem? (slot : FamilyCode) : Option CompletionItem :=
  (g.defaultKind? (.ofFamily slot)).map fun k =>
    let family := g.family? slot
    { label := slot.text
      detail := family.map FamilySpec.name
      kind := .container
      insertText := some (slot.text ++ "=(" ++
        (Template.fields (o.templates == .defaults) 1 k.fields).1 ++ ")")
      documentation := family.map FamilySpec.description
      snippet := true }

/-- The assignments that settle the kind, one for each possible kind. -/
def selectorItems (kinds : List ElementKind) : List CompletionItem :=
  kinds.filterMap fun k => k.discriminator.map fun d =>
    let text := d.key ++ "=" ++ d.value
    ⟨text, some k.name, .enumMember, some (ctx.separator ++ text), some k.description, false⟩

/-- What may stand in an element: the fields and blocks of its kind, or what settles the kind. -/
def memberItems : List CompletionItem :=
  match candidateKinds g ctx with
  | [] => []
  | [k] =>
    let items := k.fields.flatMap (fieldItems o) ++ k.slots.filterMap (slotItem? g o)
    if ctx.needsSeparator then items.map fun item => item.precededBy ctx.separator else items
  | kinds => selectorItems ctx kinds

/-- The values that tell the kinds of a container apart. -/
def selectorValueItems (c : Container) : List CompletionItem :=
  ((g.kindsIn c).filterMap g.kind?).filterMap fun k => k.discriminator.map fun d =>
    ⟨d.value, some k.name, .enumMember, none, some k.description, false⟩

/-- The values of one field: those listed, else its default, else a placeholder. -/
def fieldValueItems (f : FieldSpec) : List CompletionItem :=
  let item (label : String) (kind : ItemKind) : CompletionItem :=
    ⟨label, some f.detail, kind, none, some f.description, false⟩
  if f.validValues.isEmpty then
    match f.defaultValue with
    | some value => [item (render o f value) .value]
    | none =>
      [{ item f.name .property with
          insertText := some (Template.tabStop 1 f.detail)
          snippet := true }]
  else f.validValues.map fun value => item (render o f value) .enumMember

/-- What may be written as the value of the context's field. -/
def valueItems (c : Container) : List CompletionItem :=
  match ctx.field with
  | none => []
  | some key =>
    if 1 < (g.kindsIn c).length && g.selector? c == some key then selectorValueItems g c
    else
      match g.resolveField? ctx key with
      | some (_, f) => fieldValueItems o f
      | none => []

/-- What may be written next in a context. -/
def items : List CompletionItem :=
  match ctx.container with
  | none => sectionItems g ctx
  | some c =>
    match ctx.boundary with
    | .newElement => elementItems g o ctx c
    | .newFieldValue => valueItems g o ctx c
    | .fieldBoundary | .insideElement => memberItems g o ctx

end Completion

end TopologyAssist
