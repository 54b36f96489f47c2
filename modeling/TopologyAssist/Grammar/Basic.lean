/-!
The grammar of a network description, as tables.

A description is a row of sections, `CODE=[...]`, each a list of elements, `(...)`. An element is
a row of fields `key=value`, and some elements also hold function blocks `CODE=(...)`. A section
or function family offers one or more element kinds; where it offers several, each kind names a
field and the value of it that tells the kind apart.
-/

namespace TopologyAssist

/-- The sections a description may have. -/
inductive SectionCode where
  | groups | neurons | connections | learning
  deriving DecidableEq, Repr

namespace SectionCode

/-- Every section code, in order. -/
def all : List SectionCode := [groups, neurons, connections, learning]

/-- The code as it is written. -/
def text : SectionCode → String
  | groups => "GRP"
  | neurons => "NRN"
  | connections => "CON"
  | learning => "LRN"

/-- The place of the code in the order of codes. -/
def rank : SectionCode → Nat
  | groups => 0
  | neurons => 1
  | connections => 2
  | learning => 3

/-- The code that is written so. -/
def ofText? (s : String) : Option SectionCode := all.find? fun c => c.text == s

end SectionCode

/-- The families of functions that an element may hold. -/
inductive FamilyCode where
  | weightDecay | releaseProbability | weightLimit | location
  deriving DecidableEq, Repr

namespace FamilyCode

/-- Every family code, in order. -/
def all : List FamilyCode := [weightDecay, releaseProbability, weightLimit, location]

/-- The code as it is written. -/
def text : FamilyCode → String
  | weightDecay => "WDF"
  | releaseProbability => "SRP"
  | weightLimit => "WLF"
  | location => "LOC"

/-- The place of the code in the order of codes. -/
def rank : FamilyCode → Nat
  | weightDecay => 0
  | releaseProbability => 1
  | weightLimit => 2
  | location => 3

/-- The code that is written so. -/
def ofText? (s : String) : Option FamilyCode := all.find? fun c => c.text == s

end FamilyCode

/-- What holds elements: the list of a section or the block of a function family. -/
inductive Container where
  | ofSection (code : SectionCode)
  | ofFamily (code : FamilyCode)
  deriving DecidableEq, Repr

namespace Container

/-- The code as it is written. -/
def text : Container → String
  | ofSection code => code.text
  | ofFamily code => code.text

/-- The place of the container in the order of containers: sections first. -/
def rank : Container → Nat
  | ofSection code => code.rank
  | ofFamily code => SectionCode.all.length + code.rank

/-- The container whose code is written so. -/
def ofText? (s : String) : Option Container :=
  ((SectionCode.ofText? s).map ofSection).or ((FamilyCode.ofText? s).map ofFamily)

end Container

/-- The name of an element kind: a container and a variant in it. -/
structure KindId where
  container : Container
  variant : String
  deriving DecidableEq, Repr

namespace KindId

/-- The name as it is shown, `CODE/variant`. -/
def display (id : KindId) : String := id.container.text ++ "/" ++ id.variant

/-- The order of names: by container, then by the characters of the variant. -/
def precedes (a b : KindId) : Bool :=
  a.container.rank < b.container.rank ||
    (a.container.rank == b.container.rank && decide (a.variant < b.variant))

end KindId

/-- One field of an element kind. -/
structure FieldSpec where
  name : String
  /-- A short label, which also fills the field's placeholder. -/
  detail : String
  description : String
  defaultValue : Option String
  unit : Option String
  /-- The values the field may take; none are listed when it may take any. -/
  validValues : List String
  deriving DecidableEq, Repr

namespace FieldSpec

/-- A value as it is written, with the unit of the field behind it. -/
def formatValue (f : FieldSpec) (value : String) : String :=
  match f.unit with
  | some unit => value ++ unit
  | none => value

/-- The default value with its unit. -/
def formattedDefault (f : FieldSpec) : Option String := f.defaultValue.map f.formatValue

end FieldSpec

/-- The field and the value of it that tell one kind of a container from the others. -/
structure Discriminator where
  key : String
  value : String
  deriving DecidableEq, Repr

/-- A value of a selecting field as it was found in a text. -/
inductive Observed where
  /-- A delimiter follows the value. -/
  | complete (value : List Char)
  /-- The cursor still extends the value. -/
  | typing (value : List Char)
  deriving DecidableEq, Repr

namespace Observed

/-- The characters that were found. -/
def value : Observed → List Char
  | complete v => v
  | typing v => v

end Observed

namespace Discriminator

/-- The found value selects this kind: a complete value is equal to the kind's, a value being
typed is a non-empty beginning of it. -/
def accepts (d : Discriminator) : Observed → Bool
  | .complete v => d.value.toList == v
  | .typing v => !v.isEmpty && v.isPrefixOf d.value.toList

end Discriminator

/-- One shape that an element may have. -/
structure ElementKind where
  /-- The name of the kind. Nothing ties it to the table that lists the kind. -/
  id : KindId
  name : String
  description : String
  discriminator : Option Discriminator
  fields : List FieldSpec
  /-- The function blocks that the element may hold, in the order a template writes them. -/
  slots : List FamilyCode
  deriving DecidableEq, Repr

namespace ElementKind

/-- The field of that name; of two, the first. -/
def field? (k : ElementKind) (name : String) : Option FieldSpec :=
  k.fields.find? fun f => f.name == name

end ElementKind

/-- The table of one section. -/
structure SectionSpec where
  code : SectionCode
  name : String
  description : String
  kinds : List ElementKind
  deriving DecidableEq, Repr

namespace SectionSpec

/-- The function families that some kind of the section has a slot for, each once, in the order
in which they come up. -/
def slots (s : SectionSpec) : List FamilyCode :=
  (s.kinds.flatMap ElementKind.slots).foldl
    (fun seen code => if seen.contains code then seen else seen ++ [code]) []

end SectionSpec

/-- The table of one function family. -/
structure FamilySpec where
  code : FamilyCode
  name : String
  description : String
  kinds : List ElementKind
  deriving DecidableEq, Repr

/-- A grammar: its sections and its function families, in order. A code may have several tables
or none. -/
structure Grammar where
  sections : List SectionSpec
  families : List FamilySpec
  deriving DecidableEq, Repr

end TopologyAssist
