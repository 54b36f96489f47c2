import TopologyAssist.Grammar.Basic

/-!
Look-ups over the tables of a grammar.

Names of fields are not unique: one name may belong to kinds of several containers. The look-up
by name therefore answers with every kind that has the field, in the order of kind names, and
leaves the choice to the reader of the context. Names of kinds are one space over all tables: where
two kinds have one name, be it in tables of two containers, the later one is found by it.
-/

namespace TopologyAssist

/-- Puts a pair into a list that is ordered by kind name; a pair of the same name is replaced. -/
def putOrdered {α : Type} (id : KindId) (a : α) : List (KindId × α) → List (KindId × α)
  | [] => [(id, a)]
  | (id', a') :: rest =>
    if id = id' then (id, a) :: rest
    else if id.precedes id' then (id, a) :: (id', a') :: rest
    else (id', a') :: putOrdered id a rest

namespace Grammar

/-- Every declared kind with the container whose table lists it, in the order of the tables:
sections, then families. -/
def kinds (g : Grammar) : List (Container × ElementKind) :=
  (g.sections.flatMap fun s => s.kinds.map fun k => (.ofSection s.code, k)) ++
    g.families.flatMap fun f => f.kinds.map fun k => (.ofFamily f.code, k)

/-- The table of a section; of two, the first. -/
def section? (g : Grammar) (code : SectionCode) : Option SectionSpec :=
  g.sections.find? fun s => s.code == code

/-- The table of a function family; of two, the first. -/
def family? (g : Grammar) (code : FamilyCode) : Option FamilySpec :=
  g.families.find? fun f => f.code == code

/-- The kind of that name in any of the tables; of two, the last. -/
def kind? (g : Grammar) (id : KindId) : Option ElementKind :=
  (g.kinds.reverse.find? fun p => p.2.id == id).map Prod.snd

/-- The names of the kinds that the tables of a container list, in their order. -/
def kindsIn (g : Grammar) (c : Container) : List KindId :=
  (g.kinds.filter fun p => p.1 == c).map fun p => p.2.id

/-- Every declaration of a field of that name, in the order of the tables. -/
def declarations (g : Grammar) (name : String) : List (KindId × FieldSpec) :=
  g.kinds.flatMap fun p => (p.2.fields.filter fun f => f.name == name).map fun f => (p.2.id, f)

/-- The fields of that name by the kind that has them, in the order of kind names. -/
def fieldSpecs (g : Grammar) (name : String) : List (KindId × FieldSpec) :=
  (g.declarations name).foldl (fun found p => putOrdered p.1 p.2 found) []

/-- The index of a name, where some kind has a field of that name. -/
def fieldSpecs? (g : Grammar) (name : String) : Option (List (KindId × FieldSpec)) :=
  if (g.declarations name).isEmpty then none else some (g.fieldSpecs name)

/-- The fields of that name in some of the kinds, in the order of kind names. -/
def fieldSpecsAmong (g : Grammar) (name : String) (ids : List KindId) :
    List (KindId × FieldSpec) :=
  (g.fieldSpecs name).filter fun p => ids.contains p.1

/-- What tells the kind of that name from the others of its container. -/
def discriminator? (g : Grammar) (id : KindId) : Option Discriminator :=
  (g.kind? id).bind ElementKind.discriminator

/-- The field whose value tells the kinds of a container apart. -/
def selector? (g : Grammar) (c : Container) : Option String :=
  ((g.kindsIn c).findSome? g.discriminator?).map Discriminator.key

/-- The kind that a template takes where it has to take one. -/
def defaultKind? (g : Grammar) (c : Container) : Option ElementKind :=
  (g.kindsIn c).head?.bind g.kind?

/-- The codes that stand before `=` in a description, in the order of the tables. -/
def codes (g : Grammar) : List String :=
  g.sections.map (fun s => s.code.text) ++ g.families.map (fun f => f.code.text)

end Grammar

end TopologyAssist
