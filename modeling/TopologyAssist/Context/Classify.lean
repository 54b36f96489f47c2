import TopologyAssist.Context.Evidence

/-!
The context of a cursor: where it stands in the grammar.

The context is read off the text before the cursor alone; the rest of the line is looked at only
for evidence of the element's kind. A text whose end fits no shape has no context, and neither has
a text whose evidence fits no kind.
-/

namespace TopologyAssist

/-- Where a cursor stands relative to elements and fields. -/
inductive Boundary where
  /-- An element, or a section, may begin. -/
  | newElement
  /-- A key is being typed. -/
  | insideElement
  /-- A value may begin or is being typed. -/
  | newFieldValue
  /-- An element has just been opened or a field ended. -/
  | fieldBoundary
  deriving DecidableEq, Repr

/-- Where a cursor stands in the grammar. -/
structure Context where
  /-- What holds the cursor; nothing does between sections. -/
  container : Option Container
  boundary : Boundary
  /-- The kind of the element, where it is settled. -/
  kind : Option KindId
  /-- The kinds that the element may still be. -/
  candidates : List KindId
  /-- The key whose value is being typed. -/
  field : Option String
  /-- What was typed of the key or value. -/
  fragment : String
  /-- The text ends with a closing bracket, so what follows begins with a comma. -/
  needsSeparator : Bool
  deriving DecidableEq, Repr

namespace Context

/-- A context with the kinds that are left, and nothing typed. -/
def ofResolution (container : Container) (boundary : Boundary) : Resolution → Context
  | .resolved id => ⟨some container, boundary, some id, [id], none, "", false⟩
  | .ambiguous ids => ⟨some container, boundary, none, ids, none, "", false⟩
  | .rejected => ⟨some container, boundary, none, [], none, "", false⟩

/-- The context between sections. -/
def betweenSections (fragment : List Char) (needsSeparator : Bool) : Context :=
  ⟨none, .newElement, none, [], none, String.ofList fragment, needsSeparator⟩

/-- The kind of the element is settled. -/
def isResolved (ctx : Context) : Bool := ctx.kind.isSome

end Context

/-- The text ends with this character. -/
def endsWith (c : Char) (cs : List Char) : Bool := cs.getLast? == some c

/-- The text after the last comma. -/
def lastPiece (cs : List Char) : List Char :=
  (cs.reverse.takeWhile fun c => c != ',').reverse

/-- The container of a place: the function block if there is one, else the section. -/
def containerOf (code : SectionCode) : Option FamilyCode → Container
  | some family => .ofFamily family
  | none => .ofSection code

namespace Grammar

/-- The kinds that the text around a scope leaves. -/
def resolveAt (g : Grammar) (c : Container) (tail scope lookahead : List Char) : Resolution :=
  g.resolve c ⟨scope, lookahead, textBefore tail scope⟩

/-- The context of a place in a section, before the kinds are looked at. -/
def contextAt (g : Grammar) (code : SectionCode) (tail lookahead : List Char) : Place → Context
  | .newElement =>
    { Context.ofResolution (.ofSection code) .newElement (g.allKinds (.ofSection code)) with
      needsSeparator := endsWith ')' tail }
  | .newBlock family =>
    Context.ofResolution (.ofFamily family) .newElement (g.allKinds (.ofFamily family))
  | .value block scope key fragment =>
    let c := containerOf code block
    { Context.ofResolution c .newFieldValue (g.resolveAt c tail scope lookahead) with
      field := some (String.ofList key)
      fragment := String.ofList fragment }
  | .field block scope =>
    let c := containerOf code block
    let typed := lastPiece scope
    let atBoundary := typed.isEmpty || endsWith ')' typed
    { Context.ofResolution c (if atBoundary then .fieldBoundary else .insideElement)
        (g.resolveAt c tail scope lookahead) with
      fragment := if atBoundary then "" else String.ofList typed
      needsSeparator := endsWith ')' scope }

/-- The context of a cursor behind `before`, a text without layout; `lookahead` is the rest of the
cursor's line, without layout too. -/
def classify (g : Grammar) (before lookahead : List Char) : Option Context :=
  let tail := g.sectionTail before
  match g.place? tail with
  | some (code, place) =>
    let ctx := g.contextAt code tail lookahead place
    if ctx.candidates.isEmpty then none else some ctx
  | none =>
    (g.betweenSections? tail).map fun fragment =>
      Context.betweenSections fragment (endsWith ']' before)

/-- The one field that a name means in a context, with the kind that has it. A settled kind
answers alone, also for a name that only other kinds have; otherwise exactly one of the possible
kinds has to have the field. -/
def resolveField? (g : Grammar) (ctx : Context) (name : String) : Option (KindId × FieldSpec) :=
  match ctx.kind with
  | some id => (g.kind? id).bind fun k => (k.field? name).map fun f => (id, f)
  | none =>
    match g.fieldSpecsAmong name ctx.candidates with
    | [found] => some found
    | _ => none

end Grammar

end TopologyAssist
