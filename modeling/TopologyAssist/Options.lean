/-!
What a user may choose about the answers.
-/

namespace TopologyAssist

/-- Which templates are offered for a new element. -/
inductive TemplateStyle where
  /-- One with placeholders and one with defaults. -/
  | both
  | placeholders
  | defaults
  deriving DecidableEq, Repr

namespace TemplateStyle

/-- Every style, in order. -/
def all : List TemplateStyle := [both, placeholders, defaults]

/-- The style as it is written in a configuration. -/
def text : TemplateStyle → String
  | both => "both"
  | placeholders => "placeholders"
  | defaults => "defaults"

/-- The templates of a style: for each, whether it shows defaults. -/
def variants : TemplateStyle → List Bool
  | both => [false, true]
  | placeholders => [false]
  | defaults => [true]

end TemplateStyle

/-- What a user may choose about the answers. -/
structure Options where
  templates : TemplateStyle := .both
  /-- Suggested values carry their unit. -/
  appendUnits : Bool := true
  /-- What stands for the unit of a field without one. -/
  dimensionlessLabel : String := "dimensionless"
  deriving DecidableEq, Repr

end TopologyAssist
