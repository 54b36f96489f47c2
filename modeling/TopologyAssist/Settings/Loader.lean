import TopologyAssist.Options
import TopologyAssist.Settings.Value

/-!
Settings: what the layers of a configuration come to.

The built-in configuration lies at the bottom, and the layers of the user over it. How layers are
kept, merged and read is the work of a configuration library, which is taken as it comes:
`ConfigLibrary` has the functions of it that are called here, and `Settings.load` calls them.
-/

namespace TopologyAssist

/-- What a configuration sets. -/
structure Settings where
  templates : TemplateStyle
  appendUnits : Bool
  dimensionlessLabel : String
  filter : String
  deriving DecidableEq, Repr

namespace Settings

/-- The options of the engine among the settings. -/
def options (s : Settings) : Options := ⟨s.templates, s.appendUnits, s.dimensionlessLabel⟩

end Settings

/-- A layer of a configuration. -/
inductive Layer where
  /-- One setting by its path. -/
  | override (path : String) (value : ConfigValue)
  /-- A file, which has no text if there is none to read; one that is not required may be
  missing. -/
  | file (text : Option (List Char)) (required : Bool)

/-- The lines of the built-in configuration. -/
def builtInLines : List String :=
  ["# Built-in defaults for the NTD tools.",
   "#",
   "# Copy any subset of this file to a user or project config to override it.",
   "",
   "[completion]",
   "# Element templates offered at a new-element position: both | placeholders | defaults",
   "templates = \"both\"",
   "# Suffix suggested values with their unit (10ms rather than 10).",
   "append_units = true",
   "",
   "[hover]",
   "# Unit shown for fields that have none.",
   "dimensionless_label = \"dimensionless\"",
   "",
   "[logging]",
   "# tracing filter used when RUST_LOG is unset.",
   "filter = \"warn\""]

/-- The built-in configuration, as the text of a file. -/
def builtInText : List Char := builtInLines.flatMap fun line => line.toList ++ ['\n']

/-- A library for layered configurations. -/
structure ConfigLibrary where
  /-- What the layers are collected in. -/
  Builder : Type
  Error : Type
  empty : Builder
  /-- Adds a file over those that are there: its text, unless there is none to read, and whether it
  has to be there. -/
  addFile : Builder → Option (List Char) → Bool → Builder
  /-- Sets one value by its path. -/
  setOverride : Builder → String → ConfigValue → Except Error Builder
  build : Builder → Except Error ConfigValue
  /-- Reads the settings from a configuration. -/
  deserialize : ConfigValue → Except Error Settings

namespace ConfigLibrary

variable (lib : ConfigLibrary)

/-- The built-in configuration alone. -/
def builtIn : lib.Builder := lib.addFile lib.empty (some builtInText) true

/-- Adds a layer. -/
def add (b : lib.Builder) : Layer → Except lib.Error lib.Builder
  | .override path v => lib.setOverride b path v
  | .file text required => .ok (lib.addFile b text required)

end ConfigLibrary

/-- The settings that the layers come to, over the built-in ones. -/
def Settings.load (lib : ConfigLibrary) (layers : List Layer) : Except lib.Error Settings := do
  let b ← layers.foldlM lib.add lib.builtIn
  let root ← lib.build b
  lib.deserialize root

end TopologyAssist
