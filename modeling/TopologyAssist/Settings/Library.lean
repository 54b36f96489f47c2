import TopologyAssist.Settings.Loader
import TopologyAssist.Settings.Merge
import TopologyAssist.Settings.Toml.Parse

/-!
The configuration library of the program.

Files are merged in order, and single settings over all files wherever they stand among the layers.
Only the values that win in the end are looked at, so a bad value that a later layer replaces does
no harm.
-/

namespace TopologyAssist

/-- Why a configuration cannot be used. -/
inductive SettingsError where
  /-- A setting's path is not a path. -/
  | badPath
  /-- A required file is not there, or is no text. -/
  | missingFile
  /-- A file is not TOML. -/
  | badFile
  /-- A value cannot be converted. -/
  | badType (unexpected expected key : String)
  /-- A section has no value for a setting. -/
  | missingField (name : String)
  /-- A section is not a table or a list. -/
  | badSection (found title : String)
  /-- A section given as a list is too short. -/
  | shortSection (length : Nat) (title : String) (needed : Nat)
  /-- No template style has this name. -/
  | unknownStyle (name : String)
  /-- A template style is neither a text nor a table with one key. -/
  | badStyle
  deriving DecidableEq, Repr

namespace SettingsError

/-- The message of an error. -/
def message : SettingsError → String
  | badPath => "failed to parse path"
  | missingFile => "configuration file not found"
  | badFile => "failed to parse configuration file"
  | badType unexpected expected key =>
    "invalid type: " ++ unexpected ++ ", expected " ++ expected ++ " for key `" ++ key ++ "`"
  | missingField name => "missing field `" ++ name ++ "`"
  | badSection found title => "invalid type: " ++ found ++ ", expected struct " ++ title
  | shortSection length title needed =>
    "invalid length " ++ toString length ++ ", expected struct " ++ title ++ " with " ++
      toString needed ++ (if needed = 1 then " element" else " elements")
  | unknownStyle name => "enum TemplateStyle does not have variant constructor " ++ name
  | badStyle =>
    "value of enum TemplateStyle should be represented by either string or table with exactly " ++
      "one key"

end SettingsError

namespace Settings

/-! ### Values of settings -/

/-- A truth value: a truth value, a number, or one of the words for them in any case of letters.
Any other word is reported in lower case. -/
def readBool (key : String) (v : ConfigValue) : Except SettingsError Bool :=
  match v with
  | .bool b => .ok b
  | .int n => .ok (n != 0)
  | .decimal x => .ok !x.isZero
  | .text s =>
    let word := lowerCase s
    if ["1", "true", "on", "yes"].contains word then .ok true
    else if ["0", "false", "off", "no"].contains word then .ok false
    else .error (.badType (ConfigValue.text word).describe "a boolean" key)
  | _ => .error (.badType v.describe "a boolean" key)

/-- A text: a text, or a truth value or number as it is written. -/
def readText (key : String) (v : ConfigValue) : Except SettingsError String :=
  match v with
  | .text s => .ok s
  | .bool b => .ok (if b then "true" else "false")
  | .int n => .ok (toString n)
  | .decimal x => .ok x.text
  | _ => .error (.badType v.describe "a string" key)

/-- The template style of a name, in any case of letters. -/
def readStyleName (name : String) : Except SettingsError TemplateStyle :=
  match TemplateStyle.all.find? fun s => s.text == lowerCase name with
  | some s => .ok s
  | none => .error (.unknownStyle name)

/-- A template style: its name, or a table whose only key is its name. -/
def readStyle : ConfigValue → Except SettingsError TemplateStyle
  | .text s => readStyleName s
  | .table [(name, _)] => readStyleName name
  | _ => .error .badStyle

/-! ### Sections -/

/-- The values of a section with their paths: by name from a table, by place from a list. A value
may be missing. -/
def sectionValues (name title : String) (fields : List String) :
    ConfigValue → Except SettingsError (List (String × Option ConfigValue))
  | .table es => .ok (fields.map fun f => (name ++ "." ++ f, es.lookup f))
  | .list vs => .ok (fields.zipIdx.map fun (_, i) => (name ++ "[" ++ toString i ++ "]", vs[i]?))
  | v => .error (.badSection v.describe title)

/-- What is wrong with a section whose field has no value. -/
def absent (title : String) (needed : Nat) (field : String) : ConfigValue → SettingsError
  | .list vs => .shortSection vs.length title needed
  | _ => .missingField field

/-- The settings of completions. Values are converted before a missing one is noticed, from a list
only up to its end. -/
def readCompletion (v : ConfigValue) : Except SettingsError (TemplateStyle × Bool) := do
  let fields := ["templates", "append_units"]
  match ← sectionValues "completion" "CompletionConfig" fields v with
  | [(_, style), (key, units)] =>
    let style ← style.mapM readStyle
    let units ← units.mapM (readBool key)
    match style, units with
    | none, _ => .error (absent "CompletionConfig" 2 "templates" v)
    | _, none => .error (absent "CompletionConfig" 2 "append_units" v)
    | some style, some units => .ok (style, units)
  | _ => .error (absent "CompletionConfig" 2 "templates" v)

/-- The one text setting of a section. -/
def readTextSection (name title field : String) (v : ConfigValue) :
    Except SettingsError String := do
  match ← sectionValues name title [field] v with
  | [(key, some value)] => readText key value
  | _ => .error (absent title 1 field v)

/-- The settings of a merged configuration. -/
def ofValue (root : ConfigValue) : Except SettingsError Settings := do
  let part (name : String) : Except SettingsError ConfigValue :=
    match root.get? name with
    | some v => .ok v
    | none => .error (.missingField name)
  let (style, units) ← readCompletion (← part "completion")
  let label ← readTextSection "hover" "HoverConfig" "dimensionless_label" (← part "hover")
  let filter ← readTextSection "logging" "LoggingConfig" "filter" (← part "logging")
  return ⟨style, units, label, filter⟩

end Settings

/-! ### Layers -/

/-- Layers while they are collected: the files in order, and the single settings by their paths, the
one set last at the end. -/
structure LayerStack where
  files : List (Option (List Char) × Bool)
  singles : List (List Step × ConfigValue)

namespace LayerStack

/-- The values that a file sets, by their paths. A key of a file may be a path. -/
def entries? (text : List Char) : Option (List (List Step × ConfigValue)) :=
  (Toml.parse? text).map fun entries =>
    entries.map fun e => ((parsePath? e.1).getD [.key e.1], e.2)

/-- A configuration with files over it, in order. -/
def mergeFiles (root : ConfigValue) :
    List (Option (List Char) × Bool) → Except SettingsError ConfigValue
  | [] => .ok root
  | (none, required) :: rest => if required then .error .missingFile else mergeFiles root rest
  | (some text, _) :: rest =>
    match entries? text with
    | none => .error .badFile
    | some writes => mergeFiles (root.putAll writes) rest

/-- Sets one value; a path has the value that is set last. -/
def setSingle (b : LayerStack) (path : String) (v : ConfigValue) :
    Except SettingsError LayerStack :=
  match parsePath? path with
  | none => .error .badPath
  | some steps =>
    .ok { b with singles := b.singles.filter (fun single => single.1 != steps) ++ [(steps, v)] }

end LayerStack

/-- The library of the program. -/
def ConfigLibrary.standard : ConfigLibrary where
  Builder := LayerStack
  Error := SettingsError
  empty := ⟨[], []⟩
  addFile b text required := { b with files := b.files ++ [(text, required)] }
  setOverride := LayerStack.setSingle
  build b := (LayerStack.mergeFiles (.table []) b.files).map fun root => root.putAll b.singles
  deserialize := Settings.ofValue

end TopologyAssist
