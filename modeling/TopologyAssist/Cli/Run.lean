import TopologyAssist.Cli.Arguments
import TopologyAssist.Cli.Files
import TopologyAssist.Engine
import TopologyAssist.Output.Json
import TopologyAssist.Output.Outline
import TopologyAssist.Output.Yaml
import TopologyAssist.Settings.Library

/-!
What the command line does: from arguments and files to what is printed.

The arguments are checked first, then the configuration, then the position, the trigger character
and the file, and the first fault is reported.
-/

namespace TopologyAssist

namespace Cli

/-- Why a command fails. -/
inductive CliError where
  | unreadable (path : String) (fault : ReadFault)
  | badPosition (raw : String)
  | badTrigger (raw : String)
  | badConfiguration (e : SettingsError)
  | badFormat (format : String)
  deriving DecidableEq, Repr

namespace CliError

/-- The message of an error. -/
def message : CliError → String
  | unreadable path fault => "cannot read " ++ path ++ ": " ++ fault.message
  | badPosition raw =>
    "invalid position `" ++ raw ++ "`: expected <line>:<column>, both starting at 1"
  | badTrigger raw => "invalid trigger `" ++ raw ++ "`: expected one of = , ("
  | badConfiguration e => "configuration error: " ++ e.message
  | badFormat format =>
    "unsupported schema format `" ++ format ++ "`: expected json, yaml or text"

end CliError

/-- How a run ends. -/
inductive Outcome where
  | printed (text : String)
  | failed (e : CliError)
  /-- The arguments cannot be used. -/
  | usage

/-! ### Arguments of commands -/

/-- The first number that has no place in a machine word. -/
def wordLimit : Nat := 18446744073709551616

/-- A number as a position writes it: blanks around, a plus sign, and digits of a number that fits
into a machine word. -/
def readNumber? (cs : List Char) : Option Nat :=
  let digits :=
    match trimBlank cs with
    | '+' :: rest => rest
    | cs => cs
  if digits.isEmpty || !digits.all Char.isDigit then none
  else
    let n := digits.foldl (fun n c => n * 10 + (c.toNat - '0'.toNat)) 0
    if n < wordLimit then some n else none

/-- A position as a person writes it, `line:column` from one. -/
def readPosition? (raw : String) : Option Position :=
  match raw.toList.span fun c => c != ':' with
  | (line, _ :: column) => do
    let line ← readNumber? line
    let column ← readNumber? column
    if line = 0 ∨ column = 0 then none else some (Position.ofOneBased line column)
  | _ => none

/-- A position, or the error that names what was written. -/
def readPosition (raw : String) : Except CliError Position :=
  match readPosition? raw with
  | some p => .ok p
  | none => .error (.badPosition raw)

/-- A trigger: one of the trigger characters, or none at all. -/
def readTrigger : Option String → Except CliError Trigger
  | none => .ok .invoked
  | some raw =>
    match raw.toList with
    | [c] => if Trigger.characters.contains c then .ok (.character c) else .error (.badTrigger raw)
    | _ => .error (.badTrigger raw)

/-! ### Files -/

/-- The text of a description. -/
def readSource (files : String → Found) (path : String) : Except CliError String :=
  match files path with
  | .fault f => .error (.unreadable path f)
  | .file bytes =>
    match String.fromUTF8? bytes with
    | some text => .ok text
    | none => .error (.unreadable path .notText)

/-- The names under which a configuration file is looked for. -/
def configNames (path : String) : List String := path :: (withEnding? path ".toml").toList

/-- The bytes of a configuration file, under the first of its names that is a file. -/
def configBytes? (files : String → Found) (path : String) : Option ByteArray :=
  (configNames path).findSome? fun name =>
    match files name with
    | .file bytes => some bytes
    | .fault _ => none

/-- The text of a configuration file. One that is no text counts as missing. -/
def configText? (files : String → Found) (path : String) : Option (List Char) :=
  (configBytes? files path).bind fun bytes => (String.fromUTF8? bytes).map String.toList

/-- The settings with a configuration file over the built-in ones. -/
def readSettings (files : String → Found) (config : Option String) :
    Except CliError Settings :=
  let layers :=
    match config with
    | none => []
    | some path => [Layer.file (configText? files path) true]
  match Settings.load .standard layers with
  | .ok s => .ok s
  | .error e => .error (.badConfiguration e)

/-! ### Commands -/

/-- The version of the program. -/
def versionLine : String := "ntd 0.1.0\n"

/-- The built-in grammar in an output format. -/
def printSchema (format : String) : Except CliError String :=
  let g := Grammar.standard
  if format == "json" then .ok ((g.tree Standard.version).json ++ "\n")
  else if format == "yaml" then .ok (g.tree Standard.version).yaml
  else if format == "text" then .ok (g.outline Standard.version)
  else .error (.badFormat format)

/-- What a command prints. -/
def execute (files : String → Found) (s : Settings) : Command → Except CliError String
  | .complete path raw trigger => do
    let p ← readPosition raw
    let t ← readTrigger trigger
    let text ← readSource files path
    let items := Engine.complete ⟨Grammar.standard, s.options⟩ text.toList p t
    return (Tree.list (items.map CompletionItem.tree)).json ++ "\n"
  | .hover path raw => do
    let p ← readPosition raw
    let text ← readSource files path
    let card := Engine.hover ⟨Grammar.standard, s.options⟩ text.toList p
    return ((card.map HoverCard.tree).getD .null).json ++ "\n"
  | .normalize path => do
    let text ← readSource files path
    return normalizeText text ++ "\n"
  | .schema format => printSchema format

/-- Runs the command line. -/
def run (files : String → Found) (args : List String) : Outcome :=
  match parse? args with
  | none => .usage
  | some .version => .printed versionLine
  | some (.run config command) =>
    let result : Except CliError String := do
      let s ← readSettings files config
      match command with
      | some command => execute files s command
      | none => return ""
    match result with
    | .ok text => .printed text
    | .error e => .failed e

/-- The paths whose files a run may read. -/
def paths (args : List String) : List String :=
  match parse? args with
  | some (.run config command) =>
    (config.map configNames).getD [] ++
      match command with
      | some (.complete path _ _) => [path]
      | some (.hover path _) => [path]
      | some (.normalize path) => [path]
      | _ => []
  | _ => []

end Cli

end TopologyAssist
