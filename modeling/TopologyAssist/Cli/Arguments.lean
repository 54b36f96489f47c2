/-!
The arguments of the command line.

A command stands among options. An option has a long and a short name and takes a value, which is
attached to the name or is the next argument; an argument that looks like an option is no value.
Behind `--` nothing is an option. An option is given once at most; the configuration file may be
named before the command and once more behind it, where it counts.
-/

namespace TopologyAssist

namespace Cli

/-- What is to be done. -/
inductive Command where
  | complete (path place : String) (trigger : Option String)
  | hover (path place : String)
  | normalize (path : String)
  | schema (format : String)
  deriving DecidableEq, Repr

/-- What the command line asks for. -/
inductive Request where
  /-- The version of the program. -/
  | version
  /-- A command, or none, with the configuration file to use. -/
  | run (config : Option String) (command : Option Command)
  deriving DecidableEq, Repr

/-- An option, by its long and short name. -/
structure OptionName where
  long : String
  short : Char
  deriving DecidableEq, Repr

/-- The option that names the configuration file. -/
def configOption : OptionName := ⟨"config", 'c'⟩

/-- The option that gives the position. -/
def atOption : OptionName := ⟨"at", 'a'⟩

/-- The option that gives the trigger character. -/
def triggerOption : OptionName := ⟨"trigger", 't'⟩

/-- The option that gives the output format. -/
def formatOption : OptionName := ⟨"format", 'f'⟩

/-- What one argument is. -/
inductive Argument where
  | positional (s : String)
  /-- Everything behind it is positional. -/
  | divider
  /-- A long name, with the value attached by `=`. -/
  | long (name : String) (attached : Option String)
  /-- A short name, with the value attached directly or by `=`. -/
  | short (name : Char) (attached : Option String)
  deriving DecidableEq, Repr

namespace Argument

/-- What an argument is, by its first characters. A lone `-` is positional. -/
def ofString (s : String) : Argument :=
  match s.toList with
  | ['-', '-'] => divider
  | '-' :: '-' :: rest =>
    let (name, value) := rest.span fun c => c != '='
    long (String.ofList name) (if value.isEmpty then none else some (String.ofList (value.drop 1)))
  | '-' :: c :: rest =>
    short c (match rest with
      | [] => none
      | '=' :: value => some (String.ofList value)
      | value => some (String.ofList value))
  | _ => positional s

/-- The option of a list that an argument names. -/
def option? (options : List OptionName) : Argument → Option (OptionName × Option String)
  | long name attached => (options.find? fun o => o.long == name).map fun o => (o, attached)
  | short name attached => (options.find? fun o => o.short == name).map fun o => (o, attached)
  | _ => none

/-- The argument may be the value of the option before it. -/
def isValue : Argument → Bool
  | positional _ => true
  | _ => false

end Argument

/-- The options that were given with their values, and the positional arguments. -/
structure Given where
  options : List (String × String) := []
  positionals : List String := []
  deriving DecidableEq, Repr

namespace Given

/-- Adds an option; one that was given already is an error. -/
def withOption? (g : Given) (o : OptionName) (value : String) : Option Given :=
  if (g.options.lookup o.long).isSome then none
  else some { g with options := (o.long, value) :: g.options }

/-- Adds a positional argument. -/
def withPositional (g : Given) (s : String) : Given :=
  { g with positionals := g.positionals ++ [s] }

/-- The value of an option. -/
def value? (g : Given) (o : OptionName) : Option String := g.options.lookup o.long

end Given

/-- Reads the arguments of a command. -/
def readArguments (options : List OptionName) : Given → List String → Option Given
  | given, [] => some given
  | given, s :: rest =>
    match Argument.ofString s with
    | .positional s => readArguments options (given.withPositional s) rest
    | .divider => some (rest.foldl Given.withPositional given)
    | arg =>
      match arg.option? options with
      | none => none
      | some (o, some value) =>
        (given.withOption? o value).bind fun given => readArguments options given rest
      | some (o, none) =>
        match rest with
        | [] => none
        | value :: rest =>
          if (Argument.ofString value).isValue then
            (given.withOption? o value).bind fun given => readArguments options given rest
          else none

/-- The command of a name with its arguments: the configuration file named there, and the
command. -/
def readCommand (name : String) (args : List String) : Option (Option String × Command) :=
  let read (options : List OptionName) := readArguments (configOption :: options) {} args
  if name == "complete" then do
    let given ← read [atOption, triggerOption]
    match given.positionals, given.value? atOption with
    | [path], some place =>
      some (given.value? configOption, .complete path place (given.value? triggerOption))
    | _, _ => none
  else if name == "hover" then do
    let given ← read [atOption]
    match given.positionals, given.value? atOption with
    | [path], some place => some (given.value? configOption, .hover path place)
    | _, _ => none
  else if name == "normalize" then do
    let given ← read []
    match given.positionals with
    | [path] => some (given.value? configOption, .normalize path)
    | _ => none
  else if name == "schema" then do
    let given ← read [formatOption]
    match given.positionals with
    | [] =>
      some (given.value? configOption, .schema ((given.value? formatOption).getD "text"))
    | _ => none
  else none

/-- Reads the arguments up to the command; `config` is the configuration file named so far. No
arguments at all are an error. -/
def readRequest (config : Option String) : List String → Option Request
  | [] => config.map fun file => .run (some file) none
  | s :: rest =>
    match Argument.ofString s with
    | .positional name =>
      (readCommand name rest).map fun (inner, command) => .run (inner.or config) (some command)
    | .divider =>
      if rest.isEmpty then config.map fun file => .run (some file) none else none
    | .long "version" none => some .version
    | .short 'V' _ => some .version
    | arg =>
      match arg.option? [configOption] with
      | none => none
      | some (_, some value) =>
        if config.isSome then none else readRequest (some value) rest
      | some (_, none) =>
        match rest with
        | [] => none
        | value :: rest =>
          if (Argument.ofString value).isValue && config.isNone then readRequest (some value) rest
          else none

/-- What the arguments ask for; nothing if they cannot be used. -/
def parse? (args : List String) : Option Request := readRequest none args

end Cli

end TopologyAssist
