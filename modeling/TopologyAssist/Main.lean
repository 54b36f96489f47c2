import TopologyAssist.Cli.Run

/-!
The command line program.
-/

namespace TopologyAssist.Cli

/-- What a path of the file system leads to. A part of the path that is no folder shows when the
file is opened, and the error names the path; a folder shows when it is read. -/
def lookAt (path : String) : IO (String × Found) := do
  try
    let bytes ← IO.FS.readBinFile path
    return (path, .file bytes)
  catch
    | .noFileOrDirectory .. => return (path, .fault .missing)
    | .permissionDenied .. => return (path, .fault .denied)
    | .inappropriateType (some _) .. => return (path, .fault .notDirectory)
    | .invalidArgument .. => return (path, .fault .longName)
    | _ => return (path, .fault .directory)

end TopologyAssist.Cli

/-- Reads the files that the arguments name, runs the command line and prints what comes of it. -/
def main (args : List String) : IO UInt32 := do
  let found ← (TopologyAssist.Cli.paths args).mapM TopologyAssist.Cli.lookAt
  let files (path : String) : TopologyAssist.Cli.Found :=
    (found.lookup path).getD (.fault .missing)
  match TopologyAssist.Cli.run files args with
  | .printed text =>
    IO.print text
    return 0
  | .failed e =>
    IO.eprintln ("Error: " ++ e.message)
    return 1
  | .usage =>
    IO.eprintln "usage: ntd [--config FILE] (complete | hover | normalize | schema) ..."
    return 2
