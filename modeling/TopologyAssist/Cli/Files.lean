/-!
Files as the command line finds them: by path, with what may stand in the way.
-/

namespace TopologyAssist

namespace Cli

/-- Why a file cannot be read. -/
inductive ReadFault where
  | missing
  | denied
  | notDirectory
  | directory
  | longName
  | notText
  deriving DecidableEq, Repr

namespace ReadFault

/-- The message of a fault. -/
def message : ReadFault → String
  | missing => "No such file or directory (os error 2)"
  | denied => "Permission denied (os error 13)"
  | notDirectory => "Not a directory (os error 20)"
  | directory => "Is a directory (os error 21)"
  | longName => "File name too long (os error 36)"
  | notText => "stream did not contain valid UTF-8"

end ReadFault

/-- What a path leads to. -/
inductive Found where
  | file (bytes : ByteArray)
  | fault (f : ReadFault)

/-! ### Paths -/

/-- The parts of a path between slashes. -/
def pathParts : List Char → List (List Char)
  | [] => [[]]
  | c :: cs =>
    if c = '/' then [] :: pathParts cs
    else
      match pathParts cs with
      | [] => [[c]]
      | part :: rest => (c :: part) :: rest

/-- A part of a path stays where it is: it is empty, or a dot. -/
def staysHere (part : List Char) : Bool := part.isEmpty || part == ['.']

/-- A part of a path leads to the folder around. -/
def leadsOut (part : List Char) : Bool := part == ['.', '.']

/-- A path with an ending behind its last name. One that ends on the way out, or has no name at all,
takes none. -/
def withEnding? (path ending : String) : Option String :=
  match (pathParts path.toList).reverse.dropWhile staysHere with
  | [] => none
  | part :: before =>
    if leadsOut part then none
    else
      some (String.intercalate "/" ((part :: before).reverse.map String.ofList) ++ ending)

end Cli

end TopologyAssist
