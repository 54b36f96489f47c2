import TopologyAssist.Decimal.Shortest
import TopologyAssist.Text.Quoted

/-!
Configuration values: a configuration is a table of values by key, and a path leads through tables
by keys and through lists by indices.
-/

namespace TopologyAssist

/-- A configuration value. -/
inductive ConfigValue where
  | nil
  | bool (b : Bool)
  | int (n : Int)
  | decimal (x : Binary64)
  | text (s : String)
  | list (items : List ConfigValue)
  | table (entries : List (String × ConfigValue))

namespace ConfigValue

/-- The entries of a table; any other value has none. -/
def entries : ConfigValue → List (String × ConfigValue)
  | table es => es
  | _ => []

/-- The items of a list; any other value has none. -/
def items : ConfigValue → List ConfigValue
  | list vs => vs
  | _ => []

/-- The value of a key. -/
def get? (v : ConfigValue) (key : String) : Option ConfigValue := v.entries.lookup key

/-- How a message names a value. -/
def describe : ConfigValue → String
  | nil => "unit value"
  | bool b => "boolean `" ++ (if b then "true" else "false") ++ "`"
  | int n => "integer `" ++ toString n ++ "`"
  | decimal x => "floating point `" ++ x.pointedText ++ "`"
  | text s => "string " ++ quoted s
  | list _ => "sequence"
  | table _ => "map"

end ConfigValue

/-- A step of a path. -/
inductive Step where
  /-- To the value of a key. -/
  | key (name : String)
  /-- To an item of a list, from its end if the index is below zero. -/
  | item (index : Int)
  deriving DecidableEq, Repr

end TopologyAssist
