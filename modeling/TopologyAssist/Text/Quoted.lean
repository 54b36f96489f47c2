import TopologyAssist.Text.Unseen

/-!
Quoted text, as messages show it: in double quotes, with escapes for what would not be seen.

A quote and a backslash get a backslash, the usual control characters their letter, and every
other character that does not show by itself its code point in braces.
-/

namespace TopologyAssist

/-- One character of a quoted text. -/
def quotedChar (c : Char) : List Char :=
  if c == '"' || c == '\\' then ['\\', c]
  else if c == '\n' then ['\\', 'n']
  else if c == '\r' then ['\\', 'r']
  else if c == '\t' then ['\\', 't']
  else if c.toNat == 0 then ['\\', '0']
  else if isUnseen c then ['\\', 'u', '\x7b'] ++ Nat.toDigits 16 c.toNat ++ ['\x7d']
  else [c]

/-- A text in double quotes. -/
def quoted (text : String) : String :=
  "\"" ++ String.ofList (text.toList.flatMap quotedChar) ++ "\""

end TopologyAssist
