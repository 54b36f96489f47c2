import TopologyAssist.Text.Blank

/-!
Layout: the comments and blanks of a description, and the text without them.

A comment runs from `//` through the end of its line, the line break included. A comment on the
last line has no line break to end it and stays in the text. Once the closed comments are gone,
every blank goes too, so that a field split across lines reads as one token.
-/

namespace TopologyAssist

/-- Whether the text holds the two slashes that open a comment. -/
def opensComment : List Char → Bool
  | [] => false
  | c :: cs => (c == '/' && cs.head? == some '/') || opensComment cs

/-- A text without its closed comments. The flag says that the scan stands inside one; it is
raised only when a line break follows, so a comment that nothing closes is kept. -/
def dropComments : Bool → List Char → List Char
  | _, [] => []
  | true, c :: cs => dropComments (c != '\n') cs
  | false, c :: cs =>
    if c == '/' && cs.head? == some '/' && cs.contains '\n' then dropComments true cs
    else c :: dropComments false cs

/-- A text without closed comments and blanks. -/
def normalize (cs : List Char) : List Char :=
  (dropComments false cs).filter fun c => !isBlank c

/-- A description as the analysis reads it, without closed comments and blanks. -/
def normalizeText (text : String) : String := String.ofList (normalize text.toList)

end TopologyAssist
