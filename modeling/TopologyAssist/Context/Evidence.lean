import TopologyAssist.Context.Shape

/-!
Which kind an element is, from the value of the field that tells the kinds apart.

The last mention of the field in the open block decides. A value that a delimiter follows must be
a kind's own; a value still being typed may also be the beginning of one. A field without a value
takes the value most recently declared for the same container. If the block does not mention the
field, its first mention in the rest of the line decides, up to the next bracket. Without evidence
every kind stays possible; evidence that fits no kind leaves none.
-/

namespace TopologyAssist

/-- The text around the cursor that may say which kind an element is. -/
structure Evidence where
  /-- The open block, from its parenthesis to the cursor. -/
  scope : List Char
  /-- The rest of the cursor's line. -/
  lookahead : List Char
  /-- The section before the open block. -/
  history : List Char
  deriving DecidableEq, Repr

/-- What the evidence leaves of the kinds of a container. -/
inductive Resolution where
  | resolved (id : KindId)
  | ambiguous (ids : List KindId)
  | rejected
  deriving DecidableEq, Repr

/-! ### Assignments in a text -/

/-- A block without the blocks in it and without their parentheses. -/
def dropBlocks : Nat → List Char → List Char
  | _, [] => []
  | depth, c :: cs =>
    if c = '(' then dropBlocks (depth + 1) cs
    else if c = ')' then dropBlocks (depth - 1) cs
    else if depth = 0 then c :: dropBlocks depth cs
    else dropBlocks depth cs

/-- A text up to its first bracket. -/
def clipBlock (cs : List Char) : List Char := cs.takeWhile isPlain

/-- A value that a text assigns to a key. -/
structure Assignment where
  value : List Char
  /-- A delimiter follows the value. -/
  terminated : Bool
  deriving DecidableEq, Repr

/-- A delimiter that ends an assigned value. -/
def endsAssigned (c : Char) : Bool := isBracket c || c == ','

/-- The assigned value that a text begins with. -/
def Assignment.read (cs : List Char) : Assignment where
  value := cs.takeWhile fun c => !endsAssigned c
  terminated := cs.any endsAssigned

/-- A key may begin after this character, or at the beginning of the text. -/
def beforeKey : Option Char → Bool
  | none => true
  | some c => c == ',' || c == '('

/-- What follows each mention of `needle` that begins a field. Mentions do not overlap: `skip`
characters of the last one are still to pass, and `last` is the character just passed. -/
def mentions (needle : List Char) : Nat → Option Char → List Char → List (List Char)
  | _, _, [] => []
  | skip + 1, _, c :: cs => mentions needle skip (some c) cs
  | 0, last, c :: cs =>
    if needle.isPrefixOf (c :: cs) then
      (if beforeKey last then [(c :: cs).drop needle.length] else []) ++
        mentions needle (needle.length - 1) (some c) cs
    else mentions needle 0 (some c) cs

/-- The values that a text assigns to a key, in order. -/
def assignments (key cs : List Char) : List Assignment :=
  (mentions (key ++ ['=']) 0 none cs).map Assignment.read

/-! ### Kinds -/

namespace Grammar

/-- The first of the kinds that a value names. -/
def exactKind? (g : Grammar) (ids : List KindId) (value : List Char) : Option KindId :=
  ids.find? fun id => (g.discriminator? id).any fun d => d.accepts (.complete value)

/-- The kinds that a found value leaves: the one it names, else those it may still become. -/
def select (g : Grammar) (ids : List KindId) (found : Observed) : Resolution :=
  match g.exactKind? ids found.value with
  | some id => .resolved id
  | none =>
    match ids.filter fun id => (g.discriminator? id).any fun d => d.accepts found with
    | [] => .rejected
    | [id] => .resolved id
    | rest => .ambiguous rest

/-- Every kind of a container. -/
def allKinds (g : Grammar) (c : Container) : Resolution :=
  match g.kindsIn c with
  | [id] => .resolved id
  | ids => .ambiguous ids

/-- The kinds of a container that a selecting field without a value leaves: the kind most recently
declared, else all. -/
def resolveEmpty (g : Grammar) (c : Container) (history : List Char) : Resolution :=
  match (g.lastDeclared? c history).bind (g.exactKind? (g.kindsIn c)) with
  | some id => .resolved id
  | none => .ambiguous (g.kindsIn c)

/-- The kinds of a container that the evidence leaves. -/
def resolve (g : Grammar) (c : Container) (e : Evidence) : Resolution :=
  match g.kindsIn c with
  | [id] => .resolved id
  | ids =>
    match g.selector? c with
    | none => .ambiguous ids
    | some key =>
      match (assignments key.toList (dropBlocks 0 e.scope)).getLast? with
      | some a =>
        if a.value.isEmpty then g.resolveEmpty c e.history
        else if a.terminated then g.select ids (.complete a.value)
        else g.select ids (.typing a.value)
      | none =>
        match (assignments key.toList (clipBlock e.lookahead)).head? with
        | some a => if a.value.isEmpty then .ambiguous ids else g.select ids (.complete a.value)
        | none => .ambiguous ids

end Grammar

end TopologyAssist
