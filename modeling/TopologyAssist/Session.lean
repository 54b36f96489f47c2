import TopologyAssist.Engine

/-!
An editor's session: the open documents, and the requests about them.

An editor opens, changes and closes documents by their address. A change brings whole texts, and
the last one counts; a change without a text changes nothing. A request is answered on the latest
text of its document, and a request for a document that is not open has no answer. What an address
is, and when two are one, is left to the editor.
-/

namespace TopologyAssist

/-- What an editor tells about its documents. -/
inductive DocumentEvent (Uri : Type) where
  | opened (uri : Uri) (text : String)
  | changed (uri : Uri) (texts : List String)
  | closed (uri : Uri)
  deriving DecidableEq, Repr

/-- An editor's session: the engine that answers, and the open documents by address. -/
structure Session (Uri : Type := String) where
  engine : Engine
  documents : List (Uri × String) := []

namespace Session

variable {Uri : Type} [DecidableEq Uri]

/-- The text of an open document. -/
def document? (s : Session Uri) (uri : Uri) : Option String := s.documents.lookup uri

/-- The session with a document open at this text. -/
def put (s : Session Uri) (uri : Uri) (text : String) : Session Uri :=
  { s with documents := (uri, text) :: s.documents.filter fun d => d.1 != uri }

/-- The session with a document closed. -/
def erase (s : Session Uri) (uri : Uri) : Session Uri :=
  { s with documents := s.documents.filter fun d => d.1 != uri }

/-- The session after an event. -/
def handle (s : Session Uri) : DocumentEvent Uri → Session Uri
  | .opened uri text => s.put uri text
  | .changed uri texts =>
    match texts.getLast? with
    | some text => s.put uri text
    | none => s
  | .closed uri => s.erase uri

/-- What may be written at a position of an open document. -/
def complete? (s : Session Uri) (uri : Uri) (p : Position) (t : Trigger) :
    Option (List CompletionItem) :=
  (s.document? uri).map fun text => s.engine.complete text.toList p t

/-- The explanation of what stands at a position of an open document. -/
def hover? (s : Session Uri) (uri : Uri) (p : Position) : Option HoverCard :=
  (s.document? uri).bind fun text => s.engine.hover text.toList p

end Session

/-! ### The editor's own terms -/

/-- What a session announces to an editor. -/
structure Capabilities where
  name : String
  version : String
  triggerCharacters : List String
  hover : Bool
  /-- How changes are sent: 1 stands for whole texts. -/
  textSync : Nat
  deriving DecidableEq, Repr

/-- What every session announces. -/
def Capabilities.announced : Capabilities where
  name := "ntd-lsp"
  version := "0.1.0"
  triggerCharacters := Trigger.characters.map fun c => String.ofList [c]
  hover := true
  textSync := 1

/-- The editor's number for a sort of item. -/
def ItemKind.number : ItemKind → Nat
  | .field => 5
  | .container => 9
  | .property => 10
  | .value => 12
  | .snippet => 15
  | .enumMember => 20

/-- The editor's number for the form of an inserted text: 1 plain, 2 a snippet. -/
def CompletionItem.textFormat (item : CompletionItem) : Nat := if item.snippet then 2 else 1

/-- A completion item as an editor takes it. -/
structure EditorItem where
  label : String
  kind : Nat
  detail : Option String
  documentation : Option String
  insertText : Option String
  textFormat : Nat
  deriving DecidableEq, Repr

/-- The item as an editor takes it. -/
def CompletionItem.toEditor (item : CompletionItem) : EditorItem where
  label := item.label
  kind := item.kind.number
  detail := item.detail
  documentation := item.documentation
  insertText := item.insertText
  textFormat := item.textFormat

/-- A place as an editor writes it: a line and a character from zero, in 32 bits each. -/
structure EditorPlace where
  line : UInt32
  character : UInt32
  deriving DecidableEq, Repr

namespace EditorPlace

/-- The position that an editor's place stands for. -/
def position (place : EditorPlace) : Position := ⟨place.line.toNat, place.character.toNat⟩

/-- The place of a line and a column; of a number that is too large the low 32 bits are left. -/
def ofNats (line column : Nat) : EditorPlace := ⟨.ofNat line, .ofNat column⟩

end EditorPlace

/-- An explanation as an editor takes it: a text in markdown, and the places it is about. -/
structure EditorHover where
  markdown : String
  start : EditorPlace
  stop : EditorPlace
  deriving DecidableEq, Repr

/-- The explanation as an editor takes it. -/
def HoverCard.toEditor (h : HoverCard) : EditorHover where
  markdown := h.contents
  start := .ofNats h.range.line h.range.start
  stop := .ofNats h.range.line h.range.stop

/-- How an editor says a completion was asked for: a number, where 2 stands for a typed character,
and the character. A request without the character counts as the user's. -/
def Trigger.ofRequest (kind : Nat) (character : Option String) : Trigger :=
  if kind == 2 then
    match (character.getD "").toList with
    | c :: _ => .character c
    | [] => .invoked
  else .invoked

/-- How a completion was asked for; an editor that does not say was told to by the user. -/
def Trigger.ofContext : Option (Nat × Option String) → Trigger
  | some (kind, typed) => .ofRequest kind typed
  | none => .invoked

/-! ### Calls and answers -/

/-- What an editor sends: the calls around a session, an event, or a request about a document. -/
inductive Call (Uri : Type) where
  /-- The editor asks what the session can do. -/
  | start
  /-- The editor has taken the answer in. -/
  | started
  | stop
  | event (e : DocumentEvent Uri)
  | completion (uri : Uri) (place : EditorPlace) (context : Option (Nat × Option String))
  | hover (uri : Uri) (place : EditorPlace)
  deriving DecidableEq, Repr

/-- What an editor gets back. -/
inductive Answer where
  /-- An event has no answer, and the calls around a session have none but the first. -/
  | silence
  | capabilities (c : Capabilities)
  | completion (items : Option (List EditorItem))
  | hover (found : Option EditorHover)
  deriving DecidableEq, Repr

namespace Session

variable {Uri : Type} [DecidableEq Uri]

/-- The session after a call. -/
def after (s : Session Uri) : Call Uri → Session Uri
  | .event e => s.handle e
  | .start => s
  | .started => s
  | .stop => s
  | .completion .. => s
  | .hover .. => s

/-- The answer to a call. -/
def answer (s : Session Uri) : Call Uri → Answer
  | .start => .capabilities .announced
  | .started => .silence
  | .stop => .silence
  | .event _ => .silence
  | .completion uri place context =>
    .completion <| (s.complete? uri place.position (.ofContext context)).map fun items =>
      items.map CompletionItem.toEditor
  | .hover uri place => .hover <| (s.hover? uri place.position).map HoverCard.toEditor

/-- The answers to a row of calls, each on the documents that the calls before it leave. -/
def answers : Session Uri → List (Call Uri) → List Answer
  | _, [] => []
  | s, call :: calls => s.answer call :: (s.after call).answers calls

end Session

end TopologyAssist
