/-!
Readers: every way to read the beginning of a text, the preferred way first.

A reader maps a text to the list of its readings, each a value and the text that is left. A choice
lists the readings of its first branch before those of its second, and a repetition prefers to go
on, so the head of the list is the reading that a scan with backtracking takes. A search takes the
head of the list at the first place of the text where the list is not empty.
-/

namespace TopologyAssist

/-- Every way to read the beginning of a text, the preferred way first. -/
def Reader (α : Type) : Type := List Char → List (α × List Char)

namespace Reader

variable {α β : Type}

/-- Reads nothing. -/
def done (a : α) : Reader α := fun cs => [(a, cs)]

/-- Reads one thing and then, with its value, the next. -/
def andThen (r : Reader α) (f : α → Reader β) : Reader β :=
  fun cs => (r cs).flatMap fun p => f p.1 p.2

instance : Monad Reader where
  pure := done
  bind := andThen

/-- Either reading, the first preferred. -/
def either (r s : Reader α) : Reader α := fun cs => r cs ++ s cs

/-- The reading where there is one; reading nothing comes last. -/
def maybe (r : Reader Unit) : Reader Unit := either r (done ())

/-- The first of the readings that fits, in the order of the list. -/
def oneOf (rs : List (Reader α)) : Reader α := fun cs => rs.flatMap fun r => r cs

/-- One character of a class. -/
def one (p : Char → Bool) : Reader Unit
  | [] => []
  | c :: cs => if p c then [((), cs)] else []

/-- Exactly these characters. -/
def word : List Char → Reader Unit
  | [], cs => [((), cs)]
  | _ :: _, [] => []
  | w :: ws, c :: cs => if w = c then word ws cs else []

/-- The text that is left, which stays left. -/
def here : Reader (List Char) := fun cs => [(cs, cs)]

/-- The end of the text. -/
def finish : Reader Unit
  | [] => [((), [])]
  | _ :: _ => []

/-- The places where a run of characters of a class may stop, the longest run first, before the
places already known. -/
def runStops (p : Char → Bool) : List Char → List (List Char) → List (List Char)
  | [], known => [] :: known
  | c :: cs, known => if p c then runStops p cs ((c :: cs) :: known) else (c :: cs) :: known

/-- Any number of characters of a class, as many as possible first. -/
def run (p : Char → Bool) : Reader Unit := fun cs => (runStops p cs []).map fun rest => ((), rest)

/-- One or more characters of a class, as many as possible first. -/
def run1 (p : Char → Bool) : Reader Unit := do one p; run p

/-- The places where a repetition may stop, the longest first, before the places already known. -/
def manyStops (r : Reader Unit) : Nat → List Char → List (List Char) → List (List Char)
  | 0, cs, known => cs :: known
  | fuel + 1, cs, known =>
    (r cs).foldr (fun p known => manyStops r fuel p.2 known) (cs :: known)

/-- Any number of readings of `r`, as many as possible first. Each takes a character at least, so
the length of the text bounds their number. -/
def many (r : Reader Unit) : Reader Unit :=
  fun cs => (manyStops r cs.length cs []).map fun rest => ((), rest)

/-- The preferred reading at the beginning of a text. -/
def first? (r : Reader α) (cs : List Char) : Option α := (r cs).head?.map Prod.fst

/-- The preferred reading at the first place of the text that has one. -/
def search? (r : Reader α) : List Char → Option α
  | [] => r.first? []
  | c :: cs => (r.first? (c :: cs)).or (search? r cs)

/-- The readings that a walk through the text meets: each is the preferred one at the first place
that has one, and the walk goes on behind it. -/
def walk (r : Reader α) : Nat → List Char → List α
  | 0, _ => []
  | _ + 1, [] => []
  | fuel + 1, c :: cs =>
    match r (c :: cs) with
    | (a, rest) :: _ => a :: walk r fuel rest
    | [] => walk r fuel cs

/-- Every reading that a walk through the whole text meets, for a reader that takes a character at
least. -/
def collect (r : Reader α) (cs : List Char) : List α := walk r cs.length cs

end Reader

/-- The characters of `whole` before its ending `rest`. -/
def textBefore (whole rest : List Char) : List Char := whole.take (whole.length - rest.length)

end TopologyAssist
