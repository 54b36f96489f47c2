import Mathlib.Data.List.Chain
import TopologyAssist.Proofs.Snippets

/-!
Snippets read back, tab stop by tab stop.

`Snippet.pieces?` reads a snippet strictly: a dollar sign opens a tab stop with a number and a text,
and the text goes up to the first closing brace that has no backslash before it. What a template
writes for a tab stop is read as that tab stop, whatever its text is (`Snippet.readsAs_tabStop`).
`Snippet.numbered` gives the tab stops of an outline their numbers, and `Snippet.Separated` says
that commas stand only between parts.
-/

namespace TopologyAssist

namespace Snippet

/-! ### Pieces -/

/-- A piece of a snippet: a character of its text, or a tab stop. -/
inductive Piece (α : Type) where
  | literal (c : Char)
  | stop (a : α)
  deriving DecidableEq, Repr

namespace Piece

variable {α β : Type}

def map (f : α → β) : Piece α → Piece β
  | literal c => literal c
  | stop a => stop (f a)

def stop? : Piece α → Option α
  | literal _ => none
  | stop a => some a

def literal? : Piece α → Option Char
  | literal c => some c
  | stop _ => none

end Piece

/-- The tab stops among pieces, in their order. -/
def stops {α : Type} (ps : List (Piece α)) : List α := ps.filterMap Piece.stop?

section Stops

variable {α : Type} (ps qs : List (Piece α))

@[simp] lemma stops_nil : stops ([] : List (Piece α)) = [] := rfl

@[simp] lemma stops_literal (c : Char) : stops (.literal c :: ps) = stops ps := rfl

@[simp] lemma stops_stop (a : α) : stops (.stop a :: ps) = a :: stops ps := rfl

@[simp] lemma stops_append : stops (ps ++ qs) = stops ps ++ stops qs := List.filterMap_append

end Stops

/-- A text without tab stops. -/
def literals {α : Type} (s : String) : List (Piece α) := s.toList.map Piece.literal

@[simp] lemma map_literal?_literals {α : Type} (s : String) :
    (literals s : List (Piece α)).map Piece.literal? = s.toList.map some := by
  rw [literals, List.map_map]
  rfl

@[simp] lemma stops_literals {α : Type} (s : String) :
    stops (literals s : List (Piece α)) = [] := by
  rw [literals]
  induction s.toList with
  | nil => rfl
  | cons c cs ih => simpa using ih

/-- Rows of pieces with a comma between them. -/
def joinRows {α : Type} (rows : List (List (Piece α))) : List (Piece α) :=
  [Piece.literal ','].intercalate rows

@[simp] lemma stops_joinRows {α : Type} (rows : List (List (Piece α))) :
    stops (joinRows rows) = stops rows.flatten := by
  induction rows with
  | nil => rfl
  | cons row rows ih =>
    cases rows with
    | nil => simp [joinRows]
    | cons row' rows =>
      rw [joinRows, List.intercalate_cons_cons, ← joinRows]
      simp [ih]

/-! ### Reading -/

/-- What of a snippet is being read. -/
inductive Reading where
  | text
  /-- Behind a backslash in the text. -/
  | escape
  /-- Behind a dollar sign. -/
  | dollar
  /-- The number of a tab stop, with the digits so far. -/
  | number (digits : List Char)
  /-- The text of a tab stop, with what is read of it. -/
  | stop (index : Nat) (read : List Char)
  /-- Behind a backslash in the text of a tab stop. -/
  | stopEscape (index : Nat) (read : List Char)
  deriving DecidableEq, Repr

/-- A backslash before the character takes its meaning away; elsewhere it stands for itself. -/
def isEscapable (c : Char) : Bool := c == '$' || c == '\x7d' || c == '\\'

/-- The pieces of the rest of a snippet, tab stops with their number and text. Nothing if a dollar
sign begins no tab stop, also within a tab stop's text, or if a tab stop has no end. -/
def piecesFrom : Reading → List Char → Option (List (Piece (Nat × String)))
  | .text, [] => some []
  | .escape, [] => some [.literal '\\']
  | .dollar, [] | .number _, [] | .stop _ _, [] | .stopEscape _ _, [] => none
  | .text, c :: cs =>
    if c = '$' then piecesFrom .dollar cs
    else if c = '\\' then piecesFrom .escape cs
    else (piecesFrom .text cs).map (.literal c :: ·)
  | .escape, c :: cs =>
    if isEscapable c then (piecesFrom .text cs).map (.literal c :: ·)
    else (piecesFrom .text cs).map (.literal '\\' :: .literal c :: ·)
  | .dollar, c :: cs => if c = '\x7b' then piecesFrom (.number []) cs else none
  | .number digits, c :: cs =>
    if c.isDigit then piecesFrom (.number (digits ++ [c])) cs
    else if c = ':' ∧ digits ≠ [] then piecesFrom (.stop (Nat.ofDigitChars 10 digits 0) []) cs
    else none
  | .stop index read, c :: cs =>
    if c = '\x7d' then (piecesFrom .text cs).map (.stop (index, String.ofList read) :: ·)
    else if c = '\\' then piecesFrom (.stopEscape index read) cs
    else if c = '$' then none
    else piecesFrom (.stop index (read ++ [c])) cs
  | .stopEscape index read, c :: cs =>
    piecesFrom (.stop index (read ++ if isEscapable c then [c] else ['\\', c])) cs

section Steps

variable (c : Char) (cs digits read : List Char) (index : Nat)

lemma piecesFrom_text_cons : piecesFrom .text (c :: cs) =
    if c = '$' then piecesFrom .dollar cs
    else if c = '\\' then piecesFrom .escape cs
    else (piecesFrom .text cs).map (.literal c :: ·) := rfl

lemma piecesFrom_dollar_cons : piecesFrom .dollar (c :: cs) =
    if c = '\x7b' then piecesFrom (.number []) cs else none := rfl

lemma piecesFrom_number_cons : piecesFrom (.number digits) (c :: cs) =
    if c.isDigit then piecesFrom (.number (digits ++ [c])) cs
    else if c = ':' ∧ digits ≠ [] then piecesFrom (.stop (Nat.ofDigitChars 10 digits 0) []) cs
    else none := rfl

lemma piecesFrom_stop_cons : piecesFrom (.stop index read) (c :: cs) =
    if c = '\x7d' then (piecesFrom .text cs).map (.stop (index, String.ofList read) :: ·)
    else if c = '\\' then piecesFrom (.stopEscape index read) cs
    else if c = '$' then none
    else piecesFrom (.stop index (read ++ [c])) cs := rfl

lemma piecesFrom_stopEscape_cons : piecesFrom (.stopEscape index read) (c :: cs) =
    piecesFrom (.stop index (read ++ if isEscapable c then [c] else ['\\', c])) cs := rfl

end Steps

/-- The pieces of a snippet, if it can be read. -/
def pieces? (s : String) : Option (List (Piece (Nat × String))) := piecesFrom .text s.toList

/-- The beginning of a snippet reads as these pieces, whatever follows. -/
def ReadsAs (s : String) (ps : List (Piece (Nat × String))) : Prop :=
  ∀ rest, piecesFrom .text (s.toList ++ rest) = (piecesFrom .text rest).map (ps ++ ·)

lemma ReadsAs.pieces? {s : String} {ps : List (Piece (Nat × String))} (h : ReadsAs s ps) :
    Snippet.pieces? s = some ps := by
  have hend : piecesFrom .text [] = some [] := rfl
  simpa [Snippet.pieces?, hend] using h []

lemma ReadsAs.append {s s' : String} {ps ps' : List (Piece (Nat × String))} (h : ReadsAs s ps)
    (h' : ReadsAs s' ps') : ReadsAs (s ++ s') (ps ++ ps') := by
  intro rest
  rw [String.toList_append, List.append_assoc, h, h', Option.map_map]
  congr 1
  funext qs
  exact (List.append_assoc ps ps' qs).symm

lemma piecesFrom_text {cs : List Char} (h : ∀ c ∈ cs, c ≠ '$' ∧ c ≠ '\\') (rest : List Char) :
    piecesFrom .text (cs ++ rest) = (piecesFrom .text rest).map (cs.map Piece.literal ++ ·) := by
  induction cs with
  | nil => simp
  | cons c cs ih =>
    obtain ⟨hdollar, hback⟩ := h c (by simp)
    rw [List.cons_append, piecesFrom_text_cons, if_neg hdollar, if_neg hback,
      ih fun c' hc' => h c' (List.mem_cons_of_mem _ hc'), Option.map_map]
    rfl

/-- Text without dollar signs and backslashes reads as it stands. -/
lemma readsAs_literals {s : String} (h : ∀ c ∈ s.toList, c ≠ '$' ∧ c ≠ '\\') :
    ReadsAs s (literals s) :=
  piecesFrom_text h

lemma piecesFrom_number (digits cs rest : List Char) (h : ∀ c ∈ cs, c.isDigit = true) :
    piecesFrom (.number digits) (cs ++ rest) = piecesFrom (.number (digits ++ cs)) rest := by
  induction cs generalizing digits with
  | nil => simp
  | cons c cs ih =>
    rw [List.cons_append, piecesFrom_number_cons, if_pos (h c (by simp)),
      ih _ fun c' hc' => h c' (List.mem_cons_of_mem _ hc'), List.append_assoc,
      List.singleton_append]

/-- **Reading the text of a tab stop undoes its escapes.** -/
lemma piecesFrom_escapeChars (index : Nat) (read cs rest : List Char) :
    piecesFrom (.stop index read) (Template.escapeChars cs ++ rest) =
      piecesFrom (.stop index (read ++ cs)) rest := by
  induction cs generalizing read with
  | nil => simp [Template.escapeChars]
  | cons c cs ih =>
    rw [Template.escapeChars] at ih
    rw [Template.escapeChars, List.flatMap_cons, List.append_assoc]
    by_cases hc : Template.isSpecial c = true
    · have hescapable : isEscapable c = true := hc
      rw [if_pos hc, List.cons_append, List.singleton_append, piecesFrom_stop_cons,
        if_neg (by decide), if_pos rfl, piecesFrom_stopEscape_cons, if_pos hescapable, ih,
        List.append_assoc, List.singleton_append]
    · rw [if_neg hc]
      simp only [Template.isSpecial, Bool.or_eq_true, beq_iff_eq, not_or] at hc
      obtain ⟨⟨hdollar, hbrace⟩, hback⟩ := hc
      rw [List.singleton_append, piecesFrom_stop_cons, if_neg hbrace, if_neg hback, if_neg hdollar,
        ih, List.append_assoc, List.singleton_append]

/-- **A tab stop reads back with its number and its text**, whatever characters these are. -/
theorem readsAs_tabStop (index : Nat) (text : String) :
    ReadsAs (Template.tabStop index text) [.stop (index, text)] := by
  intro rest
  have hsplit : (Template.tabStop index text).toList ++ rest =
      '$' :: '\x7b' :: (Nat.toDigits 10 index ++
        ':' :: (Template.escapeChars text.toList ++ '\x7d' :: rest)) := by
    simp [Template.tabStop, Template.escape, Nat.toString_eq_repr, Nat.toList_repr]
  have hdigits : ∀ c ∈ Nat.toDigits 10 index, c.isDigit = true := fun c hc =>
    Nat.isDigit_of_mem_toDigits (by decide) (by decide) hc
  rw [hsplit, piecesFrom_text_cons, if_pos rfl, piecesFrom_dollar_cons, if_pos rfl,
    piecesFrom_number _ _ _ hdigits, List.nil_append, piecesFrom_number_cons, if_neg (by decide),
    if_pos ⟨rfl, Nat.toDigits_ne_nil⟩, Nat.ofDigitChars_ten_toDigits, piecesFrom_escapeChars,
    List.nil_append, piecesFrom_stop_cons, if_pos rfl, String.ofList_toList]
  rfl

/-- Parts with commas between them read as their pieces with commas between them. -/
lemma ReadsAs.intercalate {parts : List String} {rows : List (List (Piece (Nat × String)))}
    (h : List.Forall₂ ReadsAs parts rows) : ReadsAs (",".intercalate parts) (joinRows rows) := by
  induction h with
  | nil => exact fun rest => by simp [joinRows]
  | @cons part row parts rows hpart hparts ih =>
    cases hparts with
    | nil => simpa [joinRows] using hpart
    | cons hpart' hparts' =>
      rw [String.intercalate_cons_cons, joinRows, List.intercalate_cons_cons]
      have hcomma : ReadsAs "," [.literal ','] := readsAs_literals (by simp)
      exact (hpart.append hcomma).append ih

lemma map_pieces? {texts : List String} {read : List (List (Piece (Nat × String)))}
    (h : List.Forall₂ ReadsAs texts read) : texts.map Snippet.pieces? = read.map some := by
  induction h with
  | nil => rfl
  | cons htext _ ih => rw [List.map_cons, List.map_cons, htext.pieces?, ih]

/-! ### Numbering -/

section Numbering

variable {α : Type} (text : α → String)

/-- The pieces with tab stops numbered one by one from `next` on. -/
def numbered : Nat → List (Piece α) → List (Piece (Nat × String))
  | _, [] => []
  | next, .literal c :: ps => .literal c :: numbered next ps
  | next, .stop a :: ps => .stop (next, text a) :: numbered (next + 1) ps

/-- Rows of pieces with one numbering for all. -/
def numberedRows : Nat → List (List (Piece α)) → List (List (Piece (Nat × String)))
  | _, [] => []
  | next, row :: rows => numbered text next row :: numberedRows (next + (stops row).length) rows

variable (next : Nat)

@[simp] lemma numbered_literal (c : Char) (ps : List (Piece α)) :
    numbered text next (.literal c :: ps) = .literal c :: numbered text next ps := rfl

@[simp] lemma numbered_stop (a : α) (ps : List (Piece α)) :
    numbered text next (.stop a :: ps) = .stop (next, text a) :: numbered text (next + 1) ps := rfl

@[simp] lemma numberedRows_cons (row : List (Piece α)) (rows : List (List (Piece α))) :
    numberedRows text next (row :: rows) =
      numbered text next row :: numberedRows text (next + (stops row).length) rows := rfl

lemma numbered_append (ps qs : List (Piece α)) :
    numbered text next (ps ++ qs) =
      numbered text next ps ++ numbered text (next + (stops ps).length) qs := by
  induction ps generalizing next with
  | nil => rfl
  | cons p ps ih =>
    cases p with
    | literal c => simp [ih]
    | stop a => simp [ih, Nat.add_assoc, Nat.add_comm 1]

lemma numbered_literals (s : String) : numbered text next (literals s) = literals s := by
  rw [literals, literals]
  induction s.toList with
  | nil => rfl
  | cons c cs ih => simp [ih]

lemma flatten_numberedRows (rows : List (List (Piece α))) :
    (numberedRows text next rows).flatten = numbered text next rows.flatten := by
  induction rows generalizing next with
  | nil => rfl
  | cons row rows ih =>
    rw [numberedRows_cons, List.flatten_cons, ih, List.flatten_cons, numbered_append]

lemma numberedRows_append (rows rows' : List (List (Piece α))) :
    numberedRows text next (rows ++ rows') =
      numberedRows text next rows ++
        numberedRows text (next + (stops rows.flatten).length) rows' := by
  induction rows generalizing next with
  | nil => rfl
  | cons row rows ih => simp [ih, Nat.add_assoc]

lemma joinRows_numberedRows (rows : List (List (Piece α))) :
    joinRows (numberedRows text next rows) = numbered text next (joinRows rows) := by
  induction rows generalizing next with
  | nil => rfl
  | cons row rows ih =>
    cases rows with
    | nil =>
      have hend : numberedRows text (next + (stops row).length) [] = [] := rfl
      simp [joinRows, hend]
    | cons row' rows =>
      have hih := ih (next + (stops row).length)
      rw [joinRows, joinRows, numberedRows_cons] at hih
      rw [joinRows, joinRows, numberedRows_cons, numberedRows_cons, List.intercalate_cons_cons, hih,
        List.intercalate_cons_cons, numbered_append, numbered_append]
      have hcomma : numbered text (next + (stops row).length) [.literal ','] = [.literal ','] := rfl
      simp [hcomma]

/-- The numbers go up one by one. -/
lemma stops_numbered (ps : List (Piece α)) :
    stops (numbered text next ps) = ((stops ps).zipIdx next).map fun x => (x.2, text x.1) := by
  induction ps generalizing next with
  | nil => rfl
  | cons p ps ih => cases p <;> simp [ih]

lemma map_snd_numbered (ps : List (Piece α)) :
    (numbered text next ps).map (Piece.map Prod.snd) = ps.map (Piece.map text) := by
  induction ps generalizing next with
  | nil => rfl
  | cons p ps ih => cases p <;> simp [Piece.map, ih]

lemma map_snd_numberedRows (rows : List (List (Piece α))) :
    (numberedRows text next rows).map (List.map (Piece.map Prod.snd)) =
      rows.map (List.map (Piece.map text)) := by
  induction rows generalizing next with
  | nil => rfl
  | cons row rows ih => simp [map_snd_numbered, ih]

/-- Numbering keeps the text. -/
lemma map_literal?_numbered (ps : List (Piece α)) :
    (numbered text next ps).map Piece.literal? = ps.map Piece.literal? := by
  induction ps generalizing next with
  | nil => rfl
  | cons p ps ih => cases p <;> simp [Piece.literal?, ih]

end Numbering

/-! ### Commas -/

/-- The two may stand side by side, where `none` is a tab stop. A comma has no empty part on either
side. -/
def Meets (a b : Option Char) : Prop :=
  (a = some ',' → b ≠ some ',' ∧ b ≠ some ')') ∧ (b = some ',' → a ≠ some '(')

instance (a b : Option Char) : Decidable (Meets a b) := inferInstanceAs (Decidable (_ ∧ _))

section Commas

variable {α : Type}

/-- In parentheses the pieces have no empty part: no comma begins or ends the whole or a block of
it, and no two commas stand together. -/
def Separated (ps : List (Piece α)) : Prop :=
  (some '(' :: (ps.map Piece.literal? ++ [some ')'])).IsChain Meets

instance (ps : List (Piece α)) : Decidable (Separated ps) :=
  inferInstanceAs (Decidable (List.IsChain _ _))

/-- The pieces may stand between commas. -/
def IsPart (ps : List (Piece α)) : Prop :=
  (some ',' :: (ps.map Piece.literal? ++ [some ','])).IsChain Meets

lemma separated_nil : Separated ([] : List (Piece α)) := by
  simp [Separated, Meets]

/-- Text that is neither comma nor parenthesis may stand between any two. -/
lemma isChain_of_plain {cs : List (Option Char)} (hne : cs ≠ [])
    (h : ∀ c ∈ cs, c ≠ some ',' ∧ c ≠ some '(' ∧ c ≠ some ')') (a b : Option Char) :
    (a :: (cs ++ [b])).IsChain Meets := by
  induction cs generalizing a with
  | nil => exact absurd rfl hne
  | cons c cs ih =>
    obtain ⟨hcomma, hopen, hclose⟩ := h c (by simp)
    have hleft : Meets a c := ⟨fun _ => ⟨hcomma, hclose⟩, fun hc => absurd hc hcomma⟩
    rw [List.cons_append, List.isChain_cons_cons]
    refine ⟨hleft, ?_⟩
    by_cases hnil : cs = []
    · subst hnil
      have hright : Meets c b := ⟨fun hc => absurd hc hcomma, fun _ => hopen⟩
      simpa using hright
    · exact ih hnil (fun c' hc' => h c' (List.mem_cons_of_mem _ hc')) c

/-- What may stand between commas may stand between parentheses. -/
lemma IsPart.separated {ps : List (Piece α)} (h : IsPart ps) : Separated ps := by
  have hfirst : ∀ c, Meets (some ',') c → Meets (some '(') c :=
    fun c hc => ⟨fun heq => absurd heq (by decide), fun heq => absurd heq (hc.1 rfl).1⟩
  have hlast : ∀ c, Meets c (some ',') → Meets c (some ')') :=
    fun c hc => ⟨fun heq => absurd rfl (hc.1 heq).1, fun heq => absurd heq (by decide)⟩
  rw [IsPart, List.isChain_cons, List.isChain_append] at h
  rw [Separated, List.isChain_cons, List.isChain_append]
  cases hm : ps.map Piece.literal? with
  | nil =>
    -- between commas there is something
    rw [hm] at h
    exact absurd (h.1 (some ',') rfl) (by decide)
  | cons c cs =>
    rw [hm] at h
    obtain ⟨hhead, hchain, -, hend⟩ := h
    refine ⟨fun y hy => hfirst y (hhead y hy), hchain, List.isChain_singleton _, ?_⟩
    intro x hx y hy
    obtain rfl : some ')' = y := Option.some.inj hy
    exact hlast x (hend x hx _ rfl)

lemma isPart_joinRows {rows : List (List (Piece α))} (hne : rows ≠ [])
    (h : ∀ row ∈ rows, IsPart row) : IsPart (joinRows rows) := by
  induction rows with
  | nil => exact absurd rfl hne
  | cons row rows ih =>
    cases rows with
    | nil => simpa [joinRows] using h row (by simp)
    | cons row' rows =>
      have hrow := h row (by simp)
      have hrest := ih (by simp) fun r hr => h r (List.mem_cons_of_mem _ hr)
      -- the comma between the rows ends the first part and begins the rest
      have hall : ((some ',' :: row.map Piece.literal?) ++
          some ',' :: ((joinRows (row' :: rows)).map Piece.literal? ++ [some ','])).IsChain Meets :=
        List.isChain_split.mpr ⟨hrow, hrest⟩
      rw [IsPart, joinRows, List.intercalate_cons_cons, ← joinRows]
      simpa [Piece.literal?] using hall

lemma separated_joinRows {rows : List (List (Piece α))} (h : ∀ row ∈ rows, IsPart row) :
    Separated (joinRows rows) := by
  by_cases hne : rows = []
  · subst hne
    exact separated_nil
  · exact (isPart_joinRows hne h).separated

lemma separated_numberedRows {rows : List (List (Piece α))} (h : ∀ row ∈ rows, Separated row)
    (text : α → String) (next : Nat) : ∀ ps ∈ numberedRows text next rows, Separated ps := by
  induction rows generalizing next with
  | nil => simp [numberedRows]
  | cons row rows ih =>
    obtain ⟨hrow, hrows⟩ := List.forall_mem_cons.mp h
    refine List.forall_mem_cons.mpr ⟨?_, ih hrows _⟩
    rwa [Separated, map_literal?_numbered]

end Commas

end Snippet

end TopologyAssist
