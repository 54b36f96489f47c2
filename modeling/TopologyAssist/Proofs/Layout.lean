import TopologyAssist.Engine
import TopologyAssist.Grammar.Standard
import TopologyAssist.Proofs.Lines

/-!
Layout does not change completion.

The text without layout is found line by line: a line with its line break counts up to its comment
(`normalize_line`), the last line counts whole. So blanks and closed comments may stand anywhere
between two parts of a text, as long as the first part ends outside of a comment
(`normalize_insert`), and completion at the end of a text looks at nothing but the text without
layout and at whether the last line holds a comment (`Engine.complete_endOf`).
-/

namespace TopologyAssist

/-! ### Line by line -/

/-- A text without its blanks. -/
def dropBlanks (cs : List Char) : List Char := cs.filter fun c => !isBlank c

lemma dropBlanks_append (u v : List Char) : dropBlanks (u ++ v) = dropBlanks u ++ dropBlanks v :=
  List.filter_append u v

lemma dropBlanks_of_forall {u : List Char} (h : ∀ c ∈ u, isBlank c = false) : dropBlanks u = u :=
  List.filter_eq_self.mpr fun c hc => by simp [h c hc]

/-- A line up to its comment. -/
def beforeComment : List Char → List Char
  | [] => []
  | c :: cs => if c == '/' && cs.head? == some '/' then [] else c :: beforeComment cs

/-- A character that opens no comment is kept unless it is blank. -/
lemma normalize_cons {c : Char} {cs : List Char} (h : (c == '/' && cs.head? == some '/') = false) :
    normalize (c :: cs) = dropBlanks [c] ++ normalize cs := by
  rw [normalize, dropComments, h, Bool.false_and, if_neg Bool.false_ne_true, normalize,
    ← List.singleton_append, List.filter_append, dropBlanks]

lemma isBlank_slash : isBlank '/' = false := by decide

lemma normalize_cons_blank {c : Char} (hc : isBlank c = true) (cs : List Char) :
    normalize (c :: cs) = normalize cs := by
  have hslash : (c == '/') = false := by
    rw [beq_eq_false_iff_ne]
    rintro rfl
    rw [isBlank_slash] at hc
    cases hc
  rw [normalize_cons (by rw [hslash, Bool.false_and])]
  simp [dropBlanks, hc]

lemma dropComments_comment {l : List Char} (hl : '\n' ∉ l) (rest : List Char) :
    dropComments true (l ++ '\n' :: rest) = dropComments false rest := by
  induction l with
  | nil => rfl
  | cons c l ih =>
    have hc : (c != '\n') = true := by
      rw [bne_iff_ne]
      exact fun h => hl (by simp [h])
    rw [List.cons_append, dropComments, hc, ih fun h => hl (List.mem_cons_of_mem _ h)]

/-- A comment that a line break closes is dropped with it. -/
lemma normalize_comment {l : List Char} (hl : '\n' ∉ l) (rest : List Char) :
    normalize ('/' :: '/' :: (l ++ '\n' :: rest)) = normalize rest := by
  have hcomment : dropComments true ('/' :: (l ++ '\n' :: rest)) = dropComments false rest :=
    dropComments_comment (l := '/' :: l) (by simp [hl]) rest
  rw [normalize, dropComments, if_pos (by simp), hcomment, normalize]

/-- A text without line breaks loses its blanks alone. -/
lemma normalize_of_not_mem {l : List Char} (hl : '\n' ∉ l) : normalize l = dropBlanks l := by
  suffices h : dropComments false l = l by rw [normalize, h, dropBlanks]
  induction l with
  | nil => rfl
  | cons c l ih =>
    have hl' : '\n' ∉ l := fun h => hl (List.mem_cons_of_mem _ h)
    rw [dropComments, ih hl', if_neg]
    simp [hl']

/-- **A line with its line break counts up to its comment.** -/
theorem normalize_line {l : List Char} (hl : '\n' ∉ l) (rest : List Char) :
    normalize (l ++ '\n' :: rest) = dropBlanks (beforeComment l) ++ normalize rest := by
  induction l with
  | nil => exact normalize_cons_blank (by decide) rest
  | cons c l ih =>
    have hl' : '\n' ∉ l := fun h => hl (List.mem_cons_of_mem _ h)
    cases h : c == '/' && l.head? == some '/' with
    | true =>
      rw [beforeComment, if_pos h]
      rw [Bool.and_eq_true, beq_iff_eq, beq_iff_eq, List.head?_eq_some_iff] at h
      obtain ⟨rfl, l, rfl⟩ := h
      exact normalize_comment (fun h => hl' (List.mem_cons_of_mem _ h)) rest
    | false =>
      have hhead : ((l ++ '\n' :: rest).head? == some '/') = (l.head? == some '/') := by
        cases l <;> rfl
      rw [List.cons_append, normalize_cons (by rw [hhead, h]), ih hl', beforeComment,
        if_neg (by simp [h]), ← List.append_assoc, ← dropBlanks_append, List.singleton_append]

/-- Whole lines and what follows them do not meet. -/
lemma WholeLines.normalize_append {above : List Char} (ha : WholeLines above) (v : List Char) :
    normalize (above ++ v) = normalize above ++ normalize v := by
  induction ha with
  | nil => rfl
  | line hl _ ih =>
    rw [List.append_assoc, List.cons_append, normalize_line hl, ih, normalize_line hl,
      List.append_assoc]

/-! ### Outside of comments -/

/-- The text opens no comment, and none begins with its last character. -/
structure Outside (l : List Char) : Prop where
  noComment : opensComment l = false
  noSlash : endsWith '/' l = false

namespace Outside

variable {c : Char} {l : List Char}

/-- No comment begins with the first character, whatever follows the text. -/
lemma head (h : Outside (c :: l)) (v : List Char) :
    (c == '/' && (l ++ v).head? == some '/') = false := by
  cases l with
  | nil =>
    have hc : (c == '/') = false := h.noSlash
    rw [hc, Bool.false_and]
  | cons d l =>
    have hc := h.noComment
    rw [opensComment, Bool.or_eq_false_iff] at hc
    exact hc.1

lemma tail (h : Outside (c :: l)) : Outside l := by
  have hc := h.noComment
  rw [opensComment, Bool.or_eq_false_iff] at hc
  refine ⟨hc.2, ?_⟩
  cases l with
  | nil => rfl
  | cons d l => exact h.noSlash

lemma normalize_append (h : Outside l) (v : List Char) :
    normalize (l ++ v) = dropBlanks l ++ normalize v := by
  induction l with
  | nil => rfl
  | cons c l ih =>
    rw [List.cons_append, normalize_cons (h.head v), ih h.tail, ← List.append_assoc,
      ← dropBlanks_append, List.singleton_append]

lemma opensComment_append (h : Outside l) (v : List Char) :
    opensComment (l ++ v) = opensComment v := by
  induction l with
  | nil => rfl
  | cons c l ih => rw [List.cons_append, opensComment, h.head v, ih h.tail, Bool.false_or]

end Outside

/-- A text that does not end with a slash does not do so on its last line. -/
lemma outside_lastLine {u : List Char} (hline : opensComment (lastLine u) = false)
    (hslash : endsWith '/' u = false) : Outside (lastLine u) := by
  refine ⟨hline, ?_⟩
  obtain ⟨above, -, -, heq⟩ := exists_wholeLines u
  rcases List.eq_nil_or_concat (lastLine u) with h | ⟨l, c, h⟩
  · rw [h]
    rfl
  · rw [List.concat_eq_append] at h
    rw [heq, h, ← List.append_assoc, endsWith_append_singleton] at hslash
    rw [h, endsWith_append_singleton, hslash]

/-- **Behind a text that ends outside of a comment** nothing is seen of it. -/
lemma normalize_append {u : List Char} (hu : Outside (lastLine u)) (v : List Char) :
    normalize (u ++ v) = normalize u ++ normalize v := by
  obtain ⟨above, ha, hl, heq⟩ := exists_wholeLines u
  rw [heq, List.append_assoc, ha.normalize_append, ha.normalize_append, hu.normalize_append,
    normalize_of_not_mem hl, List.append_assoc]

lemma opensComment_lastLine_append {u : List Char} (hu : Outside (lastLine u)) (v : List Char) :
    opensComment (lastLine (u ++ v)) = opensComment (lastLine v) := by
  rcases not_mem_or_split_last '\n' v with hv | ⟨x, y, hy, rfl⟩
  · have hline : lastLine (u ++ v) = lastLine u ++ v := afterLast_append_of_not_mem hv u
    rw [hline, hu.opensComment_append, lastLine_of_not_mem hv]
  · rw [← List.append_assoc, lastLine_append_break, lastLine_append_break]

/-! ### Inserted layout -/

/-- Layout: blanks and comments that a line break closes. -/
inductive IsLayout : List Char → Prop where
  | nil : IsLayout []
  | blank {c : Char} {s : List Char} (hc : isBlank c = true) (hs : IsLayout s) : IsLayout (c :: s)
  | comment {l s : List Char} (hl : '\n' ∉ l) (hs : IsLayout s) :
    IsLayout ('/' :: '/' :: (l ++ '\n' :: s))

lemma outside_blank {c : Char} (hc : isBlank c = true) : Outside (lastLine [c]) := by
  by_cases hbreak : c = '\n'
  · subst hbreak
    exact ⟨rfl, rfl⟩
  · have hslash : (c == '/') = false := by
      rw [beq_eq_false_iff_ne]
      rintro rfl
      rw [isBlank_slash] at hc
      cases hc
    rw [lastLine_of_not_mem (by simpa using Ne.symm hbreak)]
    exact ⟨by simp [opensComment], hslash⟩

namespace IsLayout

variable {s : List Char} (hs : IsLayout s) (v : List Char)
include hs

lemma normalize_append : normalize (s ++ v) = normalize v := by
  induction hs with
  | nil => rfl
  | blank hc _ ih => rw [List.cons_append, normalize_cons_blank hc, ih]
  | comment hl _ ih =>
    rw [List.cons_append, List.cons_append, List.append_assoc, List.cons_append,
      normalize_comment hl, ih]

lemma opensComment_append : opensComment (lastLine (s ++ v)) = opensComment (lastLine v) := by
  induction hs with
  | nil => rfl
  | @blank c s hc _ ih =>
    rw [← ih]
    exact opensComment_lastLine_append (outside_blank hc) (s ++ v)
  | @comment l s hl _ ih =>
    have hline := lastLine_append_break ('/' :: '/' :: l) (s ++ v)
    rw [← ih, ← hline]
    simp

end IsLayout

/-- **Layout may be inserted** where no comment is open. -/
theorem normalize_insert {u s : List Char} (hu : Outside (lastLine u)) (hs : IsLayout s)
    (v : List Char) : normalize (u ++ s ++ v) = normalize (u ++ v) := by
  rw [List.append_assoc, normalize_append hu, normalize_append hu, hs.normalize_append]

/-! ### Completion at the end of a text -/

lemma dropBlanks_dropReturn (l : List Char) : dropBlanks (dropReturn l) = dropBlanks l := by
  rcases dropReturn_cases l with h | h
  · rw [h]
  · have hblank : dropBlanks ['\r'] = [] := by decide
    rw [h, dropBlanks_append, ← h, hblank, List.append_nil]

lemma opensComment_snoc {c : Char} (hc : c ≠ '/') (l : List Char) :
    opensComment (l ++ [c]) = opensComment l := by
  induction l with
  | nil => simp [opensComment]
  | cons d l ih =>
    have hhead : ((l ++ [c]).head? == some '/') = (l.head? == some '/') := by
      cases l with
      | nil => simpa using hc
      | cons => rfl
    rw [List.cons_append, opensComment, hhead, ih, opensComment]

lemma opensComment_dropReturn (l : List Char) : opensComment (dropReturn l) = opensComment l := by
  rcases dropReturn_cases l with h | h
  · rw [h]
  · rw [h, opensComment_snoc (by decide), ← h]

namespace Engine

/-- **Completion at the end of a text** sees the text without layout and the last line's comment. -/
theorem complete_endOf (e : Engine) (text : List Char) (t : Trigger) :
    e.complete text (.endOf text) t =
      if opensComment (lastLine text) || !t.isCurrent (normalize text) then []
      else
        match e.grammar.classify (normalize text) [] with
        | some ctx => Completion.items e.grammar e.options ctx
        | none => [] := by
  obtain ⟨above, ha, hl, heq⟩ := exists_wholeLines text
  have hloc := Cursor.locate_endOf ha hl
  rw [← heq] at hloc
  have hl' : '\n' ∉ dropReturn (lastLine text) := fun h => hl ((isPrefix_dropReturn _).subset h)
  have hbefore : normalize (above ++ dropReturn (lastLine text)) = normalize text := by
    rw [ha.normalize_append, normalize_of_not_mem hl', dropBlanks_dropReturn,
      ← normalize_of_not_mem hl, ← ha.normalize_append, ← heq]
  simp only [complete, hloc, Cursor.inComment, Cursor.preceding, hbefore, opensComment_dropReturn]
  rfl

/-- **Layout does not change completion.** -/
theorem complete_layout (e : Engine) (t : Trigger) {u s : List Char} (v : List Char)
    (hs : IsLayout s) (hslash : endsWith '/' u = false)
    (hline : opensComment (lastLine u) = false) :
    e.complete (u ++ s ++ v) (.endOf (u ++ s ++ v)) t = e.complete (u ++ v) (.endOf (u ++ v)) t := by
  have hu := outside_lastLine hline hslash
  have hopen : opensComment (lastLine (u ++ s ++ v)) = opensComment (lastLine (u ++ v)) := by
    rw [List.append_assoc, opensComment_lastLine_append hu, opensComment_lastLine_append hu,
      hs.opensComment_append]
  rw [complete_endOf, complete_endOf, hopen, normalize_insert hu hs]

/-- A comment in the middle of a key, with a field of another kind in it: the fields of the kind
`none` are offered all the same. -/
theorem complete_layout_comment :
    let e : Engine := ⟨Grammar.standard, {}⟩
    let s := ' ' :: '/' :: '/' :: (",fnc=flat".toList ++ '\n' :: [])
    let text := "LRN=[(fn".toList ++ s ++ "c=none,".toList
    IsLayout s ∧ endsWith '/' "LRN=[(fn".toList = false ∧
      opensComment (lastLine "LRN=[(fn".toList) = false ∧
      (e.complete text (.endOf text) .invoked).map CompletionItem.label = ["lid=", "fnc=none"] := by
  have hs : IsLayout (' ' :: '/' :: '/' :: (",fnc=flat".toList ++ '\n' :: [])) :=
    .blank (by decide) (.comment (by decide) .nil)
  refine ⟨hs, by decide, by decide, ?_⟩
  rw [complete_layout ⟨Grammar.standard, {}⟩ .invoked _ hs (by decide) (by decide)]
  decide +kernel

end Engine

end TopologyAssist
