import TopologyAssist.Proofs.Layout
import TopologyAssist.Proofs.Positions

/-!
The text without layout, line by line.

Layout is dropped in one scan over the whole text, which looks ahead for the line break that closes
a comment. Here the text is divided at its line breaks first.

* `CutAtMarker l u` — `u` is the line `l` up to its first two slashes;
* `uncommented text` — every line that a line break ends up to its comment, and the last line whole;
* `normalize_lineWise` — the scan gives the uncommented text without its blanks. So a line break
  parts a text into two that are scanned apart, and a text that was scanned is not changed by
  another scan: slashes that come together in it have no line break behind them.
-/

namespace TopologyAssist

/-! ### The comment of a line -/

/-- `u` is the line `l` up to the first two slashes, or the whole line if it has none. -/
structure CutAtMarker (l u : List Char) : Prop where
  cut : l = u ∨ ∃ v, l = u ++ '/' :: '/' :: v
  /-- No two slashes of the line begin before the end of `u`. -/
  first : ∀ u' v, l = u' ++ '/' :: '/' :: v → u <+: u'

lemma cutAtMarker_beforeComment (l : List Char) : CutAtMarker l (beforeComment l) := by
  induction l with
  | nil => exact ⟨Or.inl rfl, fun u' v h => by simp at h⟩
  | cons c l ih =>
    by_cases hmarker : (c == '/' && l.head? == some '/') = true
    · rw [beforeComment, if_pos hmarker]
      rw [Bool.and_eq_true, beq_iff_eq, beq_iff_eq, List.head?_eq_some_iff] at hmarker
      obtain ⟨rfl, v, rfl⟩ := hmarker
      exact ⟨Or.inr ⟨v, rfl⟩, fun u' v' _ => List.nil_prefix⟩
    · rw [beforeComment, if_neg hmarker]
      refine ⟨?_, ?_⟩
      · rcases ih.cut with hwhole | ⟨v, hcut⟩
        · exact Or.inl (by rw [← hwhole])
        · exact Or.inr ⟨v, by rw [List.cons_append, ← hcut]⟩
      · intro u' v h
        cases u' with
        | nil =>
          -- the line would begin with two slashes
          obtain ⟨rfl, rfl⟩ := List.cons.inj h
          exact absurd rfl hmarker
        | cons d u' =>
          obtain ⟨rfl, hl⟩ := List.cons.inj h
          exact List.cons_prefix_cons.mpr ⟨rfl, ih.first u' v hl⟩

/-! ### The lines of a text -/

/-- A text without its comments: every line that a line break ends up to its comment, and the last
line whole. -/
def uncommented (text : List Char) : List Char :=
  (text.splitOn '\n').dropLast.flatMap beforeComment ++ (text.splitOn '\n').getLastD []

lemma uncommented_of_not_mem {l : List Char} (hl : '\n' ∉ l) : uncommented l = l := by
  unfold uncommented
  rw [List.splitOn_eq_singleton hl]
  rfl

lemma uncommented_line {l : List Char} (hl : '\n' ∉ l) (rest : List Char) :
    uncommented (l ++ '\n' :: rest) = beforeComment l ++ uncommented rest := by
  unfold uncommented
  rw [List.splitOn_append_cons_self_of_not_mem hl]
  cases hsplit : rest.splitOn '\n' with
  | nil => exact absurd hsplit (List.splitOn_ne_nil '\n' rest)
  | cons first lines =>
    rw [List.dropLast_cons_cons, List.flatMap_cons, List.append_assoc]
    rfl

/-- **The scan is line by line.** -/
lemma normalize_eq_uncommented (text : List Char) :
    normalize text = dropBlanks (uncommented text) := by
  obtain ⟨above, ha, hl, heq⟩ := exists_wholeLines text
  generalize lastLine text = l at hl heq
  subst heq
  induction ha with
  | nil => rw [List.nil_append, normalize_of_not_mem hl, uncommented_of_not_mem hl]
  | line hfirst _ ih =>
    rw [List.append_assoc, List.cons_append, normalize_line hfirst, uncommented_line hfirst, ih,
      dropBlanks_append]

/-- A line break parts a text into two that have nothing to do with each other. -/
lemma normalize_append_break (s t : List Char) :
    normalize (s ++ '\n' :: t) = normalize (s ++ ['\n']) ++ normalize t := by
  obtain ⟨above, ha, hl, heq⟩ := exists_wholeLines s
  have hrest : ∀ v, normalize (s ++ '\n' :: v) =
      normalize above ++ (dropBlanks (beforeComment (lastLine s)) ++ normalize v) := by
    intro v
    nth_rewrite 1 [heq]
    rw [List.append_assoc, ha.normalize_append, normalize_line hl]
  have hnil : normalize [] = [] := rfl
  rw [hrest t, hrest [], hnil, List.append_nil, List.append_assoc]

lemma not_isBlank_of_mem_normalize {text : List Char} {c : Char} (hc : c ∈ normalize text) :
    isBlank c = false := by
  have hkept := (List.mem_filter.mp hc).2
  simpa using hkept

/-- A text that was scanned has no blanks and no line break, so a second scan finds nothing. -/
lemma normalize_normalize (text : List Char) : normalize (normalize text) = normalize text := by
  have hbreak : '\n' ∉ normalize text := by
    intro h
    have hblank : isBlank '\n' = true := by decide
    rw [not_isBlank_of_mem_normalize h] at hblank
    cases hblank
  rw [normalize_of_not_mem hbreak, dropBlanks_of_forall fun c hc => not_isBlank_of_mem_normalize hc]

/-- **A text without layout is its lines without their comments and blanks.** Every line that a line
break ends counts up to its first two slashes, the last line counts whole, and blanks go. So a text
may be scanned in two parts where a line break parts it; nothing blank is left; scanning again
changes nothing, also where slashes have come together; and a text of one line loses its blanks
alone. -/
theorem normalize_lineWise (t : List Char) :
    normalize t = dropBlanks (uncommented t) ∧
    (∀ l, CutAtMarker l (beforeComment l)) ∧
    (∀ s, normalize (s ++ '\n' :: t) = normalize (s ++ ['\n']) ++ normalize t) ∧
    (∀ c ∈ normalize t, isBlank c = false) ∧
    normalize (normalize t) = normalize t ∧
    ('\n' ∉ t → normalize t = dropBlanks t) := by
  refine ⟨normalize_eq_uncommented t, cutAtMarker_beforeComment, ?_, ?_, normalize_normalize t, ?_⟩
  · intro s
    exact normalize_append_break s t
  · intro c hc
    exact not_isBlank_of_mem_normalize hc
  · intro ht
    exact normalize_of_not_mem ht

/-- A closed comment, gone with its carriage return, leaves a slash before a slash of the next line;
the last comment stays and its blanks go. -/
theorem normalize_lineWise_slashes :
    normalize "a/ // b\r\n/ c // d".toList = "a//c//d".toList ∧
    normalize (normalize "a/ // b\r\n/ c // d".toList) = "a//c//d".toList ∧
    '/' ∈ normalize "a/ // b\r\n/ c // d".toList ∧ isBlank '/' = false ∧
    '\n' ∉ "/ c // d".toList ∧ normalize "/ c // d".toList = dropBlanks "/ c // d".toList := by
  have hscan : normalize "a/ // b\r\n/ c // d".toList = "a//c//d".toList := by decide
  have hslash : '/' ∈ normalize "a/ // b\r\n/ c // d".toList := by decide
  have hline : '\n' ∉ "/ c // d".toList := by decide
  have hall := normalize_lineWise "a/ // b\r\n/ c // d".toList
  exact ⟨hscan, hall.2.2.2.2.1.trans hscan, hslash, hall.2.2.2.1 _ hslash, hline,
    (normalize_lineWise "/ c // d".toList).2.2.2.2.2 hline⟩

end TopologyAssist
