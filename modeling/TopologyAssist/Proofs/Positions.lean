import Mathlib.Data.List.Basic
import TopologyAssist.Proofs.Lines

/-!
Where a position of a text is found.

The cursor is found by a walk from line to line and a cut of the line it ends at. Here the text is
divided at all its line breaks first.

* `textLines text` — its lines, each without one carriage return at its end;
* `textAbove text n` — its first `n` lines as they stand in the text, with their line breaks;
* `Cursor.Found text p c` — what `c` is, said of those two alone: the line and the column of `p`,
  moved into the text where they are outside;
* `Cursor.locate_exact` — the walk finds that cursor, there is no other, the position it stands at
  is found again, and a later position has no less text before it.
-/

namespace TopologyAssist

/-- Positions are in order by line, and on one line by column. -/
instance : LE Position where
  le p q := p.line < q.line ∨ (p.line = q.line ∧ p.column ≤ q.column)

/-! ### The lines of a text -/

/-- A line without a carriage return at its end; of two it keeps one. -/
def withoutReturn (l : List Char) : List Char :=
  if l.getLast? = some '\r' then l.dropLast else l

/-- The lines of a text, each without a carriage return at its end. -/
def textLines (text : List Char) : List (List Char) := (text.splitOn '\n').map withoutReturn

/-- The first lines of a text as they stand in it, with their line breaks. -/
def textAbove (text : List Char) (n : Nat) : List Char :=
  ((text.splitOn '\n').take n).flatMap fun l => l ++ ['\n']

lemma dropReturn_eq (l : List Char) : dropReturn l = withoutReturn l := by
  rcases List.eq_nil_or_concat l with rfl | ⟨u, c, rfl⟩
  · rfl
  · rw [List.concat_eq_append, dropReturn_append (by simp)]
    by_cases hc : c = '\r'
    · simp [withoutReturn, dropReturn, hc]
    · simp [withoutReturn, dropReturn, hc]

lemma isPrefix_withoutReturn (l : List Char) : withoutReturn l <+: l := by
  rw [← dropReturn_eq]
  exact isPrefix_dropReturn l

/-- Whole lines at the beginning of a text are its first lines. -/
lemma WholeLines.exists_splitOn {above : List Char} (ha : WholeLines above) :
    ∃ lines : List (List Char), lines.length = above.count '\n' ∧
      lines.flatMap (fun l => l ++ ['\n']) = above ∧
      ∀ v, (above ++ v).splitOn '\n' = lines ++ v.splitOn '\n' := by
  induction ha with
  | nil => exact ⟨[], rfl, rfl, fun v => rfl⟩
  | @line l above hl _ ih =>
    obtain ⟨lines, hlen, hflat, hsplit⟩ := ih
    refine ⟨l :: lines, ?_, ?_, fun v => ?_⟩
    · rw [List.length_cons, hlen, count_line hl]
    · rw [List.flatMap_cons, hflat, List.append_assoc, List.singleton_append]
    · rw [List.append_assoc, List.cons_append, List.splitOn_append_cons_self_of_not_mem hl, hsplit,
        List.cons_append]

lemma WholeLines.textAbove_append {above : List Char} (ha : WholeLines above) (v : List Char) :
    textAbove (above ++ v) (above.count '\n') = above := by
  obtain ⟨lines, hlen, hflat, hsplit⟩ := ha.exists_splitOn
  rw [textAbove, hsplit, ← hlen, List.take_left, hflat]

/-- Behind whole lines stands one more, up to a line break or the end of the text. -/
lemma WholeLines.textLines_append {above l rest : List Char} (ha : WholeLines above)
    (hl : '\n' ∉ l) (hrest : rest = [] ∨ ∃ r, rest = '\n' :: r) :
    (textLines (above ++ (l ++ rest)))[above.count '\n']? = some (withoutReturn l) := by
  obtain ⟨lines, hlen, -, hsplit⟩ := ha.exists_splitOn
  have hfirst : ((l ++ rest).splitOn '\n')[0]? = some l := by
    rcases hrest with rfl | ⟨r, rfl⟩
    · rw [List.append_nil, List.splitOn_eq_singleton hl]
      rfl
    · rw [List.splitOn_append_cons_self_of_not_mem hl]
      rfl
  rw [textLines, List.getElem?_map, hsplit, ← hlen, List.getElem?_append_right (Nat.le_refl _),
    Nat.sub_self, hfirst]
  rfl

lemma textAbove_mono {m n : Nat} (h : m ≤ n) (text : List Char) :
    textAbove text m <+: textAbove text n := by
  obtain ⟨lines, hlines⟩ := List.take_prefix_take_left (l := text.splitOn '\n') h
  rw [textAbove, textAbove, ← hlines, List.flatMap_append]
  exact List.prefix_append _ _

/-- What stands on a line is above the next one. -/
lemma isPrefix_textAbove {text l u : List Char} {n : Nat}
    (hl : (textLines text)[n]? = some l) (hu : u <+: l) :
    textAbove text n ++ u <+: textAbove text (n + 1) := by
  rw [textLines, List.getElem?_map, Option.map_eq_some_iff] at hl
  obtain ⟨whole, hwhole, rfl⟩ := hl
  have hnext : textAbove text (n + 1) = textAbove text n ++ (whole ++ ['\n']) := by
    rw [textAbove, List.take_add_one, hwhole, List.flatMap_append]
    simp [textAbove]
  rw [hnext, List.prefix_append_right_inj]
  exact (hu.trans (isPrefix_withoutReturn whole)).trans (List.prefix_append _ _)

/-! ### The walk past the last line -/

lemma splitLine?_of_not_mem {l : List Char} (hl : '\n' ∉ l) : splitLine? l = none := by
  induction l with
  | nil => rfl
  | cons c l ih =>
    obtain ⟨hc, hl⟩ := not_or.mp (List.mem_cons.not.mp hl)
    rw [splitLine?, if_neg (Ne.symm hc), ih hl]
    rfl

/-- The walk stops on the last line, however far it is told to go. -/
lemma WholeLines.walkLines_past {above : List Char} (ha : WholeLines above) {l : List Char}
    (hl : '\n' ∉ l) {n : Nat} (hn : above.count '\n' < n) :
    TopologyAssist.walkLines n (above ++ l) = (above, above.count '\n', l) := by
  induction ha generalizing n with
  | nil =>
    cases n with
    | zero => exact absurd hn (Nat.not_lt_zero _)
    | succ n => rw [List.nil_append, TopologyAssist.walkLines, splitLine?_of_not_mem hl]; rfl
  | @line l₁ above hl₁ _ ih =>
    rw [count_line hl₁] at hn ⊢
    cases n with
    | zero => exact absurd hn (Nat.not_lt_zero _)
    | succ n =>
      rw [List.append_assoc, List.cons_append, TopologyAssist.walkLines, splitLine?_append hl₁]
      simp only [ih (Nat.lt_of_succ_lt_succ hn)]

namespace Cursor

lemma locate_past {above l : List Char} (ha : WholeLines above) (hl : '\n' ∉ l) {p : Position}
    (hp : above.count '\n' < p.line) :
    locate (above ++ l) p = ⟨above, above.count '\n', dropReturn l, []⟩ := by
  have hall : ∀ c ∈ l, (c != '\n') = true := by
    intro c hc
    rw [bne_iff_ne]
    rintro rfl
    exact hl hc
  rw [locate, ha.walkLines_past hl hp]
  simp only [List.takeWhile_eq_self_iff.mpr hall, if_pos hp]

/-! ### The cursor by the lines of the text -/

/-- What the cursor at a position is, by the lines of the text. -/
structure Found (text : List Char) (p : Position) (c : Cursor) : Prop where
  line_eq : c.line = min p.line (text.count '\n')
  wholeLine_eq : (textLines text)[c.line]? = some c.wholeLine
  /-- A line past the last one counts as the end of the last one. -/
  column_eq : c.column = if text.count '\n' < p.line then c.wholeLine.length
    else min p.column c.wholeLine.length
  before_eq : c.before = c.wholeLine.take c.column
  cut : c.wholeLine = c.before ++ c.after
  preceding_eq : c.preceding = textAbove text c.line ++ c.before

/-- A line of a text, with the cursor in it, is what is found there. -/
lemma found_of_line {above l rest : List Char} (ha : WholeLines above) (hl : '\n' ∉ l)
    (hrest : rest = [] ∨ ∃ r, rest = '\n' :: r) {p : Position}
    (hline : above.count '\n' = min p.line ((above ++ (l ++ rest)).count '\n')) {k : Nat}
    (hk : min k (withoutReturn l).length =
      if (above ++ (l ++ rest)).count '\n' < p.line then (withoutReturn l).length
      else min p.column (withoutReturn l).length) :
    Found (above ++ (l ++ rest)) p
      ⟨above, above.count '\n', (withoutReturn l).take k, (withoutReturn l).drop k⟩ := by
  have hwhole : (withoutReturn l).take k ++ (withoutReturn l).drop k = withoutReturn l :=
    List.take_append_drop _ _
  refine ⟨hline, ?_, ?_, ?_, rfl, ?_⟩
  · rw [ha.textLines_append hl hrest, wholeLine, hwhole]
  · rw [wholeLine, hwhole, column, List.length_take, hk]
  · rw [wholeLine, column, List.take_left]
  · rw [ha.textAbove_append]
    rfl

lemma found_locate (text : List Char) (p : Position) : Found text p (locate text p) := by
  by_cases hp : text.count '\n' < p.line
  · -- the line is past the last one
    obtain ⟨above, ha, hl, heq⟩ := exists_wholeLines text
    generalize lastLine text = l at hl heq
    subst heq
    have hcount : (above ++ l).count '\n' = above.count '\n' := by
      rw [List.count_append, List.count_eq_zero.mpr hl, Nat.add_zero]
    rw [locate_past ha hl (hcount ▸ hp), dropReturn_eq]
    have hfound := found_of_line (p := p) (k := (withoutReturn l).length) ha hl (Or.inl rfl)
      (by rw [List.append_nil, hcount]; omega) (by rw [List.append_nil, if_pos hp, Nat.min_self])
    rwa [List.append_nil, List.take_length, List.drop_length] at hfound
  · obtain ⟨above, l, rest, ha, hline, hl, hrest, rfl⟩ := exists_line (Nat.le_of_not_lt hp)
    rw [locate_of_line ha hl hrest hline, dropReturn_eq, hline]
    exact found_of_line ha hl hrest (by omega) (by rw [if_neg hp])

namespace Found

variable {text : List Char} {p q : Position} {c d : Cursor}

/-- What is found at a position is one cursor. -/
lemma unique (hc : Found text p c) (hd : Found text p d) : c = d := by
  have hline : c.line = d.line := by rw [hc.line_eq, hd.line_eq]
  have hwhole : c.wholeLine = d.wholeLine := by
    have h := hc.wholeLine_eq
    rw [hline, hd.wholeLine_eq] at h
    exact (Option.some.inj h).symm
  have hbefore : c.before = d.before := by
    rw [hc.before_eq, hd.before_eq, hc.column_eq, hd.column_eq, hwhole]
  have hafter : c.after = d.after := by
    have h := hwhole
    rwa [hc.cut, hd.cut, hbefore, List.append_cancel_left_eq] at h
  have habove : c.above = d.above := by
    have h := hc.preceding_eq.trans (by rw [hline, hbefore, ← hd.preceding_eq])
    rwa [preceding, preceding, hbefore, List.append_cancel_right_eq] at h
  cases c
  cases d
  simp_all

lemma column_le (hc : Found text p c) : c.column ≤ c.wholeLine.length := by
  rw [hc.column_eq]
  split_ifs
  · exact Nat.le_refl _
  · exact Nat.min_le_right _ _

/-- The position that the cursor stands at is found at once. -/
lemma position (hc : Found text p c) : Found text c.position c where
  line_eq := by
    show c.line = min c.line (text.count '\n')
    have := hc.line_eq
    omega
  wholeLine_eq := hc.wholeLine_eq
  column_eq := by
    have hle := hc.column_le
    have hline := hc.line_eq
    have hnot : ¬ text.count '\n' < c.line := by omega
    show c.column = if text.count '\n' < c.line then _ else min c.column c.wholeLine.length
    rw [if_neg hnot]
    omega
  before_eq := hc.before_eq
  cut := hc.cut
  preceding_eq := hc.preceding_eq

/-- Whole lines stand above the cursor's line, as many as its number says, and the line follows them
in the text. -/
lemma above_line (hc : Found text p c) :
    WholeLines c.above ∧ c.above.count '\n' = c.line ∧ '\n' ∉ c.wholeLine ∧
      c.above ++ c.wholeLine <+: text := by
  have hle : c.line ≤ text.count '\n' := by
    rw [hc.line_eq]
    exact Nat.min_le_right _ _
  obtain ⟨above, l, rest, ha, hline, hl, hrest, rfl⟩ := exists_line hle
  have hwhole := hc.wholeLine_eq
  rw [hline, ha.textLines_append hl hrest] at hwhole
  have habove := hc.preceding_eq
  rw [hline, ha.textAbove_append, preceding, List.append_cancel_right_eq] at habove
  have hstarts := isPrefix_withoutReturn l
  rw [habove, ← Option.some.inj hwhole, List.prefix_append_right_inj]
  exact ⟨ha, hline.symm, fun h => hl (hstarts.subset h), hstarts.trans (List.prefix_append l rest)⟩

lemma not_mem_before (hc : Found text p c) : '\n' ∉ c.before :=
  fun h => hc.above_line.2.2.1 (List.mem_append_left c.after h)

/-- The text before the cursor is a beginning of the text, with as many line breaks as the number
of its line says. -/
lemma isPrefix_preceding (hc : Found text p c) :
    c.preceding <+: text ∧ c.preceding.count '\n' = c.line := by
  obtain ⟨-, hline, -, hstarts⟩ := hc.above_line
  constructor
  · rw [wholeLine, ← List.append_assoc] at hstarts
    exact (List.prefix_append _ c.after).trans hstarts
  · rw [preceding, List.count_append, List.count_eq_zero.mpr hc.not_mem_before, hline, Nat.add_zero]

/-- A later position has no less text before it. -/
lemma preceding_mono (hc : Found text p c) (hd : Found text q d) (h : p ≤ q) :
    c.preceding <+: d.preceding := by
  have hcline := hc.line_eq
  have hdline := hd.line_eq
  rw [hc.preceding_eq, hd.preceding_eq]
  have hle : c.line ≤ d.line := by
    rcases h with h | ⟨h, -⟩ <;> omega
  rcases Nat.lt_or_eq_of_le hle with hlt | heq
  · -- the earlier line is above the later one as a whole
    have hbefore : c.before <+: c.wholeLine := List.prefix_append _ _
    exact ((isPrefix_textAbove hc.wholeLine_eq hbefore).trans (textAbove_mono hlt text)).trans
      (List.prefix_append _ _)
  · have hwhole : c.wholeLine = d.wholeLine := by
      have hsame := hc.wholeLine_eq
      rw [heq, hd.wholeLine_eq] at hsame
      exact (Option.some.inj hsame).symm
    have hcolumn : c.column ≤ d.column := by
      have hcle := hc.column_le
      rw [hd.column_eq, hc.column_eq, ← hwhole]
      rcases h with h | ⟨hline, hcol⟩
      · -- the same line of the text for two lines, so the later one is past the last
        rw [if_pos (show text.count '\n' < q.line by omega), ← hc.column_eq]
        exact hcle
      · rw [hline]
        split_ifs
        · exact Nat.le_refl _
        · omega
    rw [heq, hc.before_eq, hd.before_eq, hwhole, List.prefix_append_right_inj]
    exact List.take_prefix_take_left hcolumn

end Found

/-- **A position is found exactly, and every position is found.** With the lines of a text divided
at its line breaks, the cursor stands on the line of the position or the last one, at its column or
behind the last character; the line is cut there, and what precedes is the lines above and the part
before the cut. Nothing else is found at the position. So the position that the cursor stands at is
found as it is, and of two positions the later one has the text before the earlier one before it. -/
theorem locate_exact (text : List Char) (p : Position) :
    Found text p (locate text p) ∧
    (∀ c, Found text p c → c = locate text p) ∧
    (locate text p).preceding <+: text ∧
    (locate text p).preceding.count '\n' = (locate text p).line ∧
    locate text (locate text p).position = locate text p ∧
    ∀ q, p ≤ q → (locate text p).preceding <+: (locate text q).preceding := by
  have hfound := found_locate text p
  refine ⟨hfound, fun c hc => hc.unique hfound, hfound.isPrefix_preceding.1,
    hfound.isPrefix_preceding.2, ?_, ?_⟩
  · exact (found_locate text _).unique hfound.position
  · intro q h
    exact hfound.preceding_mono (found_locate text q) h

/-- Of two carriage returns before a line break one stays on the line, and a line past the last one
counts as the end of the last one, before the carriage return that ends the text. -/
theorem locate_exact_returns :
    Found "µ\r\r\nb\r".toList ⟨7, 0⟩ ⟨"µ\r\r\n".toList, 1, "b".toList, []⟩ ∧
    ⟨"µ\r\r\n".toList, 1, "b".toList, []⟩ = locate "µ\r\r\nb\r".toList ⟨7, 0⟩ ∧
    (⟨0, 9⟩ : Position) ≤ ⟨7, 0⟩ ∧
    (locate "µ\r\r\nb\r".toList ⟨0, 9⟩).before = "µ\r".toList ∧
    (locate "µ\r\r\nb\r".toList ⟨0, 9⟩).preceding <+:
      (locate "µ\r\r\nb\r".toList ⟨7, 0⟩).preceding := by
  have hfound : Found "µ\r\r\nb\r".toList ⟨7, 0⟩ ⟨"µ\r\r\n".toList, 1, "b".toList, []⟩ :=
    ⟨by decide, by decide, by decide, by decide, rfl, by decide⟩
  have hle : (⟨0, 9⟩ : Position) ≤ ⟨7, 0⟩ := Or.inl (by decide)
  exact ⟨hfound, (locate_exact _ _).2.1 _ hfound, hle, by decide,
    (locate_exact _ _).2.2.2.2.2 _ hle⟩

end Cursor

end TopologyAssist
