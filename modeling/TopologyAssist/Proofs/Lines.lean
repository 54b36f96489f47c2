import TopologyAssist.Document.Cursor
import TopologyAssist.Proofs.Pieces

/-!
The lines of a text, and the cursor on one of them.

* `WholeLines above` — `above` is a row of lines, each with its line break;
* `lastLine cs` — what is behind the last line break of `cs`. Every text is a row of whole lines
  and its last line (`exists_wholeLines`);
* `Cursor.locate_of_line` — the cursor at a position whose line is known: what is above, and the
  line without its carriage return, cut at the column;
* `Cursor.locate_append_break` — so nothing below the line has a part in it.
-/

namespace TopologyAssist

/-! ### Whole lines and the last one -/

/-- A row of lines, each with its line break. -/
inductive WholeLines : List Char → Prop where
  | nil : WholeLines []
  | line {l above : List Char} (hl : '\n' ∉ l) (ha : WholeLines above) :
    WholeLines (l ++ '\n' :: above)

/-- The text behind the last line break. -/
def lastLine (cs : List Char) : List Char := afterLast '\n' cs

lemma lastLine_of_not_mem {l : List Char} (hl : '\n' ∉ l) : lastLine l = l :=
  afterLast_of_not_mem hl

lemma lastLine_append_break (u v : List Char) : lastLine (u ++ '\n' :: v) = lastLine v :=
  afterLast_append_cons '\n' u v

lemma WholeLines.lastLine_append {above : List Char} (ha : WholeLines above) (v : List Char) :
    lastLine (above ++ v) = lastLine v := by
  induction ha with
  | nil => rfl
  | line hl _ ih => rw [List.append_assoc, List.cons_append, lastLine_append_break, ih]

lemma count_line {l : List Char} (hl : '\n' ∉ l) (v : List Char) :
    (l ++ '\n' :: v).count '\n' = v.count '\n' + 1 := by
  rw [List.count_append, List.count_eq_zero.mpr hl, List.count_cons_self, Nat.zero_add]

/-- Every text is whole lines and a last line. -/
lemma exists_wholeLines (cs : List Char) :
    ∃ above, WholeLines above ∧ '\n' ∉ lastLine cs ∧ cs = above ++ lastLine cs := by
  suffices h : ∃ above l, WholeLines above ∧ '\n' ∉ l ∧ cs = above ++ l by
    obtain ⟨above, l, ha, hl, rfl⟩ := h
    rw [ha.lastLine_append, lastLine_of_not_mem hl]
    exact ⟨above, ha, hl, rfl⟩
  induction cs with
  | nil => exact ⟨[], [], .nil, List.not_mem_nil, rfl⟩
  | cons c cs ih =>
    obtain ⟨above, l, ha, hl, rfl⟩ := ih
    by_cases hc : c = '\n'
    · subst hc
      exact ⟨'\n' :: above, l, .line List.not_mem_nil ha, hl, rfl⟩
    · -- the character goes on the first line, which is the last one if there is no other
      cases ha with
      | nil => exact ⟨[], c :: l, .nil, by simp [Ne.symm hc, hl], rfl⟩
      | @line l₁ above hl₁ ha =>
        exact ⟨c :: l₁ ++ '\n' :: above, l, .line (by simp [Ne.symm hc, hl₁]) ha, hl, rfl⟩

/-- Every line of a text has whole lines above it, and a line break or nothing behind it. -/
lemma exists_line {n : Nat} {cs : List Char} (hn : n ≤ cs.count '\n') :
    ∃ above l rest, WholeLines above ∧ n = above.count '\n' ∧ '\n' ∉ l ∧
      (rest = [] ∨ ∃ r, rest = '\n' :: r) ∧ cs = above ++ (l ++ rest) := by
  induction n generalizing cs with
  | zero =>
    rcases not_mem_or_split '\n' cs with h | ⟨l, r, hl, rfl⟩
    · exact ⟨[], cs, [], .nil, rfl, h, Or.inl rfl, by simp⟩
    · exact ⟨[], l, '\n' :: r, .nil, rfl, hl, Or.inr ⟨r, rfl⟩, rfl⟩
  | succ n ih =>
    rcases not_mem_or_split '\n' cs with h | ⟨first, cs, hfirst, rfl⟩
    · rw [List.count_eq_zero.mpr h] at hn
      omega
    · rw [count_line hfirst] at hn
      obtain ⟨above, l, rest, ha, rfl, hl, hrest, rfl⟩ := ih (Nat.le_of_succ_le_succ hn)
      exact ⟨first ++ '\n' :: above, l, rest, .line hfirst ha, (count_line hfirst above).symm, hl,
        hrest, by simp⟩

/-! ### Walking down -/

lemma splitLine?_append {l : List Char} (hl : '\n' ∉ l) (rest : List Char) :
    splitLine? (l ++ '\n' :: rest) = some (l, rest) := by
  induction l with
  | nil => rfl
  | cons c l ih =>
    have hc : c ≠ '\n' := fun h => hl (by simp [h])
    rw [List.cons_append, splitLine?, if_neg hc, ih fun h => hl (List.mem_cons_of_mem _ h)]
    rfl

/-- The walk passes as many whole lines as it is told to. -/
lemma WholeLines.walkLines {above : List Char} (ha : WholeLines above) (rest : List Char) :
    TopologyAssist.walkLines (above.count '\n') (above ++ rest) =
      (above, above.count '\n', rest) := by
  induction ha with
  | nil => rfl
  | @line l above hl _ ih =>
    rw [count_line hl, List.append_assoc, List.cons_append, TopologyAssist.walkLines,
      splitLine?_append hl]
    simp only [ih]

/-! ### The carriage return -/

/-- A line loses a carriage return at its end, or nothing. -/
lemma dropReturn_cases (l : List Char) : dropReturn l = l ∨ l = dropReturn l ++ ['\r'] := by
  fun_induction dropReturn l with
  | case1 => exact Or.inl rfl
  | case2 => exact Or.inr rfl
  | case3 c hc => exact Or.inl rfl
  | case4 c cs hcs ih =>
    rcases ih with h | h
    · exact Or.inl (by rw [h])
    · exact Or.inr (by rw [List.cons_append, ← h])

lemma isPrefix_dropReturn (l : List Char) : dropReturn l <+: l := by
  rcases dropReturn_cases l with h | h
  · exact ⟨[], by rw [h, List.append_nil]⟩
  · exact ⟨['\r'], h.symm⟩

lemma dropReturn_append {v : List Char} (hv : v ≠ []) (u : List Char) :
    dropReturn (u ++ v) = u ++ dropReturn v := by
  induction u with
  | nil => rfl
  | cons c u ih =>
    have hne : u ++ v ≠ [] := fun h => hv (List.append_eq_nil_iff.mp h).2
    rw [List.cons_append, dropReturn, ih, List.cons_append]
    exact hne

/-! ### The cursor on a line -/

namespace Cursor

/-- **The cursor on a known line**: whole lines above it, and the line cut at the column. -/
theorem locate_of_line {above l rest : List Char} (ha : WholeLines above) (hl : '\n' ∉ l)
    (hrest : rest = [] ∨ ∃ r, rest = '\n' :: r) {p : Position} (hp : p.line = above.count '\n') :
    locate (above ++ (l ++ rest)) p =
      ⟨above, p.line, (dropReturn l).take p.column, (dropReturn l).drop p.column⟩ := by
  have hall : ∀ c ∈ l, (c != '\n') = true := by
    intro c hc
    rw [bne_iff_ne]
    rintro rfl
    exact hl hc
  have hline : (l ++ rest).takeWhile (fun c => c != '\n') = l := by
    rw [List.takeWhile_append_of_pos hall]
    rcases hrest with rfl | ⟨r, rfl⟩ <;> simp
  rw [locate, hp, ha.walkLines]
  simp [hline]

/-- **What is below the cursor's line has no part in the cursor**, also if it is cut off with the
line break. -/
theorem locate_append_break {u : List Char} {p : Position} (hp : p.line ≤ u.count '\n')
    (v : List Char) : locate (u ++ '\n' :: v) p = locate u p := by
  obtain ⟨above, l, rest, ha, hline, hl, hrest, rfl⟩ := exists_line hp
  have hrest' : rest ++ '\n' :: v = [] ∨ ∃ r, rest ++ '\n' :: v = '\n' :: r := by
    rcases hrest with rfl | ⟨r, rfl⟩
    · exact Or.inr ⟨v, rfl⟩
    · exact Or.inr ⟨r ++ '\n' :: v, rfl⟩
  rw [List.append_assoc, List.append_assoc, locate_of_line ha hl hrest' hline,
    locate_of_line ha hl hrest hline]

end Cursor

/-- The position behind the last character of a text. -/
def Position.endOf (text : List Char) : Position := ⟨text.count '\n', (lastLine text).length⟩

/-- The cursor at the end of a text stands behind its last line. -/
theorem Cursor.locate_endOf {above l : List Char} (ha : WholeLines above) (hl : '\n' ∉ l) :
    locate (above ++ l) (.endOf (above ++ l)) =
      ⟨above, above.count '\n', dropReturn l, []⟩ := by
  have hcount : (above ++ l).count '\n' = above.count '\n' := by
    rw [List.count_append, List.count_eq_zero.mpr hl, Nat.add_zero]
  have hlast : lastLine (above ++ l) = l := by rw [ha.lastLine_append, lastLine_of_not_mem hl]
  have hlen : (dropReturn l).length ≤ l.length := (isPrefix_dropReturn l).length_le
  have hloc := locate_of_line ha hl (Or.inl rfl) (p := .endOf (above ++ l)) hcount
  rw [List.append_nil] at hloc
  rw [hloc, Position.endOf, hlast, hcount, List.take_of_length_le hlen,
    List.drop_eq_nil_of_le hlen]

end TopologyAssist
