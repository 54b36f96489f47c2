import TopologyAssist.Proofs.CommentText
import TopologyAssist.Proofs.Tokens

/-!
Hover gives one answer over a whole field.

Each column of a field `key=value` takes its own way: the token is the key or the value, another
part of it stands before the cursor, and another rest of the line behind. The part before the cursor
goes off the text again and comes before the rest of the line again, so all columns meet in one
context (`FieldOn.context?_eq`).
-/

namespace TopologyAssist

/-! ### The lines of a text -/

/-- A text split at its line breaks. -/
def splitLines : List Char → List (List Char)
  | [] => [[]]
  | c :: cs =>
    if c = '\n' then [] :: splitLines cs
    else
      match splitLines cs with
      | [] => [[c]]
      | line :: rest => (c :: line) :: rest

lemma splitLines_of_not_mem {l : List Char} (hl : '\n' ∉ l) : splitLines l = [l] := by
  induction l with
  | nil => rfl
  | cons c l ih =>
    have hc : c ≠ '\n' := fun h => hl (by simp [h])
    rw [splitLines, if_neg hc, ih fun h => hl (List.mem_cons_of_mem _ h)]

lemma splitLines_append_break {l : List Char} (hl : '\n' ∉ l) (v : List Char) :
    splitLines (l ++ '\n' :: v) = l :: splitLines v := by
  induction l with
  | nil => rfl
  | cons c l ih =>
    have hc : c ≠ '\n' := fun h => hl (by simp [h])
    rw [List.cons_append, splitLines, if_neg hc, ih fun h => hl (List.mem_cons_of_mem _ h)]

lemma WholeLines.splitLines_append {above : List Char} (ha : WholeLines above) (v : List Char) :
    (splitLines (above ++ v))[above.count '\n']? = (splitLines v)[0]? := by
  induction ha with
  | nil => rfl
  | @line l above hl _ ih =>
    rw [List.append_assoc, List.cons_append, splitLines_append_break hl, count_line hl,
      List.getElem?_cons_succ, ih]

lemma length_splitLines (text : List Char) :
    (splitLines text).length = text.count '\n' + 1 := by
  obtain ⟨above, ha, hl, heq⟩ := exists_wholeLines text
  rw [heq]
  generalize lastLine text = l at hl
  clear heq
  induction ha with
  | nil => rw [List.nil_append, splitLines_of_not_mem hl, List.count_eq_zero.mpr hl]; rfl
  | @line l₁ above hl₁ _ ih =>
    rw [List.append_assoc, List.cons_append, splitLines_append_break hl₁, List.length_cons, ih,
      count_line hl₁]

/-- A line of a text has whole lines above it, as many as its number. -/
lemma exists_above {text l : List Char} {n : Nat} (h : (splitLines text)[n]? = some l) :
    ∃ above rest, WholeLines above ∧ n = above.count '\n' ∧ '\n' ∉ l ∧ EndsLine rest ∧
      text = above ++ (l ++ rest) := by
  have hn : n ≤ text.count '\n' := by
    have hlt := (List.getElem?_eq_some_iff.mp h).1
    rw [length_splitLines] at hlt
    omega
  obtain ⟨above, l', rest, ha, rfl, hl, hrest, rfl⟩ := exists_line hn
  have hsame : (splitLines (l' ++ rest))[0]? = some l' := by
    rcases hrest with rfl | ⟨r, rfl⟩
    · rw [List.append_nil, splitLines_of_not_mem hl]; rfl
    · rw [splitLines_append_break hl]; rfl
  rw [ha.splitLines_append, hsame] at h
  obtain rfl := Option.some.inj h
  exact ⟨above, rest, ha, rfl, hl, hrest, rfl⟩

/-! ### A field on a line -/

/-- A field stands on a line: blanks or a delimiter before it, a key, `=` and a value without
blanks, and behind it what no value goes on with. No comment begins before its end. -/
structure FieldOn (before key value after : List Char) : Prop where
  delimited : ∀ d ∈ (dropBlanks before).getLast?, d = '[' ∨ d = '(' ∨ d = ','
  isKey : IsKey key
  value_ne_nil : value ≠ []
  goesOn_value : ∀ c ∈ value, goesOn c = true
  ends : ∀ d ∈ after.head?, goesOn d = false
  noComment : opensComment (before ++ (key ++ '=' :: value)) = false

/-- The columns of the key, up to the `=` behind it, and then those of the value. -/
def fieldSpan (before key value : List Char) (line column : Nat) : LineSpan :=
  if column ≤ before.length + key.length then
    ⟨line, before.length, before.length + key.length⟩
  else
    ⟨line, before.length + key.length + 1, before.length + key.length + 1 + value.length⟩

lemma goesOn_iff {c : Char} : goesOn c = true ↔ isBlank c = false ∧ isValueChar c = true := by
  simp [goesOn]

lemma opensComment_of_append {u v : List Char} (h : opensComment (u ++ v) = false) :
    opensComment u = false := by
  induction u with
  | nil => rfl
  | cons c u ih =>
    rw [List.cons_append, opensComment, Bool.or_eq_false_iff] at h
    rw [opensComment, ih h.2, Bool.or_false]
    cases u with
    | nil => simp
    | cons d u => exact h.1

lemma dropEnding_append (ending u : List Char) : dropEnding ending (u ++ ending) = u := by
  simp [dropEnding]

/-- Where a cursor on the field cuts the line: in the key, or in the value. -/
lemma Cursor.exists_cut {c : Cursor} {A key value B : List Char}
    (hline : c.wholeLine = A ++ (key ++ '=' :: (value ++ B)))
    (hlo : A.length ≤ c.column) (hhi : c.column ≤ A.length + key.length + 1 + value.length) :
    (∃ k k', key = k ++ k' ∧ c.before = A ++ k ∧ c.after = k' ++ '=' :: (value ++ B)) ∨
      ∃ v v', value = v ++ v' ∧ c.before = A ++ (key ++ '=' :: v) ∧ c.after = v' ++ B := by
  have hA : A <+: c.wholeLine := hline ▸ List.prefix_append A _
  obtain ⟨x, hbefore⟩ :=
    List.prefix_of_prefix_length_le hA (List.prefix_append c.before c.after) hlo
  rw [column, ← hbefore, List.length_append] at hhi
  rw [wholeLine, ← hbefore, List.append_assoc, List.append_cancel_left_eq] at hline
  rcases List.append_eq_append_iff.mp hline with ⟨k', hkey, hafter⟩ | ⟨y, hx, hafter⟩
  · exact Or.inl ⟨x, k', hkey, hbefore.symm, hafter⟩
  · cases y with
    | nil =>
      rw [List.append_nil] at hx
      exact Or.inl ⟨key, [], by simp, by rw [← hbefore, hx], hafter.symm⟩
    | cons d v =>
      obtain ⟨rfl, hrest⟩ := List.cons.inj hafter
      rw [hx, List.length_append, List.length_cons] at hhi
      rcases List.append_eq_append_iff.mp hrest with ⟨z, hv, hB⟩ | ⟨v', hvalue, hB⟩
      · -- the cursor is not behind the value
        have hz : z = [] := by
          rw [hv, List.length_append] at hhi
          exact List.length_eq_zero_iff.mp (by omega)
        subst hz
        rw [List.append_nil] at hv
        exact Or.inr ⟨v, [], by simp [hv], by rw [← hbefore, hx], by simpa using hB.symm⟩
      · exact Or.inr ⟨v, v', hvalue, by rw [← hbefore, hx], hB⟩

namespace FieldOn

variable {A key value B : List Char} (h : FieldOn A key value B)
include h

/-- The carriage return that may end the line is no part of the field. -/
lemma exists_dropReturn :
    ∃ B', dropReturn (A ++ (key ++ '=' :: (value ++ B))) = A ++ (key ++ '=' :: (value ++ B')) ∧
      FieldOn A key value B' := by
  cases B with
  | nil =>
    refine ⟨[], ?_, h⟩
    rcases dropReturn_cases (A ++ (key ++ '=' :: (value ++ []))) with heq | heq
    · exact heq
    · -- a value without blanks does not end with one
      obtain ⟨v, d, hvalue⟩ := (List.eq_nil_or_concat value).resolve_left h.value_ne_nil
      have htext : A ++ (key ++ '=' :: (value ++ [])) = (A ++ (key ++ '=' :: v)) ++ [d] := by
        simp [hvalue]
      rw [htext] at heq
      obtain rfl : d = '\r' := by simpa using (List.append_inj' heq rfl).2
      exact absurd (h.goesOn_value '\r' (by simp [hvalue])) (by decide)
  | cons d B =>
    have hsplit : A ++ (key ++ '=' :: (value ++ d :: B)) =
        (A ++ (key ++ '=' :: value)) ++ d :: B := by simp
    refine ⟨dropReturn (d :: B), ?_, { h with ends := fun x hx => h.ends x ?_ }⟩
    · rw [hsplit, dropReturn_append (List.cons_ne_nil d B)]
      simp
    · obtain ⟨t, ht⟩ := isPrefix_dropReturn (d :: B)
      obtain ⟨more, hmore⟩ := List.head?_eq_some_iff.mp hx
      rw [← ht, hmore]
      rfl

lemma dropBlanks_eq {w : List Char} (hw : w <+: key ++ '=' :: value) : dropBlanks w = w := by
  refine dropBlanks_of_forall fun c hc => ?_
  rcases List.mem_append.mp (hw.subset hc) with hkey | hvalue
  · exact isBlank_of_isKeyChar (h.isKey.2 c hkey)
  · rcases List.mem_cons.mp hvalue with rfl | hvalue
    · decide
    · exact (goesOn_iff.mp (h.goesOn_value c hvalue)).1

/-- A cursor in the key stands on the key. -/
lemma onToken_key {c : Cursor} {k k' : List Char} (hkey : key = k ++ k')
    (hbefore : c.before = A ++ k) (hafter : c.after = k' ++ '=' :: (value ++ B)) : OnToken c key k k k' := by
  have hk : ∀ x ∈ k ++ k', isKeyChar x = true := hkey ▸ h.isKey.2
  have hright : c.after.takeWhile isKeyChar = k' := by
    rw [hafter, List.takeWhile_append_of_pos fun x hx => hk x (List.mem_append_right k hx),
      List.takeWhile_cons_of_neg (by decide), List.append_nil]
  have hblank : dropBlanks k = k := h.dropBlanks_eq ⟨k' ++ '=' :: value, by simp [hkey]⟩
  have hends : EndsInKey (dropBlanks c.before) k := by
    refine ⟨fun x hx => hk x (List.mem_append_left k' hx), dropBlanks A, h.delimited, ?_⟩
    rw [hbefore, dropBlanks_append, hblank]
  have hne : k ++ c.after.takeWhile isKeyChar ≠ [] := by
    rw [hright, ← hkey]
    exact h.isKey.1
  have hon := OnToken.key hends hne
  rwa [hright, ← hkey] at hon

/-- A cursor in the value stands on the value. -/
lemma onToken_value {c : Cursor} {v v' : List Char} (hvalue : value = v ++ v')
    (hbefore : c.before = A ++ (key ++ '=' :: v)) (hafter : c.after = v' ++ B) :
    OnToken c key (key ++ '=' :: v) v v' := by
  have hv : ∀ x ∈ v ++ v', goesOn x = true := hvalue ▸ h.goesOn_value
  have hright : c.after.takeWhile goesOn = v' := by
    rw [hafter, List.takeWhile_append_of_pos fun x hx => hv x (List.mem_append_right v hx)]
    cases B with
    | nil => simp
    | cons d B => rw [List.takeWhile_cons_of_neg (by simp [h.ends d rfl]), List.append_nil]
  have hblank : dropBlanks (key ++ '=' :: v) = key ++ '=' :: v :=
    h.dropBlanks_eq ⟨v', by simp [hvalue]⟩
  have hends : EndsInValue (dropBlanks c.before) key v := by
    refine ⟨h.isKey, fun x hx => (goesOn_iff.mp (hv x (List.mem_append_left v' hx))).2,
      dropBlanks A, fun d hd => isKeyChar_of_delimiter (h.delimited d hd), ?_⟩
    rw [hbefore, dropBlanks_append, hblank]
  have hne : v ++ c.after.takeWhile goesOn ≠ [] := by
    rw [hright, ← hvalue]
    exact h.value_ne_nil
  have hon := OnToken.value hends hne
  rwa [hright] at hon

/-- **The token of every column.** What stands of it before the cursor comes right behind what is
before the field, and it marks the columns of the key or those of the value. -/
lemma exists_token {c : Cursor} (hbreak : '\n' ∉ c.before)
    (hline : c.wholeLine = A ++ (key ++ '=' :: (value ++ B)))
    (hlo : A.length ≤ c.column) (hhi : c.column ≤ A.length + key.length + 1 + value.length) :
    ∃ w, w <+: key ++ '=' :: value ∧ c.before = A ++ w ∧
      Token.at? c = some ⟨key, w, fieldSpan A key value c.line c.column⟩ := by
  rcases Cursor.exists_cut hline hlo hhi with
    ⟨k, k', hkey, hbefore, hafter⟩ | ⟨v, v', hvalue, hbefore, hafter⟩
  · have hcolumn : c.column = A.length + k.length := by
      rw [Cursor.column, hbefore, List.length_append]
    have hlen : key.length = k.length + k'.length := by rw [hkey, List.length_append]
    have hspan : fieldSpan A key value c.line c.column = c.span k.length k'.length := by
      rw [fieldSpan, if_pos (by omega), Cursor.span]
      congr 1 <;> omega
    refine ⟨k, ⟨k' ++ '=' :: value, by simp [hkey]⟩, hbefore, ?_⟩
    exact (Token.at?_eq_some_iff hbreak).mpr ⟨k, k', h.onToken_key hkey hbefore hafter, hspan⟩
  · have hcolumn : c.column = A.length + (key.length + (v.length + 1)) := by
      rw [Cursor.column, hbefore, List.length_append, List.length_append, List.length_cons]
    have hlen : value.length = v.length + v'.length := by rw [hvalue, List.length_append]
    have hspan : fieldSpan A key value c.line c.column = c.span v.length v'.length := by
      rw [fieldSpan, if_neg (by omega), Cursor.span]
      congr 1 <;> omega
    refine ⟨key ++ '=' :: v, ⟨v', by simp [hvalue]⟩, hbefore, ?_⟩
    exact (Token.at?_eq_some_iff hbreak).mpr ⟨v, v', h.onToken_value hvalue hbefore hafter, hspan⟩

/-- **The columns meet in one context**: that of the text before the field, with the field and the
rest of its line ahead. -/
lemma context?_eq (g : Grammar) {c : Cursor} (ha : WholeLines c.above)
    (hbreak : '\n' ∉ c.before ∧ '\n' ∉ c.after)
    (hline : c.wholeLine = A ++ (key ++ '=' :: (value ++ B))) {w : List Char}
    (hw : w <+: key ++ '=' :: value) (hbefore : c.before = A ++ w) (range : LineSpan) :
    Hover.context? g c ⟨key, w, range⟩ =
      g.classify (normalize c.above ++ dropBlanks A)
        (dropBlanks (key ++ '=' :: (value ++ B))) := by
  have hblank := h.dropBlanks_eq hw
  have hrest : w ++ c.after = key ++ '=' :: (value ++ B) := by
    rwa [Cursor.wholeLine, hbefore, List.append_assoc, List.append_cancel_left_eq] at hline
  have hpreceding : normalize c.preceding = (normalize c.above ++ dropBlanks A) ++ w := by
    rw [Cursor.preceding, ha.normalize_append, normalize_of_not_mem hbreak.1, hbefore,
      dropBlanks_append, hblank, List.append_assoc]
  have hahead : w ++ normalize c.after = dropBlanks (key ++ '=' :: (value ++ B)) := by
    rw [normalize_of_not_mem hbreak.2, ← hrest, dropBlanks_append, hblank]
  rw [Hover.context?, hpreceding, dropEnding_append, hahead]

/-- At every column of the field the answer explains its key in one context. -/
lemma exists_hover (e : Engine) {text : List Char} {n : Nat}
    (hline : (splitLines text)[n]? = some (A ++ (key ++ '=' :: (value ++ B)))) :
    ∃ ctx, ∀ column, A.length ≤ column → column ≤ A.length + key.length + 1 + value.length →
      ∃ c t, e.hover text ⟨n, column⟩ = Hover.explain? e.grammar e.options c t ∧
        Hover.context? e.grammar c t = ctx ∧ t.key = key ∧
        t.range = fieldSpan A key value n column := by
  obtain ⟨above, rest, ha, hn, hl, hrest, rfl⟩ := exists_above hline
  obtain ⟨B', hreturn, h'⟩ := h.exists_dropReturn
  refine ⟨e.grammar.classify (normalize above ++ dropBlanks A)
    (dropBlanks (key ++ '=' :: (value ++ B'))), fun column hlo hhi => ?_⟩
  have hloc := Cursor.locate_of_line ha hl hrest (p := ⟨n, column⟩) hn
  rw [hreturn] at hloc
  have hbreak := Cursor.not_mem_locate (above ++ (A ++ (key ++ '=' :: (value ++ B)) ++ rest))
    ⟨n, column⟩
  rw [hloc] at hbreak
  unfold Engine.hover
  rw [hloc]
  -- the cursor stands where the position says, since the field goes on up to there at least
  generalize hc : (Cursor.mk above n ((A ++ (key ++ '=' :: (value ++ B'))).take column)
    ((A ++ (key ++ '=' :: (value ++ B'))).drop column)) = c at *
  have hwhole : c.wholeLine = A ++ (key ++ '=' :: (value ++ B')) := by
    rw [← hc, Cursor.wholeLine, List.take_append_drop]
  have hcolumn : c.column = column := by
    rw [← hc, Cursor.column, List.length_take]
    simp only [List.length_append, List.length_cons]
    omega
  obtain ⟨w, hw, hbefore, hat⟩ := h'.exists_token hbreak.1 hwhole (by omega) (by omega)
  have hcomment : c.inComment = false := by
    obtain ⟨t, ht⟩ := hw
    refine opensComment_of_append (v := t) ?_
    rw [hbefore, List.append_assoc, ht]
    exact h.noComment
  refine ⟨c, ⟨key, w, fieldSpan A key value c.line c.column⟩, ?_, ?_, rfl, ?_⟩
  · rw [Hover.card?, if_neg (by rw [hcomment]; decide), hat, Option.bind_some]
  · have habove : c.above = above := by rw [← hc]
    rw [h'.context?_eq e.grammar (habove ▸ ha) hbreak hwhole hw hbefore, habove]
  · rw [hcolumn, ← hc]

end FieldOn

namespace Engine

/-- **Hover gives one answer over a whole field.** From the first column of the key to behind the
value the answers say the same, or there is none at any of them. What is explained is the key of
the field; the range is that of the key up to the `=` behind it, and then that of the value. -/
theorem hover_over_field (e : Engine) {text A key value B : List Char} {n c₁ c₂ : Nat}
    (hline : (splitLines text)[n]? = some (A ++ (key ++ '=' :: (value ++ B))))
    (hfield : FieldOn A key value B)
    (h₁ : A.length ≤ c₁ ∧ c₁ ≤ A.length + key.length + 1 + value.length)
    (h₂ : A.length ≤ c₂ ∧ c₂ ≤ A.length + key.length + 1 + value.length) :
    (e.hover text ⟨n, c₁⟩).map HoverCard.facts = (e.hover text ⟨n, c₂⟩).map HoverCard.facts ∧
      ∀ h, e.hover text ⟨n, c₁⟩ = some h →
        h.key = String.ofList key ∧ h.range = fieldSpan A key value n c₁ := by
  obtain ⟨ctx, hcolumns⟩ := hfield.exists_hover e hline
  obtain ⟨c, t, hhover, hctx, hkey, hrange⟩ := hcolumns c₁ h₁.1 h₁.2
  obtain ⟨c', t', hhover', hctx', hkey', -⟩ := hcolumns c₂ h₂.1 h₂.2
  constructor
  · rw [hhover, hhover']
    exact Hover.facts_explain?_of_key (hkey.trans hkey'.symm) (hctx.trans hctx'.symm)
  · intro h hh
    rw [hhover] at hh
    obtain ⟨hname, hspan⟩ := Hover.explain?_token hh
    refine ⟨?_, hspan.trans hrange⟩
    rw [← hkey, ← hname, String.ofList_toList]

/-- A selecting field on an indented line: in the key, and behind the value. -/
theorem hover_over_field_coordinates :
    let e : Engine := ⟨Grammar.standard, {}⟩
    let text := "NRN=[(nid=a,\n  LOC=(cst=cl, rad=5um))]".toList
    ∃ h h', e.hover text ⟨1, 8⟩ = some h ∧ e.hover text ⟨1, 13⟩ = some h' ∧
      h.facts = h'.facts ∧ h.key = "cst" ∧ h.range = ⟨1, 7, 10⟩ ∧ h'.range = ⟨1, 11, 13⟩ := by
  intro e text
  have hline : (splitLines text)[1]? = some ("  LOC=(".toList ++
      ("cst".toList ++ '=' :: ("cl".toList ++ ", rad=5um))]".toList))) := by
    decide +kernel
  have hlast : (dropBlanks "  LOC=(".toList).getLast? = some '(' := by decide
  have hhead : ", rad=5um))]".toList.head? = some ',' := by decide
  have hfield : FieldOn "  LOC=(".toList "cst".toList "cl".toList ", rad=5um))]".toList := {
    delimited := by rw [hlast]; simp
    isKey := by decide
    value_ne_nil := by decide
    goesOn_value := List.all_eq_true.mp (by decide)
    ends := by rw [hhead]; rintro _ ⟨⟩; decide
    noComment := by decide }
  obtain ⟨h, hh⟩ : ∃ h, e.hover text ⟨1, 8⟩ = some h :=
    Option.isSome_iff_exists.mp (by decide +kernel)
  have h₁ : "  LOC=(".toList.length ≤ 8 ∧ 8 ≤ 7 + 3 + 1 + 2 := by decide
  have h₂ : "  LOC=(".toList.length ≤ 13 ∧ 13 ≤ 7 + 3 + 1 + 2 := by decide
  obtain ⟨hfacts, hcard⟩ := hover_over_field e hline hfield h₁ h₂
  obtain ⟨-, hcard'⟩ := hover_over_field e hline hfield h₂ h₁
  rw [hh, Option.map_some] at hfacts
  obtain ⟨h', hh', hsame⟩ := Option.map_eq_some_iff.mp hfacts.symm
  obtain ⟨hkey, hrange⟩ := hcard h hh
  exact ⟨h, h', hh, hh', hsame.symm, hkey, hrange, (hcard' h' hh').2⟩

end Engine

end TopologyAssist
