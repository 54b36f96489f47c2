import Mathlib.Data.List.DropRight
import TopologyAssist.Proofs.Battery
import TopologyAssist.Proofs.Layout

/-!
The token under a cursor, and what the answer about it marks.

* `OnToken c key typed left right` — what a cursor stands on, said of its line without blanks: a
  value with its key before it, or a key. The text of the token is `left` before the cursor and
  `right` behind it;
* `Token.at?_eq_some_iff` — the token that is read is the one the cursor stands on;
* `Engine.hover_marks` — what the range of an answer marks. Its columns count the characters of the
  line as it is written, the token is found on the line without blanks, so the mark is the token
  exactly if no blank lies in it.
-/

namespace TopologyAssist

open Reader

/-! ### Runs at the end of a text -/

/-- Every text ends with a run of a class, and another character, if any, is before it. -/
lemma exists_run (p : Char → Bool) (cs : List Char) :
    ∃ u w, (∀ d ∈ u.getLast?, p d = false) ∧ (∀ c ∈ w, p c = true) ∧ cs = u ++ w := by
  refine ⟨cs.rdropWhile p, cs.rtakeWhile p, fun d hd => ?_, fun c hc => List.mem_rtakeWhile_imp hc,
    List.rdropWhile_append_rtakeWhile.symm⟩
  obtain ⟨hne, rfl⟩ := List.mem_getLast?_eq_getLast hd
  simpa using List.rdropWhile_last_not p cs hne

/-- A text ends with one run of a class. -/
lemma run_unique {p : Char → Bool} {u u' w w' : List Char} (hu : ∀ d ∈ u.getLast?, p d = false)
    (hu' : ∀ d ∈ u'.getLast?, p d = false) (hw : ∀ c ∈ w, p c = true) (hw' : ∀ c ∈ w', p c = true)
    (h : u ++ w = u' ++ w') : w = w' := by
  have hnil : ∀ {u y w : List Char}, (∀ d ∈ (u ++ y).getLast?, p d = false) →
      (∀ c ∈ y ++ w, p c = true) → y = [] := by
    intro u y w hy hyw
    rcases List.eq_nil_or_concat y with rfl | ⟨y, d, rfl⟩
    · rfl
    · have hd := hyw d (by simp)
      rw [hy d (by simp)] at hd
      cases hd
  rcases List.append_eq_append_iff.mp h with ⟨y, rfl, rfl⟩ | ⟨y, rfl, rfl⟩
  · simp [hnil hu' hw]
  · simp [hnil hu hw']

/-! ### The end of a line inside a value -/

lemma mem_assignmentEnd {cs t whole key v : List Char} :
    ((whole, key, v), t) ∈ assignmentEnd cs ↔
      t = [] ∧ whole = cs ∧ IsKey key ∧ IsValue v ∧ cs = key ++ '=' :: v := by
  constructor
  · intro h
    obtain ⟨start, w, hstart, h₁⟩ := Reader.mem_bind.mp h
    obtain ⟨rfl, rfl⟩ := mem_here.mp hstart
    obtain ⟨key', w₁, hkey, rfl, h₂⟩ := (reads_run1 isKeyChar).mem_bind.mp h₁
    obtain ⟨stop, w₂, hstop, h₃⟩ := Reader.mem_bind.mp h₂
    obtain ⟨rfl, rfl⟩ := mem_here.mp hstop
    obtain ⟨_, w₃, rfl, rfl, h₄⟩ := (reads_word ['=']).mem_bind.mp h₃
    obtain ⟨value, w₄, hvalue, h₅⟩ := Reader.mem_bind.mp h₄
    obtain ⟨rfl, rfl⟩ := mem_here.mp hvalue
    obtain ⟨v', w₅, hv, rfl, h₆⟩ := (reads_run isValueChar).mem_bind.mp h₅
    obtain ⟨⟨⟩, w₆, hend, h₇⟩ := Reader.mem_bind.mp h₆
    obtain ⟨rfl, rfl⟩ := mem_finish.mp hend
    obtain ⟨heq, rfl⟩ := mem_pure.mp h₇
    rw [textBefore_append] at heq
    obtain ⟨rfl, hrest⟩ := Prod.mk.inj heq
    obtain ⟨rfl, rfl⟩ := Prod.mk.inj hrest
    rw [List.append_nil]
    exact ⟨rfl, rfl, hkey, hv, rfl⟩
  · rintro ⟨rfl, rfl, hkey, hv, rfl⟩
    refine Reader.mem_bind.mpr ⟨_, _, mem_here.mpr ⟨rfl, rfl⟩, ?_⟩
    refine (reads_run1 isKeyChar).mem_bind.mpr ⟨key, _, hkey, rfl, ?_⟩
    refine Reader.mem_bind.mpr ⟨_, _, mem_here.mpr ⟨rfl, rfl⟩, ?_⟩
    refine (reads_word ['=']).mem_bind.mpr ⟨_, v, rfl, rfl, ?_⟩
    refine Reader.mem_bind.mpr ⟨_, _, mem_here.mpr ⟨rfl, rfl⟩, ?_⟩
    refine (reads_run isValueChar).mem_bind.mpr ⟨v, [], hv, by simp, ?_⟩
    refine Reader.mem_bind.mpr ⟨(), [], mem_finish.mpr ⟨rfl, rfl⟩, mem_pure.mpr ⟨?_, rfl⟩⟩
    rw [textBefore_append]

/-- The text ends with a key, `=` and what there is of a value; the key goes back as far as it
can. -/
structure EndsInValue (line key v : List Char) : Prop where
  isKey : IsKey key
  isValue : IsValue v
  line : ∃ u, (∀ d ∈ u.getLast?, isKeyChar d = false) ∧ line = u ++ (key ++ '=' :: v)

lemma first?_assignmentEnd {key v : List Char} (hkey : IsKey key) (hv : IsValue v) :
    assignmentEnd.first? (key ++ '=' :: v) = some (key ++ '=' :: v, key, v) := by
  refine first?_of_unique (mem_assignmentEnd.mpr ⟨rfl, rfl, hkey, hv, rfl⟩) ?_
  rintro ⟨whole, key', v'⟩ t ht
  obtain ⟨-, rfl, -, hv', heq⟩ := mem_assignmentEnd.mp ht
  obtain ⟨rfl, rfl⟩ := split_last_unique hv.not_mem_equals hv'.not_mem_equals heq
  rfl

/-- The search for a value finds the whole key. -/
lemma EndsInValue.search? {line key v : List Char} (h : EndsInValue line key v) :
    assignmentEnd.search? line = some (key ++ '=' :: v, key, v) := by
  obtain ⟨u, hu, rfl⟩ := h.line
  have hsilent : assignmentEnd.SilentOn u (key ++ '=' :: v) := by
    intro w hw hne
    rw [List.eq_nil_iff_forall_not_mem]
    rintro ⟨⟨whole, key', v'⟩, t⟩ hm
    obtain ⟨-, -, hkey', hv', heq⟩ := mem_assignmentEnd.mp hm
    rw [← List.append_assoc] at heq
    obtain ⟨rfl, -⟩ := split_last_unique h.isValue.not_mem_equals hv'.not_mem_equals heq
    -- the character before the key would be one of the key
    have hlast := hu (w.getLast hne) (by rw [hw.getLast hne]; exact List.getLast?_eq_some_getLast _)
    rw [hkey'.2 _ (List.mem_append_left _ (List.getLast_mem hne))] at hlast
    cases hlast
  rw [search?_of_silent hsilent, search?_of_first? (first?_assignmentEnd h.isKey h.isValue)]

lemma search?_assignmentEnd {line whole key v : List Char} :
    assignmentEnd.search? line = some (whole, key, v) ↔
      EndsInValue line key v ∧ whole = key ++ '=' :: v := by
  constructor
  · intro h
    obtain ⟨_, t, ⟨x, rfl⟩, hm⟩ := finds_of_search? h
    obtain ⟨-, -, hkey, hv, rfl⟩ := mem_assignmentEnd.mp hm
    -- the key that is found goes back to where its run begins
    obtain ⟨u, w, hu, hw, rfl⟩ := exists_run isKeyChar x
    have hends : EndsInValue (u ++ w ++ (key ++ '=' :: v)) (w ++ key) v := by
      refine ⟨⟨by simp [hkey.1], fun c hc => ?_⟩, hv, u, hu, by simp⟩
      exact (List.mem_append.mp hc).elim (hw c) (hkey.2 c)
    rw [hends.search?] at h
    obtain ⟨rfl, hrest⟩ := Prod.mk.inj (Option.some.inj h)
    obtain ⟨hsame, -⟩ := Prod.mk.inj hrest
    obtain rfl : w = [] := List.append_left_eq_self.mp hsame
    exact ⟨hends, rfl⟩
  · rintro ⟨h, rfl⟩
    exact h.search?

/-! ### The end of a line inside a key -/

/-- The text ends with key characters, at its beginning or behind an opening bracket or a comma. -/
structure EndsInKey (line w : List Char) : Prop where
  keyChars : ∀ c ∈ w, isKeyChar c = true
  line : ∃ u, (∀ d ∈ u.getLast?, d = '[' ∨ d = '(' ∨ d = ',') ∧ line = u ++ w

lemma isKeyChar_of_delimiter {d : Char} (h : d = '[' ∨ d = '(' ∨ d = ',') :
    isKeyChar d = false := by
  rcases h with rfl | rfl | rfl <;> decide

lemma EndsInKey.unique {line w w' : List Char} (h : EndsInKey line w) (h' : EndsInKey line w') :
    w = w' := by
  obtain ⟨u, hu, rfl⟩ := h.line
  obtain ⟨u', hu', heq⟩ := h'.line
  exact run_unique (fun d hd => isKeyChar_of_delimiter (hu d hd))
    (fun d hd => isKeyChar_of_delimiter (hu' d hd)) h.keyChars h'.keyChars heq

/-- What was typed of a key at the end of a line, behind a delimiter. -/
def delimitedKey : Reader (List Char) := do
  one fun c => c == '[' || c == '(' || c == ','
  keyEnd

lemma finds_delimitedKey {line w : List Char} :
    delimitedKey.Finds line w ↔
      (∀ c ∈ w, isKeyChar c = true) ∧
        ∃ u d, (d = '[' ∨ d = '(' ∨ d = ',') ∧ line = u ++ d :: w := by
  constructor
  · rintro ⟨v, t, ⟨u, rfl⟩, hm⟩
    obtain ⟨_, v, ⟨d, hd, rfl⟩, rfl, h₁⟩ := (reads_one _).mem_bind.mp hm
    obtain ⟨-, rfl, hw⟩ := mem_keyEnd.mp h₁
    simp only [Bool.or_eq_true, beq_iff_eq, or_assoc] at hd
    exact ⟨hw, u, d, hd, rfl⟩
  · rintro ⟨hw, u, d, hd, rfl⟩
    refine ⟨d :: w, [], List.suffix_append u _, ?_⟩
    refine (reads_one _).mem_bind.mpr ⟨[d], w, ⟨d, by simpa [or_assoc] using hd, rfl⟩, rfl, ?_⟩
    exact mem_keyEnd.mpr ⟨rfl, rfl, hw⟩

lemma keyHead?_eq_some_iff {line w : List Char} :
    keyHead? line = some w ↔ EndsInKey line w := by
  have hfinds {w : List Char} (h : delimitedKey.Finds line w) : EndsInKey line w := by
    obtain ⟨hw, u, d, hd, rfl⟩ := finds_delimitedKey.mp h
    exact ⟨hw, u ++ [d], by simpa using hd, by simp⟩
  show (keyEnd.first? line).or (delimitedKey.search? line) = some w ↔ _
  rw [keyEnd_first?]
  split_ifs with hall
  · have hwhole : EndsInKey line line := ⟨List.all_eq_true.mp hall, [], by simp, rfl⟩
    rw [Option.some_or, Option.some_inj]
    constructor
    · rintro rfl
      exact hwhole
    · exact hwhole.unique
  · rw [Option.none_or, search?_eq_some_iff fun a b ha hb => (hfinds ha).unique (hfinds hb)]
    refine ⟨hfinds, fun h => finds_delimitedKey.mpr ⟨h.keyChars, ?_⟩⟩
    obtain ⟨u, hu, rfl⟩ := h.line
    rcases List.eq_nil_or_concat u with rfl | ⟨u, d, rfl⟩
    · exact absurd (List.all_eq_true.mpr h.keyChars) hall
    · exact ⟨u, d, hu d (by simp), by simp⟩

/-- A line that ends in a key does not end in a value. -/
lemma EndsInKey.not_endsInValue {line w key v : List Char} (h : EndsInKey line w) :
    ¬ EndsInValue line key v := by
  intro hvalue
  obtain ⟨u, hu, rfl⟩ := h.line
  obtain ⟨x, -, heq⟩ := hvalue.line
  -- the last character before the run is a delimiter, and `=` and a value have none
  have hv : ∀ c ∈ '=' :: v, c ≠ '[' ∧ c ≠ '(' ∧ c ≠ ',' := by
    intro c hc
    rcases List.mem_cons.mp hc with rfl | hc
    · decide
    · have hplain := isPlain_iff.mp (hvalue.isValue.plain c hc)
      refine ⟨hplain.2.2.1, hplain.1, ?_⟩
      rintro rfl
      exact hvalue.isValue.not_mem_comma hc
  rw [← List.append_assoc] at heq
  rcases List.append_eq_append_iff.mp heq with ⟨y, -, hy⟩ | ⟨y, rfl, hy⟩
  · exact absurd (h.keyChars '=' (by rw [hy]; simp)) (by decide)
  · rcases List.eq_nil_or_concat y with rfl | ⟨y, d, rfl⟩
    · exact absurd (h.keyChars '=' (by rw [List.nil_append] at hy; rw [← hy]; simp)) (by decide)
    · obtain ⟨h₁, h₂, h₃⟩ := hv d (by rw [hy]; simp)
      rcases hu d (by simp) with hd | hd | hd
      · exact h₁ hd
      · exact h₂ hd
      · exact h₃ hd

/-! ### The token under a cursor -/

/-- A character that a value may go on with behind the cursor. -/
def goesOn (c : Char) : Bool := !isBlank c && isValueChar c

/-- The cursor stands on a token: `left` of it before the cursor and `right` behind. The line
without blanks ends with `typed` at the cursor. -/
inductive OnToken (c : Cursor) : (key typed left right : List Char) → Prop where
  | value {key left : List Char} (h : EndsInValue (dropBlanks c.before) key left)
      (hne : left ++ c.after.takeWhile goesOn ≠ []) :
      OnToken c key (key ++ '=' :: left) left (c.after.takeWhile goesOn)
  | key {left : List Char} (h : EndsInKey (dropBlanks c.before) left)
      (hne : left ++ c.after.takeWhile isKeyChar ≠ []) :
      OnToken c (left ++ c.after.takeWhile isKeyChar) left left (c.after.takeWhile isKeyChar)

namespace Token

variable {c : Cursor} (hc : '\n' ∉ c.before)
include hc

lemma value?_eq_some_iff {t : Token} :
    value? c = some t ↔ ∃ key left, EndsInValue (dropBlanks c.before) key left ∧
      left ++ c.after.takeWhile goesOn ≠ [] ∧ t = ⟨key, key ++ '=' :: left,
        c.span left.length (c.after.takeWhile goesOn).length⟩ := by
  have hgoes : (c.after.takeWhile fun ch => !isBlank ch && isValueChar ch) =
      c.after.takeWhile goesOn := rfl
  rw [value?, normalize_of_not_mem hc, Option.bind_eq_some_iff]
  constructor
  · rintro ⟨⟨whole, key, left⟩, hsearch, hsome⟩
    obtain ⟨hends, rfl⟩ := search?_assignmentEnd.mp hsearch
    simp only [hgoes] at hsome
    split_ifs at hsome with hempty
    refine ⟨key, left, hends, fun hnil => hempty ?_, (Option.some.inj hsome).symm⟩
    obtain ⟨h₁, h₂⟩ := List.append_eq_nil_iff.mp hnil
    rw [h₁, h₂]
    rfl
  · rintro ⟨key, left, hends, hne, rfl⟩
    refine ⟨_, hends.search?, ?_⟩
    simp only [hgoes]
    rw [if_neg]
    simpa using hne

lemma key?_eq_some_iff {t : Token} :
    key? c = some t ↔ ∃ left, EndsInKey (dropBlanks c.before) left ∧
      left ++ c.after.takeWhile isKeyChar ≠ [] ∧ t = ⟨left ++ c.after.takeWhile isKeyChar, left,
        c.span left.length (c.after.takeWhile isKeyChar).length⟩ := by
  rw [key?, normalize_of_not_mem hc, Option.bind_eq_some_iff]
  constructor
  · rintro ⟨left, hhead, hsome⟩
    simp only at hsome
    split_ifs at hsome with hempty
    refine ⟨left, keyHead?_eq_some_iff.mp hhead, fun hnil => hempty ?_,
      (Option.some.inj hsome).symm⟩
    obtain ⟨h₁, h₂⟩ := List.append_eq_nil_iff.mp hnil
    rw [h₁, h₂]
    rfl
  · rintro ⟨left, hends, hne, rfl⟩
    refine ⟨left, keyHead?_eq_some_iff.mpr hends, ?_⟩
    simp only
    rw [if_neg]
    simpa using hne

/-- **The token that is read is the one the cursor stands on.** -/
theorem at?_eq_some_iff {t : Token} :
    at? c = some t ↔ ∃ left right, OnToken c t.key t.typed left right ∧
      t.range = c.span left.length right.length := by
  rw [at?, Option.or_eq_some_iff]
  constructor
  · rintro (hvalue | ⟨-, hkey⟩)
    · obtain ⟨key, left, hends, hne, rfl⟩ := (value?_eq_some_iff hc).mp hvalue
      exact ⟨left, _, .value hends hne, rfl⟩
    · obtain ⟨left, hends, hne, rfl⟩ := (key?_eq_some_iff hc).mp hkey
      exact ⟨left, _, .key hends hne, rfl⟩
  · obtain ⟨key, typed, range⟩ := t
    rintro ⟨left, right, hon, hrange⟩
    simp only at hon hrange
    subst hrange
    cases hon with
    | value hends hne => exact Or.inl ((value?_eq_some_iff hc).mpr ⟨key, left, hends, hne, rfl⟩)
    | key hends hne =>
      refine Or.inr ⟨?_, (key?_eq_some_iff hc).mpr ⟨_, hends, hne, rfl⟩⟩
      cases hvalue : value? c with
      | none => rfl
      | some t =>
        obtain ⟨key, v, hends', -, -⟩ := (value?_eq_some_iff hc).mp hvalue
        exact absurd hends' hends.not_endsInValue

end Token

/-- No blank is a character of a key. -/
lemma isBlank_of_isKeyChar {c : Char} (h : isKeyChar c = true) : isBlank c = false := by
  by_contra hblank
  have hcode : c.toNat ∈ blankCodes := by simpa [isBlank] using hblank
  have hnone : ∀ n ∈ blankCodes, isKeyChar (Char.ofNat n) = false := by decide
  have := hnone _ hcode
  rw [Char.ofNat_toNat, h] at this
  cases this

/-- A cursor's line holds no line break. -/
lemma Cursor.not_mem_locate (text : List Char) (p : Position) :
    '\n' ∉ (locate text p).before ∧ '\n' ∉ (locate text p).after := by
  have hwhole (rest : List Char) : '\n' ∉ dropReturn (rest.takeWhile fun c => c != '\n') := by
    intro h
    have := List.mem_takeWhile_imp ((isPrefix_dropReturn _).subset h)
    simp at this
  rcases hlines : walkLines p.line text with ⟨above, line, rest⟩
  simp only [locate, hlines]
  split_ifs
  · exact ⟨hwhole _, List.not_mem_nil⟩
  · exact ⟨fun h => hwhole _ (List.mem_of_mem_take h), fun h => hwhole _ (List.mem_of_mem_drop h)⟩

namespace OnToken

variable {c : Cursor} {key typed left right : List Char}

/-- The line without blanks ends with the token's left part at the cursor. -/
lemma before (h : OnToken c key typed left right) : left <:+ dropBlanks c.before := by
  cases h with
  | value h _ =>
    obtain ⟨u, -, hline⟩ := h.line
    exact ⟨u ++ (key ++ ['=']), by rw [hline]; simp⟩
  | key h _ =>
    obtain ⟨u, -, hline⟩ := h.line
    exact ⟨u, hline.symm⟩

/-- The token's right part is what is written behind the cursor. -/
lemma after (h : OnToken c key typed left right) :
    c.after.take right.length = right ∧ ∀ x ∈ right, isBlank x = false := by
  cases h with
  | value _ _ =>
    refine ⟨(List.prefix_iff_eq_take.mp (List.takeWhile_prefix _)).symm, fun x hx => ?_⟩
    have := List.mem_takeWhile_imp hx
    rw [goesOn, Bool.and_eq_true, Bool.not_eq_true'] at this
    exact this.1
  | key _ _ =>
    exact ⟨(List.prefix_iff_eq_take.mp (List.takeWhile_prefix _)).symm,
      fun x hx => isBlank_of_isKeyChar (List.mem_takeWhile_imp hx)⟩

end OnToken

/-! ### What an answer marks -/

/-- The characters of a line that a span marks. -/
def LineSpan.marked (s : LineSpan) (line : List Char) : List Char := (line.take s.stop).drop s.start

lemma Cursor.marked_span (c : Cursor) (l r : Nat) :
    (c.span l r).marked c.wholeLine =
      c.before.drop (c.before.length - l) ++ c.after.take r := by
  rw [LineSpan.marked, span, wholeLine, column, List.take_length_add_append,
    List.drop_append_of_le_length (Nat.sub_le _ _)]

/-- As many characters at the end of a line as an ending of the line without blanks has: they are
that ending exactly if no blank is among them. -/
lemma dropBlanks_suffix_iff {line y left : List Char} (hy : y <:+ line)
    (hlen : y.length = left.length) (h : left <:+ dropBlanks line) :
    dropBlanks y <:+ left ∧ (dropBlanks y = left ↔ ∀ x ∈ y, isBlank x = false) := by
  have hle : (dropBlanks y).length ≤ left.length := hlen ▸ List.length_filter_le _ _
  have hsuffix : dropBlanks y <:+ left :=
    List.suffix_of_suffix_length_le (hy.filter _) h hle
  refine ⟨hsuffix, fun heq => ?_, fun hblank => hsuffix.eq_of_length ?_⟩
  · have hall := List.length_filter_eq_length_iff.mp ((congrArg List.length heq).trans hlen.symm)
    exact fun x hx => by simpa using hall x hx
  · rw [← hlen]
    exact List.length_filter_eq_length_iff.mpr fun x hx => by simp [hblank x hx]

/-- An explanation is about the key of its token and marks the token's range. -/
lemma Hover.explain?_token {g : Grammar} {o : Options} {c : Cursor} {t : Token} {h : HoverCard}
    (hh : explain? g o c t = some h) : h.key.toList = t.key ∧ h.range = t.range := by
  unfold explain? at hh
  simp only at hh
  split at hh
  · obtain rfl := Option.some.inj hh
    exact ⟨String.toList_ofList, rfl⟩
  · obtain ⟨ctx, -, hf⟩ := Option.bind_eq_some_iff.mp hh
    obtain ⟨f, -, rfl⟩ := Option.map_eq_some_iff.mp hf
    exact ⟨String.toList_ofList, rfl⟩

/-- An answer explains the token under a cursor outside of comments. -/
lemma Hover.card?_eq_some_iff {g : Grammar} {o : Options} {c : Cursor} {h : HoverCard} :
    card? g o c = some h ↔
      c.inComment = false ∧ ∃ t, Token.at? c = some t ∧ explain? g o c t = some h := by
  cases hin : c.inComment with
  | true => simp [card?, hin]
  | false => simp [card?, hin, Option.bind_eq_some_iff]

namespace Engine

/-- **What an answer marks.** The answer at a position is about the token that the cursor stands
on, and there is one. Its range marks an ending of that token and then whatever blanks lie among
as many characters; it marks the token itself exactly if it marks no blank. -/
theorem hover_marks (e : Engine) {text : List Char} {p : Position} {h : HoverCard}
    (hh : e.hover text p = some h) :
    let c := Cursor.locate text p
    (∃ typed left right, OnToken c h.key.toList typed left right) ∧
      ∀ key typed left right, OnToken c key typed left right →
        key = h.key.toList ∧ h.range = c.span left.length right.length ∧
          dropBlanks (h.range.marked c.wholeLine) <:+ left ++ right ∧
          (dropBlanks (h.range.marked c.wholeLine) = left ++ right ↔
            ∀ x ∈ h.range.marked c.wholeLine, isBlank x = false) := by
  intro c
  have hbreak : '\n' ∉ c.before := (Cursor.not_mem_locate text p).1
  obtain ⟨-, t, hat, hexplain⟩ := Hover.card?_eq_some_iff.mp hh
  obtain ⟨hkey, hrange⟩ := Hover.explain?_token hexplain
  constructor
  · obtain ⟨left, right, hon, -⟩ := (Token.at?_eq_some_iff hbreak).mp hat
    exact ⟨t.typed, left, right, hkey ▸ hon⟩
  · intro key typed left right hon
    have hsame : Token.at? c = some ⟨key, typed, c.span left.length right.length⟩ :=
      (Token.at?_eq_some_iff hbreak).mpr ⟨left, right, hon, rfl⟩
    obtain rfl := Option.some.inj (hat.symm.trans hsame)
    obtain ⟨htake, hright⟩ := hon.after
    have hle : left.length ≤ c.before.length :=
      hon.before.length_le.trans (List.length_filter_le _ _)
    have hlen : (c.before.drop (c.before.length - left.length)).length = left.length := by
      rw [List.length_drop]
      omega
    obtain ⟨⟨t, ht⟩, hiff⟩ := dropBlanks_suffix_iff (List.drop_suffix _ _) hlen hon.before
    refine ⟨hkey.symm, hrange, ?_⟩
    rw [hrange, c.marked_span, htake, dropBlanks_append, dropBlanks_of_forall hright]
    refine ⟨⟨t, by rw [← List.append_assoc, ht]⟩, ?_⟩
    rw [List.append_cancel_right_eq, hiff]
    simp only [List.mem_append, or_imp, forall_and]
    exact (and_iff_left hright).symm

/-- With blanks around it only, the value under the cursor is marked. -/
theorem hover_marks_threshold :
    let e : Engine := ⟨Grammar.standard, {}⟩
    let text := "NRN=[(nid=a, thr = 1.0mV)]".toList
    let c := Cursor.locate text ⟨0, 22⟩
    ∃ h, e.hover text ⟨0, 22⟩ = some h ∧
      OnToken c "thr".toList "thr=1.0".toList "1.0".toList "mV".toList ∧
      h.range = ⟨0, 19, 24⟩ ∧ dropBlanks (h.range.marked c.wholeLine) = "1.0mV".toList := by
  intro e text c
  obtain ⟨h, hh⟩ : ∃ h, e.hover text ⟨0, 22⟩ = some h :=
    Option.isSome_iff_exists.mp (by decide +kernel)
  have hon : OnToken c "thr".toList "thr=1.0".toList "1.0".toList "mV".toList := by
    have hright : c.after.takeWhile goesOn = "mV".toList := by decide +kernel
    rw [← hright]
    have hlast : "NRN=[(nid=a,".toList.getLast? = some ',' := by decide
    refine .value ⟨by decide, by decide, "NRN=[(nid=a,".toList, ?_, by decide +kernel⟩ (by simp)
    rw [hlast]
    rintro _ ⟨⟩
    decide
  obtain ⟨-, hrange, -, hiff⟩ := (hover_marks e hh).2 _ _ _ _ hon
  have hspan : h.range = ⟨0, 19, 24⟩ := hrange.trans (by decide +kernel)
  have hblank : (h.range.marked c.wholeLine).all (fun x => !isBlank x) = true := by
    rw [hspan]
    decide +kernel
  refine ⟨h, hh, hon, hspan, hiff.mpr fun x hx => ?_⟩
  simpa using List.all_eq_true.mp hblank x hx

/-- A blank in the value makes the mark one character short: the columns of the range are those of
the value without blanks. -/
theorem hover_mark_short :
    let e : Engine := ⟨Grammar.standard, {}⟩
    let text := "NRN=[(nid=a,thr=1.0 mV)]".toList
    let c := Cursor.locate text ⟨0, 22⟩
    ∃ h, e.hover text ⟨0, 22⟩ = some h ∧
      OnToken c h.key.toList "thr=1.0mV".toList "1.0mV".toList [] ∧
      h.range.marked c.wholeLine = ".0 mV".toList ∧
      dropBlanks (h.range.marked c.wholeLine) ≠ "1.0mV".toList ++ [] := by
  intro e text c
  have hcard : (e.hover text ⟨0, 22⟩).map (fun h => (h.key, h.range)) =
      some ("thr", ⟨0, 17, 22⟩) := by
    decide +kernel
  obtain ⟨h, hh, hfacts⟩ := Option.map_eq_some_iff.mp hcard
  obtain ⟨hkey, hrange⟩ := Prod.mk.inj hfacts
  refine ⟨h, hh, ?_, ?_⟩
  · have hright : c.after.takeWhile goesOn = [] := by decide +kernel
    rw [hkey, ← hright]
    have hlast : "NRN=[(nid=a,".toList.getLast? = some ',' := by decide
    refine .value ⟨by decide, by decide, "NRN=[(nid=a,".toList, ?_, by decide +kernel⟩ (by simp)
    rw [hlast]
    rintro _ ⟨⟩
    decide
  · rw [hrange]
    decide +kernel

end Engine

end TopologyAssist
