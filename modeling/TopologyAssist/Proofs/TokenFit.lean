import Mathlib.Algebra.Group.Nat.Defs
import TopologyAssist.Proofs.FieldHover
import TopologyAssist.Proofs.Positions

/-!
The token under a cursor fits the text it was read from.

The token is read from the cursor's line alone, without blanks, and then goes off the end of the
whole text before the cursor, which lost its closed comments and its blanks together. Its range
counts the columns of the line as it is written.

* `Cursor.Found.normalize_preceding` — the lines above the cursor's line are whole, so no comment
  of theirs reaches into it;
* `Token.Fits text c t left right` — what was typed of the token ends the text before the cursor,
  and the range keeps to the line: neither does its start fall short of zero nor does its end leave
  the words that can count the text;
* `Token.at?_iff_fits` — a token is read exactly if the cursor stands on it, and then it fits.
-/

namespace TopologyAssist

/-! ### The cursor's line in the text -/

namespace Cursor

lemma length_wholeLine (c : Cursor) : c.wholeLine.length = c.column + c.after.length :=
  List.length_append

namespace Found

variable {text : List Char} {p : Position} {c : Cursor}

/-- **The text before a cursor loses its layout line by line**: the lines above lose theirs, and no
comment of theirs reaches into the cursor's line, which loses its blanks alone. -/
lemma normalize_preceding (hc : Found text p c) :
    normalize c.preceding = normalize c.above ++ dropBlanks c.before := by
  rw [preceding, hc.above_line.1.normalize_append, normalize_of_not_mem hc.not_mem_before]

lemma length_wholeLine_le (hc : Found text p c) : c.wholeLine.length ≤ text.length := by
  have hle := hc.above_line.2.2.2.length_le
  rw [List.length_append] at hle
  omega

end Found

end Cursor

/-! ### What a token takes of the line -/

lemma dropEnding_append_of_suffix {ending cs : List Char} (h : ending <:+ cs) :
    dropEnding ending cs ++ ending = cs := by
  obtain ⟨u, rfl⟩ := h
  rw [dropEnding_append]

namespace OnToken

variable {c : Cursor} {key typed left right : List Char}

/-- What was typed of a token ends the line without blanks. -/
lemma typed_suffix (h : OnToken c key typed left right) : typed <:+ dropBlanks c.before := by
  cases h with
  | value h _ =>
    obtain ⟨u, -, hline⟩ := h.line
    exact ⟨u, hline.symm⟩
  | key h _ =>
    obtain ⟨u, -, hline⟩ := h.line
    exact ⟨u, hline.symm⟩

lemma length_left_le (h : OnToken c key typed left right) : left.length ≤ c.column :=
  h.before.length_le.trans (List.length_filter_le _ _)

lemma length_right_le (h : OnToken c key typed left right) : right.length ≤ c.after.length := by
  rw [← h.after.1]
  exact List.length_take_le' _ _

/-- A token has a character on one side of the cursor. -/
lemma length_pos (h : OnToken c key typed left right) : 0 < left.length + right.length := by
  rw [← List.length_append, List.length_pos_iff]
  cases h with
  | value _ hne => exact hne
  | key _ hne => exact hne

end OnToken

/-! ### The token in the text -/

/-- The token `t` fits the text it was read from, `left` of it standing before the cursor and
`right` behind. -/
structure Token.Fits (text : List Char) (c : Cursor) (t : Token) (left right : List Char) :
    Prop where
  typed_suffix : t.typed <:+ normalize c.preceding
  /-- What hover takes for the text before the token makes up the whole with it. -/
  dropEnding_append : dropEnding t.typed (normalize c.preceding) ++ t.typed = normalize c.preceding
  line_eq : t.range.line = c.line
  wholeLine_eq : (textLines text)[t.range.line]? = some c.wholeLine
  /-- The subtraction does not stop at zero. -/
  start_add : t.range.start + left.length = c.column
  stop_eq : t.range.stop = c.column + right.length
  start_lt_stop : t.range.start < t.range.stop
  around : t.range.start ≤ c.column ∧ c.column ≤ t.range.stop
  stop_le : t.range.stop ≤ c.wholeLine.length
  /-- A text in memory has no more characters than a word can count. In words of that width neither
  end wraps. -/
  words : ∀ w, text.length < 2 ^ w →
    (BitVec.ofNat w c.column - BitVec.ofNat w left.length).toNat = t.range.start ∧
      (BitVec.ofNat w c.column + BitVec.ofNat w right.length).toNat = t.range.stop

/-- Words wide enough for a sum count the sum, and the difference of what is not greater. -/
lemma toNat_words {w a b n : Nat} (hb : b ≤ a) (hn : a + n < 2 ^ w) :
    (BitVec.ofNat w a - BitVec.ofNat w b).toNat = a - b ∧
      (BitVec.ofNat w a + BitVec.ofNat w n).toNat = a + n := by
  have ha : (BitVec.ofNat w a).toNat = a := Nat.mod_eq_of_lt (by omega)
  have hb' : (BitVec.ofNat w b).toNat = b := Nat.mod_eq_of_lt (by omega)
  have hn' : (BitVec.ofNat w n).toNat = n := Nat.mod_eq_of_lt (by omega)
  constructor
  · rw [BitVec.toNat_sub_of_le (by rw [BitVec.le_def, ha, hb']; exact hb), ha, hb']
  · rw [BitVec.toNat_add_of_lt (by rw [ha, hn']; exact hn), ha, hn']

/-- A token with the span of its two parts fits. -/
lemma OnToken.fits {text : List Char} {p : Position} {c : Cursor} (hc : Cursor.Found text p c)
    {t : Token} {left right : List Char} (h : OnToken c t.key t.typed left right)
    (hrange : t.range = c.span left.length right.length) : t.Fits text c left right := by
  have hsuffix : t.typed <:+ normalize c.preceding := by
    rw [hc.normalize_preceding]
    exact h.typed_suffix.trans (List.suffix_append _ _)
  have hline : t.range.line = c.line := by rw [hrange, Cursor.span]
  have hstart : t.range.start = c.column - left.length := by rw [hrange, Cursor.span]
  have hstop : t.range.stop = c.column + right.length := by rw [hrange, Cursor.span]
  have hleft := h.length_left_le
  have hright := h.length_right_le
  have hpos := h.length_pos
  have hlength := c.length_wholeLine
  refine
    { typed_suffix := hsuffix
      dropEnding_append := dropEnding_append_of_suffix hsuffix
      line_eq := hline
      wholeLine_eq := hline ▸ hc.wholeLine_eq
      start_add := by omega
      stop_eq := hstop
      start_lt_stop := by omega
      around := by omega
      stop_le := by omega
      words := fun w hw => ?_ }
  have htext := hc.length_wholeLine_le
  rw [hstart, hstop]
  exact toNat_words hleft (by omega)

/-- **A token that is read fits the text.** A token is read at a position exactly if the cursor
stands on it, as a value with its key before it or as a key, and it has the range of its two parts
around the cursor. What was typed of it then ends the text before the cursor, so that the text
before the token and the token make up the whole. The range is not empty and keeps to a line of
the text on both sides of the cursor; its start is the cursor's column less the characters that
stand before the cursor, and neither end leaves the words that can count the text. -/
theorem Token.at?_iff_fits (text : List Char) (p : Position) (t : Token) :
    Token.at? (Cursor.locate text p) = some t ↔
      ∃ left right, OnToken (Cursor.locate text p) t.key t.typed left right ∧
        t.Fits text (Cursor.locate text p) left right := by
  rw [Token.at?_eq_some_iff (Cursor.not_mem_locate text p).1]
  constructor
  · rintro ⟨left, right, hon, hrange⟩
    exact ⟨left, right, hon, hon.fits (Cursor.found_locate text p) hrange⟩
  · rintro ⟨left, right, hon, hfits⟩
    refine ⟨left, right, hon, ?_⟩
    have hstart : t.range.start = (Cursor.locate text p).column - left.length := by
      have hadd := hfits.start_add
      omega
    rw [Cursor.span, ← hfits.line_eq, ← hfits.stop_eq, ← hstart]

/-- A comment above that ends like an assignment, blanks around `=` and one in the value: what was
typed ends the text before the cursor all the same, and the range keeps to the second line. -/
theorem Token.at?_iff_fits_threshold :
    let text := "NRN=[(nid=a, // thr=\r\n  thr = 1.0 mV)]".toList
    let c := Cursor.locate text ⟨1, 13⟩
    let t : Token := ⟨"thr".toList, "thr=1.0m".toList, ⟨1, 9, 14⟩⟩
    Token.at? c = some t ∧ normalize c.preceding = "NRN=[(nid=a,thr=1.0m".toList ∧
      ∃ left right, OnToken c t.key t.typed left right ∧ t.Fits text c left right := by
  intro text c t
  have hat : Token.at? c = some t := by decide +kernel
  exact ⟨hat, by decide +kernel, (Token.at?_iff_fits text ⟨1, 13⟩ t).mp hat⟩

end TopologyAssist
