import Mathlib.Algebra.Group.Nat.Defs
import Mathlib.Data.List.TakeDrop
import TopologyAssist.Cli.Run
import TopologyAssist.Proofs.Pieces

/-!
Positions as a person writes them.

A position is read by cutting the text at its first colon, trimming both sides and folding their
digits. Here the accepted texts are described as they are written.

* `Numeral cs n` — `cs` is a plus sign or none and digits of the number `n`;
* `Written cs n` — such a numeral with blanks around it;
* `WritesPlace raw n m` — `raw` is two of them with a colon between them, of numbers from one up to
  the greatest machine word;
* `readPosition_grammar` — these texts are read, with one taken off both numbers, and no others. So
  what is shown of a position is read back as that position.
-/

namespace TopologyAssist.Cli

/-! ### Numbers -/

/-- Digits of the number `n`, with or without a plus sign before them. -/
def Numeral (cs : List Char) (n : Nat) : Prop :=
  ∃ digits, (cs = digits ∨ cs = '+' :: digits) ∧ digits ≠ [] ∧ (∀ c ∈ digits, c.isDigit = true) ∧
    Nat.ofDigitChars 10 digits 0 = n

/-- A numeral of the number `n`, with or without blanks around it. -/
def Written (cs : List Char) (n : Nat) : Prop :=
  ∃ left body right, cs = left ++ body ++ right ∧ (∀ c ∈ left, isBlank c = true) ∧
    (∀ c ∈ right, isBlank c = true) ∧ Numeral body n

lemma not_isBlank_of_isDigit {c : Char} (h : c.isDigit = true) : isBlank c = false := by
  have hcode : 48 ≤ c.toNat ∧ c.toNat ≤ 57 := by
    unfold Char.isDigit at h
    rw [Bool.and_eq_true, decide_eq_true_eq, decide_eq_true_eq] at h
    exact h
  unfold isBlank blankCodes
  simp only [List.contains_eq_mem, decide_eq_false_iff_not, List.mem_cons, List.not_mem_nil,
    or_false]
  omega

/-! ### Blanks around a text -/

/-- Trimming takes blanks away at both ends. -/
lemma exists_trimBlank (cs : List Char) :
    ∃ left right, cs = left ++ trimBlank cs ++ right ∧ (∀ c ∈ left, isBlank c = true) ∧
      ∀ c ∈ right, isBlank c = true := by
  refine ⟨cs.takeWhile isBlank, ((cs.dropWhile isBlank).reverse.takeWhile isBlank).reverse,
    ?_, ?_, ?_⟩
  · have hright : cs.dropWhile isBlank =
        trimBlank cs ++ ((cs.dropWhile isBlank).reverse.takeWhile isBlank).reverse := by
      unfold trimBlank
      rw [← List.reverse_append, List.takeWhile_append_dropWhile, List.reverse_reverse]
    rw [List.append_assoc, ← hright, List.takeWhile_append_dropWhile]
  · intro c hc
    exact List.mem_takeWhile_imp hc
  · intro c hc
    exact List.mem_takeWhile_imp (List.mem_reverse.mp hc)

/-- A text that neither begins nor ends with a blank is what is left of it with blanks around. -/
lemma trimBlank_of_ends {left body right : List Char} (hleft : ∀ c ∈ left, isBlank c = true)
    (hright : ∀ c ∈ right, isBlank c = true) (hne : body ≠ [])
    (hfirst : ∀ c ∈ body.head?, isBlank c = false) (hlast : ∀ c ∈ body.getLast?, isBlank c = false) :
    trimBlank (left ++ body ++ right) = body := by
  have hstart : (left ++ body ++ right).dropWhile isBlank = body ++ right := by
    rw [List.append_assoc, List.dropWhile_append_of_pos hleft]
    cases body with
    | nil => exact absurd rfl hne
    | cons c body =>
      rw [List.cons_append, List.dropWhile_cons_of_neg]
      rw [hfirst c rfl]
      exact Bool.false_ne_true
  unfold trimBlank
  rw [hstart, List.reverse_append,
    List.dropWhile_append_of_pos fun c hc => hright c (List.mem_reverse.mp hc)]
  rcases List.eq_nil_or_concat body with rfl | ⟨front, c, rfl⟩
  · exact absurd rfl hne
  · rw [List.concat_eq_append] at hlast ⊢
    have hc : isBlank c = false := hlast c (by simp)
    rw [List.reverse_append, List.reverse_singleton, List.singleton_append,
      List.dropWhile_cons_of_neg (by rw [hc]; exact Bool.false_ne_true), List.reverse_cons,
      List.reverse_reverse]

/-- A numeral begins with its sign or a digit and ends with a digit. -/
lemma Numeral.trimBlank_eq {left body right : List Char} {n : Nat} (h : Numeral body n)
    (hleft : ∀ c ∈ left, isBlank c = true) (hright : ∀ c ∈ right, isBlank c = true) :
    trimBlank (left ++ body ++ right) = body := by
  obtain ⟨digits, hbody, hne, hdigits, -⟩ := h
  have hblank : ∀ c ∈ digits, isBlank c = false := fun c hc =>
    not_isBlank_of_isDigit (hdigits c hc)
  have hplus : isBlank '+' = false := by decide
  have hall : ∀ c ∈ body, isBlank c = false := by
    rcases hbody with rfl | rfl
    · exact hblank
    · intro c hc
      rcases List.mem_cons.mp hc with rfl | hc
      · exact hplus
      · exact hblank c hc
  have hbody_ne : body ≠ [] := by
    rcases hbody with rfl | rfl
    · exact hne
    · exact List.cons_ne_nil _ _
  apply trimBlank_of_ends hleft hright hbody_ne
  · intro c hc
    exact hall c (List.mem_of_mem_head? hc)
  · intro c hc
    exact hall c (List.mem_of_mem_getLast? hc)

lemma written_iff {cs : List Char} {n : Nat} : Written cs n ↔ Numeral (trimBlank cs) n := by
  constructor
  · rintro ⟨left, body, right, rfl, hleft, hright, hbody⟩
    rwa [hbody.trimBlank_eq hleft hright]
  · intro h
    obtain ⟨left, right, hcs, hleft, hright⟩ := exists_trimBlank cs
    exact ⟨left, trimBlank cs, right, hcs, hleft, hright, h⟩

/-! ### Reading a number -/

/-- A numeral without its sign. -/
def unsigned : List Char → List Char
  | '+' :: digits => digits
  | digits => digits

lemma unsigned_of_isDigit {digits : List Char} (h : ∀ c ∈ digits, c.isDigit = true) :
    unsigned digits = digits := by
  unfold unsigned
  split
  · have hplus := h '+' (by simp)
    exact absurd hplus (by decide)
  · rfl

lemma numeral_iff {cs : List Char} {n : Nat} :
    Numeral cs n ↔ unsigned cs ≠ [] ∧ (∀ c ∈ unsigned cs, c.isDigit = true) ∧
      Nat.ofDigitChars 10 (unsigned cs) 0 = n := by
  constructor
  · rintro ⟨digits, rfl | rfl, hne, hdigits, hn⟩
    · rw [unsigned_of_isDigit hdigits]
      exact ⟨hne, hdigits, hn⟩
    · exact ⟨hne, hdigits, hn⟩
  · rintro ⟨hne, hdigits, hn⟩
    refine ⟨unsigned cs, ?_, hne, hdigits, hn⟩
    unfold unsigned
    split
    · exact Or.inr rfl
    · exact Or.inl rfl

lemma foldl_digits (digits : List Char) :
    digits.foldl (fun n c => n * 10 + (c.toNat - '0'.toNat)) 0 = Nat.ofDigitChars 10 digits 0 := by
  unfold Nat.ofDigitChars
  congr 1
  funext n c
  rw [Nat.mul_comm]

/-- **A number is read where one is written** that a machine word can hold. -/
theorem readNumber?_eq_some_iff {cs : List Char} {n : Nat} :
    readNumber? cs = some n ↔ Written cs n ∧ n < wordLimit := by
  have hread : readNumber? cs =
      if (unsigned (trimBlank cs)).isEmpty || !(unsigned (trimBlank cs)).all Char.isDigit then none
      else if Nat.ofDigitChars 10 (unsigned (trimBlank cs)) 0 < wordLimit then
        some (Nat.ofDigitChars 10 (unsigned (trimBlank cs)) 0)
      else none := by
    rw [← foldl_digits]
    rfl
  rw [hread, written_iff, numeral_iff]
  generalize unsigned (trimBlank cs) = digits
  by_cases hdigits : digits ≠ [] ∧ ∀ c ∈ digits, c.isDigit = true
  · have hcheck : (digits.isEmpty || !digits.all Char.isDigit) = false := by
      simpa using hdigits
    rw [hcheck, if_neg Bool.false_ne_true]
    constructor
    · intro h
      split_ifs at h with hlt
      obtain rfl := Option.some.inj h
      exact ⟨⟨hdigits.1, hdigits.2, rfl⟩, hlt⟩
    · rintro ⟨⟨-, -, rfl⟩, hlt⟩
      rw [if_pos hlt]
  · have hcheck : (digits.isEmpty || !digits.all Char.isDigit) = true := by
      by_contra hfalse
      exact hdigits (by simpa using hfalse)
    rw [hcheck, if_pos rfl]
    constructor
    · intro h
      cases h
    · rintro ⟨⟨hne, hall, -⟩, -⟩
      exact absurd ⟨hne, hall⟩ hdigits

/-! ### Reading a position -/

/-- Two numbers with a colon between them, the first one of the text: a line and a column from one,
each of which a machine word can hold. -/
def WritesPlace (raw : String) (n m : Nat) : Prop :=
  ∃ a b, raw.toList = a ++ ':' :: b ∧ ':' ∉ a ∧ Written a n ∧ Written b m ∧
    (1 ≤ n ∧ n ≤ 2 ^ 64 - 1) ∧ 1 ≤ m ∧ m ≤ 2 ^ 64 - 1

lemma bne_colon {a : List Char} (ha : ':' ∉ a) : ∀ c ∈ a, (c != ':') = true := by
  intro c hc
  rw [bne_iff_ne]
  rintro rfl
  exact ha hc

lemma span_colon {a : List Char} (ha : ':' ∉ a) (b : List Char) :
    (a ++ ':' :: b).span (fun c => c != ':') = (a, ':' :: b) := by
  rw [List.span_eq_takeWhile_dropWhile, List.takeWhile_append_of_pos (bne_colon ha),
    List.dropWhile_append_of_pos (bne_colon ha)]
  simp

lemma readPosition?_of_not_mem {raw : String} (h : ':' ∉ raw.toList) : readPosition? raw = none := by
  have hspan : raw.toList.span (fun c => c != ':') = (raw.toList, []) := by
    rw [List.span_eq_takeWhile_dropWhile, List.takeWhile_eq_self_iff.mpr (bne_colon h),
      List.dropWhile_eq_nil_iff.mpr (bne_colon h)]
  unfold readPosition?
  rw [hspan]

/-- Both sides of the first colon are read as numbers from one. -/
lemma readPosition?_append {raw : String} {a b : List Char} (hraw : raw.toList = a ++ ':' :: b)
    (ha : ':' ∉ a) (p : Position) :
    readPosition? raw = some p ↔ ∃ n m, readNumber? a = some n ∧ readNumber? b = some m ∧
      n ≠ 0 ∧ m ≠ 0 ∧ p = ⟨n - 1, m - 1⟩ := by
  unfold readPosition?
  rw [hraw, span_colon ha]
  simp only [bind, Option.bind_eq_some_iff]
  refine exists_congr fun n => ?_
  constructor
  · rintro ⟨hn, m, hm, hplace⟩
    split_ifs at hplace with hzero
    obtain ⟨hn0, hm0⟩ := not_or.mp hzero
    exact ⟨m, hn, hm, hn0, hm0, (Option.some.inj hplace).symm⟩
  · rintro ⟨m, hn, hm, hn0, hm0, rfl⟩
    refine ⟨hn, m, hm, ?_⟩
    rw [if_neg (not_or.mpr ⟨hn0, hm0⟩)]
    rfl

/-- **A position is read where one is written**, and it counts from zero. -/
theorem readPosition?_eq_some_iff {raw : String} {p : Position} :
    readPosition? raw = some p ↔ ∃ n m, WritesPlace raw n m ∧ p = ⟨n - 1, m - 1⟩ := by
  have hlimit : wordLimit = 2 ^ 64 := by decide
  constructor
  · intro h
    rcases not_mem_or_split ':' raw.toList with hnone | ⟨a, b, ha, hraw⟩
    · rw [readPosition?_of_not_mem hnone] at h
      cases h
    · obtain ⟨n, m, hn, hm, hn0, hm0, hp⟩ := (readPosition?_append hraw ha p).mp h
      obtain ⟨hwa, hna⟩ := readNumber?_eq_some_iff.mp hn
      obtain ⟨hwb, hmb⟩ := readNumber?_eq_some_iff.mp hm
      rw [hlimit] at hna hmb
      exact ⟨n, m, ⟨a, b, hraw, ha, hwa, hwb, by omega, by omega⟩, hp⟩
  · rintro ⟨n, m, ⟨a, b, hraw, ha, hwa, hwb, hn, hm⟩, hp⟩
    refine (readPosition?_append hraw ha p).mpr ⟨n, m, ?_, ?_, by omega, by omega, hp⟩
    · exact readNumber?_eq_some_iff.mpr ⟨hwa, by omega⟩
    · exact readNumber?_eq_some_iff.mpr ⟨hwb, by omega⟩

/-- A position is read, or what was written is named. -/
lemma readPosition_eq_ok_iff {raw : String} {p : Position} :
    readPosition raw = .ok p ↔ readPosition? raw = some p := by
  unfold readPosition
  cases readPosition? raw with
  | some q => simp
  | none => simp

/-! ### Writing a position -/

lemma written_toDigits (n : Nat) : Written (Nat.toDigits 10 n) n := by
  refine ⟨[], Nat.toDigits 10 n, [], by simp, by simp, by simp, ?_⟩
  refine ⟨Nat.toDigits 10 n, Or.inl rfl, Nat.toDigits_ne_nil, ?_, Nat.ofDigitChars_ten_toDigits⟩
  intro c hc
  exact Nat.isDigit_of_mem_toDigits (by decide) (by decide) hc

/-- What is shown of a position writes its place, from one. -/
lemma writesPlace_display {p : Position} (hline : p.line < 2 ^ 64 - 1)
    (hcolumn : p.column < 2 ^ 64 - 1) : WritesPlace p.display (p.line + 1) (p.column + 1) := by
  refine ⟨Nat.toDigits 10 (p.line + 1), Nat.toDigits 10 (p.column + 1), ?_, ?_,
    written_toDigits _, written_toDigits _, by omega, by omega⟩
  · simp [Position.display, Nat.toString_eq_repr, Nat.toList_repr]
  · intro hcolon
    have hdigit := Nat.isDigit_of_mem_toDigits (by decide) (by decide) hcolon
    exact absurd hdigit (by decide)

/-- **Positions are read exactly as they are written.** A text is read if and only if it is two
numerals, with blanks around each or none, and a colon between them, of numbers that are not zero and
fit into a machine word; the position counts both from zero. Any other text is refused with an error
that names it. So what is shown of a position is read back as the position, and two texts that are
read give one position if and only if they write the same two numbers. -/
theorem readPosition_grammar (raw : String) :
    (∀ p, readPosition raw = .ok p ↔ ∃ n m, WritesPlace raw n m ∧ p = ⟨n - 1, m - 1⟩) ∧
    ((∀ n m, ¬ WritesPlace raw n m) → readPosition raw = .error (.badPosition raw)) ∧
    (∀ p : Position, p.line < 2 ^ 64 - 1 → p.column < 2 ^ 64 - 1 →
      readPosition p.display = .ok p) ∧
    ∀ raw' n m n' m', WritesPlace raw n m → WritesPlace raw' n' m' →
      (readPosition raw = readPosition raw' ↔ n = n' ∧ m = m') := by
  have hok : ∀ raw p, readPosition raw = .ok p ↔ ∃ n m, WritesPlace raw n m ∧ p = ⟨n - 1, m - 1⟩ :=
    fun raw p => readPosition_eq_ok_iff.trans readPosition?_eq_some_iff
  refine ⟨hok raw, ?_, ?_, ?_⟩
  · intro hnone
    unfold readPosition
    cases hread : readPosition? raw with
    | none => rfl
    | some p =>
      obtain ⟨n, m, hwrites, -⟩ := readPosition?_eq_some_iff.mp hread
      exact absurd hwrites (hnone n m)
  · intro p hline hcolumn
    exact (hok _ p).mpr ⟨p.line + 1, p.column + 1, writesPlace_display hline hcolumn, rfl⟩
  · intro raw' n m n' m' hwrites hwrites'
    rw [(hok raw _).mpr ⟨n, m, hwrites, rfl⟩, (hok raw' _).mpr ⟨n', m', hwrites', rfl⟩,
      Except.ok.injEq, Position.mk.injEq]
    -- neither number is zero, so taking one off tells them apart
    obtain ⟨-, -, -, -, -, -, hn, hm⟩ := hwrites
    obtain ⟨-, -, -, -, -, -, hn', hm'⟩ := hwrites'
    constructor
    · rintro ⟨hnn, hmm⟩
      exact ⟨by omega, by omega⟩
    · rintro ⟨rfl, rfl⟩
      exact ⟨rfl, rfl⟩

/-- Signs, zeros in front and blanks of any sort make no difference, up to the greatest machine word;
a second colon is no digit. -/
theorem readPosition_grammar_blanks :
    WritesPlace "\u3000+07 :\t18446744073709551615\n" 7 18446744073709551615 ∧
    WritesPlace "7:+018446744073709551615" 7 18446744073709551615 ∧
    readPosition "\u3000+07 :\t18446744073709551615\n" = .ok ⟨6, 18446744073709551614⟩ ∧
    readPosition "\u3000+07 :\t18446744073709551615\n" =
      readPosition "7:+018446744073709551615" ∧
    readPosition (Position.display ⟨6, 18446744073709551614⟩) = .ok ⟨6, 18446744073709551614⟩ ∧
    (∀ n m, ¬ WritesPlace "1:2:3" n m) ∧
    readPosition "1:2:3" = .error (.badPosition "1:2:3") := by
  have hblanks : WritesPlace "\u3000+07 :\t18446744073709551615\n" 7 18446744073709551615 := by
    refine ⟨"\u3000+07 ".toList, "\t18446744073709551615\n".toList, by decide, by decide,
      written_iff.mpr (numeral_iff.mpr ⟨by decide, ?_, by decide⟩),
      written_iff.mpr (numeral_iff.mpr ⟨by decide, ?_, by decide⟩), by decide, by decide⟩
    · exact List.all_eq_true.mp (by decide)
    · exact List.all_eq_true.mp (by decide)
  have hzeros : WritesPlace "7:+018446744073709551615" 7 18446744073709551615 := by
    refine ⟨"7".toList, "+018446744073709551615".toList, by decide, by decide,
      written_iff.mpr (numeral_iff.mpr ⟨by decide, ?_, by decide⟩),
      written_iff.mpr (numeral_iff.mpr ⟨by decide, ?_, by decide⟩), by decide, by decide⟩
    · exact List.all_eq_true.mp (by decide)
    · exact List.all_eq_true.mp (by decide)
  have hcolon : ∀ n m, ¬ WritesPlace "1:2:3" n m := by
    intro n m hwrites
    have hread := ((readPosition_grammar "1:2:3").1 _).mpr ⟨n, m, hwrites, rfl⟩
    have hrefused : readPosition "1:2:3" = .error (.badPosition "1:2:3") := by decide
    rw [hrefused] at hread
    cases hread
  have hall := readPosition_grammar "\u3000+07 :\t18446744073709551615\n"
  exact ⟨hblanks, hzeros, (hall.1 _).mpr ⟨7, 18446744073709551615, hblanks, rfl⟩,
    (hall.2.2.2 _ _ _ _ _ hblanks hzeros).mpr ⟨rfl, rfl⟩,
    hall.2.2.1 _ (by decide) (by decide), hcolon, (readPosition_grammar "1:2:3").2.1 hcolon⟩

end TopologyAssist.Cli
