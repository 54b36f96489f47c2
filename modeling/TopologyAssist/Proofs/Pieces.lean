import Mathlib.Data.List.TakeWhile
import TopologyAssist.Proofs.Nesting

/-!
The pieces of a block between its commas.

The last piece of an open block says what is being typed: `assigned?` reads it as a key, `=` and a
value. The values that a plain text assigns to a key are those of its pieces one by one
(`assignments_append`, `assignments_piece`), although the search for them walks over the whole
text.
-/

namespace TopologyAssist

/-! ### Keys and values -/

/-- A key: one or more key characters. -/
def IsKey (key : List Char) : Prop := key ≠ [] ∧ ∀ c ∈ key, isKeyChar c = true

/-- A value, which may be empty. -/
def IsValue (v : List Char) : Prop := ∀ c ∈ v, isValueChar c = true

instance (key : List Char) : Decidable (IsKey key) :=
  decidable_of_iff (key ≠ [] ∧ key.all isKeyChar = true) (and_congr_right' List.all_eq_true)

instance (v : List Char) : Decidable (IsValue v) :=
  decidable_of_iff (v.all isValueChar = true) List.all_eq_true

lemma isValueChar_iff {c : Char} :
    isValueChar c = true ↔ isPlain c = true ∧ c ≠ ',' ∧ c ≠ '=' := by
  simp [isValueChar, endsValue, isPlain, and_assoc]

lemma isValueChar_of_isKeyChar {c : Char} (h : isKeyChar c = true) : isValueChar c = true := by
  by_contra hc
  simp only [isValueChar, endsValue, isBracket, Bool.not_eq_true, Bool.not_eq_false',
    Bool.or_eq_true, beq_iff_eq] at hc
  rcases hc with ((((rfl | rfl) | rfl) | rfl) | rfl) | rfl <;> exact absurd h (by decide)

namespace IsValue

variable {v : List Char}

lemma plain (hv : IsValue v) : ∀ c ∈ v, isPlain c = true :=
  fun c hc => (isValueChar_iff.mp (hv c hc)).1

lemma not_mem_comma (hv : IsValue v) : ',' ∉ v :=
  fun h => (isValueChar_iff.mp (hv ',' h)).2.1 rfl

lemma not_mem_equals (hv : IsValue v) : '=' ∉ v :=
  fun h => (isValueChar_iff.mp (hv '=' h)).2.2 rfl

lemma endsWith_close (hv : IsValue v) : endsWith ')' v = false :=
  endsWith_eq_false fun hmem => absurd (hv.plain _ hmem) (by decide)

end IsValue

lemma IsKey.isValue {key : List Char} (hk : IsKey key) : IsValue key :=
  fun c hc => isValueChar_of_isKeyChar (hk.2 c hc)

/-- `key=value` holds no bracket and no comma. -/
lemma plain_of_assignment {key v : List Char} (hk : IsKey key) (hv : IsValue v) :
    (∀ c ∈ key ++ '=' :: v, isPlain c = true) ∧ ',' ∉ key ++ '=' :: v := by
  constructor
  · intro c hc
    rcases List.mem_append.mp hc with h | h
    · exact hk.isValue.plain c h
    · rcases List.mem_cons.mp h with rfl | h
      · decide
      · exact hv.plain c h
  · simp [hk.isValue.not_mem_comma, hv.not_mem_comma]

/-! ### The last piece -/

/-- The text after the last `d`. -/
def afterLast (d : Char) (cs : List Char) : List Char :=
  (cs.reverse.takeWhile fun c => c != d).reverse

lemma afterLast_of_not_mem {d : Char} {u : List Char} (h : d ∉ u) : afterLast d u = u := by
  have hall : ∀ c ∈ u.reverse, (c != d) = true := by
    intro c hc
    rw [bne_iff_ne]
    rintro rfl
    exact h (List.mem_reverse.mp hc)
  rw [afterLast, List.takeWhile_eq_self_iff.mpr hall, List.reverse_reverse]

/-- What is before a `d` does not matter. -/
lemma afterLast_append_cons (d : Char) (u v : List Char) :
    afterLast d (u ++ d :: v) = afterLast d v := by
  have hrev : (u ++ d :: v).reverse = v.reverse ++ d :: u.reverse := by simp
  rw [afterLast, afterLast, hrev, List.takeWhile_append, List.takeWhile_cons_of_neg (by simp),
    List.append_nil]
  split_ifs with hlen
  · rw [(List.takeWhile_prefix _).eq_of_length hlen]
  · rfl

lemma lastPiece_of_not_mem {u : List Char} (h : ',' ∉ u) : lastPiece u = u :=
  afterLast_of_not_mem h

lemma lastPiece_append {u v : List Char} (h : ',' ∉ v) : lastPiece (u ++ ',' :: v) = v :=
  (afterLast_append_cons ',' u v).trans (afterLast_of_not_mem h)

/-- A text has its first `d`, or none. -/
lemma not_mem_or_split (d : Char) (cs : List Char) :
    d ∉ cs ∨ ∃ u v, d ∉ u ∧ cs = u ++ d :: v := by
  induction cs with
  | nil => exact Or.inl List.not_mem_nil
  | cons c cs ih =>
    by_cases hc : c = d
    · exact Or.inr ⟨[], cs, List.not_mem_nil, by rw [hc]; rfl⟩
    · rcases ih with h | ⟨u, v, hu, rfl⟩
      · exact Or.inl (by simp [Ne.symm hc, h])
      · exact Or.inr ⟨c :: u, v, by simp [Ne.symm hc, hu], rfl⟩

/-- A text has one first `d`. -/
lemma split_unique {d : Char} {u u' v v' : List Char} (hu : d ∉ u) (hu' : d ∉ u')
    (h : u ++ d :: v = u' ++ d :: v') : u = u' ∧ v = v' := by
  have hbefore : ∀ {u : List Char}, d ∉ u → ∀ v, (u ++ d :: v).takeWhile (fun c => c != d) = u := by
    intro u hu v
    have hall : ∀ c ∈ u, (c != d) = true := fun c hc => by
      rw [bne_iff_ne]
      rintro rfl
      exact hu hc
    rw [List.takeWhile_append_of_pos hall, List.takeWhile_cons_of_neg (by simp), List.append_nil]
  obtain rfl : u = u' := by rw [← hbefore hu v, h, hbefore hu' v']
  exact ⟨rfl, (List.cons.inj (List.append_cancel_left h)).2⟩

/-- A text has its last `d`, or none. -/
lemma not_mem_or_split_last (d : Char) (cs : List Char) :
    d ∉ cs ∨ ∃ u v, d ∉ v ∧ cs = u ++ d :: v := by
  rcases not_mem_or_split d cs.reverse with h | ⟨u, v, hu, hcs⟩
  · exact Or.inl fun hc => h (List.mem_reverse.mpr hc)
  · refine Or.inr ⟨v.reverse, u.reverse, fun hc => hu (List.mem_reverse.mp hc), ?_⟩
    have := congrArg List.reverse hcs
    simpa using this

/-- A text has one last `d`. -/
lemma split_last_unique {d : Char} {u u' v v' : List Char} (hv : d ∉ v) (hv' : d ∉ v')
    (h : u ++ d :: v = u' ++ d :: v') : u = u' ∧ v = v' := by
  have hrev : v.reverse ++ d :: u.reverse = v'.reverse ++ d :: u'.reverse := by
    simpa using congrArg List.reverse h
  have hsplit := split_unique (by simpa using hv) (by simpa using hv') hrev
  exact ⟨List.reverse_inj.mp hsplit.2, List.reverse_inj.mp hsplit.1⟩

lemma afterLast_append_of_not_mem {d : Char} {t : List Char} (ht : d ∉ t) (u : List Char) :
    afterLast d (u ++ t) = afterLast d u ++ t := by
  rcases not_mem_or_split_last d u with h | ⟨x, y, hy, rfl⟩
  · rw [afterLast_of_not_mem h, afterLast_of_not_mem]
    exact fun hc => (List.mem_append.mp hc).elim h ht
  · rw [List.append_assoc, List.cons_append, afterLast_append_cons, afterLast_append_cons,
      afterLast_of_not_mem hy, afterLast_of_not_mem]
    exact fun hc => (List.mem_append.mp hc).elim hy ht

/-- The fields before the one at hand, with the comma that ends them. -/
def FieldsBefore (depth : Nat) (e : List Char) : Prop :=
  e = [] ∨ ∃ b, Nested depth b ∧ e = b ++ [',']

/-- What is before the last piece of a block is the earlier fields, if the piece has no
parentheses. -/
lemma exists_fieldsBefore {depth : Nat} {b : List Char} (hb : Nested depth b)
    (hp : ∀ c ∈ lastPiece b, isPlain c = true) :
    ∃ e, FieldsBefore depth e ∧ b = e ++ lastPiece b := by
  rcases not_mem_or_split_last ',' b with h | ⟨u, v, hv, rfl⟩
  · exact ⟨[], Or.inl rfl, by rw [lastPiece_of_not_mem h]; rfl⟩
  · rw [lastPiece_append hv] at hp ⊢
    have hv' : ∀ c ∈ ',' :: v, isPlain c = true := by
      intro c hc
      rcases List.mem_cons.mp hc with rfl | hc
      · decide
      · exact hp c hc
    exact ⟨u ++ [','], Or.inr ⟨u, hb.of_append_plain rfl hv', rfl⟩, by simp⟩

lemma FieldsBefore.nested {depth : Nat} {e : List Char} (he : FieldsBefore depth e) :
    Nested depth e := by
  rcases he with rfl | ⟨b, hb, rfl⟩
  · exact Nested.nil
  · exact hb.snoc (by decide)

lemma FieldsBefore.lastPiece {depth : Nat} {e v : List Char} (he : FieldsBefore depth e)
    (hv : ',' ∉ v) : TopologyAssist.lastPiece (e ++ v) = v := by
  rcases he with rfl | ⟨b, -, rfl⟩
  · exact lastPiece_of_not_mem hv
  · rw [List.append_assoc, List.singleton_append, lastPiece_append hv]

/-! ### What the last piece assigns -/

/-- The key and the value of a piece `key=value`. -/
def assigned? (piece : List Char) : Option (List Char × List Char) :=
  match piece.dropWhile isKeyChar with
  | [] => none
  | c :: v =>
    if c = '=' ∧ IsKey (piece.takeWhile isKeyChar) ∧ IsValue v
    then some (piece.takeWhile isKeyChar, v) else none

theorem assigned?_eq_some_iff {piece key v : List Char} :
    assigned? piece = some (key, v) ↔ IsKey key ∧ IsValue v ∧ piece = key ++ '=' :: v := by
  constructor
  · intro h
    unfold assigned? at h
    split at h
    · cases h
    · rename_i c w hdrop
      split_ifs at h with hc
      obtain ⟨rfl, rfl⟩ := Prod.mk.inj (Option.some.inj h)
      obtain ⟨rfl, hk, hv⟩ := hc
      refine ⟨hk, hv, ?_⟩
      rw [← hdrop, List.takeWhile_append_dropWhile]
  · rintro ⟨hk, hv, rfl⟩
    have htake : (key ++ '=' :: v).takeWhile isKeyChar = key := by
      rw [List.takeWhile_append_of_pos hk.2, List.takeWhile_cons_of_neg (by decide),
        List.append_nil]
    have hdrop : (key ++ '=' :: v).dropWhile isKeyChar = '=' :: v := by
      rw [List.dropWhile_append_of_pos hk.2, List.dropWhile_cons_of_neg (by decide)]
    unfold assigned?
    rw [hdrop, htake]
    simp [hk, hv]

/-- **The last piece of a block and its earlier fields.** -/
theorem assigned?_lastPiece_iff {depth : Nat} {b key v : List Char} (hb : Nested depth b) :
    assigned? (lastPiece b) = some (key, v) ↔
      IsKey key ∧ IsValue v ∧ ∃ e, FieldsBefore depth e ∧ b = e ++ (key ++ '=' :: v) := by
  rw [assigned?_eq_some_iff]
  constructor
  · rintro ⟨hk, hv, hp⟩
    obtain ⟨e, he, hbe⟩ := exists_fieldsBefore hb (by rw [hp]; exact (plain_of_assignment hk hv).1)
    exact ⟨hk, hv, e, he, by rw [← hp]; exact hbe⟩
  · rintro ⟨hk, hv, e, he, rfl⟩
    exact ⟨hk, hv, he.lastPiece (plain_of_assignment hk hv).2⟩

/-! ### Assignments piece by piece -/

/-- A needle without a comma that begins a piece and what follows it lies in the piece. -/
private lemma prefix_piece {needle u rest : List Char} (hn : ',' ∉ needle)
    (hrest : rest = [] ∨ ∃ v, rest = ',' :: v) (h : needle <+: u ++ rest) : needle <+: u := by
  rcases List.prefix_or_prefix_of_prefix h (List.prefix_append u rest) with h' | ⟨w, rfl⟩
  · exact h'
  · rw [List.prefix_append_right_inj] at h
    cases w with
    | nil => simp
    | cons d w =>
      obtain ⟨t, ht⟩ := h
      rcases hrest with rfl | ⟨v, rfl⟩
      · cases ht
      · obtain ⟨rfl, -⟩ := List.cons.inj ht
        exact absurd (by simp) hn

/-- A delimiter before a piece, and what may stand in it. -/
private def InPiece (u : List Char) : Prop := ∀ c ∈ u, c ≠ ',' ∧ c ≠ '('

private lemma beforeKey_eq_false {c : Char} (h : c ≠ ',' ∧ c ≠ '(') :
    beforeKey (some c) = false := by
  simp [beforeKey, h]

/-- Inside a piece no mention begins a field. The characters still to skip lie in the piece. -/
private lemma mentions_inside {needle : List Char} (hne : needle ≠ []) (hn : ',' ∉ needle)
    {rest : List Char} (hrest : rest = [] ∨ ∃ v, rest = ',' :: v) :
    ∀ (u : List Char) (skip : Nat) (last : Option Char), InPiece u → skip ≤ u.length →
      (skip = 0 → beforeKey last = false) →
      mentions needle skip last (u ++ rest) = mentions needle 0 (some ',') rest.tail := by
  intro u
  induction u with
  | nil =>
    intro skip last _ hskip _
    obtain rfl : skip = 0 := Nat.le_zero.mp hskip
    rcases hrest with rfl | ⟨v, rfl⟩
    · simp [mentions]
    · have hp : needle.isPrefixOf (',' :: v) = false := by
        cases needle with
        | nil => exact absurd rfl hne
        | cons d needle =>
          have hd : d ≠ ',' := fun h => hn (by simp [h])
          simp [List.isPrefixOf, hd]
      simp [mentions, hp]
  | cons c u ih =>
    intro skip last hu hskip hlast
    have hu' : InPiece u := fun d hd => hu d (List.mem_cons_of_mem _ hd)
    have hc := beforeKey_eq_false (hu c (by simp))
    cases skip with
    | succ skip =>
      rw [List.cons_append, mentions]
      exact ih skip (some c) hu' (Nat.le_of_succ_le_succ hskip) fun _ => hc
    | zero =>
      rw [List.cons_append, mentions, hlast rfl]
      simp only [Bool.false_eq_true, if_false, List.nil_append]
      split_ifs with hp
      · -- a match in the middle of a piece is passed over as a whole
        have hlen := (prefix_piece hn hrest (u := c :: u)
          (List.isPrefixOf_iff_prefix.mp hp)).length_le
        rw [List.length_cons] at hlen
        exact ih _ (some c) hu' (by omega) fun _ => hc
      · exact ih 0 (some c) hu' (Nat.zero_le _) fun _ => hc

/-- At the beginning of a piece a mention counts. -/
private lemma mentions_piece {needle : List Char} (hne : needle ≠ []) (hn : ',' ∉ needle)
    {rest : List Char} (hrest : rest = [] ∨ ∃ v, rest = ',' :: v) {u : List Char}
    {last : Option Char} (hu : InPiece u) (hlast : beforeKey last = true) :
    mentions needle 0 last (u ++ rest) =
      (if needle <+: u then [u.drop needle.length ++ rest] else []) ++
        mentions needle 0 (some ',') rest.tail := by
  cases u with
  | nil =>
    have hp : ¬ needle <+: [] := fun h => hne (List.prefix_nil.mp h)
    rw [if_neg hp, List.nil_append, List.nil_append]
    rcases hrest with rfl | ⟨v, rfl⟩
    · simp [mentions]
    · have hp' : needle.isPrefixOf (',' :: v) = false := by
        rw [Bool.eq_false_iff, Ne, List.isPrefixOf_iff_prefix]
        exact fun h => hp (prefix_piece hn (Or.inr ⟨v, rfl⟩) (u := []) h)
      simp [mentions, hp']
  | cons c u =>
    have hu' : InPiece u := fun d hd => hu d (List.mem_cons_of_mem _ hd)
    have hc := beforeKey_eq_false (hu c (by simp))
    by_cases hp : needle <+: c :: u
    · have hp' : needle.isPrefixOf (c :: (u ++ rest)) = true :=
        List.isPrefixOf_iff_prefix.mpr (hp.trans (List.prefix_append (c :: u) rest))
      have hlen := hp.length_le
      rw [List.length_cons] at hlen
      rw [List.cons_append, mentions, hp', if_pos rfl, hlast, if_pos rfl, if_pos hp,
        mentions_inside hne hn hrest u _ (some c) hu' (by omega) fun _ => hc,
        ← List.cons_append, List.drop_append_of_le_length hp.length_le]
    · have hp' : needle.isPrefixOf (c :: (u ++ rest)) = false := by
        rw [Bool.eq_false_iff, Ne, List.isPrefixOf_iff_prefix]
        exact fun h => hp (prefix_piece hn hrest (u := c :: u) h)
      rw [List.cons_append, mentions, hp', if_neg (by decide), if_neg hp, List.nil_append,
        mentions_inside hne hn hrest u 0 (some c) hu' (Nat.zero_le _) fun _ => hc]

/-- The beginning of a text is as good as a comma. -/
private lemma mentions_start (needle cs : List Char) :
    mentions needle 0 (some ',') cs = mentions needle 0 none cs := by
  cases cs <;> rfl

lemma Assignment.read_append_comma {w v : List Char} (hw : ∀ c ∈ w, isPlain c = true)
    (hc : ',' ∉ w) : Assignment.read (w ++ ',' :: v) = ⟨w, true⟩ := by
  have hall : ∀ c ∈ w, (!endsAssigned c) = true := by
    intro c h
    have h1 := hw c h
    have h2 : c ≠ ',' := by rintro rfl; exact hc h
    simp only [isPlain] at h1
    simp [endsAssigned, h2, (Bool.not_eq_true' _).mp h1]
  have h2 : endsAssigned ',' = true := by decide
  simp [Assignment.read, List.takeWhile_append_of_pos hall, h2]

lemma Assignment.read_plain {w : List Char} (hw : ∀ c ∈ w, isPlain c = true)
    (hc : ',' ∉ w) : Assignment.read w = ⟨w, false⟩ := by
  have hall : ∀ c ∈ w, endsAssigned c = false := by
    intro c h
    have h1 := hw c h
    have h2 : c ≠ ',' := by rintro rfl; exact hc h
    simp only [isPlain] at h1
    simp [endsAssigned, h2, (Bool.not_eq_true' _).mp h1]
  have h1 : w.any endsAssigned = false := by
    rw [List.any_eq_false]
    intro c h
    simp [hall c h]
  have h2 : w.takeWhile (fun c => !endsAssigned c) = w :=
    List.takeWhile_eq_self_iff.mpr fun c h => by simp [hall c h]
  rw [Assignment.read, h1, h2]

section

variable {key : List Char} (hkey : IsKey key) {u : List Char}
  (hu : ∀ c ∈ u, isPlain c = true) (hcomma : ',' ∉ u)
include hkey hu hcomma

private lemma mentions_key {rest : List Char} (hrest : rest = [] ∨ ∃ v, rest = ',' :: v) :
    mentions (key ++ ['=']) 0 none (u ++ rest) =
      (if key ++ ['='] <+: u then [u.drop (key ++ ['=']).length ++ rest] else []) ++
        mentions (key ++ ['=']) 0 none rest.tail := by
  have hn : ',' ∉ key ++ ['='] := by simp [hkey.isValue.not_mem_comma]
  have hin : InPiece u := by
    intro c hc
    refine ⟨fun h => hcomma (h ▸ hc), ?_⟩
    exact (isPlain_iff.mp (hu c hc)).1
  have hstart : beforeKey none = true := rfl
  rw [mentions_piece (by simp) hn hrest hin hstart, mentions_start]

/-- A piece that a comma ends assigns its value to the key it begins with. -/
lemma assignments_piece_comma (v : List Char) :
    assignments key (u ++ ',' :: v) =
      (if key ++ ['='] <+: u then [⟨u.drop (key ++ ['=']).length, true⟩] else []) ++
        assignments key v := by
  rw [assignments, mentions_key hkey hu hcomma (Or.inr ⟨v, rfl⟩), List.map_append]
  split_ifs with h
  · rw [List.map_singleton, Assignment.read_append_comma
      (fun c hc => hu c (List.mem_of_mem_drop hc)) (fun hc => hcomma (List.mem_of_mem_drop hc))]
    rfl
  · rfl

/-- The last piece assigns a value that is still being typed. -/
lemma assignments_piece :
    assignments key u =
      if key ++ ['='] <+: u then [⟨u.drop (key ++ ['=']).length, false⟩] else [] := by
  have hnil : ([] : List Char) = [] ∨ ∃ v, [] = ',' :: v := Or.inl rfl
  have h := mentions_key hkey hu hcomma hnil
  simp only [List.append_nil, List.tail_nil] at h
  rw [assignments, h, List.map_append]
  split_ifs with hp
  · rw [List.map_singleton, Assignment.read_plain
      (fun c hc => hu c (List.mem_of_mem_drop hc)) (fun hc => hcomma (List.mem_of_mem_drop hc))]
    rfl
  · rfl

end

/-- **A comma divides assignments**: what is before it and what is behind it do not meet. -/
theorem assignments_append {key : List Char} (hkey : IsKey key) {u : List Char}
    (hu : ∀ c ∈ u, isPlain c = true) (v : List Char) :
    assignments key (u ++ ',' :: v) = assignments key (u ++ [',']) ++ assignments key v := by
  -- by induction on the number of characters, one piece at a time
  induction hlen : u.length using Nat.strongRecOn generalizing u with
  | _ n ih =>
    rcases not_mem_or_split ',' u with h | ⟨x, y, hx, rfl⟩
    · rw [assignments_piece_comma hkey hu h, assignments_piece_comma hkey hu h]
      simp [assignments, mentions]
    · have hx' : ∀ c ∈ x, isPlain c = true := fun c hc => hu c (by simp [hc])
      have hy : ∀ c ∈ y, isPlain c = true := fun c hc => hu c (by simp [hc])
      have h := ih y.length (by rw [← hlen]; simp; omega) hy rfl
      rw [List.append_assoc, List.cons_append, assignments_piece_comma hkey hx' hx, h,
        List.append_assoc, List.cons_append, assignments_piece_comma hkey hx' hx,
        List.append_assoc]

end TopologyAssist
