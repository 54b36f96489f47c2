import TopologyAssist.Proofs.Shapes
import TopologyAssist.Proofs.Tables

/-!
The whole battery of shapes, on any text.

Only the tail of a text is searched. It is long enough (`opens_lastBytes`), so the first shape that
fits is found by the section that opens at the last `[` and the level behind it
(`place?_of_opens`), and a text behind a closed list is told apart by its end
(`betweenSections?_eq_some_iff`).
-/

namespace TopologyAssist

open Reader

/-! ### The tail of a text -/

lemma splitLastOpening?_of_not_mem {cs : List Char} (h : '[' ∉ cs) :
    ∀ seen, splitLastOpening? seen cs = none := by
  induction cs with
  | nil => intro seen; rfl
  | cons c cs ih =>
    intro seen
    have hc : c ≠ '[' := fun hc => h (by simp [hc])
    rw [splitLastOpening?, ih (fun hm => h (List.mem_cons_of_mem _ hm)), if_neg hc]
    rfl

lemma splitLastOpening?_append {r : List Char} (hr : '[' ∉ r) (q : List Char) :
    ∀ seen, splitLastOpening? seen (q ++ '[' :: r) = some (q.reverse ++ seen, '[' :: r) := by
  induction q with
  | nil =>
    intro seen
    rw [List.nil_append, splitLastOpening?, splitLastOpening?_of_not_mem hr]
    rfl
  | cons c q ih =>
    intro seen
    rw [List.cons_append, splitLastOpening?, ih]
    simp

/-- The bytes of a text in UTF-8. -/
def byteCount : List Char → Nat
  | [] => 0
  | c :: cs => c.utf8Size + byteCount cs

lemma lastBytes_suffix (cs : List Char) : ∀ n, ∃ x, cs.reverse = x ++ lastBytes n cs := by
  induction cs with
  | nil => exact fun n => ⟨[], rfl⟩
  | cons c cs ih =>
    intro n
    rw [lastBytes]
    split_ifs with hn
    · exact ⟨(c :: cs).reverse, by simp⟩
    · obtain ⟨x, hx⟩ := ih (n - c.utf8Size)
      exact ⟨x, by simp [hx]⟩

/-- An ending that has at most `n` bytes is among the last `n` bytes. -/
lemma suffix_lastBytes (w : List Char) :
    ∀ n cs, byteCount w ≤ n → ∃ x, lastBytes n (w ++ cs) = x ++ w.reverse := by
  induction w with
  | nil => exact fun n cs _ => ⟨lastBytes n cs, by simp⟩
  | cons c w ih =>
    intro n cs hn
    have hpos : 0 < c.utf8Size := c.utf8Size_pos
    rw [byteCount] at hn
    obtain ⟨x, hx⟩ := ih (n - c.utf8Size) cs (by omega)
    refine ⟨x, ?_⟩
    rw [List.cons_append, lastBytes, if_neg (by omega), hx]
    simp

/-- The last `n` bytes end as the whole text does, as far as they go. -/
lemma suffix_lastBytes_iff {w : List Char} {n : Nat} (hw : byteCount w.reverse ≤ n)
    (q : List Char) : w <:+ lastBytes n q.reverse ↔ w <:+ q := by
  constructor
  · rintro ⟨v, hv⟩
    obtain ⟨x, hx⟩ := lastBytes_suffix q.reverse n
    rw [List.reverse_reverse] at hx
    exact ⟨x ++ v, by rw [hx, ← hv]; simp⟩
  · rintro ⟨v, rfl⟩
    obtain ⟨x, hx⟩ := suffix_lastBytes _ n v.reverse hw
    rw [List.reverse_append, hx, List.reverse_reverse]
    exact ⟨x, rfl⟩

/-- As many bytes as a text has are the text. -/
lemma lastBytes_append (w cs : List Char) : lastBytes (byteCount w) (w ++ cs) = w.reverse := by
  induction w with
  | nil => cases cs <;> rfl
  | cons c w ih =>
    have hpos := c.utf8Size_pos
    rw [byteCount, List.cons_append, lastBytes, if_neg (by omega), Nat.add_sub_cancel_left, ih,
      List.reverse_cons]

lemma SectionCode.byteCount_opening (code : SectionCode) :
    byteCount (code.text.toList ++ ['=']).reverse = code.text.utf8ByteSize + 1 := by
  cases code <;> decide

namespace Grammar

variable {g : Grammar}

lemma byteCount_le_reach {s : SectionSpec} (hs : s ∈ g.sections) :
    byteCount (s.code.text.toList ++ ['=']).reverse ≤ g.reach := by
  have hle : ∀ (l : List Nat) (m n : Nat), n ≤ m ∨ n ∈ l → n ≤ l.foldl max m := by
    intro l
    induction l with
    | nil =>
      rintro m n (h | h)
      · exact h
      · exact absurd h List.not_mem_nil
    | cons x l ih =>
      rintro m n (h | h)
      · exact ih _ _ (Or.inl (Nat.le_trans h (Nat.le_max_left m x)))
      · rcases List.mem_cons.mp h with rfl | h
        · exact ih _ _ (Or.inl (Nat.le_max_right m n))
        · exact ih _ _ (Or.inr h)
  rw [SectionCode.byteCount_opening, reach]
  exact Nat.succ_le_succ (hle _ _ _ (Or.inr (List.mem_map.mpr ⟨s, hs, rfl⟩)))

lemma sectionTail_of_not_mem {p : List Char} (h : '[' ∉ p) : g.sectionTail p = p := by
  rw [sectionTail, splitLastOpening?_of_not_mem h]

lemma sectionTail_append {q r : List Char} (hr : '[' ∉ r) :
    g.sectionTail (q ++ '[' :: r) = lastBytes g.reach q.reverse ++ '[' :: r := by
  rw [sectionTail, splitLastOpening?_append hr, List.append_nil]

/-- All codes are as long as each other, so the tail reaches as far back as the code it is about. -/
lemma reach_eq {s : SectionSpec} (hs : s ∈ g.sections) :
    g.reach = byteCount (s.code.text.toList ++ ['=']).reverse := by
  have hsize : ∀ code : SectionCode, code.text.utf8ByteSize = 3 := by
    intro code
    cases code <;> decide
  have hmax : ∀ (l : List Nat) (m : Nat), m ≤ 3 → (∀ n ∈ l, n = 3) → l.foldl max m ≤ 3 := by
    intro l
    induction l with
    | nil => exact fun m hm _ => hm
    | cons n l ih =>
      intro m hm hl
      have hn := hl n (by simp)
      exact ih _ (by omega) fun k hk => hl k (List.mem_cons_of_mem _ hk)
  refine Nat.le_antisymm ?_ (byteCount_le_reach hs)
  rw [SectionCode.byteCount_opening, hsize, reach]
  refine Nat.succ_le_succ (hmax _ 0 (by omega) fun n hn => ?_)
  obtain ⟨s', -, rfl⟩ := List.mem_map.mp hn
  exact hsize s'.code

/-- Where a section opens, the tail begins with its code. -/
lemma sectionTail_of_opens {s : SectionSpec} (hs : s ∈ g.sections) {q r : List Char}
    (hq : s.code.opens q) (hr : '[' ∉ r) :
    g.sectionTail (q ++ '[' :: r) = s.code.text.toList ++ '=' :: '[' :: r := by
  obtain ⟨x, rfl⟩ := hq
  rw [sectionTail_append hr, List.reverse_append, reach_eq hs, lastBytes_append,
    List.reverse_reverse]
  simp

/-- **The tail is long enough**: a section opens in it exactly if it opens in the whole text. -/
theorem opens_lastBytes {s : SectionSpec} (hs : s ∈ g.sections) (q : List Char) :
    s.code.opens (lastBytes g.reach q.reverse) ↔ s.code.opens q :=
  suffix_lastBytes_iff (byteCount_le_reach hs) q

/-! ### The battery -/

/-- Where one member alone has an answer, the order does not matter. -/
lemma findSome?_of_unique {α β : Type} {l : List α} {f : α → Option β} {a : α}
    (ha : a ∈ l) (h : ∀ b ∈ l, b ≠ a → f b = none) : l.findSome? f = f a := by
  cases hfa : f a with
  | none =>
    rw [List.findSome?_eq_none_iff]
    intro b hb
    by_cases hba : b = a
    · rw [hba, hfa]
    · exact h b hb hba
  | some x =>
    cases hl : l.findSome? f with
    | none =>
      have := List.findSome?_eq_none_iff.mp hl a ha
      rw [hfa] at this
      cases this
    | some y =>
      obtain ⟨b, hb, hfb⟩ := List.exists_of_findSome?_eq_some hl
      by_cases hba : b = a
      · rw [← hfb, hba, hfa]
      · rw [h b hb hba] at hfb
        cases hfb

lemma place?_eq (text : List Char) :
    g.place? text = g.sections.findSome? fun s =>
      (s.shapes.findSome? fun shape => shape.search? text).map fun place => (s.code, place) := by
  unfold place? battery
  induction g.sections with
  | nil => rfl
  | cons s rest ih =>
    rw [List.flatMap_cons, List.findSome?_append, ih, List.findSome?_cons, List.findSome?_map,
      List.map_findSome?]
    simp only [Function.comp_def]
    cases s.shapes.findSome? fun shape =>
      (shape.search? text).map fun place => (s.code, place) <;> rfl

lemma place?_of_not_mem {p : List Char} (h : '[' ∉ p) : g.place? p = none := by
  rw [place?_eq, List.findSome?_eq_none_iff]
  intro s _
  rw [Option.map_eq_none_iff, List.findSome?_eq_none_iff]
  exact fun shape hshape => s.search?_of_not_mem hshape h

/-- Inside a section the place is the one of the level that the brackets lead to. -/
lemma place?_sectionTail {q r : List Char} (hr : '[' ∉ r) :
    g.place? (g.sectionTail (q ++ '[' :: r)) = g.sections.findSome? fun s =>
      if s.code.opens q then ((scan s.slotted r).bind s.placeOf?).map fun place => (s.code, place)
      else none := by
  rw [sectionTail_append hr, place?_eq]
  refine findSome?_congr fun s hs => ?_
  rw [search_shapes hr]
  simp only [opens_lastBytes hs q]
  split_ifs <;> rfl

end Grammar

/-! ### One section opens -/

lemma SectionCode.opens_unique {code code' : SectionCode} {q : List Char} (h : code.opens q)
    (h' : code'.opens q) : code = code' := by
  have hlen : ∀ c : SectionCode, (c.text.toList ++ ['=']).length = 4 := by
    intro c
    cases c <;> decide
  have heq : code.text.toList ++ ['='] = code'.text.toList ++ ['='] :=
    (List.suffix_of_suffix_length_le h h' (by rw [hlen, hlen])).eq_of_length (by rw [hlen, hlen])
  revert heq
  cases code <;> cases code' <;> first | exact fun _ => rfl | exact fun h => absurd h (by decide)

namespace Grammar

variable {g : Grammar}

/-- **The place in a section by its level**, where each section has one table. -/
theorem place?_of_opens (hd : (g.sections.map SectionSpec.code).Nodup) {s : SectionSpec}
    (hs : s ∈ g.sections) {q r : List Char} (hq : s.code.opens q) (hr : '[' ∉ r) :
    g.place? (g.sectionTail (q ++ '[' :: r)) =
      ((scan s.slotted r).bind s.placeOf?).map fun place => (s.code, place) := by
  rw [place?_sectionTail hr]
  rw [findSome?_of_unique hs, if_pos hq]
  intro s' hs' hne
  refine if_neg fun hq' => hne ?_
  exact List.inj_on_of_nodup_map hd hs' hs (SectionCode.opens_unique hq' hq)

lemma place?_of_not_opens {q r : List Char} (hr : '[' ∉ r)
    (hq : ∀ s ∈ g.sections, ¬ s.code.opens q) :
    g.place? (g.sectionTail (q ++ '[' :: r)) = none := by
  rw [place?_sectionTail hr, List.findSome?_eq_none_iff]
  exact fun s hs => if_neg (hq s hs)

end Grammar

/-! ### Between sections -/

lemma mem_keyEnd {cs t a : List Char} :
    (a, t) ∈ keyEnd cs ↔ t = [] ∧ a = cs ∧ ∀ c ∈ cs, isKeyChar c = true := by
  constructor
  · intro h
    obtain ⟨fragment, w, hhere, h₁⟩ := Reader.mem_bind.mp h
    obtain ⟨rfl, rfl⟩ := mem_here.mp hhere
    obtain ⟨u, w₁, hu, rfl, h₂⟩ := (reads_run isKeyChar).mem_bind.mp h₁
    obtain ⟨⟨⟩, w₂, hend, h₃⟩ := Reader.mem_bind.mp h₂
    obtain ⟨rfl, rfl⟩ := mem_finish.mp hend
    obtain ⟨rfl, rfl⟩ := mem_pure.mp h₃
    rw [List.append_nil]
    exact ⟨rfl, rfl, hu⟩
  · rintro ⟨rfl, rfl, hu⟩
    refine Reader.mem_bind.mpr ⟨_, _, mem_here.mpr ⟨rfl, rfl⟩, ?_⟩
    refine (reads_run isKeyChar).mem_bind.mpr ⟨a, [], hu, by simp, ?_⟩
    exact Reader.mem_bind.mpr ⟨(), [], mem_finish.mpr ⟨rfl, rfl⟩, mem_pure.mpr ⟨rfl, rfl⟩⟩

lemma keyEnd_first? (cs : List Char) :
    keyEnd.first? cs = if cs.all isKeyChar then some cs else none := by
  split_ifs with h
  · rw [List.all_eq_true] at h
    exact first?_of_unique (mem_keyEnd.mpr ⟨rfl, rfl, h⟩) fun a t ht => (mem_keyEnd.mp ht).2.1
  · rw [first?_eq_none_iff, List.eq_nil_iff_forall_not_mem]
    rintro ⟨a, t⟩ hm
    exact h (List.all_eq_true.mpr (mem_keyEnd.mp hm).2.2)

/-- A list is closed, and a comma and a word `w` may follow. -/
def ClosedEnd (r w : List Char) : Prop :=
  ∃ L comma, ElementRow 1 L ∧ (comma = [] ∨ comma = [',']) ∧ (∀ c ∈ w, isKeyChar c = true) ∧
    r = L ++ ']' :: (comma ++ w)

lemma not_mem_of_keyChars {w : List Char} (hw : ∀ c ∈ w, isKeyChar c = true) {d : Char}
    (hd : isKeyChar d = false) : d ∉ w := by
  intro h
  rw [hw d h] at hd
  cases hd

lemma ClosedEnd.unique {r w w' : List Char} (h : ClosedEnd r w) (h' : ClosedEnd r w') :
    w = w' := by
  obtain ⟨L, comma, hL, hcomma, hw, rfl⟩ := h
  obtain ⟨L', comma', hL', hcomma', hw', heq⟩ := h'
  -- both lists end at the first `]`
  have hrest := (split_unique hL.not_mem_square.2 hL'.not_mem_square.2 heq).2
  have hc : ',' ∉ w := not_mem_of_keyChars hw (by decide)
  have hc' : ',' ∉ w' := not_mem_of_keyChars hw' (by decide)
  rcases hcomma with rfl | rfl <;> rcases hcomma' with rfl | rfl
  · exact hrest
  · exact absurd (by rw [show w = ',' :: w' from hrest]; simp) hc
  · exact absurd (by rw [show w' = ',' :: w from hrest.symm]; simp) hc'
  · exact (List.cons.inj hrest).2

/-- What stands before the `=[` of a closed section: the code of a section, or nothing where there
are no sections. -/
def SectionHead (codes : List SectionCode) (u : List Char) : Prop :=
  (codes = [] ∧ u = []) ∨ ∃ code ∈ codes, u = code.text.toList

lemma reads_sectionCode (codes : List SectionCode) :
    (sectionCode codes).Reads (SectionHead codes) := by
  intro cs t
  cases codes with
  | nil => simp [sectionCode, done, SectionHead, eq_comm]
  | cons code codes =>
    rw [sectionCode, if_neg (by simp), mem_oneOf]
    constructor
    · rintro ⟨_, hr, h⟩
      obtain ⟨code, hcode, rfl⟩ := List.mem_map.mp hr
      obtain ⟨u, rfl, rfl⟩ := (reads_word _ _ _).mp h
      exact ⟨_, Or.inr ⟨code, hcode, rfl⟩, rfl⟩
    · rintro ⟨_, ⟨hnil, -⟩ | ⟨code, hcode, rfl⟩, rfl⟩
      · cases hnil
      · exact ⟨_, List.mem_map.mpr ⟨code, hcode, rfl⟩, (reads_word _ _ _).mpr ⟨_, rfl, rfl⟩⟩

lemma mem_closedSection {codes : List SectionCode} {cs t w : List Char} :
    (w, t) ∈ closedSection codes cs ↔
      t = [] ∧ ∃ u, SectionHead codes u ∧ ∃ r, ClosedEnd r w ∧ cs = u ++ '=' :: '[' :: r := by
  constructor
  · intro h
    obtain ⟨u, w₁, hu, rfl, h₁⟩ := (reads_sectionCode codes).mem_bind.mp h
    obtain ⟨_, w₂, rfl, rfl, h₂⟩ := (reads_word _).mem_bind.mp h₁
    obtain ⟨L, w₃, hL, rfl, h₃⟩ := (reads_elements true).mem_bind.mp h₂
    obtain ⟨_, w₄, rfl, rfl, h₄⟩ := (reads_word _).mem_bind.mp h₃
    obtain ⟨comma, w₅, hcomma, rfl, h₅⟩ := (reads_word [',']).maybe.mem_bind.mp h₄
    obtain ⟨rfl, rfl, hw⟩ := mem_keyEnd.mp h₅
    exact ⟨rfl, u, hu, _, ⟨L, comma, hL, hcomma.symm, hw, rfl⟩, by simp⟩
  · rintro ⟨rfl, u, hu, _, ⟨L, comma, hL, hcomma, hw, rfl⟩, rfl⟩
    refine (reads_sectionCode codes).mem_bind.mpr ⟨u, _, hu, rfl, ?_⟩
    refine (reads_word _).mem_bind.mpr ⟨_, _, rfl, rfl, ?_⟩
    refine (reads_elements true).mem_bind.mpr ⟨L, _, hL, rfl, ?_⟩
    refine (reads_word _).mem_bind.mpr ⟨_, _, rfl, rfl, ?_⟩
    refine (reads_word [',']).maybe.mem_bind.mpr ⟨comma, w, hcomma.symm, rfl, ?_⟩
    exact mem_keyEnd.mpr ⟨rfl, rfl, hw⟩

lemma ClosedEnd.not_mem_opening {r w : List Char} (h : ClosedEnd r w) : '[' ∉ r := by
  obtain ⟨L, comma, hL, hcomma, hw, rfl⟩ := h
  have hw' : '[' ∉ w := not_mem_of_keyChars hw (by decide)
  rcases hcomma with rfl | rfl <;> simp [hL.not_mem_square, hw']

lemma ClosedEnd.scan_eq_none {r w : List Char} (h : ClosedEnd r w) (slotted : Bool) :
    scan slotted r = none := by
  cases hscan : scan slotted r with
  | none => rfl
  | some l =>
    obtain ⟨L, comma, -, -, -, rfl⟩ := h
    exact absurd (by simp) (not_mem_square_of_scan hscan).2

lemma finds_closedSection {codes : List SectionCode} {q r w : List Char} (hr : '[' ∉ r) :
    (closedSection codes).Finds (q ++ '[' :: r) w ↔
      (∃ u, SectionHead codes u ∧ u ++ ['='] <:+ q) ∧ ClosedEnd r w := by
  constructor
  · rintro ⟨v, t, ⟨x, hx⟩, h⟩
    obtain ⟨-, u, hu, r', hend, rfl⟩ := mem_closedSection.mp h
    have heq : (x ++ (u ++ ['='])) ++ '[' :: r' = q ++ '[' :: r := by
      rw [← hx]
      simp
    obtain ⟨rfl, rfl⟩ := split_last_unique hend.not_mem_opening hr heq
    exact ⟨⟨u, hu, x, rfl⟩, hend⟩
  · rintro ⟨⟨u, hu, x, rfl⟩, hend⟩
    refine ⟨u ++ '=' :: '[' :: r, [], ⟨x, by simp⟩, ?_⟩
    exact mem_closedSection.mpr ⟨rfl, u, hu, r, hend, rfl⟩

namespace Grammar

variable {g : Grammar}

/-- The codes of the sections, as they may stand before a closed list. -/
abbrev Head (g : Grammar) (u : List Char) : Prop := SectionHead (g.sections.map SectionSpec.code) u

lemma betweenSections?_of_not_mem {p : List Char} (h : '[' ∉ p) :
    g.betweenSections? p = if p.all isKeyChar then some p else none := by
  have hnone : (closedSection (g.sections.map SectionSpec.code)).search? p = none := by
    rw [search?_eq_none_iff]
    rintro w ⟨v, t, hv, hm⟩
    obtain ⟨-, u, -, r, -, rfl⟩ := mem_closedSection.mp hm
    exact h (hv.subset (by simp))
  rw [betweenSections?, hnone, Option.or_none, keyEnd_first?]

/-- Behind a closed list stands what was typed since. -/
lemma betweenSections?_append_eq_some_iff {q r w : List Char} (hr : '[' ∉ r) :
    g.betweenSections? (q ++ '[' :: r) = some w ↔
      (∃ u, g.Head u ∧ u ++ ['='] <:+ q) ∧ ClosedEnd r w := by
  have hkey : keyEnd.first? (q ++ '[' :: r) = none := by
    rw [keyEnd_first?, if_neg]
    rw [List.all_eq_true]
    exact fun h => absurd (h '[' (by simp)) (by decide)
  rw [betweenSections?, hkey, Option.none_or, search?_eq_some_iff, finds_closedSection hr]
  intro a b ha hb
  exact ((finds_closedSection hr).mp ha).2.unique ((finds_closedSection hr).mp hb).2

lemma byteCount_head_le_reach {u : List Char} (hu : g.Head u) :
    byteCount (u ++ ['=']).reverse ≤ g.reach := by
  rcases hu with ⟨-, rfl⟩ | ⟨_, hcode, rfl⟩
  · exact Nat.le_add_left 1 _
  · obtain ⟨s, hs, rfl⟩ := List.mem_map.mp hcode
    exact byteCount_le_reach hs

/-- Between sections the tail of a text is as good as the text. -/
lemma betweenSections?_sectionTail (p : List Char) :
    g.betweenSections? (g.sectionTail p) = g.betweenSections? p := by
  rcases not_mem_or_split_last '[' p with hp | ⟨q, r, hr, rfl⟩
  · rw [sectionTail_of_not_mem hp]
  · refine Option.ext fun w => ?_
    rw [sectionTail_append hr, betweenSections?_append_eq_some_iff hr,
      betweenSections?_append_eq_some_iff hr]
    refine and_congr_left fun _ => exists_congr fun u => and_congr_right fun hu => ?_
    exact suffix_lastBytes_iff (byteCount_head_le_reach hu) q

lemma betweenSections?_eq_some_iff {q r w : List Char} (hne : g.sections ≠ []) (hr : '[' ∉ r) :
    g.betweenSections? (g.sectionTail (q ++ '[' :: r)) = some w ↔
      (∃ s ∈ g.sections, s.code.opens q) ∧ ClosedEnd r w := by
  rw [betweenSections?_sectionTail, betweenSections?_append_eq_some_iff hr]
  refine and_congr_left fun _ => ?_
  simp [Head, SectionHead, hne, SectionCode.opens]

end Grammar

end TopologyAssist
