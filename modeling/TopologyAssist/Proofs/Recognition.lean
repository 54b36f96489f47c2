import TopologyAssist.Grammar.Standard
import TopologyAssist.Proofs.Battery

/-!
What the end of a text is recognised as.

The shapes are tried one after the other on a part of the text, and the first that fits decides.
`Recognised` says the outcome without any order: how the whole text is composed, from the last `[`
on, for each place that it may end at. The two agree on every text, well-formed or not, and inside
a section the place is the one of the level that a scan of the brackets ends at.
-/

namespace TopologyAssist

/-- What the end of a text is recognised as: a place in a section, or a word between sections. -/
inductive Reading where
  | inSection (code : SectionCode) (place : Place)
  | between (fragment : List Char)
  deriving DecidableEq, Repr

namespace Grammar

/-- The first shape that fits the tail of a text, with what it captures; else what the text between
sections ends with. -/
def reading? (g : Grammar) (p : List Char) : Option Reading :=
  match g.place? (g.sectionTail p) with
  | some (code, place) => some (.inSection code place)
  | none => (g.betweenSections? (g.sectionTail p)).map .between

/-- The context of a text, by its reading. -/
lemma classify_eq (g : Grammar) (p lookahead : List Char) :
    g.classify p lookahead =
      match g.reading? p with
      | some (.inSection code place) =>
        let ctx := g.contextAt code (g.sectionTail p) lookahead place
        if ctx.candidates.isEmpty then none else some ctx
      | some (.between w) => some (Context.betweenSections w (endsWith ']' p))
      | none => none := by
  simp only [classify, reading?]
  cases g.place? (g.sectionTail p) with
  | some found => rfl
  | none =>
    cases g.betweenSections? (g.sectionTail p) <;> rfl

end Grammar

/-! ### The grammar of recognised texts -/

/-- How a text is composed that ends at a place of a section or between sections.

`q` is the text before the last `[`, which ends with a section's code and `=`; `L` is the closed
elements behind the `[`. Function blocks stand only in sections with slots, so the elements of the
others have no parentheses in them. -/
inductive Recognised (g : Grammar) : List Char → Reading → Prop where
  /-- No section is opened, and the text is a word. -/
  | start {w : List Char} (hw : ∀ c ∈ w, isKeyChar c = true) : Recognised g w (.between w)
  /-- The section is closed; a comma and a word may follow. -/
  | closed {s : SectionSpec} {q L comma w : List Char} (hs : s ∈ g.sections) (hq : s.code.opens q)
    (hL : ElementRow 1 L) (hcomma : comma = [] ∨ comma = [','])
    (hw : ∀ c ∈ w, isKeyChar c = true) :
    Recognised g (q ++ '[' :: (L ++ ']' :: (comma ++ w))) (.between w)
  /-- All elements are closed. -/
  | newElement {s : SectionSpec} {q L : List Char} (hs : s ∈ g.sections) (hq : s.code.opens q)
    (hL : ElementRow s.slotted.toNat L) :
    Recognised g (q ++ '[' :: L) (.inSection s.code .newElement)
  /-- The open element ends with the code of a slot and `=`. -/
  | newBlock {s : SectionSpec} {q L e : List Char} {f : FamilyCode} (hs : s ∈ g.sections)
    (hq : s.code.opens q) (hL : ElementRow s.slotted.toNat L)
    (he : FieldsBefore s.slotted.toNat e) (hf : f ∈ s.slots) :
    Recognised g (q ++ '[' :: (L ++ '(' :: (e ++ (f.text.toList ++ ['=']))))
      (.inSection s.code (.newBlock f))
  /-- The open element ends with a key, `=` and what there is of the value. -/
  | value {s : SectionSpec} {q L e key v : List Char} (hs : s ∈ g.sections)
    (hq : s.code.opens q) (hL : ElementRow s.slotted.toNat L)
    (he : FieldsBefore s.slotted.toNat e) (hkey : IsKey key) (hv : IsValue v)
    (hslot : v = [] → ∀ f ∈ s.slots, f.text.toList ≠ key) :
    Recognised g (q ++ '[' :: (L ++ '(' :: (e ++ (key ++ '=' :: v))))
      (.inSection s.code (.value none (e ++ (key ++ '=' :: v)) key v))
  /-- The open element ends otherwise. -/
  | field {s : SectionSpec} {q L b : List Char} (hs : s ∈ g.sections) (hq : s.code.opens q)
    (hL : ElementRow s.slotted.toNat L) (hb : Nested s.slotted.toNat b)
    (hno : ∀ e key v, FieldsBefore s.slotted.toNat e → IsKey key → IsValue v →
      b ≠ e ++ (key ++ '=' :: v)) :
    Recognised g (q ++ '[' :: (L ++ '(' :: b)) (.inSection s.code (.field none b))
  /-- The open block of a slot ends with a key, `=` and what there is of the value. -/
  | blockValue {s : SectionSpec} {q L e e' key v : List Char} {f : FamilyCode}
    (hs : s ∈ g.sections) (hq : s.code.opens q) (hL : ElementRow s.slotted.toNat L)
    (he : FieldsBefore s.slotted.toNat e) (hf : f ∈ s.slots) (he' : FieldsBefore 0 e')
    (hkey : IsKey key) (hv : IsValue v) :
    Recognised g
      (q ++ '[' ::
        (L ++ '(' :: (e ++ (f.text.toList ++ ['=']) ++ '(' :: (e' ++ (key ++ '=' :: v)))))
      (.inSection s.code (.value (some f) (e' ++ (key ++ '=' :: v)) key v))
  /-- The open block of a slot ends otherwise. -/
  | blockField {s : SectionSpec} {q L e i : List Char} {f : FamilyCode} (hs : s ∈ g.sections)
    (hq : s.code.opens q) (hL : ElementRow s.slotted.toNat L)
    (he : FieldsBefore s.slotted.toNat e) (hf : f ∈ s.slots) (hi : Nested 0 i)
    (hno : ∀ e' key v, FieldsBefore 0 e' → IsKey key → IsValue v → i ≠ e' ++ (key ++ '=' :: v)) :
    Recognised g (q ++ '[' :: (L ++ '(' :: (e ++ (f.text.toList ++ ['=']) ++ '(' :: i)))
      (.inSection s.code (.field (some f) i))

/-! ### Readings by the level -/

namespace Grammar

variable {g : Grammar}

lemma reading?_of_not_mem {p : List Char} (h : '[' ∉ p) {o : Reading} :
    g.reading? p = some o ↔ o = .between p ∧ ∀ c ∈ p, isKeyChar c = true := by
  rw [reading?, sectionTail_of_not_mem h, place?_of_not_mem h, betweenSections?_of_not_mem h]
  simp only
  split_ifs with hw
  · rw [List.all_eq_true] at hw
    constructor
    · intro h
      exact ⟨(Option.some.inj h).symm, hw⟩
    · rintro ⟨rfl, -⟩
      rfl
  · rw [List.all_eq_true] at hw
    simp [hw]

/-- **A place in a section is the place of a level.** -/
theorem reading?_inSection_iff (hd : (g.sections.map SectionSpec.code).Nodup) {q r : List Char}
    (hr : '[' ∉ r) {code : SectionCode} {place : Place} :
    g.reading? (q ++ '[' :: r) = some (.inSection code place) ↔
      ∃ s ∈ g.sections, s.code = code ∧ s.code.opens q ∧
        (scan s.slotted r).bind s.placeOf? = some place := by
  by_cases hq : ∃ s ∈ g.sections, s.code.opens q
  · obtain ⟨s, hs, hq⟩ := hq
    have hplace := place?_of_opens hd hs hq hr
    constructor
    · intro h
      refine ⟨s, hs, ?_⟩
      rw [reading?, hplace] at h
      cases hscan : (scan s.slotted r).bind s.placeOf? with
      | none =>
        rw [hscan] at h
        simp at h
      | some found =>
        rw [hscan] at h
        obtain ⟨rfl, rfl⟩ := Reading.inSection.inj (Option.some.inj h)
        exact ⟨rfl, hq, rfl⟩
    · rintro ⟨s', hs', rfl, hq', hscan⟩
      rw [reading?, place?_of_opens hd hs' hq' hr, hscan]
      rfl
  · have hq' : ∀ s ∈ g.sections, ¬ s.code.opens q := fun s hs h => hq ⟨s, hs, h⟩
    rw [reading?, place?_of_not_opens hr hq']
    constructor
    · intro h
      simp at h
    · rintro ⟨s, hs, -, h, -⟩
      exact absurd h (hq' s hs)

/-- **A word between sections stands behind a closed list.** -/
theorem reading?_between_iff (hne : g.sections ≠ []) {q r w : List Char} (hr : '[' ∉ r) :
    g.reading? (q ++ '[' :: r) = some (.between w) ↔
      (∃ s ∈ g.sections, s.code.opens q) ∧ ClosedEnd r w := by
  rw [← betweenSections?_eq_some_iff hne hr, reading?]
  constructor
  · intro h
    cases hplace : g.place? (g.sectionTail (q ++ '[' :: r)) with
    | some found =>
      rw [hplace] at h
      simp at h
    | none =>
      rw [hplace] at h
      obtain ⟨w', hw', heq⟩ := Option.map_eq_some_iff.mp h
      rw [hw', Reading.between.inj heq]
  · intro h
    have hend := ((betweenSections?_eq_some_iff hne hr).mp h).2
    have hplace : g.place? (g.sectionTail (q ++ '[' :: r)) = none := by
      rw [place?_sectionTail hr, List.findSome?_eq_none_iff]
      intro s _
      rw [hend.scan_eq_none]
      simp
    rw [hplace, h]
    rfl

end Grammar

/-! ### The two agree -/

lemma SectionSpec.slotted_of_mem {s : SectionSpec} {f : FamilyCode} (hf : f ∈ s.slots) :
    s.slotted = true := by
  cases hs : s.slots with
  | nil => rw [hs] at hf; exact absurd hf List.not_mem_nil
  | cons f' rest => simp [slotted, hs]

lemma openPlace_of_assigned {block : Option FamilyCode} {b key v : List Char}
    (h : assigned? (lastPiece b) = some (key, v)) : openPlace block b = .value block b key v := by
  simp [openPlace, h]

lemma openPlace_of_none {block : Option FamilyCode} {b : List Char}
    (h : assigned? (lastPiece b) = none) : openPlace block b = .field block b := by
  simp [openPlace, h]

/-- A block ends with no assignment exactly if it is not composed of earlier fields and one. -/
lemma assigned?_lastPiece_eq_none_iff {depth : Nat} {b : List Char} (hb : Nested depth b) :
    assigned? (lastPiece b) = none ↔
      ∀ e key v, FieldsBefore depth e → IsKey key → IsValue v → b ≠ e ++ (key ++ '=' :: v) := by
  constructor
  · rintro h e key v he hkey hv rfl
    rw [(assigned?_lastPiece_iff hb).mpr ⟨hkey, hv, e, he, rfl⟩] at h
    cases h
  · intro h
    cases hp : assigned? (lastPiece b) with
    | none => rfl
    | some a =>
      obtain ⟨hkey, hv, e, he, heq⟩ := (assigned?_lastPiece_iff hb).mp hp
      exact absurd heq (h e a.1 a.2 he hkey hv)

/-- The place of a level is recognised in the text that leads to the level. -/
lemma recognised_of_placeOf? {g : Grammar} {s : SectionSpec} (hs : s ∈ g.sections)
    {q r : List Char} (hq : s.code.opens q) {l : Level} (hr : Composed s.slotted r l)
    {place : Place} (h : s.placeOf? l = some place) :
    Recognised g (q ++ '[' :: r) (.inSection s.code place) := by
  cases l with
  | list closed =>
    obtain rfl := Option.some.inj h
    exact .newElement hs hq hr.1
  | element b =>
    obtain ⟨L, hL, hb, rfl⟩ := hr
    cases hend : s.slotEnd? b with
    | some f =>
      simp only [SectionSpec.placeOf?, hend] at h
      obtain rfl := Option.some.inj h
      obtain ⟨hf, e, he, rfl⟩ := (SectionSpec.slotEnd?_eq_some_iff hb).mp hend
      exact .newBlock hs hq hL he hf
    | none =>
      simp only [SectionSpec.placeOf?, hend] at h
      obtain rfl := Option.some.inj h
      cases hp : assigned? (lastPiece b) with
      | none =>
        rw [openPlace_of_none hp]
        exact .field hs hq hL hb ((assigned?_lastPiece_eq_none_iff hb).mp hp)
      | some a =>
        obtain ⟨key, v⟩ := a
        rw [openPlace_of_assigned hp]
        obtain ⟨hkey, hv, e, he, rfl⟩ := (assigned?_lastPiece_iff hb).mp hp
        refine .value hs hq hL he hkey hv ?_
        rintro rfl f hf rfl
        -- the code of a slot and `=` open a block
        rw [(SectionSpec.slotEnd?_eq_some_iff hb).mpr ⟨hf, e, he, rfl⟩] at hend
        cases hend
  | block b i =>
    obtain ⟨hslotted, L, hL, hb, hi, rfl⟩ := hr
    obtain ⟨f, hend, rfl⟩ := Option.map_eq_some_iff.mp h
    obtain ⟨hf, e, he, rfl⟩ := (SectionSpec.slotEnd?_eq_some_iff hb).mp hend
    have hd : s.slotted.toNat = 1 := by rw [hslotted]; rfl
    rw [← hd] at hL he
    cases hp : assigned? (lastPiece i) with
    | none =>
      rw [openPlace_of_none hp]
      exact .blockField hs hq hL he hf hi ((assigned?_lastPiece_eq_none_iff hi).mp hp)
    | some a =>
      obtain ⟨key, v⟩ := a
      rw [openPlace_of_assigned hp]
      obtain ⟨hkey, hv, e', he', rfl⟩ := (assigned?_lastPiece_iff hi).mp hp
      exact .blockValue hs hq hL he hf he' hkey hv

/-- A text that is recognised at a place of a section leads to a level with that place. -/
lemma Recognised.exists_level {g : Grammar} {p : List Char} {code : SectionCode} {place : Place}
    (h : Recognised g p (.inSection code place)) :
    ∃ s ∈ g.sections, ∃ q r l, s.code = code ∧ s.code.opens q ∧ Composed s.slotted r l ∧
      s.placeOf? l = some place ∧ p = q ++ '[' :: r := by
  cases h with
  | @newElement s q L hs hq hL =>
    exact ⟨s, hs, q, L, .list (endsWith ')' L), rfl, hq, ⟨hL, rfl⟩, rfl, rfl⟩
  | @newBlock s q L e f hs hq hL he hf =>
    have hb : Nested s.slotted.toNat (e ++ (f.text.toList ++ ['='])) :=
      he.nested.append (Nested.of_plain (plain_of_assignment f.isKey_text isValue_nil).1)
    refine ⟨s, hs, q, _, .element _, rfl, hq, ⟨L, hL, hb, rfl⟩, ?_, rfl⟩
    rw [SectionSpec.placeOf?, (SectionSpec.slotEnd?_eq_some_iff hb).mpr ⟨hf, e, he, rfl⟩]
  | @value s q L e key v hs hq hL he hkey hv hslot =>
    have hb : Nested s.slotted.toNat (e ++ (key ++ '=' :: v)) :=
      he.nested.append (Nested.of_plain (plain_of_assignment hkey hv).1)
    have hp := (assigned?_lastPiece_iff hb).mpr ⟨hkey, hv, e, he, rfl⟩
    refine ⟨s, hs, q, _, .element _, rfl, hq, ⟨L, hL, hb, rfl⟩, ?_, rfl⟩
    have hend : s.slotEnd? (e ++ (key ++ '=' :: v)) = none := by
      unfold SectionSpec.slotEnd?
      rw [hp]
      cases v with
      | nil =>
        refine List.find?_eq_none.mpr fun f hf => ?_
        simpa using hslot rfl f hf
      | cons c v => rfl
    rw [SectionSpec.placeOf?, hend, openPlace_of_assigned hp]
  | @field s q L b hs hq hL hb hno =>
    have hp := (assigned?_lastPiece_eq_none_iff hb).mpr hno
    refine ⟨s, hs, q, _, .element b, rfl, hq, ⟨L, hL, hb, rfl⟩, ?_, rfl⟩
    have hend : s.slotEnd? b = none := by
      unfold SectionSpec.slotEnd?
      rw [hp]
    rw [SectionSpec.placeOf?, hend, openPlace_of_none hp]
  | @blockValue s q L e e' key v f hs hq hL he hf he' hkey hv =>
    have hslotted := SectionSpec.slotted_of_mem hf
    have hd : s.slotted.toNat = 1 := by rw [hslotted]; rfl
    rw [hd] at hL he
    have hb : Nested 1 (e ++ (f.text.toList ++ ['='])) :=
      he.nested.append (Nested.of_plain (plain_of_assignment f.isKey_text isValue_nil).1)
    have hi : Nested 0 (e' ++ (key ++ '=' :: v)) :=
      he'.nested.append (Nested.of_plain (plain_of_assignment hkey hv).1)
    have hp := (assigned?_lastPiece_iff hi).mpr ⟨hkey, hv, e', he', rfl⟩
    refine ⟨s, hs, q, _, .block _ _, rfl, hq, ⟨hslotted, L, hL, hb, hi, rfl⟩, ?_, rfl⟩
    rw [SectionSpec.placeOf?, (SectionSpec.slotEnd?_eq_some_iff hb).mpr ⟨hf, e, he, rfl⟩,
      Option.map_some, openPlace_of_assigned hp]
  | @blockField s q L e i f hs hq hL he hf hi hno =>
    have hslotted := SectionSpec.slotted_of_mem hf
    have hd : s.slotted.toNat = 1 := by rw [hslotted]; rfl
    rw [hd] at hL he
    have hb : Nested 1 (e ++ (f.text.toList ++ ['='])) :=
      he.nested.append (Nested.of_plain (plain_of_assignment f.isKey_text isValue_nil).1)
    have hp := (assigned?_lastPiece_eq_none_iff hi).mpr hno
    refine ⟨s, hs, q, _, .block _ _, rfl, hq, ⟨hslotted, L, hL, hb, hi, rfl⟩, ?_, rfl⟩
    rw [SectionSpec.placeOf?, (SectionSpec.slotEnd?_eq_some_iff hb).mpr ⟨hf, e, he, rfl⟩,
      Option.map_some, openPlace_of_none hp]

lemma Grammar.recognised_of_reading? {g : Grammar} (hne : g.sections ≠ [])
    (hd : (g.sections.map SectionSpec.code).Nodup) {p : List Char} {o : Reading}
    (h : g.reading? p = some o) : Recognised g p o := by
  rcases not_mem_or_split_last '[' p with hp | ⟨q, r, hr, rfl⟩
  · obtain ⟨rfl, hw⟩ := (reading?_of_not_mem hp).mp h
    exact .start hw
  · cases o with
    | inSection code place =>
      obtain ⟨s, hs, rfl, hq, hplace⟩ := (reading?_inSection_iff hd hr).mp h
      obtain ⟨l, hscan, hl⟩ := Option.bind_eq_some_iff.mp hplace
      exact recognised_of_placeOf? hs hq (scan_eq_some_iff.mp hscan) hl
    | between w =>
      obtain ⟨⟨s, hs, hq⟩, L, comma, hL, hcomma, hw, rfl⟩ := (reading?_between_iff hne hr).mp h
      exact .closed hs hq hL hcomma hw

lemma Grammar.reading?_of_recognised {g : Grammar} (hne : g.sections ≠ [])
    (hd : (g.sections.map SectionSpec.code).Nodup) {p : List Char} {o : Reading}
    (h : Recognised g p o) : g.reading? p = some o := by
  cases o with
  | inSection code place =>
    obtain ⟨s, hs, q, r, l, rfl, hq, hr, hl, rfl⟩ := h.exists_level
    have hscan := scan_eq_some_iff.mpr hr
    refine (reading?_inSection_iff hd (not_mem_square_of_scan hscan).1).mpr
      ⟨s, hs, rfl, hq, ?_⟩
    rw [hscan, Option.bind_some, hl]
  | between w =>
    cases h with
    | start hw =>
      exact (reading?_of_not_mem (not_mem_of_keyChars hw (by decide))).mpr ⟨rfl, hw⟩
    | @closed s q L comma _ hs hq hL hcomma hw =>
      have hend : ClosedEnd (L ++ ']' :: (comma ++ w)) w := ⟨L, comma, hL, hcomma, hw, rfl⟩
      exact (reading?_between_iff hne hend.not_mem_opening).mpr ⟨⟨s, hs, hq⟩, hend⟩

/-- **The battery accepts exactly its grammar, and brackets alone decide the place.**

For tables with distinct codes, the first shape that fits a text and what it captures are what the
composition of the whole text says, and nothing fits a text that is not composed so. Inside a
section the place is the one of the level that a scan of the brackets behind the last `[` ends
at. -/
theorem reading_iff_recognised (g : Grammar) (hne : g.sections ≠ [])
    (hd : (g.sections.map SectionSpec.code).Nodup) (p : List Char) :
    (∀ o, g.reading? p = some o ↔ Recognised g p o) ∧
    ∀ q r code place, p = q ++ '[' :: r → '[' ∉ r →
      (g.reading? p = some (.inSection code place) ↔
        ∃ s ∈ g.sections, s.code = code ∧ s.code.opens q ∧
          (scan s.slotted r).bind s.placeOf? = some place) := by
  refine ⟨fun o => ?_, ?_⟩
  · exact ⟨g.recognised_of_reading? hne hd, g.reading?_of_recognised hne hd⟩
  · rintro q r code place rfl hr
    exact g.reading?_inSection_iff hd hr

/-- The open block of a slot behind a closed one is recognised, and a block in it is not. -/
theorem reading_iff_recognised_block :
    Recognised Grammar.standard "NRN=[(WDF=(fnc=zer),SRP=(fnc=s".toList
      (.inSection .neurons
        (.value (some .releaseProbability) "fnc=s".toList "fnc".toList "s".toList)) ∧
    ∀ o, ¬ Recognised Grammar.standard "NRN=[(WDF=(fnc=(".toList o := by
  refine ⟨?_, fun o h => ?_⟩
  · exact ((reading_iff_recognised Grammar.standard (by decide) (by decide) _).1 _).mp
      (by decide +kernel)
  · have hsome := ((reading_iff_recognised Grammar.standard (by decide) (by decide) _).1 o).mpr h
    have hnone : Grammar.standard.reading? "NRN=[(WDF=(fnc=(".toList = none := by decide +kernel
    rw [hnone] at hsome
    cases hsome

end TopologyAssist
