import TopologyAssist.Proofs.Pieces

/-!
The shapes of one section against the machine of levels.

A shape is searched for anywhere in a text, but it begins with a section opening and takes the rest
of the text without another `[`, so it can only stand at the last `[` (`finds_openList`). Each of
the six shapes is then one question about the level that the text behind the `[` ends at, and the
first shape that fits is `SectionSpec.placeOf?` of that level (`search_shapes`).
-/

namespace TopologyAssist

open Reader

/-! ### The place of a level -/

/-- The place in an open block: in a value if its last piece assigns one, else in the fields. -/
def openPlace (block : Option FamilyCode) (b : List Char) : Place :=
  match assigned? (lastPiece b) with
  | some (key, v) => .value block b key v
  | none => .field block b

namespace SectionSpec

/-- The function family whose code and `=` end an open element. -/
def slotEnd? (s : SectionSpec) (b : List Char) : Option FamilyCode :=
  match assigned? (lastPiece b) with
  | some (key, []) => s.slots.find? fun f => f.text.toList == key
  | _ => none

/-- The place of the end of a list, by its level. A block that no slot announces has none. -/
def placeOf? (s : SectionSpec) : Level → Option Place
  | .list _ => some .newElement
  | .element b =>
    match s.slotEnd? b with
    | some f => some (.newBlock f)
    | none => some (openPlace none b)
  | .block b i => (s.slotEnd? b).map fun f => openPlace (some f) i

end SectionSpec

lemma FamilyCode.text_injective {f f' : FamilyCode} (h : f.text.toList = f'.text.toList) :
    f = f' := by
  cases f <;> cases f' <;> first | rfl | exact absurd h (by decide)

lemma FamilyCode.isKey_text (f : FamilyCode) : IsKey f.text.toList := by
  cases f <;> decide

lemma isValue_nil : IsValue [] := fun _ h => absurd h List.not_mem_nil

/-- An element ends with the code of a slot and `=`, and with earlier fields before it. -/
lemma SectionSpec.slotEnd?_eq_some_iff {s : SectionSpec} {b : List Char} {f : FamilyCode}
    {depth : Nat} (hb : Nested depth b) :
    s.slotEnd? b = some f ↔
      f ∈ s.slots ∧ ∃ e, FieldsBefore depth e ∧ b = e ++ (f.text.toList ++ ['=']) := by
  constructor
  · intro h
    unfold slotEnd? at h
    split at h
    · rename_i key hp
      obtain ⟨-, -, e, he, rfl⟩ := (assigned?_lastPiece_iff hb).mp hp
      have hf := List.find?_some h
      simp only [beq_iff_eq] at hf
      exact ⟨List.mem_of_find?_eq_some h, e, he, by rw [hf]⟩
    · cases h
  · rintro ⟨hf, e, he, rfl⟩
    have hp := (assigned?_lastPiece_iff hb).mpr ⟨f.isKey_text, isValue_nil, e, he, rfl⟩
    unfold slotEnd?
    rw [hp]
    show s.slots.find? (fun f' => f'.text.toList == f.text.toList) = some f
    cases hfind : s.slots.find? (fun f' => f'.text.toList == f.text.toList) with
    | none =>
      have := List.find?_eq_none.mp hfind f hf
      simp at this
    | some f' =>
      have h := List.find?_some hfind
      simp only [beq_iff_eq] at h
      rw [FamilyCode.text_injective h]

/-! ### What the parts of a shape read -/

lemma reads_flatBlock :
    flatBlock.Reads fun u => ∃ i, (∀ c ∈ i, isPlain c = true) ∧ u = '(' :: (i ++ [')']) := by
  refine ((reads_word ['(']).andThen ((reads_run isPlain).andThen (reads_word [')']))).congr ?_
  intro u
  constructor
  · rintro ⟨_, _, rfl, ⟨i, _, hi, rfl, rfl⟩, rfl⟩
    exact ⟨i, hi, rfl⟩
  · rintro ⟨i, hi, rfl⟩
    exact ⟨['('], i ++ [')'], rfl, ⟨i, [')'], hi, rfl, rfl⟩, rfl⟩

lemma nested_one_iff_row {u : List Char} :
    Nested 1 u ↔ RowOf (fun x => (∃ c, isPlain c = true ∧ x = [c]) ∨
      ∃ i, (∀ c ∈ i, isPlain c = true) ∧ x = '(' :: (i ++ [')'])) u := by
  constructor
  · intro h
    generalize hd : 1 = depth at h
    induction h with
    | nil => exact RowOf.nil
    | @plain _ c _ hc _ ih => exact RowOf.cons (Or.inl ⟨c, hc, rfl⟩) (ih hd)
    | @group depth i v hi _ _ ih =>
      obtain rfl : depth = 0 := by omega
      have h := RowOf.cons (Or.inr ⟨i, Nested.zero_iff.mp hi, rfl⟩) (ih hd)
      simpa using h
  · rintro ⟨parts, hparts, rfl⟩
    induction parts with
    | nil => exact Nested.nil
    | cons x parts ih =>
      have h := ih fun y hy => hparts y (List.mem_cons_of_mem _ hy)
      rcases hparts x (by simp) with ⟨c, hc, rfl⟩ | ⟨i, hi, rfl⟩
      · exact Nested.plain hc h
      · have := Nested.group (Nested.zero_iff.mpr hi) h
        simpa using this

lemma reads_body (slotted : Bool) : (body slotted).Reads (Nested slotted.toNat) := by
  cases slotted with
  | false =>
    refine (reads_run isPlain).congr fun u => ?_
    exact Nested.zero_iff.symm
  | true =>
    refine (((reads_one isPlain).either reads_flatBlock).many ?_).congr fun u => ?_
    · rintro u (⟨c, -, rfl⟩ | ⟨i, -, rfl⟩) <;> simp
    · exact nested_one_iff_row.symm

lemma reads_elements (slotted : Bool) : (elements slotted).Reads (ElementRow slotted.toNat) := by
  have helement : (element slotted).Reads fun u =>
      ∃ b, Nested slotted.toNat b ∧ u = '(' :: (b ++ [')']) := by
    refine ((reads_word ['(']).andThen ((reads_body slotted).andThen (reads_word [')']))).congr ?_
    intro u
    constructor
    · rintro ⟨_, _, rfl, ⟨b, _, hb, rfl, rfl⟩, rfl⟩
      exact ⟨b, hb, rfl⟩
    · rintro ⟨b, hb, rfl⟩
      exact ⟨['('], b ++ [')'], rfl, ⟨b, [')'], hb, rfl, rfl⟩, rfl⟩
  have hitem : (do element slotted; maybe (word [','])).Reads (ElementItem slotted.toNat) := by
    refine (helement.andThen (reads_word [',']).maybe).congr fun u => ?_
    constructor
    · rintro ⟨_, _, ⟨b, hb, rfl⟩, rfl | rfl, rfl⟩
      · exact ⟨b, hb, Or.inr (by simp)⟩
      · exact ⟨b, hb, Or.inl (by simp)⟩
    · rintro ⟨b, hb, rfl | rfl⟩
      · exact ⟨_, [], ⟨b, hb, rfl⟩, Or.inr rfl, by simp⟩
      · exact ⟨_, [','], ⟨b, hb, rfl⟩, Or.inl rfl, by simp⟩
  refine hitem.many ?_
  rintro u ⟨b, -, rfl | rfl⟩ <;> simp

lemma reads_earlierFields (slotted : Bool) :
    (earlierFields slotted).Reads (FieldsBefore slotted.toNat) := by
  refine (((reads_body slotted).andThen (reads_word [','])).maybe).congr fun u => ?_
  constructor
  · rintro (⟨b, _, hb, rfl, rfl⟩ | rfl)
    · exact Or.inr ⟨b, hb, rfl⟩
    · exact Or.inl rfl
  · rintro (rfl | ⟨b, hb, rfl⟩)
    · exact Or.inr rfl
    · exact Or.inl ⟨b, [','], hb, rfl, rfl⟩

lemma reads_openList (code : SectionCode) (slotted : Bool) :
    (openList code slotted).Reads fun u =>
      ∃ L, ElementRow slotted.toNat L ∧ u = code.text.toList ++ '=' :: '[' :: L := by
  refine ((reads_word _).andThen (reads_elements slotted)).congr fun u => ?_
  constructor
  · rintro ⟨_, L, rfl, hL, rfl⟩
    exact ⟨L, hL, by simp⟩
  · rintro ⟨L, hL, rfl⟩
    exact ⟨_, L, rfl, hL, by simp⟩

lemma textBefore_append (u v : List Char) : textBefore (u ++ v) v = u := by
  simp [textBefore]

/-- The readings of the end of a value. -/
lemma mem_valueEnd {slotted : Bool} {block : Option FamilyCode} {cs t : List Char} {a : Place} :
    (a, t) ∈ valueEnd slotted block cs ↔
      t = [] ∧ Nested slotted.toNat cs ∧
        ∃ key v, assigned? (lastPiece cs) = some (key, v) ∧ a = .value block cs key v := by
  constructor
  · intro h
    obtain ⟨scope, w, hscope, h₁⟩ := Reader.mem_bind.mp h
    obtain ⟨rfl, rfl⟩ := mem_here.mp hscope
    obtain ⟨e, w₁, he, rfl, h₂⟩ := (reads_earlierFields slotted).mem_bind.mp h₁
    obtain ⟨start, w₂, hstart, h₃⟩ := Reader.mem_bind.mp h₂
    obtain ⟨rfl, rfl⟩ := mem_here.mp hstart
    obtain ⟨key, w₃, hkey, rfl, h₄⟩ := (reads_run1 isKeyChar).mem_bind.mp h₃
    obtain ⟨stop, w₄, hstop, h₅⟩ := Reader.mem_bind.mp h₄
    obtain ⟨rfl, rfl⟩ := mem_here.mp hstop
    obtain ⟨_, w₅, rfl, rfl, h₆⟩ := (reads_word ['=']).mem_bind.mp h₅
    obtain ⟨fragment, w₆, hfragment, h₇⟩ := Reader.mem_bind.mp h₆
    obtain ⟨rfl, rfl⟩ := mem_here.mp hfragment
    obtain ⟨v, w₇, hv, rfl, h₈⟩ := (reads_run isValueChar).mem_bind.mp h₇
    obtain ⟨⟨⟩, w₈, hend, h₉⟩ := Reader.mem_bind.mp h₈
    obtain ⟨rfl, rfl⟩ := mem_finish.mp hend
    obtain ⟨rfl, rfl⟩ := mem_pure.mp h₉
    rw [List.append_nil, textBefore_append]
    have hn : Nested slotted.toNat (e ++ (key ++ (['='] ++ v))) :=
      he.nested.append (Nested.of_plain (plain_of_assignment hkey hv).1)
    exact ⟨rfl, hn, key, v, (assigned?_lastPiece_iff hn).mpr ⟨hkey, hv, e, he, rfl⟩, rfl⟩
  · rintro ⟨rfl, hn, key, v, hp, rfl⟩
    obtain ⟨hkey, hv, e, he, rfl⟩ := (assigned?_lastPiece_iff hn).mp hp
    refine Reader.mem_bind.mpr ⟨_, _, mem_here.mpr ⟨rfl, rfl⟩, ?_⟩
    refine (reads_earlierFields slotted).mem_bind.mpr ⟨e, _, he, rfl, ?_⟩
    refine Reader.mem_bind.mpr ⟨_, _, mem_here.mpr ⟨rfl, rfl⟩, ?_⟩
    refine (reads_run1 isKeyChar).mem_bind.mpr ⟨key, _, hkey, rfl, ?_⟩
    refine Reader.mem_bind.mpr ⟨_, _, mem_here.mpr ⟨rfl, rfl⟩, ?_⟩
    refine (reads_word ['=']).mem_bind.mpr ⟨_, v, rfl, rfl, ?_⟩
    refine Reader.mem_bind.mpr ⟨_, _, mem_here.mpr ⟨rfl, rfl⟩, ?_⟩
    refine (reads_run isValueChar).mem_bind.mpr ⟨v, [], hv, by simp, ?_⟩
    refine Reader.mem_bind.mpr ⟨(), [], mem_finish.mpr ⟨rfl, rfl⟩, ?_⟩
    refine mem_pure.mpr ⟨?_, rfl⟩
    rw [textBefore_append]

/-- The readings of the end of the fields. -/
lemma mem_fieldEnd {slotted : Bool} {block : Option FamilyCode} {cs t : List Char} {a : Place} :
    (a, t) ∈ fieldEnd slotted block cs ↔
      t = [] ∧ Nested slotted.toNat cs ∧ a = .field block cs := by
  constructor
  · intro h
    obtain ⟨scope, w, hscope, h₁⟩ := Reader.mem_bind.mp h
    obtain ⟨rfl, rfl⟩ := mem_here.mp hscope
    obtain ⟨b, w₁, hb, rfl, h₂⟩ := (reads_body slotted).mem_bind.mp h₁
    obtain ⟨⟨⟩, w₂, hend, h₃⟩ := Reader.mem_bind.mp h₂
    obtain ⟨rfl, rfl⟩ := mem_finish.mp hend
    obtain ⟨rfl, rfl⟩ := mem_pure.mp h₃
    rw [List.append_nil]
    exact ⟨rfl, hb, rfl⟩
  · rintro ⟨rfl, hb, rfl⟩
    refine Reader.mem_bind.mpr ⟨_, _, mem_here.mpr ⟨rfl, rfl⟩, ?_⟩
    refine (reads_body slotted).mem_bind.mpr ⟨cs, [], hb, by simp, ?_⟩
    exact Reader.mem_bind.mpr ⟨(), [], mem_finish.mpr ⟨rfl, rfl⟩, mem_pure.mpr ⟨rfl, rfl⟩⟩

/-- An open element up to the code of a slot and `=`, without the list before it. -/
def slotStart (slots : List FamilyCode) : Reader FamilyCode := do
  word ['(']
  earlierFields true
  let family ← familyCode slots
  word ['=']
  pure family

lemma mem_familyCode {slots : List FamilyCode} {f : FamilyCode} {cs t : List Char} :
    (f, t) ∈ familyCode slots cs ↔ f ∈ slots ∧ cs = f.text.toList ++ t := by
  rw [familyCode, mem_oneOf]
  constructor
  · rintro ⟨_, hr, h⟩
    obtain ⟨f', hf', rfl⟩ := List.mem_map.mp hr
    obtain ⟨_, v, rfl, rfl, hpure⟩ := (reads_word _).mem_bind.mp h
    obtain ⟨rfl, rfl⟩ := mem_pure.mp hpure
    exact ⟨hf', rfl⟩
  · rintro ⟨hf, rfl⟩
    refine ⟨_, List.mem_map.mpr ⟨f, hf, rfl⟩, ?_⟩
    exact (reads_word _).mem_bind.mpr ⟨_, t, rfl, rfl, mem_pure.mpr ⟨rfl, rfl⟩⟩

lemma mem_slotStart {s : SectionSpec} {f : FamilyCode} {cs t : List Char} :
    (f, t) ∈ slotStart s.slots cs ↔
      ∃ b, Nested 1 b ∧ s.slotEnd? b = some f ∧ cs = '(' :: (b ++ t) := by
  constructor
  · intro h
    obtain ⟨_, w, rfl, rfl, h₁⟩ := (reads_word ['(']).mem_bind.mp h
    obtain ⟨e, w₁, he, rfl, h₂⟩ := (reads_earlierFields true).mem_bind.mp h₁
    obtain ⟨f', w₂, hcode, h₃⟩ := Reader.mem_bind.mp h₂
    obtain ⟨hf, rfl⟩ := mem_familyCode.mp hcode
    obtain ⟨_, w₃, rfl, rfl, h₄⟩ := (reads_word ['=']).mem_bind.mp h₃
    obtain ⟨rfl, rfl⟩ := mem_pure.mp h₄
    have hn : Nested 1 (e ++ (f.text.toList ++ ['='])) :=
      he.nested.append (Nested.of_plain (plain_of_assignment f.isKey_text isValue_nil).1)
    exact ⟨_, hn, (SectionSpec.slotEnd?_eq_some_iff hn).mpr ⟨hf, e, he, rfl⟩, by simp⟩
  · rintro ⟨b, hb, hend, rfl⟩
    obtain ⟨hf, e, he, rfl⟩ := (SectionSpec.slotEnd?_eq_some_iff hb).mp hend
    refine (reads_word ['(']).mem_bind.mpr ⟨_, _, rfl, rfl, ?_⟩
    refine (reads_earlierFields true).mem_bind.mpr
      ⟨e, f.text.toList ++ ('=' :: t), he, by simp, ?_⟩
    refine Reader.mem_bind.mpr ⟨f, '=' :: t, mem_familyCode.mpr ⟨hf, rfl⟩, ?_⟩
    exact (reads_word ['=']).mem_bind.mpr ⟨_, t, rfl, rfl, mem_pure.mpr ⟨rfl, rfl⟩⟩

/-! ### The last opening -/

/-- How the text before a `[` ends if the `[` opens the list of a section. -/
def SectionCode.opens (code : SectionCode) (q : List Char) : Prop :=
  code.text.toList ++ ['='] <:+ q

instance (code : SectionCode) (q : List Char) : Decidable (code.opens q) :=
  inferInstanceAs (Decidable (_ <:+ _))

/-- **A shape stands at the last `[`**, where its section opens. -/
theorem finds_openList {α : Type} {code : SectionCode} {slotted : Bool} {k : Unit → Reader α}
    (hk : ∀ u a t, (a, t) ∈ k () u → '[' ∉ u) {q r : List Char} (hr : '[' ∉ r) {a : α} :
    (openList code slotted >>= k).Finds (q ++ '[' :: r) a ↔
      code.opens q ∧ ∃ L u t, ElementRow slotted.toNat L ∧ (a, t) ∈ k () u ∧ r = L ++ u := by
  constructor
  · rintro ⟨v, t, ⟨w, hw⟩, hv⟩
    obtain ⟨_, u, ⟨L, hL, rfl⟩, rfl, h⟩ := (reads_openList code slotted).mem_bind.mp hv
    have hLu : '[' ∉ L ++ u := by
      rw [List.mem_append]
      rintro (h' | h')
      · exact hL.not_mem_square.1 h'
      · exact hk u a t h h'
    have heq : (w ++ (code.text.toList ++ ['='])) ++ '[' :: (L ++ u) = q ++ '[' :: r := by
      rw [← hw]
      simp
    obtain ⟨hq, rfl⟩ := split_last_unique hLu hr heq
    exact ⟨⟨w, hq⟩, L, u, t, hL, h, rfl⟩
  · rintro ⟨⟨w, rfl⟩, L, u, t, hL, h, rfl⟩
    refine ⟨code.text.toList ++ '=' :: '[' :: L ++ u, t, ⟨w, by simp⟩, ?_⟩
    exact (reads_openList code slotted).mem_bind.mpr ⟨_, u, ⟨L, hL, rfl⟩, rfl, h⟩

/-- No shape stands in a text without `[`. -/
lemma not_finds_openList {α : Type} {code : SectionCode} {slotted : Bool} {k : Unit → Reader α}
    {cs : List Char} (h : '[' ∉ cs) {a : α} : ¬ (openList code slotted >>= k).Finds cs a := by
  rintro ⟨v, t, hv, hm⟩
  obtain ⟨_, u, ⟨L, -, rfl⟩, rfl, -⟩ := (reads_openList code slotted).mem_bind.mp hm
  exact h (hv.subset (by simp))

lemma search?_eq_of_finds {α : Type} {r : Reader α} {cs : List Char} {o : Option α}
    (h : ∀ a, r.Finds cs a ↔ o = some a) : r.search? cs = o := by
  cases o with
  | none => exact search?_eq_none_iff.mpr fun a ha => by cases (h a).mp ha
  | some a =>
    refine (search?_eq_some_iff fun b b' hb hb' => ?_).mpr ((h a).mpr rfl)
    have h1 := (h b).mp hb
    have h2 := (h b').mp hb'
    exact Option.some.inj (h1.symm.trans h2)

/-! ### One shape, one question -/

/-- What is left of a list behind its closed elements. -/
def Rest (slotted : Bool) (u : List Char) : Level → Prop
  | .list _ => u = []
  | .element b => Nested slotted.toNat b ∧ u = '(' :: b
  | .block b i => slotted = true ∧ Nested 1 b ∧ Nested 0 i ∧ u = '(' :: (b ++ '(' :: i)

lemma Rest.not_mem_square {slotted : Bool} {u : List Char} {l : Level} (h : Rest slotted u l) :
    '[' ∉ u := by
  cases l with
  | list closed => rw [show u = [] from h]; exact List.not_mem_nil
  | element b => simp [h.2, h.1.not_mem_square]
  | block b i => simp [h.2.2.2, h.2.1.not_mem_square, h.2.2.1.not_mem_square]

/-- **A shape asks one question about the level.** What its reader takes behind the closed elements
is what a level leaves, and the question answers for that level. -/
theorem search_shape {code : SectionCode} {slotted : Bool} {k : Unit → Reader Place}
    {ask : Level → Option Place} (hlist : ∀ closed, ask (.list closed) = ask (.list false))
    (hk : ∀ u a, (∃ t, (a, t) ∈ k () u) ↔ ∃ l, Rest slotted u l ∧ ask l = some a)
    {q r : List Char} (hr : '[' ∉ r) :
    (openList code slotted >>= k).search? (q ++ '[' :: r) =
      if code.opens q then (scan slotted r).bind ask else none := by
  have hfree : ∀ u a t, (a, t) ∈ k () u → '[' ∉ u := by
    intro u a t h
    obtain ⟨l, hl, -⟩ := (hk u a).mp ⟨t, h⟩
    exact hl.not_mem_square
  refine search?_eq_of_finds fun a => ?_
  rw [finds_openList hfree hr]
  by_cases hq : code.opens q
  case neg => simp [hq]
  rw [if_pos hq, Option.bind_eq_some_iff]
  constructor
  · rintro ⟨-, L, u, t, hL, h, rfl⟩
    obtain ⟨l, hl, ha⟩ := (hk u a).mp ⟨t, h⟩
    cases l with
    | list closed =>
      obtain rfl : u = [] := hl
      rw [List.append_nil]
      refine ⟨.list (endsWith ')' L), scan_eq_some_iff.mpr ⟨hL, rfl⟩, ?_⟩
      rw [hlist, ← hlist closed, ha]
    | element b =>
      obtain ⟨hb, rfl⟩ := hl
      exact ⟨.element b, scan_eq_some_iff.mpr ⟨L, hL, hb, rfl⟩, ha⟩
    | block b i =>
      obtain ⟨rfl, hb, hi, rfl⟩ := hl
      exact ⟨.block b i, scan_eq_some_iff.mpr ⟨rfl, L, hL, hb, hi, rfl⟩, ha⟩
  · rintro ⟨l, hscan, ha⟩
    have hr' := scan_eq_some_iff.mp hscan
    refine ⟨hq, ?_⟩
    cases l with
    | list closed =>
      obtain ⟨t, ht⟩ := (hk [] a).mpr ⟨.list closed, rfl, ha⟩
      exact ⟨r, [], t, hr'.1, ht, by simp⟩
    | element b =>
      obtain ⟨L, hL, hb, rfl⟩ := hr'
      obtain ⟨t, ht⟩ := (hk _ a).mpr ⟨.element b, ⟨hb, rfl⟩, ha⟩
      exact ⟨L, _, t, hL, ht, rfl⟩
    | block b i =>
      obtain ⟨rfl, L, hL, hb, hi, rfl⟩ := hr'
      obtain ⟨t, ht⟩ := (hk _ a).mpr ⟨.block b i, ⟨rfl, hb, hi, rfl⟩, ha⟩
      exact ⟨L, _, t, hL, ht, rfl⟩

namespace Level

/-- In the value of an element. -/
def inValue? : Level → Option Place
  | element b => (assigned? (lastPiece b)).map fun a => .value none b a.1 a.2
  | _ => none

/-- In the fields of an element. -/
def inFields? : Level → Option Place
  | element b => some (.field none b)
  | _ => none

/-- Between elements. -/
def betweenElements? : Level → Option Place
  | list _ => some .newElement
  | _ => none

/-- In the value of a function block. -/
def inBlockValue? (s : SectionSpec) : Level → Option Place
  | block b i => (s.slotEnd? b).bind fun f =>
      (assigned? (lastPiece i)).map fun a => .value (some f) i a.1 a.2
  | _ => none

/-- In the fields of a function block. -/
def inBlockFields? (s : SectionSpec) : Level → Option Place
  | block b i => (s.slotEnd? b).map fun f => .field (some f) i
  | _ => none

/-- Where a function block opens. -/
def atBlock? (s : SectionSpec) : Level → Option Place
  | element b => (s.slotEnd? b).map .newBlock
  | _ => none

end Level

section Search

variable {s : SectionSpec} {code : SectionCode} {slotted : Bool} {q r : List Char}
  (hr : '[' ∉ r)
include hr

lemma search_inValue :
    (do openList code slotted; word ['(']; valueEnd slotted none).search? (q ++ '[' :: r) =
      if code.opens q then (scan slotted r).bind Level.inValue? else none := by
  refine search_shape (fun _ => rfl) (fun u a => ?_) hr
  constructor
  · rintro ⟨t, h⟩
    obtain ⟨_, b, rfl, rfl, hval⟩ := (reads_word ['(']).mem_bind.mp h
    obtain ⟨-, hb, key, v, hp, rfl⟩ := mem_valueEnd.mp hval
    exact ⟨.element b, ⟨hb, rfl⟩, by simp [Level.inValue?, hp]⟩
  · rintro ⟨_ | b | _, hl, ha⟩
    · cases ha
    · obtain ⟨hb, rfl⟩ := hl
      obtain ⟨⟨key, v⟩, hp, rfl⟩ := Option.map_eq_some_iff.mp ha
      exact ⟨[], (reads_word ['(']).mem_bind.mpr
        ⟨_, b, rfl, rfl, mem_valueEnd.mpr ⟨rfl, hb, key, v, hp, rfl⟩⟩⟩
    · cases ha

lemma search_inFields :
    (do openList code slotted; word ['(']; fieldEnd slotted none).search? (q ++ '[' :: r) =
      if code.opens q then (scan slotted r).bind Level.inFields? else none := by
  refine search_shape (fun _ => rfl) (fun u a => ?_) hr
  constructor
  · rintro ⟨t, h⟩
    obtain ⟨_, b, rfl, rfl, hfields⟩ := (reads_word ['(']).mem_bind.mp h
    obtain ⟨-, hb, rfl⟩ := mem_fieldEnd.mp hfields
    exact ⟨.element b, ⟨hb, rfl⟩, rfl⟩
  · rintro ⟨_ | b | _, hl, ha⟩
    · cases ha
    · obtain ⟨hb, rfl⟩ := hl
      obtain rfl := Option.some.inj ha
      exact ⟨[], (reads_word ['(']).mem_bind.mpr
        ⟨_, b, rfl, rfl, mem_fieldEnd.mpr ⟨rfl, hb, rfl⟩⟩⟩
    · cases ha

lemma search_betweenElements :
    (do openList code slotted; finish; pure Place.newElement).search? (q ++ '[' :: r) =
      if code.opens q then (scan slotted r).bind Level.betweenElements? else none := by
  refine search_shape (fun _ => rfl) (fun u a => ?_) hr
  constructor
  · rintro ⟨t, h⟩
    obtain ⟨⟨⟩, w, hend, h⟩ := Reader.mem_bind.mp h
    obtain ⟨rfl, rfl⟩ := mem_finish.mp hend
    obtain ⟨rfl, rfl⟩ := mem_pure.mp h
    exact ⟨.list false, rfl, rfl⟩
  · rintro ⟨_ | _ | _, hl, ha⟩
    · obtain rfl : u = [] := hl
      obtain rfl := Option.some.inj ha
      exact ⟨[], Reader.mem_bind.mpr ⟨(), [], mem_finish.mpr ⟨rfl, rfl⟩, mem_pure.mpr ⟨rfl, rfl⟩⟩⟩
    · cases ha
    · cases ha

lemma search_inBlockValue :
    (do
      let family ← blockStart code s.slots
      word ['(']
      valueEnd false (some family)).search? (q ++ '[' :: r) =
      if code.opens q then (scan true r).bind (Level.inBlockValue? s) else none := by
  rw [show blockStart code s.slots = openList code true >>= fun _ => slotStart s.slots from rfl,
    Reader.bind_assoc]
  refine search_shape (fun _ => rfl) (fun u a => ?_) hr
  constructor
  · rintro ⟨t, h⟩
    obtain ⟨f, w, hf, hblock⟩ := Reader.mem_bind.mp h
    obtain ⟨b, hb, hend, rfl⟩ := mem_slotStart.mp hf
    obtain ⟨_, i, rfl, rfl, hval⟩ := (reads_word ['(']).mem_bind.mp hblock
    obtain ⟨-, hi, key, v, hp, rfl⟩ := mem_valueEnd.mp hval
    exact ⟨.block b i, ⟨rfl, hb, hi, rfl⟩, by simp [Level.inBlockValue?, hend, hp]⟩
  · rintro ⟨_ | _ | ⟨b, i⟩, hl, ha⟩
    · cases ha
    · cases ha
    · obtain ⟨-, hb, hi, rfl⟩ := hl
      obtain ⟨f, hend, ha⟩ := Option.bind_eq_some_iff.mp ha
      obtain ⟨⟨key, v⟩, hp, rfl⟩ := Option.map_eq_some_iff.mp ha
      refine ⟨[], Reader.mem_bind.mpr ⟨f, _, mem_slotStart.mpr ⟨b, hb, hend, rfl⟩, ?_⟩⟩
      exact (reads_word ['(']).mem_bind.mpr
        ⟨_, i, rfl, rfl, mem_valueEnd.mpr ⟨rfl, hi, key, v, hp, rfl⟩⟩

lemma search_inBlockFields :
    (do
      let family ← blockStart code s.slots
      word ['(']
      fieldEnd false (some family)).search? (q ++ '[' :: r) =
      if code.opens q then (scan true r).bind (Level.inBlockFields? s) else none := by
  rw [show blockStart code s.slots = openList code true >>= fun _ => slotStart s.slots from rfl,
    Reader.bind_assoc]
  refine search_shape (fun _ => rfl) (fun u a => ?_) hr
  constructor
  · rintro ⟨t, h⟩
    obtain ⟨f, w, hf, hblock⟩ := Reader.mem_bind.mp h
    obtain ⟨b, hb, hend, rfl⟩ := mem_slotStart.mp hf
    obtain ⟨_, i, rfl, rfl, hfields⟩ := (reads_word ['(']).mem_bind.mp hblock
    obtain ⟨-, hi, rfl⟩ := mem_fieldEnd.mp hfields
    exact ⟨.block b i, ⟨rfl, hb, hi, rfl⟩, by simp [Level.inBlockFields?, hend]⟩
  · rintro ⟨_ | _ | ⟨b, i⟩, hl, ha⟩
    · cases ha
    · cases ha
    · obtain ⟨-, hb, hi, rfl⟩ := hl
      obtain ⟨f, hend, rfl⟩ := Option.map_eq_some_iff.mp ha
      refine ⟨[], Reader.mem_bind.mpr ⟨f, _, mem_slotStart.mpr ⟨b, hb, hend, rfl⟩, ?_⟩⟩
      exact (reads_word ['(']).mem_bind.mpr ⟨_, i, rfl, rfl, mem_fieldEnd.mpr ⟨rfl, hi, rfl⟩⟩

lemma search_atBlock :
    (do
      let family ← blockStart code s.slots
      finish
      pure (Place.newBlock family)).search? (q ++ '[' :: r) =
      if code.opens q then (scan true r).bind (Level.atBlock? s) else none := by
  rw [show blockStart code s.slots = openList code true >>= fun _ => slotStart s.slots from rfl,
    Reader.bind_assoc]
  refine search_shape (fun _ => rfl) (fun u a => ?_) hr
  constructor
  · rintro ⟨t, h⟩
    obtain ⟨f, w, hf, hstop⟩ := Reader.mem_bind.mp h
    obtain ⟨b, hb, hend, rfl⟩ := mem_slotStart.mp hf
    obtain ⟨⟨⟩, _, hfin, hpure⟩ := Reader.mem_bind.mp hstop
    obtain ⟨rfl, rfl⟩ := mem_finish.mp hfin
    obtain ⟨rfl, rfl⟩ := mem_pure.mp hpure
    exact ⟨.element b, ⟨hb, by simp⟩, by simp [Level.atBlock?, hend]⟩
  · rintro ⟨_ | b | _, hl, ha⟩
    · cases ha
    · obtain ⟨hb, rfl⟩ := hl
      obtain ⟨f, hend, rfl⟩ := Option.map_eq_some_iff.mp ha
      refine ⟨[], Reader.mem_bind.mpr ⟨f, [], mem_slotStart.mpr ⟨b, hb, hend, by simp⟩, ?_⟩⟩
      exact Reader.mem_bind.mpr ⟨(), [], mem_finish.mpr ⟨rfl, rfl⟩, mem_pure.mpr ⟨rfl, rfl⟩⟩
    · cases ha

end Search

/-! ### The shapes of a section -/

lemma openPlace_eq (block : Option FamilyCode) (b : List Char) :
    some (openPlace block b) =
      ((assigned? (lastPiece b)).map fun a => Place.value block b a.1 a.2).or
        (some (.field block b)) := by
  unfold openPlace
  cases assigned? (lastPiece b) <;> rfl

lemma SectionSpec.slotEnd?_of_not_slotted {s : SectionSpec} (h : s.slotted = false)
    (b : List Char) : s.slotEnd? b = none := by
  have hs : s.slots = [] := by simpa [slotted] using h
  unfold slotEnd?
  split
  · rw [hs]; rfl
  · rfl

/-- No shape fits a text without `[`. -/
lemma SectionSpec.search?_of_not_mem (s : SectionSpec) {shape : Reader Place}
    (hshape : shape ∈ s.shapes) {p : List Char} (h : '[' ∉ p) : shape.search? p = none := by
  have hnone : ∀ (code : SectionCode) (slotted : Bool) (k : Unit → Reader Place),
      (openList code slotted >>= k).search? p = none := fun code slotted k =>
    search?_eq_none_iff.mpr fun a => not_finds_openList h
  unfold SectionSpec.shapes at hshape
  rcases List.mem_append.mp hshape with hb | hl
  · split_ifs at hb
    · simp only [blockShapes, List.mem_cons, List.not_mem_nil, or_false] at hb
      rcases hb with rfl | rfl | rfl
      all_goals
        rw [show blockStart s.code s.slots = openList s.code true >>= fun _ => slotStart s.slots
          from rfl, Reader.bind_assoc]
        exact hnone _ _ _
    · exact absurd hb List.not_mem_nil
  · simp only [listShapes, List.mem_cons, List.not_mem_nil, or_false] at hl
    rcases hl with rfl | rfl | rfl <;> exact hnone _ _ _

/-- **The first shape that fits answers the place of the level**, where the section opens. -/
theorem search_shapes {s : SectionSpec} {q r : List Char} (hr : '[' ∉ r) :
    s.shapes.findSome? (fun shape => shape.search? (q ++ '[' :: r)) =
      if s.code.opens q then (scan s.slotted r).bind s.placeOf? else none := by
  unfold SectionSpec.shapes
  by_cases hq : s.code.opens q
  case neg =>
    cases s.slotted <;> simp [listShapes, blockShapes, search_inValue hr, search_inFields hr,
      search_betweenElements hr, search_inBlockValue hr, search_inBlockFields hr,
      search_atBlock hr, hq]
  rw [if_pos hq]
  have hlist : ∀ slotted, (listShapes s.code slotted).findSome?
      (fun shape => shape.search? (q ++ '[' :: r)) =
      ((scan slotted r).bind Level.inValue?).or (((scan slotted r).bind Level.inFields?).or
        ((scan slotted r).bind Level.betweenElements?)) := by
    intro slotted
    simp only [listShapes, List.findSome?_cons, List.findSome?_nil, search_inValue hr,
      search_inFields hr, search_betweenElements hr, if_pos hq]
    cases (scan slotted r).bind Level.inValue? <;> cases (scan slotted r).bind Level.inFields? <;>
      cases (scan slotted r).bind Level.betweenElements? <;> rfl
  cases hs : s.slotted with
  | false =>
    simp only [Bool.false_eq_true, if_false, List.nil_append, hlist]
    cases hscan : scan false r with
    | none => rfl
    | some l =>
      cases l with
      | list closed => rfl
      | element b =>
        simp only [Option.bind_some, Level.inValue?, Level.inFields?, Level.betweenElements?,
          SectionSpec.placeOf?, SectionSpec.slotEnd?_of_not_slotted hs, openPlace_eq,
          Option.or_none]
      | block b i => exact absurd (scan_eq_some_iff.mp hscan).1 (by decide)
  | true =>
    simp only [if_true, List.findSome?_append, hlist]
    simp only [blockShapes, List.findSome?_cons, List.findSome?_nil, search_inBlockValue hr,
      search_inBlockFields hr, search_atBlock hr, if_pos hq]
    cases hscan : scan true r with
    | none => rfl
    | some l =>
      cases l with
      | list closed => rfl
      | element b =>
        simp only [Option.bind_some, Level.inValue?, Level.inFields?, Level.betweenElements?,
          Level.inBlockValue?, Level.inBlockFields?, Level.atBlock?, SectionSpec.placeOf?]
        cases s.slotEnd? b with
        | none => simp [openPlace_eq]
        | some f => rfl
      | block b i =>
        simp only [Option.bind_some, Level.inValue?, Level.inFields?, Level.betweenElements?,
          Level.inBlockValue?, Level.inBlockFields?, Level.atBlock?, SectionSpec.placeOf?]
        cases s.slotEnd? b with
        | none => rfl
        | some f =>
          simp only [Option.bind_some, Option.map_some, openPlace_eq]
          cases assigned? (lastPiece i) <;> rfl

end TopologyAssist
