import TopologyAssist.Proofs.FieldEvidence
import TopologyAssist.Proofs.OpenBlocks

/-!
What a closed block holds does not matter to the element around it.

The text of a block takes part in everything that is done with the element's text: it is read by the
shape that fits, divided at its commas, and searched for the selecting key. Still only what stands
outside has a say.

* `aroundBlock a b x` — an element's text with the block `(x)` between `a` and `b`;
* `assigned?_lastPiece_aroundBlock`, `WithoutBlocks.replace` — what is being typed, and what is left
  without the blocks, are the same whatever `x` is;
* `Grammar.place?_of_element` — so is the table that the shapes are taken from, also where a section
  has several;
* `Grammar.classify_aroundBlock` — and so is the context, but for the fragment.
-/

namespace TopologyAssist

/-- An element's text around one of its blocks. -/
def aroundBlock (a b x : List Char) : List Char := a ++ '(' :: (x ++ ')' :: b)

variable {a b x y : List Char}

/-! ### What is outside the block -/

/-- Another content leaves the same text without blocks. -/
lemma WithoutBlocks.replace {scope flat : List Char} (h : WithoutBlocks scope flat)
    (hx : ∀ c ∈ x, isPlain c = true) (hy : ∀ c ∈ y, isPlain c = true) :
    ∀ {a}, scope = aroundBlock a b x → WithoutBlocks (aroundBlock a b y) flat := by
  have hclose : ∀ {u : List Char}, (∀ c ∈ u, isPlain c = true) → ')' ∉ u :=
    fun hu hmem => absurd (hu ')' hmem) (by decide)
  induction h with
  | nil =>
    intro a heq
    cases a <;> cases heq
  | @plain c u flat hc _ ih =>
    intro a heq
    cases a with
    | nil =>
      obtain ⟨rfl, -⟩ := List.cons.inj heq
      exact absurd hc (by decide)
    | cons d a =>
      obtain ⟨rfl, hrest⟩ := List.cons.inj heq
      exact .plain hc (ih hrest)
  | @block v u flat hv hu ih =>
    intro a heq
    cases a with
    | nil =>
      -- the block at hand is the first one
      obtain ⟨rfl, rfl⟩ := split_unique (hclose hv) (hclose hx) (List.cons.inj heq).2
      exact .block hy hu
    | cons d a =>
      obtain ⟨rfl, hrest⟩ := List.cons.inj heq
      rcases List.append_eq_append_iff.mp hrest with ⟨z, rfl, hz⟩ | ⟨z, rfl, hz⟩
      · cases z with
        | nil => exact absurd (List.cons.inj hz).1 (by decide)
        | cons e z =>
          obtain ⟨rfl, htail⟩ := List.cons.inj hz
          have hblock := WithoutBlocks.block hv (ih htail)
          simpa [aroundBlock] using hblock
      · -- a block does not begin inside a block
        cases z with
        | nil => exact absurd (List.cons.inj hz).1 (by decide)
        | cons e z =>
          obtain ⟨rfl, -⟩ := List.cons.inj hz
          exact absurd (hv '(' (by simp)) (by decide)

lemma Nested.replace (h : Nested 1 (aroundBlock a b x)) (hx : ∀ c ∈ x, isPlain c = true)
    (hy : ∀ c ∈ y, isPlain c = true) :
    Nested 1 (aroundBlock a b y) ∧
      dropBlocks 0 (aroundBlock a b y) = dropBlocks 0 (aroundBlock a b x) := by
  obtain ⟨flat, hflat⟩ := nested_one_iff_exists_withoutBlocks.mp h
  have hflat' := hflat.replace hx hy rfl
  exact ⟨nested_one_iff_exists_withoutBlocks.mpr ⟨flat, hflat'⟩,
    hflat'.dropBlocks_eq.trans hflat.dropBlocks_eq.symm⟩

/-- The last piece lies behind the block, or it ends with the parenthesis of the block and what is
behind it. -/
lemma lastPiece_aroundBlock (a b : List Char) :
    (∃ piece, ∀ x, lastPiece (aroundBlock a b x) = piece) ∨
      ∀ x, ∃ u, lastPiece (aroundBlock a b x) = u ++ ')' :: b := by
  have hsplit : ∀ x, aroundBlock a b x = (a ++ '(' :: x) ++ ')' :: b := fun x => by
    simp [aroundBlock]
  rcases not_mem_or_split_last ',' b with hb | ⟨u, v, hv, rfl⟩
  · refine Or.inr fun x => ⟨lastPiece (a ++ '(' :: x), ?_⟩
    rw [hsplit, lastPiece_append_of_not_mem (by simp [hb])]
  · refine Or.inl ⟨v, fun x => ?_⟩
    rw [hsplit, ← List.cons_append, ← List.append_assoc, lastPiece_append hv]

/-- A piece with a parenthesis in it assigns nothing. -/
lemma assigned?_of_mem_close {piece : List Char} (h : ')' ∈ piece) : assigned? piece = none := by
  cases hp : assigned? piece with
  | none => rfl
  | some p =>
    obtain ⟨hkey, hv, rfl⟩ := assigned?_eq_some_iff.mp hp
    exact absurd ((plain_of_assignment hkey hv).1 _ h) (by decide)

lemma assigned?_lastPiece_aroundBlock (a b x y : List Char) :
    assigned? (lastPiece (aroundBlock a b y)) = assigned? (lastPiece (aroundBlock a b x)) := by
  rcases lastPiece_aroundBlock a b with ⟨piece, hpiece⟩ | hclose
  · rw [hpiece, hpiece]
  · obtain ⟨u, hu⟩ := hclose x
    obtain ⟨v, hv⟩ := hclose y
    rw [hu, hv, assigned?_of_mem_close (by simp), assigned?_of_mem_close (by simp)]

lemma isEmpty_lastPiece_aroundBlock (a b x y : List Char) :
    (lastPiece (aroundBlock a b y)).isEmpty = (lastPiece (aroundBlock a b x)).isEmpty := by
  rcases lastPiece_aroundBlock a b with ⟨piece, hpiece⟩ | hclose
  · rw [hpiece, hpiece]
  · obtain ⟨u, hu⟩ := hclose x
    obtain ⟨v, hv⟩ := hclose y
    have hne : ∀ w, (w ++ ')' :: b).isEmpty = false := fun w => by cases w <;> rfl
    rw [hu, hv, hne, hne]

lemma endsWith_aroundBlock (c : Char) (a b x y : List Char) :
    endsWith c (aroundBlock a b y) = endsWith c (aroundBlock a b x) := by
  have hlast : ∀ x, (aroundBlock a b x).getLast? = (')' :: b).getLast? := by
    intro x
    rw [aroundBlock, ← List.cons_append, ← List.append_assoc, List.getLast?_append,
      List.getLast?_cons]
    rfl
  rw [endsWith, endsWith, hlast, hlast]

/-! ### The context around the block -/

/-- The text of the element that a place lies in, if it lies in no block. -/
def Place.elementText? : Place → Option (List Char)
  | .field none scope => some scope
  | .value none scope _ _ => some scope
  | _ => none

/-- The context without what was typed of a key or value. -/
def Context.withoutFragment (ctx : Context) : Context := { ctx with fragment := "" }

lemma elementText?_openPlace (block : Option FamilyCode) (scope : List Char) :
    (openPlace block scope).elementText? = block.elim (some scope) fun _ => none := by
  unfold openPlace
  cases block <;> cases assigned? (lastPiece scope) <;> rfl

/-- A place in an element is the one of the level of its text. -/
lemma SectionSpec.level_of_elementText? {s : SectionSpec} {l : Level} {place : Place}
    {text : List Char} (h : s.placeOf? l = some place) (htext : place.elementText? = some text) :
    l = .element text ∧ s.slotEnd? text = none ∧ place = openPlace none text := by
  cases l with
  | list closed =>
    obtain rfl := Option.some.inj h
    cases htext
  | element scope =>
    cases hend : s.slotEnd? scope with
    | some f =>
      simp only [placeOf?, hend] at h
      obtain rfl := Option.some.inj h
      cases htext
    | none =>
      simp only [placeOf?, hend] at h
      obtain rfl := Option.some.inj h
      rw [elementText?_openPlace] at htext
      obtain rfl := Option.some.inj htext
      exact ⟨rfl, hend, rfl⟩
  | block e i =>
    obtain ⟨f, -, rfl⟩ := Option.map_eq_some_iff.mp h
    rw [elementText?_openPlace] at htext
    cases htext

namespace Grammar

variable {g : Grammar}

/-- **Among several tables of a section** the first with slots decides the place in an element that
holds a block. -/
lemma place?_of_element {q L scope : List Char} (hL : ElementRow 1 L) (hscope : Nested 1 scope)
    (hopen : '(' ∈ scope) :
    g.place? (g.sectionTail (q ++ '[' :: (L ++ '(' :: scope))) =
      (g.sections.find? fun s => decide (s.code.opens q) && s.slotted).bind fun s =>
        (s.placeOf? (.element scope)).map fun place => (s.code, place) := by
  have htrue : scan true (L ++ '(' :: scope) = some (.element scope) :=
    scan_eq_some_iff.mpr ⟨L, hL, hscope, rfl⟩
  have hfalse : scan false (L ++ '(' :: scope) = none := by
    cases h : scan false (L ++ '(' :: scope) with
    | none => rfl
    | some l =>
      -- blocks are read the same way where they may stand, so the text would have none
      have hl := scan_true_of_scan h
      rw [htrue] at hl
      obtain rfl := Option.some.inj hl
      obtain ⟨_, -, hflat, -⟩ := scan_eq_some_iff.mp h
      exact absurd (Nested.zero_iff.mp hflat '(' hopen) (by decide)
  rw [place?_sectionTail (not_mem_square_of_scan htrue).1]
  induction g.sections with
  | nil => rfl
  | cons s rest ih =>
    have hsome : ∃ place, s.placeOf? (.element scope) = some place := by
      simp only [SectionSpec.placeOf?]
      cases s.slotEnd? scope <;> exact ⟨_, rfl⟩
    obtain ⟨place, hplace⟩ := hsome
    rw [List.findSome?_cons, ih]
    by_cases hq : s.code.opens q
    · cases hs : s.slotted with
      | true => simp [hq, hs, htrue, hplace]
      | false => simp [hq, hs, hfalse]
    · simp [hq]

/-- The kinds that are left depend on the text of the block without the blocks in it. -/
lemma resolve_of_dropBlocks {scope scope' : List Char} (c : Container)
    (h : dropBlocks 0 scope' = dropBlocks 0 scope) (lookahead history : List Char) :
    g.resolve c ⟨scope', lookahead, history⟩ = g.resolve c ⟨scope, lookahead, history⟩ := by
  simp only [resolve, h]

/-- The context in an element but for its fragment, with another content of a block. -/
lemma openContext_aroundBlock (c : Container) (history lookahead : List Char)
    (h : dropBlocks 0 (aroundBlock a b y) = dropBlocks 0 (aroundBlock a b x)) :
    (g.openContext c (history ++ aroundBlock a b y) (aroundBlock a b y)
        lookahead).withoutFragment =
      (g.openContext c (history ++ aroundBlock a b x) (aroundBlock a b x)
        lookahead).withoutFragment := by
  have hclose : endsWith ')' (lastPiece (aroundBlock a b y)) =
      endsWith ')' (lastPiece (aroundBlock a b x)) := by
    rw [endsWith_lastPiece (by decide), endsWith_lastPiece (by decide),
      endsWith_aroundBlock _ _ _ x y]
  unfold openContext resolveAt
  rw [assigned?_lastPiece_aroundBlock a b x y, isEmpty_lastPiece_aroundBlock a b x y, hclose,
    endsWith_aroundBlock _ _ _ x y, textBefore_append, textBefore_append,
    resolve_of_dropBlocks c h]
  cases assigned? (lastPiece (aroundBlock a b x)) <;> rfl

/-- Where a place in an element stands: a section opens, closed elements follow, and the text of
the element is the end of the whole. -/
lemma exists_before {before text : List Char} {code : SectionCode} {place : Place}
    (hplace : g.place? (g.sectionTail (before ++ text)) = some (code, place))
    (htext : place.elementText? = some text) :
    ∃ s ∈ g.sections, ∃ q L, s.code.opens q ∧ ElementRow s.slotted.toNat L ∧
      Nested s.slotted.toNat text ∧ before = q ++ '[' :: (L ++ ['(']) := by
  rcases not_mem_or_split_last '[' (before ++ text) with hp | ⟨q, r, hr, heq⟩
  · rw [sectionTail_of_not_mem hp, place?_of_not_mem hp] at hplace
    cases hplace
  · rw [heq, place?_sectionTail hr] at hplace
    obtain ⟨s, hs, hfound⟩ := List.exists_of_findSome?_eq_some hplace
    split_ifs at hfound with hq
    obtain ⟨place', hl, hpair⟩ := Option.map_eq_some_iff.mp hfound
    obtain ⟨-, rfl⟩ := Prod.mk.inj hpair
    obtain ⟨l, hscan, hl⟩ := Option.bind_eq_some_iff.mp hl
    obtain ⟨rfl, -, -⟩ := SectionSpec.level_of_elementText? hl htext
    obtain ⟨L, hL, htext, rfl⟩ := scan_eq_some_iff.mp hscan
    refine ⟨s, hs, q, L, hq, hL, htext, ?_⟩
    have hsplit : before ++ text = (q ++ '[' :: (L ++ ['('])) ++ text := by
      rw [heq]
      simp
    exact List.append_cancel_right hsplit

/-- The context in an element that holds a block, by the table that decides the place. -/
lemma classify_of_element {q L scope : List Char} (hL : ElementRow 1 L) (hscope : Nested 1 scope)
    (hopen : '(' ∈ scope) {s : SectionSpec}
    (hfind : (g.sections.find? fun s => decide (s.code.opens q) && s.slotted) = some s)
    (hend : s.slotEnd? scope = none) :
    g.place? (g.sectionTail (q ++ '[' :: (L ++ '(' :: scope))) =
        some (s.code, openPlace none scope) ∧
      ∀ lookahead, g.classify (q ++ '[' :: (L ++ '(' :: scope)) lookahead =
        withKinds (some (g.openContext (.ofSection s.code)
          ((lastBytes g.reach q.reverse ++ '[' :: (L ++ ['('])) ++ scope) scope lookahead)) := by
  have hplace : g.place? (g.sectionTail (q ++ '[' :: (L ++ '(' :: scope))) =
      some (s.code, openPlace none scope) := by
    rw [place?_of_element hL hscope hopen, hfind]
    simp [SectionSpec.placeOf?, hend]
  have hr : '[' ∉ L ++ '(' :: scope := by simp [hL.not_mem_square, hscope.not_mem_square]
  have htail : g.sectionTail (q ++ '[' :: (L ++ '(' :: scope)) =
      (lastBytes g.reach q.reverse ++ '[' :: (L ++ ['('])) ++ scope := by
    rw [sectionTail_append hr]
    simp
  refine ⟨hplace, fun lookahead => ?_⟩
  rw [← htail]
  simp only [classify, hplace, contextAt_openPlace, containerOf, withKinds, Option.filter_some]
  split_ifs <;> simp_all

lemma map_withoutFragment_withKinds (ctx : Context) :
    (withKinds (some ctx)).map Context.withoutFragment = withKinds (some ctx.withoutFragment) := by
  simp only [withKinds, Option.filter_some, Context.withoutFragment]
  split_ifs <;> rfl

/-- **What a block holds does not leak into the element around it.** In a text that ends in an
element, the content of a closed block in the element may be replaced by any other text without
brackets: the text still ends in an element of the section, and it has the same context but for the
fragment, or none as before. This holds for any tables, also if the kinds of the section and those
of the family tell themselves apart by one key. -/
theorem classify_aroundBlock (g : Grammar) {before a b x y : List Char} {code : SectionCode}
    {place : Place}
    (hplace : g.place? (g.sectionTail (before ++ aroundBlock a b x)) = some (code, place))
    (htext : place.elementText? = some (aroundBlock a b x))
    (hx : ∀ c ∈ x, isPlain c = true) (hy : ∀ c ∈ y, isPlain c = true) :
    (∃ place', g.place? (g.sectionTail (before ++ aroundBlock a b y)) = some (code, place') ∧
      place'.elementText? = some (aroundBlock a b y)) ∧
    ∀ lookahead,
      (g.classify (before ++ aroundBlock a b y) lookahead).map Context.withoutFragment =
        (g.classify (before ++ aroundBlock a b x) lookahead).map Context.withoutFragment := by
  have hopen : ∀ x, '(' ∈ aroundBlock a b x := fun x => by simp [aroundBlock]
  obtain ⟨s₀, -, q, L, hq, hL, hscope, rfl⟩ := exists_before hplace htext
  -- an element with a block in it stands in a section with slots
  have hslotted : s₀.slotted = true := by
    by_contra hs
    rw [Bool.eq_false_iff.mpr hs] at hscope
    exact absurd (Nested.zero_iff.mp hscope '(' (hopen x)) (by decide)
  rw [hslotted] at hL hscope
  obtain ⟨hscope', hdrop⟩ := Nested.replace hscope hx hy
  have hword : ∀ scope, q ++ '[' :: (L ++ ['(']) ++ scope = q ++ '[' :: (L ++ '(' :: scope) :=
    fun scope => by simp
  simp only [hword] at hplace ⊢
  rw [place?_of_element hL hscope (hopen x)] at hplace
  obtain ⟨s, hfind, hmap⟩ := Option.bind_eq_some_iff.mp hplace
  obtain ⟨place', hs, hpair⟩ := Option.map_eq_some_iff.mp hmap
  obtain ⟨rfl, rfl⟩ := Prod.mk.inj hpair
  obtain ⟨-, hend, rfl⟩ := SectionSpec.level_of_elementText? hs htext
  have hend' : s.slotEnd? (aroundBlock a b y) = none := by
    unfold SectionSpec.slotEnd? at hend ⊢
    rwa [assigned?_lastPiece_aroundBlock a b x y]
  obtain ⟨-, hctx⟩ := classify_of_element hL hscope (hopen x) hfind hend
  obtain ⟨hplace', hctx'⟩ := classify_of_element hL hscope' (hopen y) hfind hend'
  refine ⟨⟨_, hplace', elementText?_openPlace _ _⟩, fun lookahead => ?_⟩
  rw [hctx, hctx', map_withoutFragment_withKinds, map_withoutFragment_withKinds,
    openContext_aroundBlock _ _ _ hdrop]

/-- A section and a family whose kinds are told apart by one key: the value in the block is no
evidence for the element, neither before nor after it is replaced, and the one behind the block
is. -/
theorem classify_aroundBlock_sharedKey :
    let kind (c : Container) (value : String) (slots : List FamilyCode) : ElementKind :=
      ⟨⟨c, value⟩, "", "", some ⟨"fnc", value⟩, [], slots⟩
    let element := kind (.ofSection .neurons)
    let block := kind (.ofFamily .weightDecay)
    let g : Grammar :=
      ⟨[⟨.neurons, "", "", [element "a" [.weightDecay], element "b" [.weightDecay]]⟩],
        [⟨.weightDecay, "", "", [block "a" [], block "b" []]⟩]⟩
    let text (x : List Char) := "NRN=[(".toList ++ aroundBlock "WDF=".toList ",fnc=b,t".toList x
    g.place? (g.sectionTail (text "fnc=a".toList)) =
      some (.neurons, .field none (aroundBlock "WDF=".toList ",fnc=b,t".toList "fnc=a".toList)) ∧
    (g.classify (text "fnc=a".toList) []).map Context.withoutFragment =
      some ⟨some (.ofSection .neurons), .insideElement, some ⟨.ofSection .neurons, "b"⟩,
        [⟨.ofSection .neurons, "b"⟩], none, "", false⟩ ∧
    (g.classify (text "x,fnc=,fnc=a,".toList) []).map Context.withoutFragment =
      (g.classify (text "fnc=a".toList) []).map Context.withoutFragment := by
  intro kind element block g text
  have hplace : g.place? (g.sectionTail (text "fnc=a".toList)) = some (.neurons,
      .field none (aroundBlock "WDF=".toList ",fnc=b,t".toList "fnc=a".toList)) := by
    decide +kernel
  refine ⟨hplace, by decide +kernel, ?_⟩
  exact (classify_aroundBlock g hplace rfl (List.all_eq_true.mp (by decide))
    (List.all_eq_true.mp (by decide))).2 []

end Grammar

end TopologyAssist
