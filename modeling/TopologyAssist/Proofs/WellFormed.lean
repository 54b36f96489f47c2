import TopologyAssist.Proofs.Typing

/-!
Every context is well formed.

The parts of a context are set apart from each other: the container and the boundary by the shape
that fits, the key and the fragment by what the shape captures, the kinds by the evidence, and the
separator by the end of the text. `Context.WellFormed` says how they go together, and
`classify_wellFormed` that they always do, for every grammar and every text. The tables need not be
in order for it: a code may have several tables or none.

* `Context.EndsAs p ctx` — boundary, key, fragment and separator go together, and with the end of
  the text `p`;
* `classify_cases` — a context is one between sections, or the one of a place that some section
  gives to the level that the text stands at.
-/

namespace TopologyAssist

/-- The boundary, the key, the fragment and the separator of a context go together, and with the
end of the text before it. -/
structure Context.EndsAs (p : List Char) (ctx : Context) : Prop where
  field_iff : ctx.field.isSome = true ↔ ctx.boundary = .newFieldValue
  isKey_field : ∀ key, ctx.field = some key → IsKey key.toList ∧ IsValue ctx.fragment.toList
  newElement : ctx.container.isSome = true → ctx.boundary = .newElement → ctx.fragment = ""
  fieldBoundary : ctx.boundary = .fieldBoundary → ctx.fragment = ""
  insideElement : ctx.boundary = .insideElement → ctx.fragment ≠ ""
  separator_iff : ctx.needsSeparator = true ↔ endsWith ')' p = true ∨ endsWith ']' p = true
  separator : ctx.needsSeparator = true → ctx.fragment = ""

/-- What holds between the parts of every context behind a text `p`. -/
structure Context.WellFormed (g : Grammar) (p : List Char) (ctx : Context) : Prop
    extends ctx.EndsAs p where
  between : ctx.container = none → ctx.boundary = .newElement ∧ ctx.kind = none ∧
    ctx.candidates = [] ∧ ∀ ch ∈ ctx.fragment.toList, isKeyChar ch = true
  kinds : ∀ c, ctx.container = some c → ctx.candidates ≠ [] ∧
    ctx.candidates.Sublist (g.kindsIn c) ∧ (∀ id, ctx.kind = some id ↔ ctx.candidates = [id]) ∧
    (ctx.kind = none → 1 < ctx.candidates.length)

/-! ### The end of the text -/

/-- The text of what is open at a level. -/
def Level.innermost : Level → List Char
  | list _ => []
  | element b => b
  | block _ i => i

/-- Where a block opens, the last piece is a key without a value. -/
lemma SectionSpec.assigned?_of_slotEnd? {s : SectionSpec} {b : List Char} {f : FamilyCode}
    (h : s.slotEnd? b = some f) : ∃ key, assigned? (lastPiece b) = some (key, []) := by
  unfold slotEnd? at h
  split at h
  · rename_i key hkey
    exact ⟨key, hkey⟩
  · cases h

namespace Grammar

variable {g : Grammar} {p q r w b tail lookahead : List Char} {c : Container} {ctx : Context}
  {s : SectionSpec} {l : Level}

/-- Behind a list a text ends as the list does. -/
lemma StandsAt.endsWith_list {closed : Bool} (h : g.StandsAt p s (.list closed)) :
    endsWith ')' p = closed ∧ endsWith ']' p = false := by
  obtain ⟨-, q, r, -, hscan, rfl⟩ := h
  rw [endsWith_append_cons (by decide), endsWith_append_cons (by decide)]
  exact ⟨(scan_eq_some_iff.mp hscan).2.symm, endsWith_eq_false (not_mem_square_of_scan hscan).2⟩

/-- In an open block a text ends as the block does, and not with a square bracket. -/
lemma StandsAt.endsWith_innermost (h : g.StandsAt p s l) (hl : ∀ closed, l ≠ .list closed) :
    endsWith ')' p = endsWith ')' l.innermost ∧ endsWith ']' p = false := by
  obtain ⟨-, q, r, -, hscan, rfl⟩ := h
  have hsquare : endsWith ']' (q ++ '[' :: r) = false := by
    rw [endsWith_append_cons (by decide)]
    exact endsWith_eq_false (not_mem_square_of_scan hscan).2
  refine ⟨?_, hsquare⟩
  rw [endsWith_append_cons (by decide)]
  cases l with
  | list closed => exact absurd rfl (hl closed)
  | element b =>
    obtain ⟨L, -, -, rfl⟩ := scan_eq_some_iff.mp hscan
    exact endsWith_append_cons (by decide) L b
  | block b i =>
    obtain ⟨-, L, -, -, -, rfl⟩ := scan_eq_some_iff.mp hscan
    rw [endsWith_append_cons (by decide)]
    exact endsWith_append_cons (by decide) b i

/-! ### One case for each place -/

/-- A piece that assigns a value ends with no parenthesis. -/
lemma endsWith_of_assigned? {key v : List Char} (h : assigned? (lastPiece b) = some (key, v)) :
    endsWith ')' b = false := by
  obtain ⟨-, hv, hp⟩ := assigned?_eq_some_iff.mp h
  rw [← endsWith_lastPiece (by decide), hp, endsWith_append_cons (by decide), hv.endsWith_close]

/-- The context in an open block ends as the block does. -/
lemma endsAs_openContext (hclose : endsWith ')' p = endsWith ')' b)
    (hsquare : endsWith ']' p = false) :
    (g.openContext c tail b lookahead).EndsAs p := by
  unfold openContext
  cases hassign : assigned? (lastPiece b) with
  | some a =>
    obtain ⟨key, v⟩ := a
    obtain ⟨hkey, hv, -⟩ := assigned?_eq_some_iff.mp hassign
    exact {
      field_iff := by simp
      isKey_field := by
        rintro _ ⟨⟩
        simpa using ⟨hkey, hv⟩
      newElement := by simp
      fieldBoundary := by simp
      insideElement := by simp
      separator_iff := by simp [hclose, hsquare, endsWith_of_assigned? hassign]
      separator := by simp }
  | none =>
    -- behind a comma or a parenthesis nothing is typed, else the last piece is
    generalize hat : ((lastPiece b).isEmpty || endsWith ')' (lastPiece b)) = atBoundary
    have hpiece : endsWith ')' (lastPiece b) = endsWith ')' b := endsWith_lastPiece (by decide) b
    exact {
      field_iff := by cases atBoundary <;> simp
      isKey_field := by simp
      newElement := by cases atBoundary <;> simp
      fieldBoundary := by cases atBoundary <;> simp
      insideElement := by
        cases atBoundary with
        | true => simp
        | false =>
          rw [Bool.or_eq_false_iff] at hat
          simpa using hat.1
      separator_iff := by simp [hclose, hsquare]
      separator := by
        intro hsep
        rw [hpiece, show endsWith ')' b = true from hsep, Bool.or_true] at hat
        simp [← hat] }

/-- At a new element nothing is typed, and no key has a value. -/
lemma endsAs_newElement (hb : ctx.boundary = .newElement) (hfield : ctx.field = none)
    (hfragment : ctx.fragment = "") (hclose : ctx.needsSeparator = endsWith ')' p)
    (hsquare : endsWith ']' p = false) : ctx.EndsAs p where
  field_iff := by simp [hb, hfield]
  isKey_field := by simp [hfield]
  newElement := fun _ _ => hfragment
  fieldBoundary := fun _ => hfragment
  insideElement := by simp [hb]
  separator_iff := by simp [hclose, hsquare]
  separator := fun _ => hfragment

/-- Between sections a word is typed behind the text, and a bracket ends it only without one. -/
lemma endsAs_betweenSections (hw : ∀ ch ∈ w, isKeyChar ch = true) (hp : w <:+ p)
    (hclose : w = [] → endsWith ')' p = false) :
    (Context.betweenSections w (endsWith ']' p)).EndsAs p := by
  have hword : w ≠ [] → endsWith ')' p = false ∧ endsWith ']' p = false := by
    intro hne
    obtain ⟨u, rfl⟩ := hp
    obtain ⟨x, d, rfl⟩ := (List.eq_nil_or_concat' w).resolve_left hne
    have hd := hw d (by simp)
    rw [← List.append_assoc, endsWith_append_singleton, endsWith_append_singleton,
      beq_eq_false_iff_ne, beq_eq_false_iff_ne]
    constructor <;> (rintro rfl; exact absurd hd (by decide))
  have hparen : endsWith ')' p = false := by
    by_cases hnil : w = []
    · exact hclose hnil
    · exact (hword hnil).1
  exact {
    field_iff := by simp [Context.betweenSections]
    isKey_field := by simp [Context.betweenSections]
    newElement := by simp [Context.betweenSections]
    fieldBoundary := by simp [Context.betweenSections]
    insideElement := by simp [Context.betweenSections]
    separator_iff := by simp [Context.betweenSections, hparen]
    separator := by
      intro hsep
      by_contra hne
      have hnil : w ≠ [] := fun h => hne (by simp [Context.betweenSections, h])
      rw [show endsWith ']' p = true from hsep] at hword
      exact absurd (hword hnil).2 (by decide) }

/-- A word between sections is what the text ends with, behind a closed list if it is empty. -/
lemma suffix_of_betweenSections? (h : g.betweenSections? (g.sectionTail p) = some w) :
    (∀ ch ∈ w, isKeyChar ch = true) ∧ w <:+ p ∧ (w = [] → endsWith ')' p = false) := by
  rw [betweenSections?_sectionTail] at h
  rcases not_mem_or_split_last '[' p with hp | ⟨q, r, hr, rfl⟩
  · rw [betweenSections?_of_not_mem hp] at h
    split_ifs at h with hall
    obtain rfl := Option.some.inj h
    exact ⟨List.all_eq_true.mp hall, List.suffix_rfl, by rintro rfl; rfl⟩
  · obtain ⟨-, L, comma, -, hcomma, hw, rfl⟩ := (betweenSections?_append_eq_some_iff hr).mp h
    refine ⟨hw, ⟨q ++ '[' :: (L ++ ']' :: comma), by simp⟩, ?_⟩
    rintro rfl
    rw [endsWith_append_cons (by decide), endsWith_append_cons (by decide)]
    rcases hcomma with rfl | rfl <;> rfl

/-! ### Every context -/

/-- **What a context can be**: one between sections, or the one of a place that a section gives to
the level that the text stands at. -/
theorem classify_cases (h : g.classify p lookahead = some ctx) :
    (∃ w, g.betweenSections? (g.sectionTail p) = some w ∧
      ctx = Context.betweenSections w (endsWith ']' p)) ∨
    ∃ s l place, g.StandsAt p s l ∧ s.placeOf? l = some place ∧
      ctx = g.contextAt s.code (g.sectionTail p) lookahead place ∧ ctx.candidates ≠ [] := by
  simp only [classify] at h
  split at h
  · rename_i code place hplace
    split_ifs at h with hempty
    obtain rfl := Option.some.inj h
    refine Or.inr ?_
    rcases not_mem_or_split_last '[' p with hp | ⟨q, r, hr, rfl⟩
    · rw [sectionTail_of_not_mem hp, place?_of_not_mem hp] at hplace
      cases hplace
    · rw [place?_sectionTail hr] at hplace
      obtain ⟨s, hs, hplace⟩ := List.exists_of_findSome?_eq_some hplace
      split_ifs at hplace with hq
      obtain ⟨place, hl, heq⟩ := Option.map_eq_some_iff.mp hplace
      obtain ⟨rfl, rfl⟩ := Prod.mk.inj heq
      obtain ⟨l, hscan, hl⟩ := Option.bind_eq_some_iff.mp hl
      exact ⟨s, l, place, ⟨hs, q, r, hq, hscan, rfl⟩, hl, rfl, by simpa using hempty⟩
  · obtain ⟨w, hw, rfl⟩ := Option.map_eq_some_iff.mp h
    exact Or.inl ⟨w, hw, rfl⟩

/-- The context of a place ends as the text does that leads to it. -/
lemma endsAs_contextAt {place : Place} (h : g.StandsAt p s l) (hl : s.placeOf? l = some place) :
    (g.contextAt s.code (g.sectionTail p) lookahead place).EndsAs p := by
  cases l with
  | list closed =>
    obtain rfl := Option.some.inj hl
    obtain ⟨-, hsquare⟩ := h.endsWith_list
    refine endsAs_newElement (Context.ofResolution_boundary _ _ _)
      (Context.ofResolution_field _ _ _) (Context.ofResolution_fragment _ _ _) ?_ hsquare
    obtain ⟨-, q, r, -, hscan, rfl⟩ := h
    rw [contextAt, Grammar.sectionTail_append (not_mem_square_of_scan hscan).1,
      endsWith_append_cons (by decide), endsWith_append_cons (by decide)]
  | element b =>
    obtain ⟨hclose, hsquare⟩ := h.endsWith_innermost (by simp)
    cases hend : s.slotEnd? b with
    | some f =>
      simp only [SectionSpec.placeOf?, hend] at hl
      obtain rfl := Option.some.inj hl
      refine endsAs_newElement (Context.ofResolution_boundary _ _ _)
        (Context.ofResolution_field _ _ _) (Context.ofResolution_fragment _ _ _) ?_ hsquare
      obtain ⟨key, hassign⟩ := SectionSpec.assigned?_of_slotEnd? hend
      rw [hclose, Level.innermost, endsWith_of_assigned? hassign]
      exact Context.ofResolution_needsSeparator _ _ _
    | none =>
      simp only [SectionSpec.placeOf?, hend] at hl
      obtain rfl := Option.some.inj hl
      rw [contextAt_openPlace]
      exact endsAs_openContext hclose hsquare
  | block b i =>
    obtain ⟨hclose, hsquare⟩ := h.endsWith_innermost (by simp)
    obtain ⟨f, -, rfl⟩ := Option.map_eq_some_iff.mp hl
    rw [contextAt_openPlace]
    exact endsAs_openContext hclose hsquare

/-- The kinds left at a place of a section are some of its container, in their order, and the kind
is settled exactly if one is left. -/
lemma kinds_contextAt {code : SectionCode} {place : Place}
    (hctx : ctx = g.contextAt code tail lookahead place) (hne : ctx.candidates ≠ []) :
    ∃ c, ctx.container = some c ∧ ctx.candidates.Sublist (g.kindsIn c) ∧
      (∀ id, ctx.kind = some id ↔ ctx.candidates = [id]) ∧
      (ctx.kind = none → 1 < ctx.candidates.length) := by
  obtain ⟨c, boundary, e, hc, hkind, hids⟩ := g.contextAt_kinds code tail lookahead place
  rw [← hctx] at hc hkind hids
  refine ⟨c, hc, ?_⟩
  rw [hids] at hne
  rcases resolve_cases (kindsIn_ne_nil_of_candidates hne) e with
    ⟨id, hid, hr⟩ | ⟨ids, hlen, hsub, hr⟩ | hr
  · rw [hr] at hkind hids
    rw [hkind, hids]
    exact ⟨List.singleton_sublist.mpr hid, by simp [Context.ofResolution],
      by simp [Context.ofResolution]⟩
  · rw [hr] at hkind hids
    rw [hkind, hids]
    refine ⟨hsub, fun id => ?_, fun _ => hlen⟩
    constructor
    · intro h
      cases h
    · rintro rfl
      exact absurd hlen (by simp)
  · rw [hr] at hne
    exact absurd rfl hne

/-- **Every context is well formed**, whatever the grammar, the text and the rest of the line. -/
theorem classify_wellFormed (g : Grammar) (p lookahead : List Char) (ctx : Context)
    (h : g.classify p lookahead = some ctx) : ctx.WellFormed g p := by
  rcases classify_cases h with ⟨w, hw, rfl⟩ | ⟨s, l, place, hstands, hl, hctx, hne⟩
  · obtain ⟨hkeys, hsuffix, hclose⟩ := suffix_of_betweenSections? hw
    exact {
      endsAs_betweenSections hkeys hsuffix hclose with
      between := by
        intro _
        exact ⟨rfl, rfl, rfl, by simpa [Context.betweenSections] using hkeys⟩
      kinds := by
        intro c hc
        cases hc }
  · obtain ⟨c, hc, hkinds⟩ := kinds_contextAt hctx hne
    exact {
      hctx ▸ endsAs_contextAt hstands hl with
      between := by
        intro hnone
        rw [hc] at hnone
        cases hnone
      kinds := by
        intro c' hc'
        obtain rfl := Option.some.inj (hc.symm.trans hc')
        exact ⟨hne, hkinds⟩ }

/-- A grammar with two tables for one section, each with the same kind: both entries stay possible,
so the kind of an element is open although they have one name. -/
theorem classify_wellFormed_repeated :
    let k : ElementKind := ⟨⟨.ofSection .groups, "a"⟩, "", "", none, [], []⟩
    let g : Grammar := ⟨[⟨.groups, "", "", [k]⟩, ⟨.groups, "", "", [k]⟩], []⟩
    let ctx : Context := ⟨some (.ofSection .groups), .insideElement, none,
      [⟨.ofSection .groups, "a"⟩, ⟨.ofSection .groups, "a"⟩], none, "gi", false⟩
    g.classify "GRP=[(x=1),(gi".toList [] = some ctx ∧
      ctx.WellFormed g "GRP=[(x=1),(gi".toList := by
  intro k g ctx
  have h : g.classify "GRP=[(x=1),(gi".toList [] = some ctx := by decide +kernel
  exact ⟨h, classify_wellFormed g _ _ _ h⟩

end Grammar

end TopologyAssist
