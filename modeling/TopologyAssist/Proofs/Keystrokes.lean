import TopologyAssist.Proofs.OpenBlocks

/-!
Contexts move with the keys that structure a text.

The context of a text is read off from the text alone, and nothing is kept from one key to the
next. Nevertheless a bracket or a comma moves it as it moves a machine with a stack: an opening
parenthesis pushes a block, a closing one pops it, a closing square bracket leaves the section, and
a comma ends the field and keeps what the block has settled.
-/

namespace TopologyAssist

/-- The context once a comma has ended the field. -/
def Context.afterField (ctx : Context) : Context :=
  { ctx with boundary := .fieldBoundary, field := none, fragment := "", needsSeparator := false }

namespace Grammar

variable {g : Grammar} {p b : List Char} {s : SectionSpec} {c : Container} {closed : Bool}

/-! ### Contexts in which nothing is typed -/

lemma Tidy.withKinds_blank (hg : g.Tidy) (c : Container) (boundary : Boundary)
    (needsSeparator : Bool) :
    withKinds (some (g.blankContext c boundary needsSeparator)) =
      some (g.blankContext c boundary needsSeparator) := by
  simp [withKinds, blankContext, Option.filter_some, hg.kinds_ne_nil c]

namespace StandsAt

lemma classify_list (h : g.StandsAt p s (.list closed)) (hg : g.Tidy) (lookahead : List Char) :
    g.classify p lookahead = some (g.blankContext (.ofSection s.code) .newElement closed) := by
  rw [h.classify hg.toOneTableEach, levelContext?, ofResolution_allKinds]
  exact hg.withKinds_blank _ _ closed

/-- Behind a closed list a comma and a word may stand. -/
lemma classify_between (h : g.StandsAt p s (.list closed)) (hg : g.OneTableEach)
    {comma w : List Char} (hcomma : comma = [] ∨ comma = [','])
    (hw : ∀ c ∈ w, isKeyChar c = true) (lookahead : List Char) :
    g.classify (p ++ ']' :: (comma ++ w)) lookahead =
      some (Context.betweenSections w (endsWith ']' (p ++ ']' :: (comma ++ w)))) := by
  obtain ⟨hs, q, r, hq, hscan, rfl⟩ := h
  have hrow : ElementRow 1 r := (scan_eq_some_iff.mp (scan_true_of_scan hscan)).1
  have hend : ClosedEnd (r ++ ']' :: (comma ++ w)) w := ⟨r, comma, hrow, hcomma, hw, rfl⟩
  have hread := (reading?_between_iff hg.nonempty (q := q) hend.not_mem_opening).mpr
    ⟨⟨s, hs, hq⟩, hend⟩
  rw [List.append_assoc, List.cons_append, classify_eq, hread]

end StandsAt

/-! ### Behind a comma -/

/-- Where a field may begin, the context holds nothing but the kinds that are left. -/
lemma openContext_of_lastPiece {b : List Char} (hb : lastPiece b = []) (c : Container)
    (tail lookahead : List Char) :
    g.openContext c tail b lookahead =
      Context.ofResolution c .fieldBoundary (g.resolveAt c tail b lookahead) := by
  have hend : endsWith ')' b = false := by
    rw [← endsWith_lastPiece (by decide), hb]
    rfl
  simp only [openContext, hb, hend]
  cases g.resolveAt c tail b lookahead <;> rfl

lemma afterField_openContext (c : Container) (tail b lookahead : List Char) :
    (g.openContext c tail b lookahead).afterField =
      Context.ofResolution c .fieldBoundary (g.resolveAt c tail b lookahead) := by
  unfold openContext
  cases assigned? (lastPiece b) <;> cases g.resolveAt c tail b lookahead <;> rfl

/-- An empty block leaves every kind. -/
lemma OpenAt.classify_empty (h : g.OpenAt p c []) (hg : g.Tidy) :
    g.classify p [] = some (g.blankContext c .fieldBoundary false) := by
  have hctx : g.openContext c (g.sectionTail p) [] [] = g.blankContext c .fieldBoundary false := by
    rw [openContext_of_lastPiece rfl, resolveAt, resolve_empty, ofResolution_allKinds]
  rw [h.classify hg.toOneTableEach, hctx, hg.withKinds_blank]

/-! ### Opening and closing -/

lemma slotEnd?_nil (s : SectionSpec) : s.slotEnd? [] = none :=
  SectionSpec.slotEnd?_of_assigned rfl

/-- An opening parenthesis between elements opens one. -/
lemma StandsAt.open_element (h : g.StandsAt p s (.list closed)) :
    g.OpenAt (p ++ ['(']) (.ofSection s.code) [] :=
  Or.inl ⟨s, h.step (Level.step_list_open closed), slotEnd?_nil s, rfl⟩

/-- An opening parenthesis behind a slot opens its block. -/
lemma StandsAt.open_block {f : FamilyCode} (h : g.StandsAt p s (.element b))
    (hend : s.slotEnd? b = some f) : g.OpenAt (p ++ ['(']) (.ofFamily f) [] := by
  have hstep : (Level.element b).step s.slotted '(' = some (.block b []) := by
    rw [SectionSpec.slotted_of_slotEnd? hend, Level.step_element_open]
  exact Or.inr ⟨s, b, f, h.step hstep, hend, rfl⟩

/-- A closing parenthesis ends the open element. -/
lemma OpenAt.close_element {code : SectionCode} (h : g.OpenAt p (.ofSection code) b) :
    ∃ s, s.code = code ∧ g.StandsAt (p ++ [')']) s (.list true) := by
  rcases h with ⟨s, hs, -, hc⟩ | ⟨s, e, f, -, -, hc⟩
  · exact ⟨s, (Container.ofSection.inj hc).symm, hs.step Level.step_element_close⟩
  · cases hc

/-- A closing parenthesis ends the open block, and the element around it stays open. -/
lemma OpenAt.close_block {f : FamilyCode} (h : g.OpenAt p (.ofFamily f) b) :
    ∃ s ∈ g.sections, s.slotted = true ∧
      ∃ e, g.OpenAt (p ++ [')']) (.ofSection s.code) (e ++ [')']) := by
  rcases h with ⟨s, hs, -, hc⟩ | ⟨s, e, f', hs, hend, hc⟩
  · cases hc
  · have hslotted : s.slotted = true := by
      obtain ⟨-, q, r, -, hscan, -⟩ := hs
      exact (scan_eq_some_iff.mp hscan).1
    refine ⟨s, hs.1, hslotted, e ++ '(' :: b, Or.inl ⟨s, ?_, ?_, rfl⟩⟩
    · have hstep := hs.step Level.step_block_close
      rwa [← List.cons_append, ← List.append_assoc] at hstep
    · apply SectionSpec.slotEnd?_of_assigned
      rw [lastPiece_snoc (by decide)]
      exact assigned?_close _

/-- Behind a closed block of an element with one kind. -/
lemma OpenAt.classify_closed_block {b : List Char} (h : g.OpenAt p c (b ++ [')'])) (hg : g.Tidy)
    (hc : (g.kindsIn c).length = 1) (lookahead : List Char) :
    g.classify p lookahead = some (g.blankContext c .fieldBoundary true) := by
  obtain ⟨id, hid⟩ := List.length_eq_one_iff.mp hc
  have hpiece : lastPiece (b ++ [')']) = lastPiece b ++ [')'] := lastPiece_snoc (by decide) b
  have hctx : g.openContext c (g.sectionTail p) (b ++ [')']) lookahead =
      g.blankContext c .fieldBoundary true := by
    simp only [openContext, hpiece, assigned?_close, endsWith_append_singleton,
      resolveAt_of_single hid, blankContext, hid]
    simp [Context.ofResolution]
  rw [h.classify hg.toOneTableEach, hctx, hg.withKinds_blank]

/-! ### What a comma keeps -/

lemma openContext_field (c : Container) (tail b lookahead : List Char) :
    (g.openContext c tail b lookahead).field =
      (assigned? (lastPiece b)).map fun a => String.ofList a.1 := by
  unfold openContext
  cases assigned? (lastPiece b) <;> cases g.resolveAt c tail b lookahead <;> rfl

lemma openContext_fragment {key v : List Char} (h : assigned? (lastPiece b) = some (key, v))
    (c : Container) (tail lookahead : List Char) :
    (g.openContext c tail b lookahead).fragment = String.ofList v := by
  unfold openContext
  rw [h]

lemma openContext_candidates (c : Container) (tail b lookahead : List Char) :
    (g.openContext c tail b lookahead).candidates =
      (Context.ofResolution c .fieldBoundary (g.resolveAt c tail b lookahead)).candidates := by
  rw [← afterField_openContext]
  rfl

lemma openContext_kind (c : Container) (tail b lookahead : List Char) :
    (g.openContext c tail b lookahead).kind =
      (Context.ofResolution c .fieldBoundary (g.resolveAt c tail b lookahead)).kind := by
  rw [← afterField_openContext]
  rfl

lemma plain_comma : ∀ x ∈ [','], isPlain x = true := List.all_eq_true.mp (by decide)

/-- A comma is text of the block, and a field may begin behind it. -/
lemma OpenAt.classify_comma (h : g.OpenAt p c b) (hg : g.OneTableEach) (lookahead : List Char) :
    g.classify (p ++ [',']) lookahead =
      withKinds (some (Context.ofResolution c .fieldBoundary
        (g.resolveAt c (g.sectionTail p ++ [',']) (b ++ [',']) lookahead))) := by
  have hslot : ∀ s ∈ g.sections, s.slotEnd? (b ++ [',']) = none := by
    intro s _
    apply SectionSpec.slotEnd?_of_assigned
    rw [lastPiece_comma]
    rfl
  obtain ⟨hopen, htail⟩ := h.append plain_comma hslot
  rw [hopen.classify hg, htail, openContext_of_lastPiece (lastPiece_comma b)]

section Several

variable {key : String} {tail lookahead : List Char} (hg : g.Tidy)
  (hlen : 1 < (g.kindsIn c).length) (hb : ∀ x ∈ b, isPlain x = true)
  (hkey : g.selector? c = some key) (hk : IsKey key.toList)
include hlen hb hkey hk

/-- A comma behind a field of another key keeps the kinds. -/
lemma resolveAt_comma_of_not_prefix (hp : ¬ key.toList ++ ['='] <+: lastPiece b) :
    g.resolveAt c (tail ++ [',']) (b ++ [',']) lookahead = g.resolveAt c tail b lookahead := by
  rw [resolveAt_of_several hlen hkey (plain_append hb plain_comma),
    resolveAt_of_several hlen hkey hb, textBefore_append_both, getLast?_assignments_comma hk hb hp]

section Selecting

variable {v : List Char} (hp : lastPiece b = key.toList ++ '=' :: v)
include hp

/-- A comma behind the selecting key without a value keeps the kinds, from the history. -/
lemma resolveAt_comma_of_empty (hv : v = []) :
    g.resolveAt c (tail ++ [',']) (b ++ [',']) lookahead = g.resolveAt c tail b lookahead := by
  obtain ⟨hlast, hcomma⟩ := getLast?_assignments_key hk hb hp
  rw [resolveAt_of_several hlen hkey (plain_append hb plain_comma),
    resolveAt_of_several hlen hkey hb, textBefore_append_both, hlast, hcomma, hv]
  rfl

/-- A comma behind a value of the selecting key leaves the kind that the value names. -/
lemma resolveAt_comma_of_value (hv : v ≠ []) :
    g.resolveAt c (tail ++ [',']) (b ++ [',']) lookahead =
      match g.exactKind? (g.kindsIn c) v with
      | some id => .resolved id
      | none => .rejected := by
  rw [resolveAt_of_several hlen hkey (plain_append hb plain_comma),
    (getLast?_assignments_key hk hb hp).2, settle, if_neg (by simpa using hv), if_pos rfl]
  exact select_complete _ _

include hg in
/-- A last piece that gives the selecting key something else than a value leaves no kind. -/
lemma isValue_of_candidates (hne : (g.openContext c tail b lookahead).candidates ≠ []) :
    IsValue v := by
  by_contra hv
  have hv₀ : v ≠ [] := fun hnil => hv (hnil ▸ isValue_nil)
  apply hne
  rw [openContext_candidates, resolveAt_of_several hlen hkey hb,
    (getLast?_assignments_key hk hb hp).1, settle, if_neg (by simpa using hv₀), if_neg (by simp),
    select_typing_of_not_isValue (hg.isValue_discriminator c) hv]
  rfl

end Selecting

end Several

namespace OpenAt

variable {lookahead : List Char} (h : g.OpenAt p c b) (hg : g.Tidy)
  (hne : (g.openContext c (g.sectionTail p) b lookahead).candidates ≠ [])
include h hg hne

lemma classify_comma_of_resolveAt
    (hsame : g.resolveAt c (g.sectionTail p ++ [',']) (b ++ [',']) lookahead =
      g.resolveAt c (g.sectionTail p) b lookahead) :
    g.classify (p ++ [',']) lookahead =
      some (g.openContext c (g.sectionTail p) b lookahead).afterField := by
  rw [h.classify_comma hg.toOneTableEach, hsame, ← afterField_openContext]
  simpa [withKinds, Context.afterField] using hne

/-- **A comma keeps the kinds**, unless it ends a value of the selecting key. -/
theorem classify_comma_of_ne (hfield : (g.kindsIn c).length = 1 ∨
      (g.openContext c (g.sectionTail p) b lookahead).field ≠ g.selector? c) :
    g.classify (p ++ [',']) lookahead =
      some (g.openContext c (g.sectionTail p) b lookahead).afterField := by
  apply h.classify_comma_of_resolveAt hg hne
  rcases h.single_or_plain hg with ⟨id, hid⟩ | ⟨hlen, hb⟩
  · rw [resolveAt_of_single hid, resolveAt_of_single hid]
  · obtain ⟨key, hkey, hk⟩ := hg.selector_of_several c hlen
    refine resolveAt_comma_of_not_prefix hlen hb hkey hk ?_
    rintro ⟨v, hv⟩
    rw [List.append_assoc, List.singleton_append] at hv
    have hval := isValue_of_candidates hg hlen hb hkey hk hv.symm hne
    apply hfield.resolve_left (by omega)
    rw [openContext_field, assigned?_eq_some_iff.mpr ⟨hk, hval, hv.symm⟩, hkey]
    simp

/-- **A comma that ends a value of the selecting key** leaves the kind that the value names, or
what the history says if there is no value. -/
theorem classify_comma_of_selector (hlen : 1 < (g.kindsIn c).length)
    (hfield : (g.openContext c (g.sectionTail p) b lookahead).field = g.selector? c) :
    g.classify (p ++ [',']) lookahead =
      if (g.openContext c (g.sectionTail p) b lookahead).fragment = "" then
        some (g.openContext c (g.sectionTail p) b lookahead).afterField
      else
        (g.exactKind? (g.kindsIn c)
          (g.openContext c (g.sectionTail p) b lookahead).fragment.toList).map fun id =>
            Context.ofResolution c .fieldBoundary (.resolved id) := by
  obtain ⟨key, hkey, hk⟩ := hg.selector_of_several c hlen
  have hb := h.plain_of_several hg hlen
  rw [openContext_field, hkey] at hfield
  obtain ⟨⟨key', v⟩, hassign, hkeys⟩ := Option.map_eq_some_iff.mp hfield
  obtain rfl : key' = key.toList := by rw [← hkeys, String.toList_ofList]
  have hp := (assigned?_eq_some_iff.mp hassign).2.2
  rw [openContext_fragment hassign, String.toList_ofList]
  by_cases hv : v = []
  · rw [if_pos (by rw [hv])]
    exact h.classify_comma_of_resolveAt hg hne
      (resolveAt_comma_of_empty hlen hb hkey hk hp hv)
  · rw [if_neg (by simpa using hv), h.classify_comma hg.toOneTableEach,
      resolveAt_comma_of_value hlen hb hkey hk hp hv]
    cases g.exactKind? (g.kindsIn c) v <;> rfl

end OpenAt

/-! ### The machine -/

lemma standard_slotted : ∀ s ∈ standard.sections, s.slotted = true → s.code = .neurons := by decide

/-- **Keys move the context like a machine with a stack.** Between elements, `(` opens one in
which every kind is possible, `]` leaves the section and `,` is used up; behind a slot, `(` opens
its block. In an open element or block, `)` goes back to what is around it, and `,` ends the field
and keeps everything else, unless the field is the selecting key: then the kind is the one that its
value names, and without a value it is what it was. -/
theorem classify_append_key (p : List Char) (ctx : Context)
    (h : standard.classify p [] = some ctx) :
    (∀ code, ctx.container = some (.ofSection code) → ctx.boundary = .newElement →
      standard.classify (p ++ ['(']) [] =
        some (standard.blankContext (.ofSection code) .fieldBoundary false) ∧
      standard.classify (p ++ [']']) [] = some (Context.betweenSections [] true) ∧
      (ctx.needsSeparator = true →
        standard.classify (p ++ [',']) [] = some { ctx with needsSeparator := false })) ∧
    (∀ f, ctx.container = some (.ofFamily f) → ctx.boundary = .newElement →
      standard.classify (p ++ ['(']) [] =
        some (standard.blankContext (.ofFamily f) .fieldBoundary false)) ∧
    (∀ code, ctx.container = some (.ofSection code) → ctx.boundary ≠ .newElement →
      standard.classify (p ++ [')']) [] =
        some (standard.blankContext (.ofSection code) .newElement true)) ∧
    (∀ f, ctx.container = some (.ofFamily f) → ctx.boundary ≠ .newElement →
      standard.classify (p ++ [')']) [] =
        some (standard.blankContext (.ofSection .neurons) .fieldBoundary true)) ∧
    ∀ c, ctx.container = some c → ctx.boundary ≠ .newElement →
      ((standard.kindsIn c).length = 1 ∨ ctx.field ≠ standard.selector? c →
        standard.classify (p ++ [',']) [] = some ctx.afterField) ∧
      (1 < (standard.kindsIn c).length → ctx.field = standard.selector? c →
        standard.classify (p ++ [',']) [] =
          if ctx.fragment = "" then some ctx.afterField
          else (standard.exactKind? (standard.kindsIn c) ctx.fragment.toList).map fun id =>
            { ctx.afterField with kind := some id, candidates := [id] }) := by
  have hg := standard_tidy
  refine ⟨fun code hc hb => ?_, fun f hc hb => ?_, fun code hc hb => ?_, fun f hc hb => ?_,
    fun c hc hb => ?_⟩
  · rcases exists_standsAt_newElement hg.toOneTableEach h hc hb with
      ⟨s, closed, hs, hcode, rfl⟩ | ⟨s, b, f, -, -, hcode, -⟩
    · obtain rfl := Container.ofSection.inj hcode
      refine ⟨hs.open_element.classify_empty hg, ?_, fun hsep => ?_⟩
      · have hclose := hs.classify_between hg.toOneTableEach (Or.inl rfl) (w := []) (by simp) []
        rwa [List.nil_append, endsWith_append_singleton] at hclose
      · obtain rfl : closed = true := hsep
        exact (hs.step Level.step_list_comma).classify_list hg []
    · cases hcode
  · rcases exists_standsAt_newElement hg.toOneTableEach h hc hb with
      ⟨s, closed, -, hcode, -⟩ | ⟨s, b, f', hs, hend, hcode, -⟩
    · cases hcode
    · obtain rfl := Container.ofFamily.inj hcode
      exact (hs.open_block hend).classify_empty hg
  · obtain ⟨b, hopen, -, -⟩ := exists_openAt hg.toOneTableEach h hc hb
    obtain ⟨s, rfl, hs⟩ := hopen.close_element
    exact hs.classify_list hg []
  · obtain ⟨b, hopen, -, -⟩ := exists_openAt hg.toOneTableEach h hc hb
    obtain ⟨s, hs, hslotted, e, hclosed⟩ := hopen.close_block
    rw [hclosed.classify_closed_block hg (hg.single_of_slotted s hs hslotted),
      standard_slotted s hs hslotted]
  · obtain ⟨b, hopen, rfl, hne⟩ := exists_openAt hg.toOneTableEach h hc hb
    refine ⟨hopen.classify_comma_of_ne hg hne, fun hlen hfield => ?_⟩
    rw [hopen.classify_comma_of_selector hg hne hlen hfield, Context.afterField,
      openContext_container]
    rfl

/-- `stdp` may become two kinds and names none, so a comma behind it leaves none, while a closing
parenthesis ends the element all the same. -/
theorem classify_append_key_learning :
    standard.classify ("LRN=[(fnc=stdp".toList ++ [',']) [] = none ∧
      standard.classify ("LRN=[(fnc=stdp".toList ++ [')']) [] =
        some (standard.blankContext (.ofSection .learning) .newElement true) := by
  have hctx : standard.classify "LRN=[(fnc=stdp".toList [] =
      some ⟨some (.ofSection .learning), .newFieldValue, none,
        [⟨.ofSection .learning, "stdph"⟩, ⟨.ofSection .learning, "stdpa"⟩], some "fnc", "stdp",
        false⟩ := by decide +kernel
  obtain ⟨-, -, hclose, -, hcomma⟩ := classify_append_key _ _ hctx
  refine ⟨?_, hclose .learning rfl (by decide)⟩
  rw [(hcomma (.ofSection .learning) rfl (by decide)).2 (by decide) (by decide)]
  decide

end Grammar

end TopologyAssist
