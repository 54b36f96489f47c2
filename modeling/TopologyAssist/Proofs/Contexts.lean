import TopologyAssist.Proofs.Recognition

/-!
Contexts by the level that a text stands at.

`Grammar.StandsAt g p s l` says that the last `[` of `p` opens the section `s` and that the text
behind it leads to the level `l`. More text moves it like the machine (`StandsAt.run`), and the
context is a function of the level (`StandsAt.classify`), so that two contexts of a text and a
longer one can be compared without looking at the shapes again.
-/

namespace TopologyAssist

section

variable (c : Container) (boundary : Boundary) (r : Resolution)

@[simp] lemma Context.ofResolution_container : (ofResolution c boundary r).container = some c := by
  cases r <;> rfl

@[simp] lemma Context.ofResolution_boundary : (ofResolution c boundary r).boundary = boundary := by
  cases r <;> rfl

@[simp] lemma Context.ofResolution_needsSeparator :
    (ofResolution c boundary r).needsSeparator = false := by
  cases r <;> rfl

@[simp] lemma Context.ofResolution_field : (ofResolution c boundary r).field = none := by
  cases r <;> rfl

@[simp] lemma Context.ofResolution_fragment : (ofResolution c boundary r).fragment = "" := by
  cases r <;> rfl

end

namespace Grammar

/-- Each section has one table, and there is a section. -/
structure OneTableEach (g : Grammar) : Prop where
  nonempty : g.sections ≠ []
  nodup : (g.sections.map SectionSpec.code).Nodup

/-- The last `[` of the text opens the section, and what is behind it leads to the level. -/
def StandsAt (g : Grammar) (p : List Char) (s : SectionSpec) (l : Level) : Prop :=
  s ∈ g.sections ∧ ∃ q r, s.code.opens q ∧ scan s.slotted r = some l ∧ p = q ++ '[' :: r

/-! ### The context of a level -/

/-- The context in an open block `b` of a container. -/
def openContext (g : Grammar) (c : Container) (tail b lookahead : List Char) : Context :=
  match assigned? (lastPiece b) with
  | some (key, v) =>
    { Context.ofResolution c .newFieldValue (g.resolveAt c tail b lookahead) with
      field := some (String.ofList key)
      fragment := String.ofList v }
  | none =>
    let atBoundary := (lastPiece b).isEmpty || endsWith ')' (lastPiece b)
    { Context.ofResolution c (if atBoundary then .fieldBoundary else .insideElement)
        (g.resolveAt c tail b lookahead) with
      fragment := if atBoundary then "" else String.ofList (lastPiece b)
      needsSeparator := endsWith ')' b }

/-- The context of a level, before the kinds are looked at. -/
def levelContext? (g : Grammar) (s : SectionSpec) (tail lookahead : List Char) :
    Level → Option Context
  | .list closed =>
    some { Context.ofResolution (.ofSection s.code) .newElement
        (g.allKinds (.ofSection s.code)) with
      needsSeparator := closed }
  | .element b =>
    match s.slotEnd? b with
    | some f => some (Context.ofResolution (.ofFamily f) .newElement (g.allKinds (.ofFamily f)))
    | none => some (g.openContext (.ofSection s.code) tail b lookahead)
  | .block b i => (s.slotEnd? b).map fun f => g.openContext (.ofFamily f) tail i lookahead

/-- The kinds left are looked at: a context without any is none. -/
def withKinds (o : Option Context) : Option Context := o.filter fun ctx => !ctx.candidates.isEmpty

lemma contextAt_openPlace (g : Grammar) (code : SectionCode) (tail lookahead : List Char)
    (block : Option FamilyCode) (b : List Char) :
    g.contextAt code tail lookahead (openPlace block b) =
      g.openContext (containerOf code block) tail b lookahead := by
  unfold openPlace openContext
  cases assigned? (lastPiece b) <;> rfl

/-- A text ends as it does behind another character. -/
lemma endsWith_append_cons {c d : Char} (hc : c ≠ d) (x r : List Char) :
    endsWith c (x ++ d :: r) = endsWith c r := by
  cases hr : r.getLast? with
  | none =>
    rw [List.getLast?_eq_none_iff.mp hr]
    simp [endsWith, Ne.symm hc]
  | some d' =>
    have h : (x ++ d :: r).getLast? = some d' := by
      rw [List.getLast?_append, List.getLast?_cons, hr]
      rfl
    rw [endsWith, endsWith, h, hr]

namespace StandsAt

variable {g : Grammar} {p t : List Char} {s : SectionSpec} {l l' : Level}

lemma run (h : g.StandsAt p s l) (hrun : Level.run s.slotted l t = some l') :
    g.StandsAt (p ++ t) s l' := by
  obtain ⟨hs, q, r, hq, hscan, rfl⟩ := h
  refine ⟨hs, q, r ++ t, hq, ?_, by simp⟩
  rw [scan_append, hscan, Option.bind_some, hrun]

lemma step {c : Char} (h : g.StandsAt p s l) (hstep : l.step s.slotted c = some l') :
    g.StandsAt (p ++ [c]) s l' :=
  h.run (by rw [Level.run_singleton, hstep])

/-- The tail grows with the text. -/
lemma sectionTail_append (h : g.StandsAt p s l) (hrun : Level.run s.slotted l t = some l') :
    g.sectionTail (p ++ t) = g.sectionTail p ++ t := by
  obtain ⟨-, q, r, -, hscan, rfl⟩ := h
  have hrt : scan s.slotted (r ++ t) = some l' := by
    rw [scan_append, hscan, Option.bind_some, hrun]
  rw [List.append_assoc, List.cons_append,
    Grammar.sectionTail_append (not_mem_square_of_scan hrt).1,
    Grammar.sectionTail_append (not_mem_square_of_scan hscan).1]
  simp

/-- **The context is a function of the level.** -/
theorem classify (h : g.StandsAt p s l) (hg : g.OneTableEach) (lookahead : List Char) :
    g.classify p lookahead = withKinds (g.levelContext? s (g.sectionTail p) lookahead l) := by
  obtain ⟨hs, q, r, hq, hscan, rfl⟩ := h
  have hr := (not_mem_square_of_scan hscan).1
  have hplace := place?_of_opens hg.nodup hs hq hr
  rw [hscan, Option.bind_some] at hplace
  have hin : ∀ place, s.placeOf? l = some place →
      g.reading? (q ++ '[' :: r) = some (.inSection s.code place) := by
    intro place hl
    exact (reading?_inSection_iff hg.nodup hr).mpr ⟨s, hs, rfl, hq, by rw [hscan]; exact hl⟩
  rw [classify_eq]
  cases l with
  | list closed =>
    have hclosed : endsWith ')' (g.sectionTail (q ++ '[' :: r)) = closed := by
      rw [Grammar.sectionTail_append hr, endsWith_append_cons (by decide)]
      exact (scan_eq_some_iff.mp hscan).2.symm
    rw [hin _ rfl]
    simp only [contextAt, hclosed, levelContext?, withKinds, Option.filter_some]
    split_ifs <;> simp_all
  | element b =>
    cases hend : s.slotEnd? b with
    | some f =>
      rw [hin (.newBlock f) (by simp [SectionSpec.placeOf?, hend])]
      simp only [contextAt, levelContext?, hend, withKinds, Option.filter_some]
      split_ifs <;> simp_all
    | none =>
      rw [hin (openPlace none b) (by simp [SectionSpec.placeOf?, hend])]
      simp only [contextAt_openPlace, levelContext?, hend, withKinds, Option.filter_some,
        containerOf]
      split_ifs <;> simp_all
  | block b i =>
    cases hend : s.slotEnd? b with
    | some f =>
      rw [hin (openPlace (some f) i) (by simp [SectionSpec.placeOf?, hend])]
      simp only [contextAt_openPlace, levelContext?, hend, withKinds, Option.map_some,
        Option.filter_some, containerOf]
      split_ifs <;> simp_all
    | none =>
      have hnone : g.reading? (q ++ '[' :: r) = none := by
        cases hread : g.reading? (q ++ '[' :: r) with
        | none => rfl
        | some o =>
          cases o with
          | inSection code place =>
            rw [reading?, hplace] at hread
            simp only [SectionSpec.placeOf?, hend, Option.map_none] at hread
            simp at hread
          | between w =>
            have := ((reading?_between_iff hg.nonempty hr).mp hread).2.scan_eq_none s.slotted
            rw [hscan] at this
            cases this
      rw [hnone]
      simp only [levelContext?, hend, withKinds, Option.map_none]
      rfl

end StandsAt

/-- A context in a container is the context of a level that the text stands at. -/
theorem exists_standsAt {g : Grammar} (hg : g.OneTableEach) {p lookahead : List Char}
    {ctx : Context} (h : g.classify p lookahead = some ctx) {c : Container}
    (hc : ctx.container = some c) :
    ∃ s l, g.StandsAt p s l ∧ g.levelContext? s (g.sectionTail p) lookahead l = some ctx ∧
      ctx.candidates ≠ [] := by
  have hread : ∃ code place, g.reading? p = some (.inSection code place) := by
    rw [classify_eq] at h
    cases hr : g.reading? p with
    | none =>
      rw [hr] at h
      cases h
    | some o =>
      cases o with
      | inSection code place => exact ⟨code, place, rfl⟩
      | between w =>
        rw [hr] at h
        obtain rfl := Option.some.inj h
        cases hc
  obtain ⟨code, place, hread⟩ := hread
  rcases not_mem_or_split_last '[' p with hp | ⟨q, r, hr, rfl⟩
  · have := ((reading?_of_not_mem hp).mp hread).1
    cases this
  · obtain ⟨s, hs, -, hq, hplace⟩ := (reading?_inSection_iff hg.nodup hr).mp hread
    obtain ⟨l, hscan, -⟩ := Option.bind_eq_some_iff.mp hplace
    have hstands : g.StandsAt (q ++ '[' :: r) s l := ⟨hs, q, r, hq, hscan, rfl⟩
    rw [hstands.classify hg, withKinds, Option.filter_eq_some_iff] at h
    refine ⟨s, l, hstands, h.1, ?_⟩
    simpa using h.2

end Grammar

end TopologyAssist
