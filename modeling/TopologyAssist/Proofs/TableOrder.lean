import TopologyAssist.Proofs.FieldIndex
import TopologyAssist.Proofs.Tail

/-!
The order of the tables does not decide a context.

Shapes are tried in the order of the tables, and every look-up walks through them. With one table
for each code, the first order is invisible: at most one section has a shape that fits
(`SectionSpec.opens_of_search?`), and what a container declares is one table's, wherever it stands
(`Reordered.filter_kinds`).

Kinds are looked up by name over all tables, the last one first. So the second order is invisible
only where the kinds of one name stand in one table (`Grammar.NamesApart`,
`Reordered.filter_kinds_id`). From these two every part of a context follows, one lemma for each
function that reads the tables. Two tables that share a name show their order
(`order_of_tables_shared`).
-/

namespace TopologyAssist

/-! ### Reordered lists -/

/-- The entries of a key are one at most where keys are distinct, so their order is kept by any
other order of the whole. -/
lemma filter_eq_of_perm {α β : Type} [DecidableEq β] (key : α → β) {l l' : List α}
    (h : l.Perm l') (hd : (l.map key).Nodup) (b : β) :
    l.filter (fun a => key a == b) = l'.filter fun a => key a == b := by
  have hperm := h.filter fun a => key a == b
  cases hl : l.filter fun a => key a == b with
  | nil =>
    rw [hl] at hperm
    exact (List.perm_nil.mp hperm.symm).symm
  | cons x rest =>
    cases rest with
    | nil =>
      rw [hl] at hperm
      exact (List.perm_singleton.mp hperm.symm).symm
    | cons y rest =>
      -- two entries of one key
      have hkey : ∀ z ∈ l.filter (fun a => key a == b), key z = b := fun z hz => by
        simpa using (List.mem_filter.mp hz).2
      have hnodup := hd.sublist ((List.filter_sublist (p := fun a => key a == b)).map key)
      rw [hl] at hnodup hkey
      have hsame : key x = key y := (hkey x (by simp)).trans (hkey y (by simp)).symm
      simp [hsame] at hnodup

/-- The only answer is found in any order. -/
lemma findSome?_of_perm {α β : Type} {f : α → Option β} {l l' : List α} (h : l.Perm l')
    (hone : ∀ a ∈ l, ∀ b ∈ l, f a ≠ none → f b ≠ none → a = b) :
    l.findSome? f = l'.findSome? f := by
  by_cases hall : ∀ a ∈ l, f a = none
  · rw [List.findSome?_eq_none_iff.mpr hall,
      List.findSome?_eq_none_iff.mpr fun a ha => hall a (h.mem_iff.mpr ha)]
  · push Not at hall
    obtain ⟨a, ha, hfa⟩ := hall
    have honly : ∀ b ∈ l, b ≠ a → f b = none := by
      intro b hb hne
      by_contra hfb
      exact hne (hone b hb a ha hfb hfa)
    rw [Grammar.findSome?_of_unique ha honly, Grammar.findSome?_of_unique (h.mem_iff.mp ha)]
    exact fun b hb => honly b (h.mem_iff.mpr hb)

/-! ### Shapes exclude each other -/

/-- A shape fits only where its section opens. -/
lemma SectionSpec.opens_of_search? {s : SectionSpec} {shape : Reader Place}
    (hshape : shape ∈ s.shapes) {q r : List Char} (hr : '[' ∉ r)
    (h : shape.search? (q ++ '[' :: r) ≠ none) : s.code.opens q := by
  obtain ⟨o, ho⟩ := SectionSpec.exists_search_shape hshape hr
  by_contra hq
  exact h (by rw [ho, if_neg hq])

/-- **Shapes of two sections never fit one text.** -/
theorem SectionSpec.search?_eq_none_or {s s' : SectionSpec} (hne : s.code ≠ s'.code)
    {shape shape' : Reader Place} (hshape : shape ∈ s.shapes) (hshape' : shape' ∈ s'.shapes)
    (text : List Char) : shape.search? text = none ∨ shape'.search? text = none := by
  rcases not_mem_or_split_last '[' text with h | ⟨q, r, hr, rfl⟩
  · exact Or.inl (s.search?_of_not_mem hshape h)
  · by_contra hboth
    obtain ⟨h, h'⟩ := not_or.mp hboth
    exact hne (SectionCode.opens_unique (opens_of_search? hshape hr h)
      (opens_of_search? hshape' hr h'))

namespace SectionSpec

/-- The shapes of a section inside an element or a block. -/
def insideShapes (s : SectionSpec) : List (Reader Place) :=
  (if s.slotted then blockShapes s.code s.slots else []) ++ (listShapes s.code s.slotted).dropLast

/-- The shape of a section between elements. -/
def betweenShape (s : SectionSpec) : Reader Place := do
  openList s.code s.slotted
  Reader.finish
  pure .newElement

lemma shapes_eq (s : SectionSpec) : s.shapes = s.insideShapes ++ [s.betweenShape] := by
  simp [shapes, insideShapes, betweenShape, listShapes]

/-- Where all elements are closed no shape inside an element or a block fits. -/
lemma search?_insideShapes {s : SectionSpec} {shape : Reader Place}
    (hshape : shape ∈ s.insideShapes) {q r : List Char} (hr : '[' ∉ r) {closed : Bool}
    (hscan : scan s.slotted r = some (.list closed)) : shape.search? (q ++ '[' :: r) = none := by
  have htrue := scan_true_of_scan hscan
  rcases List.mem_append.mp hshape with hb | hl
  · split_ifs at hb
    · simp only [blockShapes, List.mem_cons, List.not_mem_nil, or_false] at hb
      rcases hb with rfl | rfl | rfl
      · simp [search_inBlockValue hr, htrue, Level.inBlockValue?]
      · simp [search_inBlockFields hr, htrue, Level.inBlockFields?]
      · simp [search_atBlock hr, htrue, Level.atBlock?]
    · exact absurd hb List.not_mem_nil
  · simp only [listShapes, List.dropLast_cons_cons, List.dropLast_singleton, List.mem_cons,
      List.not_mem_nil, or_false] at hl
    rcases hl with rfl | rfl
    · simp [search_inValue hr, hscan, Level.inValue?]
    · simp [search_inFields hr, hscan, Level.inFields?]

/-- **No shape inside an element or a block fits where the one between elements does.** -/
theorem search?_eq_none_or_inside {s : SectionSpec} {shape : Reader Place}
    (hshape : shape ∈ s.insideShapes) (text : List Char) :
    s.betweenShape.search? text = none ∨ shape.search? text = none := by
  rcases not_mem_or_split_last '[' text with h | ⟨q, r, hr, rfl⟩
  · exact Or.inl (s.search?_of_not_mem (by simp [shapes_eq]) h)
  by_cases hlist : ∃ closed, scan s.slotted r = some (.list closed)
  · obtain ⟨closed, hscan⟩ := hlist
    exact Or.inr (search?_insideShapes hshape hr hscan)
  · refine Or.inl ?_
    rw [betweenShape, search_betweenElements hr]
    cases hscan : scan s.slotted r with
    | none => simp
    | some l =>
      cases l with
      | list closed => exact absurd ⟨closed, hscan⟩ hlist
      | element b => simp [Level.betweenElements?]
      | block b i => simp [Level.betweenElements?]

end SectionSpec

/-! ### Reordered tables -/

namespace Grammar

/-- The tables of one grammar are those of the other in some order, and each code has one. -/
structure Reordered (g g' : Grammar) : Prop where
  sections : g.sections.Perm g'.sections
  families : g.families.Perm g'.families
  sectionCodes : (g.sections.map SectionSpec.code).Nodup
  familyCodes : (g.families.map FamilySpec.code).Nodup

/-- Kinds of one name are listed under one container. -/
def NamesApart (g : Grammar) : Prop :=
  ∀ x ∈ g.kinds, ∀ y ∈ g.kinds, x.2.id = y.2.id → x.1 = y.1

namespace Reordered

variable {g g' : Grammar} (h : g.Reordered g')
include h

/-- **What a container declares is one table's**, wherever the table stands. -/
theorem filter_kinds (c : Container) :
    g.kinds.filter (fun p => p.1 == c) = g'.kinds.filter fun p => p.1 == c := by
  have hsections := filter_eq_of_perm (fun s : SectionSpec => Container.ofSection s.code)
    h.sections (by
      have hmap := h.sectionCodes.map fun _ _ => Container.ofSection.inj
      rwa [List.map_map] at hmap) c
  have hfamilies := filter_eq_of_perm (fun f : FamilySpec => Container.ofFamily f.code)
    h.families (by
      have hmap := h.familyCodes.map fun _ _ => Container.ofFamily.inj
      rwa [List.map_map] at hmap) c
  rw [filter_kinds_container, filter_kinds_container, hsections, hfamilies]

lemma kindsIn_eq : g.kindsIn = g'.kindsIn := by
  funext c
  rw [kindsIn, kindsIn, h.filter_kinds]

lemma kinds_perm : g.kinds.Perm g'.kinds :=
  (h.sections.flatMap_right _).append (h.families.flatMap_right _)

/-- **The kinds of one name keep their order**, where one container has them all. -/
theorem filter_kinds_id (hapart : g.NamesApart) (id : KindId) :
    g.kinds.filter (fun p => p.2.id == id) = g'.kinds.filter fun p => p.2.id == id := by
  by_cases hnone : g.kinds.filter (fun p => p.2.id == id) = []
  · have hperm := h.kinds_perm.filter fun p => p.2.id == id
    rw [hnone] at hperm ⊢
    exact (List.perm_nil.mp hperm.symm).symm
  · obtain ⟨x, hx⟩ := List.exists_mem_of_ne_nil _ hnone
    obtain ⟨hx, hid⟩ := List.mem_filter.mp hx
    -- all of them are listed where `x` is
    have hthere : ∀ y ∈ g.kinds, (y.2.id == id) = (y.2.id == id && y.1 == x.1) := by
      intro y hy
      cases hy' : y.2.id == id with
      | false => rfl
      | true =>
        have hsame := (beq_iff_eq.mp hy').trans (beq_iff_eq.mp hid).symm
        simp [hapart y hy x hx hsame]
    rw [List.filter_congr hthere,
      List.filter_congr fun y hy => hthere y (h.kinds_perm.mem_iff.mpr hy),
      ← List.filter_filter, ← List.filter_filter, h.filter_kinds]

lemma kind?_eq (hapart : g.NamesApart) : g.kind? = g'.kind? := by
  funext id
  rw [kind?, kind?, ← List.head?_filter, ← List.head?_filter, List.filter_reverse,
    List.filter_reverse, h.filter_kinds_id hapart]

lemma discriminator?_eq (hapart : g.NamesApart) : g.discriminator? = g'.discriminator? := by
  funext id
  rw [discriminator?, discriminator?, h.kind?_eq hapart]

lemma selector?_eq (hapart : g.NamesApart) : g.selector? = g'.selector? := by
  funext c
  rw [selector?, selector?, h.kindsIn_eq, h.discriminator?_eq hapart]

/-- The index of a field does not show the order in which it was filled. -/
lemma fieldSpecs_eq (hapart : g.NamesApart) (name : String) :
    g.fieldSpecs name = g'.fieldSpecs name := by
  refine eq_of_ordered (ordered_fieldSpecs name) (ordered_fieldSpecs name) fun id => ?_
  have hfound : ∀ g : Grammar, (g.declarations name).filter (fun p => p.1 == id) =
      (g.kinds.filter fun p => p.2.id == id).flatMap fun p =>
        (p.2.fields.filter fun f => f.name == name).map fun f => (p.2.id, f) := by
    intro g
    refine filter_flatMap_of_eq (fun p q hq => ?_) g.kinds
    obtain ⟨f, -, rfl⟩ := List.mem_map.mp hq
    rfl
  rw [find?_fieldSpecs, find?_fieldSpecs, ← List.head?_filter, ← List.head?_filter,
    List.filter_reverse, List.filter_reverse, hfound g, hfound g', h.filter_kinds_id hapart]

lemma resolveField?_eq (hapart : g.NamesApart) (ctx : Context) (name : String) :
    g.resolveField? ctx name = g'.resolveField? ctx name := by
  simp only [resolveField?, fieldSpecsAmong, h.kind?_eq hapart, h.fieldSpecs_eq hapart]

/-! ### Evidence -/

lemma isSlotted_eq : g.isSlotted = g'.isSlotted := by
  funext code
  rw [isSlotted, isSlotted, ← List.head?_filter, ← List.head?_filter, List.filter_reverse,
    List.filter_reverse, filter_eq_of_perm SectionSpec.code h.sections h.sectionCodes]

lemma lastDeclared?_eq (hapart : g.NamesApart) : g.lastDeclared? = g'.lastDeclared? := by
  funext c history
  simp only [lastDeclared?, declaration?, h.selector?_eq hapart, h.isSlotted_eq]

lemma exactKind?_eq (hapart : g.NamesApart) : g.exactKind? = g'.exactKind? := by
  funext ids value
  simp only [exactKind?, h.discriminator?_eq hapart]

lemma select_eq (hapart : g.NamesApart) : g.select = g'.select := by
  funext ids found
  simp only [select, h.exactKind?_eq hapart, h.discriminator?_eq hapart]

lemma resolve_eq (hapart : g.NamesApart) : g.resolve = g'.resolve := by
  funext c e
  simp only [resolve, resolveEmpty, h.kindsIn_eq, h.selector?_eq hapart, h.exactKind?_eq hapart,
    h.select_eq hapart, h.lastDeclared?_eq hapart]

lemma contextAt_eq (hapart : g.NamesApart) : g.contextAt = g'.contextAt := by
  funext code tail lookahead place
  cases place <;> simp only [contextAt, resolveAt, allKinds, h.kindsIn_eq, h.resolve_eq hapart]

/-! ### Recognition -/

lemma sectionTail_eq : g.sectionTail = g'.sectionTail := by
  have hreach : g.reach = g'.reach := by
    rw [reach, reach, (h.sections.map _).foldl_eq]
  funext text
  rw [sectionTail, sectionTail, hreach]

lemma place?_eq (text : List Char) : g.place? text = g'.place? text := by
  rw [Grammar.place?_eq, Grammar.place?_eq]
  refine findSome?_of_perm h.sections ?_
  intro s hs s' hs' hfits hfits'
  by_contra hne
  have hcode : s.code ≠ s'.code := fun heq =>
    hne (List.inj_on_of_nodup_map h.sectionCodes hs hs' heq)
  rw [Ne, Option.map_eq_none_iff, List.findSome?_eq_none_iff] at hfits hfits'
  push Not at hfits hfits'
  obtain ⟨shape, hshape, hfit⟩ := hfits
  obtain ⟨shape', hshape', hfit'⟩ := hfits'
  exact (SectionSpec.search?_eq_none_or hcode hshape hshape' text).elim hfit hfit'

lemma betweenSections?_eq (text : List Char) :
    g.betweenSections? text = g'.betweenSections? text := by
  have hcodes := h.sections.map SectionSpec.code
  rcases not_mem_or_split_last '[' text with hp | ⟨q, r, hr, rfl⟩
  · rw [betweenSections?_of_not_mem hp, betweenSections?_of_not_mem hp]
  · refine Option.ext fun w => ?_
    rw [betweenSections?_append_eq_some_iff hr, betweenSections?_append_eq_some_iff hr]
    refine and_congr_left fun _ => exists_congr fun u => and_congr_left fun _ => ?_
    simp only [Head, SectionHead, hcodes.mem_iff]
    refine or_congr (and_congr_left fun _ => ?_) Iff.rfl
    exact ⟨fun hnil => (hnil ▸ hcodes).nil_eq.symm, fun hnil => (hnil ▸ hcodes.symm).nil_eq.symm⟩

end Reordered

/-- **The order of the tables decides nothing.** Where each code has one table, and kinds of one
name are in one of them, another order of the sections and of the families gives the same context
for every text, and the same field for every name in every context. Shapes of two sections never fit
one text, and no shape of a section inside an element or a block fits a text that its shape between
elements fits, whatever the names of kinds are. -/
theorem order_of_tables {g g' : Grammar} (h : g.Reordered g') :
    (g.NamesApart →
      (∀ p lookahead, g.classify p lookahead = g'.classify p lookahead) ∧
      ∀ ctx name, g.resolveField? ctx name = g'.resolveField? ctx name) ∧
    (∀ s ∈ g.sections, ∀ s' ∈ g.sections, s ≠ s' →
      ∀ shape ∈ s.shapes, ∀ shape' ∈ s'.shapes, ∀ text,
        shape.search? text = none ∨ shape'.search? text = none) ∧
    ∀ s ∈ g.sections, s.shapes = s.insideShapes ++ [s.betweenShape] ∧
      ∀ shape ∈ s.insideShapes, ∀ text,
        s.betweenShape.search? text = none ∨ shape.search? text = none := by
  refine ⟨fun hapart => ⟨fun p lookahead => ?_, h.resolveField?_eq hapart⟩, ?_,
    fun s _ => ⟨s.shapes_eq, ?_⟩⟩
  · simp only [classify, h.sectionTail_eq, h.place?_eq, h.betweenSections?_eq,
      h.contextAt_eq hapart]
  · intro s hs s' hs' hne shape hshape shape' hshape' text
    refine SectionSpec.search?_eq_none_or (fun heq => hne ?_) hshape hshape' text
    exact List.inj_on_of_nodup_map h.sectionCodes hs hs' heq
  · exact fun shape hshape text => SectionSpec.search?_eq_none_or_inside hshape text

/-- The built-in tables the other way round. -/
theorem order_of_tables_reverse :
    standard.Reordered ⟨standard.sections.reverse, standard.families.reverse⟩ ∧
    standard.NamesApart ∧
    standard.classify "NRN=[(LOC=(cst=cl,rad=".toList [] =
      Grammar.classify ⟨standard.sections.reverse, standard.families.reverse⟩
        "NRN=[(LOC=(cst=cl,rad=".toList [] ∧
    (standard.classify "NRN=[(LOC=(cst=cl,rad=".toList []).map Context.kind =
      some (some ⟨.ofFamily .location, "cl"⟩) := by
  have h : standard.Reordered ⟨standard.sections.reverse, standard.families.reverse⟩ :=
    ⟨(List.reverse_perm _).symm, (List.reverse_perm _).symm, by decide, by decide⟩
  have hapart : standard.NamesApart := by
    unfold NamesApart
    decide +kernel
  exact ⟨h, hapart, ((order_of_tables h).1 hapart).1 _ _, by decide +kernel⟩

/-- **A name in two tables shows their order.** The connections list a kind under the name of the
one that the groups list. Either order gives the same context in a group, and the field in it is that
of the later table. -/
theorem order_of_tables_shared :
    let kind (detail : String) : ElementKind :=
      ⟨⟨.ofSection .groups, "a"⟩, "", "", none, [⟨"x", detail, "", none, none, []⟩], []⟩
    let groups : SectionSpec := ⟨.groups, "", "", [kind "from GRP"]⟩
    let connections : SectionSpec := ⟨.connections, "", "", [kind "from CON"]⟩
    let g : Grammar := ⟨[groups, connections], []⟩
    let g' : Grammar := ⟨[connections, groups], []⟩
    g.Reordered g' ∧ ∃ ctx,
      g.classify "GRP=[(".toList [] = some ctx ∧ g'.classify "GRP=[(".toList [] = some ctx ∧
      (g.resolveField? ctx "x").map (fun x => x.2.detail) = some "from CON" ∧
      (g'.resolveField? ctx "x").map (fun x => x.2.detail) = some "from GRP" := by
  intro kind groups connections g g'
  refine ⟨⟨List.Perm.swap _ _ _, List.Perm.refl _, by decide, by decide⟩, ?_⟩
  exact ⟨⟨some (.ofSection .groups), .fieldBoundary, some ⟨.ofSection .groups, "a"⟩,
    [⟨.ofSection .groups, "a"⟩], none, "", false⟩, by decide +kernel, by decide +kernel,
    by decide +kernel, by decide +kernel⟩

end Grammar

end TopologyAssist
