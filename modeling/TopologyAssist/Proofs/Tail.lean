import TopologyAssist.Proofs.Contexts

/-!
The tail of a text decides alone.

Only the text from the code of its last section on is searched for a shape. Nothing is lost by
that: of what is before the last `[` a shape sees whether its section opens there
(`SectionSpec.exists_search_shape`), and the tail is long enough to show it. Where a section opens,
the tail begins with its code (`Grammar.sectionTail_of_opens`), so that no earlier section can have
a part in the context (`Grammar.tail_decides`).
-/

namespace TopologyAssist

/-- Of the text before the last `[` a shape sees whether its section opens there. -/
lemma SectionSpec.exists_search_shape {s : SectionSpec} {shape : Reader Place}
    (h : shape ∈ s.shapes) {r : List Char} (hr : '[' ∉ r) :
    ∃ o, ∀ q, shape.search? (q ++ '[' :: r) = if s.code.opens q then o else none := by
  unfold shapes at h
  rcases List.mem_append.mp h with hb | hl
  · split_ifs at hb
    · simp only [blockShapes, List.mem_cons, List.not_mem_nil, or_false] at hb
      rcases hb with rfl | rfl | rfl
      · exact ⟨_, fun q => search_inBlockValue hr⟩
      · exact ⟨_, fun q => search_inBlockFields hr⟩
      · exact ⟨_, fun q => search_atBlock hr⟩
    · exact absurd hb List.not_mem_nil
  · simp only [listShapes, List.mem_cons, List.not_mem_nil, or_false] at hl
    rcases hl with rfl | rfl | rfl
    · exact ⟨_, fun q => search_inValue hr⟩
    · exact ⟨_, fun q => search_inFields hr⟩
    · exact ⟨_, fun q => search_betweenElements hr⟩

namespace Grammar

variable {g : Grammar}

/-- **Every shape captures from the tail what it captures from the whole text.** -/
theorem search?_sectionTail {shape : SectionCode × Reader Place} (h : shape ∈ g.battery)
    (p : List Char) : shape.2.search? (g.sectionTail p) = shape.2.search? p := by
  obtain ⟨s, hs, hmem⟩ := List.mem_flatMap.mp h
  obtain ⟨shape, hshape, rfl⟩ := List.mem_map.mp hmem
  rcases not_mem_or_split_last '[' p with hp | ⟨q, r, hr, rfl⟩
  · rw [sectionTail_of_not_mem hp]
  · obtain ⟨o, ho⟩ := SectionSpec.exists_search_shape hshape hr
    rw [sectionTail_append hr]
    simp only [ho, opens_lastBytes hs q]

/-- The first shape that fits a text fits its tail first, and captures the same. -/
lemma place?_eq_tail (p : List Char) : g.place? p = g.place? (g.sectionTail p) := by
  unfold place?
  refine findSome?_congr fun shape hshape => ?_
  rw [search?_sectionTail hshape]

/-- **The tail decides.** Every shape captures the same from a text and from its tail, so the first
that fits is the same one, and so is what the text between sections ends with. Behind the opening
of a section the context is the same whatever comes before, earlier sections and their declarations
included. -/
theorem tail_decides (g : Grammar) :
    (∀ p, (∀ shape ∈ g.battery, shape.2.search? p = shape.2.search? (g.sectionTail p)) ∧
      g.place? p = g.place? (g.sectionTail p) ∧
      g.betweenSections? p = g.betweenSections? (g.sectionTail p)) ∧
    ∀ q x r lookahead, '[' ∉ r → (∃ s ∈ g.sections, s.code.opens x) →
      g.classify (q ++ (x ++ '[' :: r)) lookahead = g.classify (x ++ '[' :: r) lookahead := by
  refine ⟨fun p => ⟨fun shape h => (search?_sectionTail h p).symm, place?_eq_tail p,
    (betweenSections?_sectionTail p).symm⟩, ?_⟩
  rintro q x r lookahead hr ⟨s, hs, hx⟩
  have hqx : s.code.opens (q ++ x) := hx.trans (List.suffix_append q x)
  have htail : g.sectionTail (q ++ (x ++ '[' :: r)) = g.sectionTail (x ++ '[' :: r) := by
    rw [← List.append_assoc, sectionTail_of_opens hs hqx hr, sectionTail_of_opens hs hx hr]
  have hend : endsWith ']' (q ++ (x ++ '[' :: r)) = endsWith ']' (x ++ '[' :: r) := by
    rw [← List.append_assoc, endsWith_append_cons (by decide), endsWith_append_cons (by decide)]
  simp only [classify, htail, hend]

/-- A function that an earlier section declares is no evidence, and what is between the sections,
brackets and characters of two bytes, does not matter. -/
theorem tail_decides_neurons :
    (∃ s ∈ standard.sections, s.code.opens "µNRN=".toList) ∧
      (standard.classify ("NRN=[(WDF=(fnc=exp))],µ[]".toList ++
        ("µNRN=".toList ++ '[' :: "(WDF=(fnc=".toList)) []).map Context.kind = some none := by
  have hopens : ∃ s ∈ standard.sections, s.code.opens "µNRN=".toList := by decide
  refine ⟨hopens, ?_⟩
  rw [(tail_decides standard).2 _ _ _ _ (by decide) hopens]
  decide +kernel

end Grammar

end TopologyAssist
