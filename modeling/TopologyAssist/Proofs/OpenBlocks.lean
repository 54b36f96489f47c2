import TopologyAssist.Grammar.Standard
import TopologyAssist.Proofs.Evidence

/-!
Texts that stand in an open block, of an element or of a function.

`Grammar.OpenAt g p c b` says that `p` ends in a block of the container `c` with the text `b`. Its
context is `openContext` of `b`, and text that is typed in the block changes `b` alone. The tables
have to be in order for this (`Grammar.Tidy`), which the built-in ones are.
-/

namespace TopologyAssist

/-! ### Last pieces -/

lemma lastPiece_comma (b : List Char) : lastPiece (b ++ [',']) = [] :=
  lastPiece_append List.not_mem_nil

lemma lastPiece_append_of_not_mem {t : List Char} (ht : ',' ∉ t) (b : List Char) :
    lastPiece (b ++ t) = lastPiece b ++ t :=
  afterLast_append_of_not_mem ht b

lemma lastPiece_snoc {d : Char} (hd : d ≠ ',') (b : List Char) :
    lastPiece (b ++ [d]) = lastPiece b ++ [d] :=
  lastPiece_append_of_not_mem (by simpa using hd.symm) b

/-- A text ends as its last piece does, unless with a comma. -/
lemma endsWith_lastPiece {c : Char} (hc : c ≠ ',') (b : List Char) :
    endsWith c (lastPiece b) = endsWith c b := by
  rcases List.eq_nil_or_concat b with rfl | ⟨u, d, rfl⟩
  · rfl
  · rw [List.concat_eq_append]
    by_cases hd : d = ','
    · rw [hd, lastPiece_comma, endsWith_append_singleton]
      exact (beq_eq_false_iff_ne.mpr hc.symm).symm
    · rw [lastPiece_snoc hd, endsWith_append_singleton, endsWith_append_singleton]

/-- A piece that ends with a parenthesis assigns nothing. -/
lemma assigned?_close (u : List Char) : assigned? (u ++ [')']) = none := by
  cases h : assigned? (u ++ [')']) with
  | none => rfl
  | some a =>
    obtain ⟨-, hv, heq⟩ := assigned?_eq_some_iff.mp h
    rcases List.eq_nil_or_concat a.2 with hnil | ⟨v, d, hd⟩
    · rw [hnil] at heq
      exact absurd (List.append_inj_right' heq rfl) (by decide)
    · rw [hd] at heq hv
      have hsplit : u ++ [')'] = (a.1 ++ '=' :: v) ++ [d] := by simpa using heq
      have hlast : [')'] = [d] := List.append_inj_right' hsplit rfl
      have := hv d (by simp)
      rw [← (List.cons.inj hlast).1] at this
      exact absurd this (by decide)

lemma SectionSpec.slotEnd?_of_assigned {s : SectionSpec} {b : List Char}
    (h : assigned? (lastPiece b) = none) : s.slotEnd? b = none := by
  rw [slotEnd?, h]

lemma SectionSpec.slotted_of_slotEnd? {s : SectionSpec} {b : List Char} {f : FamilyCode}
    (h : s.slotEnd? b = some f) : s.slotted = true := by
  by_contra hs
  rw [slotEnd?_of_not_slotted (Bool.eq_false_iff.mpr hs)] at h
  cases h

namespace Grammar

/-! ### Open blocks -/

/-- The text ends in a block of the container, and `b` is what the block holds so far. -/
def OpenAt (g : Grammar) (p : List Char) (c : Container) (b : List Char) : Prop :=
  (∃ s, g.StandsAt p s (.element b) ∧ s.slotEnd? b = none ∧ c = .ofSection s.code) ∨
  ∃ s e f, g.StandsAt p s (.block e b) ∧ s.slotEnd? e = some f ∧ c = .ofFamily f

variable {g : Grammar} {p lookahead b : List Char} {c : Container} {ctx : Context}

lemma openContext_container (tail : List Char) :
    (g.openContext c tail b lookahead).container = some c := by
  unfold openContext
  cases assigned? (lastPiece b) <;> simp

lemma openContext_boundary (tail : List Char) :
    (g.openContext c tail b lookahead).boundary ≠ .newElement := by
  unfold openContext
  cases assigned? (lastPiece b) with
  | some a => simp
  | none =>
    simp only [Context.ofResolution_boundary]
    split_ifs <;> simp

lemma OpenAt.classify (h : g.OpenAt p c b) (hg : g.OneTableEach) (lookahead : List Char) :
    g.classify p lookahead = withKinds (some (g.openContext c (g.sectionTail p) b lookahead)) := by
  rcases h with ⟨s, hs, hend, rfl⟩ | ⟨s, e, f, hs, hend, rfl⟩
  · rw [hs.classify hg, levelContext?, hend]
  · rw [hs.classify hg, levelContext?, hend, Option.map_some]

/-- Plain text that is typed in a block goes into it, unless it opens a block itself. -/
lemma OpenAt.append (h : g.OpenAt p c b) {t : List Char} (ht : ∀ x ∈ t, isPlain x = true)
    (hslot : ∀ s ∈ g.sections, s.slotEnd? (b ++ t) = none) :
    g.OpenAt (p ++ t) c (b ++ t) ∧ g.sectionTail (p ++ t) = g.sectionTail p ++ t := by
  rcases h with ⟨s, hs, -, rfl⟩ | ⟨s, e, f, hs, hend, rfl⟩
  · have hrun : Level.run s.slotted (.element b) t = some (.element (b ++ t)) :=
      Level.run_element_plain ht
    exact ⟨Or.inl ⟨s, hs.run hrun, hslot s hs.1, rfl⟩, hs.sectionTail_append hrun⟩
  · have hrun : Level.run s.slotted (.block e b) t = some (.block e (b ++ t)) :=
      Level.run_block_plain ht
    exact ⟨Or.inr ⟨s, e, f, hs.run hrun, hend, rfl⟩, hs.sectionTail_append hrun⟩

/-- **A context with another boundary than a new element is one of an open block.** -/
theorem exists_openAt (hg : g.OneTableEach) (h : g.classify p lookahead = some ctx)
    (hc : ctx.container = some c) (hb : ctx.boundary ≠ .newElement) :
    ∃ b, g.OpenAt p c b ∧ ctx = g.openContext c (g.sectionTail p) b lookahead ∧
      ctx.candidates ≠ [] := by
  obtain ⟨s, l, hs, hl, hne⟩ := exists_standsAt hg h hc
  cases l with
  | list closed =>
    obtain rfl := Option.some.inj hl
    cases hk : g.allKinds (.ofSection s.code) <;> simp [hk, Context.ofResolution] at hb
  | element b =>
    cases hend : s.slotEnd? b with
    | some f =>
      simp only [levelContext?, hend] at hl
      obtain rfl := Option.some.inj hl
      cases hk : g.allKinds (.ofFamily f) <;> simp [hk, Context.ofResolution] at hb
    | none =>
      simp only [levelContext?, hend] at hl
      obtain rfl := Option.some.inj hl
      rw [openContext_container] at hc
      obtain rfl := Option.some.inj hc
      exact ⟨b, Or.inl ⟨s, hs, hend, rfl⟩, rfl, hne⟩
  | block e b =>
    obtain ⟨f, hend, rfl⟩ := Option.map_eq_some_iff.mp hl
    rw [openContext_container] at hc
    obtain rfl := Option.some.inj hc
    exact ⟨b, Or.inr ⟨s, e, f, hs, hend, rfl⟩, rfl, hne⟩

/-- The context of a container in which nothing is typed and every kind is possible. -/
def blankContext (g : Grammar) (c : Container) (boundary : Boundary) (needsSeparator : Bool) :
    Context where
  container := some c
  boundary := boundary
  kind := match g.kindsIn c with
    | [id] => some id
    | _ => none
  candidates := g.kindsIn c
  field := none
  fragment := ""
  needsSeparator := needsSeparator

lemma ofResolution_allKinds (c : Container) (boundary : Boundary) :
    Context.ofResolution c boundary (g.allKinds c) = g.blankContext c boundary false := by
  unfold allKinds blankContext
  split <;> simp_all [Context.ofResolution]

/-- **A context at a new element** is one between elements, or one where a block opens. -/
theorem exists_standsAt_newElement (hg : g.OneTableEach) (h : g.classify p lookahead = some ctx)
    (hc : ctx.container = some c) (hb : ctx.boundary = .newElement) :
    (∃ s closed, g.StandsAt p s (.list closed) ∧ c = .ofSection s.code ∧
      ctx = g.blankContext c .newElement closed) ∨
    ∃ s b f, g.StandsAt p s (.element b) ∧ s.slotEnd? b = some f ∧ c = .ofFamily f ∧
      ctx = g.blankContext c .newElement false := by
  obtain ⟨s, l, hs, hl, -⟩ := exists_standsAt hg h hc
  cases l with
  | list closed =>
    simp only [levelContext?, ofResolution_allKinds] at hl
    obtain rfl := Option.some.inj hl
    obtain rfl := Option.some.inj hc
    exact Or.inl ⟨s, closed, hs, rfl, rfl⟩
  | element b =>
    cases hend : s.slotEnd? b with
    | some f =>
      simp only [levelContext?, hend, ofResolution_allKinds] at hl
      obtain rfl := Option.some.inj hl
      obtain rfl := Option.some.inj hc
      exact Or.inr ⟨s, b, f, hs, hend, rfl, rfl⟩
    | none =>
      simp only [levelContext?, hend] at hl
      obtain rfl := Option.some.inj hl
      exact absurd hb (openContext_boundary _)
  | block e b =>
    obtain ⟨f, hend, rfl⟩ := Option.map_eq_some_iff.mp hl
    exact absurd hb (openContext_boundary _)

/-! ### Tables in order -/

/-- Tables in order: one for each section, kinds for each container, a key that tells the kinds
apart wherever there are several, and function blocks only where there is one kind. -/
structure Tidy (g : Grammar) : Prop extends g.OneTableEach where
  kinds_ne_nil : ∀ c, g.kindsIn c ≠ []
  single_of_slotted : ∀ s ∈ g.sections, s.slotted = true →
    (g.kindsIn (.ofSection s.code)).length = 1
  selector_of_several : ∀ c, 1 < (g.kindsIn c).length →
    ∃ key, g.selector? c = some key ∧ IsKey key.toList
  isValue_discriminator : ∀ c, ∀ id ∈ g.kindsIn c, ∀ d ∈ g.discriminator? id,
    IsValue d.value.toList

lemma standard_tidy : standard.Tidy where
  nonempty := by decide
  nodup := by decide
  kinds_ne_nil := by
    rintro (c | c) <;> cases c <;> decide
  single_of_slotted := by decide
  selector_of_several := by
    rintro (c | c) <;> cases c
    · exact fun _ => ⟨"typ", by decide, by decide⟩
    · exact fun h => absurd h (by decide)
    · exact fun h => absurd h (by decide)
    · exact fun _ => ⟨"fnc", by decide, by decide⟩
    · exact fun _ => ⟨"fnc", by decide, by decide⟩
    · exact fun _ => ⟨"fnc", by decide, by decide⟩
    · exact fun _ => ⟨"fnc", by decide, by decide⟩
    · exact fun _ => ⟨"cst", by decide, by decide⟩
  isValue_discriminator := by
    rintro (c | c) <;> cases c <;> decide

/-- One kind, or several in a block without blocks in it. -/
lemma OpenAt.single_or_plain (h : g.OpenAt p c b) (hg : g.Tidy) :
    (∃ id, g.kindsIn c = [id]) ∨
      (1 < (g.kindsIn c).length ∧ ∀ x ∈ b, isPlain x = true) := by
  have hlen : (g.kindsIn c).length = 1 ∨ 1 < (g.kindsIn c).length := by
    have := List.length_pos_iff.mpr (hg.kinds_ne_nil c)
    omega
  rcases hlen with hlen | hlen
  · exact Or.inl (List.length_eq_one_iff.mp hlen)
  · refine Or.inr ⟨hlen, ?_⟩
    rcases h with ⟨s, ⟨hs, q, r, -, hscan, -⟩, -, rfl⟩ | ⟨s, e, f, ⟨-, q, r, -, hscan, -⟩, -, rfl⟩
    · cases hslotted : s.slotted with
      | true =>
        have := hg.single_of_slotted s hs hslotted
        omega
      | false =>
        obtain ⟨L, -, hb, -⟩ := scan_eq_some_iff.mp hscan
        rw [hslotted] at hb
        exact Nested.zero_iff.mp hb
    · obtain ⟨-, L, -, -, hb, -⟩ := scan_eq_some_iff.mp hscan
      exact Nested.zero_iff.mp hb

lemma OpenAt.plain_of_several (h : g.OpenAt p c b) (hg : g.Tidy)
    (hlen : 1 < (g.kindsIn c).length) : ∀ x ∈ b, isPlain x = true := by
  rcases h.single_or_plain hg with ⟨id, hid⟩ | ⟨-, hb⟩
  · rw [hid] at hlen
    exact absurd hlen (by simp)
  · exact hb

end Grammar

end TopologyAssist
