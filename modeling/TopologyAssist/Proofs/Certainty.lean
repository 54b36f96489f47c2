import TopologyAssist.Completion
import TopologyAssist.Proofs.Tables
import TopologyAssist.Proofs.Typing

/-!
Nothing is guessed.

A context in a container has one kind, which is then settled, or several that are all still
possible (`Context.KindsOf`). A name means a field there only if exactly one of these kinds has a
field of that name. Where the kind is settled its own fields are searched, and where it is not the
index over all kinds; with distinct names the two searches answer by this one rule, for every
grammar and every context. So while the kind is open, nothing but the assignments that settle it
is offered, and a value only where the key is not shared.
-/

namespace TopologyAssist

namespace Grammar

variable {g : Grammar} {c : Container} {ctx : Context} {p lookahead : List Char}

/-! ### The field that a name means -/

/-- The search through the index. -/
lemma Distinct.resolveField?_of_open (hg : g.Distinct) (hkind : ctx.kind = none) {name : String}
    {id : KindId} {f : FieldSpec} :
    g.resolveField? ctx name = some (id, f) ↔ g.OnlyDeclares ctx.candidates name id f := by
  rw [← hg.fieldSpecsAmong_eq_singleton_iff, resolveField?, hkind]
  simp only
  split
  · rename_i found hfound
    rw [hfound, Option.some.injEq, List.cons.injEq, and_iff_left rfl]
  · rename_i hno
    constructor
    · intro h
      cases h
    · exact fun h => absurd h (hno _)

/-- The search through the fields of a settled kind. -/
lemma Distinct.resolveField?_of_settled (hg : g.Distinct) {id₀ : KindId}
    (hkind : ctx.kind = some id₀) (hids : ctx.candidates = [id₀]) {name : String} {id : KindId}
    {f : FieldSpec} :
    g.resolveField? ctx name = some (id, f) ↔ g.OnlyDeclares ctx.candidates name id f := by
  have hfield : ((g.kind? id₀).bind fun k => k.field? name) = some f ↔ g.Declares id₀ name f :=
    hg.field?_eq_some_iff
  rw [resolveField?, hkind, OnlyDeclares, hids]
  simp only [List.mem_singleton]
  constructor
  · intro h
    obtain ⟨k, hk, h⟩ := Option.bind_eq_some_iff.mp h
    obtain ⟨f', hf', heq⟩ := Option.map_eq_some_iff.mp h
    obtain ⟨rfl, rfl⟩ := Prod.mk.inj heq
    refine ⟨rfl, hfield.mp (by rw [hk]; exact hf'), ?_⟩
    rintro id' rfl hne
    exact absurd rfl hne
  · rintro ⟨rfl, hf, -⟩
    obtain ⟨k, hk, hf⟩ := Option.bind_eq_some_iff.mp (hfield.mpr hf)
    rw [hk, Option.bind_some, hf, Option.map_some]

/-- **Both searches follow one rule.** -/
lemma Distinct.resolveField?_iff (hg : g.Distinct) (h : g.classify p lookahead = some ctx)
    (name : String) (id : KindId) (f : FieldSpec) :
    g.resolveField? ctx name = some (id, f) ↔ g.OnlyDeclares ctx.candidates name id f := by
  rcases classify_kinds h with ⟨w, sep, rfl⟩ | ⟨c, -, ⟨-, hkind, hids⟩ | ⟨hkind, -, -⟩⟩
  · exact hg.resolveField?_of_open rfl
  · exact hg.resolveField?_of_settled hkind hids
  · exact hg.resolveField?_of_open hkind

/-! ### What is offered -/

/-- **While the kind is open**, the assignments that settle it are offered and nothing else. -/
lemma memberItems_of_open (o : Options) (hkind : ctx.kind = none) (hkinds : ctx.KindsOf g c) :
    (Completion.memberItems g o ctx).map (fun item => (item.label, item.text)) =
      ctx.candidates.filterMap fun id => (g.discriminator? id).map fun d =>
        (d.key ++ "=" ++ d.value, ctx.separator ++ (d.key ++ "=" ++ d.value)) := by
  cases hkinds with
  | settled _ hsettled _ =>
    rw [hkind] at hsettled
    cases hsettled
  | several _ hlen hsub =>
    have hcount : (Completion.candidateKinds g ctx).length = ctx.candidates.length := by
      rw [Completion.candidateKinds, List.filterMap_length_eq_length]
      exact fun id hid => isSome_kind? (hsub id hid)
    have hitems : Completion.memberItems g o ctx =
        Completion.selectorItems ctx (Completion.candidateKinds g ctx) := by
      unfold Completion.memberItems
      split
      · rename_i hnil
        rw [hnil] at hcount ⊢
        rfl
      · rename_i k hk
        rw [hk, List.length_singleton] at hcount
        omega
      · rfl
    rw [hitems, Completion.selectorItems, Completion.candidateKinds, List.map_filterMap,
      List.filterMap_filterMap]
    refine List.filterMap_congr fun id _ => ?_
    cases hk : g.kind? id with
    | none => simp [discriminator?, hk]
    | some k =>
      simp only [discriminator?, hk, Option.bind_some, Option.map_map]
      rfl

lemma fieldValueItems_ne_nil (o : Options) (f : FieldSpec) :
    Completion.fieldValueItems o f ≠ [] := by
  unfold Completion.fieldValueItems
  split_ifs with hempty
  · cases f.defaultValue <;> simp
  · simpa using hempty

/-- The values of a key that does not select a kind are those of the field it means. -/
lemma valueItems_of_ne (o : Options) {key : String} (hfield : ctx.field = some key)
    (hkey : g.selector? c ≠ some key) :
    Completion.valueItems g o ctx c ≠ [] ↔ (g.resolveField? ctx key).isSome = true := by
  unfold Completion.valueItems
  rw [hfield]
  simp only
  rw [if_neg (by simp [hkey])]
  cases g.resolveField? ctx key with
  | none => simp
  | some found => simp [fieldValueItems_ne_nil]

/-- **Nothing is guessed.** In every context of every grammar with distinct names, a name means the
field of a kind exactly if this kind alone, of those that are possible, has a field of that name.
While the kind is open, one assignment is offered for each possible kind that an assignment settles,
in their order, and nothing else. For a key that does not select a kind, values are offered exactly
if one possible kind alone has it. -/
theorem offers_only_certain (g : Grammar) (hg : g.Distinct) (p lookahead : List Char)
    (ctx : Context) (h : g.classify p lookahead = some ctx) (o : Options) :
    (∀ name id f, g.resolveField? ctx name = some (id, f) ↔
      id ∈ ctx.candidates ∧ g.Declares id name f ∧
        ∀ id' ∈ ctx.candidates, id' ≠ id → ∀ f', ¬ g.Declares id' name f') ∧
    ∀ c, ctx.container = some c →
      (ctx.kind = none → ctx.boundary = .fieldBoundary ∨ ctx.boundary = .insideElement →
        (Completion.items g o ctx).map (fun item => (item.label, item.text)) =
          ctx.candidates.filterMap fun id => (g.discriminator? id).map fun d =>
            (d.key ++ "=" ++ d.value, ctx.separator ++ (d.key ++ "=" ++ d.value))) ∧
      ∀ key, ctx.boundary = .newFieldValue → ctx.field = some key → g.selector? c ≠ some key →
        (Completion.items g o ctx ≠ [] ↔
          ∃! id, id ∈ ctx.candidates ∧ ∃ f, g.Declares id key f) := by
  refine ⟨hg.resolveField?_iff h, fun c hc => ⟨fun hkind hb => ?_, fun key hb hfield hkey => ?_⟩⟩
  · have hitems : Completion.items g o ctx = Completion.memberItems g o ctx := by
      rcases hb with hb | hb <;> simp only [Completion.items, hc, hb]
    rw [hitems]
    exact memberItems_of_open o hkind (classify_kinds_of_container h hc)
  · have hitems : Completion.items g o ctx = Completion.valueItems g o ctx c := by
      simp only [Completion.items, hc, hb]
    rw [hitems, valueItems_of_ne o hfield hkey, Option.isSome_iff_exists]
    constructor
    · rintro ⟨⟨id, f⟩, hfound⟩
      obtain ⟨hid, hf, honly⟩ := (hg.resolveField?_iff h key id f).mp hfound
      refine ⟨id, ⟨hid, f, hf⟩, ?_⟩
      rintro id' ⟨hid', f', hf'⟩
      by_contra hne
      exact honly id' hid' hne f' hf'
    · rintro ⟨id, ⟨hid, f, hf⟩, honly⟩
      refine ⟨(id, f), (hg.resolveField?_iff h key id f).mpr ⟨hid, hf, ?_⟩⟩
      intro id' hid' hne f' hf'
      exact hne (honly id' ⟨hid', f', hf'⟩)

/-- In a location two of the three kinds have a radius, so no value is offered for it; what is
offered in its place settles the kind. -/
theorem offers_only_certain_location :
    standard.classify "NRN=[(LOC=(".toList [] =
      some (standard.blankContext (.ofFamily .location) .fieldBoundary false) ∧
    (Completion.items standard {}
      (standard.blankContext (.ofFamily .location) .fieldBoundary false)).map
        (fun item => (item.label, item.text)) =
      [("cst=ct", "cst=ct"), ("cst=cl", "cst=cl"), ("cst=sp", "cst=sp")] ∧
    standard.classify "NRN=[(LOC=(rad=".toList [] =
      some { standard.blankContext (.ofFamily .location) .newFieldValue false with
        field := some "rad" } ∧
    Completion.items standard {}
      { standard.blankContext (.ofFamily .location) .newFieldValue false with
        field := some "rad" } = [] := by
  have hopen : standard.classify "NRN=[(LOC=(".toList [] =
      some (standard.blankContext (.ofFamily .location) .fieldBoundary false) := by decide +kernel
  have hvalue : standard.classify "NRN=[(LOC=(rad=".toList [] =
      some { standard.blankContext (.ofFamily .location) .newFieldValue false with
        field := some "rad" } := by decide +kernel
  refine ⟨hopen, ?_, hvalue, ?_⟩
  · rw [((offers_only_certain standard standard_distinct _ _ _ hopen {}).2 (.ofFamily .location)
      rfl).1 rfl (Or.inl rfl)]
    decide +kernel
  · by_contra hne
    have hunique := (((offers_only_certain standard standard_distinct _ _ _ hvalue {}).2
      (.ofFamily .location) rfl).2 "rad" rfl rfl (by decide)).mp hne
    have hcl : standard.Declares ⟨.ofFamily .location, "cl"⟩ "rad" _ :=
      standard_distinct.field?_eq_some_iff.mp rfl
    have hsp : standard.Declares ⟨.ofFamily .location, "sp"⟩ "rad" _ :=
      standard_distinct.field?_eq_some_iff.mp rfl
    exact absurd (hunique.unique ⟨by decide, _, hcl⟩ ⟨by decide, _, hsp⟩) (by decide)

end Grammar

end TopologyAssist
