import TopologyAssist.Proofs.FieldIndex

/-!
The look-ups of a grammar agree with its tables and with each other.

A kind is looked up by its name, the kinds of a container by its code, and the fields of a name
through an index by kind. All of them walk through the same tables, in which a code may come several
times. `Grammar.listed` reads the tables of one code directly; `Grammar.IndexesAgree` says of each
look-up what it finds there, and `Grammar.indexes_agree` that this holds wherever no two kinds and no
two fields of a kind have one name.
-/

namespace TopologyAssist

namespace Grammar

variable {g : Grammar}

/-! ### Kinds and their tables -/

lemma kindsIn_eq_listed (c : Container) : g.kindsIn c = (g.listed c).map ElementKind.id := by
  rw [kindsIn, filter_kinds_eq_listed, List.map_map]
  rfl

/-! ### The index of a name -/

lemma mem_fieldSpecs?_iff {name : String} {entries : List (KindId × FieldSpec)} :
    entries ∈ g.fieldSpecs? name ↔ g.declarations name ≠ [] ∧ entries = g.fieldSpecs name := by
  unfold fieldSpecs?
  by_cases h : g.declarations name = []
  · simp [h]
  · rw [if_neg (by simpa using h), Option.mem_some]
    constructor
    · intro heq
      exact ⟨h, heq.symm⟩
    · rintro ⟨-, rfl⟩
      rfl

/-- An index without entries is as good as none. -/
lemma fieldSpecs?_getD (name : String) : (g.fieldSpecs? name).getD [] = g.fieldSpecs name := by
  unfold fieldSpecs?
  by_cases h : g.declarations name = []
  · simp [h, fieldSpecs]
  · simp [h]

lemma fieldSpecs?_eq_none_iff {name : String} :
    g.fieldSpecs? name = none ↔ ∀ c, ∀ k ∈ g.listed c, ∀ f ∈ k.fields, f.name ≠ name := by
  have hnone : g.fieldSpecs? name = none ↔ ∀ id f, ¬ g.Declares id name f := by
    unfold fieldSpecs?
    rw [ite_eq_left_iff, List.isEmpty_iff]
    constructor
    · intro h id f hdeclares
      have hmem := mem_declarations_iff.mpr hdeclares
      exact absurd (h fun hnil => by rw [hnil] at hmem; cases hmem) (by simp)
    · intro h hne
      obtain ⟨⟨id, f⟩, hmem⟩ := List.exists_mem_of_ne_nil _ hne
      exact absurd (mem_declarations_iff.mp hmem) (h id f)
  rw [hnone]
  constructor
  · intro h c k hk f hf hname
    exact h k.id f ⟨c, k, mem_kinds_iff_listed.mpr hk, rfl, hf, hname⟩
  · rintro h id f ⟨c, k, hk, -, hf, hname⟩
    exact h c k (mem_kinds_iff_listed.mp hk) f hf hname

/-! ### Agreement -/

/-- What each look-up finds, by the tables. -/
structure IndexesAgree (g : Grammar) : Prop where
  /-- A name has the kind of that name that a table lists. -/
  kind : ∀ id k, g.kind? id = some k ↔ (∃ c, k ∈ g.listed c) ∧ k.id = id
  /-- The index of a field's name has, for each kind, the kind's own field. -/
  field : ∀ name id f, (∃ entries ∈ g.fieldSpecs? name, (id, f) ∈ entries) ↔
    ∃ k, g.kind? id = some k ∧ k.field? name = some f
  /-- A name has no index if no kind has a field of that name. -/
  undeclared : ∀ name, g.fieldSpecs? name = none ↔
    ∀ c, ∀ k ∈ g.listed c, ∀ f ∈ k.fields, f.name ≠ name
  /-- An index is in the order of containers, sections first, and in one container in the order of
  variants; so it has a kind once at most. -/
  order : ∀ name, ∀ entries ∈ g.fieldSpecs? name, entries.Pairwise fun p q =>
    p.1.container.rank < q.1.container.rank ∨
      (p.1.container = q.1.container ∧ p.1.variant < q.1.variant)
  /-- The kinds of a container are those of its tables, one table after the other. -/
  container : ∀ c, g.kindsIn c = (g.listed c).map ElementKind.id
  once : ∀ c, (g.kindsIn c).Nodup
  known : ∀ c, ∀ id ∈ g.kindsIn c, ∃ k, g.kind? id = some k
  /-- The index among some kinds leaves the others out and keeps the order. -/
  among : ∀ name ids,
    (g.fieldSpecsAmong name ids).Sublist ((g.fieldSpecs? name).getD []) ∧
    ∀ id f, (id, f) ∈ g.fieldSpecsAmong name ids ↔
      id ∈ ids ∧ (id, f) ∈ (g.fieldSpecs? name).getD []
  /-- In which order the kinds are given, and how often, makes no difference. -/
  among_congr : ∀ name ids ids', (∀ id, id ∈ ids ↔ id ∈ ids') →
    g.fieldSpecsAmong name ids = g.fieldSpecsAmong name ids'
  /-- The selector is the key of the first kind that is told apart by one. -/
  selector : ∀ c, g.selector? c =
    ((g.listed c).findSome? ElementKind.discriminator).map Discriminator.key

namespace Distinct

variable (hg : g.Distinct)
include hg

lemma kind?_iff_listed {id : KindId} {k : ElementKind} :
    g.kind? id = some k ↔ (∃ c, k ∈ g.listed c) ∧ k.id = id := by
  rw [hg.kind?_eq_some_iff]
  simp only [mem_kinds_iff_listed, exists_and_right]

lemma nodup_kindsIn (c : Container) : (g.kindsIn c).Nodup := by
  unfold kindsIn
  exact hg.kinds.sublist (List.filter_sublist.map _)

/-- A listed kind is found by its name, so its discriminator is found in its place. -/
lemma selector?_eq_listed (c : Container) :
    g.selector? c = ((g.listed c).findSome? ElementKind.discriminator).map Discriminator.key := by
  have hfound : ∀ k ∈ g.listed c, g.discriminator? k.id = k.discriminator := by
    intro k hk
    unfold discriminator?
    rw [hg.kind?_iff_listed.mpr ⟨⟨c, hk⟩, rfl⟩]
    rfl
  unfold selector?
  rw [kindsIn_eq_listed, List.findSome?_map]
  exact congrArg _ (findSome?_congr hfound)

lemma mem_fieldSpecs?_iff_field? {name : String} {id : KindId} {f : FieldSpec} :
    (∃ entries ∈ g.fieldSpecs? name, (id, f) ∈ entries) ↔
      ∃ k, g.kind? id = some k ∧ k.field? name = some f := by
  rw [← Option.bind_eq_some_iff (x := g.kind? id),
    hg.field?_eq_some_iff, ← hg.mem_fieldSpecs_iff]
  constructor
  · rintro ⟨entries, hentries, hmem⟩
    rwa [← (mem_fieldSpecs?_iff.mp hentries).2]
  · intro hmem
    refine ⟨g.fieldSpecs name, mem_fieldSpecs?_iff.mpr ⟨?_, rfl⟩, hmem⟩
    have hdeclared := mem_declarations_iff.mpr (hg.mem_fieldSpecs_iff.mp hmem)
    exact List.ne_nil_of_mem hdeclared

end Distinct

lemma pairwise_fieldSpecs?_rank {name : String} {entries : List (KindId × FieldSpec)}
    (h : entries ∈ g.fieldSpecs? name) :
    entries.Pairwise fun p q => p.1.container.rank < q.1.container.rank ∨
      (p.1.container = q.1.container ∧ p.1.variant < q.1.variant) := by
  obtain ⟨-, rfl⟩ := mem_fieldSpecs?_iff.mp h
  refine (ordered_fieldSpecs name).imp fun {p q} hpq => ?_
  rcases KindId.precedes_iff.mp hpq with hlt | ⟨heq, hlt⟩
  · exact Or.inl hlt
  · exact Or.inr ⟨Container.rank_injective heq, hlt⟩

lemma fieldSpecsAmong_congr (name : String) {ids ids' : List KindId}
    (h : ∀ id, id ∈ ids ↔ id ∈ ids') :
    g.fieldSpecsAmong name ids = g.fieldSpecsAmong name ids' := by
  unfold fieldSpecsAmong
  refine List.filter_congr fun p _ => ?_
  rw [Bool.eq_iff_iff, List.contains_iff_mem, List.contains_iff_mem]
  exact h p.1

/-- **The look-ups agree with the tables and with each other**, wherever no two kinds and no two
fields of a kind have one name. -/
theorem indexes_agree (hg : g.Distinct) : g.IndexesAgree where
  kind _ _ := hg.kind?_iff_listed
  field _ _ _ := hg.mem_fieldSpecs?_iff_field?
  undeclared _ := fieldSpecs?_eq_none_iff
  order _ _ h := pairwise_fieldSpecs?_rank h
  container := kindsIn_eq_listed
  once := hg.nodup_kindsIn
  known c id hid := Option.isSome_iff_exists.mp (isSome_kind? hid)
  among name ids := by
    rw [fieldSpecs?_getD]
    exact ⟨List.filter_sublist, fun id f => mem_fieldSpecsAmong_iff⟩
  among_congr name _ _ h := fieldSpecsAmong_congr name h
  selector := hg.selector?_eq_listed

/-- Two tables of one family with a section between them in the order of kind names: the kinds of the
family come table by table, and the index of the field they share in the order of names, whatever
kinds it is asked for. -/
theorem indexes_agree_repeated :
    let field : FieldSpec := ⟨"rad", "", "", none, none, []⟩
    let kind (id : KindId) (d : Option Discriminator) : ElementKind :=
      ⟨id, "", "", d, [field], []⟩
    let id (variant : String) : KindId := ⟨.ofFamily .location, variant⟩
    let g : Grammar :=
      ⟨[⟨.groups, "", "", [kind ⟨.ofSection .groups, "z"⟩ none]⟩],
        [⟨.location, "", "", [kind (id "sp") none, kind (id "cl") (some ⟨"cst", "cl"⟩)]⟩,
          ⟨.location, "", "", [kind (id "ca") (some ⟨"sys", "ca"⟩)]⟩]⟩
    g.Distinct ∧ g.IndexesAgree ∧
      g.kindsIn (.ofFamily .location) = [id "sp", id "cl", id "ca"] ∧
      g.fieldSpecs? "rad" =
        some [(⟨.ofSection .groups, "z"⟩, field), (id "ca", field), (id "cl", field),
          (id "sp", field)] ∧
      g.fieldSpecs? "ecc" = none ∧
      g.fieldSpecsAmong "rad" [id "sp", id "ca", id "sp"] = [(id "ca", field), (id "sp", field)] ∧
      g.selector? (.ofFamily .location) = some "cst" := by
  intro field kind id g
  have hg : g.Distinct := ⟨by decide, by decide⟩
  exact ⟨hg, indexes_agree hg, by decide, by decide, by decide, by decide, by decide⟩

end Grammar

end TopologyAssist
