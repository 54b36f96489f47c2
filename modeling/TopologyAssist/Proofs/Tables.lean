import Mathlib.Data.List.Nodup
import Mathlib.Data.List.Perm.Basic
import TopologyAssist.Grammar.Lookup
import TopologyAssist.Grammar.Standard

/-!
Look-ups in tables with distinct names.

The kinds of a grammar are looked up by name, the fields of a kind by name, and the kinds that have
a field of some name through an index in the order of kind names. Where no two kinds and no two
fields of a kind have one name, all three find exactly what the tables declare:
`Distinct.kind?_eq_some_iff`, `Distinct.field?_eq_some_iff` and `Distinct.mem_fieldSpecs_iff`.
-/

namespace TopologyAssist

/-- The first entry of a key is the only one, where keys are distinct. -/
lemma find?_eq_some_iff_of_nodup {α β : Type} [DecidableEq β] {key : α → β} {l : List α}
    (h : (l.map key).Nodup) {b : β} {x : α} :
    l.find? (fun y => key y == b) = some x ↔ x ∈ l ∧ key x = b := by
  constructor
  · intro hfind
    exact ⟨List.mem_of_find?_eq_some hfind, by simpa using List.find?_some hfind⟩
  · rintro ⟨hx, hkey⟩
    cases hfind : l.find? (fun y => key y == b) with
    | none => exact absurd (List.find?_eq_none.mp hfind x hx) (by simpa using hkey)
    | some y =>
      have hy : key y = b := by simpa using List.find?_some hfind
      rw [List.inj_on_of_nodup_map h (List.mem_of_find?_eq_some hfind) hx (hy.trans hkey.symm)]

/-- The parts that are kept are the parts of what is kept. -/
lemma filter_flatMap_of_eq {α β : Type} {f : α → List β} {p : β → Bool} {q : α → Bool}
    (h : ∀ a, ∀ b ∈ f a, p b = q a) (l : List α) :
    (l.flatMap f).filter p = (l.filter q).flatMap f := by
  induction l with
  | nil => rfl
  | cons a l ih =>
    rw [List.flatMap_cons, List.filter_append, ih]
    cases hq : q a with
    | true =>
      have hall : (f a).filter p = f a :=
        List.filter_eq_self.mpr fun b hb => (h a b hb).trans hq
      rw [hall, List.filter_cons_of_pos hq, List.flatMap_cons]
    | false =>
      have hnone : (f a).filter p = [] :=
        List.filter_eq_nil_iff.mpr fun b hb => by simp [h a b hb, hq]
      rw [hnone, List.filter_cons_of_neg (by simp [hq]), List.nil_append]

lemma findSome?_congr {α β : Type} {l : List α} {f f' : α → Option β}
    (h : ∀ a ∈ l, f a = f' a) : l.findSome? f = l.findSome? f' := by
  induction l with
  | nil => rfl
  | cons a l ih =>
    rw [List.findSome?_cons, List.findSome?_cons, h a (by simp),
      ih fun b hb => h b (List.mem_cons_of_mem _ hb)]

/-! ### The index -/

/-- A pair of a new name is put somewhere. -/
lemma putOrdered_perm {α : Type} {id : KindId} {l : List (KindId × α)} (h : id ∉ l.map Prod.fst)
    (a : α) : (putOrdered id a l).Perm ((id, a) :: l) := by
  induction l with
  | nil => rfl
  | cons x l ih =>
    rw [List.map_cons, List.mem_cons, not_or] at h
    rw [putOrdered, if_neg h.1]
    split_ifs
    · rfl
    · exact ((ih h.2).cons x).trans (List.Perm.swap _ _ _)

/-- Pairs with distinct names are all in the index. -/
lemma foldl_putOrdered_perm {α : Type} (l found : List (KindId × α))
    (h : ((l ++ found).map Prod.fst).Nodup) :
    (l.foldl (fun found p => putOrdered p.1 p.2 found) found).Perm (l ++ found) := by
  induction l generalizing found with
  | nil => rfl
  | cons x l ih =>
    have hx : x.1 ∉ found.map Prod.fst := by
      rw [List.cons_append, List.map_cons, List.nodup_cons, List.map_append] at h
      exact fun hmem => h.1 (List.mem_append_right _ hmem)
    have hput : (l ++ putOrdered x.1 x.2 found).Perm (x :: l ++ found) :=
      ((putOrdered_perm hx x.2).append_left l).trans List.perm_middle
    exact (ih _ ((hput.map Prod.fst).nodup_iff.mpr h)).trans hput

namespace Grammar

/-! ### Kinds of a container -/

/-- The kinds of a container are those of its tables. -/
lemma filter_kinds_container (g : Grammar) (c : Container) :
    g.kinds.filter (fun p => p.1 == c) =
      ((g.sections.filter fun s => Container.ofSection s.code == c).flatMap fun s =>
        s.kinds.map fun k => (.ofSection s.code, k)) ++
      (g.families.filter fun f => Container.ofFamily f.code == c).flatMap fun f =>
        f.kinds.map fun k => (.ofFamily f.code, k) := by
  rw [kinds, List.filter_append, filter_flatMap_of_eq, filter_flatMap_of_eq]
  · intro f p hp
    obtain ⟨k, -, rfl⟩ := List.mem_map.mp hp
    rfl
  · intro s p hp
    obtain ⟨k, -, rfl⟩ := List.mem_map.mp hp
    rfl

/-- The kinds that the tables of a container list, table by table. -/
def listed (g : Grammar) : Container → List ElementKind
  | .ofSection code => (g.sections.filter fun s => s.code == code).flatMap SectionSpec.kinds
  | .ofFamily code => (g.families.filter fun f => f.code == code).flatMap FamilySpec.kinds

/-- The tables of one code list their kinds under one container. -/
lemma flatMap_tables {τ κ : Type} [DecidableEq κ] {container : κ → Container}
    (hinj : Function.Injective container) (code : τ → κ) (kinds : τ → List ElementKind)
    (tables : List τ) (c : κ) :
    ((tables.filter fun t => container (code t) == container c).flatMap fun t =>
        (kinds t).map fun k => (container (code t), k)) =
      ((tables.filter fun t => code t == c).flatMap kinds).map fun k => (container c, k) := by
  have hcodes : ∀ t, (container (code t) == container c) = (code t == c) := by
    intro t
    rw [Bool.eq_iff_iff, beq_iff_eq, beq_iff_eq]
    exact hinj.eq_iff
  simp only [hcodes]
  rw [List.map_flatMap]
  refine List.flatMap_congr fun t ht => ?_
  rw [beq_iff_eq.mp (List.mem_filter.mp ht).2]

/-- The kinds of a container are those that its tables list, in their order. -/
lemma filter_kinds_eq_listed (g : Grammar) (c : Container) :
    g.kinds.filter (fun p => p.1 == c) = (g.listed c).map fun k => (c, k) := by
  rw [filter_kinds_container]
  cases c with
  | ofSection code =>
    have hnone : (g.families.filter fun f => Container.ofFamily f.code == .ofSection code) = [] :=
      List.filter_eq_nil_iff.mpr fun f _ => by simp
    rw [hnone, List.flatMap_nil, List.append_nil]
    exact flatMap_tables (fun _ _ => Container.ofSection.inj) SectionSpec.code SectionSpec.kinds _ _
  | ofFamily code =>
    have hnone : (g.sections.filter fun s => Container.ofSection s.code == .ofFamily code) = [] :=
      List.filter_eq_nil_iff.mpr fun s _ => by simp
    rw [hnone, List.flatMap_nil, List.nil_append]
    exact flatMap_tables (fun _ _ => Container.ofFamily.inj) FamilySpec.code FamilySpec.kinds _ _

lemma mem_kinds_iff_listed {g : Grammar} {c : Container} {k : ElementKind} :
    (c, k) ∈ g.kinds ↔ k ∈ g.listed c := by
  have hfilter : (c, k) ∈ g.kinds ↔ (c, k) ∈ g.kinds.filter fun p => p.1 == c := by
    simp [List.mem_filter]
  rw [hfilter, filter_kinds_eq_listed, List.mem_map]
  simp

/-! ### Distinct names -/

/-- No two kinds have one name, and no two fields of a kind. -/
structure Distinct (g : Grammar) : Prop where
  kinds : (g.kinds.map fun p => p.2.id).Nodup
  fields : ∀ x ∈ g.kinds, (x.2.fields.map FieldSpec.name).Nodup

lemma standard_distinct : standard.Distinct where
  kinds := by decide +kernel
  fields := by decide +kernel

/-- The tables give the kind a field of that name. -/
def Declares (g : Grammar) (id : KindId) (name : String) (f : FieldSpec) : Prop :=
  ∃ c k, (c, k) ∈ g.kinds ∧ k.id = id ∧ f ∈ k.fields ∧ f.name = name

/-- Of the kinds, this one alone has a field of that name, and the field is `f`. -/
def OnlyDeclares (g : Grammar) (ids : List KindId) (name : String) (id : KindId) (f : FieldSpec) :
    Prop :=
  id ∈ ids ∧ g.Declares id name f ∧ ∀ id' ∈ ids, id' ≠ id → ∀ f', ¬ g.Declares id' name f'

variable {g : Grammar} {id : KindId} {name : String} {f : FieldSpec}

lemma mem_declarations_iff : (id, f) ∈ g.declarations name ↔ g.Declares id name f := by
  simp only [declarations, List.mem_flatMap, List.mem_map, List.mem_filter, beq_iff_eq,
    Prod.mk.injEq]
  constructor
  · rintro ⟨⟨c, k⟩, hk, f', ⟨hf, hname⟩, hid, rfl⟩
    exact ⟨c, k, hk, hid, hf, hname⟩
  · rintro ⟨c, k, hk, hid, hf, hname⟩
    exact ⟨(c, k), hk, f, ⟨hf, hname⟩, hid, rfl⟩

lemma mem_fieldSpecsAmong_iff {ids : List KindId} :
    (id, f) ∈ g.fieldSpecsAmong name ids ↔ id ∈ ids ∧ (id, f) ∈ g.fieldSpecs name := by
  rw [fieldSpecsAmong, List.mem_filter, List.contains_iff_mem, and_comm]

/-- A kind of a container is found by its name. -/
lemma isSome_kind? {c : Container} (h : id ∈ g.kindsIn c) : (g.kind? id).isSome = true := by
  obtain ⟨x, hx, rfl⟩ := List.mem_map.mp h
  rw [kind?, Option.isSome_map, List.find?_isSome]
  exact ⟨x, List.mem_reverse.mpr (List.mem_of_mem_filter hx), by simp⟩

namespace Distinct

variable (hg : g.Distinct)
include hg

lemma kind?_eq_some_iff {k : ElementKind} :
    g.kind? id = some k ↔ ∃ c, (c, k) ∈ g.kinds ∧ k.id = id := by
  have hnodup : (g.kinds.reverse.map fun p => p.2.id).Nodup := by
    rw [List.map_reverse, List.nodup_reverse]
    exact hg.kinds
  rw [kind?, Option.map_eq_some_iff]
  constructor
  · rintro ⟨⟨c, k'⟩, hfind, rfl⟩
    obtain ⟨hmem, hid⟩ := (find?_eq_some_iff_of_nodup hnodup).mp hfind
    exact ⟨c, List.mem_reverse.mp hmem, hid⟩
  · rintro ⟨c, hmem, hid⟩
    refine ⟨(c, k), ?_, rfl⟩
    exact (find?_eq_some_iff_of_nodup hnodup).mpr ⟨List.mem_reverse.mpr hmem, hid⟩

/-- The field of a kind is the one that the tables declare. -/
lemma field?_eq_some_iff :
    ((g.kind? id).bind fun k => k.field? name) = some f ↔ g.Declares id name f := by
  rw [Option.bind_eq_some_iff]
  have hfield : ∀ {c k}, (c, k) ∈ g.kinds →
      (k.field? name = some f ↔ f ∈ k.fields ∧ f.name = name) :=
    fun hk => find?_eq_some_iff_of_nodup (hg.fields _ hk)
  constructor
  · rintro ⟨k, hkind, hf⟩
    obtain ⟨c, hk, hid⟩ := hg.kind?_eq_some_iff.mp hkind
    exact ⟨c, k, hk, hid, (hfield hk).mp hf⟩
  · rintro ⟨c, k, hk, hid, hf⟩
    exact ⟨k, hg.kind?_eq_some_iff.mpr ⟨c, hk, hid⟩, (hfield hk).mpr hf⟩

lemma declares_unique {f' : FieldSpec} (h : g.Declares id name f) (h' : g.Declares id name f') :
    f = f' :=
  Option.some.inj ((hg.field?_eq_some_iff.mpr h).symm.trans (hg.field?_eq_some_iff.mpr h'))

/-- Each kind declares a name at most once. -/
lemma nodup_declarations (name : String) : ((g.declarations name).map Prod.fst).Nodup := by
  rw [declarations, List.map_flatMap, List.nodup_flatMap]
  constructor
  · intro x hx
    rw [List.map_map, List.Nodup, List.pairwise_map]
    have hpair := (List.pairwise_map.mp (hg.fields x hx)).filter fun f => f.name == name
    refine hpair.imp_of_mem fun ha hb hne => absurd ?_ hne
    exact (beq_iff_eq.mp (List.mem_filter.mp ha).2).trans
      (beq_iff_eq.mp (List.mem_filter.mp hb).2).symm
  · refine (List.pairwise_map.mp hg.kinds).imp fun {x y} hne => ?_
    intro id hx hy
    obtain ⟨a, ha, rfl⟩ := List.mem_map.mp hx
    obtain ⟨b, hb, heq⟩ := List.mem_map.mp hy
    obtain ⟨_, _, rfl⟩ := List.mem_map.mp ha
    obtain ⟨_, _, rfl⟩ := List.mem_map.mp hb
    exact hne heq.symm

/-- **The index holds every declaration of the name**, and nothing else. -/
theorem fieldSpecs_perm (name : String) : (g.fieldSpecs name).Perm (g.declarations name) := by
  have h := foldl_putOrdered_perm (g.declarations name) []
    (by rw [List.append_nil]; exact hg.nodup_declarations name)
  rwa [List.append_nil] at h

lemma mem_fieldSpecs_iff : (id, f) ∈ g.fieldSpecs name ↔ g.Declares id name f := by
  rw [(hg.fieldSpecs_perm name).mem_iff, mem_declarations_iff]

/-- **One entry of the index among some kinds** is the only declaration among them. -/
theorem fieldSpecsAmong_eq_singleton_iff {ids : List KindId} :
    g.fieldSpecsAmong name ids = [(id, f)] ↔ g.OnlyDeclares ids name id f := by
  have hnodup : (g.fieldSpecsAmong name ids).Nodup := by
    refine List.Nodup.filter _ ((hg.fieldSpecs_perm name).nodup_iff.mpr ?_)
    exact List.Nodup.of_map _ (hg.nodup_declarations name)
  have hmem : ∀ id f, (id, f) ∈ g.fieldSpecsAmong name ids ↔ id ∈ ids ∧ g.Declares id name f := by
    intro id f
    rw [mem_fieldSpecsAmong_iff, hg.mem_fieldSpecs_iff]
  constructor
  · intro h
    simp only [h, List.mem_singleton, Prod.mk.injEq] at hmem
    obtain ⟨hid, hf⟩ := (hmem id f).mp ⟨rfl, rfl⟩
    exact ⟨hid, hf, fun id' hid' hne f' hf' => hne ((hmem id' f').mpr ⟨hid', hf'⟩).1⟩
  · rintro ⟨hid, hf, honly⟩
    refine List.perm_singleton.mp ?_
    rw [List.perm_ext_iff_of_nodup hnodup (List.nodup_singleton _)]
    rintro ⟨id', f'⟩
    rw [hmem, List.mem_singleton, Prod.mk.injEq]
    constructor
    · rintro ⟨hid', hf'⟩
      obtain rfl : id' = id := by
        by_contra hne
        exact honly id' hid' hne f' hf'
      exact ⟨rfl, hg.declares_unique hf' hf⟩
    · rintro ⟨rfl, rfl⟩
      exact ⟨hid, hf⟩

end Distinct

end Grammar

end TopologyAssist
