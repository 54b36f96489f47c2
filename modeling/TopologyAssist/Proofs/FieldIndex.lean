import Mathlib.Data.String.Basic
import TopologyAssist.Proofs.Tables

/-!
The index of fields by the name of the kind that has them.

Entries are put in one by one, an entry of a name that is there already in its place. The index is
then in the strict order of names (`ordered_fieldSpecs`), whatever was put in when, and it holds for
each name the entry that was put in last (`find?_fieldSpecs`). These two say all there is to say of
it: two such indexes that answer alike are equal (`eq_of_ordered`).
-/

namespace TopologyAssist

/-! ### The order of names -/

lemma Container.rank_injective {c c' : Container} (h : c.rank = c'.rank) : c = c' := by
  cases c with
  | ofSection a =>
    cases c' with
    | ofSection b => cases a <;> cases b <;> first | rfl | exact absurd h (by decide)
    | ofFamily b => cases a <;> cases b <;> exact absurd h (by decide)
  | ofFamily a =>
    cases c' with
    | ofSection b => cases a <;> cases b <;> exact absurd h (by decide)
    | ofFamily b => cases a <;> cases b <;> first | rfl | exact absurd h (by decide)

namespace KindId

variable {a b c : KindId}

lemma precedes_iff :
    a.precedes b = true ↔ a.container.rank < b.container.rank ∨
      (a.container.rank = b.container.rank ∧ a.variant < b.variant) := by
  simp [precedes]

lemma precedes_trans (hab : a.precedes b = true) (hbc : b.precedes c = true) :
    a.precedes c = true := by
  rw [precedes_iff] at hab hbc ⊢
  rcases hab with hab | ⟨hab, hlt⟩ <;> rcases hbc with hbc | ⟨hbc, hlt'⟩
  · exact Or.inl (hab.trans hbc)
  · exact Or.inl (hbc ▸ hab)
  · exact Or.inl (hab ▸ hbc)
  · exact Or.inr ⟨hab.trans hbc, lt_trans hlt hlt'⟩

lemma not_precedes_self (a : KindId) : a.precedes a = false := by
  rw [Bool.eq_false_iff]
  intro h
  rcases precedes_iff.mp h with h | ⟨-, h⟩
  · exact absurd h (Nat.lt_irrefl _)
  · exact absurd h (lt_irrefl _)

/-- Of two names one comes first. -/
lemma precedes_of_not (hne : a ≠ b) (h : a.precedes b = false) : b.precedes a = true := by
  rw [Bool.eq_false_iff, Ne, precedes_iff, not_or, not_and] at h
  rw [precedes_iff]
  rcases Nat.lt_or_eq_of_le (Nat.le_of_not_lt h.1) with hlt | heq
  · exact Or.inl hlt
  · refine Or.inr ⟨heq, ?_⟩
    rcases lt_trichotomy a.variant b.variant with hlt | hvariant | hlt
    · exact absurd hlt (h.2 heq.symm)
    · have hcontainer := Container.rank_injective heq.symm
      cases a
      cases b
      simp_all
    · exact hlt

end KindId

/-! ### Ordered entries -/

section Entries

variable {α : Type}

/-- The entries are in the strict order of their names. -/
def Ordered (l : List (KindId × α)) : Prop := l.Pairwise fun p q => p.1.precedes q.1 = true

/-- The name that is put in is found; the others are found as before. -/
lemma find?_putOrdered (id id' : KindId) (a : α) (l : List (KindId × α)) :
    (putOrdered id a l).find? (fun p => p.1 == id') =
      if id = id' then some (id, a) else l.find? fun p => p.1 == id' := by
  induction l with
  | nil =>
    by_cases h : id = id' <;> simp [putOrdered, h]
  | cons x l ih =>
    obtain ⟨k, v⟩ := x
    rw [putOrdered]
    by_cases hk : id = k
    · subst hk
      rw [if_pos rfl]
      by_cases h : id = id' <;> simp [h]
    · rw [if_neg hk]
      split_ifs with hp h h
      · simp [h]
      · simp [List.find?_cons, h]
      · subst h
        simp [Ne.symm hk, ih]
      · simp [List.find?_cons, ih, h]

lemma mem_putOrdered {id : KindId} {a : α} {x : KindId × α} {l : List (KindId × α)}
    (h : x ∈ putOrdered id a l) : x = (id, a) ∨ x ∈ l := by
  induction l with
  | nil => exact Or.inl (List.mem_singleton.mp h)
  | cons y l ih =>
    rw [putOrdered] at h
    split_ifs at h
    · exact (List.mem_cons.mp h).imp_right (List.mem_cons_of_mem _)
    · exact List.mem_cons.mp h
    · rcases List.mem_cons.mp h with rfl | h
      · exact Or.inr (by simp)
      · exact (ih h).imp_right (List.mem_cons_of_mem _)

/-- **Putting an entry in keeps the order.** -/
lemma Ordered.putOrdered {l : List (KindId × α)} (h : Ordered l) (id : KindId) (a : α) :
    Ordered (putOrdered id a l) := by
  induction l with
  | nil => exact List.pairwise_singleton _ _
  | cons y l ih =>
    obtain ⟨hy, hl⟩ := List.pairwise_cons.mp h
    rw [TopologyAssist.putOrdered]
    split_ifs with hid hp
    · exact List.pairwise_cons.mpr ⟨fun x hx => hid ▸ hy x hx, hl⟩
    · refine List.pairwise_cons.mpr ⟨fun x hx => ?_, h⟩
      rcases List.mem_cons.mp hx with rfl | hx
      · exact hp
      · exact KindId.precedes_trans hp (hy x hx)
    · refine List.pairwise_cons.mpr ⟨fun x hx => ?_, ih hl⟩
      rcases mem_putOrdered hx with rfl | hx
      · exact KindId.precedes_of_not hid (Bool.eq_false_iff.mpr hp)
      · exact hy x hx

/-- Names in strict order are distinct. -/
lemma Ordered.nodup {l : List (KindId × α)} (h : Ordered l) : (l.map Prod.fst).Nodup := by
  rw [List.Nodup, List.pairwise_map]
  refine h.imp fun {p q} hpq heq => ?_
  rw [heq, KindId.not_precedes_self] at hpq
  cases hpq

/-- **Ordered entries that are found alike are the same.** -/
theorem eq_of_ordered {l l' : List (KindId × α)} (hl : Ordered l) (hl' : Ordered l')
    (h : ∀ id, l.find? (fun p => p.1 == id) = l'.find? fun p => p.1 == id) : l = l' := by
  refine List.Perm.eq_of_pairwise ?_ hl hl' ?_
  · intro p q _ _ hpq hqp
    have hself := KindId.precedes_trans hpq hqp
    rw [KindId.not_precedes_self] at hself
    cases hself
  · rw [List.perm_ext_iff_of_nodup (List.Nodup.of_map _ hl.nodup) (List.Nodup.of_map _ hl'.nodup)]
    intro x
    have hmem := find?_eq_some_iff_of_nodup hl.nodup (b := x.1) (x := x)
    rw [h, find?_eq_some_iff_of_nodup hl'.nodup] at hmem
    simpa using hmem.symm

/-- What was put in last is found first. -/
lemma find?_foldl_putOrdered (id : KindId) (l found : List (KindId × α)) :
    (l.foldl (fun found p => putOrdered p.1 p.2 found) found).find? (fun p => p.1 == id) =
      (l.reverse ++ found).find? fun p => p.1 == id := by
  induction l generalizing found with
  | nil => rfl
  | cons x l ih =>
    obtain ⟨k, v⟩ := x
    rw [List.foldl_cons, ih, List.reverse_cons, List.append_assoc, List.find?_append,
      List.find?_append, List.singleton_append, find?_putOrdered]
    by_cases hk : k = id <;> simp [hk]

lemma ordered_foldl_putOrdered (l : List (KindId × α)) {found : List (KindId × α)}
    (h : Ordered found) : Ordered (l.foldl (fun found p => putOrdered p.1 p.2 found) found) := by
  induction l generalizing found with
  | nil => exact h
  | cons x l ih => exact ih (h.putOrdered x.1 x.2)

end Entries

namespace Grammar

variable {g : Grammar}

/-- The index of a name is in the order of kind names. -/
theorem ordered_fieldSpecs (name : String) : Ordered (g.fieldSpecs name) :=
  ordered_foldl_putOrdered _ List.Pairwise.nil

/-- The index of a name holds the last declaration of each kind. -/
theorem find?_fieldSpecs (name : String) (id : KindId) :
    (g.fieldSpecs name).find? (fun p => p.1 == id) =
      (g.declarations name).reverse.find? fun p => p.1 == id := by
  rw [fieldSpecs, find?_foldl_putOrdered, List.append_nil]

end Grammar

end TopologyAssist
