import Mathlib.Data.List.Basic
import TopologyAssist.Text.Reader

/-!
What a reader reads, said of texts and not of lists of readings.

* `Reads r P` — wherever `r` stands, it may read exactly the texts that satisfy `P`;
* `Finds r cs a` — some ending of `cs` has a reading with the value `a`;
* `search?_eq_some_iff` — where all readings in a text agree, the search answers exactly what is
  found, so the order of preference does not matter there;
* `collect_of_head?`, `collect_of_silent` — a walk takes the preferred reading and goes on behind
  it, and passes what no reading begins in.
-/

namespace TopologyAssist

/-- The text is a row of texts that satisfy `P`. -/
def RowOf (P : List Char → Prop) (u : List Char) : Prop :=
  ∃ parts : List (List Char), (∀ x ∈ parts, P x) ∧ u = parts.flatten

namespace RowOf

variable {P : List Char → Prop}

lemma nil : RowOf P [] := ⟨[], by simp, rfl⟩

lemma cons {u v : List Char} (hu : P u) (hv : RowOf P v) : RowOf P (u ++ v) := by
  obtain ⟨parts, hparts, rfl⟩ := hv
  refine ⟨u :: parts, ?_, rfl⟩
  intro x hx
  rcases List.mem_cons.mp hx with rfl | hx
  · exact hu
  · exact hparts x hx

lemma append {u v : List Char} (hu : RowOf P u) (hv : RowOf P v) : RowOf P (u ++ v) := by
  obtain ⟨xs, hxs, rfl⟩ := hu
  obtain ⟨ys, hys, rfl⟩ := hv
  refine ⟨xs ++ ys, ?_, by simp⟩
  intro x hx
  rcases List.mem_append.mp hx with hx | hx
  · exact hxs x hx
  · exact hys x hx

lemma snoc {u v : List Char} (hu : RowOf P u) (hv : P v) : RowOf P (u ++ v) := by
  have h := hu.append (cons hv nil)
  rwa [List.append_nil] at h

/-- A row is empty or has a last part. -/
lemma eq_nil_or_snoc {u : List Char} (hu : RowOf P u) :
    u = [] ∨ ∃ v x, RowOf P v ∧ P x ∧ u = v ++ x := by
  obtain ⟨parts, hparts, rfl⟩ := hu
  rcases List.eq_nil_or_concat parts with rfl | ⟨init, x, rfl⟩
  · exact Or.inl rfl
  · refine Or.inr ⟨init.flatten, x, ⟨init, ?_, rfl⟩, hparts x (by simp), by simp⟩
    exact fun y hy => hparts y (by simp [hy])

end RowOf

namespace Reader

variable {α β : Type}

/-! ### Readings of one step -/

lemma mem_bind {r : Reader α} {f : α → Reader β} {cs t : List Char} {b : β} :
    (b, t) ∈ (r >>= f) cs ↔ ∃ a u, (a, u) ∈ r cs ∧ (b, t) ∈ f a u := by
  show (b, t) ∈ (r cs).flatMap (fun p => f p.1 p.2) ↔ _
  simp [List.mem_flatMap]

lemma bind_assoc {γ : Type} (r : Reader α) (f : α → Reader β) (h : β → Reader γ) :
    (r >>= f) >>= h = r >>= fun a => f a >>= h := by
  funext cs
  exact List.flatMap_assoc

lemma mem_pure {a b : α} {cs t : List Char} :
    (b, t) ∈ (pure a : Reader α) cs ↔ b = a ∧ t = cs := by
  show (b, t) ∈ [(a, cs)] ↔ _
  simp

lemma mem_here {u cs t : List Char} : (u, t) ∈ here cs ↔ u = cs ∧ t = cs := by
  simp [here]

lemma mem_finish {cs t : List Char} : ((), t) ∈ finish cs ↔ cs = [] ∧ t = [] := by
  cases cs <;> simp [finish]

lemma mem_oneOf {rs : List (Reader α)} {cs t : List Char} {a : α} :
    (a, t) ∈ oneOf rs cs ↔ ∃ r ∈ rs, (a, t) ∈ r cs := by
  simp [oneOf, List.mem_flatMap]

/-! ### Readers without a value -/

/-- Wherever it stands, the reader may read exactly the texts that satisfy `P`. -/
def Reads (r : Reader Unit) (P : List Char → Prop) : Prop :=
  ∀ cs t, ((), t) ∈ r cs ↔ ∃ u, P u ∧ cs = u ++ t

/-- Behind a reader without a value, the next one reads what is left. -/
lemma Reads.mem_bind {r : Reader Unit} {P : List Char → Prop} (hr : r.Reads P)
    {s : Unit → Reader β} {cs t : List Char} {b : β} :
    (b, t) ∈ (r >>= s) cs ↔ ∃ u v, P u ∧ cs = u ++ v ∧ (b, t) ∈ s () v := by
  rw [Reader.mem_bind]
  constructor
  · rintro ⟨⟨⟩, v, hv, hb⟩
    obtain ⟨u, hu, rfl⟩ := (hr _ _).mp hv
    exact ⟨u, v, hu, rfl, hb⟩
  · rintro ⟨u, v, hu, rfl, hb⟩
    exact ⟨(), v, (hr _ _).mpr ⟨u, hu, rfl⟩, hb⟩

lemma Reads.congr {r : Reader Unit} {P Q : List Char → Prop} (hr : r.Reads P)
    (h : ∀ u, P u ↔ Q u) : r.Reads Q := by
  intro cs t
  rw [hr cs t]
  simp only [h]

lemma reads_word (w : List Char) : (word w).Reads (· = w) := by
  induction w with
  | nil =>
    intro cs t
    simp [word, eq_comm]
  | cons c w ih =>
    intro cs t
    cases cs with
    | nil => simp [word]
    | cons d cs =>
      by_cases h : c = d
      · subst h
        simp [word, ih cs t]
      · simp [word, h, Ne.symm h]

lemma reads_one (p : Char → Bool) : (one p).Reads fun u => ∃ c, p c = true ∧ u = [c] := by
  intro cs t
  cases cs with
  | nil => simp [one]
  | cons c cs =>
    by_cases h : p c = true
    · rw [one, if_pos h]
      constructor
      · intro ht
        obtain rfl : t = cs := by simpa using ht
        exact ⟨[c], ⟨c, h, rfl⟩, rfl⟩
      · rintro ⟨_, ⟨d, -, rfl⟩, hcs⟩
        obtain ⟨-, rfl⟩ := List.cons.inj hcs
        simp
    · rw [one, if_neg h]
      simp [h]

lemma mem_runStops (p : Char → Bool) :
    ∀ cs known t, t ∈ runStops p cs known ↔
      t ∈ known ∨ ∃ u, (∀ c ∈ u, p c = true) ∧ cs = u ++ t := by
  intro cs
  induction cs with
  | nil =>
    intro known t
    simp only [runStops, List.mem_cons, List.nil_eq, List.append_eq_nil_iff]
    constructor
    · rintro (rfl | h)
      · exact Or.inr ⟨[], by simp, rfl, rfl⟩
      · exact Or.inl h
    · rintro (h | ⟨u, -, -, rfl⟩)
      · exact Or.inr h
      · exact Or.inl rfl
  | cons c cs ih =>
    intro known t
    by_cases h : p c = true
    · rw [runStops, if_pos h, ih, List.mem_cons]
      constructor
      · rintro ((rfl | hk) | ⟨u, hu, rfl⟩)
        · exact Or.inr ⟨[], by simp, rfl⟩
        · exact Or.inl hk
        · exact Or.inr ⟨c :: u, by simpa [h] using hu, rfl⟩
      · rintro (hk | ⟨u, hu, hcs⟩)
        · exact Or.inl (Or.inr hk)
        · cases u with
          | nil => exact Or.inl (Or.inl hcs.symm)
          | cons d u =>
            obtain ⟨rfl, rfl⟩ := List.cons.inj hcs
            exact Or.inr ⟨u, fun x hx => hu x (List.mem_cons_of_mem _ hx), rfl⟩
    · rw [runStops, if_neg h, List.mem_cons]
      constructor
      · rintro (rfl | hk)
        · exact Or.inr ⟨[], by simp, rfl⟩
        · exact Or.inl hk
      · rintro (hk | ⟨u, hu, hcs⟩)
        · exact Or.inr hk
        · cases u with
          | nil => exact Or.inl hcs.symm
          | cons d u =>
            obtain ⟨rfl, -⟩ := List.cons.inj hcs
            exact absurd (hu c (by simp)) h

lemma reads_run (p : Char → Bool) : (run p).Reads fun u => ∀ c ∈ u, p c = true := by
  intro cs t
  simp [run, mem_runStops]

lemma Reads.andThen {r s : Reader Unit} {P Q : List Char → Prop} (hr : r.Reads P)
    (hs : s.Reads Q) : (r >>= fun _ => s).Reads fun u => ∃ v w, P v ∧ Q w ∧ u = v ++ w := by
  intro cs t
  rw [hr.mem_bind]
  constructor
  · rintro ⟨v, x, hv, rfl, hx⟩
    obtain ⟨w, hw, rfl⟩ := (hs _ _).mp hx
    exact ⟨v ++ w, ⟨v, w, hv, hw, rfl⟩, by simp⟩
  · rintro ⟨_, ⟨v, w, hv, hw, rfl⟩, rfl⟩
    exact ⟨v, w ++ t, hv, by simp, (hs _ _).mpr ⟨w, hw, rfl⟩⟩

lemma Reads.either {r s : Reader Unit} {P Q : List Char → Prop} (hr : r.Reads P)
    (hs : s.Reads Q) : (either r s).Reads fun u => P u ∨ Q u := by
  intro cs t
  show ((), t) ∈ r cs ++ s cs ↔ _
  rw [List.mem_append, hr cs t, hs cs t, ← exists_or]
  simp only [or_and_right]

lemma Reads.maybe {r : Reader Unit} {P : List Char → Prop} (hr : r.Reads P) :
    (maybe r).Reads fun u => P u ∨ u = [] := by
  refine hr.either ?_
  intro cs t
  simp [done, eq_comm]

lemma reads_run1 (p : Char → Bool) :
    (run1 p).Reads fun u => u ≠ [] ∧ ∀ c ∈ u, p c = true := by
  refine ((reads_one p).andThen (reads_run p)).congr fun u => ?_
  constructor
  · rintro ⟨_, w, ⟨c, hc, rfl⟩, hw, rfl⟩
    exact ⟨by simp, by simpa [hc] using hw⟩
  · rintro ⟨hne, hu⟩
    obtain ⟨c, w, rfl⟩ := List.exists_cons_of_ne_nil hne
    exact ⟨[c], w, ⟨c, hu c (by simp), rfl⟩, fun x hx => hu x (List.mem_cons_of_mem _ hx), rfl⟩

/-! ### Repetition -/

/-- The stops of one more round: those of a round from every reading of `r`, the stop here, and
those known. -/
private lemma mem_foldr_stops {stops : List Char → List (List Char) → List (List Char)}
    {A : List Char → List Char → Prop} {cs : List Char} {known : List (List Char)} {t : List Char} :
    ∀ l : List (Unit × List Char),
      (∀ q ∈ l, ∀ known, t ∈ stops q.2 known ↔ t ∈ known ∨ A q.2 t) →
      (t ∈ l.foldr (fun q known => stops q.2 known) (cs :: known) ↔
        (t = cs ∨ t ∈ known) ∨ ∃ q ∈ l, A q.2 t) := by
  intro l
  induction l with
  | nil => simp
  | cons q l ih =>
    intro h
    rw [List.foldr_cons, h q (by simp), ih fun q' hq' => h q' (List.mem_cons_of_mem _ hq')]
    simp only [List.exists_mem_cons_iff]
    rw [or_assoc, or_comm (b := A q.2 t)]

lemma mem_manyStops {r : Reader Unit} {P : List Char → Prop} (hr : r.Reads P)
    (hne : ∀ u, P u → u ≠ []) :
    ∀ fuel cs known t, cs.length ≤ fuel →
      (t ∈ manyStops r fuel cs known ↔ t ∈ known ∨ ∃ u, RowOf P u ∧ cs = u ++ t) := by
  intro fuel
  induction fuel with
  | zero =>
    intro cs known t hlen
    obtain rfl : cs = [] := List.length_eq_zero_iff.mp (Nat.le_zero.mp hlen)
    simp only [manyStops, List.mem_cons, List.nil_eq, List.append_eq_nil_iff]
    constructor
    · rintro (rfl | h)
      · exact Or.inr ⟨[], RowOf.nil, rfl, rfl⟩
      · exact Or.inl h
    · rintro (h | ⟨u, -, -, rfl⟩)
      · exact Or.inr h
      · exact Or.inl rfl
  | succ fuel ih =>
    intro cs known t hlen
    have hstep : ∀ q ∈ r cs, ∀ known, t ∈ manyStops r fuel q.2 known ↔
        t ∈ known ∨ ∃ u, RowOf P u ∧ q.2 = u ++ t := by
      rintro ⟨⟨⟩, v⟩ hq known
      obtain ⟨u, hu, rfl⟩ := (hr _ _).mp hq
      -- a reading takes a character at least, so the fuel suffices for what is left
      have hpos : 0 < u.length := List.length_pos_iff.mpr (hne u hu)
      refine ih v known t ?_
      rw [List.length_append] at hlen
      omega
    rw [manyStops, mem_foldr_stops (A := fun v t => ∃ u, RowOf P u ∧ v = u ++ t) _ hstep]
    constructor
    · rintro ((rfl | hk) | ⟨⟨⟨⟩, v⟩, hq, w, hw, hv⟩)
      · exact Or.inr ⟨[], RowOf.nil, rfl⟩
      · exact Or.inl hk
      · obtain ⟨u, hu, rfl⟩ := (hr _ _).mp hq
        exact Or.inr ⟨u ++ w, hw.cons hu, by simp [← hv]⟩
    · rintro (hk | ⟨_, ⟨parts, hparts, rfl⟩, rfl⟩)
      · exact Or.inl (Or.inr hk)
      · cases parts with
        | nil => exact Or.inl (Or.inl rfl)
        | cons u parts =>
          refine Or.inr ⟨((), parts.flatten ++ t), ?_, parts.flatten, ⟨parts, ?_, rfl⟩, rfl⟩
          · exact (hr _ _).mpr ⟨u, hparts u (by simp), by simp⟩
          · exact fun x hx => hparts x (List.mem_cons_of_mem _ hx)

/-- **A repetition reads rows.** The fuel hidden in it never runs out. -/
theorem Reads.many {r : Reader Unit} {P : List Char → Prop} (hr : r.Reads P)
    (hne : ∀ u, P u → u ≠ []) : (many r).Reads (RowOf P) := by
  intro cs t
  simp [Reader.many, mem_manyStops hr hne cs.length cs [] t (Nat.le_refl _)]

/-! ### Searching -/

/-- Some ending of the text has a reading with this value. -/
def Finds (r : Reader α) (cs : List Char) (a : α) : Prop :=
  ∃ v t, v <:+ cs ∧ (a, t) ∈ r v

lemma finds_of_first? {r : Reader α} {cs : List Char} {a : α} (h : r.first? cs = some a) :
    ∃ t, (a, t) ∈ r cs := by
  obtain ⟨⟨b, t⟩, hp, rfl⟩ := Option.map_eq_some_iff.mp h
  exact ⟨t, List.mem_of_head? hp⟩

lemma first?_eq_none_iff {r : Reader α} {cs : List Char} : r.first? cs = none ↔ r cs = [] := by
  simp [first?]

/-- The only value that there is to read is read. -/
lemma first?_of_unique {r : Reader α} {cs t : List Char} {a : α} (h : (a, t) ∈ r cs)
    (huniq : ∀ b t, (b, t) ∈ r cs → b = a) : r.first? cs = some a := by
  cases hf : r.first? cs with
  | none =>
    rw [first?_eq_none_iff.mp hf] at h
    exact absurd h List.not_mem_nil
  | some b =>
    obtain ⟨t', ht'⟩ := finds_of_first? hf
    rw [huniq b t' ht']

lemma finds_of_search? {r : Reader α} {a : α} :
    ∀ {cs : List Char}, r.search? cs = some a → r.Finds cs a := by
  intro cs
  induction cs with
  | nil =>
    intro h
    obtain ⟨t, ht⟩ := finds_of_first? h
    exact ⟨[], t, List.suffix_rfl, ht⟩
  | cons c cs ih =>
    intro h
    rw [search?, Option.or_eq_some_iff] at h
    rcases h with h | ⟨-, h⟩
    · obtain ⟨t, ht⟩ := finds_of_first? h
      exact ⟨c :: cs, t, List.suffix_rfl, ht⟩
    · obtain ⟨v, t, hv, ht⟩ := ih h
      exact ⟨v, t, hv.trans (List.suffix_cons c cs), ht⟩

lemma search?_eq_none_iff {r : Reader α} :
    ∀ {cs : List Char}, r.search? cs = none ↔ ∀ a, ¬ r.Finds cs a := by
  intro cs
  constructor
  · induction cs with
    | nil =>
      rintro h a ⟨v, t, hv, ht⟩
      rw [search?, first?_eq_none_iff] at h
      rw [List.suffix_nil.mp hv, h] at ht
      exact absurd ht List.not_mem_nil
    | cons c cs ih =>
      rintro h a ⟨v, t, hv, ht⟩
      rw [search?, Option.or_eq_none_iff, first?_eq_none_iff] at h
      rcases List.suffix_cons_iff.mp hv with rfl | hv
      · rw [h.1] at ht
        exact absurd ht List.not_mem_nil
      · exact ih h.2 a ⟨v, t, hv, ht⟩
  · intro h
    cases hs : r.search? cs with
    | none => rfl
    | some a => exact absurd (finds_of_search? hs) (h a)

/-- **Where all readings in a text agree, a search answers what is found.** -/
theorem search?_eq_some_iff {r : Reader α} {cs : List Char}
    (h : ∀ a b, r.Finds cs a → r.Finds cs b → a = b) {a : α} :
    r.search? cs = some a ↔ r.Finds cs a := by
  refine ⟨finds_of_search?, fun ha => ?_⟩
  cases hs : r.search? cs with
  | none => exact absurd ha (search?_eq_none_iff.mp hs a)
  | some b => rw [h b a (finds_of_search? hs) ha]

/-- No reading begins in `u` where `v` comes behind it. -/
def SilentOn (r : Reader α) (u v : List Char) : Prop :=
  ∀ w, w <:+ u → w ≠ [] → r (w ++ v) = []

lemma search?_of_silent {r : Reader α} {u v : List Char} (h : r.SilentOn u v) :
    r.search? (u ++ v) = r.search? v := by
  induction u with
  | nil => rfl
  | cons c u ih =>
    have hnone : r.first? (c :: (u ++ v)) = none :=
      first?_eq_none_iff.mpr (h (c :: u) List.suffix_rfl (by simp))
    rw [List.cons_append, search?, hnone, Option.none_or]
    exact ih fun w hw => h w (hw.trans (List.suffix_cons c u))

lemma search?_of_first? {r : Reader α} {cs : List Char} {a : α} (h : r.first? cs = some a) :
    r.search? cs = some a := by
  cases cs with
  | nil => exact h
  | cons c cs => rw [search?, h, Option.some_or]

/-! ### Walking through a text -/

/-- A reading takes a character at least. -/
def Advances (r : Reader α) : Prop := ∀ cs a t, (a, t) ∈ r cs → t.length < cs.length

/-- Fuel for every character is enough, and more makes no difference. -/
lemma walk_eq_walk {r : Reader α} (hr : r.Advances) :
    ∀ fuel fuel' cs, cs.length ≤ fuel → cs.length ≤ fuel' → walk r fuel cs = walk r fuel' cs := by
  intro fuel
  induction fuel with
  | zero =>
    intro fuel' cs hfuel _
    obtain rfl : cs = [] := List.length_eq_zero_iff.mp (Nat.le_zero.mp hfuel)
    cases fuel' <;> rfl
  | succ fuel ih =>
    intro fuel' cs hfuel hfuel'
    cases cs with
    | nil => cases fuel' <;> rfl
    | cons c cs =>
      cases fuel' with
      | zero => cases hfuel'
      | succ fuel' =>
        simp only [List.length_cons, Nat.add_le_add_iff_right] at hfuel hfuel'
        simp only [walk]
        cases hread : r (c :: cs) with
        | nil => exact ih fuel' cs hfuel hfuel'
        | cons q more =>
          obtain ⟨a, t⟩ := q
          have hlen := hr (c :: cs) a t (by rw [hread]; exact List.mem_cons_self)
          rw [List.length_cons] at hlen
          exact congrArg (a :: ·) (ih fuel' t (by omega) (by omega))

lemma collect_cons_of_nil {r : Reader α} {c : Char} {cs : List Char} (h : r (c :: cs) = []) :
    r.collect (c :: cs) = r.collect cs := by
  rw [collect, List.length_cons, walk, h]
  rfl

/-- The walk goes on behind the preferred reading. -/
lemma collect_of_head? {r : Reader α} (hr : r.Advances) {cs t : List Char} {a : α}
    (h : (r cs).head? = some (a, t)) : r.collect cs = a :: r.collect t := by
  have hlen := hr cs a t (List.mem_of_head? h)
  cases cs with
  | nil => cases hlen
  | cons c cs =>
    obtain ⟨more, hmore⟩ := List.head?_eq_some_iff.mp h
    rw [List.length_cons] at hlen
    rw [collect, List.length_cons, walk, hmore]
    exact congrArg (a :: ·) (walk_eq_walk hr _ _ _ (by omega) (Nat.le_refl _))

/-- The walk passes a text in which no reading begins. -/
lemma collect_of_silent {r : Reader α} {u v : List Char} (h : r.SilentOn u v) :
    r.collect (u ++ v) = r.collect v := by
  induction u with
  | nil => rfl
  | cons c u ih =>
    have hnil : r (c :: (u ++ v)) = [] := h (c :: u) List.suffix_rfl (by simp)
    rw [List.cons_append, collect_cons_of_nil hnil]
    exact ih fun w hw => h w (hw.trans (List.suffix_cons c u))

end Reader

end TopologyAssist
