import Mathlib.Data.List.Induction
import TopologyAssist.Context.Classify
import TopologyAssist.Proofs.Readings

/-!
Brackets in the list of a section, and a machine that follows them from left to right.

* `Nested depth u` — the parentheses of `u` are balanced and stand at most `depth` deep;
* `ElementRow depth r` — `r` is a row of closed elements, a comma after any of them;
* `Level` — what is open at the end of a list: nothing, an element, or a block in an element. A
  character takes a level to the next one, or nowhere (`Level.step`);
* `scan_eq_some_iff` — the level that a list ends at says exactly how the list is composed.
-/

namespace TopologyAssist

lemma isPlain_iff {c : Char} :
    isPlain c = true ↔ c ≠ '(' ∧ c ≠ ')' ∧ c ≠ '[' ∧ c ≠ ']' := by
  simp [isPlain, isBracket, and_assoc]

lemma plain_append {u v : List Char} (hu : ∀ c ∈ u, isPlain c = true)
    (hv : ∀ c ∈ v, isPlain c = true) : ∀ c ∈ u ++ v, isPlain c = true :=
  fun c hc => (List.mem_append.mp hc).elim (hu c) (hv c)

/-! ### Balanced text -/

/-- Text without square brackets whose parentheses are balanced and stand at most `depth` deep. -/
inductive Nested : Nat → List Char → Prop where
  | nil {depth : Nat} : Nested depth []
  | plain {depth : Nat} {c : Char} {u : List Char} (hc : isPlain c = true) (hu : Nested depth u) :
    Nested depth (c :: u)
  | group {depth : Nat} {u v : List Char} (hu : Nested depth u) (hv : Nested (depth + 1) v) :
    Nested (depth + 1) ('(' :: (u ++ ')' :: v))

namespace Nested

lemma append {depth : Nat} {u v : List Char} (hu : Nested depth u) (hv : Nested depth v) :
    Nested depth (u ++ v) := by
  induction hu with
  | nil => exact hv
  | plain hc _ ih => exact plain hc (ih hv)
  | group hu _ _ ih =>
    have h := group hu (ih hv)
    simpa using h

lemma of_plain {depth : Nat} {u : List Char} (h : ∀ c ∈ u, isPlain c = true) :
    Nested depth u := by
  induction u with
  | nil => exact nil
  | cons c u ih =>
    exact plain (h c (by simp)) (ih fun d hd => h d (List.mem_cons_of_mem _ hd))

lemma snoc {depth : Nat} {u : List Char} {c : Char} (hu : Nested depth u)
    (hc : isPlain c = true) : Nested depth (u ++ [c]) :=
  hu.append (plain hc nil)

lemma snoc_group {depth : Nat} {u v : List Char} (hu : Nested (depth + 1) u)
    (hv : Nested depth v) : Nested (depth + 1) (u ++ '(' :: (v ++ [')'])) :=
  hu.append (group hv nil)

/-- At depth zero there are no parentheses. -/
lemma zero_iff {u : List Char} : Nested 0 u ↔ ∀ c ∈ u, isPlain c = true := by
  refine ⟨fun h => ?_, of_plain⟩
  generalize hd : 0 = depth at h
  induction h with
  | nil => simp
  | plain hc _ ih => simpa [hc] using ih hd
  | group => cases hd

/-- What may stand at a depth may stand one deeper. -/
lemma succ {depth : Nat} {u : List Char} (hu : Nested depth u) : Nested (depth + 1) u := by
  induction hu with
  | nil => exact nil
  | plain hc _ ih => exact plain hc ih
  | group _ _ ihu ihv => exact group ihu ihv

lemma not_mem_square {depth : Nat} {u : List Char} (hu : Nested depth u) :
    '[' ∉ u ∧ ']' ∉ u := by
  induction hu with
  | nil => simp
  | plain hc _ ih =>
    obtain ⟨-, -, h1, h2⟩ := isPlain_iff.mp hc
    exact ⟨by simp [h1.symm, ih.1], by simp [h2.symm, ih.2]⟩
  | group _ _ ihu ihv =>
    exact ⟨by simp [ihu.1, ihv.1], by simp [ihu.2, ihv.2]⟩

/-- What comes before an ending without parentheses is balanced too. -/
lemma of_append_plain {depth : Nat} {w : List Char} (hw : Nested depth w) :
    ∀ {u x : List Char}, w = u ++ x → (∀ c ∈ x, isPlain c = true) → Nested depth u := by
  induction hw with
  | nil =>
    intro u x h _
    obtain ⟨rfl, -⟩ := List.append_eq_nil_iff.mp h.symm
    exact nil
  | plain hc _ ih =>
    intro u x h hx
    cases u with
    | nil => exact nil
    | cons d u =>
      obtain ⟨rfl, htail⟩ := List.cons.inj h
      exact plain hc (ih htail hx)
  | @group depth a b ha _ _ ih =>
    intro u x h hx
    cases u with
    | nil =>
      have := hx '(' (by rw [← List.nil_append x, ← h]; simp)
      exact absurd this (by decide)
    | cons d u =>
      obtain ⟨rfl, htail⟩ := List.cons.inj h
      rcases List.append_eq_append_iff.mp htail with ⟨y, rfl, hy⟩ | ⟨y, -, rfl⟩
      · -- the parenthesis that closes the group stands in `u`
        cases y with
        | nil =>
          have := hx ')' (by rw [← List.nil_append x, ← hy]; simp)
          exact absurd this (by decide)
        | cons e y =>
          obtain ⟨rfl, hv⟩ := List.cons.inj hy
          exact group ha (ih hv hx)
      · -- it stands in the ending, which has no parentheses
        exact absurd (hx ')' (by simp)) (by decide)

end Nested

/-! ### Rows of closed elements -/

/-- A closed element, or one with a comma after it; blocks in it stand at most `depth` deep. -/
def ElementItem (depth : Nat) (x : List Char) : Prop :=
  ∃ b, Nested depth b ∧ (x = '(' :: (b ++ [')']) ∨ x = '(' :: (b ++ [')', ',']))

/-- Closed elements, each followed by at most one comma. -/
def ElementRow (depth : Nat) : List Char → Prop := RowOf (ElementItem depth)

lemma endsWith_append_singleton (c d : Char) (u : List Char) :
    endsWith c (u ++ [d]) = (d == c) := by
  simp [endsWith, Option.some_beq_some]

/-- A text ends with no character that it does not hold. -/
lemma endsWith_eq_false {d : Char} {cs : List Char} (h : d ∉ cs) : endsWith d cs = false := by
  rw [Bool.eq_false_iff]
  intro hend
  exact h (List.mem_of_getLast? (by simpa [endsWith] using hend))

lemma ElementItem.not_mem_square {depth : Nat} {x : List Char} (hx : ElementItem depth x) :
    '[' ∉ x ∧ ']' ∉ x := by
  obtain ⟨b, hb, rfl | rfl⟩ := hx <;> simp [hb.not_mem_square]

namespace ElementRow

variable {depth : Nat} {r : List Char}

lemma not_mem_square (hr : ElementRow depth r) : '[' ∉ r ∧ ']' ∉ r := by
  obtain ⟨parts, hparts, rfl⟩ := hr
  constructor
  · intro h
    obtain ⟨x, hx, hc⟩ := List.mem_flatten.mp h
    exact (hparts x hx).not_mem_square.1 hc
  · intro h
    obtain ⟨x, hx, hc⟩ := List.mem_flatten.mp h
    exact (hparts x hx).not_mem_square.2 hc

lemma succ (hr : ElementRow depth r) : ElementRow (depth + 1) r := by
  obtain ⟨parts, hparts, rfl⟩ := hr
  refine ⟨parts, fun x hx => ?_, rfl⟩
  obtain ⟨b, hb, hx⟩ := hparts x hx
  exact ⟨b, hb.succ, hx⟩

lemma snoc {b : List Char} (hr : ElementRow depth r) (hb : Nested depth b) :
    ElementRow depth (r ++ '(' :: (b ++ [')'])) :=
  RowOf.snoc hr ⟨b, hb, Or.inl rfl⟩

/-- A comma may follow a row that ends with a closing parenthesis. -/
lemma comma (hr : ElementRow depth r) (hend : endsWith ')' r = true) :
    ElementRow depth (r ++ [',']) := by
  rcases RowOf.eq_nil_or_snoc hr with rfl | ⟨v, x, hv, ⟨b, hb, rfl | rfl⟩, rfl⟩
  · exact absurd hend (by decide)
  · have h : ElementRow depth (v ++ _) := RowOf.snoc hv ⟨b, hb, Or.inr rfl⟩
    simpa using h
  · have h : v ++ '(' :: (b ++ [')', ',']) = (v ++ '(' :: (b ++ [')'])) ++ [','] := by simp
    rw [h, endsWith_append_singleton] at hend
    exact absurd hend (by decide)

end ElementRow

/-! ### The machine -/

/-- What is open at the end of a section's list. -/
inductive Level where
  /-- Nothing. The flag says that an element was just closed, so that a comma may follow. -/
  | list (closed : Bool)
  /-- An element with this text so far. -/
  | element (body : List Char)
  /-- A block with this text so far, in an element with this text before it. -/
  | block (body inner : List Char)
  deriving DecidableEq, Repr

namespace Level

/-- The level after one more character; some characters lead nowhere. -/
def step (slotted : Bool) : Level → Char → Option Level
  | list closed, c =>
    if c = '(' then some (element [])
    else if c = ',' ∧ closed = true then some (list false)
    else none
  | element b, c =>
    if isPlain c then some (element (b ++ [c]))
    else if c = ')' then some (list true)
    else if c = '(' ∧ slotted = true then some (block b [])
    else none
  | block b i, c =>
    if isPlain c then some (block b (i ++ [c]))
    else if c = ')' then some (element (b ++ '(' :: (i ++ [')'])))
    else none

/-- The level after a text. -/
def run (slotted : Bool) : Level → List Char → Option Level
  | l, [] => some l
  | l, c :: cs => (l.step slotted c).bind fun l' => run slotted l' cs

variable {slotted : Bool} {b i : List Char}

lemma step_list_open (closed : Bool) : (list closed).step slotted '(' = some (element []) := rfl

lemma step_list_comma : (list true).step slotted ',' = some (list false) := rfl

lemma step_element_plain {c : Char} (hc : isPlain c = true) :
    (element b).step slotted c = some (element (b ++ [c])) :=
  if_pos hc

lemma step_element_close : (element b).step slotted ')' = some (list true) := rfl

lemma step_element_open : (element b).step true '(' = some (block b []) := rfl

lemma step_block_plain {c : Char} (hc : isPlain c = true) :
    (block b i).step slotted c = some (block b (i ++ [c])) :=
  if_pos hc

lemma step_block_close :
    (block b i).step slotted ')' = some (element (b ++ '(' :: (i ++ [')']))) := rfl

/-- **What a step can do.** -/
theorem step_cases {l l' : Level} {c : Char} (h : l.step slotted c = some l') :
    (∃ closed, l = list closed ∧ c = '(' ∧ l' = element []) ∨
    (l = list true ∧ c = ',' ∧ l' = list false) ∨
    (∃ b, l = element b ∧ isPlain c = true ∧ l' = element (b ++ [c])) ∨
    (∃ b, l = element b ∧ c = ')' ∧ l' = list true) ∨
    (∃ b, l = element b ∧ c = '(' ∧ slotted = true ∧ l' = block b []) ∨
    (∃ b i, l = block b i ∧ isPlain c = true ∧ l' = block b (i ++ [c])) ∨
    (∃ b i, l = block b i ∧ c = ')' ∧ l' = element (b ++ '(' :: (i ++ [')']))) := by
  cases l with
  | list closed =>
    simp only [step] at h
    split_ifs at h with h1 h2
    · exact Or.inl ⟨closed, rfl, h1, (Option.some.inj h).symm⟩
    · exact Or.inr (Or.inl ⟨by rw [h2.2], h2.1, (Option.some.inj h).symm⟩)
  | element b =>
    simp only [step] at h
    split_ifs at h with h1 h2 h3
    · exact Or.inr (Or.inr (Or.inl ⟨b, rfl, h1, (Option.some.inj h).symm⟩))
    · exact Or.inr (Or.inr (Or.inr (Or.inl ⟨b, rfl, h2, (Option.some.inj h).symm⟩)))
    · exact Or.inr (Or.inr (Or.inr (Or.inr (Or.inl
        ⟨b, rfl, h3.1, h3.2, (Option.some.inj h).symm⟩))))
  | block b i =>
    simp only [step] at h
    split_ifs at h with h1 h2
    · exact Or.inr (Or.inr (Or.inr (Or.inr (Or.inr (Or.inl
        ⟨b, i, rfl, h1, (Option.some.inj h).symm⟩)))))
    · exact Or.inr (Or.inr (Or.inr (Or.inr (Or.inr (Or.inr
        ⟨b, i, rfl, h2, (Option.some.inj h).symm⟩)))))

/-! ### Runs -/

lemma run_append (l : Level) (u v : List Char) :
    run slotted l (u ++ v) = (run slotted l u).bind fun l' => run slotted l' v := by
  induction u generalizing l with
  | nil => rfl
  | cons c u ih =>
    simp only [List.cons_append, run]
    cases l.step slotted c with
    | none => rfl
    | some l' => exact ih l'

lemma run_singleton (l : Level) (c : Char) : run slotted l [c] = l.step slotted c := by
  simp only [run]
  cases l.step slotted c <;> rfl

lemma run_element_plain {u : List Char} (hu : ∀ c ∈ u, isPlain c = true) :
    run slotted (element b) u = some (element (b ++ u)) := by
  induction u generalizing b with
  | nil => simp [run]
  | cons c u ih =>
    rw [run, step_element_plain (hu c (by simp)), Option.bind_some,
      ih fun d hd => hu d (List.mem_cons_of_mem _ hd)]
    simp

lemma run_block_plain {u : List Char} (hu : ∀ c ∈ u, isPlain c = true) :
    run slotted (block b i) u = some (block b (i ++ u)) := by
  induction u generalizing i with
  | nil => simp [run]
  | cons c u ih =>
    rw [run, step_block_plain (hu c (by simp)), Option.bind_some,
      ih fun d hd => hu d (List.mem_cons_of_mem _ hd)]
    simp

/-- A whole block leads from an element back to it. -/
lemma run_element_group {u : List Char} (hu : ∀ c ∈ u, isPlain c = true) :
    run true (element b) ('(' :: (u ++ [')'])) = some (element (b ++ '(' :: (u ++ [')']))) := by
  rw [run, step_element_open, Option.bind_some, run_append, run_block_plain hu, Option.bind_some,
    run_singleton, step_block_close, List.nil_append]

/-- Balanced text leads from an element back to it. -/
lemma run_element_nested {u : List Char} (hu : Nested slotted.toNat u) :
    run slotted (element b) u = some (element (b ++ u)) := by
  generalize hd : slotted.toNat = depth at hu
  induction hu generalizing b with
  | nil => simp [run]
  | plain hc _ ih =>
    rw [run, step_element_plain hc, Option.bind_some, ih hd]
    simp
  | @group depth u v hu _ _ ih =>
    obtain ⟨rfl, rfl⟩ : slotted = true ∧ depth = 0 := by
      cases slotted with
      | false => exact absurd hd (by simp)
      | true => exact ⟨rfl, by simpa using hd.symm⟩
    have h : '(' :: (u ++ ')' :: v) = '(' :: (u ++ [')']) ++ v := by simp
    rw [h, run_append, run_element_group (Nested.zero_iff.mp hu), Option.bind_some, ih hd]
    simp

lemma run_list_item {closed : Bool} {x : List Char} (hx : ElementItem slotted.toNat x) :
    run slotted (list closed) x = some (list (endsWith ')' x)) := by
  obtain ⟨b, hb, rfl | rfl⟩ := hx
  · rw [run, step_list_open, Option.bind_some, run_append, run_element_nested hb,
      Option.bind_some, run_singleton, step_element_close, ← List.cons_append,
      endsWith_append_singleton]
    rfl
  · have h : '(' :: (b ++ [')', ',']) = ('(' :: (b ++ [')'])) ++ [','] := by simp
    rw [h, endsWith_append_singleton, run_append, run, step_list_open, Option.bind_some,
      run_append, run_element_nested hb, Option.bind_some, run_singleton, step_element_close,
      Option.bind_some, run_singleton, step_list_comma]
    rfl

lemma run_list_row {r : List Char} (hr : ElementRow slotted.toNat r) :
    run slotted (list false) r = some (list (endsWith ')' r)) := by
  obtain ⟨parts, hparts, rfl⟩ := hr
  induction parts using List.reverseRecOn with
  | nil => rfl
  | append_singleton parts x ih =>
    have hx := hparts x (by simp)
    have hend : ∀ u : List Char, endsWith ')' (u ++ x) = endsWith ')' x := by
      intro u
      obtain ⟨b, -, rfl | rfl⟩ := hx <;> simp [endsWith, List.getLast?_append, List.getLast?_cons]
    rw [List.flatten_append, List.flatten_singleton, run_append,
      ih fun y hy => hparts y (List.mem_append_left _ hy), Option.bind_some, run_list_item hx, hend]

end Level

/-- The level that the list of a section ends at. -/
def scan (slotted : Bool) (r : List Char) : Option Level := Level.run slotted (.list false) r

/-- How a list that ends at a level is composed. -/
def Composed (slotted : Bool) (r : List Char) : Level → Prop
  | .list closed => ElementRow slotted.toNat r ∧ closed = endsWith ')' r
  | .element b => ∃ L, ElementRow slotted.toNat L ∧ Nested slotted.toNat b ∧ r = L ++ '(' :: b
  | .block b i => slotted = true ∧ ∃ L, ElementRow 1 L ∧ Nested 1 b ∧ Nested 0 i ∧
      r = L ++ '(' :: (b ++ '(' :: i)

/-- A step keeps the list composed as its level says. -/
lemma Composed.step {slotted : Bool} {r : List Char} {l l' : Level} {c : Char}
    (hr : Composed slotted r l) (h : l.step slotted c = some l') :
    Composed slotted (r ++ [c]) l' := by
  rcases Level.step_cases h with ⟨closed, rfl, rfl, rfl⟩ | ⟨rfl, rfl, rfl⟩ | ⟨b, rfl, hc, rfl⟩ |
    ⟨b, rfl, rfl, rfl⟩ | ⟨b, rfl, rfl, rfl, rfl⟩ | ⟨b, i, rfl, hc, rfl⟩ | ⟨b, i, rfl, rfl, rfl⟩
  · exact ⟨r, hr.1, Nested.nil, rfl⟩
  · obtain ⟨hrow, hend⟩ := hr
    exact ⟨hrow.comma hend.symm, by rw [endsWith_append_singleton]; rfl⟩
  · obtain ⟨L, hL, hb, rfl⟩ := hr
    exact ⟨L, hL, hb.snoc hc, by simp⟩
  · obtain ⟨L, hL, hb, rfl⟩ := hr
    refine ⟨?_, by rw [endsWith_append_singleton]; rfl⟩
    have h := hL.snoc hb
    simpa using h
  · obtain ⟨L, hL, hb, rfl⟩ := hr
    exact ⟨rfl, L, hL, hb, Nested.nil, by simp⟩
  · obtain ⟨hs, L, hL, hb, hi, rfl⟩ := hr
    exact ⟨hs, L, hL, hb, hi.snoc hc, by simp⟩
  · obtain ⟨rfl, L, hL, hb, hi, rfl⟩ := hr
    exact ⟨L, hL, hb.snoc_group hi, by simp⟩

lemma composed_of_scan {slotted : Bool} {r : List Char} :
    ∀ {l : Level}, scan slotted r = some l → Composed slotted r l := by
  induction r using List.reverseRecOn with
  | nil =>
    intro l h
    obtain rfl := Option.some.inj h
    exact ⟨RowOf.nil, rfl⟩
  | append_singleton r c ih =>
    intro l h
    rw [scan, Level.run_append, Option.bind_eq_some_iff] at h
    obtain ⟨l₀, h₀, h⟩ := h
    rw [Level.run_singleton] at h
    exact (ih h₀).step h

/-- **The level says how the list is composed**, and every list that is composed so ends there. -/
theorem scan_eq_some_iff {slotted : Bool} {r : List Char} {l : Level} :
    scan slotted r = some l ↔ Composed slotted r l := by
  refine ⟨composed_of_scan, fun h => ?_⟩
  cases l with
  | list closed =>
    obtain ⟨hrow, rfl⟩ := h
    exact Level.run_list_row hrow
  | element b =>
    obtain ⟨L, hL, hb, rfl⟩ := h
    rw [scan, Level.run_append, Level.run_list_row hL, Option.bind_some, Level.run,
      Level.step_list_open, Option.bind_some, Level.run_element_nested hb, List.nil_append]
  | block b i =>
    obtain ⟨rfl, L, hL, hb, hi, rfl⟩ := h
    have hL' : ElementRow true.toNat L := hL
    have hb' : Nested true.toNat b := hb
    rw [scan, Level.run_append, Level.run_list_row hL', Option.bind_some, Level.run,
      Level.step_list_open, Option.bind_some, Level.run_append, Level.run_element_nested hb',
      Option.bind_some, Level.run, Level.step_element_open, Option.bind_some,
      Level.run_block_plain (Nested.zero_iff.mp hi), List.nil_append, List.nil_append]

/-- A list without blocks ends at the same level where blocks may stand. -/
lemma scan_true_of_scan {slotted : Bool} {r : List Char} {l : Level}
    (h : scan slotted r = some l) : scan true r = some l := by
  cases slotted with
  | true => exact h
  | false =>
    rw [scan_eq_some_iff] at h ⊢
    cases l with
    | list closed => exact ⟨h.1.succ, h.2⟩
    | element b =>
      obtain ⟨L, hL, hb, rfl⟩ := h
      exact ⟨L, hL.succ, hb.succ, rfl⟩
    | block b i => exact absurd h.1 (by decide)

/-- One more character is one more step. -/
lemma scan_append (slotted : Bool) (r t : List Char) :
    scan slotted (r ++ t) = (scan slotted r).bind fun l => Level.run slotted l t :=
  Level.run_append _ _ _

/-- A list with a square bracket ends at no level. -/
lemma not_mem_square_of_scan {slotted : Bool} {r : List Char} {l : Level}
    (h : scan slotted r = some l) : '[' ∉ r ∧ ']' ∉ r := by
  have hr := scan_eq_some_iff.mp h
  cases l with
  | list closed => exact hr.1.not_mem_square
  | element b =>
    obtain ⟨L, hL, hb, rfl⟩ := hr
    simp [hL.not_mem_square, hb.not_mem_square]
  | block b i =>
    obtain ⟨-, L, hL, hb, hi, rfl⟩ := hr
    simp [hL.not_mem_square, hb.not_mem_square, hi.not_mem_square]

end TopologyAssist
