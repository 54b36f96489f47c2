import Mathlib.Data.List.Basic
import TopologyAssist.Settings.Value

/-!
What merging does to one value of a configuration.

A value is put at the end of a path, and a table is merged into what is there, key by key. How that
is done is left open but for the rules of one step (`PutRules`). To follow one setting through it, a
value is taken apart into its leaves, each with the path that leads to it.

* `ConfigValue.valueAt?` — the value that a row of names leads to;
* `ConfigValue.leavesAt` — the leaves of a value that is put at the end of a path;
* `fits q leaf` — the leaf is at `q` itself, or it leaves alone all that is on the way to `q`;
* `PutRules.valueAt?_put` — if all leaves fit, the value at `q` is that of the last leaf at `q`, and
  what it was before if there is none.
-/

namespace TopologyAssist

/-- A step of a path as it is taken, where `lower` is what becomes of a key. -/
def Step.lower (lower : String → String) : Step → Step
  | .key name => .key (lower name)
  | .item index => .item index

namespace ConfigValue

/-! ### Names -/

/-- The value that a row of names leads to. -/
def valueAt? : ConfigValue → List String → Option ConfigValue
  | v, [] => some v
  | v, name :: names => (v.get? name).bind fun inner => valueAt? inner names

/-- What the first name leads to decides. -/
lemma valueAt?_cons_congr {v v' : ConfigValue} {k : String} (h : v.get? k = v'.get? k)
    (ks : List String) : v.valueAt? (k :: ks) = v'.valueAt? (k :: ks) := by
  rw [valueAt?, valueAt?, h]

lemma valueAt?_cons_of_get? {v inner : ConfigValue} {k : String} (h : v.get? k = some inner)
    (ks : List String) : v.valueAt? (k :: ks) = inner.valueAt? ks := by
  rw [valueAt?, h, Option.bind_some]

/-- Where a name leads nowhere, a value without entries is as good. -/
lemma valueAt?_cons_getD (v bare : ConfigValue) (hbare : bare.entries = [])
    (k k' : String) (ks : List String) :
    v.valueAt? (k :: k' :: ks) = ((v.get? k).getD bare).valueAt? (k' :: ks) := by
  rw [valueAt?]
  cases v.get? k with
  | none => rw [Option.getD_none, valueAt?, get?, hbare]; rfl
  | some inner => rfl

/-! ### Leaves -/

/-- The value is a table. -/
def isTable : ConfigValue → Bool
  | table _ => true
  | _ => false

/-- The value is a table without entries. -/
def isEmptyTable : ConfigValue → Bool
  | table [] => true
  | _ => false

section Leaves

variable (lower : String → String)

mutual

/-- The leaves of a value: all that is no table with entries, with the names that lead to it, as
`lower` leaves them. -/
def leaves : ConfigValue → List (List Step × ConfigValue)
  | table [] => [([], table [])]
  | table (e :: es) => entryLeaves e ++ tableLeaves es
  | nil => [([], nil)]
  | bool b => [([], bool b)]
  | int n => [([], int n)]
  | decimal x => [([], decimal x)]
  | text s => [([], text s)]
  | list vs => [([], list vs)]

/-- The leaves of a table's entries. -/
def tableLeaves : List (String × ConfigValue) → List (List Step × ConfigValue)
  | [] => []
  | e :: es => entryLeaves e ++ tableLeaves es

/-- The leaves of one entry. -/
def entryLeaves : String × ConfigValue → List (List Step × ConfigValue)
  | (name, v) => (leaves v).map fun leaf => (.key (lower name) :: leaf.1, leaf.2)

end

/-- The leaves of a value at the end of a path. -/
def leavesAt (steps : List Step) (v : ConfigValue) : List (List Step × ConfigValue) :=
  (leaves lower v).map fun leaf => (steps.map (Step.lower lower) ++ leaf.1, leaf.2)

lemma entryLeaves_eq (name : String) (v : ConfigValue) : entryLeaves lower (name, v) =
    (leaves lower v).map fun leaf => (.key (lower name) :: leaf.1, leaf.2) := rfl

lemma tableLeaves_cons (e : String × ConfigValue) (es : List (String × ConfigValue)) :
    tableLeaves lower (e :: es) = entryLeaves lower e ++ tableLeaves lower es := rfl

lemma leaves_table_cons (e : String × ConfigValue) (es : List (String × ConfigValue)) :
    leaves lower (table (e :: es)) = entryLeaves lower e ++ tableLeaves lower es := rfl

lemma leaves_of_not_isTable {v : ConfigValue} (h : v.isTable = false) :
    leaves lower v = [([], v)] := by
  cases v with
  | table es => cases h
  | _ => rfl

lemma leaves_table_of_ne_nil {es : List (String × ConfigValue)} (h : es ≠ []) :
    leaves lower (table es) = tableLeaves lower es := by
  cases es with
  | nil => exact absurd rfl h
  | cons e es => rw [leaves_table_cons, tableLeaves_cons]

/-- Every value has a leaf. -/
lemma exists_mem_leaves : ∀ v : ConfigValue, ∃ leaf, leaf ∈ leaves lower v
  | table [] => ⟨([], table []), List.mem_singleton.mpr rfl⟩
  | table ((name, v) :: es) => by
    obtain ⟨leaf, hleaf⟩ := exists_mem_leaves v
    refine ⟨(.key (lower name) :: leaf.1, leaf.2), ?_⟩
    rw [leaves_table_cons, entryLeaves_eq]
    exact List.mem_append_left _ (List.mem_map.mpr ⟨leaf, hleaf, rfl⟩)
  | nil => ⟨([], nil), List.mem_singleton.mpr rfl⟩
  | bool b => ⟨([], bool b), List.mem_singleton.mpr rfl⟩
  | int n => ⟨([], int n), List.mem_singleton.mpr rfl⟩
  | decimal x => ⟨([], decimal x), List.mem_singleton.mpr rfl⟩
  | text s => ⟨([], text s), List.mem_singleton.mpr rfl⟩
  | list vs => ⟨([], list vs), List.mem_singleton.mpr rfl⟩

lemma exists_mem_leavesAt (steps : List Step) (v : ConfigValue) :
    ∃ p x, (steps.map (Step.lower lower) ++ p, x) ∈ leavesAt lower steps v := by
  obtain ⟨leaf, hleaf⟩ := exists_mem_leaves lower v
  exact ⟨leaf.1, leaf.2, List.mem_map.mpr ⟨leaf, hleaf, rfl⟩⟩

lemma leavesAt_cons (s : Step) (steps : List Step) (v : ConfigValue) :
    leavesAt lower (s :: steps) v =
      (leavesAt lower steps v).map fun leaf => (s.lower lower :: leaf.1, leaf.2) := by
  rw [leavesAt, leavesAt, List.map_map]
  rfl

lemma leavesAt_key (name : String) (v : ConfigValue) :
    leavesAt lower [.key name] v = entryLeaves lower (name, v) := rfl

end Leaves

end ConfigValue

/-! ### Leaves and one path -/

/-- The two ways part at a name, so neither is on the other. -/
def partsFrom : List Step → List String → Bool
  | .key a :: p, b :: q => if a = b then partsFrom p q else true
  | _, _ => false

/-- The leaf leaves the way to `q` alone, or it is a plain value at `q`. A table without entries may
stand on the way, since it adds nothing to what is there. -/
def fits (q : List String) (leaf : List Step × ConfigValue) : Bool :=
  partsFrom leaf.1 q || (leaf.1 == q.map Step.key && !leaf.2.isTable) ||
    (leaf.1.isPrefixOf (q.map Step.key) && leaf.1 != q.map Step.key && leaf.2.isEmptyTable)

/-- The value at `q` after some leaves: that of the last one at `q`, or else what it was. -/
def settle (q : List String) (w : Option ConfigValue) (leaves : List (List Step × ConfigValue)) :
    Option ConfigValue :=
  leaves.foldl (fun w leaf => if leaf.1 = q.map Step.key then some leaf.2 else w) w

section Paths

variable {q : List String} {p : List Step} {x : ConfigValue}

lemma fits_nil_cons (s : Step) : fits [] (s :: p, x) = false := by
  cases s <;> rfl

lemma fits_cons_item (k : String) (index : Int) : fits (k :: q) (.item index :: p, x) = false := by
  simp [fits, partsFrom]

lemma fits_cons_nil (k : String) : fits (k :: q) ([], x) = x.isEmptyTable := by
  simp [fits, partsFrom]

lemma fits_cons_key (k : String) : fits (k :: q) (.key k :: p, x) = fits q (p, x) := by
  simp [fits, partsFrom, bne]

/-- What lies behind `q` fits as it would at the end of nothing. -/
lemma fits_append (q : List String) : fits q (q.map Step.key ++ p, x) = fits [] (p, x) := by
  induction q with
  | nil => rfl
  | cons k q ih => rw [List.map_cons, List.cons_append, fits_cons_key, ih]

lemma settle_append (w : Option ConfigValue) (leaves leaves' : List (List Step × ConfigValue)) :
    settle q w (leaves ++ leaves') = settle q (settle q w leaves) leaves' := by
  unfold settle
  rw [List.foldl_append]

/-- Leaves behind a name of `q` are at `q` if they are at the rest of it. -/
lemma settle_cons_key (k : String) (w : Option ConfigValue)
    (leaves : List (List Step × ConfigValue)) :
    settle (k :: q) w (leaves.map fun leaf => (.key k :: leaf.1, leaf.2)) = settle q w leaves := by
  unfold settle
  rw [List.foldl_map]
  simp

/-- Leaves behind another name are not at `q`. -/
lemma settle_of_ne {k k' : String} (h : k' ≠ k) (w : Option ConfigValue)
    (leaves : List (List Step × ConfigValue)) :
    settle (k :: q) w (leaves.map fun leaf => (.key k' :: leaf.1, leaf.2)) = w := by
  unfold settle
  rw [List.foldl_map]
  induction leaves with
  | nil => rfl
  | cons leaf leaves ih => simp [h]

/-- Only the leaves at `q` count, and of these the last. -/
lemma settle_eq_getLast? (w : Option ConfigValue) (leaves : List (List Step × ConfigValue)) :
    settle q w leaves =
      ((leaves.filter fun leaf => leaf.1 == q.map Step.key).getLast?.map Prod.snd).or w := by
  induction leaves generalizing w with
  | nil => rfl
  | cons leaf leaves ih =>
    rw [settle, List.foldl_cons, ← settle, ih]
    by_cases h : leaf.1 = q.map Step.key
    · rw [if_pos h, List.filter_cons_of_pos (by simpa using h), List.getLast?_cons]
      cases (leaves.filter fun leaf => leaf.1 == q.map Step.key).getLast? <;> rfl
    · rw [if_neg h, List.filter_cons_of_neg (by simpa using h)]

end Paths

namespace ConfigValue

variable {lower : String → String}

/-- A table does not fit where a setting is: its leaves lie behind it, or are a table. -/
lemma isTable_of_forall_fits {v : ConfigValue} (h : ∀ leaf ∈ v.leaves lower, fits [] leaf = true) :
    v.isTable = false := by
  cases v with
  | table es =>
    cases es with
    | nil => cases h ([], table []) (List.mem_singleton.mpr rfl)
    | cons e es =>
      obtain ⟨name, v⟩ := e
      obtain ⟨leaf, hleaf⟩ := exists_mem_leaves lower v
      have hfit := h (.key (lower name) :: leaf.1, leaf.2)
        (List.mem_append_left _ (List.mem_map.mpr ⟨leaf, hleaf, rfl⟩))
      rw [fits_nil_cons] at hfit
      cases hfit
  | _ => rfl

/-- What fits at the end of `q` is a plain value. -/
lemma leavesAt_of_fits {q : List String} {steps : List Step} {v : ConfigValue}
    (hsteps : steps.map (Step.lower lower) = q.map Step.key)
    (hfits : ∀ leaf ∈ v.leavesAt lower steps, fits q leaf = true) :
    v.leavesAt lower steps = [(q.map Step.key, v)] := by
  have hplain : v.isTable = false := by
    apply isTable_of_forall_fits
    intro leaf (hleaf : leaf ∈ v.leaves lower)
    rw [← fits_append q, ← hsteps]
    exact hfits _ (List.mem_map.mpr ⟨leaf, hleaf, rfl⟩)
  rw [leavesAt, leaves_of_not_isTable lower hplain, hsteps, List.map_singleton, List.append_nil]

end ConfigValue

/-! ### The rules of merging -/

/-- What it does to a table to put a value at the end of a path, step by step. -/
structure PutRules (lower : String → String)
    (put : ConfigValue → List Step → ConfigValue → ConfigValue) : Prop where
  /-- Other keys than the first of the path stay as they are. -/
  other : ∀ root name rest v k, k ≠ lower name →
    (put root (.key name :: rest) v).get? k = root.get? k
  /-- A plain value replaces what is there. -/
  plain : ∀ root name v, v.isTable = false →
    (put root [.key name] v).get? (lower name) = some v
  /-- A table is merged into what is there, entry by entry. -/
  table : ∀ root name es, (put root [.key name] (.table es)).get? (lower name) =
    some (es.foldl (fun inner e => put inner [.key e.1] e.2)
      ((root.get? (lower name)).getD (.table [])))
  /-- A longer path goes on from what its first key leads to. -/
  deeper : ∀ root name s rest v, (put root (.key name :: s :: rest) v).get? (lower name) =
    some (put ((root.get? (lower name)).getD .nil) (s :: rest) v)

namespace PutRules

open ConfigValue

variable {lower : String → String} {put : ConfigValue → List Step → ConfigValue → ConfigValue}
  {k : String} {ks : List String}

/-- A plain value is put where its key leads. -/
lemma valueAt?_put_plain (rules : PutRules lower put) {v : ConfigValue} {key : String}
    (root : ConfigValue) (hv : v.isTable = false)
    (hfits : ∀ leaf ∈ entryLeaves lower (key, v), fits (k :: ks) leaf = true) :
    (put root [.key key] v).valueAt? (k :: ks) =
      settle (k :: ks) (root.valueAt? (k :: ks)) (entryLeaves lower (key, v)) := by
  have hleaves : entryLeaves lower (key, v) = [([.key (lower key)], v)] := by
    rw [entryLeaves_eq, leaves_of_not_isTable lower hv]
    rfl
  rw [hleaves] at hfits ⊢
  by_cases hk : k = lower key
  · subst hk
    rw [valueAt?_cons_of_get? (rules.plain root key v hv)]
    have hfit : fits ks ([], v) = true := by
      rw [← fits_cons_key (lower key)]
      exact hfits _ (List.mem_singleton.mpr rfl)
    cases ks with
    | nil => simp [valueAt?, settle]
    | cons k' ks =>
      -- a plain value on the way does not fit
      rw [fits_cons_nil] at hfit
      cases v with
      | table es => cases hv
      | _ => cases hfit
  · rw [valueAt?_cons_congr (rules.other root key [] v k hk)]
    simp [settle, Ne.symm hk]

/-- A table is merged with what its key leads to. -/
lemma valueAt?_put_table (rules : PutRules lower put) {key : String}
    {es : List (String × ConfigValue)} (root : ConfigValue)
    (hfits : ∀ leaf ∈ entryLeaves lower (key, .table es), fits (k :: ks) leaf = true)
    (hmerge : ∀ target k' ks',
      (∀ leaf ∈ tableLeaves lower es, fits (k' :: ks') leaf = true) →
      (es.foldl (fun inner e => put inner [.key e.1] e.2) target).valueAt? (k' :: ks') =
        settle (k' :: ks') (target.valueAt? (k' :: ks')) (tableLeaves lower es)) :
    (put root [.key key] (.table es)).valueAt? (k :: ks) =
      settle (k :: ks) (root.valueAt? (k :: ks)) (entryLeaves lower (key, .table es)) := by
  by_cases hk : k = lower key
  · subst hk
    have hfits' : ∀ leaf ∈ leaves lower (.table es), fits ks leaf = true := by
      intro leaf hleaf
      rw [← fits_cons_key (lower key)]
      exact hfits _ (List.mem_map.mpr ⟨leaf, hleaf, rfl⟩)
    rw [entryLeaves_eq, settle_cons_key, valueAt?_cons_of_get? (rules.table root key es)]
    cases ks with
    | nil => cases isTable_of_forall_fits hfits'
    | cons k' ks =>
      rw [valueAt?_cons_getD root (.table []) rfl]
      by_cases hes : es = []
      · -- nothing is merged, and the table is no leaf at the path
        subst hes
        rfl
      · rw [leaves_table_of_ne_nil lower hes] at hfits' ⊢
        exact hmerge _ k' ks hfits'
  · rw [valueAt?_cons_congr (rules.other root key [] _ k hk), entryLeaves_eq,
      settle_of_ne (Ne.symm hk)]

mutual

/-- Putting a value under a key, followed at one path. -/
theorem valueAt?_put_key (rules : PutRules lower put) (v root : ConfigValue) (key k : String)
    (ks : List String)
    (hfits : ∀ leaf ∈ entryLeaves lower (key, v), fits (k :: ks) leaf = true) :
    (put root [.key key] v).valueAt? (k :: ks) =
      settle (k :: ks) (root.valueAt? (k :: ks)) (entryLeaves lower (key, v)) := by
  cases v with
  | table es =>
    apply rules.valueAt?_put_table root hfits
    intro target k' ks' hfits'
    exact rules.valueAt?_foldl_put es target k' ks' hfits'
  | _ => exact rules.valueAt?_put_plain root rfl hfits

/-- Merging the entries of a table, followed at one path. -/
theorem valueAt?_foldl_put (rules : PutRules lower put) (es : List (String × ConfigValue))
    (target : ConfigValue) (k : String) (ks : List String)
    (hfits : ∀ leaf ∈ tableLeaves lower es, fits (k :: ks) leaf = true) :
    (es.foldl (fun inner e => put inner [.key e.1] e.2) target).valueAt? (k :: ks) =
      settle (k :: ks) (target.valueAt? (k :: ks)) (tableLeaves lower es) := by
  cases es with
  | nil => rfl
  | cons e es =>
    obtain ⟨key, v⟩ := e
    rw [tableLeaves_cons] at hfits ⊢
    rw [List.foldl_cons, settle_append, ← rules.valueAt?_put_key v target key k ks
      fun leaf hleaf => hfits leaf (List.mem_append_left _ hleaf)]
    apply rules.valueAt?_foldl_put es
    intro leaf hleaf
    exact hfits leaf (List.mem_append_right _ hleaf)

end

/-- **Putting a value at the end of a path, followed at another.** If all leaves of what is put fit,
the value at the other path is that of the last leaf there, or what it was. -/
theorem valueAt?_put (rules : PutRules lower put) {steps : List Step} (hsteps : steps ≠ [])
    (v root : ConfigValue)
    (hfits : ∀ leaf ∈ leavesAt lower steps v, fits (k :: ks) leaf = true) :
    (put root steps v).valueAt? (k :: ks) =
      settle (k :: ks) (root.valueAt? (k :: ks)) (leavesAt lower steps v) := by
  induction steps generalizing root k ks with
  | nil => exact absurd rfl hsteps
  | cons s steps ih =>
    cases s with
    | item index =>
      -- an item of a list is on no way to a setting
      obtain ⟨p, x, hleaf⟩ := exists_mem_leavesAt lower (.item index :: steps) v
      have hfit := hfits _ hleaf
      rw [List.map_cons, List.cons_append, Step.lower, fits_cons_item] at hfit
      cases hfit
    | key name =>
      cases steps with
      | nil =>
        rw [leavesAt_key] at hfits ⊢
        exact rules.valueAt?_put_key v root name k ks hfits
      | cons s steps =>
        rw [leavesAt_cons] at hfits ⊢
        by_cases hk : k = lower name
        · subst hk
          have hfits' : ∀ leaf ∈ leavesAt lower (s :: steps) v, fits ks leaf = true := by
            intro leaf hleaf
            rw [← fits_cons_key (lower name)]
            exact hfits _ (List.mem_map.mpr ⟨leaf, hleaf, rfl⟩)
          rw [valueAt?_cons_of_get? (rules.deeper root name s steps v), Step.lower, settle_cons_key]
          cases ks with
          | nil =>
            -- the leaves lie behind the path
            obtain ⟨p, x, hleaf⟩ := exists_mem_leavesAt lower (s :: steps) v
            have hfit := hfits' _ hleaf
            rw [List.map_cons, List.cons_append, fits_nil_cons] at hfit
            cases hfit
          | cons k' ks =>
            rw [valueAt?_cons_getD root .nil rfl]
            exact ih (List.cons_ne_nil _ _) _ hfits'
        · rw [valueAt?_cons_congr (rules.other root name (s :: steps) v k hk), Step.lower,
            settle_of_ne (Ne.symm hk)]

/-- One value through a row of writes. -/
theorem valueAt?_putAll (rules : PutRules lower put) {writes : List (List Step × ConfigValue)}
    (hsteps : ∀ write ∈ writes, write.1 ≠ []) (root : ConfigValue)
    (hfits : ∀ leaf ∈ writes.flatMap fun write => leavesAt lower write.1 write.2,
      fits (k :: ks) leaf = true) :
    (writes.foldl (fun root write => put root write.1 write.2) root).valueAt? (k :: ks) =
      settle (k :: ks) (root.valueAt? (k :: ks))
        (writes.flatMap fun write => leavesAt lower write.1 write.2) := by
  induction writes generalizing root with
  | nil => rfl
  | cons write writes ih =>
    rw [List.flatMap_cons] at hfits ⊢
    rw [List.foldl_cons, settle_append, ← rules.valueAt?_put (hsteps write (by simp)) write.2 root
      fun leaf hleaf => hfits leaf (List.mem_append_left _ hleaf)]
    apply ih fun write hwrite => hsteps write (List.mem_cons_of_mem _ hwrite)
    intro leaf hleaf
    exact hfits leaf (List.mem_append_right _ hleaf)

end PutRules

end TopologyAssist
