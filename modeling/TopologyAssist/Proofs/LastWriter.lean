import TopologyAssist.Proofs.MergeRules

/-!
Of the layers of a configuration the last one that sets a setting wins.

Files are merged into one table after the other, overrides are put over all of them, and only then
the settings are read. Here each setting is followed alone, through any library that merges by the
rules.

* `Workings.winner? layers s` — the value of the last override of `s`, else of the last file that
  sets it, else the built-in one;
* `Workings.keep` — the overrides that are left of a row, one for each path. In which order they are
  applied is not known, and does not matter, since one of them at most sets a setting;
* `Settings.load_lastWriter` — the settings are what the winners are converted to.
-/

namespace TopologyAssist

namespace Layer

/-- The layer is a file. -/
def isFile : Layer → Bool
  | file _ _ => true
  | override _ _ => false

/-- The file of a layer. -/
def file? : Layer → Option (Option (List Char) × Bool)
  | file text required => some (text, required)
  | override _ _ => none

end Layer

/-! ### Names in any letters -/

lemma isPathChar_of_toLower {c : Char} (h : isPathChar c.toLower = true) : isPathChar c = true := by
  unfold Char.toLower at h
  split_ifs at h with hupper
  · have hc : c.isUpper = true := decide_eq_true hupper
    have halnum : c.isAlphanum = true :=
      Bool.or_eq_true_iff.mpr (Or.inl (Bool.or_eq_true_iff.mpr (Or.inl hc)))
    simp [isPathChar, halnum]
  · exact h

lemma isPathName_of_asciiLower {name : String} (h : isPathName (asciiLower name) = true) :
    isPathName name = true := by
  obtain ⟨hne, hall⟩ := Bool.and_eq_true_iff.mp h
  rw [asciiLower, String.toList_ofList] at hne hall
  refine Bool.and_eq_true_iff.mpr ⟨by simpa using hne, List.all_eq_true.mpr fun c hc => ?_⟩
  exact isPathChar_of_toLower (List.all_eq_true.mp hall _ (List.mem_map_of_mem hc))

namespace Setting

lemma isPathName_of_mem_path {s : Setting} {name : String} (h : name ∈ s.path) :
    isPathName name = true := by
  have hall : ∀ s ∈ all, ∀ name ∈ s.path, isPathName name = true := by decide
  exact hall s s.mem_all name h

lemma settle_eq (s : Setting) (x : Option ConfigValue) (leaves : List (List Step × ConfigValue)) :
    settle s.path x leaves =
      ((leaves.filter fun leaf => leaf.1 == s.steps).getLast?.map Prod.snd).or x :=
  settle_eq_getLast? x leaves

lemma fits_steps (s s' : Setting) {v : ConfigValue} (hv : v.isTable = false) :
    fits s'.path (s.steps, v) = true := by
  cases s <;> cases s' <;> simp [fits, partsFrom, path, steps, hv]

end Setting

namespace ConfigLibrary.Workings

variable {lib : ConfigLibrary} (w : lib.Workings)

/-! ### Winners -/

/-- The value of the last layer that gives the setting one. -/
def lastValue? (layers : List Layer) (s : Setting) : Option ConfigValue :=
  (layers.filterMap fun l => w.value? l s).getLast?

/-- The value that counts for a setting: of the last override, else of the last file, else the
built-in one. -/
def winner? (layers : List Layer) (s : Setting) : Option ConfigValue :=
  ((w.lastValue? (layers.filter fun l => !l.isFile) s).or
    (w.lastValue? (layers.filter Layer.isFile) s)).or (w.value? builtInLayer s)

/-- The value can be converted to one of the setting. -/
def converts : Setting → ConfigValue → Bool
  | .templates, v => (w.style? v).isSome
  | .appendUnits, v => (w.bool? v).isSome
  | .dimensionlessLabel, v => (w.text? v).isSome
  | .filter, v => (w.text? v).isSome

/-- The override of a layer, by its path. -/
def single? : Layer → Option (List Step × ConfigValue)
  | .override path v => (w.path? path).map fun steps => (steps, v)
  | .file _ _ => none

/-- Overrides of one setting have one path, in all its letters. -/
def SpelledAlike (layers : List Layer) : Prop :=
  ∀ s : Setting, ∀ x ∈ layers.filterMap w.single?, ∀ y ∈ layers.filterMap w.single?,
    w.leadsTo x.1 s = true → w.leadsTo y.1 s = true → x.1 = y.1

variable {w}

/-- Where paths are kept in small letters, all overrides of a setting have one. -/
lemma LowersPaths.spelledAlike (h : w.LowersPaths) (layers : List Layer) :
    w.SpelledAlike layers := by
  have hsteps : ∀ x ∈ layers.filterMap w.single?, x.1.map (Step.lower w.lower) = x.1 := by
    intro x hx
    obtain ⟨l, -, hl⟩ := List.mem_filterMap.mp hx
    cases l with
    | file text required => cases hl
    | override path v =>
      obtain ⟨steps, hpath, rfl⟩ := Option.map_eq_some_iff.mp hl
      exact h path steps hpath
  intro s x hx y hy hxs hys
  rw [leadsTo, beq_iff_eq, hsteps x hx] at hxs
  rw [leadsTo, beq_iff_eq, hsteps y hy] at hys
  exact hxs.trans hys.symm

/-! ### One layer -/

lemma leavesOf_append (writes writes' : List (List Step × ConfigValue)) :
    w.leavesOf (writes ++ writes') = w.leavesOf writes ++ w.leavesOf writes' :=
  List.flatMap_append

lemma value?_eq_head? (l : Layer) (s : Setting) :
    w.value? l s = ((w.leaves l).filter fun leaf => leaf.1 == s.steps).head?.map Prod.snd := by
  rw [value?, List.head?_filter]

/-- A layer sets a setting once at most, so the first value is the last. -/
lemma Orderly.settle_leaves {l : Layer} (h : w.Orderly l) (s : Setting) (x : Option ConfigValue) :
    settle s.path x (w.leaves l) = (w.value? l s).or x := by
  have honce := h.once s
  rw [s.settle_eq, value?_eq_head?]
  cases hfilter : (w.leaves l).filter fun leaf => leaf.1 == s.steps with
  | nil => rfl
  | cons leaf rest =>
    rw [hfilter, List.length_cons] at honce
    obtain rfl := List.eq_nil_of_length_eq_zero (by omega : rest.length = 0)
    rfl

lemma lastValue?_cons (l : Layer) (layers : List Layer) (s : Setting) :
    w.lastValue? (l :: layers) s = (w.lastValue? layers s).or (w.value? l s) := by
  unfold lastValue?
  rw [List.filterMap_cons]
  cases w.value? l s with
  | none => rw [Option.or_none]
  | some v =>
    rw [List.getLast?_cons]
    cases (layers.filterMap fun l => w.value? l s).getLast? <;> rfl

/-- A setting through a row of layers is given the last value. -/
lemma settle_layers {layers : List Layer} (h : ∀ l ∈ layers, w.Orderly l) (s : Setting)
    (x : Option ConfigValue) :
    settle s.path x (layers.flatMap w.leaves) = (w.lastValue? layers s).or x := by
  induction layers generalizing x with
  | nil => rfl
  | cons l layers ih =>
    rw [List.flatMap_cons, settle_append, (h l (by simp)).settle_leaves s x,
      ih fun l hl => h l (List.mem_cons_of_mem _ hl), lastValue?_cons, Option.or_assoc]

/-! ### Overrides -/

lemma leaves_override {path : String} {steps : List Step} (hpath : w.path? path = some steps)
    (v : ConfigValue) : w.leaves (.override path v) = v.leavesAt w.lower steps := by
  rw [leaves, writes?, hpath]
  exact List.flatMap_singleton ..

/-- An override sets a setting if its path is that of the setting. -/
lemma Orderly.filter_override {path : String} {steps : List Step} {v : ConfigValue}
    (h : w.Orderly (.override path v)) (hpath : w.path? path = some steps) (s : Setting) :
    (v.leavesAt w.lower steps).filter (fun leaf => leaf.1 == s.steps) =
      if w.leadsTo steps s then [(s.steps, v)] else [] := by
  have hfits := h.fits s
  rw [leaves_override hpath] at hfits
  split_ifs with hleads
  · have hsteps : steps.map (Step.lower w.lower) = s.path.map Step.key := by
      simpa [leadsTo, Setting.steps] using hleads
    rw [ConfigValue.leavesAt_of_fits hsteps hfits]
    exact List.filter_cons_of_pos (beq_self_eq_true _)
  · have hown := List.all_eq_true.mp h.own s s.mem_all
    rw [hpath, Option.any_some, Bool.eq_false_iff.mpr hleads, Bool.or_false,
      Option.isNone_iff_eq_none, value?_eq_head?, leaves_override hpath, Option.map_eq_none_iff,
      List.head?_eq_none_iff] at hown
    exact hown

lemma Orderly.value?_override {path : String} {steps : List Step} {v : ConfigValue}
    (h : w.Orderly (.override path v)) (hpath : w.path? path = some steps) (s : Setting) :
    w.value? (.override path v) s = if w.leadsTo steps s then some v else none := by
  rw [value?_eq_head?, leaves_override hpath, h.filter_override hpath]
  split_ifs <;> rfl

section Singles

variable {layers : List Layer} (h : ∀ l ∈ layers, w.Orderly l)
include h

lemma exists_override_of_mem {x : List Step × ConfigValue} (hx : x ∈ layers.filterMap w.single?) :
    ∃ path, w.Orderly (.override path x.2) ∧ w.path? path = some x.1 := by
  obtain ⟨l, hl, hsingle⟩ := List.mem_filterMap.mp hx
  cases l with
  | file text required => cases hsingle
  | override path v =>
    obtain ⟨steps, hpath, rfl⟩ := Option.map_eq_some_iff.mp hsingle
    exact ⟨path, h _ hl, hpath⟩

lemma filterMap_value?_singles (s : Setting) :
    ((layers.filter fun l => !l.isFile).filterMap fun l => w.value? l s) =
      ((layers.filterMap w.single?).filter fun x => w.leadsTo x.1 s).map Prod.snd := by
  induction layers with
  | nil => rfl
  | cons l layers ih =>
    have hrest := ih fun l hl => h l (List.mem_cons_of_mem _ hl)
    cases l with
    | file text required => exact hrest
    | override path v =>
      have hl := h (.override path v) (by simp)
      obtain ⟨steps, hpath⟩ : ∃ steps, w.path? path = some steps := by
        have hreadable := hl.readable
        rw [writes?, Option.isSome_map] at hreadable
        exact Option.isSome_iff_exists.mp hreadable
      have hsingle : w.single? (.override path v) = some (steps, v) := by
        rw [single?, hpath]
        rfl
      rw [List.filter_cons_of_pos rfl, List.filterMap_cons, hl.value?_override hpath, hrest,
        List.filterMap_cons_some hsingle, List.filter_cons]
      split_ifs <;> rfl

/-- What overrides set of a setting, if each of them is one of the layers'. -/
lemma filter_leavesOf {kept : List (List Step × ConfigValue)}
    (hkept : ∀ x ∈ kept, x ∈ layers.filterMap w.single?) (s : Setting) :
    (w.leavesOf kept).filter (fun leaf => leaf.1 == s.steps) =
      (kept.filter fun x => w.leadsTo x.1 s).map fun x => (s.steps, x.2) := by
  induction kept with
  | nil => rfl
  | cons x kept ih =>
    obtain ⟨path, hx, hpath⟩ := exists_override_of_mem h (hkept x (by simp))
    have hleaves : w.leavesOf (x :: kept) = x.2.leavesAt w.lower x.1 ++ w.leavesOf kept :=
      List.flatMap_cons
    rw [hleaves, List.filter_append, hx.filter_override hpath,
      ih fun x hx => hkept x (List.mem_cons_of_mem _ hx), List.filter_cons]
    split_ifs <;> rfl

lemma fits_leavesOf {kept : List (List Step × ConfigValue)}
    (hkept : ∀ x ∈ kept, x ∈ layers.filterMap w.single?) (s : Setting) :
    ∀ leaf ∈ w.leavesOf kept, fits s.path leaf = true := by
  intro leaf hleaf
  obtain ⟨x, hx, hleaf⟩ := List.mem_flatMap.mp hleaf
  obtain ⟨path, horderly, hpath⟩ := exists_override_of_mem h (hkept x hx)
  exact horderly.fits s leaf (by rwa [leaves_override hpath])

end Singles

/-! ### Kept overrides -/

/-- The overrides that are left of a row: of those of one path the last. -/
def keep (kept singles : List (List Step × ConfigValue)) : List (List Step × ConfigValue) :=
  singles.foldl (fun kept x => x :: kept.filter fun y => y.1 != x.1) kept

lemma keep_perm {kept kept' : List (List Step × ConfigValue)} (h : kept.Perm kept')
    (singles : List (List Step × ConfigValue)) : (keep kept singles).Perm (keep kept' singles) := by
  induction singles generalizing kept kept' with
  | nil => exact h
  | cons x singles ih => exact ih ((h.filter _).cons x)

lemma mem_of_mem_keep {kept singles : List (List Step × ConfigValue)} {x : List Step × ConfigValue}
    (h : x ∈ keep kept singles) : x ∈ kept ∨ x ∈ singles := by
  induction singles generalizing kept with
  | nil => exact Or.inl h
  | cons y singles ih =>
    rcases ih h with hx | hx
    · rcases List.mem_cons.mp hx with rfl | hx
      · exact Or.inr List.mem_cons_self
      · exact Or.inl (List.mem_of_mem_filter hx)
    · exact Or.inr (List.mem_cons_of_mem _ hx)

lemma mem_of_perm_keep {kept singles : List (List Step × ConfigValue)}
    (h : kept.Perm (keep [] singles)) : ∀ x ∈ kept, x ∈ singles := fun _ hx =>
  (mem_of_mem_keep (h.mem_iff.mp hx)).resolve_left List.not_mem_nil

/-- If the overrides with a property have one path, all of them are dropped for one that has it, and
none for one that has it not. -/
lemma filter_dropped (p : List Step → Bool) {kept : List (List Step × ConfigValue)}
    {steps : List Step} (hone : ∀ y ∈ kept, p y.1 = true → p steps = true → y.1 = steps) :
    (kept.filter fun y => y.1 != steps).filter (fun y => p y.1) =
      if p steps then [] else kept.filter fun y => p y.1 := by
  rw [List.filter_filter]
  split_ifs with hp
  · refine List.filter_eq_nil_iff.mpr fun y hy hboth => ?_
    obtain ⟨hpy, hne⟩ := Bool.and_eq_true_iff.mp hboth
    exact absurd (hone y hy hpy hp) (by simpa using hne)
  · refine List.filter_congr fun y hy => ?_
    cases hpy : p y.1 with
    | false => rfl
    | true =>
      have hne : y.1 ≠ steps := fun heq => hp (heq ▸ hpy)
      simpa using hne

/-- Of the overrides whose path has a property, the last is left, if they have one path. -/
lemma filter_keep (p : List Step → Bool) {kept singles : List (List Step × ConfigValue)}
    (hone : ∀ x ∈ kept ++ singles, ∀ y ∈ kept ++ singles, p x.1 = true → p y.1 = true → x.1 = y.1)
    (hkept : (kept.filter fun x => p x.1).length ≤ 1) :
    (keep kept singles).filter (fun x => p x.1) =
      ((kept ++ singles).filter fun x => p x.1).getLast?.toList := by
  induction singles generalizing kept with
  | nil =>
    rw [List.append_nil]
    change kept.filter (fun x => p x.1) = _
    generalize kept.filter (fun x => p x.1) = left at hkept ⊢
    match left with
    | [] => rfl
    | [x] => rfl
    | x :: y :: rest => exact absurd hkept (by simp)
  | cons x singles ih =>
    have hx : x ∈ kept ++ x :: singles := List.mem_append_right _ List.mem_cons_self
    have hmem : ∀ y ∈ (x :: kept.filter fun y => y.1 != x.1) ++ singles,
        y ∈ kept ++ x :: singles := by
      intro y hy
      rcases List.mem_append.mp hy with hy | hy
      · rcases List.mem_cons.mp hy with rfl | hy
        · exact hx
        · exact List.mem_append_left _ (List.mem_of_mem_filter hy)
      · exact List.mem_append_right _ (List.mem_cons_of_mem _ hy)
    have hdropped := filter_dropped p fun y (hy : y ∈ kept) =>
      hone y (List.mem_append_left _ hy) x hx
    change (keep (x :: kept.filter fun y => y.1 != x.1) singles).filter (fun x => p x.1) = _
    rw [ih fun y hy z hz => hone y (hmem y hy) z (hmem z hz)]
    · rw [List.filter_append, List.filter_append, List.filter_cons, List.filter_cons, hdropped]
      split_ifs
      · simp only [List.getLast?_append, List.getLast?_cons]
        cases (singles.filter fun x => p x.1).getLast? <;> rfl
      · rfl
    · rw [List.filter_cons, hdropped]
      split_ifs
      · exact Nat.le_refl _
      · exact hkept

/-- **Overrides of one setting leave the last of them**, in whatever order they are applied. -/
lemma settle_overrides {layers : List Layer} (h : ∀ l ∈ layers, w.Orderly l)
    (hspelled : w.SpelledAlike layers) {kept : List (List Step × ConfigValue)}
    (hkept : kept.Perm (keep [] (layers.filterMap w.single?))) (s : Setting)
    (x : Option ConfigValue) :
    settle s.path x (w.leavesOf kept) =
      (w.lastValue? (layers.filter fun l => !l.isFile) s).or x := by
  have hmem := mem_of_perm_keep hkept
  have hleft : kept.filter (fun x => w.leadsTo x.1 s) =
      ((layers.filterMap w.single?).filter fun x => w.leadsTo x.1 s).getLast?.toList := by
    have hperm := hkept.filter fun x => w.leadsTo x.1 s
    rw [filter_keep (fun steps => w.leadsTo steps s) (hspelled s) (Nat.zero_le _),
      List.nil_append] at hperm
    cases hlast : ((layers.filterMap w.single?).filter fun x => w.leadsTo x.1 s).getLast? with
    | none =>
      rw [hlast] at hperm
      exact List.perm_nil.mp hperm
    | some y =>
      rw [hlast] at hperm
      exact List.perm_singleton.mp hperm
  rw [s.settle_eq, filter_leavesOf h hmem, hleft, lastValue?, filterMap_value?_singles h,
    List.getLast?_map, List.getLast?_map]
  cases ((layers.filterMap w.single?).filter fun x => w.leadsTo x.1 s).getLast? <;> rfl

/-! ### Merging -/

/-- The files among the layers, over the built-in configuration. -/
def filesOf (layers : List Layer) : List Layer := builtInLayer :: layers.filter Layer.isFile

/-- What files set, in order. -/
def filesWrites (w : lib.Workings) (files : List Layer) : List (List Step × ConfigValue) :=
  (files.map fun l => (w.writes? l).getD []).flatten

/-- What the files among the layers and some overrides are merged to. -/
def merge (w : lib.Workings) (layers : List Layer) (kept : List (List Step × ConfigValue)) :
    ConfigValue :=
  (w.filesWrites (filesOf layers) ++ kept).foldl (fun root write => w.put root write.1 write.2)
    (.table [])

lemma leavesOf_filesWrites (files : List Layer) :
    w.leavesOf (w.filesWrites files) = files.flatMap w.leaves := by
  induction files with
  | nil => rfl
  | cons l files ih =>
    have hcons : w.filesWrites (l :: files) = (w.writes? l).getD [] ++ w.filesWrites files := rfl
    rw [hcons, leavesOf_append, ih, List.flatMap_cons, leaves]

/-- Readable files have what they set. -/
lemma mapM_fileWrites? {layers : List Layer} (h : ∀ l ∈ layers, (w.writes? l).isSome = true) :
    (layers.filterMap Layer.file?).mapM w.fileWrites? =
      some ((layers.filter Layer.isFile).map fun l => (w.writes? l).getD []) := by
  induction layers with
  | nil => rfl
  | cons l layers ih =>
    have hrest := ih fun l hl => h l (List.mem_cons_of_mem _ hl)
    cases l with
    | override path v => exact hrest
    | file text required =>
      obtain ⟨writes, hwrites⟩ := Option.isSome_iff_exists.mp (h (.file text required) (by simp))
      have hfile : w.fileWrites? (text, required) = some writes := hwrites
      rw [List.filterMap_cons_some (by rfl), List.mapM_cons, hfile, hrest,
        List.filter_cons_of_pos (by rfl), List.map_cons, hwrites]
      rfl

namespace MergeRules

variable (rules : w.MergeRules)
include rules

lemma ne_nil_of_writes? {l : Layer} {writes : List (List Step × ConfigValue)}
    (h : w.writes? l = some writes) : ∀ write ∈ writes, write.1 ≠ [] := by
  intro write hwrite
  cases l with
  | override path v =>
    obtain ⟨steps, hpath, rfl⟩ := Option.map_eq_some_iff.mp h
    obtain rfl := List.mem_singleton.mp hwrite
    exact rules.path_ne_nil path steps hpath
  | file text required =>
    rw [writes?] at h
    cases text with
    | some text => exact rules.entries_ne_nil text writes h write hwrite
    | none =>
      rw [fileWrites?] at h
      split_ifs at h
      obtain rfl := Option.some.inj h
      cases hwrite

/-- No file sets what no path leads to. -/
lemma ne_nil_of_filesWrites {files : List Layer} (h : ∀ l ∈ files, w.Orderly l) :
    ∀ write ∈ w.filesWrites files, write.1 ≠ [] := by
  intro write hwrite
  obtain ⟨writes, hmem, hwrite⟩ := List.mem_flatten.mp hwrite
  obtain ⟨l, hl, rfl⟩ := List.mem_map.mp hmem
  obtain ⟨writes, hwrites⟩ := Option.isSome_iff_exists.mp (h l hl).readable
  rw [hwrites] at hwrite
  exact rules.ne_nil_of_writes? hwrites write hwrite

/-- **What the layers are merged to has the winners**, in whatever order the overrides that are left
are applied. -/
lemma valueAt?_merge {layers : List Layer} (h : ∀ l ∈ layers, w.Orderly l)
    (hspelled : w.SpelledAlike layers) {kept : List (List Step × ConfigValue)}
    (hkept : kept.Perm (keep [] (layers.filterMap w.single?))) (s : Setting) :
    (w.merge layers kept).valueAt? s.path = w.winner? layers s := by
  have hfiles : ∀ l ∈ filesOf layers, w.Orderly l :=
    List.forall_mem_cons.mpr ⟨rules.builtIn.1, fun l hl => h l (List.mem_of_mem_filter hl)⟩
  have hsingles := mem_of_perm_keep hkept
  have hsteps : ∀ write ∈ w.filesWrites (filesOf layers) ++ kept, write.1 ≠ [] := by
    refine List.forall_mem_append.mpr ⟨rules.ne_nil_of_filesWrites hfiles, fun x hx => ?_⟩
    obtain ⟨path, -, hpath⟩ := exists_override_of_mem h (hsingles x hx)
    exact rules.path_ne_nil path x.1 hpath
  have hleaves : w.leavesOf (w.filesWrites (filesOf layers) ++ kept) =
      (filesOf layers).flatMap w.leaves ++ w.leavesOf kept := by
    rw [leavesOf_append, leavesOf_filesWrites]
  have hfits : ∀ leaf ∈ w.leavesOf (w.filesWrites (filesOf layers) ++ kept),
      fits s.path leaf = true := by
    rw [hleaves]
    refine List.forall_mem_append.mpr ⟨fun leaf hleaf => ?_, fits_leavesOf h hsingles s⟩
    obtain ⟨l, hl, hleaf⟩ := List.mem_flatMap.mp hleaf
    exact (hfiles l hl).fits s leaf hleaf
  have hvalue : (w.merge layers kept).valueAt? s.path =
      settle s.path none (w.leavesOf (w.filesWrites (filesOf layers) ++ kept)) := by
    obtain ⟨k, ks, hpath⟩ := s.exists_path
    rw [hpath] at hfits ⊢
    exact rules.merged.valueAt?_putAll hsteps (.table []) hfits
  rw [hvalue, hleaves, settle_append, settle_layers hfiles, settle_overrides h hspelled hkept,
    filesOf, lastValue?_cons, Option.or_none, winner?, Option.or_assoc]

/-! ### Loading -/

/-- **One layer** is added to the files or put in the place of the overrides of its path. -/
lemma exists_add {l : Layer} (hl : (w.writes? l).isSome = true) (b : lib.Builder) :
    ∃ b', lib.add b l = .ok b' ∧ w.files b' = w.files b ++ l.file?.toList ∧
      (w.overrides b').Perm (keep (w.overrides b) (w.single? l).toList) := by
  cases l with
  | file text required =>
    obtain ⟨hfiles, hoverrides⟩ := rules.addFile b text required
    exact ⟨_, rfl, hfiles, hoverrides ▸ .refl _⟩
  | override path v =>
    rw [writes?, Option.isSome_map] at hl
    obtain ⟨steps, hpath⟩ := Option.isSome_iff_exists.mp hl
    obtain ⟨b', hset, hfiles, hoverrides⟩ := rules.setOverride b path v steps hpath
    refine ⟨b', hset, by rw [hfiles]; exact (List.append_nil _).symm, ?_⟩
    rw [single?, hpath]
    exact hoverrides

/-- **A row of layers**: the files in order, and the overrides that are left. -/
lemma exists_foldlM_add {layers : List Layer} (h : ∀ l ∈ layers, (w.writes? l).isSome = true)
    (b : lib.Builder) :
    ∃ b', layers.foldlM lib.add b = .ok b' ∧
      w.files b' = w.files b ++ layers.filterMap Layer.file? ∧
      (w.overrides b').Perm (keep (w.overrides b) (layers.filterMap w.single?)) := by
  induction layers generalizing b with
  | nil => exact ⟨b, rfl, (List.append_nil _).symm, .refl _⟩
  | cons l layers ih =>
    obtain ⟨b₁, hadd, hfiles₁, hoverrides₁⟩ := rules.exists_add (h l (by simp)) b
    obtain ⟨b₂, hrest, hfiles₂, hoverrides₂⟩ := ih (fun l hl => h l (List.mem_cons_of_mem _ hl)) b₁
    refine ⟨b₂, ?_, ?_, ?_⟩
    · rw [List.foldlM_cons, hadd]
      exact hrest
    · rw [hfiles₂, hfiles₁, List.append_assoc]
      cases l <;> rfl
    · refine hoverrides₂.trans ((keep_perm hoverrides₁ _).trans ?_)
      rw [List.filterMap_cons]
      cases w.single? l <;> exact .refl _

/-- **Settings are what the winners are converted to.** -/
lemma load_eq_ok_iff {layers : List Layer} (h : ∀ l ∈ layers, w.Orderly l)
    (hspelled : w.SpelledAlike layers) (t : Settings) :
    Settings.load lib layers = .ok t ↔ w.ReadsAs (w.winner? layers) t := by
  have hreadable : ∀ l ∈ builtInLayer :: layers, (w.writes? l).isSome = true :=
    List.forall_mem_cons.mpr ⟨rules.builtIn.1.readable, fun l hl => (h l hl).readable⟩
  obtain ⟨b, hadd, hfiles, hoverrides⟩ :=
    rules.exists_foldlM_add (fun l hl => (h l hl).readable) lib.builtIn
  -- the built-in configuration is one more file, below all others
  have hbuiltIn := rules.addFile lib.empty (some builtInText) true
  rw [ConfigLibrary.builtIn, hbuiltIn.1, rules.empty.1, List.nil_append] at hfiles
  rw [ConfigLibrary.builtIn, hbuiltIn.2, rules.empty.2] at hoverrides
  have hwrites : (w.files b).mapM w.fileWrites? =
      some ((filesOf layers).map fun l => (w.writes? l).getD []) := by
    rw [hfiles]
    exact mapM_fileWrites? hreadable
  have hload : Settings.load lib layers = lib.deserialize (w.merge layers (w.overrides b)) := by
    rw [Settings.load, hadd]
    change lib.build b >>= lib.deserialize = _
    rw [rules.build b _ hwrites]
    rfl
  have hvalues := rules.valueAt?_merge h hspelled hoverrides
  rw [hload, rules.deserialize _ (fun s => ?_) t, funext hvalues]
  rw [hvalues, winner?, Option.isSome_or, rules.builtIn.2 s, Bool.or_true]

end MergeRules

lemma exists_bind_eq_some_iff {α β : Type} {x : Option α} {f : α → Option β} :
    (∃ b, x.bind f = some b) ↔ ∃ a, x = some a ∧ (f a).isSome = true := by
  cases x with
  | none => simp
  | some a => simp [Option.isSome_iff_exists]

/-- There are settings if each value can be converted. -/
lemma exists_readsAs_iff {value : Setting → Option ConfigValue} :
    (∃ t, w.ReadsAs value t) ↔ ∀ s, ∃ v, value s = some v ∧ w.converts s v = true := by
  constructor
  · rintro ⟨t, hstyle, hunits, hlabel, hfilter⟩ s
    cases s with
    | templates => exact exists_bind_eq_some_iff.mp ⟨_, hstyle⟩
    | appendUnits => exact exists_bind_eq_some_iff.mp ⟨_, hunits⟩
    | dimensionlessLabel => exact exists_bind_eq_some_iff.mp ⟨_, hlabel⟩
    | filter => exact exists_bind_eq_some_iff.mp ⟨_, hfilter⟩
  · intro h
    obtain ⟨style, hstyle⟩ := exists_bind_eq_some_iff.mpr (h .templates)
    obtain ⟨units, hunits⟩ := exists_bind_eq_some_iff.mpr (h .appendUnits)
    obtain ⟨label, hlabel⟩ := exists_bind_eq_some_iff.mpr (h .dimensionlessLabel)
    obtain ⟨filter, hfilter⟩ := exists_bind_eq_some_iff.mpr (h .filter)
    exact ⟨⟨style, units, label, filter⟩, hstyle, hunits, hlabel, hfilter⟩

/-! ### Overrides of a setting -/

/-- The path of a setting in any letters leads to it. -/
lemma MergeRules.exists_leadsTo (rules : w.MergeRules) {s : Setting} {first last : String}
    (h : [asciiLower first, asciiLower last] = s.path) :
    ∃ steps, w.path? (first ++ "." ++ last) = some steps ∧ w.leadsTo steps s = true := by
  have hname : ∀ name, asciiLower name ∈ s.path →
      isPathName name = true ∧ w.lower name = asciiLower name := by
    intro name hmem
    have hpath := isPathName_of_asciiLower (Setting.isPathName_of_mem_path hmem)
    obtain ⟨-, hall⟩ := Bool.and_eq_true_iff.mp hpath
    exact ⟨hpath, rules.lower_ascii name fun c hc =>
      toNat_of_isPathChar (List.all_eq_true.mp hall c hc)⟩
  obtain ⟨hfirst, hlower⟩ := hname first (h ▸ List.mem_cons_self)
  obtain ⟨hlast, hlower'⟩ := hname last (h ▸ List.mem_cons_of_mem _ List.mem_cons_self)
  obtain ⟨steps, hpath, hsteps⟩ := rules.dotted first last hfirst hlast
  refine ⟨steps, hpath, ?_⟩
  rw [leadsTo, hsteps, hlower, hlower', Setting.steps, ← h]
  exact beq_self_eq_true _

/-- A plain value by the path of a setting is orderly, and sets it. -/
lemma orderly_override {path : String} {steps : List Step} {s : Setting} {v : ConfigValue}
    (hpath : w.path? path = some steps) (hleads : w.leadsTo steps s = true)
    (hv : v.isTable = false) :
    w.Orderly (.override path v) ∧ w.value? (.override path v) s = some v := by
  have hleaves : w.leaves (.override path v) = [(s.steps, v)] := by
    rw [leaves_override hpath, ConfigValue.leavesAt, ConfigValue.leaves_of_not_isTable _ hv,
      List.map_singleton, List.append_nil, eq_of_beq hleads]
  refine ⟨⟨?_, ?_, ?_, ?_⟩, ?_⟩
  · rw [writes?, hpath]
    rfl
  · rw [hleaves]
    intro s' leaf hleaf
    obtain rfl := List.mem_singleton.mp hleaf
    exact s.fits_steps s' hv
  · intro s'
    rw [hleaves]
    exact List.length_filter_le ..
  · refine List.all_eq_true.mpr fun s' _ => ?_
    rw [value?, hleaves, hpath, Option.any_some, leadsTo, eq_of_beq hleads, List.find?_singleton]
    cases s.steps == s'.steps <;> rfl
  · rw [value?, hleaves, List.find?_singleton, if_pos (beq_self_eq_true _)]
    rfl

/-! ### Moving layers -/

lemma filterMap_single?_filter (layers : List Layer) :
    (layers.filter fun l => !l.isFile).filterMap w.single? = layers.filterMap w.single? := by
  induction layers with
  | nil => rfl
  | cons l layers ih =>
    cases l with
    | file text required => exact ih
    | override path v =>
      rw [List.filter_cons_of_pos rfl, List.filterMap_cons, List.filterMap_cons, ih]

lemma mem_filter_isFile_or {layers : List Layer} {l : Layer} (h : l ∈ layers) :
    l ∈ layers.filter Layer.isFile ∨ l ∈ layers.filter fun l => !l.isFile := by
  cases hfile : l.isFile with
  | true => exact Or.inl (List.mem_filter.mpr ⟨h, hfile⟩)
  | false => exact Or.inr (List.mem_filter.mpr ⟨h, by rw [hfile]; rfl⟩)

/-- A file that is not there sets nothing. -/
lemma orderly_absent : w.Orderly (.file none false) where
  readable := rfl
  fits _ _ h := absurd h List.not_mem_nil
  once _ := Nat.zero_le _
  own := rfl

lemma winner?_absent (above below : List Layer) (s : Setting) :
    w.winner? (above ++ .file none false :: below) s = w.winner? (above ++ below) s := by
  have hnone : w.value? (.file none false) s = none := rfl
  have hfiles : w.lastValue? ((above ++ .file none false :: below).filter Layer.isFile) s =
      w.lastValue? ((above ++ below).filter Layer.isFile) s := by
    unfold lastValue?
    rw [List.filter_append, List.filter_append, List.filter_cons_of_pos (by rfl),
      List.filterMap_append, List.filterMap_append, List.filterMap_cons, hnone]
  have hsingles : ((above ++ .file none false :: below).filter fun l => !l.isFile) =
      (above ++ below).filter fun l => !l.isFile := by
    rw [List.filter_append, List.filter_append, List.filter_cons_of_neg Bool.false_ne_true]
  rw [winner?, winner?, hfiles, hsingles]

lemma filterMap_single?_absent (above below : List Layer) :
    (above ++ .file none false :: below).filterMap w.single? =
      (above ++ below).filterMap w.single? := by
  rw [List.filterMap_append, List.filterMap_append, List.filterMap_cons_none (by rfl)]

/-- Layers with the same winners are loaded as the same settings. -/
lemma MergeRules.load_congr (rules : w.MergeRules) {layers layers' : List Layer}
    (h : ∀ l ∈ layers, w.Orderly l) (h' : ∀ l ∈ layers', w.Orderly l)
    (hspelled : w.SpelledAlike layers)
    (hsingles : layers'.filterMap w.single? = layers.filterMap w.single?)
    (hwinner : ∀ s, w.winner? layers' s = w.winner? layers s) (t : Settings) :
    Settings.load lib layers' = .ok t ↔ Settings.load lib layers = .ok t := by
  have hspelled' : w.SpelledAlike layers' := by
    unfold SpelledAlike
    rw [hsingles]
    exact hspelled
  rw [rules.load_eq_ok_iff h hspelled, rules.load_eq_ok_iff h' hspelled', funext hwinner]

end ConfigLibrary.Workings

namespace Settings

open ConfigLibrary

/-- **The last layer that sets a setting wins**, overrides before all files. The library follows the
rules, each layer can be read and sets each setting once at most, by a plain value at its own path;
an override by the path in any letters does so. Then the settings are what the four winners are
converted to; so there are settings if and only if each winner can be converted, and no value that
another layer replaces can do harm. Overrides may stand anywhere among the files, and a file that
may be missing and is may stand anywhere too.

If the library tells paths of other letters apart, overrides of one setting have no order among each
other, so they are to be spelled alike then. -/
theorem load_lastWriter {lib : ConfigLibrary} (w : lib.Workings) (rules : w.MergeRules)
    (layers : List Layer) (h : ∀ l ∈ layers, w.Orderly l)
    (hkeys : w.LowersPaths ∨ w.SpelledAlike layers) :
    (∀ (s : Setting) first last v, [asciiLower first, asciiLower last] = s.path →
      v.isTable = false → w.Orderly (.override (first ++ "." ++ last) v) ∧
        w.value? (.override (first ++ "." ++ last) v) s = some v) ∧
    (∀ t, load lib layers = .ok t ↔ w.ReadsAs (w.winner? layers) t) ∧
    ((∃ t, load lib layers = .ok t) ↔
      ∀ s : Setting, ∃ v, w.winner? layers s = some v ∧ w.converts s v = true) ∧
    (∀ layers' : List Layer, layers'.filter Layer.isFile = layers.filter Layer.isFile →
      (layers'.filter fun l => !l.isFile) = (layers.filter fun l => !l.isFile) →
      ∀ t, load lib layers' = .ok t ↔ load lib layers = .ok t) ∧
    ∀ above below, layers = above ++ below →
      ∀ t, load lib (above ++ .file none false :: below) = .ok t ↔ load lib layers = .ok t := by
  have hspelled : w.SpelledAlike layers := hkeys.elim (fun hlower => hlower.spelledAlike layers) id
  have hload := rules.load_eq_ok_iff h hspelled
  refine ⟨?_, hload, ?_, ?_, ?_⟩
  · intro s first last v hpath hv
    obtain ⟨steps, hsteps, hleads⟩ := rules.exists_leadsTo hpath
    exact Workings.orderly_override hsteps hleads hv
  · simp only [hload]
    exact Workings.exists_readsAs_iff
  · intro layers' hfiles hsingles
    apply rules.load_congr h _ hspelled
    · rw [← Workings.filterMap_single?_filter, hsingles, Workings.filterMap_single?_filter]
    · intro s
      rw [Workings.winner?, Workings.winner?, hfiles, hsingles]
    · intro l hl
      rcases Workings.mem_filter_isFile_or hl with hl | hl
      · rw [hfiles] at hl
        exact h l (List.mem_of_mem_filter hl)
      · rw [hsingles] at hl
        exact h l (List.mem_of_mem_filter hl)
  · rintro above below rfl
    apply rules.load_congr h _ hspelled
    · exact Workings.filterMap_single?_absent above below
    · exact Workings.winner?_absent above below
    · intro l hl
      rcases List.mem_append.mp hl with hl | hl
      · exact h l (List.mem_append_left _ hl)
      · rcases List.mem_cons.mp hl with rfl | hl
        · exact Workings.orderly_absent
        · exact h l (List.mem_append_right _ hl)

/-- A list where a style is wanted does no harm below overrides, which stand before the file, in
other letters each, and of which the later one wins; of two files the later one gives the filter,
and a section without entries and a setting of another sort change nothing. -/
theorem load_lastWriter_styles :
    let layers : List Layer :=
      [.override "Completion.TEMPLATES" .nil,
        .override "completion.Templates" (.text "Defaults"),
        .file (some "completion.templates=[]\nlogging.filter=5".toList) true,
        .override "rows[2].filter" .nil,
        .file (some "[Logging]\nFilter='off'\n[hover]".toList) false]
    (∀ l ∈ layers, standardWorkings.Orderly l) ∧
    load .standard layers = .ok ⟨.defaults, true, "dimensionless", "off"⟩ ∧
    load .standard (.file none false :: layers) = .ok ⟨.defaults, true, "dimensionless", "off"⟩ ∧
    load .standard (layers.filter Layer.isFile ++ layers.filter fun l => !l.isFile) =
      .ok ⟨.defaults, true, "dimensionless", "off"⟩ := by
  intro layers
  have hlayers : (∀ l ∈ layers, standardWorkings.Orderly l) ∧
      (standardWorkings.winner? layers .templates).bind standardWorkings.style? = some .defaults ∧
      (standardWorkings.winner? layers .filter).bind standardWorkings.text? = some "off" ∧
      ∀ s ∈ [Setting.appendUnits, Setting.dimensionlessLabel],
        ((standardWorkings.lastValue? (layers.filter fun l => !l.isFile) s).or
          (standardWorkings.lastValue? (layers.filter Layer.isFile) s)).isNone = true := by
    simp only [layers]
    repeat rw [String.toList_ofList]
    decide +kernel
  obtain ⟨horderly, hstyle, hfilter, hunset⟩ := hlayers
  obtain ⟨-, hload, -, hmove, habsent⟩ := load_lastWriter standardWorkings standard_mergeRules
    layers horderly (Or.inl standard_lowersPaths)
  have hsettings : load .standard layers = .ok ⟨.defaults, true, "dimensionless", "off"⟩ := by
    refine (hload _).mpr ⟨hstyle, ?_, ?_, hfilter⟩
    · rw [Workings.winner?, Option.isNone_iff_eq_none.mp (hunset _ (by simp)), Option.none_or]
      exact builtInLayer_reads.2.appendUnits
    · rw [Workings.winner?, Option.isNone_iff_eq_none.mp (hunset _ (by simp)), Option.none_or]
      exact builtInLayer_reads.2.dimensionlessLabel
  exact ⟨horderly, hsettings, (habsent [] layers rfl _).mpr hsettings,
    (hmove _ (by rfl) (by rfl) _).mpr hsettings⟩

end Settings

end TopologyAssist
