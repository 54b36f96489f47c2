import Mathlib.Data.List.Perm.Basic
import TopologyAssist.Proofs.Merging
import TopologyAssist.Settings.Library

/-!
The rules of a configuration library.

What a library does is told by what lies behind its functions: the layers that a builder holds, how
a path and a file are read, how a value is merged and how it is converted.

* `ConfigLibrary.Workings` has these, and `Workings.leaves` takes a layer apart by them;
* `Workings.Orderly` — the layer can be read, and it sets each setting once at most, by a plain
  value at the setting's own path;
* `Workings.MergeRules` are the rules that the library follows: files are merged in order, overrides
  after all of them and in no order that is known, and keys without regard to case;
* `ConfigLibrary.standard_mergeRules`: the library of the program follows them.
-/

namespace TopologyAssist

/-- The settings of a configuration. -/
inductive Setting where
  | templates | appendUnits | dimensionlessLabel | filter
  deriving DecidableEq, Repr

namespace Setting

/-- Every setting. -/
def all : List Setting := [templates, appendUnits, dimensionlessLabel, filter]

lemma mem_all (s : Setting) : s ∈ all := by
  cases s <;> decide

/-- The names that lead to a setting. -/
def path : Setting → List String
  | templates => ["completion", "templates"]
  | appendUnits => ["completion", "append_units"]
  | dimensionlessLabel => ["hover", "dimensionless_label"]
  | filter => ["logging", "filter"]

/-- The path that leads to a setting. -/
def steps (s : Setting) : List Step := s.path.map Step.key

lemma exists_path (s : Setting) : ∃ k ks, s.path = k :: ks := by
  cases s <;> exact ⟨_, _, rfl⟩

end Setting

/-- The name with the letters of ASCII in small ones. -/
def asciiLower (name : String) : String := String.ofList (name.toList.map Char.toLower)

/-- The name can stand in a path. -/
def isPathName (name : String) : Bool := !name.toList.isEmpty && name.toList.all isPathChar

/-- What lies behind the functions of a library. -/
structure ConfigLibrary.Workings (lib : ConfigLibrary) where
  /-- What becomes of a key. -/
  lower : String → String
  /-- The path of an override. -/
  path? : String → Option (List Step)
  /-- The values that the text of a file sets, by their paths. -/
  entries? : List Char → Option (List (List Step × ConfigValue))
  /-- Puts a value at the end of a path of a configuration. -/
  put : ConfigValue → List Step → ConfigValue → ConfigValue
  /-- The files of a builder, in order. -/
  files : lib.Builder → List (Option (List Char) × Bool)
  /-- The overrides of a builder, in the order in which they are applied. -/
  overrides : lib.Builder → List (List Step × ConfigValue)
  style? : ConfigValue → Option TemplateStyle
  bool? : ConfigValue → Option Bool
  text? : ConfigValue → Option String

namespace ConfigLibrary.Workings

variable {lib : ConfigLibrary} (w : lib.Workings)

/-! ### What a layer sets -/

/-- The values that a file puts at the ends of paths; nothing if it cannot be read. One that may be
missing and is sets nothing. -/
def fileWrites? : Option (List Char) × Bool → Option (List (List Step × ConfigValue))
  | (some text, _) => w.entries? text
  | (none, required) => if required then none else some []

/-- The values that a layer puts at the ends of paths; nothing if the layer cannot be read. -/
def writes? : Layer → Option (List (List Step × ConfigValue))
  | .override path v => (w.path? path).map fun steps => [(steps, v)]
  | .file text required => w.fileWrites? (text, required)

/-- The values that are put at the ends of paths, leaf by leaf. -/
def leavesOf (writes : List (List Step × ConfigValue)) : List (List Step × ConfigValue) :=
  writes.flatMap fun write => write.2.leavesAt w.lower write.1

/-- What a layer sets, value by value. -/
def leaves (l : Layer) : List (List Step × ConfigValue) := w.leavesOf ((w.writes? l).getD [])

/-- The value that a layer gives a setting. -/
def value? (l : Layer) (s : Setting) : Option ConfigValue :=
  ((w.leaves l).find? fun leaf => leaf.1 == s.steps).map Prod.snd

/-- The path is that of a setting, in any letters. -/
def leadsTo (path : List Step) (s : Setting) : Bool :=
  path.map (Step.lower w.lower) == s.steps

/-- An override sets a setting by the setting's own path only. -/
def ownPath : Layer → Bool
  | .file _ _ => true
  | .override path v => Setting.all.all fun s =>
    (w.value? (.override path v) s).isNone || (w.path? path).any fun steps => w.leadsTo steps s

/-- The layer can be read, and sets each setting once at most, by a plain value at its own path.
What else it sets is not on the way to a setting. -/
structure Orderly (l : Layer) : Prop where
  readable : (w.writes? l).isSome = true
  fits : ∀ s : Setting, ∀ leaf ∈ w.leaves l, fits s.path leaf = true
  once : ∀ s : Setting, ((w.leaves l).filter fun leaf => leaf.1 == s.steps).length ≤ 1
  own : w.ownPath l = true

lemma orderly_iff {l : Layer} :
    w.Orderly l ↔ (w.writes? l).isSome = true ∧ w.ownPath l = true ∧ ∀ s ∈ Setting.all,
      (∀ leaf ∈ w.leaves l, TopologyAssist.fits s.path leaf = true) ∧
        ((w.leaves l).filter fun leaf => leaf.1 == s.steps).length ≤ 1 := by
  constructor
  · rintro ⟨hreadable, hfits, honce, hown⟩
    exact ⟨hreadable, hown, fun s _ => ⟨hfits s, honce s⟩⟩
  · rintro ⟨hreadable, hown, h⟩
    exact ⟨hreadable, fun s => (h s s.mem_all).1, fun s => (h s s.mem_all).2, hown⟩

instance (l : Layer) : Decidable (w.Orderly l) := decidable_of_iff _ w.orderly_iff.symm

/-! ### The rules -/

/-- The values of the settings are converted to these settings. -/
structure ReadsAs (value : Setting → Option ConfigValue) (t : Settings) : Prop where
  templates : (value .templates).bind w.style? = some t.templates
  appendUnits : (value .appendUnits).bind w.bool? = some t.appendUnits
  dimensionlessLabel : (value .dimensionlessLabel).bind w.text? = some t.dimensionlessLabel
  filter : (value .filter).bind w.text? = some t.filter

lemma readsAs_iff {value : Setting → Option ConfigValue} {t : Settings} :
    w.ReadsAs value t ↔ (value .templates).bind w.style? = some t.templates ∧
      (value .appendUnits).bind w.bool? = some t.appendUnits ∧
      (value .dimensionlessLabel).bind w.text? = some t.dimensionlessLabel ∧
      (value .filter).bind w.text? = some t.filter := by
  constructor
  · rintro ⟨hstyle, hunits, hlabel, hfilter⟩
    exact ⟨hstyle, hunits, hlabel, hfilter⟩
  · rintro ⟨hstyle, hunits, hlabel, hfilter⟩
    exact ⟨hstyle, hunits, hlabel, hfilter⟩

instance (value : Setting → Option ConfigValue) (t : Settings) : Decidable (w.ReadsAs value t) :=
  decidable_of_iff _ w.readsAs_iff.symm

/-- What is converted has a value. -/
lemma ReadsAs.isSome {w : lib.Workings} {value : Setting → Option ConfigValue} {t : Settings}
    (h : w.ReadsAs value t) (s : Setting) : (value s).isSome = true := by
  cases s with
  | templates => exact Option.isSome_of_isSome_bind (Option.isSome_of_eq_some h.templates)
  | appendUnits => exact Option.isSome_of_isSome_bind (Option.isSome_of_eq_some h.appendUnits)
  | dimensionlessLabel =>
    exact Option.isSome_of_isSome_bind (Option.isSome_of_eq_some h.dimensionlessLabel)
  | filter => exact Option.isSome_of_isSome_bind (Option.isSome_of_eq_some h.filter)

/-- The built-in configuration as a layer. -/
def builtInLayer : Layer := .file (some builtInText) true

/-- The rules of a library. -/
structure MergeRules : Prop where
  /-- A key in the letters of ASCII is taken in small ones. -/
  lower_ascii : ∀ key : String, (∀ c ∈ key.toList, c.toNat < 128) → w.lower key = asciiLower key
  /-- Values are merged step by step. -/
  merged : PutRules w.lower w.put
  path_ne_nil : ∀ key steps, w.path? key = some steps → steps ≠ []
  /-- Names with a dot between them are a path. -/
  dotted : ∀ first last : String, isPathName first = true → isPathName last = true →
    ∃ steps, w.path? (first ++ "." ++ last) = some steps ∧
      steps.map (Step.lower w.lower) = [.key (w.lower first), .key (w.lower last)]
  entries_ne_nil : ∀ text writes, w.entries? text = some writes → ∀ write ∈ writes, write.1 ≠ []
  empty : w.files lib.empty = [] ∧ w.overrides lib.empty = []
  /-- Files are kept in order. -/
  addFile : ∀ b text required,
    w.files (lib.addFile b text required) = w.files b ++ [(text, required)] ∧
      w.overrides (lib.addFile b text required) = w.overrides b
  /-- Of two overrides of one path the later one is kept. In which order overrides of several paths
  are kept is not said. -/
  setOverride : ∀ b key v steps, w.path? key = some steps →
    ∃ b', lib.setOverride b key v = .ok b' ∧ w.files b' = w.files b ∧
      (w.overrides b').Perm ((steps, v) :: (w.overrides b).filter fun x => x.1 != steps)
  /-- Readable files are merged in order, and the overrides after all of them. -/
  build : ∀ b writes, (w.files b).mapM w.fileWrites? = some writes →
    lib.build b = .ok ((writes.flatten ++ w.overrides b).foldl
      (fun root write => w.put root write.1 write.2) (.table []))
  /-- The built-in configuration sets each setting. -/
  builtIn : w.Orderly builtInLayer ∧ ∀ s, (w.value? builtInLayer s).isSome = true
  /-- Where each setting has a value, these are converted, and all other keys are ignored. -/
  deserialize : ∀ root, (∀ s : Setting, (root.valueAt? s.path).isSome = true) → ∀ t,
    lib.deserialize root = .ok t ↔ w.ReadsAs (fun s => root.valueAt? s.path) t

/-- The path of an override is kept in small letters. -/
def LowersPaths : Prop :=
  ∀ key steps, w.path? key = some steps → steps.map (Step.lower w.lower) = steps

end ConfigLibrary.Workings

/-! ### Lower case -/

lemma lowerBehind_ascii (before : List Char) {cs : List Char} (h : ∀ c ∈ cs, c.toNat < 128) :
    lowerBehind before cs = cs.map Char.toLower := by
  induction cs generalizing before with
  | nil => rfl
  | cons c cs ih =>
    have hsigma : c ≠ 'Σ' := by
      rintro rfl
      exact absurd (h 'Σ' List.mem_cons_self) (by decide)
    rw [lowerBehind, if_neg hsigma, lowerChar, if_pos (h c List.mem_cons_self),
      ih _ fun c hc => h c (List.mem_cons_of_mem _ hc)]
    rfl

lemma lowerCase_ascii {text : String} (h : ∀ c ∈ text.toList, c.toNat < 128) :
    lowerCase text = asciiLower text := by
  rw [lowerCase, lowerBehind_ascii [] h, asciiLower]

lemma toNat_toLower_ascii {c : Char} (h : c.toNat < 128) :
    c.toLower.toNat < 128 ∧ c.toLower.toLower = c.toLower := by
  have hall : ∀ n < 128, (Char.ofNat n).toLower.toNat < 128 ∧
      (Char.ofNat n).toLower.toLower = (Char.ofNat n).toLower := by decide +kernel
  simpa using hall c.toNat h

/-- Lower case is lower case. -/
lemma lowerCase_lowerCase_ascii {text : String} (h : ∀ c ∈ text.toList, c.toNat < 128) :
    lowerCase (lowerCase text) = lowerCase text := by
  have hsmall : ∀ c ∈ (lowerCase text).toList, c.toNat < 128 := by
    rw [lowerCase_ascii h, asciiLower, String.toList_ofList, List.forall_mem_map]
    exact fun c hc => (toNat_toLower_ascii (h c hc)).1
  rw [lowerCase_ascii hsmall, lowerCase_ascii h, asciiLower, asciiLower, String.toList_ofList,
    List.map_map]
  refine congrArg String.ofList (List.map_congr_left fun c hc => ?_)
  exact (toNat_toLower_ascii (h c hc)).2

/-! ### Paths -/

lemma toNat_of_isPathChar {c : Char} (h : isPathChar c = true) : c.toNat < 128 := by
  have hbelow : ∀ bound : UInt32, c.val ≤ bound → bound.toNat < 128 → c.toNat < 128 :=
    fun bound hle hbound => Nat.lt_of_le_of_lt (UInt32.le_iff_toNat_le.mp hle) hbound
  simp only [isPathChar, Bool.or_eq_true, beq_iff_eq] at h
  rcases h with ((h | rfl) | rfl) | rfl
  · -- letters and digits are runs of ASCII
    rcases Bool.or_eq_true_iff.mp h with h | hdigit
    · rcases Bool.or_eq_true_iff.mp h with hupper | hlower
      · exact hbelow 'Z'.val (of_decide_eq_true hupper).2 (by decide)
      · exact hbelow 'z'.val (of_decide_eq_true (Bool.and_eq_true_iff.mp hlower).2) (by decide)
    · exact hbelow '9'.val (of_decide_eq_true (Bool.and_eq_true_iff.mp hdigit).2) (by decide)
  all_goals decide

/-- A key of a path is in small letters. -/
lemma lower_keyStep? {cs rest : List Char} {step : Step} (h : keyStep? cs = some (step, rest)) :
    step.lower lowerCase = step := by
  have hname : ∀ c ∈ (String.ofList (cs.takeWhile isPathChar)).toList, c.toNat < 128 := by
    intro c hc
    rw [String.toList_ofList] at hc
    exact toNat_of_isPathChar (List.all_eq_true.mp List.all_takeWhile c hc)
  unfold keyStep? at h
  dsimp only at h
  split_ifs at h
  obtain ⟨rfl, -⟩ := Prod.mk.inj (Option.some.inj h)
  rw [Step.lower, lowerCase_lowerCase_ascii hname]

lemma lower_itemStep? {cs rest : List Char} {step : Step} (h : itemStep? cs = some (step, rest)) :
    step.lower lowerCase = step := by
  unfold itemStep? at h
  dsimp only at h
  split at h
  · split_ifs at h
    all_goals
      obtain ⟨rfl, -⟩ := Prod.mk.inj (Option.some.inj h)
      rfl
  · cases h

lemma lower_laterStep? {cs rest : List Char} {step : Step}
    (h : laterStep? cs = some (step, rest)) : step.lower lowerCase = step := by
  unfold laterStep? at h
  split at h
  · exact lower_keyStep? h
  · exact lower_itemStep? h
  · cases h

lemma lower_laterSteps? {fuel : Nat} {cs : List Char} {steps : List Step}
    (h : laterSteps? fuel cs = some steps) : steps.map (Step.lower lowerCase) = steps := by
  induction fuel generalizing cs steps with
  | zero => cases h
  | succ fuel ih =>
    rw [laterSteps?] at h
    split_ifs at h
    · obtain rfl := Option.some.inj h
      rfl
    · obtain ⟨⟨step, rest⟩, hstep, h⟩ := Option.bind_eq_some_iff.mp h
      obtain ⟨later, hlater, rfl⟩ := Option.map_eq_some_iff.mp h
      rw [List.map_cons, lower_laterStep? hstep, ih hlater]

/-- A path begins with a key, and all its keys are in small letters. -/
lemma parsePath?_eq_some {path : String} {steps : List Step} (h : parsePath? path = some steps) :
    steps ≠ [] ∧ steps.map (Step.lower lowerCase) = steps := by
  obtain ⟨⟨step, rest⟩, hstep, h⟩ := Option.bind_eq_some_iff.mp h
  obtain ⟨later, hlater, rfl⟩ := Option.map_eq_some_iff.mp h
  refine ⟨List.cons_ne_nil _ _, ?_⟩
  rw [List.map_cons, lower_keyStep? hstep, lower_laterSteps? hlater]

/-- A name and what follows it. -/
lemma keyStep?_append {name : String} (h : isPathName name = true) {rest : List Char}
    (hrest : rest.takeWhile isPathChar = []) :
    keyStep? (name.toList ++ rest) = some (.key (lowerCase name), rest) := by
  obtain ⟨hne, hall⟩ := Bool.and_eq_true_iff.mp h
  have htake : (name.toList ++ rest).takeWhile isPathChar = name.toList := by
    rw [List.takeWhile_append_of_pos (List.all_eq_true.mp hall), hrest, List.append_nil]
  rw [keyStep?, htake, if_neg (by simpa using hne), String.ofList_toList, List.drop_left]

lemma parsePath?_dotted {first last : String} (hfirst : isPathName first = true)
    (hlast : isPathName last = true) :
    parsePath? (first ++ "." ++ last) = some [.key (lowerCase first), .key (lowerCase last)] := by
  have htext : (first ++ "." ++ last).toList = first.toList ++ '.' :: last.toList := by simp
  have hstep : laterStep? ('.' :: last.toList) = some (.key (lowerCase last), []) := by
    rw [← List.append_nil last.toList]
    exact keyStep?_append hlast rfl
  have hlater : laterSteps? (('.' :: last.toList).length + 1) ('.' :: last.toList) =
      some [.key (lowerCase last)] := by
    rw [laterSteps?, if_neg (by simp), hstep]
    rfl
  rw [parsePath?, htext, keyStep?_append hfirst rfl, Option.bind_some]
  dsimp only
  rw [hlater]
  rfl

/-! ### Merging -/

namespace ConfigValue

lemma lookup_cons_eq (key k : String) (v : ConfigValue) (es : List (String × ConfigValue)) :
    ((key, v) :: es).lookup k = if k = key then some v else es.lookup k := by
  by_cases h : k = key
  · subst h
    rw [if_pos rfl, List.lookup_cons_self]
  · have hbeq : (k == key) = false := beq_eq_false_iff_ne.mpr h
    rw [if_neg h, List.lookup_cons, hbeq]

lemma lookup_assign (key k : String) (v : ConfigValue) (es : List (String × ConfigValue)) :
    (assign key v es).lookup k = if k = key then some v else es.lookup k := by
  induction es with
  | nil => rw [assign, lookup_cons_eq]
  | cons e es ih =>
    obtain ⟨name, x⟩ := e
    rw [assign]
    by_cases hname : name = key
    · -- the key keeps its place
      rw [if_pos hname, lookup_cons_eq, lookup_cons_eq, hname]
      split_ifs <;> rfl
    · rw [if_neg hname, lookup_cons_eq, lookup_cons_eq, ih]
      by_cases h : k = key
      · rw [if_pos h, if_pos h, if_neg fun hk => hname (hk.symm.trans h)]
      · rw [if_neg h, if_neg h]

lemma get?_table_assign (key k : String) (v root : ConfigValue) :
    (table (assign key v root.entries)).get? k = if k = key then some v else root.get? k :=
  lookup_assign key k v root.entries

lemma mergeEntries_eq (target : ConfigValue) (es : List (String × ConfigValue)) :
    mergeEntries target es = es.foldl (fun inner e => inner.putAt [.key e.1] e.2) target := by
  induction es generalizing target with
  | nil => rw [mergeEntries]; rfl
  | cons e es ih => rw [mergeEntries, ih, List.foldl_cons, putEntry, putAt]

/-- **Values are merged by the rules.** -/
theorem putRules : PutRules lowerCase putAt where
  other root name rest v k hk := by
    cases rest with
    | nil => cases v <;> rw [putAt, put, get?_table_assign, if_neg hk]
    | cons s rest =>
      rw [putAt, get?_table_assign, if_neg hk]
      exact List.cons_ne_nil _ _
  plain root name v hv := by
    cases v with
    | table es => cases hv
    | _ => rw [putAt, put, get?_table_assign, if_pos rfl]
  table root name es := by
    rw [putAt, put, get?_table_assign, if_pos rfl, mergeEntries_eq]
  deeper root name s rest v := by
    rw [putAt, get?_table_assign, if_pos rfl]
    exact List.cons_ne_nil _ _

end ConfigValue

/-! ### Reading -/

namespace Settings

/-- Two settings of one section lie in one table. -/
lemma exists_section {root w : ConfigValue} {name field : String}
    (h : root.valueAt? [name, field] = some w) :
    ∃ es, root.get? name = some (.table es) ∧ es.lookup field = some w := by
  obtain ⟨part, hpart, hfield⟩ := Option.bind_eq_some_iff.mp h
  obtain ⟨v, hv, hw⟩ := Option.bind_eq_some_iff.mp hfield
  obtain rfl := Option.some.inj hw
  cases part with
  | table es => exact ⟨es, hpart, hv⟩
  | _ => cases hv

lemma readTextSection_table {name title field : String} {es : List (String × ConfigValue)}
    {w : ConfigValue} (h : es.lookup field = some w) :
    readTextSection name title field (.table es) = readText (name ++ "." ++ field) w := by
  unfold readTextSection sectionValues
  simp only [List.map_cons, List.map_nil, h]
  rfl

lemma readCompletion_table {es : List (String × ConfigValue)} {style units : ConfigValue}
    (hstyle : es.lookup "templates" = some style) (hunits : es.lookup "append_units" = some units) :
    readCompletion (.table es) = (do
      let style ← readStyle style
      let units ← readBool ("completion" ++ "." ++ "append_units") units
      return (style, units)) := by
  unfold readCompletion sectionValues
  simp only [List.map_cons, List.map_nil, hstyle, hunits, bind, Except.bind, Option.mapM_some]
  cases readStyle style with
  | error e => rfl
  | ok style =>
    cases readBool ("completion" ++ "." ++ "append_units") units with
    | error e => rfl
    | ok units => rfl

/-- Where the settings have values, a configuration is read by these alone. -/
lemma ofValue_eq {root style units label filter : ConfigValue}
    (hstyle : root.valueAt? Setting.templates.path = some style)
    (hunits : root.valueAt? Setting.appendUnits.path = some units)
    (hlabel : root.valueAt? Setting.dimensionlessLabel.path = some label)
    (hfilter : root.valueAt? Setting.filter.path = some filter) :
    ofValue root = (do
      let style ← readStyle style
      let units ← readBool ("completion" ++ "." ++ "append_units") units
      let label ← readText ("hover" ++ "." ++ "dimensionless_label") label
      let filter ← readText ("logging" ++ "." ++ "filter") filter
      return ⟨style, units, label, filter⟩) := by
  obtain ⟨es, hcompletion, hstyle⟩ := exists_section hstyle
  obtain ⟨es', hcompletion', hunits⟩ := exists_section hunits
  obtain ⟨hs, hhover, hlabel⟩ := exists_section hlabel
  obtain ⟨ls, hlogging, hfilter⟩ := exists_section hfilter
  rw [hcompletion] at hcompletion'
  obtain rfl := ConfigValue.table.inj (Option.some.inj hcompletion')
  unfold ofValue
  simp only [hcompletion, hhover, hlogging, bind, Except.bind, readCompletion_table hstyle hunits,
    readTextSection_table hlabel, readTextSection_table hfilter]
  cases readStyle style with
  | error e => rfl
  | ok style =>
    cases readBool ("completion" ++ "." ++ "append_units") units with
    | error e => rfl
    | ok units => rfl

end Settings

lemma bind_eq_ok_iff {ε α β : Type} {x : Except ε α} {f : α → Except ε β} {b : β} :
    x >>= f = .ok b ↔ ∃ a, x = .ok a ∧ f a = .ok b := by
  cases x with
  | error e => simp [bind, Except.bind]
  | ok a => simp [bind, Except.bind]

lemma toOption_eq_some_iff {ε α : Type} {x : Except ε α} {a : α} :
    x.toOption = some a ↔ x = .ok a := by
  cases x with
  | error e => simp [Except.toOption]
  | ok a => simp [Except.toOption]

namespace ConfigLibrary

/-- What lies behind the library of the program. Under which key a value is converted makes no
difference but in messages. -/
def standardWorkings : standard.Workings where
  lower := lowerCase
  path? := parsePath?
  entries? := LayerStack.entries?
  put := ConfigValue.putAt
  files := LayerStack.files
  overrides := LayerStack.singles
  style? v := (Settings.readStyle v).toOption
  bool? v := (Settings.readBool "" v).toOption
  text? v := (Settings.readText "" v).toOption

lemma bool?_eq (key : String) (v : ConfigValue) :
    standardWorkings.bool? v = (Settings.readBool key v).toOption := by
  change (Settings.readBool "" v).toOption = _
  cases v with
  | text s =>
    unfold Settings.readBool
    simp only
    split_ifs <;> rfl
  | _ => rfl

lemma text?_eq (key : String) (v : ConfigValue) :
    standardWorkings.text? v = (Settings.readText key v).toOption := by
  cases v <;> rfl

/-- Settings are read as the four values are converted. -/
lemma ofValue_eq_ok_iff {root : ConfigValue}
    (h : ∀ s : Setting, (root.valueAt? s.path).isSome = true) (t : Settings) :
    Settings.ofValue root = .ok t ↔ standardWorkings.ReadsAs (fun s => root.valueAt? s.path) t := by
  obtain ⟨style, hstyle⟩ := Option.isSome_iff_exists.mp (h .templates)
  obtain ⟨units, hunits⟩ := Option.isSome_iff_exists.mp (h .appendUnits)
  obtain ⟨label, hlabel⟩ := Option.isSome_iff_exists.mp (h .dimensionlessLabel)
  obtain ⟨filter, hfilter⟩ := Option.isSome_iff_exists.mp (h .filter)
  rw [Settings.ofValue_eq hstyle hunits hlabel hfilter]
  simp only [bind_eq_ok_iff]
  constructor
  · rintro ⟨a, ha, b, hb, c, hc, d, hd, ht⟩
    obtain rfl := Except.ok.inj ht
    refine ⟨?_, ?_, ?_, ?_⟩
    · rw [hstyle]
      exact toOption_eq_some_iff.mpr ha
    · rw [hunits, Option.bind_some, bool?_eq]
      exact toOption_eq_some_iff.mpr hb
    · rw [hlabel, Option.bind_some, text?_eq]
      exact toOption_eq_some_iff.mpr hc
    · rw [hfilter, Option.bind_some, text?_eq]
      exact toOption_eq_some_iff.mpr hd
  · rintro ⟨ha, hb, hc, hd⟩
    rw [hstyle] at ha
    rw [hunits, Option.bind_some, bool?_eq] at hb
    rw [hlabel, Option.bind_some, text?_eq] at hc
    rw [hfilter, Option.bind_some, text?_eq] at hd
    exact ⟨_, toOption_eq_some_iff.mp ha, _, toOption_eq_some_iff.mp hb, _,
      toOption_eq_some_iff.mp hc, _, toOption_eq_some_iff.mp hd, rfl⟩

/-! ### Layers -/

/-- Readable files are put one over the other. -/
lemma mergeFiles_eq {files : List (Option (List Char) × Bool)}
    {writes : List (List (List Step × ConfigValue))}
    (h : files.mapM standardWorkings.fileWrites? = some writes) (root : ConfigValue) :
    LayerStack.mergeFiles root files = .ok (root.putAll writes.flatten) := by
  induction files generalizing root writes with
  | nil =>
    obtain rfl := Option.some.inj h
    rfl
  | cons file files ih =>
    rw [List.mapM_cons] at h
    obtain ⟨first, hfirst, h⟩ := Option.bind_eq_some_iff.mp h
    obtain ⟨rest, hrest, h⟩ := Option.bind_eq_some_iff.mp h
    obtain rfl := Option.some.inj h
    rw [List.flatten_cons, ConfigValue.putAll, List.foldl_append]
    obtain ⟨text, required⟩ := file
    cases text with
    | some text =>
      have htext : LayerStack.entries? text = some first := hfirst
      rw [LayerStack.mergeFiles, htext]
      exact ih hrest _
    | none =>
      rw [Workings.fileWrites?] at hfirst
      split_ifs at hfirst with hrequired
      obtain rfl := Option.some.inj hfirst
      rw [LayerStack.mergeFiles, if_neg hrequired]
      exact ih hrest _

lemma dotted_standard {first last : String} (hfirst : isPathName first = true)
    (hlast : isPathName last = true) :
    ∃ steps, parsePath? (first ++ "." ++ last) = some steps ∧
      steps.map (Step.lower lowerCase) = [.key (lowerCase first), .key (lowerCase last)] := by
  have hpath := parsePath?_dotted hfirst hlast
  exact ⟨_, hpath, (parsePath?_eq_some hpath).2⟩

lemma entries?_ne_nil {text : List Char} {writes : List (List Step × ConfigValue)}
    (h : LayerStack.entries? text = some writes) : ∀ write ∈ writes, write.1 ≠ [] := by
  obtain ⟨entries, -, rfl⟩ := Option.map_eq_some_iff.mp h
  rw [List.forall_mem_map]
  intro e _
  cases hpath : parsePath? e.1 with
  | none => exact List.cons_ne_nil _ _
  | some steps => exact (parsePath?_eq_some hpath).1

lemma setSingle_eq (b : LayerStack) {key : String} (v : ConfigValue) {steps : List Step}
    (h : parsePath? key = some steps) :
    ∃ b', b.setSingle key v = .ok b' ∧ b'.files = b.files ∧
      b'.singles.Perm ((steps, v) :: b.singles.filter fun x => x.1 != steps) := by
  rw [LayerStack.setSingle, h]
  exact ⟨_, rfl, rfl, List.perm_append_singleton _ _⟩

lemma build_eq (b : LayerStack) {writes : List (List (List Step × ConfigValue))}
    (h : b.files.mapM standardWorkings.fileWrites? = some writes) :
    (LayerStack.mergeFiles (.table []) b.files).map (fun root => root.putAll b.singles) =
      .ok (ConfigValue.putAll (.table []) (writes.flatten ++ b.singles)) := by
  rw [mergeFiles_eq h, ConfigValue.putAll, ConfigValue.putAll, List.foldl_append]
  rfl

/-- What the built-in configuration sets. -/
lemma builtInLayer_reads : standardWorkings.Orderly Workings.builtInLayer ∧
    standardWorkings.ReadsAs (standardWorkings.value? Workings.builtInLayer)
      ⟨.both, true, "dimensionless", "warn"⟩ := by
  unfold Workings.builtInLayer builtInText builtInLines
  simp only [List.flatMap_cons, List.flatMap_nil]
  -- the characters of a literal are evaluated slowly, so the text is spelled out before
  repeat rw [String.toList_ofList]
  decide +kernel

/-- **The library of the program follows the rules.** -/
theorem standard_mergeRules : standardWorkings.MergeRules where
  lower_ascii _ h := lowerCase_ascii h
  merged := ConfigValue.putRules
  path_ne_nil _ _ h := (parsePath?_eq_some h).1
  dotted _ _ hfirst hlast := dotted_standard hfirst hlast
  entries_ne_nil _ _ h := entries?_ne_nil h
  empty := ⟨rfl, rfl⟩
  addFile _ _ _ := ⟨rfl, rfl⟩
  setOverride b _ v _ h := setSingle_eq b v h
  build b _ h := build_eq b h
  builtIn := ⟨builtInLayer_reads.1, builtInLayer_reads.2.isSome⟩
  deserialize _ h t := ofValue_eq_ok_iff h t

lemma standard_lowersPaths : standardWorkings.LowersPaths := fun _ _ h => (parsePath?_eq_some h).2

end ConfigLibrary

end TopologyAssist
