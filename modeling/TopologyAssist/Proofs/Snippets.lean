import TopologyAssist.Completion
import TopologyAssist.Proofs.Rendering

/-!
The text that a snippet stands for once it is inserted.

`Snippet.expand` puts the text of each tab stop in its place. It undoes what a template does to the
text of a placeholder, so a template stands for its fields, and the text of a template is balanced
whenever the names and placeholders of the fields are plain.
-/

namespace TopologyAssist

namespace Snippet

/-! ### Expanding -/

/-- What of a snippet is being read. -/
inductive Mode where
  | text
  /-- Behind a dollar sign. -/
  | dollar
  /-- The number of a tab stop. -/
  | number
  /-- The text of a tab stop. -/
  | placeholder
  /-- Behind a backslash in the text of a tab stop. -/
  | escaped
  deriving DecidableEq, Repr

/-- The text that the rest of a snippet stands for. -/
def expandFrom : Mode → List Char → List Char
  | .text, [] | .number, [] | .placeholder, [] | .escaped, [] => []
  | .dollar, [] => ['$']
  | .text, c :: cs => if c = '$' then expandFrom .dollar cs else c :: expandFrom .text cs
  | .dollar, c :: cs =>
    if c = '0' then expandFrom .text cs
    else if c = '\x7b' then expandFrom .number cs
    else '$' :: c :: expandFrom .text cs
  | .number, c :: cs => expandFrom (if c = ':' then .placeholder else .number) cs
  | .placeholder, c :: cs =>
    if c = '\x7d' then expandFrom .text cs
    else if c = '\\' then expandFrom .escaped cs
    else c :: expandFrom .placeholder cs
  | .escaped, c :: cs => c :: expandFrom .placeholder cs

section Steps

variable (c : Char) (cs : List Char)

lemma expandFrom_text_cons : expandFrom .text (c :: cs) =
    if c = '$' then expandFrom .dollar cs else c :: expandFrom .text cs := rfl

lemma expandFrom_dollar_cons : expandFrom .dollar (c :: cs) =
    if c = '0' then expandFrom .text cs
    else if c = '\x7b' then expandFrom .number cs
    else '$' :: c :: expandFrom .text cs := rfl

lemma expandFrom_number_cons : expandFrom .number (c :: cs) =
    expandFrom (if c = ':' then .placeholder else .number) cs := rfl

lemma expandFrom_placeholder_cons : expandFrom .placeholder (c :: cs) =
    if c = '\x7d' then expandFrom .text cs
    else if c = '\\' then expandFrom .escaped cs
    else c :: expandFrom .placeholder cs := rfl

lemma expandFrom_escaped_cons :
    expandFrom .escaped (c :: cs) = c :: expandFrom .placeholder cs := rfl

end Steps

/-- The text that a snippet stands for: that of its tab stops in their places, and nothing for the
last stop `$0`. -/
def expand (snippet : String) : List Char := expandFrom .text snippet.toList

/-- A snippet up to its last stop `$0`. -/
def beforeStop : List Char → List Char
  | [] => []
  | c :: cs => if c = '$' ∧ cs.head? = some '0' then [] else c :: beforeStop cs

/-- The beginning of a snippet stands for this text, whatever follows. -/
def Expands (s : String) (u : List Char) : Prop :=
  ∀ rest, expandFrom .text (s.toList ++ rest) = u ++ expandFrom .text rest

lemma Expands.expand {s : String} {u : List Char} (h : Expands s u) : Snippet.expand s = u := by
  have hend : expandFrom .text [] = [] := rfl
  simpa [Snippet.expand, hend] using h []

lemma Expands.append {s s' : String} {u u' : List Char} (h : Expands s u) (h' : Expands s' u') :
    Expands (s ++ s') (u ++ u') := by
  intro rest
  rw [String.toList_append, List.append_assoc, h, h', List.append_assoc]

/-- Text without a dollar sign stands for itself. -/
lemma expandFrom_text {u : List Char} (hu : '$' ∉ u) (rest : List Char) :
    expandFrom .text (u ++ rest) = u ++ expandFrom .text rest := by
  induction u with
  | nil => rfl
  | cons c u ih =>
    obtain ⟨hc, hu⟩ := not_or.mp (List.mem_cons.not.mp hu)
    rw [List.cons_append, expandFrom_text_cons, if_neg (Ne.symm hc), ih hu, List.cons_append]

lemma expands_of_not_mem {s : String} (h : '$' ∉ s.toList) : Expands s s.toList :=
  expandFrom_text h

lemma beforeStop_append {u : List Char} (hu : '$' ∉ u) (rest : List Char) :
    beforeStop (u ++ '$' :: '0' :: rest) = u := by
  induction u with
  | nil => rfl
  | cons c u ih =>
    obtain ⟨hc, hu⟩ := not_or.mp (List.mem_cons.not.mp hu)
    rw [List.cons_append, beforeStop, if_neg (fun h => hc h.1.symm), ih hu]

lemma expandFrom_number {digits : List Char} (h : ':' ∉ digits) (rest : List Char) :
    expandFrom .number (digits ++ ':' :: rest) = expandFrom .placeholder rest := by
  induction digits with
  | nil => rfl
  | cons c cs ih =>
    obtain ⟨hc, hcs⟩ := not_or.mp (List.mem_cons.not.mp h)
    rw [List.cons_append, expandFrom_number_cons, if_neg (Ne.symm hc), ih hcs]

/-- **Reading the text of a tab stop undoes its escapes.** -/
lemma expandFrom_escapeChars (cs rest : List Char) :
    expandFrom .placeholder (Template.escapeChars cs ++ '\x7d' :: rest) =
      cs ++ expandFrom .text rest := by
  induction cs with
  | nil => rfl
  | cons c cs ih =>
    rw [Template.escapeChars] at ih
    rw [Template.escapeChars, List.flatMap_cons, List.append_assoc]
    by_cases hc : Template.isSpecial c = true
    · rw [if_pos hc]
      simp only [List.cons_append, List.nil_append, expandFrom_placeholder_cons,
        expandFrom_escaped_cons, ih]
      simp
    · rw [if_neg hc]
      simp only [Template.isSpecial, Bool.or_eq_true, beq_iff_eq, not_or] at hc
      simp only [List.cons_append, List.nil_append, expandFrom_placeholder_cons, ih,
        if_neg hc.1.2, if_neg hc.2]

/-- A tab stop stands for its text. -/
lemma expands_tabStop (index : Nat) (text : String) :
    Expands (Template.tabStop index text) text.toList := by
  intro rest
  have hdigits : ':' ∉ (toString index).toList := by
    rw [Nat.toString_eq_repr, Nat.toList_repr]
    intro h
    exact absurd (Nat.isDigit_of_mem_toDigits (by decide) (by decide) h) (by decide)
  have hsplit : (Template.tabStop index text).toList ++ rest =
      '$' :: '\x7b' :: ((toString index).toList ++
        ':' :: (Template.escapeChars text.toList ++ '\x7d' :: rest)) := by
    simp [Template.tabStop, Template.escape]
  rw [hsplit, expandFrom_text_cons, if_pos rfl, expandFrom_dollar_cons, if_neg (by decide),
    if_pos rfl, expandFrom_number hdigits, expandFrom_escapeChars]

/-! ### Balanced templates -/

/-- The snippet stands for a text with blocks to this depth. -/
def Balanced (depth : Nat) (s : String) : Prop := ∃ u, Expands s u ∧ Nested depth u

namespace Balanced

variable {depth : Nat} {s s' : String}

lemma append (h : Balanced depth s) (h' : Balanced depth s') : Balanced depth (s ++ s') := by
  obtain ⟨u, hu, hn⟩ := h
  obtain ⟨u', hu', hn'⟩ := h'
  exact ⟨u ++ u', hu.append hu', hn.append hn'⟩

lemma of_plain (hd : '$' ∉ s.toList) (hs : ∀ c ∈ s.toList, isPlain c = true) : Balanced depth s :=
  ⟨s.toList, expands_of_not_mem hd, Nested.of_plain hs⟩

lemma tabStop {text : String} (h : IsValue text.toList) (index : Nat) :
    Balanced depth (Template.tabStop index text) :=
  ⟨text.toList, expands_tabStop index text, Nested.of_plain h.plain⟩

lemma of_zero (h : Balanced 0 s) : Balanced depth s := by
  obtain ⟨u, hu, hn⟩ := h
  exact ⟨u, hu, Nested.of_plain (Nested.zero_iff.mp hn)⟩

lemma intercalate {parts : List String} (h : ∀ s ∈ parts, Balanced depth s) :
    Balanced depth (",".intercalate parts) := by
  induction parts with
  | nil => exact of_plain (by decide) (List.all_eq_true.mp (by decide))
  | cons s parts ih =>
    cases parts with
    | nil =>
      rw [String.intercalate_singleton]
      exact h s (by simp)
    | cons s' parts =>
      rw [String.intercalate_cons_cons]
      have hcomma : Balanced depth "," := of_plain (by decide) (List.all_eq_true.mp (by decide))
      exact ((h s (by simp)).append hcomma).append (ih fun t ht => h t (List.mem_cons_of_mem _ ht))

end Balanced

end Snippet

/-- A text that is inserted as it is, as a value that is not empty. -/
def IsLiteral (w : String) : Prop := w ≠ "" ∧ IsValue w.toList ∧ '$' ∉ w.toList

instance (w : String) : Decidable (IsLiteral w) := inferInstanceAs (Decidable (_ ∧ _))

/-- What is written for a field keeps its meaning: the name is a key and no code of a slot, the
label may be a value, and the values may be inserted as they are, with and without their unit. -/
structure FieldSpec.Writable (f : FieldSpec) : Prop where
  isKey : IsKey f.name.toList
  ne_slot : ∀ slot ∈ FamilyCode.all, slot.text.toList ≠ f.name.toList
  detail_ne : f.detail ≠ ""
  isValue_detail : IsValue f.detail.toList
  literal : ∀ v ∈ f.validValues ++ f.defaultValue.toList,
    IsLiteral v ∧ IsLiteral (f.formatValue v)

instance (f : FieldSpec) : Decidable f.Writable :=
  decidable_of_iff (IsKey f.name.toList ∧
      (∀ slot ∈ FamilyCode.all, slot.text.toList ≠ f.name.toList) ∧ f.detail ≠ "" ∧
      IsValue f.detail.toList ∧ ∀ v ∈ f.validValues ++ f.defaultValue.toList,
        IsLiteral v ∧ IsLiteral (f.formatValue v))
    ⟨fun ⟨h₁, h₂, h₃, h₄, h₅⟩ => ⟨h₁, h₂, h₃, h₄, h₅⟩,
      fun ⟨h₁, h₂, h₃, h₄, h₅⟩ => ⟨h₁, h₂, h₃, h₄, h₅⟩⟩

lemma IsKey.not_mem_dollar {key : List Char} (hkey : IsKey key) : '$' ∉ key :=
  fun h => absurd (hkey.2 '$' h) (by decide)

namespace Template

open Snippet

lemma isValue_placeholder {f : FieldSpec} (hf : f.Writable) (useDefaults : Bool) :
    IsValue (placeholder f useDefaults).toList := by
  unfold placeholder
  split
  · rename_i only h
    exact (hf.literal only (by simp [h])).1.2.1
  · split_ifs
    · unfold FieldSpec.formattedDefault
      cases h : f.defaultValue with
      | none => exact hf.isValue_detail
      | some v => exact (hf.literal v (by simp [h])).2.2.1
    · exact hf.isValue_detail

lemma balanced_field {f : FieldSpec} (hf : f.Writable) (useDefaults : Bool) (index : Nat) :
    Balanced 0 (field useDefaults index f) := by
  have hname : Balanced 0 f.name :=
    Balanced.of_plain hf.isKey.not_mem_dollar hf.isKey.isValue.plain
  have hequals : Balanced 0 "=" :=
    Balanced.of_plain (by decide) (List.all_eq_true.mp (by decide))
  exact (hname.append hequals).append (Balanced.tabStop (isValue_placeholder hf useDefaults) index)

lemma balanced_fields {fs : List FieldSpec} (hfs : ∀ f ∈ fs, f.Writable) (useDefaults : Bool)
    (next : Nat) : Balanced 0 (fields useDefaults next fs).1 := by
  refine Balanced.intercalate ?_
  induction fs generalizing next with
  | nil => simp [fieldParts]
  | cons f fs ih =>
    intro s hs
    rcases List.mem_cons.mp hs with rfl | hs
    · exact balanced_field (hfs f (by simp)) useDefaults next
    · exact ih (fun f' hf' => hfs f' (List.mem_cons_of_mem _ hf')) (next + 1) s hs

/-- A block of a slot stands for the block of what is in it. -/
lemma expands_block {inner : String} {u : List Char} (hu : Expands inner u) (slot : FamilyCode) :
    Expands (slot.text ++ "=(" ++ inner ++ ")")
      (slot.text.toList ++ '=' :: '(' :: (u ++ [')'])) := by
  have hslot : Expands slot.text slot.text.toList :=
    expands_of_not_mem slot.isKey_text.not_mem_dollar
  have hopen : Expands "=(" ['=', '('] := expands_of_not_mem (by decide)
  have hclose : Expands ")" [')'] := expands_of_not_mem (by decide)
  have hall := ((hslot.append hopen).append hu).append hclose
  simpa only [List.append_assoc, List.cons_append, List.nil_append] using hall

lemma balanced_block {inner : String} (h : Balanced 0 inner) (slot : FamilyCode) :
    Balanced 1 (slot.text ++ "=(" ++ inner ++ ")") := by
  obtain ⟨u, hu, hn⟩ := h
  exact ⟨_, expands_block hu slot, nested_block hn slot⟩

variable {g : Grammar} (hg : ∀ c k, g.defaultKind? c = some k → ∀ f ∈ k.fields, f.Writable)
include hg

lemma balanced_blocks (useDefaults : Bool) (next : Nat) (slots : List FamilyCode) :
    ∀ s ∈ (blocks g useDefaults next slots).1, Balanced 1 s := by
  induction slots generalizing next with
  | nil => simp [blocks]
  | cons slot slots ih =>
    cases hk : g.defaultKind? (.ofFamily slot) with
    | none =>
      simp only [blocks, hk]
      exact ih next
    | some k =>
      simp only [blocks, hk]
      intro s hs
      rcases List.mem_cons.mp hs with rfl | hs
      · exact balanced_block (balanced_fields (hg _ k hk) useDefaults next) slot
      · exact ih _ s hs

/-- **The text of a template is balanced**, and has blocks only if its kind has slots. -/
theorem balanced_element {k : ElementKind} (hk : ∀ f ∈ k.fields, f.Writable) {depth : Nat}
    (hdepth : k.slots = [] ∨ depth = 1) (useDefaults : Bool) (next : Nat) :
    Balanced depth (element g useDefaults next k).1 := by
  have hown : Balanced depth (fields useDefaults next k.fields).1 :=
    (balanced_fields hk useDefaults next).of_zero
  refine Balanced.intercalate fun s hs => ?_
  rcases List.mem_cons.mp (List.mem_of_mem_filter hs) with rfl | hs
  · exact hown
  · rcases hdepth with hnil | rfl
    · rw [hnil] at hs
      exact absurd hs (by simp [blocks])
    · exact balanced_blocks hg useDefaults _ _ s hs

end Template

end TopologyAssist
